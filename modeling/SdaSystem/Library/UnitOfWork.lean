import Mathlib.Data.List.Induction
import Mathlib.Data.List.Pairwise

/-!
A unit of work that several blocks share: what a block marks stays pending until a commit writes all
that is pending or a rollback discards it, also where the block itself does neither.
-/

namespace UnitOfWork

universe u

inductive Ending where
  | commit
  | rollback
  | abandon
  deriving DecidableEq

structure Block (α : Type u) where
  marks : List α
  ending : Ending

structure State (α : Type u) where
  written : List α := []
  pending : List α := []

variable {α : Type u}

def State.run (s : State α) (b : Block α) : State α :=
  match b.ending with
  | .commit => { written := s.written ++ (s.pending ++ b.marks), pending := [] }
  | .rollback => { s with pending := [] }
  | .abandon => { s with pending := s.pending ++ b.marks }

def runAll (blocks : List (Block α)) : State α :=
  blocks.foldl State.run {}

def committed (blocks : List (Block α)) : List α :=
  (blocks.filter (·.ending = .commit)).flatMap (·.marks)

theorem mem_committed {blocks : List (Block α)} {a : α}
    : a ∈ committed blocks ↔ ∃ b ∈ blocks, b.ending = .commit ∧ a ∈ b.marks := by
  simp [committed, and_assoc]

theorem runAll_concat (blocks : List (Block α)) (b : Block α)
    : runAll (blocks ++ [b]) = (runAll blocks).run b := by
  simp [runAll]

theorem committed_concat (blocks : List (Block α)) (b : Block α)
    : committed (blocks ++ [b]) = committed blocks ++ if b.ending = .commit then b.marks else [] := by
  unfold committed
  rw [List.filter_append, List.flatMap_append]
  split
  . next h => simp [h]
  . next h => simp [h]

theorem written_subset_run (s : State α) (b : Block α) : s.written ⊆ (s.run b).written := by
  intro a ha
  unfold State.run
  split
  . apply List.mem_append_left _ ha
  . apply ha
  . apply ha

theorem written_subset_runAll_append (before after : List (Block α))
    : (runAll before).written ⊆ (runAll (before ++ after)).written := by
  induction after using List.reverseRecOn with
  | nil => simp
  | append_singleton after b ih =>
    rw [← List.append_assoc, runAll_concat]
    apply List.Subset.trans ih
    apply written_subset_run

theorem exists_of_mem_pending {blocks : List (Block α)} {a : α} (ha : a ∈ (runAll blocks).pending)
    : ∃ b ∈ blocks, b.ending = .abandon ∧ a ∈ b.marks := by
  induction blocks using List.reverseRecOn with
  | nil => simp [runAll] at ha
  | append_singleton blocks b ih =>
    rw [runAll_concat] at ha
    unfold State.run at ha
    split at ha
    . simp at ha
    . simp at ha
    . next hending =>
      rw [List.mem_append] at ha
      cases ha with
      | inl ha =>
        obtain ⟨b', hb', h⟩ := ih ha
        exact ⟨b', List.mem_append_left _ hb', h⟩
      | inr ha => exact ⟨b, by simp, hending, ha⟩

theorem exists_of_mem_written {blocks : List (Block α)} {a : α} (ha : a ∈ (runAll blocks).written)
    : ∃ b ∈ blocks, a ∈ b.marks := by
  induction blocks using List.reverseRecOn with
  | nil => simp [runAll] at ha
  | append_singleton blocks b ih =>
    have hearlier : a ∈ (runAll blocks).written ∨ a ∈ (runAll blocks).pending
        → ∃ b' ∈ blocks ++ [b], a ∈ b'.marks := by
      intro ha
      cases ha with
      | inl ha =>
        obtain ⟨b', hb', h⟩ := ih ha
        exact ⟨b', List.mem_append_left _ hb', h⟩
      | inr ha =>
        obtain ⟨b', hb', _, h⟩ := exists_of_mem_pending ha
        exact ⟨b', List.mem_append_left _ hb', h⟩
    rw [runAll_concat] at ha
    unfold State.run at ha
    split at ha
    . simp only [List.mem_append, ← or_assoc] at ha
      cases ha with
      | inl ha => apply hearlier ha
      | inr ha => exact ⟨b, by simp, ha⟩
    . apply hearlier (.inl ha)
    . apply hearlier (.inl ha)

theorem committed_subset_written (blocks : List (Block α))
    : committed blocks ⊆ (runAll blocks).written := by
  induction blocks using List.reverseRecOn with
  | nil => simp [committed]
  | append_singleton blocks b ih =>
    rw [committed_concat, runAll_concat, List.append_subset]
    refine ⟨List.Subset.trans ih (written_subset_run _ b), ?_⟩
    unfold State.run
    split
    . next h => simp [h]
    . simp

/-- No block commits while marks of earlier blocks are pending. -/
def Clean (blocks : List (Block α)) : Prop :=
  ∀ before b after, blocks = before ++ b :: after → b.ending = .commit → (runAll before).pending = []

theorem written_eq_committed {blocks : List (Block α)} (h : Clean blocks)
    : (runAll blocks).written = committed blocks := by
  induction blocks using List.reverseRecOn with
  | nil => rfl
  | append_singleton blocks b ih =>
    have hinit : Clean blocks := by
      intro before b' after hsplit
      apply h before b' (after ++ [b])
      simp [hsplit]
    rw [runAll_concat, committed_concat, ← ih hinit]
    unfold State.run
    split
    . next hending => simp [hending, h blocks b [] (by simp) hending]
    . next hending => simp [hending]
    . next hending => simp [hending]

/--
Where no two blocks mark the same thing, the blocks that commit write what they marked and no more if
and only if the run is clean.
-/
theorem mem_written_iff_committed_iff {blocks : List (Block α)}
    (hdisj : blocks.Pairwise fun b b' => b.marks.Disjoint b'.marks)
    : (∀ a, a ∈ (runAll blocks).written ↔ a ∈ committed blocks) ↔ Clean blocks := by
  constructor
  . intro h before b after hsplit hending
    by_contra hpending
    obtain ⟨a, ha⟩ := List.exists_mem_of_ne_nil _ hpending
    have hwritten : a ∈ (runAll blocks).written := by
      have : blocks = (before ++ [b]) ++ after := by simp [hsplit]
      rw [this]
      apply written_subset_runAll_append
      rw [runAll_concat]
      simp [State.run, hending, ha]
    -- The block that left `a` pending is not one that commits.
    obtain ⟨b₁, hb₁, hending₁, hmark₁⟩ := exists_of_mem_pending ha
    obtain ⟨b₂, hb₂, hending₂, hmark₂⟩ := mem_committed.mp ((h a).mp hwritten)
    have hne : b₁ ≠ b₂ := by
      intro heq
      rw [heq, hending₂] at hending₁
      cases hending₁
    have hsymm : Std.Symm fun b b' : Block α => b.marks.Disjoint b'.marks :=
      ⟨fun _ _ h _ ha hb => h hb ha⟩
    apply hdisj.forall _ hb₂ hne hmark₁ hmark₂
    simp [hsplit, hb₁]
  . intro h a
    rw [written_eq_committed h]

end UnitOfWork
