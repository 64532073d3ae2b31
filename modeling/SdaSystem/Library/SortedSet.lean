import Mathlib.Data.List.Nodup
import Mathlib.Order.Lattice

/-!
Sets of members with scores, as Redis keeps them under one key, and a store whose entries may carry
the time at which they expire.
-/

structure SortedSet (μ σ : Type) where
  entries : List (μ × σ)
  members_nodup : (entries.map (·.1)).Nodup

namespace SortedSet

variable {μ σ : Type}

def empty : SortedSet μ σ where
  entries := []
  members_nodup := by simp

def scores (z : SortedSet μ σ) : List σ :=
  z.entries.map (·.2)

def card (z : SortedSet μ σ) : Nat :=
  z.entries.length

@[simp]
theorem scores_empty : (empty : SortedSet μ σ).scores = [] := rfl

@[simp]
theorem length_scores (z : SortedSet μ σ) : z.scores.length = z.card := by
  simp [scores, card]

def filter (keep : μ × σ → Bool) (z : SortedSet μ σ) : SortedSet μ σ where
  entries := z.entries.filter keep
  members_nodup := by
    apply List.Nodup.sublist _ z.members_nodup
    apply List.Sublist.map
    apply List.filter_sublist

/-- `ZREMRANGEBYSCORE`, both ends included. -/
def removeRangeByScore [LE σ] [DecidableLE σ] (z : SortedSet μ σ) (lo hi : σ) : SortedSet μ σ :=
  z.filter fun e => ¬ (lo ≤ e.2 ∧ e.2 ≤ hi)

theorem scores_removeRangeByScore [LE σ] [DecidableLE σ] (z : SortedSet μ σ) (lo hi : σ)
    : (z.removeRangeByScore lo hi).scores = z.scores.filter fun s => ¬ (lo ≤ s ∧ s ≤ hi) := by
  unfold removeRangeByScore filter scores
  rw [List.filter_map]
  rfl

theorem mem_members_removeRangeByScore [LE σ] [DecidableLE σ] {z : SortedSet μ σ} {lo hi : σ} {m : μ}
    (h : m ∈ (z.removeRangeByScore lo hi).entries.map (·.1)) : m ∈ z.entries.map (·.1) := by
  apply (List.filter_sublist.map _).subset h

/-- `ZADD`, which gives a member that is there already its new score. -/
def add [DecidableEq μ] (z : SortedSet μ σ) (score : σ) (member : μ) : SortedSet μ σ where
  entries := (member, score) :: z.entries.filter (·.1 ≠ member)
  members_nodup := by
    rw [List.map_cons, List.nodup_cons]
    refine ⟨?_, (z.filter _).members_nodup⟩
    simp

theorem scores_add [DecidableEq μ] {z : SortedSet μ σ} {member : μ} (score : σ)
    (hnew : member ∉ z.entries.map (·.1)) : (z.add score member).scores = score :: z.scores := by
  have hfilter : z.entries.filter (·.1 ≠ member) = z.entries := by
    rw [List.filter_eq_self]
    intro e he
    rw [decide_eq_true_iff]
    rintro rfl
    apply hnew (List.mem_map_of_mem he)
  unfold add scores
  simp only [hfilter, List.map_cons]

theorem mem_members_add [DecidableEq μ] {z : SortedSet μ σ} {score : σ} {member m : μ}
    (h : m ∈ (z.add score member).entries.map (·.1)) : m = member ∨ m ∈ z.entries.map (·.1) := by
  unfold add at h
  rw [List.map_cons, List.mem_cons] at h
  apply h.imp_right
  apply (List.filter_sublist.map _).subset

end SortedSet

structure Expiring (α τ : Type) where
  value : α
  expireAt : Option τ := none

/-- Entries whose time has come may be gone; all others are still there. -/
def Lapse [LE τ] {κ : Type} (now : τ) (store store' : κ → Option (Expiring α τ)) : Prop :=
  ∀ key, store' key = store key
    ∨ (store' key = none ∧ ∃ e t, store key = some e ∧ e.expireAt = some t ∧ t ≤ now)
