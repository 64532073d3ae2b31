import SdaSystem.Ingestion.Lemmas.Epochs

namespace SdaSystem
namespace TLEFetcher

def Counts.blocks (counts : Counts) : Nat :=
  counts.new + counts.updated + counts.invalid + counts.skipped + counts.unused

/-- The counts after `n` blocks, against the rows that are committed and those that wait. -/
structure Counted (db : List TLE) (n : Nat) (s : State) : Prop where
  blocks : s.counts.blocks = n
  rows : s.db.length + s.added.length = db.length + s.counts.new
  -- Nothing is counted as a change, so the session has nothing to write.
  clean : s.counts.total = 0 → s.db = db ∧ s.added = [] ∧ s.dirty = ∅ ∧ s.retireThisBatch = []

section

variable {db : List TLE} {n : Nat} {s : State}

theorem counted_prefetch (db : List TLE) : Counted db 0 (prefetch db) where
  blocks := rfl
  rows := rfl
  clean _ := ⟨rfl, rfl, rfl, rfl⟩

@[simp]
theorem length_writeBatch_db (s : State) : (writeBatch s).db.length = s.db.length + s.added.length := by
  unfold writeBatch
  dsimp only
  split <;> simp

theorem writeDirty_empty (currentTles : List TLE) (t : TLE) : writeDirty currentTles ∅ t = t := by
  simp [writeDirty]

theorem writeBatch_db_of_clean (hadded : s.added = []) (hdirty : s.dirty = ∅)
    (hretire : s.retireThisBatch = []) : (writeBatch s).db = s.db := by
  unfold writeBatch
  rw [if_pos hretire, hadded, hdirty]
  dsimp only
  rw [List.append_nil, List.map_congr_left fun t _ => writeDirty_empty s.currentTles t, List.map_id']

namespace Counted

theorem skip (h : Counted db n s)
    : Counted db (n + 1) { s with counts.skipped := s.counts.skipped + 1 } where
  blocks := by
    rw [← h.blocks]
    simp only [Counts.blocks]
    omega
  rows := h.rows
  clean := h.clean

theorem reject (h : Counted db n s)
    : Counted db (n + 1) { s with counts.invalid := s.counts.invalid + 1 } where
  blocks := by
    rw [← h.blocks]
    simp only [Counts.blocks]
    omega
  rows := h.rows
  clean := h.clean

theorem store (h : Counted db n s) (e : Entry) : Counted db (n + 1) (store s e) := by
  have hblocks := h.blocks
  have hrows := h.rows
  unfold Counts.blocks at hblocks
  unfold TLEFetcher.store
  split
  . split
    . constructor
      . simp only [Counts.blocks]
        omega
      . apply h.rows
      . simp [Counts.total]
    . constructor
      . simp only [Counts.blocks]
        omega
      . apply h.rows
      . apply h.clean
  . split
    . apply h.skip
    . split
      . apply h.skip
      . constructor
        . simp only [Counts.blocks]
          omega
        . simp only [List.length_append, List.length_singleton]
          omega
        . simp [Counts.total]

theorem writeBatch (h : Counted db n s)
    : Counted db n { writeBatch s with retireThisBatch := [], batchPending := 0 } where
  blocks := h.blocks
  rows := by
    have hrows := h.rows
    simp only [length_writeBatch_db]
    simpa [TLEFetcher.writeBatch] using hrows
  clean := by
    intro htotal
    obtain ⟨hdb, hadded, hdirty, hretire⟩ := h.clean htotal
    refine ⟨?_, rfl, rfl, rfl⟩
    rw [← hdb]
    apply writeBatch_db_of_clean hadded hdirty hretire

theorem step (h : Counted db n s) {refused : TLE → Bool}
    {validator : TLEValidator} {t : Triplet} {s' : State}
    (hstep : step refused validator s t = some s') : Counted db (n + 1) s' := by
  unfold TLEFetcher.step at hstep
  rw [Option.bind_eq_bind, Option.bind_eq_some_iff] at hstep
  obtain ⟨parsed, _, hstep⟩ := hstep
  cases parsed with
  | blank =>
    cases hstep
    apply h.skip
  | invalid =>
    cases hstep
    apply h.reject
  | entry e =>
    dsimp only at hstep
    split at hstep
    . rw [Option.bind_eq_bind, Option.bind_eq_some_iff] at hstep
      obtain ⟨_, hflush, hstep⟩ := hstep
      cases hstep
      rw [eq_writeBatch hflush]
      apply (h.store e).writeBatch
    . cases hstep
      apply h.store e

theorem loop (h : Counted db n s) {refused : TLE → Bool}
    {validator : TLEValidator} {ts : List Triplet} {s' : State}
    (hloop : loop refused validator s ts = .ok s') : Counted db (n + ts.length) s' := by
  induction ts generalizing n s with
  | nil =>
    cases hloop
    apply h
  | cons t ts ih =>
    unfold TLEFetcher.loop at hloop
    split at hloop
    . next s₁ hstep =>
      have hrest := ih (h.step hstep) hloop
      rw [List.length_cons]
      rwa [Nat.add_right_comm] at hrest
    . cases hloop

end Counted

end

/--
Every block of the feed is counted once, the new ones are the rows that the table has more, and when no
change is counted the table is as it was.
-/
theorem parseAndStore_counts (refused : TLE → Bool) (validator : TLEValidator) (db : List TLE)
    (text : List Char)
    {db' : List TLE} {counts : Counts} (h : parseAndStore refused validator db text = .ok (db', counts))
    : counts.blocks = (triplets (splitlines text)).length
        ∧ db'.length = db.length + counts.new
        ∧ (counts.total = 0 → db' = db) := by
  unfold parseAndStore at h
  split at h
  . next s hloop =>
    have hcounted := (counted_prefetch db).loop hloop
    rw [Nat.zero_add] at hcounted
    split at h
    . next s' hflush =>
      cases h
      rw [eq_writeBatch hflush]
      refine ⟨hcounted.blocks, ?_, ?_⟩
      . rw [length_writeBatch_db]
        apply hcounted.rows
      . intro htotal
        obtain ⟨hdb, hadded, hdirty, hretire⟩ := hcounted.clean htotal
        rw [writeBatch_db_of_clean hadded hdirty hretire, hdb]
    . cases h
  . cases h

theorem parseAndStore_counts_iss
    : ({ new := 1, unused := 1 } : Counts).blocks = (triplets (splitlines issFeed)).length
        ∧ [{ issRow1 with isCurrent := false }, issRow2].length = [issRow1].length + 1
        ∧ (({ new := 1, unused := 1 } : Counts).total = 0
            → [{ issRow1 with isCurrent := false }, issRow2] = [issRow1]) := by
  apply parseAndStore_counts TLE.refused issValidator [issRow1] issFeed
  rfl

end TLEFetcher
end SdaSystem
