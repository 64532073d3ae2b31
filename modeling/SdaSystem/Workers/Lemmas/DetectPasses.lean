import SdaSystem.Propagation.Lemmas.DataGap
import SdaSystem.Workers.Impl.DetectPasses
import SdaSystem.Workers.Lemmas.Pipeline

namespace SdaSystem

open PassDetector

theorem micros_eq (t : Rat) : micros t = ⌊t * 1000000⌋ :=
  rfl

theorem micros_mono {a b : Rat} (h : a ≤ b) : micros a ≤ micros b := by
  rw [micros_eq, micros_eq]
  apply Int.floor_mono
  linarith

namespace PassTable

theorem mem_insert_iff {table : PassTable} {row q : SatellitePass} (horder : row.TimeOrder)
    : q ∈ (table.insert row).rows
        ↔
      q ∈ table.rows ∨ (row.key ∉ table.rows.map (·.key) ∧ q = { row with id := table.nextId }) := by
  unfold insert
  split
  . next h => simp [h.right]
  . next h =>
    rw [not_and, not_not] at h
    simp [h horder]

theorem rows_subset_insert (table : PassTable) (row : SatellitePass)
    : table.rows ⊆ (table.insert row).rows := by
  unfold insert
  split
  . simp
  . simp

theorem rows_subset_insertAll (table : PassTable) (rows : List SatellitePass)
    : table.rows ⊆ (rows.foldl PassTable.insert table).rows := by
  induction rows generalizing table with
  | nil => simp
  | cons row rows ih => exact List.Subset.trans (table.rows_subset_insert row) (ih _)

def NoDuplicatePass (noradId : Int) (table : PassTable) : Prop :=
  ∀ p ∈ table.rows, ∀ q ∈ table.rows, p ≠ q → p.noradId = noradId → q.noradId = noradId
    → p.stationId = q.stationId → ¬ p.Overlaps q

/-- The row is skipped on conflict, or it overlaps no row of its satellite and station. -/
def Fits (table : PassTable) (row : SatellitePass) : Prop :=
  row.key ∈ table.rows.map (·.key)
    ∨ ∀ q ∈ table.rows, q.noradId = row.noradId → q.stationId = row.stationId → ¬ row.Overlaps q

theorem overlaps_comm {p q : SatellitePass} : p.Overlaps q ↔ q.Overlaps p := by
  unfold SatellitePass.Overlaps
  rw [and_comm]

theorem NoDuplicatePass.of_subset {noradId : Int} {table table' : PassTable}
    (h : NoDuplicatePass noradId table') (hsub : table.rows ⊆ table'.rows)
    : NoDuplicatePass noradId table := by
  intro p hp q hq
  apply h p (hsub hp) q (hsub hq)

variable {noradId : Int} {table : PassTable} {row : SatellitePass}

theorem noDuplicatePass_insert_iff (h : NoDuplicatePass noradId table)
    (hnorad : row.noradId = noradId) (horder : row.TimeOrder)
    : NoDuplicatePass noradId (table.insert row) ↔ Fits table row := by
  constructor
  . intro hafter
    by_cases hkey : row.key ∈ table.rows.map (·.key)
    . exact .inl hkey
    . refine .inr ?_
      intro q hq hqnorad hstation
      have hne : { row with id := table.nextId } ≠ q := by
        intro heq
        have := table.lt_nextId hq
        rw [← heq] at this
        exact absurd this (lt_irrefl _)
      apply hafter _ ((mem_insert_iff horder).mpr (.inr ⟨hkey, rfl⟩)) q
        (table.rows_subset_insert row hq) hne hnorad (hqnorad.trans hnorad) hstation.symm
  . intro hfits p hp q hq hne hpnorad hqnorad hstation
    rw [mem_insert_iff horder] at hp hq
    -- A row that was added overlaps nothing that was there.
    have hadded : ∀ p' q', q' ∈ table.rows → row.key ∉ table.rows.map (·.key)
        → p' = { row with id := table.nextId } → q'.noradId = noradId → p'.stationId = q'.stationId
        → ¬ p'.Overlaps q' := by
      rintro p' q' hq' hkey rfl hqnorad' hstation'
      cases hfits with
      | inl hfits => exact absurd hfits hkey
      | inr hfits => apply hfits q' hq' (hqnorad'.trans hnorad.symm) hstation'.symm
    cases hp with
    | inl hp =>
      cases hq with
      | inl hq => apply h p hp q hq hne hpnorad hqnorad hstation
      | inr hq =>
        rw [overlaps_comm]
        apply hadded q p hp hq.left hq.right hpnorad hstation.symm
    | inr hp =>
      cases hq with
      | inl hq => apply hadded p q hq hp.left hp.right hqnorad hstation
      | inr hq => exact absurd (hp.right.trans hq.right.symm) hne

theorem fits_insert_iff {r : SatellitePass} (horder : row.TimeOrder) (horder' : r.TimeOrder)
    (hclear : row.stationId = r.stationId → ¬ row.Overlaps r)
    : Fits (table.insert row) r ↔ Fits table r := by
  have hkeys : row.key ≠ r.key := by
    intro hkey
    simp only [SatellitePass.key, Prod.mk.injEq] at hkey
    apply hclear hkey.right.left
    unfold SatellitePass.Overlaps
    unfold SatellitePass.TimeOrder at horder horder'
    omega
  unfold Fits
  simp only [List.mem_map, mem_insert_iff horder]
  constructor
  . rintro (⟨q, hq | ⟨_, rfl⟩, hkey⟩ | hfits)
    . exact .inl ⟨q, hq, hkey⟩
    . exact absurd hkey hkeys
    . exact .inr fun q hq => hfits q (.inl hq)
  . rintro (⟨q, hq, hkey⟩ | hfits)
    . exact .inl ⟨q, .inl hq, hkey⟩
    . refine .inr ?_
      rintro q (hq | ⟨_, rfl⟩) hnorad hstation
      . apply hfits q hq hnorad hstation
      . rw [overlaps_comm]
        apply hclear hstation

theorem noDuplicatePass_insertAll_iff {rows : List SatellitePass} (h : NoDuplicatePass noradId table)
    (hrows : ∀ p ∈ rows, p.noradId = noradId ∧ p.TimeOrder)
    (hclear : rows.Pairwise fun p q => p.stationId = q.stationId → ¬ p.Overlaps q)
    : NoDuplicatePass noradId (rows.foldl PassTable.insert table) ↔ ∀ p ∈ rows, Fits table p := by
  induction rows generalizing table with
  | nil => simpa using h
  | cons row rows ih =>
    rw [List.forall_mem_cons] at hrows ⊢
    rw [List.pairwise_cons] at hclear
    obtain ⟨⟨hnorad, horder⟩, hrows⟩ := hrows
    rw [List.foldl_cons, ← noDuplicatePass_insert_iff h hnorad horder]
    have hfits : ∀ p ∈ rows, Fits (table.insert row) p ↔ Fits table p := by
      intro p hp
      apply fits_insert_iff horder (hrows p hp).right (hclear.left p hp)
    constructor
    . intro hafter
      have hinsert : NoDuplicatePass noradId (table.insert row) :=
        hafter.of_subset (rows_subset_insertAll _ rows)
      refine ⟨hinsert, ?_⟩
      intro p hp
      rw [← hfits p hp]
      apply (ih hinsert hrows hclear.right).mp hafter p hp
    . rintro ⟨hinsert, hrest⟩
      apply (ih hinsert hrows hclear.right).mpr
      intro p hp
      rw [hfits p hp]
      apply hrest p hp

end PassTable

namespace DetectPasses

section

variable (settings : Settings) (coords : CoordConverter) (sat : Satellite) (startTime : Int)
  (station : Station)

def samples : List (Option Rat) :=
  let result := propagated settings sat startTime
  elevationsAt coords result.validPositions result.validTimes station

def sampleTimes : List Rat :=
  (propagated settings sat startTime).validTimes.map seconds

/--
An execution that starts at `startTime` has a run of samples over the station which is emitted, with
these times.
-/
def Sees (riseTime setTime : Int) : Prop :=
  let times := sampleTimes settings sat startTime
  let elevations := sanitize (samples settings coords sat startTime station)
  let mask := station.elevationMaskDeg
  (propagated settings sat startTime).isUsable
    ∧ ∃ riseI setI,
        EmittedRun .python (mkRat settings.minPassDurationSeconds 1) times elevations mask riseI setI
          ∧ micros (riseAt .python times elevations mask riseI) = riseTime
          ∧ micros (setAt .python times elevations mask setI) = setTime

theorem length_samples : (samples settings coords sat startTime station).length
    = (sampleTimes settings sat startTime).length := by
  unfold samples sampleTimes
  simp [length_elevationsAt (PropagationResult.length_validPositions _)]

theorem sampleTimes_increasing : (sampleTimes settings sat startTime).Pairwise (· < ·) :=
  increasing_map_seconds (PropagationResult.validTimes_increasing _)

theorem sampleTimes_keepsSteps : Arith.python.KeepsSteps (sampleTimes settings sat startTime) :=
  keepsSteps_map_seconds (PropagationResult.validTimes_increasing _)
    (PropagationResult.validTimes_keptSteps _)

theorem detected_eq
    : ∃ positions, detected settings coords sat startTime station
        =
      if (propagated settings sat startTime).isUsable then
        extractPasses .python (settings.config coords station)
          (samples settings coords sat startTime station) (sampleTimes settings sat startTime) positions
          station.elevationMaskDeg
      else
        [] := by
  have heq := @detectPasses_eq settings coords _ _ station
    (propagated settings sat startTime).length_validPositions
  refine ⟨ecefPositions coords (propagated settings sat startTime).validPositions
    (propagated settings sat startTime).validTimes, ?_⟩
  unfold detected
  dsimp only
  by_cases husable : (propagated settings sat startTime).isUsable
  . rw [if_neg (not_not.mpr husable), if_pos husable]
    split
    . next hempty =>
      -- Without rows, the detector returns at once.
      rw [PropagationResult.length_validPositions] at hempty
      unfold detectPasses at heq
      rw [if_pos hempty, Except.ok.injEq] at heq
      apply heq
    . rw [heq]
      rfl
  . rw [if_pos husable, if_neg husable]

variable {settings coords sat startTime station}

theorem sees_iff {riseTime setTime : Int}
    : Sees settings coords sat startTime station riseTime setTime
        ↔
      ∃ p ∈ detected settings coords sat startTime station,
        micros p.riseTime = riseTime ∧ micros p.setTime = setTime := by
  obtain ⟨positions, heq⟩ := detected_eq settings coords sat startTime station
  have hlength := length_samples settings coords sat startTime station
  unfold Sees
  dsimp only
  rw [heq]
  split
  . next husable =>
    rw [and_iff_right husable]
    constructor
    . rintro ⟨riseI, setI, hemitted, hrise, hset⟩
      obtain ⟨p, hp, hpass⟩ := @exists_pass_of_run .python (settings.config coords station) _ _
        positions _ hlength _ _ hemitted
      refine ⟨p, hp, ?_⟩
      rw [hpass.riseTime, hpass.setTime]
      exact ⟨hrise, hset⟩
    . rintro ⟨p, hp, hrise, hset⟩
      obtain ⟨riseI, setI, hemitted, hpass⟩ := exists_run_of_mem hlength hp
      rw [hpass.riseTime] at hrise
      rw [hpass.setTime] at hset
      exact ⟨riseI, setI, hemitted, hrise, hset⟩
  . next husable => simp [husable]

theorem mem_tleRows {row : SatellitePass}
    : row ∈ tleRows settings coords sat startTime
        ↔
      ∃ station ∈ sat.stations, ∃ p ∈ detected settings coords sat startTime station,
        rowOf sat station p = row := by
  simp [tleRows]

theorem detected_pairwise : (detected settings coords sat startTime station).Pairwise fun p q =>
    p.setTime ≤ q.riseTime := by
  obtain ⟨positions, heq⟩ := detected_eq settings coords sat startTime station
  rw [heq]
  split
  . apply extractPasses_pairwise (sampleTimes_increasing settings sat startTime)
      (sampleTimes_keepsSteps settings sat startTime)
    apply length_samples
  . apply List.Pairwise.nil

theorem tleRows_pairwise : (tleRows settings coords sat startTime).Pairwise fun p q =>
    p.stationId = q.stationId → ¬ p.Overlaps q := by
  unfold tleRows
  rw [List.pairwise_flatMap]
  constructor
  . intro station _
    rw [List.pairwise_map]
    apply detected_pairwise.imp
    intro p q hpq _
    have : micros p.setTime ≤ micros q.riseTime := micros_mono hpq
    unfold SatellitePass.Overlaps rowOf
    dsimp only
    omega
  . apply (List.pairwise_map.mp sat.uniqueStations).imp
    intro station station' hne p hp q hq heq
    obtain ⟨_, _, rfl⟩ := List.mem_map.mp hp
    obtain ⟨_, _, rfl⟩ := List.mem_map.mp hq
    exact absurd heq hne

theorem fits_row_iff {table : PassTable} {p : PassRecord}
    : table.Fits (rowOf sat station p)
        ↔
      (∃ q ∈ table.rows, q.noradId = sat.noradId ∧ q.stationId = station.stationId
        ∧ q.riseTime = micros p.riseTime)
        ∨
      ∀ q ∈ table.rows, q.noradId = sat.noradId → q.stationId = station.stationId
        → micros p.setTime ≤ q.riseTime ∨ q.setTime ≤ micros p.riseTime := by
  unfold PassTable.Fits
  simp only [List.mem_map, SatellitePass.key, Prod.mk.injEq, SatellitePass.not_overlaps_iff]
  rfl

theorem noDuplicatePass_execute_iff {table : PassTable}
    (h : table.NoDuplicatePass sat.noradId) (x : Execution)
    : (execute settings coords sat table x).NoDuplicatePass sat.noradId
        ↔
      (x.commits → (∀ p ∈ tleRows settings coords sat x.startTime, p.Checks)
        → ∀ p ∈ tleRows settings coords sat x.startTime, table.Fits p) := by
  unfold execute
  split
  . next hcommits =>
    simp only [hcommits, forall_const]
    unfold bulkUpsertPasses
    split
    . next hchecks =>
      rw [forall_prop_of_true hchecks]
      apply PassTable.noDuplicatePass_insertAll_iff h _ tleRows_pairwise
      intro p hp
      refine ⟨?_, (hchecks p hp).left⟩
      obtain ⟨_, _, _, _, rfl⟩ := mem_tleRows.mp hp
      rfl
    . next hchecks => exact iff_of_true h fun hchecks' => absurd hchecks' hchecks
  . next hcommits => exact iff_of_true h fun hcommits' => absurd hcommits' hcommits

end

def highSatellite : Satellite where
  noradId := 101
  satrec := PropagationResult.highFromTwoToEight []
  stations := [PropagationResult.plainStation]
  uniqueStations := by simp

end DetectPasses

end SdaSystem
