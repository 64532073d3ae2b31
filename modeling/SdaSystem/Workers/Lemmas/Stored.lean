import SdaSystem.Workers.Lemmas.Provenance

namespace SdaSystem

open PassDetector

namespace PassTable

theorem key_mem_insert {table : PassTable} {row : SatellitePass} (horder : row.TimeOrder)
    : row.key ∈ (table.insert row).rows.map (·.key) := by
  by_cases hkey : row.key ∈ table.rows.map (·.key)
  . exact List.map_subset _ (table.rows_subset_insert row) hkey
  . rw [List.mem_map]
    exact ⟨_, (mem_insert_iff horder).mpr (.inr ⟨hkey, rfl⟩), rfl⟩

theorem key_mem_insertAll {table : PassTable} {rows : List SatellitePass}
    (horder : ∀ row ∈ rows, row.TimeOrder) {row : SatellitePass} (hrow : row ∈ rows)
    : row.key ∈ (rows.foldl PassTable.insert table).rows.map (·.key) := by
  induction rows generalizing table with
  | nil => simp at hrow
  | cons first rest ih =>
    rw [List.forall_mem_cons] at horder
    rw [List.foldl_cons]
    rcases List.mem_cons.mp hrow with rfl | hrow
    . exact List.map_subset _ (rows_subset_insertAll _ rest) (key_mem_insert horder.left)
    . apply ih horder.right hrow

end PassTable

namespace DetectPasses

variable {settings : Settings} {coords : CoordConverter} {sat : Satellite} {startTime : Int}
  {station : Station} {err : ℝ}

theorem eq_of_key_eq {row row' : SatellitePass} (hrow : row ∈ tleRows settings coords sat startTime)
    (hrow' : row' ∈ tleRows settings coords sat startTime) (horder : row.TimeOrder)
    (horder' : row'.TimeOrder) (hkey : row.key = row'.key) : row = row' := by
  have : Std.Symm fun p q : SatellitePass => p.stationId = q.stationId → ¬ p.Overlaps q :=
    ⟨fun p q hpq heq hover => hpq heq.symm (PassTable.overlaps_comm.mp hover)⟩
  simp only [SatellitePass.key, Prod.mk.injEq] at hkey
  by_contra hne
  -- two passes over one station that rise together would overlap
  apply tleRows_pairwise.forall hrow hrow' hne hkey.right.left
  unfold SatellitePass.Overlaps
  unfold SatellitePass.TimeOrder at horder horder'
  omega

theorem exists_of_mem_tleRows (table : PassTable)
    (hchecks : ∀ row ∈ tleRows settings coords sat startTime, row.Checks) {row : SatellitePass}
    (hrow : row ∈ tleRows settings coords sat startTime)
    : ∃ q ∈ (execute settings coords sat table { startTime, commits := true }).rows,
        q.key = row.key ∧ (q.setTime = row.setTime ∨ q ∈ table.rows) := by
  have hexecute : execute settings coords sat table { startTime, commits := true }
      = (tleRows settings coords sat startTime).foldl PassTable.insert table := by
    unfold execute bulkUpsertPasses
    rw [if_pos rfl, if_pos hchecks, Option.getD_some]
  have hkey := @PassTable.key_mem_insertAll table _ (fun row hrow => (hchecks row hrow).left) _ hrow
  obtain ⟨q, hq, hkey⟩ := List.mem_map.mp hkey
  rw [hexecute]
  refine ⟨q, hq, hkey, ?_⟩
  rcases mem_insertAll hq with hold | ⟨row', hrow', id, rfl⟩
  . exact .inr hold
  . have : row' = row := eq_of_key_eq hrow' hrow (hchecks row' hrow').left (hchecks row hrow).left hkey
    exact .inl (by rw [this])

/--
From one position of the propagation to another, long enough after it, the satellite is higher than the
mask of the station and the error of the elevations wherever the propagation has a position.
-/
structure HighFrom (settings : Settings) (coords : CoordConverter) (sat : Satellite) (startTime : Int)
    (station : Station) (err : ℝ) (first last : Int) : Prop where
  lt : first < last
  long : (settings.minPassDurationSeconds : Rat) ≤ seconds last - seconds first
  first_mem : first ∈ SGP4Engine.timeGrid settings startTime
  last_mem : last ∈ SGP4Engine.timeGrid settings startTime
  first_some : ∃ position, sat.satrec.step first = { position := some position, errorCode := 0 }
  last_some : ∃ position, sat.satrec.step last = { position := some position, errorCode := 0 }
  high : ∀ t ∈ SGP4Engine.timeGrid settings startTime, first ≤ t → t ≤ last → ∀ position,
    sat.satrec.step t = { position := some position, errorCode := 0 }
      → (coords.elevation station (coords.temeToEcef position t)).isSome
        ∧ station.elevationMaskDeg + err ≤ station.elevationOf (coords.temeToEcef position t)

section

variable {times : List Int} {i j : Nat}

theorem getD_lt_getD_iff (hincreasing : times.Pairwise (· < ·)) (hi : i < times.length)
    (hj : j < times.length) : times.getD i 0 < times.getD j 0 ↔ i < j := by
  have hmono := hincreasing.sortedLT.strictMono_get
  rw [List.getD_eq_getElem _ _ hi, List.getD_eq_getElem _ _ hj]
  exact hmono.lt_iff_lt (a := ⟨i, hi⟩) (b := ⟨j, hj⟩)

theorem getD_le_getD_iff (hincreasing : times.Pairwise (· < ·)) (hi : i < times.length)
    (hj : j < times.length) : times.getD i 0 ≤ times.getD j 0 ↔ i ≤ j := by
  rw [← not_lt, getD_lt_getD_iff hincreasing hj hi, not_lt]

end

theorem exists_detected (husable : (propagated settings sat startTime).isUsable)
    (haccurate : let result := propagated settings sat startTime
      Accurate coords station (ecefPositions coords result.validPositions result.validTimes) err)
    {first last : Int} (hhigh : HighFrom settings coords sat startTime station err first last)
    : ∃ p ∈ detected settings coords sat startTime station,
        micros p.riseTime ≤ first ∧ last ≤ micros p.setTime := by
  obtain ⟨positions, heq⟩ := detected_eq settings coords sat startTime station
  rw [heq, if_pos husable]
  obtain ⟨position, hfirst⟩ := hhigh.first_some
  obtain ⟨position', hlast⟩ := hhigh.last_some
  obtain ⟨i, hi, hiFirst, _⟩ := SGP4Engine.exists_sample coords hhigh.first_mem hfirst
  obtain ⟨j, hj, hjLast, _⟩ := SGP4Engine.exists_sample coords hhigh.last_mem hlast
  rw [← propagated] at hi hiFirst hj hjLast
  have hincreasing := (propagated settings sat startTime).validTimes_increasing
  have hij : i < j := by
    rw [← getD_lt_getD_iff hincreasing hi hj, hiFirst, hjLast]
    exact hhigh.lt
  have hpass : ∃ p ∈ extractPasses .python (settings.config coords station)
      (samples settings coords sat startTime station) (sampleTimes settings sat startTime) positions
      station.elevationMaskDeg, p.riseTime ≤ seconds first ∧ seconds last ≤ p.setTime := by
    rw [← hiFirst, ← hjLast]
    apply haccurate.exists_mem_extractPasses (PropagationResult.length_validPositions _) hincreasing
      (PropagationResult.validTimes_keptSteps _) hij hj
    . have hleast : (settings.config coords station).minPassDuration
          = settings.minPassDurationSeconds := Rat.mkRat_one _
      -- steps of the grid are whole seconds apart
      obtain ⟨k, hk, hwhole⟩ := SGP4Engine.timeGrid_wholeSeconds settings startTime last hhigh.last_mem
        first hhigh.first_mem
      have hlong := hhigh.long
      rw [seconds_sub, hwhole, seconds_eq] at hlong
      rw [hleast, hiFirst, hjLast, hwhole, PyFloat.totalSeconds_mul hk]
      push_cast at hlong
      linarith
    . intro k hik hkj
      have hk : k < (propagated settings sat startTime).validTimes.length := by omega
      obtain ⟨hgrid, position, hposition, hecef⟩ := SGP4Engine.sample_spec coords hk
      rw [← propagated] at hgrid hposition hecef
      rw [hecef]
      apply hhigh.high _ hgrid _ _ position hposition
      . rw [← hiFirst, getD_le_getD_iff hincreasing hi hk]
        exact hik
      . rw [← hjLast, getD_le_getD_iff hincreasing hk hj]
        exact hkj
  obtain ⟨p, hp, hrise, hset⟩ := hpass
  refine ⟨p, hp, ?_, ?_⟩
  . rw [← micros_seconds first]
    apply micros_mono hrise
  . rw [← micros_seconds last]
    apply micros_mono hset

end DetectPasses

namespace LifeCycle

open DetectPasses Runs

variable {settings : Settings} {coords : CoordConverter} {s t u : State} {events : List Event}

/--
No visible pass is lost: once a detection has committed, there is for each stretch in which the satellite
was high enough for long enough a row that rises with the pass that covers it, and sets with it unless it
is older; and there it stays until it is cleaned up.
-/
theorem stored_of_run {n : Nat} {sat : Satellite} {startTime : Int} {station : Station} {err : ℝ}
    {first last : Int} (hbegan : s.began n = some startTime)
    (hcommit : Step settings coords s (.commitRows n sat) u)
    (hrun : Run (Step settings coords) u events t)
    (husable : (propagated settings sat startTime).isUsable)
    (hchecks : ∀ row ∈ tleRows settings coords sat startTime, row.Checks)
    (hstation : station ∈ sat.stations)
    (haccurate : let result := propagated settings sat startTime
      Accurate coords station (ecefPositions coords result.validPositions result.validTimes) err)
    (hhigh : HighFrom settings coords sat startTime station err first last)
    : ∃ row ∈ tleRows settings coords sat startTime,
        row.noradId = sat.noradId ∧ row.stationId = station.stationId
          ∧ row.riseTime ≤ first ∧ last ≤ row.setTime
          ∧ ∃ q ∈ u.table.rows, q.key = row.key ∧ (q.setTime = row.setTime ∨ q ∈ s.table.rows)
            ∧ ((∃ r ∈ t.table.rows, q.Advance r) ∨ Deleted settings coords u q events) := by
  obtain ⟨p, hp, hrise, hset⟩ := exists_detected husable haccurate hhigh
  have hrow : rowOf sat station p ∈ tleRows settings coords sat startTime :=
    mem_tleRows.mpr ⟨station, hstation, p, hp, rfl⟩
  obtain ⟨q, hq, hkey, hcovers⟩ := exists_of_mem_tleRows s.table hchecks hrow
  have hmem : q ∈ u.table.rows := by
    cases hcommit with
    | commitRows h =>
      rw [hbegan, Option.some.injEq] at h
      subst h
      exact hq
  refine ⟨_, hrow, rfl, rfl, hrise, hset, q, hmem, hkey, hcovers, ?_⟩
  apply hrun.invariant_or_once (I := fun t => ∃ r ∈ t.table.rows, q.Advance r) _ ⟨q, hmem, .refl q⟩
  intro before s e t hkept hstep
  apply hstep.advance_or_deleted hkept

open PropagationResult (hourly hour plainStation)

theorem highFrom_overhead
    : HighFrom hourly overheadCoords overheadSatellite 0 plainStation 0 0 hour where
  lt := by decide
  long := by decide +kernel
  first_mem := by decide +kernel
  last_mem := by decide +kernel
  first_some := ⟨overhead, rfl⟩
  last_some := ⟨overhead, rfl⟩
  high := by
    intro t _ _ _ position hposition
    cases hposition
    have hmask : plainStation.elevationMaskDeg = 10 := rfl
    refine ⟨rfl, ?_⟩
    show plainStation.elevationMaskDeg + (0 : ℝ) ≤ plainStation.elevationOf overhead
    rw [elevationOf_overhead, hmask]
    norm_num

theorem stored_of_run_overhead
    : ∃ u t, Step hourly overheadCoords
          { now := 0, table := .empty, began := fun _ => some 0 } (.commitRows 1 overheadSatellite) u
        ∧
      Run (Step hourly overheadCoords) u [.clock 60000000] t
        ∧
      ∃ row ∈ tleRows hourly overheadCoords overheadSatellite 0,
        row.noradId = overheadSatellite.noradId ∧ row.stationId = plainStation.stationId
          ∧ row.riseTime ≤ 0 ∧ hour ≤ row.setTime
          ∧ ∃ q ∈ u.table.rows, q.key = row.key
            ∧ (q.setTime = row.setTime ∨ q ∈ PassTable.empty.rows)
            ∧ ((∃ r ∈ t.table.rows, q.Advance r)
              ∨ Deleted hourly overheadCoords u q [.clock 60000000]) := by
  let u : State := {
    now := 0
    table := execute hourly overheadCoords overheadSatellite .empty { startTime := 0, commits := true }
    began := fun _ => some 0
  }
  have hcommit : Step hourly overheadCoords { now := 0, table := .empty, began := fun _ => some 0 }
      (.commitRows 1 overheadSatellite) u := .commitRows rfl
  have hrun : Run (Step hourly overheadCoords) u [.clock 60000000] { u with now := 60000000 } :=
    .cons (.clock (by decide)) (.nil _)
  refine ⟨_, _, hcommit, hrun, ?_⟩
  have husable : (propagated hourly overheadSatellite 0).isUsable := by decide +kernel
  have hchecks : ∀ row ∈ tleRows hourly overheadCoords overheadSatellite 0, row.Checks := by
    decide +kernel
  have hstation : plainStation ∈ overheadSatellite.stations := List.mem_singleton.mpr rfl
  exact stored_of_run rfl hcommit hrun husable hchecks hstation maskAboveError_overhead.accurate
    highFrom_overhead

end LifeCycle

end SdaSystem
