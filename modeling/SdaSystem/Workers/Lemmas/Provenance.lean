import SdaSystem.Propagation.Lemmas.InSight
import SdaSystem.Workers.Lemmas.LifeCycle

open Ellipsoid Runs

namespace SdaSystem

open CoordinateConverter PassDetector

namespace SGP4Engine

variable {settings : Settings} {sat : Satrec} {noradId startTime : Int}

def succeeds (sat : Satrec) (t : Int) : Bool :=
  (sat.step t).position.isSome && (sat.step t).errorCode = 0

theorem validTimes_propagate : (propagate settings sat noradId startTime).validTimes
      =
    (timeGrid settings startTime).filter (succeeds sat) := by
  have := compress_map (timeGrid settings startTime) id (succeeds sat)
  rwa [List.map_id, List.map_id] at this

theorem validPositions_propagate : (propagate settings sat noradId startTime).validPositions
      =
    ((timeGrid settings startTime).filter (succeeds sat)).map fun t =>
      (sat.step t).position.getD default :=
  compress_map _ _ (succeeds sat)

theorem exists_sample (coords : CoordConverter) {t : Int} (ht : t ∈ timeGrid settings startTime)
    {position : Position} (hposition : sat.step t = { position := some position, errorCode := 0 })
    : let result := propagate settings sat noradId startTime
      ∃ k < result.validTimes.length, result.validTimes.getD k 0 = t
        ∧ ecefAt coords result.validPositions result.validTimes k = coords.temeToEcef position t := by
  intro result
  have hvalid : t ∈ (timeGrid settings startTime).filter (succeeds sat) := by
    rw [List.mem_filter]
    exact ⟨ht, by simp [succeeds, hposition]⟩
  obtain ⟨k, hk, hget⟩ := List.mem_iff_getElem.mp hvalid
  refine ⟨k, ?_, ?_, ?_⟩
  . rwa [validTimes_propagate]
  . rw [validTimes_propagate, List.getD_eq_getElem _ _ hk, hget]
  . unfold ecefAt ecefPositions
    rw [validTimes_propagate, validPositions_propagate, List.getD_eq_getElem _ _ (by simpa using hk)]
    simp [hget, hposition]

theorem sample_spec (coords : CoordConverter) {k : Nat}
    (hk : k < (propagate settings sat noradId startTime).validTimes.length)
    : let result := propagate settings sat noradId startTime
      let t := result.validTimes.getD k 0
      t ∈ timeGrid settings startTime ∧ ∃ position,
        sat.step t = { position := some position, errorCode := 0 }
          ∧ ecefAt coords result.validPositions result.validTimes k = coords.temeToEcef position t := by
  intro result t
  have hk' : k < ((timeGrid settings startTime).filter (succeeds sat)).length := by
    rwa [validTimes_propagate] at hk
  have ht : t = ((timeGrid settings startTime).filter (succeeds sat))[k] := by
    show result.validTimes.getD k 0 = _
    rw [validTimes_propagate, List.getD_eq_getElem _ _ hk']
  have hmem : t ∈ (timeGrid settings startTime).filter (succeeds sat) := by
    rw [ht]
    apply List.getElem_mem
  obtain ⟨hgrid, hvalid⟩ := List.mem_filter.mp hmem
  unfold succeeds at hvalid
  rw [Bool.and_eq_true, decide_eq_true_iff] at hvalid
  obtain ⟨position, hposition⟩ := Option.isSome_iff_exists.mp hvalid.left
  refine ⟨hgrid, position, ?_, ?_⟩
  . rw [← hposition, ← hvalid.right]
  . unfold ecefAt ecefPositions
    rw [validTimes_propagate, validPositions_propagate, List.getD_eq_getElem _ _ (by simpa using hk')]
    simp [← ht, hposition]

end SGP4Engine

namespace DetectPasses

variable {settings : Settings} {coords : CoordConverter} {sat : Satellite} {startTime : Int}
  {station : Station} {err : ℝ}

theorem exists_mem_extractPasses {p : PassRecord}
    (hp : p ∈ detected settings coords sat startTime station)
    : ∃ positions, p ∈ extractPasses .python (settings.config coords station)
        (samples settings coords sat startTime station) (sampleTimes settings sat startTime) positions
        station.elevationMaskDeg := by
  obtain ⟨positions, heq⟩ := detected_eq settings coords sat startTime station
  rw [heq] at hp
  split at hp
  . exact ⟨positions, hp⟩
  . simp at hp

theorem lt_seconds_of_micros_lt {x : Rat} {t : Int} (h : micros x < t) : x < seconds t := by
  rw [micros_eq, Int.floor_lt] at h
  rw [seconds_eq, lt_div_iff₀ (by norm_num)]
  exact h

theorem seconds_lt_of_lt_micros {x : Rat} {t : Int} (h : t < micros x) : seconds t < x := by
  have hfloor := Int.floor_le (x * 1000000)
  have hlt : (t : Rat) < ⌊x * 1000000⌋ := by exact_mod_cast h
  rw [seconds_eq, div_lt_iff₀ (by norm_num)]
  linarith

/-- The elevations of a detection over a station have an error of at most `err`, less than its mask. -/
structure MaskAboveError (settings : Settings) (coords : CoordConverter) (sat : Satellite)
    (startTime : Int) (station : Station) (err : ℝ) : Prop where
  mask : err < station.elevationMaskDeg
  accurate : let result := propagated settings sat startTime
    Accurate coords station (ecefPositions coords result.validPositions result.validTimes) err

def InSight (settings : Settings) (coords : CoordConverter) (sat : Satellite) (startTime : Int)
    (station : Station) (q : SatellitePass) : Prop :=
  ∀ t ∈ SGP4Engine.timeGrid settings startTime, ∀ position,
    sat.satrec.step t = { position := some position, errorCode := 0 } → q.riseTime < t → t < q.setTime
      → Clear wgs84 station.point (coords.temeToEcef position t).point

theorem InSight.congr {q r : SatellitePass} (h : InSight settings coords sat startTime station q)
    (hrise : r.riseTime = q.riseTime) (hset : r.setTime = q.setTime)
    : InSight settings coords sat startTime station r := by
  unfold InSight
  rw [hrise, hset]
  exact h

theorem inSight_rowOf (h : MaskAboveError settings coords sat startTime station err) {p : PassRecord}
    (hp : p ∈ detected settings coords sat startTime station)
    : InSight settings coords sat startTime station (rowOf sat station p) := by
  intro t ht position hposition hrise hset
  obtain ⟨positions, hp⟩ := exists_mem_extractPasses hp
  obtain ⟨k, hk, htime, hecef⟩ := SGP4Engine.exists_sample coords ht hposition
  rw [← propagated] at hk htime hecef
  rw [← hecef]
  apply h.accurate.clear_of_mem_extractPasses (PropagationResult.length_validPositions _)
    (PropagationResult.validTimes_increasing _) (PropagationResult.validTimes_keptSteps _) h.mask hp hk
  . rw [htime]
    apply lt_seconds_of_micros_lt hrise
  . rw [htime]
    apply seconds_lt_of_lt_micros hset

end DetectPasses

namespace LifeCycle

open DetectPasses

variable {settings : Settings} {coords : CoordConverter} {s t : State} {events : List Event}
  {allowed : State → Event → Prop}

def Writes (settings : Settings) (coords : CoordConverter) (q : SatellitePass) (s : State) (e : Event)
    : Prop :=
  ∃ n sat startTime, e = .commitRows n sat ∧ s.began n = some startTime
    ∧ ∃ row ∈ tleRows settings coords sat startTime, ∃ id, ({ row with id } : SatellitePass).Advance q

theorem Step.origin {e : Event} (h : Step settings coords s e t) {q : SatellitePass}
    (hq : q ∈ t.table.rows)
    : (∃ p ∈ s.table.rows, p.Advance q) ∨ Writes settings coords q s e := by
  cases h with
  | clock => exact .inl ⟨q, hq, .refl q⟩
  | beginDetection => exact .inl ⟨q, hq, .refl q⟩
  | @commitRows n sat startTime hbegan =>
    rcases mem_execute hq with hq | ⟨row, hrow, id, rfl⟩
    . exact .inl ⟨q, hq, .refl q⟩
    . exact .inr ⟨n, sat, startTime, rfl, hbegan, row, hrow, id, .refl _⟩
  | stage hstage h => exact .inl ((h.advances hstage).noNewKey q hq)
  | cleanupPasses => exact .inl ⟨q, (mem_cleanupPasses.mp hq).left, .refl q⟩

theorem Writes.advance {q r : SatellitePass} {e : Event} (h : Writes settings coords q s e)
    (hadvance : q.Advance r) : Writes settings coords r s e := by
  obtain ⟨n, sat, startTime, he, hbegan, row, hrow, id, hrowq⟩ := h
  exact ⟨n, sat, startTime, he, hbegan, row, hrow, id, hrowq.trans hadvance⟩

theorem origin_of_run (hrun : Run (restrict allowed (Step settings coords)) s events t)
    {q : SatellitePass} (hq : q ∈ t.table.rows)
    : (∃ p ∈ s.table.rows, p.Advance q)
        ∨
      Once (restrict allowed (Step settings coords)) s
        (fun _ u e => allowed u e ∧ Writes settings coords q u e) events := by
  apply hrun.invariant_prefix (I := fun events t => ∀ q ∈ t.table.rows,
    (∃ p ∈ s.table.rows, p.Advance q) ∨ Once (restrict allowed (Step settings coords)) s
      (fun _ u e => allowed u e ∧ Writes settings coords q u e) events) _ _ q hq
  . intro before u e u' hbefore hs hstep q hq
    rcases hstep.right.origin hq with ⟨p, hp, hadvance⟩ | hwrites
    . rcases hs p hp with ⟨r, hr, hadvance'⟩ | honce
      . exact .inl ⟨r, hr, hadvance'.trans hadvance⟩
      . apply Or.inr
        apply (honce.append [e]).imp
        exact fun _ _ _ h => ⟨h.left, h.right.advance hadvance⟩
    . exact .inr (Once.last hbefore ⟨hstep.left, hwrites⟩)
  . exact fun q hq => .inl ⟨q, hq, .refl q⟩

def MasksAboveError (settings : Settings) (coords : CoordConverter) (err : ℝ) (s : State) (e : Event)
    : Prop :=
  ∀ n sat startTime, e = .commitRows n sat → s.began n = some startTime
    → ∀ station ∈ sat.stations, MaskAboveError settings coords sat startTime station err

theorem Writes.inSight {err : ℝ} {e : Event} {q : SatellitePass} (h : Writes settings coords q s e)
    (hmasks : MasksAboveError settings coords err s e)
    : ∃ n sat startTime, e = .commitRows n sat ∧ s.began n = some startTime ∧ startTime ≤ q.riseTime
        ∧ ∃ station ∈ sat.stations, q.noradId = sat.noradId ∧ q.stationId = station.stationId
          ∧ InSight settings coords sat startTime station q := by
  obtain ⟨n, sat, startTime, he, hbegan, row, hrow, id, hadvance⟩ := h
  have hstart := startTime_le_riseTime hrow
  obtain ⟨station, hstation, p, hp, rfl⟩ := mem_tleRows.mp hrow
  have hclear := inSight_rowOf (hmasks n sat startTime he hbegan station hstation) hp
  refine ⟨n, sat, startTime, he, hbegan, ?_, station, hstation, ?_, ?_, ?_⟩
  . rw [hadvance.riseTime_eq]
    exact hstart
  . rcases hadvance with rfl | ⟨_, _, rfl⟩ <;> rfl
  . rcases hadvance with rfl | ⟨_, _, rfl⟩ <;> rfl
  . apply hclear.congr hadvance.riseTime_eq
    rcases hadvance with rfl | ⟨_, _, rfl⟩ <;> rfl

/--
From the sky to the schedule: whatever runs, each row that was not there at first comes from one
detection, of a satellite over a station that it names, and its times are such that the ellipsoid is
not between the two at any position that the detection had between them.
-/
theorem inSight_of_run {err : ℝ}
    (hrun : Run (restrict (MasksAboveError settings coords err) (Step settings coords)) s events t)
    {q : SatellitePass} (hq : q ∈ t.table.rows)
    : (∃ p ∈ s.table.rows, p.Advance q)
        ∨
      Once (restrict (MasksAboveError settings coords err) (Step settings coords)) s
        (fun _ u e => ∃ n sat startTime, e = .commitRows n sat ∧ u.began n = some startTime
          ∧ startTime ≤ q.riseTime
          ∧ ∃ station ∈ sat.stations, q.noradId = sat.noradId ∧ q.stationId = station.stationId
            ∧ InSight settings coords sat startTime station q) events := by
  rcases origin_of_run hrun hq with hfirst | honce
  . exact .inl hfirst
  . exact .inr (honce.imp fun _ _ _ h => h.right.inSight h.left)

open PropagationResult (hourly plainStation)

def overheadSatellite : Satellite :=
  {
    highSatellite with
    satrec := {
      epochyr := 24
      epochdays := 1
      step _ := { position := some overhead, errorCode := 0 }
    }
  }

theorem maskAboveError_overhead
    : MaskAboveError hourly overheadCoords overheadSatellite 0 plainStation 0 := by
  constructor
  case mask =>
    unfold plainStation
    norm_num
  case accurate =>
    constructor
    case nonneg => apply le_refl
    case close =>
      intro p hp e he
      have he : e = 90 := by simpa [overheadCoords] using he.symm
      have hp : p = overhead := by
        unfold ecefPositions propagated at hp
        rw [SGP4Engine.validPositions_propagate, SGP4Engine.validTimes_propagate] at hp
        simp only [overheadSatellite, overheadCoords, Option.getD_some, List.zipWith_map_left,
          List.zipWith_self, List.mem_map] at hp
        obtain ⟨_, _, rfl⟩ := hp
        rfl
      rw [hp, he, elevationOf_overhead]
      norm_num

theorem inSight_of_run_overhead
    : ∃ t, Run (restrict (MasksAboveError hourly overheadCoords 0) (Step hourly overheadCoords))
        { now := 0, table := .empty } [.beginDetection 1, .commitRows 1 overheadSatellite] t
      ∧ ∃ q ∈ t.table.rows, (∃ p ∈ PassTable.empty.rows, p.Advance q)
        ∨
      Once (restrict (MasksAboveError hourly overheadCoords 0) (Step hourly overheadCoords))
        { now := 0, table := .empty }
        (fun _ u e => ∃ n sat startTime, e = .commitRows n sat ∧ u.began n = some startTime
          ∧ startTime ≤ q.riseTime
          ∧ ∃ station ∈ sat.stations, q.noradId = sat.noradId ∧ q.stationId = station.stationId
            ∧ InSight hourly overheadCoords sat startTime station q)
        [.beginDetection 1, .commitRows 1 overheadSatellite] := by
  let table :=
    execute hourly overheadCoords overheadSatellite .empty { startTime := 0, commits := true }
  have hrun : Run (restrict (MasksAboveError hourly overheadCoords 0) (Step hourly overheadCoords))
      { now := 0, table := .empty } [.beginDetection 1, .commitRows 1 overheadSatellite]
      { now := 0, table, began := Function.update (fun _ => none) 1 (some 0) } := by
    refine .cons ⟨?_, .beginDetection⟩ (.cons ⟨?_, .commitRows rfl⟩ (.nil _))
    . intro n sat startTime heq
      cases heq
    . intro n sat startTime heq hbegan station hstation
      cases heq
      cases hbegan
      rw [List.mem_singleton.mp hstation]
      apply maskAboveError_overhead
  have hstored : table.rows ≠ [] := by decide +kernel
  obtain ⟨q, hq⟩ := List.exists_mem_of_ne_nil _ hstored
  exact ⟨_, hrun, q, hq, inSight_of_run hrun hq⟩

end LifeCycle

end SdaSystem
