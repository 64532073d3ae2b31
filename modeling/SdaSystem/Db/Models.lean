import Mathlib.Algebra.Order.Ring.Rat
import Mathlib.Data.List.Nodup

/-!
The tables the schedulers work on, with the constraints that the schema imposes on their rows.

A timezone-aware `datetime` is the number of microseconds from 1970-01-01T00:00Z to its instant, so
comparing two of them compares integers.
-/

namespace SdaSystem

structure GroundStation where
  stationId : String
  isActive : Bool
  deriving DecidableEq, Repr

structure StationTable where
  rows : List GroundStation
  uniqueKey : (rows.map (·.stationId)).Nodup

inductive ScheduledBy where
  | greedy
  | intervalTree
  | ortools
  deriving DecidableEq, Repr

structure SatellitePass where
  id : Nat
  noradId : Int
  stationId : String
  riseTime : Int
  setTime : Int
  durationSeconds : Rat
  maxElevation : Rat
  isScheduled : Bool := false
  scheduledBy : Option ScheduledBy := none
  deriving DecidableEq, Repr

/-- `ck_pass_time_order`, `ck_pass_duration_positive` and `ck_pass_elevation_range` -/
def PassChecks {τ : Type} [LT τ] (riseTime setTime : τ) (durationSeconds maxElevation : Rat) : Prop :=
  riseTime < setTime ∧ 0 < durationSeconds ∧ 0 ≤ maxElevation ∧ maxElevation ≤ 90

instance {τ : Type} [LT τ] [DecidableLT τ] (riseTime setTime : τ)
    (durationSeconds maxElevation : Rat)
    : Decidable (PassChecks riseTime setTime durationSeconds maxElevation) :=
  inferInstanceAs (Decidable (_ ∧ _ ∧ _ ∧ _))

namespace SatellitePass

def key (p : SatellitePass) : Int × String × Int :=
  (p.noradId, p.stationId, p.riseTime)

def TimeOrder (p : SatellitePass) : Prop :=
  p.riseTime < p.setTime

def Checks (p : SatellitePass) : Prop :=
  PassChecks p.riseTime p.setTime p.durationSeconds p.maxElevation

def Overlaps (p q : SatellitePass) : Prop :=
  p.riseTime < q.setTime ∧ q.riseTime < p.setTime

def NonOverlapping (p q : SatellitePass) : Prop :=
  p.setTime ≤ q.riseTime ∨ q.setTime ≤ p.riseTime

instance : DecidablePred TimeOrder := fun p => inferInstanceAs (Decidable (p.riseTime < p.setTime))

instance : DecidablePred Checks := fun p =>
  inferInstanceAs (Decidable (PassChecks p.riseTime p.setTime p.durationSeconds p.maxElevation))

instance : DecidableRel Overlaps := fun p q =>
  inferInstanceAs (Decidable (p.riseTime < q.setTime ∧ q.riseTime < p.setTime))

instance : DecidableRel NonOverlapping := fun p q =>
  inferInstanceAs (Decidable (p.setTime ≤ q.riseTime ∨ q.setTime ≤ p.riseTime))

theorem not_overlaps_iff {p q : SatellitePass} : ¬ p.Overlaps q ↔ p.NonOverlapping q := by
  unfold Overlaps NonOverlapping
  omega

theorem NonOverlapping.symm {p q : SatellitePass} (h : p.NonOverlapping q) : q.NonOverlapping p :=
  Or.symm h

def schedule (stage : ScheduledBy) (p : SatellitePass) : SatellitePass :=
  { p with isScheduled := true, scheduledBy := some stage }

section

variable (stage : ScheduledBy) (p q : SatellitePass)

@[simp]
theorem schedule_id : (p.schedule stage).id = p.id := rfl

@[simp]
theorem schedule_key : (p.schedule stage).key = p.key := rfl

@[simp]
theorem schedule_noradId : (p.schedule stage).noradId = p.noradId := rfl

@[simp]
theorem schedule_stationId : (p.schedule stage).stationId = p.stationId := rfl

@[simp]
theorem schedule_isScheduled : (p.schedule stage).isScheduled = true := rfl

@[simp]
theorem schedule_timeOrder : (p.schedule stage).TimeOrder ↔ p.TimeOrder := Iff.rfl

end

end SatellitePass

structure PassTable where
  rows : List SatellitePass
  primaryKey : (rows.map (·.id)).Nodup
  uniqueKey : (rows.map (·.key)).Nodup
  timeOrder : ∀ p ∈ rows, p.TimeOrder

namespace PassTable

def empty : PassTable where
  rows := []
  primaryKey := by simp
  uniqueKey := by simp
  timeOrder := by simp

def nextId (table : PassTable) : Nat :=
  (table.rows.map (·.id)).foldr max 0 + 1

theorem lt_nextId (table : PassTable) {p : SatellitePass} (hp : p ∈ table.rows)
    : p.id < table.nextId := by
  have : ∀ (ids : List Nat) (n : Nat), n ∈ ids → n ≤ ids.foldr max 0 := by
    intro ids n hn
    induction ids with
    | nil => simp at hn
    | cons m ids ih =>
      rw [List.foldr_cons]
      cases hn with
      | head => apply le_max_left
      | tail _ hn => apply le_max_of_le_right (ih hn)
  unfold nextId
  have := this (table.rows.map (·.id)) p.id (List.mem_map_of_mem hp)
  omega

/-- Insert one row, `ON CONFLICT DO NOTHING` on the columns of `key`. -/
def insert (table : PassTable) (row : SatellitePass) : PassTable :=
  if h : row.TimeOrder ∧ row.key ∉ table.rows.map (·.key) then
    {
      rows := table.rows ++ [{ row with id := table.nextId }]
      primaryKey := by
        rw [List.map_append, List.nodup_append]
        refine ⟨table.primaryKey, by simp, ?_⟩
        intro i hi j hj hij
        simp only [List.map_cons, List.map_nil, List.mem_singleton] at hj
        obtain ⟨p, hp, rfl⟩ := List.mem_map.mp hi
        have := table.lt_nextId hp
        omega
      uniqueKey := by
        rw [List.map_append, List.nodup_append]
        refine ⟨table.uniqueKey, by simp, ?_⟩
        intro i hi j hj hij
        simp only [List.map_cons, List.map_nil, List.mem_singleton] at hj
        subst hj
        subst hij
        apply h.right hi
      timeOrder := by
        intro p hp
        rw [List.mem_append, List.mem_singleton] at hp
        rcases hp with hp | rfl
        . apply table.timeOrder p hp
        . apply h.left
    }
  else
    table

def markScheduled (table : PassTable) (ids : List Nat) (stage : ScheduledBy) : PassTable where
  rows := table.rows.map fun p => if p.id ∈ ids then p.schedule stage else p
  primaryKey := by
    have : (fun p : SatellitePass => (if p.id ∈ ids then p.schedule stage else p).id) = (·.id) := by
      funext p
      split <;> simp
    simpa [List.map_map, Function.comp_def, this] using table.primaryKey
  uniqueKey := by
    have : (fun p : SatellitePass => (if p.id ∈ ids then p.schedule stage else p).key) = (·.key) := by
      funext p
      split <;> simp
    simpa [List.map_map, Function.comp_def, this] using table.uniqueKey
  timeOrder := by
    intro p hp
    obtain ⟨q, hq, rfl⟩ := List.mem_map.mp hp
    have := table.timeOrder q hq
    split
    . simpa using this
    . apply this

theorem mem_markScheduled {table : PassTable} {ids : List Nat} {stage : ScheduledBy}
    {p : SatellitePass} : p ∈ (table.markScheduled ids stage).rows
      ↔
    (p ∈ table.rows ∧ p.id ∉ ids) ∨ ∃ q ∈ table.rows, q.id ∈ ids ∧ q.schedule stage = p := by
  unfold markScheduled
  simp only [List.mem_map]
  constructor
  . rintro ⟨q, hq, rfl⟩
    split
    . next hid => exact Or.inr ⟨q, hq, hid, rfl⟩
    . next hid => exact Or.inl ⟨hq, hid⟩
  . rintro (⟨hp, hid⟩ | ⟨q, hq, hid, rfl⟩)
    . exact ⟨p, hp, by rw [if_neg hid]⟩
    . exact ⟨q, hq, by rw [if_pos hid]⟩

theorem eq_of_id_eq (table : PassTable) {p q : SatellitePass} (hp : p ∈ table.rows)
    (hq : q ∈ table.rows) (hid : p.id = q.id) : p = q :=
  List.inj_on_of_nodup_map table.primaryKey hp hq hid

theorem mem_of_id_mem {table : PassTable} {selected : List SatellitePass}
    (hmem : ∀ p ∈ selected, p ∈ table.rows) {p : SatellitePass} (hp : p ∈ table.rows)
    (hid : p.id ∈ selected.map (·.id)) : p ∈ selected := by
  obtain ⟨q, hq, heq⟩ := List.mem_map.mp hid
  rw [← table.eq_of_id_eq (hmem q hq) hp heq]
  apply hq

end PassTable

end SdaSystem
