import SdaSystem.Db.Models

/-!
The two functions that fill the `ground_stations` table, `seed_ground_stations` of the database set-up
and `init_ground_stations` of the TLE fetcher, in processes that run at the same time. Numbers are taken
exactly.
-/

namespace SdaSystem
namespace Seeding

/-- An entry of `stations.json`. The keys that every seeder asks for are there. -/
structure StationEntry where
  id : String
  name : String
  latitude : Rat
  longitude : Rat
  altitudeM : Option Rat := none
  elevationMaskDeg : Option Rat := none
  deriving DecidableEq, Repr

/-- `{s["id"]: s for s in config.GROUND_STATIONS}`: the last entry for an id, at the place of the first. -/
def configured (stations : List StationEntry) : List StationEntry :=
  stations.foldl insertEntry []
where
  insertEntry (dict : List StationEntry) (s : StationEntry) : List StationEntry :=
    if s.id ∈ dict.map (·.id) then
      dict.map fun t => if t.id = s.id then s else t
    else
      dict ++ [s]

structure StationRow extends GroundStation where
  name : String
  latitude : Rat
  longitude : Rat
  altitudeM : Rat
  elevationMaskDeg : Rat
  deriving DecidableEq, Repr

/-- The lengths of the columns, and `ck_gs_latitude_range` and its neighbours. -/
def StationRow.Checks (row : StationRow) : Prop :=
  row.stationId.length ≤ 10 ∧ row.name.length ≤ 100
    ∧ (-90 ≤ row.latitude ∧ row.latitude ≤ 90)
    ∧ (-180 ≤ row.longitude ∧ row.longitude ≤ 180)
    ∧ 0 ≤ row.altitudeM

instance : DecidablePred StationRow.Checks := fun _ => inferInstanceAs (Decidable (_ ∧ _))

structure Table where
  rows : List StationRow
  uniqueKey : (rows.map (·.stationId)).Nodup
  checks : ∀ row ∈ rows, row.Checks

def Table.empty : Table where
  rows := []
  uniqueKey := List.nodup_nil
  checks := by simp

def Table.ids (table : Table) : List String :=
  table.rows.map (·.stationId)

/-- `INSERT` of all rows in one transaction, which a constraint may refuse as a whole. -/
def Table.insertAll (table : Table) (new : List StationRow) : Option Table :=
  if h : ((table.rows ++ new).map (·.stationId)).Nodup ∧ ∀ row ∈ new, row.Checks then
    some {
      rows := table.rows ++ new
      uniqueKey := h.left
      checks := by
        intro row hrow
        cases List.mem_append.mp hrow with
        | inl hold => apply table.checks row hold
        | inr hnew => apply h.right row hnew
    }
  else
    none

inductive Seeder where
  | seedGroundStations
  | initGroundStations
  deriving DecidableEq, Repr

def seedGroundStations.row (s : StationEntry) : StationRow where
  stationId := s.id
  name := s.name
  latitude := s.latitude
  longitude := s.longitude
  altitudeM := s.altitudeM.getD 0
  elevationMaskDeg := s.elevationMaskDeg.getD 10
  isActive := true

/-- `none` is a `KeyError`. The mask is left to the default of the column. -/
def initGroundStations.row (s : StationEntry) : Option StationRow :=
  s.altitudeM.map fun altitudeM => {
    stationId := s.id
    name := s.name
    latitude := s.latitude
    longitude := s.longitude
    altitudeM
    elevationMaskDeg := 10
    isActive := true
  }

def Seeder.row (seeder : Seeder) (s : StationEntry) : Option StationRow :=
  match seeder with
  | .seedGroundStations => some (seedGroundStations.row s)
  | .initGroundStations => initGroundStations.row s

def missing (stations : List StationEntry) (existingIds : List String) : List StationEntry :=
  (configured stations).filter (·.id ∉ existingIds)

/-- The table after the commit, or `none` when the seeder rolls back and raises. -/
def Seeder.insertMissing (seeder : Seeder) (stations : List StationEntry) (existingIds : List String)
    (table : Table) : Option Table := do
  table.insertAll (← (missing stations existingIds).mapM seeder.row)

structure State where
  table : Table
  -- what the processes have read that are between their `SELECT` and their commit
  existingIds : Nat → Option (Seeder × List String) := fun _ => none
  -- the processes that have returned, and those that have raised
  returned : List Nat := []
  raised : List Nat := []

inductive Event where
  | select (n : Nat) (seeder : Seeder)
  | commit (n : Nat)
  -- the process is killed, or the database is lost
  | crash (n : Nat)
  deriving DecidableEq, Repr

def step (stations : List StationEntry) (s : State) (e : Event) : Option State :=
  match e with
  | .select n seeder =>
    if s.existingIds n ≠ none then
      none
    else if missing stations s.table.ids = [] then
      some { s with returned := n :: s.returned }
    else
      some { s with existingIds := Function.update s.existingIds n (some (seeder, s.table.ids)) }
  | .commit n =>
    match s.existingIds n with
    | none => none
    | some (seeder, existingIds) =>
      let idle := Function.update s.existingIds n none
      match seeder.insertMissing stations existingIds s.table with
      | some table => some { s with table, existingIds := idle, returned := n :: s.returned }
      | none => some { s with existingIds := idle, raised := n :: s.raised }
  | .crash n => some { s with existingIds := Function.update s.existingIds n none }

def Step (stations : List StationEntry) (s : State) (e : Event) (t : State) : Prop :=
  step stations s e = some t

end Seeding
end SdaSystem
