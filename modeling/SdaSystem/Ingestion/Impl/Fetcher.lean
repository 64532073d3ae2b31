import Mathlib.Data.Finset.Basic
import Mathlib.Data.Finset.Image
import Mathlib.Data.List.Basic

/-!
This module contains the part of the TLE fetcher that parses a feed and writes the `tles` table. The
session that it writes through does not flush by itself, so the table changes at a commit only.

Texts that the code takes apart are lists of code points. The columns `id` and `fetched_at` are left
out: nothing reads them here.
-/

namespace SdaSystem

structure TLE where
  noradId : Int
  name : Option (List Char)
  line1 : List Char
  line2 : List Char
  epoch : Int
  isCurrent : Bool := true
  checksum : Option (List Char)
  deriving DecidableEq, Repr

/-- The columns of `uix_tles_norad_epoch`. -/
def TLE.key (t : TLE) : Int × Int :=
  (t.noradId, t.epoch)

/-- A text for a column `String(width)`. PostgreSQL has no NUL in its texts. -/
def fits (width : Nat) (s : List Char) : Bool :=
  s.length ≤ width ∧ Char.ofNat 0 ∉ s

/--
PostgreSQL refuses to store the row. The other columns hold whatever gets there: a digest has 64
characters, and the numbers of satellites are far below the bound of `Integer`.
-/
def TLE.refused (t : TLE) : Bool :=
  ¬ (fits 100 (t.name.getD []) ∧ fits 100 t.line1 ∧ fits 100 t.line2)

/-- The methods of `TLEValidator` that the fetcher calls; `none` is an exception that escapes. -/
structure TLEValidator where
  validatePair : List Char → List Char → List Char → Option Bool
  extractNoradId : List Char → Option (Option Int)
  extractEpoch : List Char → Option (Option Int)
  computePairHash : List Char → List Char → Option (List Char)

namespace TLEFetcher

def batchSize : Nat := 500

def isLineBoundary (c : Char) : Bool :=
  c.toNat ∈ [0x0A, 0x0B, 0x0C, 0x0D, 0x1C, 0x1D, 0x1E, 0x85, 0x2028, 0x2029]

def isSpace (c : Char) : Bool :=
  (0x09 ≤ c.toNat ∧ c.toNat ≤ 0x0D) ∨ (0x1C ≤ c.toNat ∧ c.toNat ≤ 0x20)
    ∨ (0x2000 ≤ c.toNat ∧ c.toNat ≤ 0x200A)
    ∨ c.toNat ∈ [0x85, 0xA0, 0x1680, 0x2028, 0x2029, 0x202F, 0x205F, 0x3000]

def splitlines (text : List Char) : List (List Char) :=
  go [] text
where
  go (line : List Char) (text : List Char) : List (List Char) :=
    match text with
    | [] => if line = [] then [] else [line.reverse]
    | '\r' :: '\n' :: rest => line.reverse :: go [] rest
    | c :: rest => if isLineBoundary c then line.reverse :: go [] rest else go (c :: line) rest

def strip (s : List Char) : List Char :=
  ((s.dropWhile isSpace).reverse.dropWhile isSpace).reverse

abbrev Triplet := List Char × List Char × List Char

/-- The blocks of three lines that the loop visits; one or two lines at the end are dropped. -/
def triplets (lines : List (List Char)) : List Triplet :=
  match lines with
  | name :: line1 :: line2 :: rest => (strip name, strip line1, strip line2) :: triplets rest
  | _ => []

structure Entry where
  noradId : Int
  epoch : Int
  name : List Char
  line1 : List Char
  line2 : List Char
  pairHash : List Char
  deriving DecidableEq, Repr

namespace Entry

def key (e : Entry) : Int × Int :=
  (e.noradId, e.epoch)

def toTLE (e : Entry) : TLE where
  noradId := e.noradId
  name := some e.name
  line1 := e.line1
  line2 := e.line2
  epoch := e.epoch
  checksum := some e.pairHash

end Entry

inductive Parsed where
  | blank
  | invalid
  | entry (e : Entry)
  deriving DecidableEq, Repr

def parseTriplet (validator : TLEValidator) (t : Triplet) : Option Parsed :=
  let (name, line1, line2) := t
  if name = [] ∧ line1 = [] ∧ line2 = [] then
    some .blank
  else do
    let ok ← validator.validatePair name line1 line2
    if ¬ ok then
      return .invalid
    let noradId ← validator.extractNoradId line1
    let epoch ← validator.extractEpoch line1
    match noradId, epoch with
    | some noradId, some epoch =>
      let pairHash ← validator.computePairHash line1 line2
      return .entry { noradId, epoch, name, line1, line2, pairHash }
    | _, _ => return .invalid

structure Counts where
  new : Nat := 0
  updated : Nat := 0
  invalid : Nat := 0
  skipped : Nat := 0
  unused : Nat := 0
  deriving DecidableEq, Repr

def Counts.total (counts : Counts) : Nat :=
  counts.new + counts.updated

structure State where
  -- The committed rows.
  db : List TLE
  -- The objects that are added to the session and not written yet.
  added : List TLE := []
  -- The keys of the loaded objects with changes that are not written yet.
  dirty : Finset (Int × Int) := ∅
  currentTles : List TLE
  currentNoradIds : Finset Int
  allEpochs : Finset (Int × Int)
  addedThisRun : Finset Int := ∅
  retireThisBatch : List Int := []
  batchPending : Nat := 0
  counts : Counts := {}

def prefetch (db : List TLE) : State where
  db := db
  currentTles := db.filter (·.isCurrent)
  currentNoradIds := ((db.filter (·.isCurrent)).map (·.noradId)).toFinset
  allEpochs := (db.map (·.key)).toFinset

section

def differs (t : TLE) (e : Entry) : Bool :=
  t.name ≠ some e.name ∨ t.checksum ≠ some e.pairHash

def update (t : TLE) (e : Entry) : TLE :=
  { t with name := some e.name, line1 := e.line1, line2 := e.line2, checksum := some e.pairHash }

def store (s : State) (e : Entry) : State :=
  match s.currentTles.find? (·.key = e.key) with
  | some tleObj =>
    if differs tleObj e then
      -- The object is changed in place, its row only when the session writes it.
      { s with
        currentTles := s.currentTles.map fun t => if t.key = e.key then update t e else t
        dirty := insert e.key s.dirty
        batchPending := s.batchPending + 1
        counts.updated := s.counts.updated + 1 }
    else
      { s with counts.unused := s.counts.unused + 1 }
  | none =>
    if e.key ∈ s.allEpochs then
      -- The row with this key is retired, or pending.
      { s with counts.skipped := s.counts.skipped + 1 }
    else if e.noradId ∈ s.addedThisRun then
      -- A second new epoch in one feed is dropped, even if it is the later one.
      { s with counts.skipped := s.counts.skipped + 1 }
    else
      { s with
        retireThisBatch :=
          if e.noradId ∈ s.currentNoradIds then s.retireThisBatch ++ [e.noradId]
          else s.retireThisBatch
        currentNoradIds := s.currentNoradIds.erase e.noradId
        added := s.added ++ [e.toTLE]
        allEpochs := insert e.key s.allEpochs
        addedThisRun := insert e.noradId s.addedThisRun
        batchPending := s.batchPending + 1
        counts.new := s.counts.new + 1 }

/-- What `UPDATE tles SET is_current = FALSE WHERE norad_id IN (...) AND is_current` does to a row. -/
def retire (retireNoradIds : List Int) (t : TLE) : TLE :=
  if t.noradId ∈ retireNoradIds ∧ t.isCurrent then { t with isCurrent := false } else t

def writeDirty (currentTles : List TLE) (dirty : Finset (Int × Int)) (t : TLE) : TLE :=
  if t.key ∈ dirty then
    match currentTles.find? (·.key = t.key) with
    | some tleObj =>
      { t with
        name := tleObj.name
        line1 := tleObj.line1
        line2 := tleObj.line2
        checksum := tleObj.checksum }
    | none => t
  else
    t

/-- Bulk-retire, then write the changes and the new objects: only now the session does. -/
def writeBatch (s : State) : State :=
  -- The `UPDATE` does not see the pending objects: there is no autoflush.
  let db := if s.retireThisBatch = [] then s.db else s.db.map (retire s.retireThisBatch)
  { s with db := db.map (writeDirty s.currentTles s.dirty) ++ s.added, added := [], dirty := ∅ }

-- The rows that the database does not take.
variable (refused : TLE → Bool)

/-- A row that the database does not take makes the commit raise. -/
def flushBatch (s : State) : Option State :=
  if s.added.any refused ∨ s.currentTles.any (fun t => t.key ∈ s.dirty ∧ refused t) then
    none
  else
    some (writeBatch s)

variable (validator : TLEValidator)

def step (s : State) (t : Triplet) : Option State := do
  match ← parseTriplet validator t with
  | .blank => return { s with counts.skipped := s.counts.skipped + 1 }
  | .invalid => return { s with counts.invalid := s.counts.invalid + 1 }
  | .entry e =>
    let s := store s e
    if s.batchPending ≥ batchSize then
      let s ← flushBatch refused s
      return { s with retireThisBatch := [], batchPending := 0 }
    else
      return s

def loop (s : State) (ts : List Triplet) : Except State State :=
  match ts with
  | [] => .ok s
  | t :: ts =>
    match step refused validator s t with
    | some s => loop s ts
    | none => .error s

/--
The table after the final flush, and the counts. An exception rolls back, which leaves the table as
the last commit has it.
-/
def parseAndStore (db : List TLE) (text : List Char) : Except (List TLE) (List TLE × Counts) :=
  match loop refused validator (prefetch db) (triplets (splitlines text)) with
  | .ok s =>
    match flushBatch refused s with
    | some s => .ok (s.db, s.counts)
    | none => .error s.db
  | .error s => .error s.db

/-- The table that an execution leaves behind when it fails after some rounds, if not before. -/
def parseAndStoreFailing (db : List TLE) (text : List Char) (rounds : Nat) : List TLE :=
  match loop refused validator (prefetch db) ((triplets (splitlines text)).take rounds) with
  | .ok s | .error s => s.db

end

end TLEFetcher

end SdaSystem
