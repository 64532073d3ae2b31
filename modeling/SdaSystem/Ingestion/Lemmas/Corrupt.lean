import SdaSystem.Ingestion.Lemmas.Retry
import SdaSystem.Ingestion.Lemmas.Validator

open PyNumber

namespace SdaSystem
namespace TLEFetcher

section bump

variable {refused : TLE → Bool} {validator : TLEValidator}

def State.bump (invalid skipped : Nat) (s : State) : State :=
  { s with
    counts.invalid := s.counts.invalid + invalid
    counts.skipped := s.counts.skipped + skipped }

variable (i k : Nat) (s : State)

theorem store_bump (e : Entry) : store (s.bump i k) e = (store s e).bump i k := by
  have hskipped : s.counts.skipped + k + 1 = s.counts.skipped + 1 + k := Nat.add_right_comm ..
  unfold store
  dsimp only [State.bump]
  cases s.currentTles.find? (·.key = e.key) with
  | some tleObj =>
    dsimp only
    by_cases hdiffers : differs tleObj e
    . simp only [hdiffers, if_true]
    . simp only [hdiffers, Bool.false_eq_true, if_false]
  | none =>
    dsimp only
    by_cases hepoch : e.key ∈ s.allEpochs
    . simp only [hepoch, if_true, hskipped]
    . simp only [hepoch, if_false]
      by_cases hadded : e.noradId ∈ s.addedThisRun
      . simp only [hadded, if_true, hskipped]
      . simp only [hadded, if_false]
        rfl

theorem flushBatch_bump
    : flushBatch refused (s.bump i k) = (flushBatch refused s).map (State.bump i k) := by
  unfold flushBatch
  rw [apply_ite (Option.map (State.bump i k))]
  rfl

theorem step_bump (t : Triplet)
    : step refused validator (s.bump i k) t = (step refused validator s t).map (State.bump i k) := by
  unfold step
  cases parseTriplet validator t with
  | none => rfl
  | some parsed =>
    cases parsed with
    | blank => simp [State.bump, Nat.add_right_comm]
    | invalid => simp [State.bump, Nat.add_right_comm]
    | entry e =>
      simp only [Option.bind_eq_bind, Option.bind_some, store_bump]
      have hpending : ((store s e).bump i k).batchPending = (store s e).batchPending := rfl
      rw [hpending, flushBatch_bump]
      split
      . cases flushBatch refused (store s e) with
        | none => rfl
        | some s' => rfl
      . rfl

theorem loop_bump (ts : List Triplet)
    : loop refused validator (s.bump i k) ts
        =
      match loop refused validator s ts with
      | .ok s' => .ok (s'.bump i k)
      | .error s' => .error (s'.bump i k) := by
  induction ts generalizing s with
  | nil => rfl
  | cons t ts ih =>
    unfold loop
    rw [step_bump]
    cases step refused validator s t with
    | none => rfl
    | some s' => apply ih

theorem triplets_append (before after : List (List Char)) (h : 3 ∣ before.length)
    : triplets (before ++ after) = triplets before ++ triplets after := by
  induction before using triplets.induct with
  | case1 name line1 line2 rest ih =>
    have hrest : 3 ∣ rest.length := by
      simp only [List.length_cons] at h
      omega
    simp only [List.cons_append, triplets, ih hrest]
  | case2 lines hlines =>
    match lines with
    | [] => rfl
    | [_] => simp at h
    | [_, _] => simp at h
    | name :: line1 :: line2 :: rest => exact absurd rfl (hlines name line1 line2 rest)

/-- The same rows, and in the counts one more block that is invalid or skipped. -/
def OneMore (outcome outcome' : Except (List TLE) (List TLE × Counts)) : Prop :=
  match outcome, outcome' with
  | .ok (rows, counts), .ok (rows', counts') =>
    rows' = rows
      ∧ (counts' = { counts with invalid := counts.invalid + 1 }
        ∨ counts' = { counts with skipped := counts.skipped + 1 })
  | .error rows, .error rows' => rows' = rows
  | _, _ => False

theorem oneMore_of_parseTriplet {db : List TLE} {text text' : List Char}
    {before after : List (List Char)} {name line1 line2 : List Char} (hdvd : 3 ∣ before.length)
    (htext : splitlines text = before ++ after)
    (htext' : splitlines text' = before ++ name :: line1 :: line2 :: after)
    (hblock : parseTriplet validator (strip name, strip line1, strip line2) = some .blank
      ∨ parseTriplet validator (strip name, strip line1, strip line2) = some .invalid)
    : OneMore (parseAndStore refused validator db text)
        (parseAndStore refused validator db text') := by
  have hstep : ∀ s, ∃ i k, (i = 1 ∧ k = 0 ∨ i = 0 ∧ k = 1)
      ∧ step refused validator s (strip name, strip line1, strip line2) = some (s.bump i k) := by
    intro s
    rcases hblock with h | h
    . refine ⟨0, 1, by simp, ?_⟩
      unfold step
      rw [h]
      rfl
    . refine ⟨1, 0, by simp, ?_⟩
      unfold step
      rw [h]
      rfl
  unfold parseAndStore
  rw [htext, htext', triplets_append before _ hdvd, triplets_append before _ hdvd, loop_append,
    loop_append]
  cases loop refused validator (prefetch db) (triplets before) with
  | error s => rfl
  | ok s =>
    obtain ⟨i, k, hik, hbump⟩ := hstep s
    simp only [triplets, loop, hbump, loop_bump]
    cases loop refused validator s (triplets after) with
    | error s' => rfl
    | ok s' =>
      dsimp only
      rw [flushBatch_bump]
      cases hflush : flushBatch refused s' with
      | none => rfl
      | some s'' =>
      refine ⟨rfl, ?_⟩
      rcases hik with ⟨rfl, rfl⟩ | ⟨rfl, rfl⟩
      . exact .inl rfl
      . exact .inr rfl

end bump

section validator

open Validator

variable (sha256 : List Char → List Char) (isupper : Char → Bool)

def BlockRaises (line1 line2 : List Char) : Prop :=
  Line1Raises isupper line1 ∨ (Line1Ok isupper line1 ∧ Line2Raises isupper line2)

theorem rstripCr_strip (s : List Char) : rstripCr (strip s) = strip s := by
  apply List.rdropWhile_eq_self_iff.mpr
  intro hne
  have hlast := isSpace_getLast?_strip (List.getLast_mem_getLast? hne)
  rw [decide_eq_true_iff]
  intro heq
  rw [heq] at hlast
  exact absurd hlast (by decide)

variable {sha256 isupper} {name line1 line2 : List Char}

theorem validatePair_strip_eq_none
    : validatePair isupper name (strip line1) (strip line2) = none
        ↔
      BlockRaises isupper (strip line1) (strip line2) := by
  rw [validatePair_eq_none, rstripCr_strip, rstripCr_strip]
  rfl

theorem extractNoradId_of_line1Ok {line : List Char} (h : Line1Ok isupper line)
    : ∃ val, extractNoradId isupper line = some (some val) := by
  have hlen : ¬ line.length < 7 := by simp [h.shape.left, tleLineLength]
  unfold extractNoradId
  rw [if_neg hlen]
  exact (parseSatelliteNumber_spec isupper _).right.mpr h.fields.number

theorem parseTriplet_strip_eq_none
    : parseTriplet (methods sha256 isupper) (name, strip line1, strip line2) = none
        ↔
      BlockRaises isupper (strip line1) (strip line2) := by
  have hpair := @validatePair_strip_eq_none isupper name line1 line2
  unfold parseTriplet
  dsimp only
  split
  . next hblank =>
    have hreject : validatePair isupper name (strip line1) (strip line2)
        = some (some (.line1 name .empty)) := by
      rw [hblank.right.left]
      rfl
    rw [← hpair, hreject]
    simp
  . rw [← hpair]
    match hval : validatePair isupper name (strip line1) (strip line2) with
    | none => simp [methods, hval]
    | some (some err) => simp [methods, hval]
    | some none =>
      have hok := (validatePair_eq_some_none.mp hval).left
      rw [rstripCr_strip] at hok
      obtain ⟨noradId, hnorad⟩ := extractNoradId_of_line1Ok hok
      cases hepoch : extractEpoch (strip line1) with
      | none => simp [methods, hval, hnorad, hepoch]
      | some epoch => simp [methods, hval, hnorad, hepoch]

theorem stripped_of_mem_triplets {lines : List (List Char)} {t : Triplet} (h : t ∈ triplets lines)
    : ∃ name line1 line2, t = (name, strip line1, strip line2) := by
  induction lines using triplets.induct with
  | case1 name line1 line2 rest ih =>
    unfold triplets at h
    cases h with
    | head => exact ⟨strip name, line1, line2, rfl⟩
    | tail _ h => exact ih h
  | case2 lines hlines =>
    rw [triplets.eq_2 lines hlines] at h
    cases h

theorem extractEpoch_of_line1Ok {line : List Char} (h : Line1Ok isupper line)
    : ∃ epoch, extractEpoch line = some epoch := by
  have hlen : ¬ line.length < 32 := by simp [h.shape.left, tleLineLength]
  obtain ⟨year, hyear, _⟩ := int_pos h.fields.epochYear (not_hasStray_year h)
  obtain ⟨day, hday, hone, hlt⟩ := finite_day h
  unfold extractEpoch
  rw [if_neg hlen, hyear, hday]
  dsimp only [Option.bind_eq_bind, Option.bind_some]
  rw [if_neg (by simp [hone, hlt])]
  exact ⟨_, rfl⟩

structure BlockOk (isupper : Char → Bool) (line1 line2 : List Char) : Prop where
  first : Line1Ok isupper line1
  second : Line2Ok isupper line2
  sameNumber : parseSatelliteNumber isupper (columns 2 7 line1)
    = parseSatelliteNumber isupper (columns 2 7 line2)

theorem validatePair_strip_eq_some_none
    : validatePair isupper name (strip line1) (strip line2) = some none
        ↔
      BlockOk isupper (strip line1) (strip line2) := by
  rw [validatePair_eq_some_none, rstripCr_strip, rstripCr_strip]
  constructor
  . rintro ⟨h1, h2, hsame⟩
    exact ⟨h1, h2, hsame⟩
  . rintro ⟨h1, h2, hsame⟩
    exact ⟨h1, h2, hsame⟩

theorem parseTriplet_of_blockOk (name : List Char) (h : BlockOk isupper (strip line1) (strip line2))
    : ∃ e, parseTriplet (methods sha256 isupper) (name, strip line1, strip line2) = some (.entry e)
        ∧ e.name = name ∧ e.line1 = strip line1 ∧ e.line2 = strip line2 := by
  have hpair := (@validatePair_strip_eq_some_none isupper name line1 line2).mpr h
  have hne : strip line1 ≠ [] := by
    intro hnil
    have := h.first.shape.left
    rw [hnil] at this
    cases this
  obtain ⟨noradId, hnorad⟩ := extractNoradId_of_line1Ok h.first
  obtain ⟨epoch, hepoch⟩ := extractEpoch_of_line1Ok h.first
  unfold parseTriplet
  simp [hne, methods, hpair, hnorad, hepoch]

theorem blockOk_of_parseTriplet {e : Entry}
    (h : parseTriplet (methods sha256 isupper) (name, strip line1, strip line2) = some (.entry e))
    : BlockOk isupper (strip line1) (strip line2) := by
  rw [← @validatePair_strip_eq_some_none isupper name]
  unfold parseTriplet at h
  dsimp only at h
  split at h
  . cases h
  . match hval : validatePair isupper name (strip line1) (strip line2) with
    | none => simp [methods, hval] at h
    | some (some err) => simp [methods, hval] at h
    | some none => rfl

/-- PostgreSQL refuses a text of the block: the name is too long, or there is a NUL. -/
def HasBadText (name line1 line2 : List Char) : Prop :=
  100 < name.length ∨ Char.ofNat 0 ∈ name ∨ Char.ofNat 0 ∈ line1 ∨ Char.ofNat 0 ∈ line2

theorem refused_iff {t : TLE} (hname : t.name = some name) (h1 : t.line1.length ≤ 100)
    (h2 : t.line2.length ≤ 100) : t.refused = true ↔ HasBadText name t.line1 t.line2 := by
  unfold TLE.refused fits HasBadText
  rw [hname]
  simp only [Option.getD_some, h1, h2, true_and, decide_eq_true_eq]
  rw [← not_le]
  tauto

def BlockRefused (isupper : Char → Bool) (name line1 line2 : List Char) : Prop :=
  BlockOk isupper line1 line2 ∧ HasBadText name line1 line2

theorem blockRefused_iff
    : BlockRefused isupper name (strip line1) (strip line2)
        ↔
      ∃ e, parseTriplet (methods sha256 isupper) (name, strip line1, strip line2) = some (.entry e)
        ∧ e.toTLE.refused := by
  have hrefused : ∀ e : Entry, BlockOk isupper (strip line1) (strip line2) → e.name = name
      → e.line1 = strip line1 → e.line2 = strip line2
      → (e.toTLE.refused = true ↔ HasBadText name (strip line1) (strip line2)) := by
    intro e hok hname h1 h2
    have hlen1 := hok.first.shape.left
    have hlen2 := hok.second.shape.left
    rw [← h1] at hlen1 ⊢
    rw [← h2] at hlen2 ⊢
    apply refused_iff (t := e.toTLE) (congrArg some hname)
    . exact hlen1.trans_le (by decide)
    . exact hlen2.trans_le (by decide)
  constructor
  . rintro ⟨hok, hbad⟩
    obtain ⟨e, hentry, hname, h1, h2⟩ := @parseTriplet_of_blockOk sha256 isupper line1 line2 name hok
    exact ⟨e, hentry, (hrefused e hok hname h1 h2).mpr hbad⟩
  . rintro ⟨e, hentry, hbad⟩
    have hok := blockOk_of_parseTriplet hentry
    obtain ⟨e', hentry', hname, h1, h2⟩ := @parseTriplet_of_blockOk sha256 isupper line1 line2 name hok
    rw [hentry] at hentry'
    cases hentry'
    exact ⟨hok, (hrefused e hok hname h1 h2).mp hbad⟩

def WellFormed (sha256 : List Char → List Char) (isupper : Char → Bool) (t : Triplet) : Prop :=
  ∃ e, parseTriplet (methods sha256 isupper) t = some (.entry e) ∧ e.toTLE.refused = false

theorem isLineBoundary_of_any {line : List Char} (h : line.any isLineBoundary = false)
    : ∀ c ∈ line, isLineBoundary c = false := by
  simpa using h

theorem splitlines_go_append {line rest : List Char} (h : ∀ c ∈ line, isLineBoundary c = false)
    (before : List Char)
    : splitlines.go before (line ++ '\n' :: rest) = (before.reverse ++ line) :: splitlines.go [] rest := by
  induction line generalizing before with
  | nil => simp [splitlines.go, isLineBoundary]
  | cons c line ih =>
    obtain ⟨hc, hline⟩ := List.forall_mem_cons.mp h
    have hcr : c ≠ '\r' := by
      rintro rfl
      exact absurd hc (by decide)
    rw [List.cons_append, splitlines.go.eq_3]
    . rw [hc]
      simp only [Bool.false_eq_true, if_false]
      rw [ih hline]
      simp
    . intro _ heq
      exact absurd heq hcr

theorem splitlines_block (hname : ∀ c ∈ name, isLineBoundary c = false)
    (h1 : ∀ c ∈ line1, isLineBoundary c = false) (h2 : ∀ c ∈ line2, isLineBoundary c = false)
    : splitlines (name ++ '\n' :: (line1 ++ '\n' :: (line2 ++ '\n' :: []))) = [name, line1, line2] := by
  unfold splitlines
  rw [splitlines_go_append hname, splitlines_go_append h1, splitlines_go_append h2]
  rfl

theorem parseAndStore_block_refused {e : Entry}
    (hname : ∀ c ∈ name, isLineBoundary c = false) (h1 : ∀ c ∈ line1, isLineBoundary c = false)
    (h2 : ∀ c ∈ line2, isLineBoundary c = false)
    (hentry : parseTriplet (methods sha256 isupper) (strip name, strip line1, strip line2)
      = some (.entry e))
    (hrefused : e.toTLE.refused)
    : parseAndStore TLE.refused (methods sha256 isupper) []
          (name ++ '\n' :: (line1 ++ '\n' :: (line2 ++ '\n' :: [])))
        =
      .error [] := by
  have hstep : step TLE.refused (methods sha256 isupper) (prefetch [])
        (strip name, strip line1, strip line2)
      = some (store (prefetch []) e) := by
    unfold step
    rw [hentry]
    rfl
  have hflush : flushBatch TLE.refused (store (prefetch []) e) = none := by
    unfold flushBatch
    apply if_pos
    apply Or.inl
    have hadded : (store (prefetch []) e).added = [e.toTLE] := rfl
    rw [hadded]
    simpa using hrefused
  unfold parseAndStore
  rw [splitlines_block hname h1 h2]
  simp only [triplets, loop, hstep, hflush]
  rfl

/--
What is asked of a block of three lines: the validator takes it or refuses it, and if it is not a
well-formed TLE, the rows are those of the feed without it, in whatever feed and table.
-/
def CannotAbort (sha256 : List Char → List Char) (isupper : Char → Bool) (name line1 line2 : List Char)
    : Prop :=
  (∃ ok, (methods sha256 isupper).validatePair (strip name) (strip line1) (strip line2) = some ok)
    ∧
  ∀ db text text' before after, 3 ∣ before.length
    → splitlines text = before ++ after
    → splitlines text' = before ++ name :: line1 :: line2 :: after
    → ¬ WellFormed sha256 isupper (strip name, strip line1, strip line2)
    → OneMore (parseAndStore TLE.refused (methods sha256 isupper) db text)
        (parseAndStore TLE.refused (methods sha256 isupper) db text')

/--
A block cannot abort the ingestion if and only if it has no stray digit where one is read, and is not
accepted with a text that the database refuses.
-/
theorem corrupt_block_iff (sha256 : List Char → List Char) (isupper : Char → Bool)
    (name line1 line2 : List Char) (hname : ∀ c ∈ name, isLineBoundary c = false)
    (h1 : ∀ c ∈ line1, isLineBoundary c = false) (h2 : ∀ c ∈ line2, isLineBoundary c = false)
    : CannotAbort sha256 isupper name line1 line2
        ↔
      ¬ BlockRaises isupper (strip line1) (strip line2)
        ∧ ¬ BlockRefused isupper (strip name) (strip line1) (strip line2) := by
  rw [← @validatePair_strip_eq_none isupper (strip name),
    @blockRefused_iff sha256 isupper (strip name) line1 line2]
  constructor
  . rintro ⟨⟨ok, hok⟩, hfeeds⟩
    constructor
    . intro hnone
      simp [methods, hnone] at hok
    . rintro ⟨e, hentry, hrefused⟩
      have hill : ¬ WellFormed sha256 isupper (strip name, strip line1, strip line2) := by
        rintro ⟨e', hentry', hstored⟩
        rw [hentry] at hentry'
        cases hentry'
        rw [hrefused] at hstored
        cases hstored
      have hone := hfeeds [] [] _ [] [] (Nat.dvd_zero 3) rfl (splitlines_block hname h1 h2) hill
      rw [parseAndStore_block_refused hname h1 h2 hentry hrefused] at hone
      exact hone
  . rintro ⟨hraises, hrefused⟩
    obtain ⟨err, herr⟩ := Option.ne_none_iff_exists'.mp hraises
    refine ⟨⟨err.isNone, by simp [methods, herr]⟩, ?_⟩
    intro db text text' before after hdvd htext htext' hill
    apply oneMore_of_parseTriplet hdvd htext htext'
    match hparsed : parseTriplet (methods sha256 isupper) (strip name, strip line1, strip line2) with
    | none =>
      rw [parseTriplet_strip_eq_none, ← @validatePair_strip_eq_none isupper (strip name)] at hparsed
      exact absurd hparsed hraises
    | some .blank => exact .inl rfl
    | some .invalid => exact .inr rfl
    | some (.entry e) =>
      cases hstored : e.toTLE.refused with
      | true => exact absurd ⟨e, hparsed, hstored⟩ hrefused
      | false => exact absurd ⟨e, hparsed, hstored⟩ hill

def issSha256 (s : List Char) : List Char :=
  if s = issDay1 ++ '\n' :: issLine2 then issHash1 else issHash2

theorem corrupt_block_iff_iss
    : CannotAbort issSha256 Char.isUpper issName issDay2 issName
        ↔
      ¬ BlockRaises Char.isUpper (strip issDay2) (strip issName)
        ∧ ¬ BlockRefused Char.isUpper (strip issName) (strip issDay2) (strip issName) := by
  apply corrupt_block_iff
  . exact isLineBoundary_of_any (by decide +kernel)
  . exact isLineBoundary_of_any (by decide +kernel)
  . exact isLineBoundary_of_any (by decide +kernel)

/-- `int` does not take the superscript two that `str.isdigit` takes. -/
theorem superscript_aborts
    : ¬ ∀ (sha256 : List Char → List Char) (isupper : Char → Bool) (name line1 line2 : List Char),
        (∀ line ∈ [name, line1, line2], ∀ c ∈ line, isLineBoundary c = false)
          → CannotAbort sha256 isupper name line1 line2 := by
  intro h
  let line1 := "1 2554²U 98067A   24001.50000000  .00016717  00000-0  10270-3 0  9009".toList
  have hlines : ∀ line ∈ [issName, line1, issLine2], line.any isLineBoundary = false := by
    decide +kernel
  obtain ⟨⟨ok, hok⟩, _⟩ := h issSha256 Char.isUpper issName line1 issLine2
    (fun line hline => isLineBoundary_of_any (hlines line hline))
  have hnone : (methods issSha256 Char.isUpper).validatePair (strip issName) (strip line1)
      (strip issLine2) = none := by
    decide +kernel
  rw [hnone] at hok
  cases hok

end validator

end TLEFetcher
end SdaSystem
