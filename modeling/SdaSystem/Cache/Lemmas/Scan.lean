import Mathlib.Data.List.Nodup
import Mathlib.Data.List.Perm.Subperm
import SdaSystem.Cache.Impl.Scan
import SdaSystem.Cache.Lemmas.TleCache

open Gregorian
open Runs

namespace SdaSystem
namespace RedisCache

open PyNumber (str zeroPad zeroPad_inj length_zeroPad)

/-- What Redis makes of a pattern that is a text without special characters and a star after it. -/
def MatchesPrefix (globMatch : List Char → List Char → Bool) : Prop :=
  ∀ text key : List Char, (∀ c ∈ text, c ∉ ['*', '?', '[', '\\']) →
    (globMatch (text ++ ['*']) key = true ↔ text <+: key)

section

variable {V : Type}

/--
An iteration that has reached `cursor`: the first `SCAN` is given zero, and each other one the cursor of
the reply before it, which is not zero.
-/
inductive Iteration : List (Nat × Nat) → Nat → Prop where
  | first (cursor : Nat) : Iteration [(0, cursor)] cursor
  | next {cursors : List (Nat × Nat)} {asked : Nat} (h : Iteration cursors asked) (hasked : asked ≠ 0)
      (cursor : Nat) : Iteration (cursors ++ [(asked, cursor)]) cursor

def ScanEvent.cursors (e : ScanEvent V) : List (Nat × Nat) :=
  match e with
  | .page asked cursor _ => [(asked, cursor)]
  | _ => []

/--
What Redis says of the pages: they have keys of the pattern only, and those of a full iteration, which
ends with zero, have all keys that are there from its start to its end.
-/
structure ScanGuarantee (matches? : List Char → Bool) (s : ScanState V) (events : List (ScanEvent V))
    (t : ScanState V) : Prop where
  sound : ∀ asked cursor keys, .page asked cursor keys ∈ events → ∀ key ∈ keys, matches? key = true
  complete : Iteration (events.flatMap (·.cursors)) 0 → ∀ key, matches? key = true →
    (∀ before after, events = before ++ after → ∃ u, Run ScanStep s before u ∧ Run ScanStep u after t
      ∧ u.store key ≠ none) →
    ∃ asked cursor keys, .page asked cursor keys ∈ events ∧ key ∈ keys

/-- The store as it is without the deletions of the scan. -/
def others (events : List (ScanEvent V)) (store : List Char → Option V) : List Char → Option V :=
  events.foldl
    (fun store e =>
      match e with
      | .set key value => Function.update store key (some value)
      | .forget key => Function.update store key none
      | _ => store)
    store

def ScanEvent.Touches (key : List Char) (e : ScanEvent V) : Prop :=
  e = .forget key ∨ ∃ value, e = .set key value

inductive ScanOutcome (s : ScanState V) : ScanEvent V → ScanState V → Prop where
  | pageEmpty {asked cursor : Nat} (hphase : s.phase = .scanning asked)
      : ScanOutcome s (.page asked cursor []) { s with phase := .ofCursor cursor }
  | page {asked cursor : Nat} {keys : List (List Char)} (hphase : s.phase = .scanning asked)
      : ScanOutcome s (.page asked cursor keys) { s with phase := .deleting keys cursor }
  | delete {cursor : Nat} {keys : List (List Char)} (hphase : s.phase = .deleting keys cursor)
      : ScanOutcome s .delete {
          store := deleteKeys keys s.store
          phase := .ofCursor cursor
          deleted := s.deleted + keys.length }
  | deleteLost {cursor : Nat} {keys : List (List Char)} (hphase : s.phase = .deleting keys cursor)
      : ScanOutcome s .deleteLost { s with store := deleteKeys keys s.store }
  | fail : ScanOutcome s .fail { s with phase := .failed }
  | set {key : List Char} {value : V}
      : ScanOutcome s (.set key value) { s with store := Function.update s.store key (some value) }
  | forget {key : List Char}
      : ScanOutcome s (.forget key) { s with store := Function.update s.store key none }

variable {s t : ScanState V} {e : ScanEvent V} {events : List (ScanEvent V)} {key : List Char}
  {matches? : List Char → Bool}

theorem ScanStep.outcome (h : ScanStep s e t) : ScanOutcome s e t := by
  unfold ScanStep scanNext at h
  cases e with
  | page asked cursor keys =>
    dsimp only at h
    split at h
    . next hphase =>
      split at h
      . next hempty =>
        cases h
        subst hempty
        apply ScanOutcome.pageEmpty hphase
      . cases h
        apply ScanOutcome.page hphase
    . cases h
  | delete =>
    dsimp only at h
    split at h
    . next keys cursor hphase =>
      cases h
      apply ScanOutcome.delete hphase
    . cases h
  | deleteLost =>
    dsimp only at h
    split at h
    . next keys cursor hphase =>
      cases h
      apply ScanOutcome.deleteLost hphase
    . cases h
  | fail =>
    dsimp only at h
    split at h
    . cases h
      apply ScanOutcome.fail
    . cases h
      apply ScanOutcome.fail
    . cases h
  | set key value =>
    cases h
    apply ScanOutcome.set
  | forget key =>
    cases h
    apply ScanOutcome.forget

@[simp]
theorem deleteKeys_of_mem {keys : List (List Char)} (h : key ∈ keys) (store : List Char → Option V)
    : deleteKeys keys store key = none := by
  simp [deleteKeys, h]

@[simp]
theorem deleteKeys_of_not_mem {keys : List (List Char)} (h : key ∉ keys)
    (store : List Char → Option V) : deleteKeys keys store key = store key := by
  simp [deleteKeys, h]

theorem deleteKeys_eq_none {store : List Char → Option V} (keys : List (List Char))
    (h : store key = none) : deleteKeys keys store key = none := by
  simp [deleteKeys, h]

@[simp]
theorem ScanPhase.ofCursor_ne_deleting (cursor cursor' : Nat) (keys : List (List Char))
    : ScanPhase.ofCursor cursor ≠ .deleting keys cursor' := by
  unfold ofCursor
  split <;> simp

theorem update_eq_none {store : List Char → Option V} {key' : List Char} {value : Option V}
    (h : store key = none) (hvalue : key' = key → value = none)
    : Function.update store key' value key = none := by
  by_cases heq : key' = key
  . subst heq
    rw [Function.update_self, hvalue rfl]
  . rw [Function.update_of_ne (Ne.symm heq), h]

theorem ScanStep.store_eq_none (h : ScanStep s e t) (hset : ∀ value, e ≠ .set key value)
    (hnone : s.store key = none) : t.store key = none := by
  cases h.outcome with
  | pageEmpty => exact hnone
  | page => exact hnone
  | delete => apply deleteKeys_eq_none _ hnone
  | deleteLost => apply deleteKeys_eq_none _ hnone
  | fail => exact hnone
  | @set key' value =>
    apply update_eq_none hnone
    rintro rfl
    exact absurd rfl (hset value)
  | forget => apply update_eq_none hnone fun _ => rfl

theorem store_ne_none_of_run (hrun : Run ScanStep s events t) (hset : ∀ value, .set key value ∉ events)
    (hkey : t.store key ≠ none) {before after : List (ScanEvent V)} (hsplit : events = before ++ after)
    : ∃ u, Run ScanStep s before u ∧ Run ScanStep u after t ∧ u.store key ≠ none := by
  subst hsplit
  obtain ⟨u, hbefore, hafter⟩ := hrun.unappend
  refine ⟨u, hbefore, hafter, ?_⟩
  intro hnone
  apply hkey
  have hquiet : ∀ e ∈ after, ∀ value, e ≠ .set key value := by
    rintro e he value rfl
    apply hset value (List.mem_append_right before he)
  apply (hafter.restrict_of_forall hquiet).invariant _ hnone
  intro s e t hs hstep
  apply hstep.right.store_eq_none hstep.left hs

/-- A key that a page has returned is gone when the scan is over, unless it is set again. -/
def Doomed (key : List Char) (s : ScanState V) : Prop :=
  s.store key = none ∨ (∃ keys cursor, s.phase = .deleting keys cursor ∧ key ∈ keys) ∨ s.phase = .failed

theorem Doomed.step (h : Doomed key s) (hstep : ScanStep s e t) (hset : ∀ value, e ≠ .set key value)
    : Doomed key t := by
  rcases h with hnone | ⟨keys, cursor, hphase, hkey⟩ | hfailed
  . apply Or.inl (hstep.store_eq_none hset hnone)
  . cases hstep.outcome with
    | pageEmpty hphase' =>
      rw [hphase'] at hphase
      cases hphase
    | page hphase' =>
      rw [hphase'] at hphase
      cases hphase
    | delete hphase' =>
      rw [hphase', ScanPhase.deleting.injEq] at hphase
      apply Or.inl
      simp [hphase.left, hkey]
    | deleteLost => exact .inr (.inl ⟨keys, cursor, hphase, hkey⟩)
    | fail => exact .inr (.inr rfl)
    | set => exact .inr (.inl ⟨keys, cursor, hphase, hkey⟩)
    | forget => exact .inr (.inl ⟨keys, cursor, hphase, hkey⟩)
  . cases hstep.outcome with
    | pageEmpty hphase =>
      rw [hphase] at hfailed
      cases hfailed
    | page hphase =>
      rw [hphase] at hfailed
      cases hfailed
    | delete hphase =>
      rw [hphase] at hfailed
      cases hfailed
    | deleteLost hphase =>
      rw [hphase] at hfailed
      cases hfailed
    | fail => exact .inr (.inr rfl)
    | set => exact .inr (.inr hfailed)
    | forget => exact .inr (.inr hfailed)

theorem ScanStep.doomed {asked cursor : Nat} {keys : List (List Char)}
    (h : ScanStep s (.page asked cursor keys) t) (hkey : key ∈ keys) : Doomed key t := by
  cases h.outcome with
  | pageEmpty => cases hkey
  | page => exact .inr (.inl ⟨keys, cursor, rfl, hkey⟩)

theorem store_eq_none_of_page (hrun : Run ScanStep s events t) (hdone : t.phase = .finished)
    (hset : ∀ value, .set key value ∉ events) {asked cursor : Nat} {keys : List (List Char)}
    (hpage : .page asked cursor keys ∈ events) (hkey : key ∈ keys) : t.store key = none := by
  obtain ⟨before, after, rfl⟩ := List.append_of_mem hpage
  obtain ⟨u, u', _, hstep, hafter⟩ := hrun.split
  have hquiet : ∀ e ∈ after, ∀ value, e ≠ .set key value := by
    rintro e he value rfl
    apply hset value
    simp [he]
  have hdoomed : Doomed key t := by
    apply (hafter.restrict_of_forall hquiet).invariant _ (hstep.doomed hkey)
    intro s e t hs hstep
    apply hs.step hstep.right hstep.left
  rcases hdoomed with hnone | ⟨keys, cursor, hphase, _⟩ | hfailed
  . exact hnone
  . rw [hdone] at hphase
    cases hphase
  . rw [hdone] at hfailed
    cases hfailed

theorem iteration_of_run (hrun : Run ScanStep s events t) (hstart : s.phase = .scanning 0)
    (hdone : t.phase = .finished) : Iteration (events.flatMap (·.cursors)) 0 := by
  let reached (events : List (ScanEvent V)) (t : ScanState V) : Prop :=
    (t.phase = .scanning 0 ∧ events.flatMap (·.cursors) = [])
      ∨ (∃ cursor, Iteration (events.flatMap (·.cursors)) cursor
          ∧ (t.phase = .ofCursor cursor ∨ ∃ keys, t.phase = .deleting keys cursor))
      ∨ t.phase = .failed
  have hreached : reached events t := by
    refine @Run.invariant_events _ _ ScanStep (fun _ => True) reached ?_ s t [] events hrun
      (fun _ _ => trivial) (.inl ⟨hstart, rfl⟩)
    intro before s e t _ hs hstep
    have hpage : ∀ {asked}, s.phase = .scanning asked → ∀ cursor,
        Iteration (before.flatMap (·.cursors) ++ [(asked, cursor)]) cursor := by
      intro asked hphase cursor
      rcases hs with ⟨hfirst, hnone⟩ | ⟨cursor', hiter, hphase' | ⟨keys, hphase'⟩⟩ | hfailed
      . rw [hphase, ScanPhase.scanning.injEq] at hfirst
        rw [hnone, hfirst]
        apply Iteration.first
      . rw [hphase] at hphase'
        unfold ScanPhase.ofCursor at hphase'
        split at hphase'
        . cases hphase'
        . next hcursor =>
          cases hphase'
          apply hiter.next hcursor
      . rw [hphase] at hphase'
        cases hphase'
      . rw [hphase] at hfailed
        cases hfailed
    unfold reached at hs ⊢
    rw [List.flatMap_append]
    cases hstep.outcome with
    | pageEmpty hphase => exact .inr (.inl ⟨_, hpage hphase _, .inl rfl⟩)
    | page hphase => exact .inr (.inl ⟨_, hpage hphase _, .inr ⟨_, rfl⟩⟩)
    | delete hphase =>
      simp only [hphase, reduceCtorEq, false_and, false_or, or_false] at hs
      obtain ⟨cursor', hiter, hphase' | ⟨_, hphase'⟩⟩ := hs
      . exact absurd hphase'.symm (ScanPhase.ofCursor_ne_deleting _ _ _)
      . cases hphase'
        exact .inr (.inl ⟨_, by simpa [ScanEvent.cursors] using hiter, .inl rfl⟩)
    | deleteLost => simpa [ScanEvent.cursors] using hs
    | fail => exact .inr (.inr rfl)
    | set => simpa [ScanEvent.cursors] using hs
    | forget => simpa [ScanEvent.cursors] using hs
  rcases hreached with ⟨hphase, _⟩ | ⟨cursor, hiter, hphase | ⟨keys, hphase⟩⟩ | hphase
  . rw [hdone] at hphase
    cases hphase
  . rw [hdone] at hphase
    unfold ScanPhase.ofCursor at hphase
    split at hphase
    . next hcursor =>
      rw [hcursor] at hiter
      apply hiter
    . cases hphase
  . rw [hdone] at hphase
    cases hphase
  . rw [hdone] at hphase
    cases hphase

theorem store_eq_none_or_set (hrun : Run ScanStep s events t) (hstart : s.phase = .scanning 0)
    (hdone : t.phase = .finished) (hscan : ScanGuarantee matches? s events t) (hkey : matches? key = true)
    : t.store key = none ∨ ∃ value, .set key value ∈ events := by
  by_contra hleft
  rw [not_or, not_exists] at hleft
  obtain ⟨hthere, hset⟩ := hleft
  have hiter := iteration_of_run hrun hstart hdone
  obtain ⟨asked, cursor, keys, hpage, hmem⟩ := hscan.complete hiter key hkey fun before after hsplit =>
    store_ne_none_of_run hrun hset hthere hsplit
  exact hthere (store_eq_none_of_page hrun hdone hset hpage hmem)

theorem others_concat (events : List (ScanEvent V)) (e : ScanEvent V) (store : List Char → Option V)
    : others (events ++ [e]) store = others [e] (others events store) := by
  unfold others
  rw [List.foldl_append]

/-- Nothing but what the others do has happened to `key`, and the scan is not about to delete it. -/
structure Untouched (key : List Char) (s : ScanState V) (events : List (ScanEvent V)) (t : ScanState V)
    : Prop where
  store : t.store key = others events s.store key
  spared : ∀ keys cursor, t.phase = .deleting keys cursor → key ∉ keys

theorem Untouched.step {u : ScanState V} (h : Untouched key s events t) (hstep : ScanStep t e u)
    (hpage : ∀ asked cursor keys, e = .page asked cursor keys → key ∉ keys)
    : Untouched key s (events ++ [e]) u := by
  have hstore := h.store
  constructor
  case store =>
    rw [others_concat]
    cases hstep.outcome with
    | pageEmpty => exact hstore
    | page => exact hstore
    | @delete cursor keys hphase =>
      exact (deleteKeys_of_not_mem (h.spared keys cursor hphase) _).trans hstore
    | @deleteLost cursor keys hphase =>
      exact (deleteKeys_of_not_mem (h.spared keys cursor hphase) _).trans hstore
    | fail => exact hstore
    | set => simp [others, Function.update_apply, hstore]
    | forget => simp [others, Function.update_apply, hstore]
  case spared =>
    intro keys cursor hphase
    cases hstep.outcome with
    | pageEmpty => exact absurd hphase (ScanPhase.ofCursor_ne_deleting _ _ _)
    | page =>
      cases hphase
      apply hpage _ _ _ rfl
    | delete => exact absurd hphase (ScanPhase.ofCursor_ne_deleting _ _ _)
    | deleteLost => exact h.spared keys cursor hphase
    | fail => cases hphase
    | set => exact h.spared keys cursor hphase
    | forget => exact h.spared keys cursor hphase

theorem untouched_of_run (hrun : Run ScanStep s events t)
    (hstart : ∀ keys cursor, s.phase ≠ .deleting keys cursor)
    (hpage : ∀ asked cursor keys, .page asked cursor keys ∈ events → key ∉ keys)
    : Untouched key s events t := by
  refine @Run.invariant_events _ _ ScanStep
    (fun e => ∀ asked cursor keys, e = .page asked cursor keys → key ∉ keys) (Untouched key s) ?_ s t [] events hrun ?_ ?_
  . intro before s e t hallowed hs hstep
    apply hs.step hstep hallowed
  . rintro e he asked cursor keys rfl
    apply hpage asked cursor keys he
  . exact ⟨rfl, fun keys cursor hphase => absurd hphase (hstart keys cursor)⟩

theorem others_eq_self {events : List (ScanEvent V)} {store : List Char → Option V}
    (h : ∀ e ∈ events, ¬ e.Touches key) : others events store key = store key := by
  induction events generalizing store with
  | nil => rfl
  | cons e events ih =>
    obtain ⟨he, hrest⟩ := List.forall_mem_cons.mp h
    have hcons : others (e :: events) store = others events (others [e] store) := rfl
    rw [hcons, ih hrest]
    cases e with
    | set key' value =>
      apply Function.update_of_ne
      rintro rfl
      exact he (.inr ⟨value, rfl⟩)
    | forget key' =>
      apply Function.update_of_ne
      rintro rfl
      exact he (.inl rfl)
    | _ => rfl

def ScanEvent.keys (e : ScanEvent V) : List (List Char) :=
  match e with
  | .page _ _ keys => keys
  | _ => []

def ScanPhase.pending (phase : ScanPhase) : List (List Char) :=
  match phase with
  | .deleting keys _ => keys
  | _ => []

theorem deleted_of_run (hrun : Run ScanStep s events t) (hstart : s.phase = .scanning 0)
    (hzero : s.deleted = 0)
    : t.phase = .failed ∨ t.deleted + t.phase.pending.length = (events.flatMap (·.keys)).length := by
  refine @Run.invariant_events _ _ ScanStep (fun _ => True)
    (fun events t => t.phase = .failed
      ∨ t.deleted + t.phase.pending.length = (events.flatMap (·.keys)).length) ?_ s t [] events hrun
    ?_ ?_
  . intro before s e t _ hs hstep
    rw [List.flatMap_append, List.length_append]
    cases hstep.outcome with
    | pageEmpty hphase =>
      simp only [hphase, reduceCtorEq, false_or] at hs
      apply Or.inr
      simpa [ScanPhase.pending, ScanEvent.keys] using hs
    | page hphase =>
      simp only [hphase, reduceCtorEq, false_or] at hs
      apply Or.inr
      simpa [ScanPhase.pending, ScanEvent.keys] using hs
    | delete hphase =>
      simp only [hphase, reduceCtorEq, false_or] at hs
      apply Or.inr
      simpa [ScanPhase.pending, ScanEvent.keys] using hs
    | deleteLost => simpa [ScanEvent.keys] using hs
    | fail => exact .inl rfl
    | set => simpa [ScanEvent.keys] using hs
    | forget => simpa [ScanEvent.keys] using hs
  . intro _ _
    trivial
  . apply Or.inr
    simp [hstart, hzero, ScanPhase.pending]

theorem length_le_deleted (hrun : Run ScanStep s events t) (hstart : s.phase = .scanning 0)
    (hzero : s.deleted = 0) (hdone : t.phase = .finished) (hscan : ScanGuarantee matches? s events t)
    {keys : List (List Char)} (hnodup : keys.Nodup)
    (hkeys : ∀ key ∈ keys, matches? key = true ∧ s.store key ≠ none ∧ ∀ e ∈ events, ¬ e.Touches key)
    : keys.length ≤ t.deleted := by
  have hcount := deleted_of_run hrun hstart hzero
  simp only [hdone, ScanPhase.pending, reduceCtorEq, false_or, List.length_nil, Nat.add_zero] at hcount
  rw [hcount]
  apply (hnodup.subperm _).length_le
  intro key hkey
  obtain ⟨hmatches, hthere, htouches⟩ := hkeys key hkey
  by_contra hpages
  rw [List.mem_flatMap] at hpages
  have hpage : ∀ asked cursor keys, .page asked cursor keys ∈ events → key ∉ keys := by
    intro asked cursor keys hpage hmem
    apply hpages ⟨_, hpage, hmem⟩
  have hleft : t.store key ≠ none := by
    rw [(untouched_of_run hrun (by simp [hstart]) hpage).store, others_eq_self htouches]
    exact hthere
  have hiter := iteration_of_run hrun hstart hdone
  obtain ⟨asked, cursor, page, hmem, hin⟩ := hscan.complete hiter key hmatches
    fun before after hsplit => by
      apply store_ne_none_of_run hrun _ hleft hsplit
      intro value hset
      exact htouches _ hset (.inr ⟨value, rfl⟩)
  exact hpage asked cursor page hmem hin

end

section

variable {keyPrefix stationId stationId' : List Char} {date date' : Date}

theorem length_isoformat (date : Date) : (isoformat date).length = 10 := by
  simp [isoformat, length_zeroPad]

theorem colon_not_mem_zeroPad (width n : Nat) : ':' ∉ zeroPad width n := by
  have hdigit : ∀ d < 10, Nat.digitChar d ≠ ':' := by decide
  induction width generalizing n with
  | zero => simp [zeroPad]
  | succ width ih =>
    rw [zeroPad, List.mem_append, List.mem_singleton, not_or]
    exact ⟨ih (n / 10), (hdigit (n % 10) (Nat.mod_lt n (by decide))).symm⟩

theorem colon_not_mem_isoformat (date : Date) : ':' ∉ isoformat date := by
  simp [isoformat, colon_not_mem_zeroPad]

theorem isoformat_inj (hyear : date.year ≤ 9999) (hyear' : date'.year ≤ 9999)
    (h : isoformat date = isoformat date') : date = date' := by
  unfold isoformat at h
  obtain ⟨hy, h⟩ := zeroPad_append_inj h
  obtain ⟨hm, h⟩ := zeroPad_append_inj (List.cons_inj_right _ |>.mp h)
  have hd := List.cons_inj_right _ |>.mp h
  have hmonth : ∀ d : Date, d.month < 100 := fun d => by
    have := d.monthLe
    omega
  have hday : ∀ d : Date, d.day < 100 := fun d => by
    have := d.dayLe
    have := daysInMonth_le d.year d.month
    omega
  rw [Date.ext_iff_fields]
  exact ⟨zeroPad_inj (by omega) (by omega) hy, two_digits (hmonth date) (hmonth date') hm,
    two_digits (hday date) (hday date') hd⟩

theorem passKey_inj (hyear : date.year ≤ 9999) (hyear' : date'.year ≤ 9999)
    (h : passKey keyPrefix stationId date = passKey keyPrefix stationId' date')
    : stationId = stationId' ∧ date = date' := by
  have h' : stationId ++ ':' :: isoformat date = stationId' ++ ':' :: isoformat date' := by
    simpa [passKey, key] using h
  obtain ⟨hstation, hdate⟩ := List.append_inj' h' (by simp [length_isoformat])
  refine ⟨hstation, isoformat_inj hyear hyear' ?_⟩
  simpa using hdate

def Literal (text : List Char) : Prop :=
  ∀ c ∈ text, c ∉ ['*', '?', '[', '\\']

instance (text : List Char) : Decidable (Literal text) :=
  List.decidableBAll _ text

theorem Literal.append {s t : List Char} (hs : Literal s) (ht : Literal t) : Literal (s ++ t) := by
  intro c hc
  rcases List.mem_append.mp hc with hc | hc
  . apply hs c hc
  . apply ht c hc

def passesText (keyPrefix : List Char) : List Char :=
  key keyPrefix [passes] ++ [':']

def stationText (keyPrefix stationId : List Char) : List Char :=
  key keyPrefix [passes, stationId] ++ [':']

theorem allPattern_eq : allPattern keyPrefix = passesText keyPrefix ++ ['*'] := by
  simp [allPattern, passesText, key]

theorem stationPattern_eq
    : stationPattern keyPrefix stationId = stationText keyPrefix stationId ++ ['*'] := by
  simp [stationPattern, stationText, key]

theorem stationText_eq
    : stationText keyPrefix stationId = passesText keyPrefix ++ (stationId ++ [':']) := by
  simp [stationText, passesText, key]

theorem Literal.passesText (hliteral : Literal keyPrefix) : Literal (passesText keyPrefix) := by
  have hpasses : Literal (':' :: (passes ++ [':'])) := by decide
  have heq : RedisCache.passesText keyPrefix = keyPrefix ++ ':' :: (passes ++ [':']) := by
    simp [RedisCache.passesText, key]
  rw [heq]
  apply hliteral.append hpasses

theorem Literal.stationText (hliteral : Literal keyPrefix) (hstation : Literal stationId)
    : Literal (stationText keyPrefix stationId) := by
  rw [stationText_eq]
  apply hliteral.passesText.append (hstation.append (by decide))

theorem append_colon_prefix_iff
    : stationId ++ [':'] <+: stationId' ++ ':' :: isoformat date
        ↔
      stationId' = stationId ∨ stationId ++ [':'] <+: stationId' := by
  constructor
  . rintro ⟨rest, heq⟩
    rcases List.append_eq_append_iff.mp heq with ⟨mid, hstation', _⟩ | ⟨mid, hstation, hdate⟩
    . apply Or.inr ⟨mid, hstation'.symm⟩
    . cases mid with
      | nil =>
        rw [List.append_nil] at hstation
        exact .inr (hstation ▸ List.prefix_rfl)
      | cons c mid =>
        rw [List.cons_append, List.cons.injEq] at hdate
        obtain ⟨rfl, hdate⟩ := hdate
        -- the colon at the end of `mid` would be in the date
        rcases List.eq_nil_or_concat mid with rfl | ⟨init, last, rfl⟩
        . apply Or.inl
          exact (List.append_inj_left' hstation rfl).symm
        . have hsplit : stationId ++ [':'] = (stationId' ++ ':' :: init) ++ [last] := by
            rw [hstation]
            simp
          have hlast := List.append_inj_right' hsplit rfl
          apply absurd _ (colon_not_mem_isoformat date)
          rw [hdate, List.cons.inj hlast |>.left]
          simp
  . rintro (rfl | hstation)
    . exact ⟨isoformat date, by simp⟩
    . apply hstation.trans (List.prefix_append _ _)

theorem passKey_eq
    : passKey keyPrefix stationId date
      = passesText keyPrefix ++ (stationId ++ ':' :: isoformat date) := by
  simp [passKey, passesText, key]

theorem passesText_prefix_passKey : passesText keyPrefix <+: passKey keyPrefix stationId date := by
  rw [passKey_eq]
  apply List.prefix_append

theorem stationText_prefix_passKey_iff
    : stationText keyPrefix stationId <+: passKey keyPrefix stationId' date
        ↔
      stationId' = stationId ∨ stationId ++ [':'] <+: stationId' := by
  rw [stationText_eq, passKey_eq, List.prefix_append_right_inj, append_colon_prefix_iff]

theorem not_passesText_prefix_tleKey {noradId : Int} {epoch : Epoch}
    : ¬ passesText keyPrefix <+: tleKey keyPrefix noradId epoch := by
  have htext : passesText keyPrefix = keyPrefix ++ ':' :: (passes ++ [':']) := by
    simp [passesText, key]
  have hkey : tleKey keyPrefix noradId epoch
      = keyPrefix ++ ':' :: ('t' :: 'l' :: 'e' :: ':' :: (str noradId ++ ':' :: epoch.strftime)) := by
    simp [tleKey, key]
  rw [htext, hkey, List.prefix_append_right_inj, List.cons_prefix_cons]
  simp [passes]

theorem not_stationText_prefix_tleKey {noradId : Int} {epoch : Epoch}
    : ¬ stationText keyPrefix stationId <+: tleKey keyPrefix noradId epoch := by
  rw [stationText_eq]
  intro h
  apply not_passesText_prefix_tleKey ((List.prefix_append _ _).trans h)

theorem stationPattern_matches_iff {globMatch : List Char → List Char → Bool}
    (hglob : MatchesPrefix globMatch) (hliteral : Literal keyPrefix) (hstation : Literal stationId)
    (text : List Char)
    : globMatch (stationPattern keyPrefix stationId) text = true
        ↔
      stationText keyPrefix stationId <+: text := by
  rw [stationPattern_eq]
  apply hglob _ _ (hliteral.stationText hstation)

theorem allPattern_matches_iff {globMatch : List Char → List Char → Bool}
    (hglob : MatchesPrefix globMatch) (hliteral : Literal keyPrefix) (text : List Char)
    : globMatch (allPattern keyPrefix) text = true ↔ passesText keyPrefix <+: text := by
  rw [allPattern_eq]
  apply hglob _ _ hliteral.passesText

theorem store_eq_others {V : Type} {s t : ScanState V} {events : List (ScanEvent V)}
    {matches? : List Char → Bool} (hrun : Run ScanStep s events t) (hstart : s.phase = .scanning 0)
    (hscan : ScanGuarantee matches? s events t) {text : List Char} (htext : ¬ matches? text = true)
    : t.store text = others events s.store text := by
  apply (untouched_of_run hrun (by simp [hstart]) _).store
  intro asked cursor keys hpage hmem
  exact htext (hscan.sound asked cursor keys hpage text hmem)

/--
After `invalidate_station_passes` an entry of the station is there only if it was set meanwhile, the
entries of the other stations and of the TLEs are as the others have left them, and the result counts at
least the entries that nobody else has touched. A station whose id begins with this one and a colon is
no other one.
-/
theorem invalidateStationPasses_of_run {V : Type} {globMatch : List Char → List Char → Bool}
    {store : List Char → Option V} {events : List (ScanEvent V)} {t : ScanState V}
    (hglob : MatchesPrefix globMatch) (hliteral : Literal keyPrefix) (hstation : Literal stationId)
    (hrun : Run ScanStep { store } events t) (hdone : t.phase = .finished)
    (hscan : ScanGuarantee (globMatch (stationPattern keyPrefix stationId)) { store } events t)
    : (∀ date, t.store (passKey keyPrefix stationId date) = none
        ∨ ∃ value, .set (passKey keyPrefix stationId date) value ∈ events)
      ∧ (∀ stationId' date, stationId' ≠ stationId → ¬ stationId ++ [':'] <+: stationId' →
        t.store (passKey keyPrefix stationId' date)
          = others events store (passKey keyPrefix stationId' date))
      ∧ (∀ noradId epoch, t.store (tleKey keyPrefix noradId epoch)
          = others events store (tleKey keyPrefix noradId epoch))
      ∧ ∀ dates : List Date, dates.Nodup →
        (∀ date ∈ dates, date.year ≤ 9999 ∧ store (passKey keyPrefix stationId date) ≠ none
          ∧ ∀ e ∈ events, ¬ e.Touches (passKey keyPrefix stationId date)) →
        dates.length ≤ t.deleted := by
  have hmatches := stationPattern_matches_iff hglob hliteral hstation
  have hown : ∀ date, globMatch (stationPattern keyPrefix stationId) (passKey keyPrefix stationId date)
      = true := by
    intro date
    rw [hmatches, stationText_prefix_passKey_iff]
    apply Or.inl rfl
  refine ⟨?_, ?_, ?_, ?_⟩
  . intro date
    apply store_eq_none_or_set hrun rfl hdone hscan (hown date)
  . intro stationId' date hne hlonger
    apply store_eq_others hrun rfl hscan
    rw [hmatches, stationText_prefix_passKey_iff, not_or]
    exact ⟨hne, hlonger⟩
  . intro noradId epoch
    apply store_eq_others hrun rfl hscan
    rw [hmatches]
    apply not_stationText_prefix_tleKey
  . intro dates hnodup hdates
    rw [← List.length_map (passKey keyPrefix stationId)]
    apply length_le_deleted hrun rfl rfl hdone hscan
    . apply List.Nodup.map_on _ hnodup
      intro date hdate date' hdate' heq
      exact (passKey_inj (hdates date hdate).left (hdates date' hdate').left heq).right
    . rw [List.forall_mem_map]
      intro date hdate
      exact ⟨hown date, (hdates date hdate).right⟩

/-- After `invalidate_all_passes` no station has an entry that was not set meanwhile. -/
theorem invalidateAllPasses_of_run {V : Type} {globMatch : List Char → List Char → Bool}
    {store : List Char → Option V} {events : List (ScanEvent V)} {t : ScanState V}
    (hglob : MatchesPrefix globMatch) (hliteral : Literal keyPrefix)
    (hrun : Run ScanStep { store } events t) (hdone : t.phase = .finished)
    (hscan : ScanGuarantee (globMatch (allPattern keyPrefix)) { store } events t)
    : (∀ stationId date, t.store (passKey keyPrefix stationId date) = none
        ∨ ∃ value, .set (passKey keyPrefix stationId date) value ∈ events)
      ∧ ∀ noradId epoch, t.store (tleKey keyPrefix noradId epoch)
          = others events store (tleKey keyPrefix noradId epoch) := by
  have hmatches := allPattern_matches_iff hglob hliteral
  constructor
  . intro stationId date
    apply store_eq_none_or_set hrun rfl hdone hscan
    rw [hmatches]
    apply passesText_prefix_passKey
  . intro noradId epoch
    apply store_eq_others hrun rfl hscan
    rw [hmatches]
    apply not_passesText_prefix_tleKey

end

/-- `MATCH` for the patterns in which nothing but a star at the end is special. -/
def starMatch (pattern text : List Char) : Bool :=
  if pattern.getLast? = some '*' then pattern.dropLast.isPrefixOf text else pattern = text

theorem noMicroseconds : 0 < 1000000 := by decide

def midJune : Date :=
  (june 0 noMicroseconds).date

def gs001 : List Char := ['G', 'S', '0', '0', '1']

def oneEntry : ScanState Unit where
  store := Function.update (fun _ => none) (passKey ['s', 'd', 'a'] gs001 midJune) (some ())

def onePage : List (ScanEvent Unit) :=
  [.page 0 0 [passKey ['s', 'd', 'a'] gs001 midJune], .delete]

theorem invalidateStationPasses_of_run_gs001
    : ∃ t, Run ScanStep oneEntry onePage t
        ∧ t.store (passKey ['s', 'd', 'a'] gs001 midJune) = none ∧ 1 ≤ t.deleted := by
  refine ⟨_, .cons rfl (.cons rfl (.nil _)), ?_⟩
  have := @invalidateStationPasses_of_run ['s', 'd', 'a'] gs001 Unit starMatch oneEntry.store onePage _
    ?_ (by decide) (by decide) (.cons rfl (.cons rfl (.nil _))) rfl ?_
  . obtain ⟨hgone, _, _, hcount⟩ := this
    refine ⟨?_, hcount [midJune] (by simp) ?_⟩
    . rcases hgone midJune with hnone | ⟨value, hset⟩
      . exact hnone
      . simp [onePage] at hset
    . simp only [List.forall_mem_singleton]
      refine ⟨by decide, by simp [oneEntry], ?_⟩
      simp [onePage, ScanEvent.Touches]
  . intro text key _
    simp [starMatch]
  . constructor
    . intro asked cursor keys hpage key hkey
      simp only [onePage, List.mem_cons, ScanEvent.page.injEq, List.not_mem_nil, reduceCtorEq,
        or_false] at hpage
      obtain ⟨_, _, rfl⟩ := hpage
      rw [List.mem_singleton] at hkey
      subst hkey
      decide
    . intro _ key _ hthere
      obtain ⟨u, hrun, _, hkey⟩ := hthere [] onePage rfl
      cases hrun
      have heq : key = passKey ['s', 'd', 'a'] gs001 midJune := by
        by_contra hne
        apply hkey
        simp [oneEntry, Function.update_of_ne hne]
      exact ⟨0, 0, _, List.mem_cons_self, by rw [heq]; exact List.mem_cons_self⟩

end RedisCache
end SdaSystem
