import Mathlib.Data.List.Perm.Basic
import SdaSystem.Ingestion.Lemmas.Fetcher
import SdaSystem.Library.Runs

open Runs

namespace SdaSystem
namespace TLEFetcher

/-- The feed as a whole has nothing more to say on the satellites with a new row in `done`. -/
structure Settled (db : List TLE) (done all : List Entry) : Prop where
  -- No further epoch of such a satellite is unknown.
  oneEpoch : ∀ w ∈ newRows db done, ∀ e ∈ all,
    e.noradId = w.noradId → e.key ∉ keys db → e.key = w.key
  -- The blocks for the new epoch end with the content that the first of them has.
  lastWord : ∀ w ∈ newRows db done, all.foldl refresh w = w
  -- What the blocks change in a row that is superseded is committed with the new row.
  supersededDone : ∀ w ∈ newRows db done, ∀ t ∈ db,
    t.isCurrent → t.noradId = w.noradId → done.foldl refresh t = all.foldl refresh t

section ingest

variable {db : List TLE} {done all : List Entry}

theorem newRows_eq_nil {es : List Entry} (h : ∀ e ∈ es, e.key ∈ keys db) : newRows db es = [] := by
  rw [List.eq_nil_iff_forall_not_mem]
  intro w hw
  obtain ⟨e, he, hkey, _⟩ := mem_newRows hw
  apply hkey (h e he)

theorem mem_keys_ingest {k : Int × Int}
    : k ∈ keys (ingest db done) ↔ k ∈ keys db ∨ k ∈ keys (newRows db done) := by
  rw [keys_ingest, List.mem_append]

theorem newRows_ingest (hpre : done <+: all)
    (hone : ∀ w ∈ newRows db done, ∀ e ∈ all,
      e.noradId = w.noradId → e.key ∉ keys db → e.key = w.key)
    : newRows db all = newRows db done ++ newRows (ingest db done) all := by
  have hknown : ∀ e ∈ all, e.noradId ∈ noradIds (newRows db done) → e.key ∈ keys (ingest db done) := by
    intro e he hmem
    obtain ⟨w, hw, hnorad⟩ := List.mem_map.mp hmem
    rw [mem_keys_ingest]
    by_cases hkey : e.key ∈ keys db
    . exact Or.inl hkey
    . apply Or.inr
      rw [hone w hw e he hnorad.symm hkey]
      apply key_mem_keys hw
  obtain ⟨rest, rfl⟩ := hpre
  induction rest using List.reverseRecOn with
  | nil =>
    rw [List.append_nil] at hknown ⊢
    have hnil : newRows (ingest db done) done = [] := by
      apply newRows_eq_nil
      intro e he
      by_cases hkey : e.key ∈ keys db
      . rw [mem_keys_ingest]
        exact Or.inl hkey
      . apply hknown e he
        apply noradId_mem_newRows he hkey
    rw [hnil, List.append_nil]
  | append_singleton rest e ih =>
    have ih := ih
      (by intro w hw e he; apply hone w hw e; simp only [List.mem_append] at he ⊢; tauto)
      (by intro e he; apply hknown e; simp only [List.mem_append] at he ⊢; tauto)
    rw [← List.append_assoc, newRows_concat, newRows_concat, ih]
    have hiff : (e.key ∈ keys db
          ∨ e.noradId ∈ noradIds (newRows db done ++ newRows (ingest db done) (done ++ rest)))
        ↔
        (e.key ∈ keys (ingest db done)
          ∨ e.noradId ∈ noradIds (newRows (ingest db done) (done ++ rest))) := by
      have hback : e.key ∈ keys (newRows db done) → e.noradId ∈ noradIds (newRows db done) :=
        noradId_mem_of_key_mem
      have hforth := hknown e (by simp)
      rw [noradIds_append, List.mem_append, mem_keys_ingest]
      rw [mem_keys_ingest] at hforth
      tauto
    by_cases h : e.key ∈ keys (ingest db done)
        ∨ e.noradId ∈ noradIds (newRows (ingest db done) (done ++ rest))
    . rw [if_pos h, if_pos (hiff.mpr h)]
    . rw [if_neg h, if_neg (mt hiff.mp h), List.append_assoc]

theorem supersede_of_not_current {new : List TLE} {t : TLE} (h : t.isCurrent = false)
    : supersede new t = t := by
  unfold supersede
  rw [h, Bool.false_and, ← h]

theorem supersede_of_not_mem {new : List TLE} {t : TLE} (h : t.noradId ∉ noradIds new)
    : supersede new t = t := by
  unfold supersede
  simp [h]

theorem refreshed_of_current {t : TLE} (h : t.isCurrent = true) (es : List Entry)
    : refreshed es t = es.foldl refresh t := by
  unfold refreshed
  rw [if_pos h]

theorem refreshed_of_not_current {t : TLE} (h : t.isCurrent = false) (es : List Entry)
    : refreshed es t = t := by
  unfold refreshed
  rw [if_neg]
  simp [h]

theorem isCurrent_supersede_of_mem {new : List TLE} {t : TLE} (h : t.noradId ∈ noradIds new)
    : (supersede new t).isCurrent = false := by
  unfold supersede
  simp [h]

theorem rerun_new_row (hpre : done <+: all) (h : Settled db done all) {w : TLE}
    (hw : w ∈ newRows db done)
    : supersede (newRows (ingest db done) all) (refreshed all w) = w := by
  rw [refreshed_of_current (isCurrent_of_mem_newRows hw), h.lastWord w hw]
  apply supersede_of_not_mem
  apply not_mem_of_newRows_eq_append (newRows_ingest hpre h.oneEpoch) hw

theorem rerun_old_row (hpre : done <+: all) (h : Settled db done all) {t : TLE} (ht : t ∈ db)
    : supersede (newRows (ingest db done) all)
          (refreshed all (supersede (newRows db done) (refreshed done t)))
        =
      supersede (newRows db all) (refreshed all t) := by
  have hnew := newRows_ingest hpre h.oneEpoch
  cases hcurrent : t.isCurrent with
  | false =>
    rw [refreshed_of_not_current hcurrent, supersede_of_not_current hcurrent,
      refreshed_of_not_current hcurrent, supersede_of_not_current hcurrent,
      supersede_of_not_current hcurrent]
  | true =>
    rw [refreshed_of_current hcurrent, refreshed_of_current hcurrent]
    by_cases hmem : t.noradId ∈ noradIds (newRows db done)
    . -- the row is retired already, so the rerun does not find it
      have hretired : (supersede (newRows db done) (done.foldl refresh t)).isCurrent = false := by
        apply isCurrent_supersede_of_mem
        simpa using hmem
      rw [refreshed_of_not_current hretired, supersede_of_not_current hretired]
      obtain ⟨w, hw, hnorad⟩ := List.mem_map.mp hmem
      rw [h.supersededDone w hw t ht hcurrent hnorad.symm]
      have hmem' : t.noradId ∈ noradIds (newRows db all) := by
        rw [hnew, noradIds_append]
        apply List.mem_append_left _ hmem
      unfold supersede
      simp [hmem, hmem']
    . -- the row is still current, and the rerun sees all entries for it again
      have hsame : supersede (newRows db done) (done.foldl refresh t) = done.foldl refresh t := by
        apply supersede_of_not_mem
        simpa using hmem
      rw [hsame, refreshed_of_current (by simpa using hcurrent), foldl_refresh_of_isPrefix hpre,
        hnew]
      have hids : t.noradId ∈ noradIds (newRows db done ++ newRows (ingest db done) all)
          ↔ t.noradId ∈ noradIds (newRows (ingest db done) all) := by
        rw [noradIds_append, List.mem_append]
        tauto
      unfold supersede
      simp [hids]

theorem ingest_ingest (hpre : done <+: all) (h : Settled db done all)
    : ingest (ingest db done) all = ingest db all := by
  have hrows : (newRows db done).map
      (fun w => supersede (newRows (ingest db done) all) (refreshed all w)) = newRows db done := by
    rw [List.map_congr_left fun w hw => rerun_new_row hpre h hw]
    apply List.map_id'
  have hsplit : ingest db all
      = db.map (fun t => supersede (newRows db all) (refreshed all t))
        ++ newRows db done ++ newRows (ingest db done) all := by
    rw [List.append_assoc, ← newRows_ingest hpre h.oneEpoch]
    rfl
  have houter : ingest (ingest db done) all
      = (db.map (fun t => supersede (newRows db done) (refreshed done t)) ++ newRows db done).map
          (fun t => supersede (newRows (ingest db done) all) (refreshed all t))
        ++ newRows (ingest db done) all := rfl
  rw [houter, hsplit, List.map_append, List.map_map, hrows,
    ← List.map_congr_left fun t ht => rerun_old_row hpre h ht]
  rfl

theorem mem_ingest_of_mem_newRows {es : List Entry} {w : TLE} (hw : w ∈ newRows db es)
    : w ∈ ingest db es :=
  List.mem_append_right _ hw

theorem mem_ingest_of_mem {es : List Entry} {t : TLE} (ht : t ∈ db)
    : supersede (newRows db es) (refreshed es t) ∈ ingest db es :=
  List.mem_append_left _ (List.mem_map_of_mem ht)

theorem mem_newRows_of_mem_ingest {es : List Entry} {t : TLE} (ht : t ∈ ingest db es)
    (hkey : t.key ∉ keys db) : t ∈ newRows db es := by
  unfold ingest at ht
  rw [List.mem_append] at ht
  cases ht with
  | inl ht =>
    obtain ⟨t', ht', rfl⟩ := List.mem_map.mp ht
    exfalso
    apply hkey
    have : (supersede (newRows db es) (refreshed es t')).key = t'.key := refreshed_key es t'
    rw [this]
    apply key_mem_keys ht'
  | inr ht => assumption

theorem eq_of_mem_ingest (hkeys : (keys db).Nodup) {es : List Entry} {t t' : TLE}
    (ht' : t' ∈ ingest db es) (ht : t ∈ db) (hkey : t'.key = t.key)
    : t' = supersede (newRows db es) (refreshed es t) := by
  unfold ingest at ht'
  rw [List.mem_append] at ht'
  cases ht' with
  | inl ht' =>
    obtain ⟨u, hu, rfl⟩ := List.mem_map.mp ht'
    have : (supersede (newRows db es) (refreshed es u)).key = u.key := refreshed_key es u
    rw [this] at hkey
    rw [eq_of_key_eq hkeys hu ht hkey]
  | inr ht' =>
    exfalso
    apply key_not_mem_of_mem_newRows ht'
    rw [hkey]
    apply key_mem_keys ht

theorem supersede_inj {new : List TLE} {t t' : TLE} (hcurrent : t.isCurrent = t'.isCurrent)
    (h : supersede new t = supersede new t') : t = t' := by
  unfold supersede at h
  cases t
  cases t'
  simp only [TLE.mk.injEq] at h ⊢
  simp only at hcurrent
  tauto

section perm

variable (hpre : done <+: all) (h : (ingest (ingest db done) all).Perm (ingest db all))

include hpre h

theorem oneEpoch_of_perm {w : TLE} (hw : w ∈ newRows db done) {e : Entry} (he : e ∈ all)
    (hnorad : e.noradId = w.noradId) (hkey : e.key ∉ keys db) : e.key = w.key := by
  by_contra hne
  have hunknown : e.key ∉ keys (ingest db done) := by
    rw [mem_keys_ingest, not_or]
    refine ⟨hkey, ?_⟩
    intro hmem
    obtain ⟨w', hw', hkey'⟩ := List.mem_map.mp hmem
    have hnorad' : w'.noradId = e.noradId := congrArg Prod.fst hkey'
    rw [eq_of_mem_newRows hw' hw (hnorad'.trans hnorad)] at hkey'
    apply hne hkey'.symm
  -- the rerun adds a second new row of the satellite
  obtain ⟨x, hx, hxnorad⟩ := List.mem_map.mp (noradId_mem_newRows he hunknown)
  have hxkey := key_not_mem_of_mem_newRows hx
  rw [mem_keys_ingest, not_or] at hxkey
  have hxall := mem_newRows_of_mem_ingest (h.subset (mem_ingest_of_mem_newRows hx)) hxkey.left
  have heq := eq_of_mem_newRows hxall ((newRows_isPrefix hpre).subset hw) (hxnorad.trans hnorad)
  apply hxkey.right
  rw [heq]
  apply key_mem_keys hw

theorem lastWord_of_perm {w : TLE} (hw : w ∈ newRows db done) : all.foldl refresh w = w := by
  have hmem := h.subset (mem_ingest_of_mem (mem_ingest_of_mem_newRows hw))
  rw [refreshed_of_current (isCurrent_of_mem_newRows hw)] at hmem
  have hkey : (supersede (newRows (ingest db done) all) (all.foldl refresh w)).key = w.key :=
    foldl_refresh_key all w
  have hall := mem_newRows_of_mem_ingest hmem (hkey ▸ key_not_mem_of_mem_newRows hw)
  have heq := eq_of_mem_newRows hall ((newRows_isPrefix hpre).subset hw) (foldl_refresh_noradId all w)
  rw [supersede_of_not_mem] at heq
  . assumption
  . intro hagain
    have := isCurrent_supersede_of_mem hagain
    rw [heq, isCurrent_of_mem_newRows hw] at this
    simp at this

theorem supersededDone_of_perm (hkeys : (keys db).Nodup) {w : TLE} (hw : w ∈ newRows db done)
    {t : TLE} (ht : t ∈ db) (hcurrent : t.isCurrent) (hnorad : t.noradId = w.noradId)
    : done.foldl refresh t = all.foldl refresh t := by
  have hmem := h.subset (mem_ingest_of_mem (mem_ingest_of_mem ht))
  have hid : t.noradId ∈ noradIds (newRows db done) := by
    rw [hnorad]
    apply noradId_mem_noradIds hw
  have hretired : (supersede (newRows db done) (refreshed done t)).isCurrent = false := by
    apply isCurrent_supersede_of_mem
    simpa using hid
  rw [refreshed_of_not_current hretired, supersede_of_not_current hretired] at hmem
  have heq := eq_of_mem_ingest hkeys hmem ht (refreshed_key done t)
  rw [refreshed_of_current hcurrent, refreshed_of_current hcurrent] at heq
  have hid' : t.noradId ∈ noradIds (newRows db all) :=
    List.map_subset _ (newRows_isPrefix hpre).subset hid
  have heq' : supersede (newRows db all) (done.foldl refresh t)
      = supersede (newRows db all) (all.foldl refresh t) := by
    rw [← heq]
    unfold supersede
    simp [hid, hid']
  apply supersede_inj _ heq'
  simp

end perm

theorem ingest_ingest_perm_iff (hkeys : (keys db).Nodup) (hpre : done <+: all)
    : (ingest (ingest db done) all).Perm (ingest db all) ↔ Settled db done all := by
  constructor
  . intro h
    constructor
    case oneEpoch =>
      intro w hw e he hnorad hkey
      apply oneEpoch_of_perm hpre h hw he hnorad hkey
    case lastWord =>
      intro w hw
      apply lastWord_of_perm hpre h hw
    case supersededDone =>
      intro w hw t ht hcurrent hnorad
      apply supersededDone_of_perm hpre h hkeys hw ht hcurrent hnorad
  . intro h
    rw [ingest_ingest hpre h]

end ingest

section rerun

inductive Attempt where
  | fails (rounds : Nat)
  | completes
  deriving DecidableEq, Repr

/-- The database takes every row. A commit that it refuses is one more place at which to fail. -/
def nothingRefused : TLE → Bool :=
  fun _ => false

variable (refused : TLE → Bool) (validator : TLEValidator) (text : List Char)

def tableAfter (db : List TLE) (a : Attempt) : List TLE :=
  match a with
  | .fails rounds => parseAndStoreFailing refused validator db text rounds
  | .completes =>
    match parseAndStore refused validator db text with
    | .ok (db', _) => db'
    | .error db' => db'

def committedBy (db : List TLE) (a : Attempt) : List Entry :=
  match a with
  | .fails rounds =>
    committed refused validator (prefetch db) [] [] ((triplets (splitlines text)).take rounds)
  | .completes => entries validator (triplets (splitlines text))

/-- The validator raises no exception on the feed. Otherwise no execution completes. -/
def Accepts : Prop :=
  ∀ t ∈ triplets (splitlines text), parseTriplet validator t ≠ none

/-- Whatever `text` leaves of `db` in one execution, the next one on `db'` completes with it. -/
def ConvergesTo (db db' : List TLE) : Prop :=
  ∀ res, parseAndStore nothingRefused validator db text = .ok res
    → ∃ res', parseAndStore nothingRefused validator db' text = .ok res' ∧ res'.1.Perm res.1

variable {validator text}

theorem flushBatch_nothingRefused (s : State) : flushBatch nothingRefused s = some (writeBatch s) := by
  simp [flushBatch, nothingRefused]

theorem step_isSome_iff {s : State} {t : Triplet}
    : (step nothingRefused validator s t).isSome ↔ parseTriplet validator t ≠ none := by
  unfold step
  cases parseTriplet validator t with
  | none => simp
  | some parsed =>
    cases parsed with
    | blank => simp
    | invalid => simp
    | entry e =>
      simp only [Option.bind_eq_bind, Option.bind_some, flushBatch_nothingRefused]
      split <;> simp

theorem loop_eq_ok_iff {s : State} {ts : List Triplet}
    : (∃ s', loop nothingRefused validator s ts = .ok s') ↔ ∀ t ∈ ts, parseTriplet validator t ≠ none := by
  induction ts generalizing s with
  | nil => simp [loop]
  | cons t ts ih =>
    unfold loop
    rw [List.forall_mem_cons, ← step_isSome_iff (s := s)]
    cases hstep : step nothingRefused validator s t with
    | none => simp
    | some s' => simpa using ih

theorem parseAndStore_eq_ok_iff {db : List TLE}
    : (∃ res, parseAndStore nothingRefused validator db text = .ok res) ↔ Accepts validator text := by
  unfold Accepts
  rw [← loop_eq_ok_iff (s := prefetch db)]
  unfold parseAndStore
  cases loop nothingRefused validator (prefetch db) (triplets (splitlines text)) with
  | ok s => simp [flushBatch_nothingRefused]
  | error s => simp

theorem parseAndStore_of_accepts (h : Accepts validator text) {db : List TLE}
    (hkeys : (keys db).Nodup)
    : ∃ counts, parseAndStore nothingRefused validator db text
        = .ok (ingest db (entries validator (triplets (splitlines text))), counts) := by
  obtain ⟨⟨db', counts⟩, hok⟩ := parseAndStore_eq_ok_iff.mpr h
  rw [hok, ← parseAndStore_eq nothingRefused validator db text hkeys hok]
  exact ⟨counts, rfl⟩

theorem tableAfter_eq (h : Accepts validator text) {db : List TLE} (hkeys : (keys db).Nodup)
    (a : Attempt)
    : tableAfter nothingRefused validator text db a = ingest db (committedBy nothingRefused validator text db a) := by
  cases a with
  | fails rounds => apply parseAndStoreFailing_eq nothingRefused validator db text hkeys
  | completes =>
    obtain ⟨counts, hok⟩ := parseAndStore_of_accepts h hkeys
    unfold tableAfter
    rw [hok]
    rfl

theorem committedBy_isPrefix {db : List TLE} (hkeys : (keys db).Nodup) (a : Attempt)
    : committedBy nothingRefused validator text db a
        <+:
      entries validator (triplets (splitlines text)) := by
  cases a with
  | fails rounds => apply committed_isPrefix nothingRefused validator db text hkeys
  | completes => apply List.prefix_refl

theorem nodup_keys_tableAfter (h : Accepts validator text) {db : List TLE}
    (hkeys : (keys db).Nodup) (attempts : List Attempt)
    : (keys (attempts.foldl (tableAfter nothingRefused validator text) db)).Nodup := by
  induction attempts generalizing db with
  | nil => apply hkeys
  | cons a attempts ih =>
    rw [List.foldl_cons]
    apply ih
    rw [tableAfter_eq h hkeys]
    apply nodup_keys_ingest _ hkeys

theorem convergesTo_iff (h : Accepts validator text) {db db' : List TLE} (hkeys : (keys db).Nodup)
    (hkeys' : (keys db').Nodup)
    : ConvergesTo validator text db db'
        ↔
      (ingest db' (entries validator (triplets (splitlines text)))).Perm
        (ingest db (entries validator (triplets (splitlines text)))) := by
  obtain ⟨counts, hok⟩ := parseAndStore_of_accepts h hkeys
  obtain ⟨counts', hok'⟩ := parseAndStore_of_accepts h hkeys'
  unfold ConvergesTo
  simp [hok, hok']

/--
After any attempts the feed is ingested to what one uninterrupted execution makes of it, if and only
if every attempt left the satellites settled whose new row it committed.
-/
theorem rerun_converges_iff (validator : TLEValidator) (text : List Char) (db : List TLE)
    (hkeys : (keys db).Nodup) (attempts : List Attempt)
    : (∀ before, before <+: attempts
        → ConvergesTo validator text db (before.foldl (tableAfter nothingRefused validator text) db))
        ↔
      (Accepts validator text
        → ∀ before a, before ++ [a] <+: attempts
        → let reached := before.foldl (tableAfter nothingRefused validator text) db
          Settled reached (committedBy nothingRefused validator text reached a)
            (entries validator (triplets (splitlines text)))) := by
  by_cases h : Accepts validator text
  . let final (t : List TLE) := ingest t (entries validator (triplets (splitlines text)))
    have hequiv : Equivalence fun t t' : List TLE => (final t).Perm (final t') :=
      ⟨fun _ => .refl _, .symm, .trans⟩
    have hrun := forall_prefix_foldl_iff hequiv (tableAfter nothingRefused validator text) db attempts
    have hconv : ∀ before : List Attempt,
        ConvergesTo validator text db (before.foldl (tableAfter nothingRefused validator text) db)
          ↔ (final (before.foldl (tableAfter nothingRefused validator text) db)).Perm (final db) := by
      intro before
      apply convergesTo_iff h hkeys
      apply nodup_keys_tableAfter h hkeys
    simp only [hconv, h, forall_const]
    rw [hrun]
    apply forall_congr'
    intro before
    apply forall_congr'
    intro a
    have hkeys' := nodup_keys_tableAfter h hkeys before
    dsimp only [final]
    rw [tableAfter_eq h hkeys', ingest_ingest_perm_iff hkeys' (committedBy_isPrefix hkeys' a)]
  . have hnever : ∀ res, parseAndStore nothingRefused validator db text ≠ .ok res := by
      intro res hres
      apply h (parseAndStore_eq_ok_iff.mp ⟨res, hres⟩)
    simp [ConvergesTo, hnever, h]

theorem rerun_converges_iff_iss
    : (∀ before, before <+: [Attempt.completes]
        → ConvergesTo issValidator issFeed [issRow1]
            (before.foldl (tableAfter nothingRefused issValidator issFeed) [issRow1]))
        ↔
      (Accepts issValidator issFeed
        → ∀ before a, before ++ [a] <+: [Attempt.completes]
        → let reached := before.foldl (tableAfter nothingRefused issValidator issFeed) [issRow1]
          Settled reached (committedBy nothingRefused issValidator issFeed reached a)
            (entries issValidator (triplets (splitlines issFeed)))) := by
  apply rerun_converges_iff
  decide +kernel

theorem rerun_adds_row
    : ¬ ∀ (validator : TLEValidator) (text : List Char) (db : List TLE) (attempts : List Attempt),
        (keys db).Nodup
          → ConvergesTo validator text db (attempts.foldl (tableAfter nothingRefused validator text) db) := by
  intro h
  have hconv := h issValidator issFeed [] [.completes] (by decide)
  have hfirst : (match parseAndStore nothingRefused issValidator [] issFeed with
      | .ok res => res.1.length
      | .error _ => 0) = 1 := by decide +kernel
  have hsecond : (match parseAndStore nothingRefused issValidator
        (tableAfter nothingRefused issValidator issFeed [] .completes) issFeed with
      | .ok res => res.1.length
      | .error _ => 0) = 2 := by decide +kernel
  cases hres : parseAndStore nothingRefused issValidator [] issFeed with
  | error db' =>
    rw [hres] at hfirst
    simp at hfirst
  | ok res =>
    obtain ⟨res', hres', hperm⟩ := hconv res hres
    rw [List.foldl_cons, List.foldl_nil] at hres'
    rw [hres] at hfirst
    rw [hres'] at hsecond
    have := hperm.length_eq
    dsimp at hfirst hsecond
    omega

end rerun

end TLEFetcher
end SdaSystem
