import SdaSystem.Ingestion.Lemmas.Retry

namespace SdaSystem
namespace TLEFetcher

def EpochLe (db db' : List TLE) : Prop :=
  ∀ t ∈ db, ∀ t' ∈ db', t.isCurrent → t'.isCurrent → t.noradId = t'.noradId → t.epoch ≤ t'.epoch

section

variable {db : List TLE}

theorem mem_currentIds {n : Int} : n ∈ currentIds db ↔ ∃ t ∈ db, t.isCurrent ∧ t.noradId = n := by
  unfold currentIds noradIds
  simp only [List.mem_map, List.mem_filter, and_assoc]

theorem eq_of_current (hcurrent : (currentIds db).Nodup) {t t' : TLE} (ht : t ∈ db) (ht' : t' ∈ db)
    (hcur : t.isCurrent) (hcur' : t'.isCurrent) (h : t.noradId = t'.noradId) : t = t' := by
  apply List.inj_on_of_nodup_map hcurrent _ _ h
  . simp [ht, hcur]
  . simp [ht', hcur']

theorem EpochLe.refl (hcurrent : (currentIds db).Nodup) : EpochLe db db := by
  intro t ht t' ht' hcur hcur' h
  rw [eq_of_current hcurrent ht ht' hcur hcur' h]

theorem EpochLe.trans {db' db'' : List TLE} (h : EpochLe db db') (h' : EpochLe db' db'')
    (hsub : ∀ n ∈ currentIds db, n ∈ currentIds db') : EpochLe db db'' := by
  intro t ht t'' ht'' hcur hcur'' heq
  obtain ⟨t', ht', hcur', heq'⟩ := mem_currentIds.mp (hsub _ (mem_currentIds.mpr ⟨t, ht, hcur, rfl⟩))
  apply le_trans
  . apply h t ht t' ht' hcur hcur' heq'.symm
  . apply h' t' ht' t'' ht'' hcur' hcur'' (heq'.trans heq)

/-- An entry makes a new row if its key is not stored and it is the first such one of its satellite. -/
def Adds (db : List TLE) (before : List Entry) (e : Entry) : Prop :=
  e.key ∉ keys db ∧ ∀ e' ∈ before, e'.noradId = e.noradId → e'.key ∈ keys db

theorem noradId_not_mem_newRows {es : List Entry} {n : Int}
    (h : ∀ e' ∈ es, e'.noradId = n → e'.key ∈ keys db) : n ∉ noradIds (newRows db es) := by
  intro hn
  obtain ⟨w, hw, hnorad⟩ := List.mem_map.mp hn
  obtain ⟨e, he, hkey, rfl⟩ := mem_newRows hw
  apply hkey (h e he hnorad)

theorem mem_newRows_iff {es : List Entry} {w : TLE}
    : w ∈ newRows db es
        ↔
      ∃ before e after, es = before ++ e :: after ∧ Adds db before e ∧ e.toTLE = w := by
  constructor
  . intro hw
    induction es using List.reverseRecOn with
    | nil => simp [newRows] at hw
    | append_singleton es e ih =>
      rw [newRows_concat] at hw
      split at hw
      . obtain ⟨before, e', after, rfl, hadds, htoTLE⟩ := ih hw
        exact ⟨before, e', after ++ [e], by simp, hadds, htoTLE⟩
      . next hnew =>
        rw [not_or] at hnew
        rw [List.mem_append, List.mem_singleton] at hw
        cases hw with
        | inl hw =>
          obtain ⟨before, e', after, rfl, hadds, htoTLE⟩ := ih hw
          exact ⟨before, e', after ++ [e], by simp, hadds, htoTLE⟩
        | inr hw =>
          refine ⟨es, e, [], rfl, ⟨hnew.left, ?_⟩, hw.symm⟩
          intro e' he' hnorad
          by_contra hkey
          apply hnew.right
          rw [← hnorad]
          apply noradId_mem_newRows he' hkey
  . rintro ⟨before, e, after, rfl, hadds, rfl⟩
    have hpre : newRows db (before ++ [e]) <+: newRows db (before ++ e :: after) := by
      apply newRows_isPrefix
      simp
    apply hpre.subset
    rw [newRows_concat_of_unknown hadds.left (noradId_not_mem_newRows hadds.right)]
    simp

/-- Every new row is at least as late as the current row of its satellite. -/
def Advances (db : List TLE) (es : List Entry) : Prop :=
  ∀ before e after, es = before ++ e :: after → Adds db before e
    → ∀ t ∈ db, t.isCurrent → t.noradId = e.noradId → t.epoch ≤ e.epoch

theorem Advances.of_isPrefix {es es' : List Entry} (h : Advances db es') (hpre : es <+: es')
    : Advances db es := by
  obtain ⟨rest, rfl⟩ := hpre
  intro before e after hsplit
  apply h before e (after ++ rest)
  rw [hsplit, List.append_assoc]
  rfl

theorem current_ingest {es : List Entry} {t : TLE} (ht : t ∈ ingest db es) (hcur : t.isCurrent)
    : (∃ q ∈ db, q.isCurrent ∧ q.noradId = t.noradId ∧ q.epoch = t.epoch
        ∧ t.noradId ∉ noradIds (newRows db es))
        ∨
      t ∈ newRows db es := by
  unfold ingest at ht
  rw [List.mem_append, List.mem_map] at ht
  cases ht with
  | inl hold =>
    obtain ⟨q, hq, rfl⟩ := hold
    simp only [supersede, refreshed_isCurrent, Bool.and_eq_true, decide_eq_true_eq] at hcur
    have hepoch := congrArg Prod.snd (refreshed_key es q)
    refine .inl ⟨q, hq, hcur.left, ?_, hepoch.symm, ?_⟩
    . simp [supersede]
    . simpa [supersede] using hcur.right
  | inr hnew => apply Or.inr hnew

theorem Advances.epochLe_ingest {es : List Entry} (h : Advances db es) (hcurrent : (currentIds db).Nodup)
    : EpochLe db (ingest db es) := by
  intro t ht t' ht' hcur hcur' heq
  rcases current_ingest ht' hcur' with ⟨q, hq, hqcur, hqnorad, hqepoch, _⟩ | hnew
  . rw [eq_of_current hcurrent ht hq hcur hqcur (heq.trans hqnorad.symm)]
    apply le_of_eq hqepoch
  . obtain ⟨before, e, after, hsplit, hadds, rfl⟩ := mem_newRows_iff.mp hnew
    apply h before e after hsplit hadds t ht hcur heq

theorem Advances.epochLe_ingest_ingest {es es' : List Entry} (h : Advances db es')
    (hcurrent : (currentIds db).Nodup) (hpre : es <+: es') : EpochLe (ingest db es) (ingest db es') := by
  intro t ht t' ht' hcur hcur' heq
  rcases current_ingest ht hcur with ⟨q, hq, hqcur, hqnorad, hqepoch, _⟩ | hnew
  . rw [← hqepoch]
    apply h.epochLe_ingest hcurrent q hq t' ht' hqcur hcur' (hqnorad.trans heq)
  . -- the satellite has its new row already, and gets no other one
    have hnew' : t ∈ newRows db es' := (newRows_isPrefix hpre).subset hnew
    rcases current_ingest ht' hcur' with ⟨_, _, _, _, _, hnot⟩ | hmem
    . rw [← heq] at hnot
      exact absurd (noradId_mem_noradIds hnew') hnot
    . rw [eq_of_mem_newRows hnew' hmem heq]

theorem epochLe_ingest_iff (hcurrent : (currentIds db).Nodup) (es : List Entry)
    : EpochLe db (ingest db es) ↔ Advances db es := by
  constructor
  . intro h before e after hsplit hadds t ht hcur hnorad
    have hw : e.toTLE ∈ newRows db es := mem_newRows_iff.mpr ⟨before, e, after, hsplit, hadds, rfl⟩
    apply h t ht e.toTLE (mem_ingest_of_mem_newRows hw) hcur rfl hnorad
  . intro h
    apply h.epochLe_ingest hcurrent

end

section executions

variable (refused : TLE → Bool) (validator : TLEValidator)

def ingestedBy (db : List TLE) (text : List Char) (a : Attempt) : List Entry :=
  match a with
  | .fails rounds => committed refused validator (prefetch db) [] [] ((triplets (splitlines text)).take rounds)
  | .completes =>
    match parseAndStore refused validator db text with
    | .ok _ => entries validator (triplets (splitlines text))
    | .error _ => committed refused validator (prefetch db) [] [] (triplets (splitlines text))

def tableAfterAll (db : List TLE) (executions : List (List Char × Attempt)) : List TLE :=
  executions.foldl (fun db x => tableAfter refused validator x.1 db x.2) db

variable {refused} {validator} {db : List TLE}

theorem parseAndStore_error_eq (hkeys : (keys db).Nodup) {text : List Char} {db' : List TLE}
    (h : parseAndStore refused validator db text = .error db')
    : db'
        =
      ingest db (committed refused validator (prefetch db) [] [] (triplets (splitlines text))) := by
  have hfailing := parseAndStoreFailing_eq refused validator db text hkeys
    (triplets (splitlines text)).length
  rw [List.take_length] at hfailing
  rw [← hfailing]
  unfold parseAndStore at h
  unfold parseAndStoreFailing
  rw [List.take_length]
  split at h
  . split at h
    . cases h
    . cases h
      rfl
  . cases h
    rfl

theorem tableAfter_eq_ingest (hkeys : (keys db).Nodup) (text : List Char) (a : Attempt)
    : tableAfter refused validator text db a = ingest db (ingestedBy refused validator db text a) := by
  unfold tableAfter ingestedBy
  cases a with
  | fails rounds => apply parseAndStoreFailing_eq refused validator db text hkeys
  | completes =>
    cases hres : parseAndStore refused validator db text with
    | ok res => apply parseAndStore_eq refused validator db text hkeys hres
    | error db' => apply parseAndStore_error_eq hkeys hres

theorem done_isPrefix_committed {s : State} {done es : List Entry} (h : done <+: es)
    (ts : List Triplet) : done <+: committed refused validator s done es ts := by
  induction ts generalizing s done es with
  | nil => apply List.prefix_refl
  | cons t ts ih =>
    unfold committed
    split
    . next s' _ =>
      have hes : es <+: es ++ entries validator [t] := List.prefix_append _ _
      dsimp only
      split
      . apply (h.trans hes).trans
        apply ih (List.prefix_refl _)
      . apply ih (h.trans hes)
    . apply List.prefix_refl

theorem committed_append_isPrefix {s : State} {done es : List Entry} (h : done <+: es)
    (ts ts' : List Triplet)
    : committed refused validator s done es ts <+: committed refused validator s done es (ts ++ ts') := by
  induction ts generalizing s done es with
  | nil => apply done_isPrefix_committed h
  | cons t ts ih =>
    rw [List.cons_append]
    unfold committed
    split
    . next s' _ =>
      apply ih
      split
      . apply List.prefix_refl
      . apply h.trans (List.prefix_append _ _)
    . apply List.prefix_refl

theorem committed_isPrefix_ingestedBy (hkeys : (keys db).Nodup) (text : List Char) (a : Attempt)
    (rounds : Nat) (hrounds : ∀ r, a = .fails r → rounds ≤ r)
    : committed refused validator (prefetch db) [] [] ((triplets (splitlines text)).take rounds)
        <+:
      ingestedBy refused validator db text a := by
  have hall : ∀ ts' : List Triplet, (triplets (splitlines text)).take rounds <+: ts'
      → committed refused validator (prefetch db) [] [] ((triplets (splitlines text)).take rounds)
          <+: committed refused validator (prefetch db) [] [] ts' := by
    rintro _ ⟨rest, rfl⟩
    apply committed_append_isPrefix (List.prefix_refl [])
  unfold ingestedBy
  cases a with
  | fails r =>
    apply hall
    apply List.take_isPrefix_take.mpr
    apply Or.inl (hrounds r rfl)
  | completes =>
    dsimp only
    split
    . apply committed_isPrefix refused validator db text hkeys
    . apply hall
      apply List.take_prefix

theorem tableAfterAll_concat (before : List (List Char × Attempt)) (x : List Char × Attempt)
    : tableAfterAll refused validator db (before ++ [x])
        =
      tableAfter refused validator x.1 (tableAfterAll refused validator db before) x.2 := by
  unfold tableAfterAll
  rw [List.foldl_concat]

structure Sound (db : List TLE) : Prop where
  uniqueKey : (keys db).Nodup
  oneCurrent : (currentIds db).Nodup

theorem Sound.tableAfterAll (h : Sound db) (executions : List (List Char × Attempt))
    : Sound (tableAfterAll refused validator db executions) := by
  induction executions using List.reverseRecOn with
  | nil => apply h
  | append_singleton before x ih =>
    rw [tableAfterAll_concat, tableAfter_eq_ingest ih.uniqueKey]
    exact ⟨nodup_keys_ingest _ ih.uniqueKey, nodup_currentIds_ingest _ ih.oneCurrent⟩

theorem epochLe_of_steps (h : Sound db) {executions : List (List Char × Attempt)}
    (hstep : ∀ before x, before ++ [x] <+: executions
      → EpochLe (tableAfterAll refused validator db before) (tableAfterAll refused validator db (before ++ [x])))
    (before after : List (List Char × Attempt)) (hpre : before ++ after <+: executions)
    : EpochLe (tableAfterAll refused validator db before) (tableAfterAll refused validator db (before ++ after))
        ∧
      ∀ n ∈ currentIds (tableAfterAll refused validator db before),
        n ∈ currentIds (tableAfterAll refused validator db (before ++ after)) := by
  induction after using List.reverseRecOn with
  | nil =>
    rw [List.append_nil]
    exact ⟨EpochLe.refl (h.tableAfterAll before).oneCurrent, fun _ hn => hn⟩
  | append_singleton after x ih =>
    rw [← List.append_assoc] at hpre ⊢
    obtain ⟨hle, hsub⟩ := ih ((List.prefix_append _ [x]).trans hpre)
    refine ⟨hle.trans (hstep (before ++ after) x hpre) hsub, ?_⟩
    intro n hn
    rw [tableAfterAll_concat, tableAfter_eq_ingest (h.tableAfterAll _).uniqueKey]
    apply currentIds_subset_ingest
    apply hsub n hn

/--
No current epoch ever goes back, neither from one execution to a later one nor at a commit on the
way, if and only if no execution adds a row that is older than the current row of its satellite.
-/
theorem current_epoch_mono_iff (refused : TLE → Bool) (validator : TLEValidator) (db : List TLE)
    (executions : List (List Char × Attempt)) (hkeys : (keys db).Nodup)
    (hcurrent : ∀ n, (currentIds db).count n ≤ 1)
    : (∀ before after, before ++ after <+: executions
        → EpochLe (tableAfterAll refused validator db before) (tableAfterAll refused validator db (before ++ after)))
        ∧
      (∀ before text a, before ++ [(text, a)] <+: executions
        → ∀ rounds, (∀ r, a = .fails r → rounds ≤ r)
        → let reached := tableAfterAll refused validator db before
          EpochLe reached (parseAndStoreFailing refused validator reached text rounds)
            ∧ EpochLe (parseAndStoreFailing refused validator reached text rounds)
                (tableAfter refused validator text reached a))
        ↔
      ∀ before text a, before ++ [(text, a)] <+: executions →
        let reached := tableAfterAll refused validator db before
        ∀ seen e rest, ingestedBy refused validator reached text a = seen ++ e :: rest → Adds reached seen e
          → ∀ t ∈ reached, t.isCurrent → t.noradId = e.noradId → t.epoch ≤ e.epoch := by
  rw [← List.nodup_iff_count_le_one] at hcurrent
  have hsound : Sound db := ⟨hkeys, hcurrent⟩
  have hstep : ∀ before text a, EpochLe (tableAfterAll refused validator db before)
        (tableAfterAll refused validator db (before ++ [(text, a)]))
      ↔ Advances (tableAfterAll refused validator db before)
          (ingestedBy refused validator (tableAfterAll refused validator db before) text a) := by
    intro before text a
    have hbefore : Sound (tableAfterAll refused validator db before) := hsound.tableAfterAll before
    rw [tableAfterAll_concat, tableAfter_eq_ingest hbefore.uniqueKey]
    apply epochLe_ingest_iff hbefore.oneCurrent
  constructor
  . rintro ⟨h, _⟩ before text a hpre
    apply (hstep before text a).mp
    apply h before [(text, a)] hpre
  . intro h
    refine ⟨?_, ?_⟩
    . intro before after hpre
      refine (epochLe_of_steps hsound ?_ before after hpre).left
      intro before x hpre
      apply (hstep before x.1 x.2).mpr
      apply h before x.1 x.2 hpre
    . intro before text a hpre rounds hrounds reached
      have hreached : Sound reached := hsound.tableAfterAll before
      have hadvances : Advances reached (ingestedBy refused validator reached text a) := h before text a hpre
      have hfirst := @committed_isPrefix_ingestedBy refused validator _ hreached.uniqueKey text a rounds hrounds
      rw [parseAndStoreFailing_eq refused validator reached text hreached.uniqueKey,
        tableAfter_eq_ingest hreached.uniqueKey]
      refine ⟨?_, ?_⟩
      . apply (hadvances.of_isPrefix hfirst).epochLe_ingest hreached.oneCurrent
      . apply hadvances.epochLe_ingest_ingest hreached.oneCurrent hfirst

theorem current_epoch_mono_iff_iss
    : (∀ before after, before ++ after <+: [(issFeed, Attempt.completes)]
        → EpochLe (tableAfterAll TLE.refused issValidator [issRow1] before)
            (tableAfterAll TLE.refused issValidator [issRow1] (before ++ after)))
        ∧
      (∀ before text a, before ++ [(text, a)] <+: [(issFeed, Attempt.completes)]
        → ∀ rounds, (∀ r, a = .fails r → rounds ≤ r)
        → let reached := tableAfterAll TLE.refused issValidator [issRow1] before
          EpochLe reached (parseAndStoreFailing TLE.refused issValidator reached text rounds)
            ∧ EpochLe (parseAndStoreFailing TLE.refused issValidator reached text rounds)
                (tableAfter TLE.refused issValidator text reached a))
        ↔
      ∀ before text a, before ++ [(text, a)] <+: [(issFeed, Attempt.completes)] →
        let reached := tableAfterAll TLE.refused issValidator [issRow1] before
        ∀ seen e rest, ingestedBy TLE.refused issValidator reached text a = seen ++ e :: rest
          → Adds reached seen e
          → ∀ t ∈ reached, t.isCurrent → t.noradId = e.noradId → t.epoch ≤ e.epoch := by
  apply current_epoch_mono_iff
  . decide +kernel
  . rw [← List.nodup_iff_count_le_one]
    decide +kernel

def issRow2 : TLE where
  noradId := 25544
  name := some issName
  line1 := issDay2
  line2 := issLine2
  epoch := 1704196800000000
  checksum := some issHash2

/-- The element set of the day before, from a source that lags behind, becomes the current one. -/
theorem current_epoch_goes_back
    : ∃ (validator : TLEValidator) (db : List TLE) (feed : List Char),
        (keys db).Nodup ∧ (∀ n, (currentIds db).count n ≤ 1)
          ∧
        ¬ EpochLe db (tableAfter TLE.refused validator feed db .completes) := by
  refine ⟨issValidator, [issRow2], issName ++ '\n' :: issDay1 ++ '\n' :: issLine2, by decide +kernel,
    ?_, ?_⟩
  . rw [← List.nodup_iff_count_le_one]
    decide +kernel
  . intro hle
    have hback : ∃ t ∈ tableAfter TLE.refused issValidator
        (issName ++ '\n' :: issDay1 ++ '\n' :: issLine2) [issRow2] .completes, t.isCurrent ∧ t.noradId = 25544 ∧ t.epoch = 1704110400000000 := by
      decide +kernel
    obtain ⟨t, ht, hcur, hnorad, hepoch⟩ := hback
    have := hle issRow2 (by simp) t ht rfl hcur hnorad.symm
    rw [hepoch] at this
    revert this
    decide

end executions

end TLEFetcher
end SdaSystem
