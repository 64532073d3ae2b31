import SdaSystem.Ingestion.Lemmas.Ingest

/-!
The session refines `ingest`: between two rounds of the loop the committed table is the ingestion of
the entries up to the last flush, and what the session holds back is the rest of it.
-/

namespace SdaSystem
namespace TLEFetcher

/-- What the session holds after the entries `es` of which `done` are committed. -/
structure Tracks (db : List TLE) (done es : List Entry) (s : State) : Prop where
  isPrefix : done <+: es
  db_eq : s.db = ingest db done
  added_eq : newRows db es = newRows db done ++ s.added
  currentTles_eq : s.currentTles = (db.filter (·.isCurrent)).map fun t => es.foldl refresh t
  mem_allEpochs : ∀ k, k ∈ s.allEpochs ↔ k ∈ keys db ∨ k ∈ keys (newRows db es)
  mem_addedThisRun : ∀ n, n ∈ s.addedThisRun ↔ n ∈ noradIds (newRows db es)
  mem_currentNoradIds : ∀ n,
    n ∈ s.currentNoradIds ↔ n ∈ currentIds db ∧ n ∉ noradIds (newRows db es)
  mem_retire : ∀ n, n ∈ s.retireThisBatch ↔ n ∈ currentIds db ∧ n ∈ noradIds s.added
  foldl_eq_of_not_dirty : ∀ t ∈ db, t.isCurrent → t.key ∉ s.dirty
    → done.foldl refresh t = es.foldl refresh t

variable {db : List TLE}

theorem tracks_prefetch (db : List TLE) : Tracks db [] [] (prefetch db) where
  isPrefix := List.prefix_refl _
  db_eq := by
    have : ∀ t ∈ db, supersede [] (refreshed [] t) = t := by
      intro t _
      simp [supersede, refreshed, noradIds]
    unfold ingest newRows
    simp only [List.foldl_nil, List.append_nil]
    rw [List.map_congr_left this, List.map_id']
    rfl
  added_eq := by simp [newRows, prefetch]
  currentTles_eq := by simp [prefetch]
  mem_allEpochs := by simp [prefetch, newRows, keys]
  mem_addedThisRun := by simp [prefetch, newRows, noradIds]
  mem_currentNoradIds := by simp [prefetch, newRows, noradIds, currentIds]
  mem_retire := by simp [prefetch, noradIds]
  foldl_eq_of_not_dirty := by simp

section

variable {done es : List Entry} {s : State} {e : Entry}

theorem eq_of_key_eq (hkeys : (keys db).Nodup) {t t' : TLE} (ht : t ∈ db) (ht' : t' ∈ db)
    (h : t.key = t'.key) : t = t' :=
  List.inj_on_of_nodup_map hkeys ht ht' h

namespace Tracks

theorem find?_eq_some (h : Tracks db done es s) {k : Int × Int} {tleObj : TLE}
    (hfind : s.currentTles.find? (·.key = k) = some tleObj)
    : ∃ t ∈ db, t.isCurrent ∧ t.key = k ∧ es.foldl refresh t = tleObj := by
  have hmem := List.mem_of_find?_eq_some hfind
  have hkey := List.find?_some hfind
  rw [h.currentTles_eq] at hmem
  obtain ⟨t, ht, rfl⟩ := List.mem_map.mp hmem
  rw [List.mem_filter] at ht
  exact ⟨t, ht.left, ht.right, by simpa using hkey, rfl⟩

theorem find?_eq_none (h : Tracks db done es s) {k : Int × Int}
    (hfind : s.currentTles.find? (·.key = k) = none) {t : TLE} (ht : t ∈ db) (hcurrent : t.isCurrent)
    : t.key ≠ k := by
  rw [List.find?_eq_none] at hfind
  have hmem : es.foldl refresh t ∈ s.currentTles := by
    rw [h.currentTles_eq]
    apply List.mem_map_of_mem
    simp [ht, hcurrent]
  simpa using hfind _ hmem

theorem find?_key (h : Tracks db done es s) (hkeys : (keys db).Nodup) {t : TLE} (ht : t ∈ db)
    (hcurrent : t.isCurrent)
    : s.currentTles.find? (·.key = t.key) = some (es.foldl refresh t) := by
  cases hfind : s.currentTles.find? (·.key = t.key) with
  | none => exact absurd rfl (h.find?_eq_none hfind ht hcurrent)
  | some tleObj =>
    obtain ⟨t', ht', _, hkey, rfl⟩ := h.find?_eq_some hfind
    rw [eq_of_key_eq hkeys ht' ht hkey]

section concat

variable (h : Tracks db done es s)
variable (hstay : ∀ t ∈ db, t.isCurrent → refresh (es.foldl refresh t) e = es.foldl refresh t)

include h hstay in
theorem currentTles_eq_concat
    : s.currentTles = (db.filter (·.isCurrent)).map fun t => (es ++ [e]).foldl refresh t := by
  rw [h.currentTles_eq]
  apply List.map_congr_left
  intro t ht
  rw [List.mem_filter] at ht
  rw [List.foldl_concat, hstay t ht.left ht.right]

include h hstay in
theorem foldl_eq_concat {t : TLE} (ht : t ∈ db) (hcurrent : t.isCurrent) (hdirty : t.key ∉ s.dirty)
    : done.foldl refresh t = (es ++ [e]).foldl refresh t := by
  rw [List.foldl_concat, hstay t ht hcurrent]
  apply h.foldl_eq_of_not_dirty t ht hcurrent hdirty

end concat

theorem concat_of_unchanged (h : Tracks db done es s)
    (hstay : ∀ t ∈ db, t.isCurrent → refresh (es.foldl refresh t) e = es.foldl refresh t)
    (hnew : newRows db (es ++ [e]) = newRows db es) (counts : Counts)
    : Tracks db done (es ++ [e]) { s with counts } where
  isPrefix := h.isPrefix.trans (List.prefix_append es [e])
  db_eq := h.db_eq
  added_eq := by
    rw [hnew]
    apply h.added_eq
  currentTles_eq := h.currentTles_eq_concat hstay
  mem_allEpochs := by
    rw [hnew]
    apply h.mem_allEpochs
  mem_addedThisRun := by
    rw [hnew]
    apply h.mem_addedThisRun
  mem_currentNoradIds := by
    rw [hnew]
    apply h.mem_currentNoradIds
  mem_retire := h.mem_retire
  foldl_eq_of_not_dirty := by
    intro t ht hcurrent hdirty
    apply h.foldl_eq_concat hstay ht hcurrent hdirty

theorem store_update (h : Tracks db done es s) (hkeys : (keys db).Nodup) {t : TLE} (ht : t ∈ db)
    (hkey : t.key = e.key) (hdiffers : differs (es.foldl refresh t) e)
    (batchPending : Nat) (counts : Counts)
    : Tracks db done (es ++ [e]) { s with
        currentTles := s.currentTles.map fun t => if t.key = e.key then update t e else t
        dirty := insert e.key s.dirty
        batchPending
        counts } := by
  -- the key is that of `t` alone, so no other object is touched
  have hrefresh : ∀ t' ∈ db,
      refresh (es.foldl refresh t') e
        =
      if t'.key = e.key then update (es.foldl refresh t') e else es.foldl refresh t' := by
    intro t' ht'
    split
    . next hkey' =>
      apply refresh_of_differs
      . simpa using hkey'
      . rw [eq_of_key_eq hkeys ht' ht (hkey'.trans hkey.symm)]
        apply hdiffers
    . next hkey' =>
      apply refresh_of_key_ne
      simpa using hkey'
  have hnew : newRows db (es ++ [e]) = newRows db es := by
    apply newRows_concat_of_known
    apply Or.inl
    rw [← hkey]
    apply key_mem_keys ht
  exact {
    isPrefix := h.isPrefix.trans (List.prefix_append es [e])
    db_eq := h.db_eq
    added_eq := by
      rw [hnew]
      apply h.added_eq
    currentTles_eq := by
      dsimp
      rw [h.currentTles_eq, List.map_map]
      apply List.map_congr_left
      intro t' ht'
      rw [List.mem_filter] at ht'
      rw [List.foldl_concat, hrefresh t' ht'.left]
      simp
    mem_allEpochs := by
      rw [hnew]
      apply h.mem_allEpochs
    mem_addedThisRun := by
      rw [hnew]
      apply h.mem_addedThisRun
    mem_currentNoradIds := by
      rw [hnew]
      apply h.mem_currentNoradIds
    mem_retire := h.mem_retire
    foldl_eq_of_not_dirty := by
      intro t' ht' hcurrent' hdirty
      rw [Finset.mem_insert, not_or] at hdirty
      rw [List.foldl_concat, hrefresh t' ht', if_neg hdirty.left]
      apply h.foldl_eq_of_not_dirty t' ht' hcurrent' hdirty.right
  }

theorem store_new (h : Tracks db done es s)
    (hstay : ∀ t ∈ db, t.isCurrent → refresh (es.foldl refresh t) e = es.foldl refresh t)
    (hkey : e.key ∉ keys db) (hnorad : e.noradId ∉ noradIds (newRows db es))
    (batchPending : Nat) (counts : Counts)
    : Tracks db done (es ++ [e]) { s with
        retireThisBatch :=
          if e.noradId ∈ s.currentNoradIds then s.retireThisBatch ++ [e.noradId]
          else s.retireThisBatch
        currentNoradIds := s.currentNoradIds.erase e.noradId
        added := s.added ++ [e.toTLE]
        allEpochs := insert e.key s.allEpochs
        addedThisRun := insert e.noradId s.addedThisRun
        batchPending
        counts } := by
  have hnew := newRows_concat_of_unknown hkey hnorad
  have hkeys : keys [e.toTLE] = [e.key] := rfl
  have hids : noradIds [e.toTLE] = [e.noradId] := rfl
  exact {
    isPrefix := h.isPrefix.trans (List.prefix_append es [e])
    db_eq := h.db_eq
    added_eq := by
      rw [hnew, h.added_eq, List.append_assoc]
    currentTles_eq := h.currentTles_eq_concat hstay
    mem_allEpochs := by
      intro k
      dsimp
      rw [Finset.mem_insert, h.mem_allEpochs, hnew, keys_append, hkeys, List.mem_append,
        List.mem_singleton]
      tauto
    mem_addedThisRun := by
      intro n
      dsimp
      rw [Finset.mem_insert, h.mem_addedThisRun, hnew, noradIds_append, hids, List.mem_append,
        List.mem_singleton]
      tauto
    mem_currentNoradIds := by
      intro n
      dsimp
      rw [Finset.mem_erase, h.mem_currentNoradIds, hnew, noradIds_append, hids, List.mem_append,
        List.mem_singleton]
      tauto
    mem_retire := by
      intro n
      dsimp
      have hcurrent := h.mem_currentNoradIds e.noradId
      rw [noradIds_append, hids, List.mem_append, List.mem_singleton]
      split
      . next hmem =>
        rw [List.mem_append, List.mem_singleton, h.mem_retire]
        have := (hcurrent.mp hmem).left
        grind
      . next hmem =>
        rw [h.mem_retire]
        grind
    foldl_eq_of_not_dirty := by
      intro t ht hcurrent hdirty
      apply h.foldl_eq_concat hstay ht hcurrent hdirty
  }

theorem store (h : Tracks db done es s) (hkeys : (keys db).Nodup) (e : Entry)
    : Tracks db done (es ++ [e]) (store s e) := by
  unfold TLEFetcher.store
  split
  . next tleObj hfind =>
    obtain ⟨t, ht, _, hkey, rfl⟩ := h.find?_eq_some hfind
    split
    . next hdiffers =>
      apply h.store_update hkeys ht hkey hdiffers
    . next hdiffers =>
      apply h.concat_of_unchanged
      . intro t' ht' hcurrent'
        by_cases hkey' : t'.key = e.key
        . rw [eq_of_key_eq hkeys ht' ht (hkey'.trans hkey.symm)]
          apply refresh_of_not_differs hdiffers
        . apply refresh_of_key_ne
          simpa using hkey'
      . apply newRows_concat_of_known
        apply Or.inl
        rw [← hkey]
        apply key_mem_keys ht
  . next hfind =>
    have hstay : ∀ t ∈ db, t.isCurrent → refresh (es.foldl refresh t) e = es.foldl refresh t := by
      intro t ht hcurrent
      apply refresh_of_key_ne
      simpa using h.find?_eq_none hfind ht hcurrent
    split
    . next hepoch =>
      rw [h.mem_allEpochs] at hepoch
      apply h.concat_of_unchanged hstay
      apply newRows_concat_of_known
      apply hepoch.imp_right noradId_mem_of_key_mem
    . next hepoch =>
      rw [h.mem_allEpochs, not_or] at hepoch
      split
      . next hadded =>
        rw [h.mem_addedThisRun] at hadded
        apply h.concat_of_unchanged hstay
        apply newRows_concat_of_known
        apply Or.inr hadded
      . next hadded =>
        rw [h.mem_addedThisRun] at hadded
        apply h.store_new hstay hepoch.left hadded

theorem writeDirty_old (h : Tracks db done es s) (hkeys : (keys db).Nodup) {t : TLE} (ht : t ∈ db)
    (hcurrent : t.isCurrent = false)
    : writeDirty s.currentTles s.dirty
          (retire s.retireThisBatch (supersede (newRows db done) (refreshed done t)))
        =
      supersede (newRows db es) (refreshed es t) := by
  have hold : ∀ es, supersede (newRows db es) (refreshed es t) = t := by
    intro es
    unfold supersede refreshed
    rw [hcurrent]
    simp only [Bool.false_eq_true, ↓reduceIte, hcurrent, Bool.false_and]
    rw [← hcurrent]
  rw [hold, hold]
  unfold retire
  simp only [hcurrent, Bool.false_eq_true, and_false, ↓reduceIte]
  unfold writeDirty
  split
  . split
    . next tleObj hfind =>
      obtain ⟨t', ht', hcurrent', hkey, _⟩ := h.find?_eq_some hfind
      rw [eq_of_key_eq hkeys ht' ht hkey, hcurrent] at hcurrent'
      simp at hcurrent'
    . rfl
  . rfl

theorem writeDirty_current (h : Tracks db done es s) (hkeys : (keys db).Nodup) {t : TLE}
    (ht : t ∈ db) (hcurrent : t.isCurrent = true)
    : writeDirty s.currentTles s.dirty
          (retire s.retireThisBatch (supersede (newRows db done) (refreshed done t)))
        =
      supersede (newRows db es) (refreshed es t) := by
  have hrefreshed : ∀ es, refreshed es t = es.foldl refresh t := by
    intro es
    unfold refreshed
    rw [if_pos hcurrent]
  have hretire : retire s.retireThisBatch (supersede (newRows db done) (done.foldl refresh t))
      = supersede (newRows db es) (done.foldl refresh t) := by
    have hmem := h.mem_retire t.noradId
    have hids : t.noradId ∈ currentIds db := by
      apply noradId_mem_noradIds
      simp [ht, hcurrent]
    have hadded : t.noradId ∈ noradIds (newRows db es)
        ↔ t.noradId ∈ noradIds (newRows db done) ∨ t.noradId ∈ noradIds s.added := by
      rw [h.added_eq, noradIds_append, List.mem_append]
    unfold retire supersede
    simp only [foldl_refresh_noradId, foldl_refresh_isCurrent, hcurrent, Bool.true_and]
    grind
  rw [hrefreshed, hrefreshed, hretire]
  unfold writeDirty
  have hkey : (supersede (newRows db es) (done.foldl refresh t)).key = t.key :=
    foldl_refresh_key done t
  rw [hkey]
  split
  . rw [h.find?_key hkeys ht hcurrent]
    have h1 := foldl_refresh_key done t
    have h2 := foldl_refresh_key es t
    unfold TLE.key at h1 h2
    unfold supersede
    simp only [Prod.mk.injEq] at h1 h2
    simp [h1, h2]
  . next hdirty =>
    rw [h.foldl_eq_of_not_dirty t ht hcurrent hdirty]

theorem writeBatch_db (h : Tracks db done es s) (hkeys : (keys db).Nodup)
    : (writeBatch s).db = ingest db es := by
  have hnew : ∀ w ∈ newRows db done,
      writeDirty s.currentTles s.dirty (retire s.retireThisBatch w) = w := by
    intro w hw
    have hretire : retire s.retireThisBatch w = w := by
      unfold retire
      rw [if_neg]
      rw [h.mem_retire]
      have := not_mem_of_newRows_eq_append h.added_eq hw
      tauto
    rw [hretire]
    unfold writeDirty
    split
    . split
      . next tleObj hfind =>
        obtain ⟨t, ht, _, hkey, _⟩ := h.find?_eq_some hfind
        exfalso
        apply key_not_mem_of_mem_newRows hw
        rw [← hkey]
        apply key_mem_keys ht
      . rfl
    . rfl
  have hold : ∀ t ∈ db,
      writeDirty s.currentTles s.dirty
          (retire s.retireThisBatch (supersede (newRows db done) (refreshed done t)))
        =
      supersede (newRows db es) (refreshed es t) := by
    intro t ht
    cases hcurrent : t.isCurrent with
    | false => apply h.writeDirty_old hkeys ht hcurrent
    | true => apply h.writeDirty_current hkeys ht hcurrent
  have hretire : ∀ xs : List TLE,
      (if s.retireThisBatch = [] then xs else xs.map (retire s.retireThisBatch))
        = xs.map (retire s.retireThisBatch) := by
    intro xs
    split
    . next hnil =>
      have : retire [] = id := by
        funext t
        simp [retire]
      simp [hnil, this]
    . rfl
  unfold writeBatch
  dsimp
  rw [hretire, h.db_eq]
  have hrest : ingest db es
      = db.map (fun t => supersede (newRows db es) (refreshed es t)) ++ newRows db done ++ s.added := by
    unfold ingest
    rw [List.append_assoc, ← h.added_eq]
  rw [hrest]
  unfold ingest
  rw [List.map_append, List.map_append, List.map_map, List.map_map, List.map_map]
  congr 2
  . apply List.map_congr_left
    apply hold
  . conv_rhs => rw [← List.map_id (newRows db done)]
    apply List.map_congr_left
    apply hnew

theorem writeBatch (h : Tracks db done es s) (hkeys : (keys db).Nodup)
    : Tracks db es es { writeBatch s with retireThisBatch := [], batchPending := 0 } where
  isPrefix := List.prefix_refl _
  db_eq := h.writeBatch_db hkeys
  added_eq := by simp [TLEFetcher.writeBatch]
  currentTles_eq := h.currentTles_eq
  mem_allEpochs := h.mem_allEpochs
  mem_addedThisRun := h.mem_addedThisRun
  mem_currentNoradIds := h.mem_currentNoradIds
  mem_retire := by simp [TLEFetcher.writeBatch, noradIds]
  foldl_eq_of_not_dirty := by simp

end Tracks

end

section loop

variable (refused : TLE → Bool) (validator : TLEValidator)

def entries (ts : List Triplet) : List Entry :=
  ts.filterMap fun t =>
    match parseTriplet validator t with
    | some (.entry e) => some e
    | _ => none

def flushes (s : State) (t : Triplet) : Bool :=
  match parseTriplet validator t with
  | some (.entry e) => batchSize ≤ (store s e).batchPending
  | _ => false

/-- The entries that are committed after the rounds for `ts`: those up to the last flush. -/
def committed (s : State) (done es : List Entry) (ts : List Triplet) : List Entry :=
  match ts with
  | [] => done
  | t :: ts =>
    match step refused validator s t with
    | some s' =>
      let es' := es ++ entries validator [t]
      committed s' (if flushes validator s t then es' else done) es' ts
    | none => done

def stateOf (res : Except State State) : State :=
  match res with
  | .ok s | .error s => s

variable {refused} {validator} {done es : List Entry} {s : State} {ts : List Triplet}

theorem eq_writeBatch {s' : State} (h : flushBatch refused s = some s') : s' = writeBatch s := by
  unfold flushBatch at h
  split at h
  . cases h
  . exact (Option.some.inj h).symm

theorem Tracks.counts (h : Tracks db done es s) (counts : Counts)
    : Tracks db done es { s with counts } :=
  { h with }

theorem Tracks.step (h : Tracks db done es s) (hkeys : (keys db).Nodup) {t : Triplet} {s' : State}
    (hstep : step refused validator s t = some s')
    : Tracks db
        (if flushes validator s t then es ++ entries validator [t] else done)
        (es ++ entries validator [t]) s' := by
  unfold TLEFetcher.step at hstep
  unfold flushes entries
  rw [Option.bind_eq_bind, Option.bind_eq_some_iff] at hstep
  obtain ⟨parsed, hparsed, hstep⟩ := hstep
  simp only [hparsed, List.filterMap_cons, List.filterMap_nil]
  cases parsed with
  | blank =>
    cases hstep
    simpa using h.counts _
  | invalid =>
    cases hstep
    simpa using h.counts _
  | entry e =>
    dsimp at hstep ⊢
    have hstore := h.store hkeys e
    split at hstep
    . next hpending =>
      rw [Option.bind_eq_some_iff] at hstep
      obtain ⟨_, hflush, hstep⟩ := hstep
      cases hstep
      simp only [hpending, decide_true, ↓reduceIte, eq_writeBatch hflush]
      apply hstore.writeBatch hkeys
    . next hpending =>
      cases hstep
      simp only [hpending, decide_false, Bool.false_eq_true, ↓reduceIte]
      apply hstore

theorem entries_cons (t : Triplet) (ts : List Triplet)
    : entries validator (t :: ts) = entries validator [t] ++ entries validator ts := by
  unfold entries
  rw [← List.filterMap_append]
  rfl

theorem Tracks.loop (h : Tracks db done es s) (refused : TLE → Bool) (validator : TLEValidator)
    (hkeys : (keys db).Nodup) (ts : List Triplet)
    : ∃ es', Tracks db (committed refused validator s done es ts) es'
          (stateOf (loop refused validator s ts))
        ∧
      es' <+: es ++ entries validator ts
        ∧
      ∀ s', TLEFetcher.loop refused validator s ts = .ok s' → es' = es ++ entries validator ts := by
  induction ts generalizing done es s with
  | nil =>
    refine ⟨es, h, ?_, ?_⟩
    . simp [entries]
    . simp [entries]
  | cons t ts ih =>
    unfold TLEFetcher.loop committed
    cases hstep : TLEFetcher.step refused validator s t with
    | none =>
      refine ⟨es, h, ?_, ?_⟩
      . apply List.prefix_append
      . simp
    | some s' =>
      dsimp
      rw [entries_cons t ts, ← List.append_assoc]
      apply ih (h.step hkeys hstep)

theorem loop_append (s : State) (ts ts' : List Triplet)
    : loop refused validator s (ts ++ ts')
        =
      match loop refused validator s ts with
      | .ok s' => loop refused validator s' ts'
      | .error s' => .error s' := by
  induction ts generalizing s with
  | nil => rfl
  | cons t ts ih =>
    simp only [List.cons_append, TLEFetcher.loop]
    cases step refused validator s t with
    | none => rfl
    | some s' => apply ih

end loop

section execution

variable (refused : TLE → Bool) (validator : TLEValidator) (db : List TLE) (text : List Char)

theorem parseAndStore_eq (hkeys : (keys db).Nodup) {db' : List TLE} {counts : Counts}
    (h : parseAndStore refused validator db text = .ok (db', counts))
    : db' = ingest db (entries validator (triplets (splitlines text))) := by
  obtain ⟨es', htracks, _, hall⟩ :=
    (tracks_prefetch db).loop refused validator hkeys (triplets (splitlines text))
  unfold parseAndStore at h
  split at h
  . next s hloop =>
    split at h
    next s' hflush =>
      cases h
      rw [eq_writeBatch hflush]
      rw [hloop] at htracks
      have hcommit := htracks.writeBatch_db hkeys
      rw [hall s hloop, List.nil_append] at hcommit
      apply hcommit
    next => cases h
  . cases h

theorem parseAndStoreFailing_eq (hkeys : (keys db).Nodup) (rounds : Nat)
    : parseAndStoreFailing refused validator db text rounds
        =
      ingest db
        (committed refused validator (prefetch db) [] [] ((triplets (splitlines text)).take rounds)) := by
  obtain ⟨es', htracks, _, _⟩ := (tracks_prefetch db).loop refused validator hkeys
    ((triplets (splitlines text)).take rounds)
  rw [← htracks.db_eq]
  unfold parseAndStoreFailing stateOf
  cases loop refused validator (prefetch db) ((triplets (splitlines text)).take rounds) <;> rfl

theorem committed_isPrefix (hkeys : (keys db).Nodup) (rounds : Nat)
    : committed refused validator (prefetch db) [] [] ((triplets (splitlines text)).take rounds)
        <+:
      entries validator (triplets (splitlines text)) := by
  obtain ⟨es', htracks, hpre, _⟩ := (tracks_prefetch db).loop refused validator hkeys
    ((triplets (splitlines text)).take rounds)
  apply htracks.isPrefix.trans
  apply hpre.trans
  rw [List.nil_append]
  apply List.IsPrefix.filterMap
  apply List.take_prefix

end execution

structure Kept (db db' : List TLE) : Prop where
  uniqueKey : (keys db').Nodup
  oneCurrent : ∀ n, (currentIds db').count n ≤ 1
  current : ∀ n ∈ currentIds db, (currentIds db').count n = 1

theorem ingest_kept (hkeys : (keys db).Nodup) (hcurrent : (currentIds db).Nodup) (es : List Entry)
    : Kept db (ingest db es) where
  uniqueKey := nodup_keys_ingest es hkeys
  oneCurrent := by
    rw [← List.nodup_iff_count_le_one]
    apply nodup_currentIds_ingest es hcurrent
  current := by
    intro n hn
    apply List.count_eq_one_of_mem
    . apply nodup_currentIds_ingest es hcurrent
    . apply currentIds_subset_ingest es hn

/-- Every commit of an execution keeps one current row for each satellite that had one. -/
theorem parseAndStore_kept (refused : TLE → Bool) (validator : TLEValidator) (text : List Char)
    (hkeys : (keys db).Nodup) (hcurrent : ∀ n, (currentIds db).count n ≤ 1)
    : (∀ rounds, Kept db (parseAndStoreFailing refused validator db text rounds))
        ∧
      ∀ db' counts, parseAndStore refused validator db text = .ok (db', counts) → Kept db db' := by
  rw [← List.nodup_iff_count_le_one] at hcurrent
  constructor
  . intro rounds
    rw [parseAndStoreFailing_eq refused validator db text hkeys]
    apply ingest_kept hkeys hcurrent
  . intro db' counts h
    rw [parseAndStore_eq refused validator db text hkeys h]
    apply ingest_kept hkeys hcurrent

def issDay1 : List Char :=
  "1 25544U 98067A   24001.50000000  .00016717  00000-0  10270-3 0  9009".toList

def issDay2 : List Char :=
  "1 25544U 98067A   24002.50000000  .00016717  00000-0  10270-3 0  9000".toList

def issLine2 : List Char :=
  "2 25544  51.6416 208.9163 0006317  69.9862  25.2906 15.49815353432570".toList

def issHash1 : List Char :=
  "7e814921e20cd7a8105e20e7dd3327937b459131fdcf13961ee5c868cbdeb8d8".toList

def issHash2 : List Char :=
  "332a14f0de0febf4e602b413445eae4b250a22957bfc382a2ab862eba073879d".toList

def issValidator : TLEValidator where
  validatePair _ line1 line2 := some (line1 ∈ [issDay1, issDay2] ∧ line2 = issLine2)
  extractNoradId line1 := some (if line1 ∈ [issDay1, issDay2] then some 25544 else none)
  extractEpoch line1 :=
    some (if line1 = issDay1 then some 1704110400000000
      else if line1 = issDay2 then some 1704196800000000
      else none)
  computePairHash line1 _ := some (if line1 = issDay1 then issHash1 else issHash2)

def issName : List Char := "ISS (ZARYA)".toList

def issRow1 : TLE where
  noradId := 25544
  name := some issName
  line1 := issDay1
  line2 := issLine2
  epoch := 1704110400000000
  checksum := some issHash1

def issFeed : List Char :=
  issName ++ '\n' :: issDay1 ++ '\n' :: issLine2 ++ '\n' :: issName ++ '\n' :: issDay2 ++ '\n' :: issLine2

theorem parseAndStore_kept_iss
    : (∀ rounds, Kept [issRow1]
          (parseAndStoreFailing TLE.refused issValidator [issRow1] issFeed rounds))
        ∧
      ∀ db' counts, parseAndStore TLE.refused issValidator [issRow1] issFeed = .ok (db', counts)
        → Kept [issRow1] db' := by
  apply parseAndStore_kept
  . decide +kernel
  . rw [← List.nodup_iff_count_le_one]
    decide +kernel

end TLEFetcher
end SdaSystem
