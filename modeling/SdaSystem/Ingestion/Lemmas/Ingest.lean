import SdaSystem.Ingestion.Impl.Fetcher

/-!
What the ingestion of a feed is for, as a function on tables that knows of no session and no batch:
every row that was current takes the last content that differs from what it has, every satellite gets
at most one new row, and a satellite with a new row loses its old current rows.
-/

namespace SdaSystem
namespace TLEFetcher

def keys (db : List TLE) : List (Int × Int) :=
  db.map (·.key)

def noradIds (db : List TLE) : List Int :=
  db.map (·.noradId)

def currentIds (db : List TLE) : List Int :=
  noradIds (db.filter (·.isCurrent))

def refresh (t : TLE) (e : Entry) : TLE :=
  if t.key = e.key ∧ differs t e then update t e else t

def refreshed (es : List Entry) (t : TLE) : TLE :=
  if t.isCurrent then es.foldl refresh t else t

/-- An entry is new if its key is not stored, and no entry before it added a row for its satellite. -/
def addNew (db new : List TLE) (e : Entry) : List TLE :=
  if e.key ∈ keys db ∨ e.noradId ∈ noradIds new then new else new ++ [e.toTLE]

def newRows (db : List TLE) (es : List Entry) : List TLE :=
  es.foldl (addNew db) []

def supersede (new : List TLE) (t : TLE) : TLE :=
  { t with isCurrent := t.isCurrent && t.noradId ∉ noradIds new }

def ingest (db : List TLE) (es : List Entry) : List TLE :=
  db.map (fun t => supersede (newRows db es) (refreshed es t)) ++ newRows db es

section rows

variable {db : List TLE}

theorem keys_append (db db' : List TLE) : keys (db ++ db') = keys db ++ keys db' := by
  apply List.map_append

theorem noradIds_append (db db' : List TLE) : noradIds (db ++ db') = noradIds db ++ noradIds db' := by
  apply List.map_append

theorem key_mem_keys {t : TLE} (ht : t ∈ db) : t.key ∈ keys db := by
  apply List.mem_map_of_mem ht

theorem noradId_mem_noradIds {t : TLE} (ht : t ∈ db) : t.noradId ∈ noradIds db := by
  apply List.mem_map_of_mem ht

theorem noradId_mem_of_key_mem {k : Int × Int} (h : k ∈ keys db) : k.1 ∈ noradIds db := by
  obtain ⟨t, ht, rfl⟩ := List.mem_map.mp h
  apply noradId_mem_noradIds ht

end rows

section refresh

variable {t : TLE}

theorem refresh_of_key_ne {e : Entry} (h : t.key ≠ e.key) : refresh t e = t := by
  unfold refresh
  simp [h]

theorem refresh_of_differs {e : Entry} (hkey : t.key = e.key) (h : differs t e)
    : refresh t e = update t e := by
  unfold refresh
  rw [if_pos ⟨hkey, h⟩]

theorem refresh_of_not_differs {e : Entry} (h : ¬ differs t e) : refresh t e = t := by
  unfold refresh
  simp [h]

@[simp]
theorem refresh_key (t : TLE) (e : Entry) : (refresh t e).key = t.key := by
  unfold refresh
  split <;> rfl

@[simp]
theorem refresh_noradId (t : TLE) (e : Entry) : (refresh t e).noradId = t.noradId := by
  unfold refresh
  split <;> rfl

@[simp]
theorem refresh_isCurrent (t : TLE) (e : Entry) : (refresh t e).isCurrent = t.isCurrent := by
  unfold refresh
  split <;> rfl

@[simp]
theorem foldl_refresh_key (es : List Entry) (t : TLE) : (es.foldl refresh t).key = t.key := by
  induction es generalizing t with
  | nil => rfl
  | cons e es ih => simp [ih]

@[simp]
theorem foldl_refresh_noradId (es : List Entry) (t : TLE)
    : (es.foldl refresh t).noradId = t.noradId := by
  induction es generalizing t with
  | nil => rfl
  | cons e es ih => simp [ih]

@[simp]
theorem foldl_refresh_isCurrent (es : List Entry) (t : TLE)
    : (es.foldl refresh t).isCurrent = t.isCurrent := by
  induction es generalizing t with
  | nil => rfl
  | cons e es ih => simp [ih]

@[simp]
theorem refreshed_key (es : List Entry) (t : TLE) : (refreshed es t).key = t.key := by
  unfold refreshed
  split <;> simp

@[simp]
theorem refreshed_noradId (es : List Entry) (t : TLE) : (refreshed es t).noradId = t.noradId := by
  unfold refreshed
  split <;> simp

@[simp]
theorem refreshed_isCurrent (es : List Entry) (t : TLE)
    : (refreshed es t).isCurrent = t.isCurrent := by
  unfold refreshed
  split <;> simp

def tag (t : TLE) : Option (List Char) × Option (List Char) :=
  (t.name, t.checksum)

def Entry.tag (e : Entry) : Option (List Char) × Option (List Char) :=
  (some e.name, some e.pairHash)

theorem differs_iff {e : Entry} : differs t e ↔ tag t ≠ e.tag := by
  unfold differs tag Entry.tag
  simp only [decide_eq_true_eq, ne_eq, Prod.mk.injEq]
  tauto

theorem tag_refresh {e : Entry} (h : t.key = e.key) : tag (refresh t e) = e.tag := by
  unfold refresh
  split
  . rfl
  . next hsame =>
    rw [differs_iff] at hsame
    by_contra hne
    apply hsame ⟨h, hne⟩

theorem tag_foldl_refresh_eq {t t' : TLE} (hkey : t.key = t'.key) (es : List Entry)
    : es.foldl refresh t = t ∨ tag (es.foldl refresh t) = tag (es.foldl refresh t') := by
  induction es using List.reverseRecOn with
  | nil => exact Or.inl rfl
  | append_singleton es e ih =>
    simp only [List.foldl_concat]
    by_cases h : t.key = e.key
    . apply Or.inr
      rw [tag_refresh (by simpa using h), tag_refresh (by simpa [← hkey] using h)]
    . rw [refresh_of_key_ne (by simpa using h), refresh_of_key_ne (by simpa [← hkey] using h)]
      apply ih

theorem update_eq_of_key_eq {t t' : TLE} {e : Entry} (hkey : t.key = t'.key)
    (hcurrent : t.isCurrent = t'.isCurrent) : update t e = update t' e := by
  unfold TLE.key at hkey
  unfold update
  simp only [Prod.mk.injEq] at hkey
  simp [hkey.left, hkey.right, hcurrent]

theorem foldl_refresh_foldl_refresh (es : List Entry) (t : TLE)
    : es.foldl refresh (es.foldl refresh t) = es.foldl refresh t := by
  induction es using List.reverseRecOn generalizing t with
  | nil => rfl
  | append_singleton es e ih =>
    simp only [List.foldl_concat]
    have ih := ih t
    generalize es.foldl refresh t = q at ih ⊢
    by_cases hkey : q.key = e.key
    . by_cases hdiff : differs q e
      . rw [refresh_of_differs hkey hdiff]
        have hupdate : (update q e).key = q.key := rfl
        cases tag_foldl_refresh_eq hupdate es with
        | inl heq =>
          rw [heq, refresh_of_not_differs]
          rw [differs_iff]
          intro hne
          apply hne rfl
        | inr htag =>
          -- the pass ends with the tag of `q`, so `e` is a change again
          rw [ih] at htag
          rw [refresh_of_differs]
          . apply update_eq_of_key_eq
            . simp [hupdate]
            . rw [foldl_refresh_isCurrent]
              rfl
          . rw [foldl_refresh_key, hupdate, hkey]
          . rw [differs_iff, htag, ← differs_iff]
            apply hdiff
      . rw [refresh_of_not_differs hdiff, ih, refresh_of_not_differs hdiff]
    . rw [refresh_of_key_ne hkey, ih, refresh_of_key_ne hkey]

theorem foldl_refresh_of_isPrefix {es es' : List Entry} (h : es <+: es') (t : TLE)
    : es'.foldl refresh (es.foldl refresh t) = es'.foldl refresh t := by
  obtain ⟨rest, rfl⟩ := h
  rw [List.foldl_append, List.foldl_append, foldl_refresh_foldl_refresh]

end refresh

section newRows

variable {db : List TLE}

theorem newRows_concat (db : List TLE) (es : List Entry) (e : Entry)
    : newRows db (es ++ [e])
        =
      if e.key ∈ keys db ∨ e.noradId ∈ noradIds (newRows db es) then newRows db es
      else newRows db es ++ [e.toTLE] := by
  unfold newRows
  rw [List.foldl_concat]
  rfl

theorem newRows_concat_of_known {es : List Entry} {e : Entry}
    (h : e.key ∈ keys db ∨ e.noradId ∈ noradIds (newRows db es))
    : newRows db (es ++ [e]) = newRows db es := by
  rw [newRows_concat, if_pos h]

theorem newRows_concat_of_unknown {es : List Entry} {e : Entry} (hkey : e.key ∉ keys db)
    (hnorad : e.noradId ∉ noradIds (newRows db es))
    : newRows db (es ++ [e]) = newRows db es ++ [e.toTLE] := by
  rw [newRows_concat, if_neg (not_or.mpr ⟨hkey, hnorad⟩)]

theorem newRows_isPrefix {es es' : List Entry} (h : es <+: es') : newRows db es <+: newRows db es' := by
  obtain ⟨rest, rfl⟩ := h
  induction rest using List.reverseRecOn with
  | nil => simp
  | append_singleton rest e ih =>
    rw [← List.append_assoc, newRows_concat]
    split
    . apply ih
    . apply ih.trans
      apply List.prefix_append

theorem mem_newRows {es : List Entry} {w : TLE} (h : w ∈ newRows db es)
    : ∃ e ∈ es, e.key ∉ keys db ∧ e.toTLE = w := by
  induction es using List.reverseRecOn with
  | nil => simp [newRows] at h
  | append_singleton es e ih =>
    rw [newRows_concat] at h
    split at h
    . have := ih h
      grind
    . next hnew =>
      rw [List.mem_append, List.mem_singleton] at h
      rw [not_or] at hnew
      cases h with
      | inl h =>
        have := ih h
        grind
      | inr h => exact ⟨e, by simp, hnew.left, h.symm⟩

theorem key_not_mem_of_mem_newRows {es : List Entry} {w : TLE} (h : w ∈ newRows db es)
    : w.key ∉ keys db := by
  obtain ⟨e, _, hkey, rfl⟩ := mem_newRows h
  apply hkey

theorem isCurrent_of_mem_newRows {es : List Entry} {w : TLE} (h : w ∈ newRows db es)
    : w.isCurrent = true := by
  obtain ⟨e, _, _, rfl⟩ := mem_newRows h
  rfl

theorem nodup_noradIds_newRows (db : List TLE) (es : List Entry)
    : (noradIds (newRows db es)).Nodup := by
  induction es using List.reverseRecOn with
  | nil => simp [newRows, noradIds]
  | append_singleton es e ih =>
    rw [newRows_concat]
    split
    . apply ih
    . next hnew =>
      rw [not_or] at hnew
      rw [noradIds_append, List.nodup_append]
      refine ⟨ih, by simp [noradIds], ?_⟩
      intro n hn m hm heq
      simp only [noradIds, List.map_cons, List.map_nil, List.mem_singleton] at hm
      rw [heq, hm] at hn
      apply hnew.right hn

theorem noradId_mem_newRows {es : List Entry} {e : Entry} (he : e ∈ es) (hkey : e.key ∉ keys db)
    : e.noradId ∈ noradIds (newRows db es) := by
  obtain ⟨before, after, rfl⟩ := List.append_of_mem he
  have hpre : newRows db (before ++ [e]) <+: newRows db (before ++ e :: after) := by
    apply newRows_isPrefix
    simp
  have hsub : ∀ n ∈ noradIds (newRows db (before ++ [e])), n ∈ noradIds (newRows db (before ++ e :: after)) := by
    intro n hn
    apply List.map_subset _ hpre.subset hn
  apply hsub
  rw [newRows_concat]
  split
  . next h => apply h.resolve_left hkey
  . simp [noradIds, Entry.toTLE]

theorem eq_of_mem_newRows {es : List Entry} {w w' : TLE} (hw : w ∈ newRows db es)
    (hw' : w' ∈ newRows db es) (h : w.noradId = w'.noradId) : w = w' :=
  List.inj_on_of_nodup_map (nodup_noradIds_newRows db es) hw hw' h

theorem not_mem_of_newRows_eq_append {es : List Entry} {new rest : List TLE}
    (h : newRows db es = new ++ rest) {w : TLE} (hw : w ∈ new) : w.noradId ∉ noradIds rest := by
  have hnodup := nodup_noradIds_newRows db es
  rw [h, noradIds_append, List.nodup_append] at hnodup
  intro hmem
  apply hnodup.right.right _ (noradId_mem_noradIds hw) _ hmem rfl

end newRows

section ingest

variable {db : List TLE} (es : List Entry)

theorem keys_ingest (db : List TLE) : keys (ingest db es) = keys db ++ keys (newRows db es) := by
  unfold keys ingest
  rw [List.map_append, List.map_map]
  congr 1
  apply List.map_congr_left
  intro t _
  simp only [Function.comp_apply]
  apply refreshed_key es t

theorem nodup_keys_ingest (hkeys : (keys db).Nodup) : (keys (ingest db es)).Nodup := by
  rw [keys_ingest, List.nodup_append]
  refine ⟨hkeys, ?_, ?_⟩
  . apply List.Nodup.of_map Prod.fst
    have := nodup_noradIds_newRows db es
    simpa [keys, noradIds, List.map_map, Function.comp_def, TLE.key] using this
  . intro k hk k' hk' heq
    obtain ⟨w, hw, rfl⟩ := List.mem_map.mp hk'
    apply key_not_mem_of_mem_newRows hw (heq ▸ hk)

theorem currentIds_supersede (db new : List TLE)
    : currentIds (db.map fun t => supersede new (refreshed es t))
        =
      (currentIds db).filter fun n => n ∉ noradIds new := by
  unfold currentIds
  generalize hnew : noradIds new = ids
  unfold noradIds
  rw [List.filter_map, List.map_map, List.filter_map, List.filter_filter]
  simp only [supersede, Function.comp_def, refreshed_isCurrent, refreshed_noradId, hnew]
  simp only [Bool.and_comm]

theorem currentIds_ingest (db : List TLE)
    : currentIds (ingest db es)
        =
      (currentIds db).filter (fun n => n ∉ noradIds (newRows db es))
        ++ noradIds (newRows db es) := by
  have hnew : (newRows db es).filter (·.isCurrent) = newRows db es := by
    rw [List.filter_eq_self]
    intro w hw
    apply isCurrent_of_mem_newRows hw
  rw [← currentIds_supersede es db]
  unfold ingest currentIds
  rw [List.filter_append, hnew]
  apply List.map_append

theorem nodup_currentIds_ingest (hcurrent : (currentIds db).Nodup)
    : (currentIds (ingest db es)).Nodup := by
  rw [currentIds_ingest, List.nodup_append]
  refine ⟨hcurrent.filter _, nodup_noradIds_newRows db es, ?_⟩
  intro n hn m hm heq
  rw [List.mem_filter] at hn
  simp [heq, hm] at hn

theorem currentIds_subset_ingest {n : Int} (hn : n ∈ currentIds db)
    : n ∈ currentIds (ingest db es) := by
  rw [currentIds_ingest, List.mem_append, List.mem_filter]
  by_cases h : n ∈ noradIds (newRows db es)
  . exact Or.inr h
  . apply Or.inl
    simp [hn, h]

end ingest

end TLEFetcher
end SdaSystem
