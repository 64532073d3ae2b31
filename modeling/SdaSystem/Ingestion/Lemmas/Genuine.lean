import SdaSystem.Ingestion.Lemmas.Corrupt
import SdaSystem.Ingestion.Lemmas.Epochs

namespace SdaSystem
namespace TLEFetcher

open Validator

section

variable (sha256 : List Char → List Char) (isupper : Char → Bool)

structure Genuine (t : TLE) : Prop where
  line1 : Line1Ok isupper t.line1
  line2 : Line2Ok isupper t.line2
  number1 : parseSatelliteNumber isupper (columns 2 7 t.line1) = some (some t.noradId)
  number2 : parseSatelliteNumber isupper (columns 2 7 t.line2) = some (some t.noradId)
  epoch : extractEpoch t.line1 = some t.epoch
  checksum : t.checksum = some (computePairHash sha256 t.line1 t.line2)

def AllGenuine (db : List TLE) : Prop :=
  ∀ t ∈ db, Genuine sha256 isupper t

end

variable {sha256 : List Char → List Char} {isupper : Char → Bool}

theorem genuine_of_parseTriplet {name line1 line2 : List Char} {e : Entry}
    (h : parseTriplet (methods sha256 isupper) (name, strip line1, strip line2)
      = some (.entry e))
    : Genuine sha256 isupper e.toTLE := by
  unfold parseTriplet at h
  dsimp only at h
  split at h
  . cases h
  . simp only [methods, Option.bind_eq_bind, Option.bind_eq_some_iff, Option.map_eq_some_iff] at h
    obtain ⟨_, ⟨verdict, hpair, rfl⟩, h⟩ := h
    cases verdict with
    | some err => simp at h
    | none =>
      have hok := validatePair_eq_some_none.mp hpair
      rw [rstripCr_strip, rstripCr_strip] at hok
      have hsame := hok.right.right
      have hlen : ¬ (strip line1).length < 7 := by
        simp [hok.left.shape.left, tleLineLength]
      simp only [Option.isNone_none, not_true_eq_false, ↓reduceIte, Option.bind_some,
        Option.bind_eq_some_iff] at h
      obtain ⟨noradId, hnorad, h⟩ := h
      unfold extractNoradId at hnorad
      rw [if_neg hlen] at hnorad
      split at h
      . next noradId epoch hepoch =>
        cases h
        exact ⟨hok.left, hok.right.left, hnorad, hsame.symm.trans hnorad, hepoch, rfl⟩
      . cases h

theorem genuine_of_mem_entries {text : List Char} {e : Entry}
    (h : e ∈ entries (methods sha256 isupper) (triplets (splitlines text)))
    : Genuine sha256 isupper e.toTLE := by
  unfold entries at h
  obtain ⟨t, ht, he⟩ := List.mem_filterMap.mp h
  obtain ⟨name, line1, line2, rfl⟩ := stripped_of_mem_triplets ht
  split at he
  . next e' hparsed =>
    cases he
    apply genuine_of_parseTriplet hparsed
  . cases he

theorem Genuine.setCurrent {t : TLE} (h : Genuine sha256 isupper t) (isCurrent : Bool)
    : Genuine sha256 isupper { t with isCurrent } :=
  ⟨h.line1, h.line2, h.number1, h.number2, h.epoch, h.checksum⟩

theorem update_eq_toTLE {t : TLE} {e : Entry} (h : t.key = e.key)
    : update t e = { e.toTLE with isCurrent := t.isCurrent } := by
  obtain ⟨hnorad, hepoch⟩ := Prod.mk.inj h
  unfold update Entry.toTLE
  rw [hnorad, hepoch]

theorem Genuine.refresh {t : TLE} {e : Entry} (h : Genuine sha256 isupper t)
    (he : Genuine sha256 isupper e.toTLE) : Genuine sha256 isupper (refresh t e) := by
  unfold TLEFetcher.refresh
  split
  . next hrefresh =>
    rw [update_eq_toTLE hrefresh.left]
    apply he.setCurrent
  . apply h

theorem Genuine.foldl_refresh {t : TLE} {es : List Entry} (h : Genuine sha256 isupper t)
    (hes : ∀ e ∈ es, Genuine sha256 isupper e.toTLE)
    : Genuine sha256 isupper (es.foldl TLEFetcher.refresh t) := by
  induction es generalizing t with
  | nil => apply h
  | cons e es ih =>
    rw [List.foldl_cons]
    apply ih
    . apply h.refresh
      apply hes e List.mem_cons_self
    . intro e' he'
      apply hes e' (List.mem_cons_of_mem _ he')

theorem AllGenuine.ingest {db : List TLE} {es : List Entry} (h : AllGenuine sha256 isupper db)
    (hes : ∀ e ∈ es, Genuine sha256 isupper e.toTLE)
    : AllGenuine sha256 isupper (ingest db es) := by
  intro t ht
  unfold TLEFetcher.ingest at ht
  rw [List.mem_append, List.mem_map] at ht
  cases ht with
  | inl hold =>
    obtain ⟨q, hq, rfl⟩ := hold
    apply Genuine.setCurrent
    unfold refreshed
    split
    . apply (h q hq).foldl_refresh hes
    . apply h q hq
  | inr hnew =>
    obtain ⟨e, he, _, rfl⟩ := mem_newRows hnew
    apply hes e he

theorem mem_entries_of_mem_ingestedBy {refused : TLE → Bool} {validator : TLEValidator} {db : List TLE}
    (hkeys : (keys db).Nodup) {text : List Char} {a : Attempt} {e : Entry}
    (h : e ∈ ingestedBy refused validator db text a)
    : e ∈ entries validator (triplets (splitlines text)) := by
  have hcommitted := committed_isPrefix refused validator db text hkeys
  unfold ingestedBy at h
  cases a with
  | fails rounds => apply (hcommitted rounds).subset h
  | completes =>
    dsimp only at h
    split at h
    . apply h
    . apply (hcommitted (triplets (splitlines text)).length).subset
      rwa [List.take_length]

/-- No execution, on whatever feed and wherever it fails, leaves a row whose columns disagree. -/
theorem allGenuine_of_executions (sha256 : List Char → List Char) (isupper : Char → Bool)
    (refused : TLE → Bool) (db : List TLE) (hkeys : (keys db).Nodup) (h : AllGenuine sha256 isupper db)
    (executions : List (List Char × Attempt))
    : AllGenuine sha256 isupper (tableAfterAll refused (methods sha256 isupper) db executions) := by
  have hall : (keys (tableAfterAll refused (methods sha256 isupper) db executions)).Nodup
      ∧ AllGenuine sha256 isupper (tableAfterAll refused (methods sha256 isupper) db executions) := by
    induction executions using List.reverseRecOn with
    | nil => exact ⟨hkeys, h⟩
    | append_singleton before x ih =>
      rw [tableAfterAll_concat, tableAfter_eq_ingest ih.left]
      refine ⟨nodup_keys_ingest _ ih.left, ih.right.ingest ?_⟩
      intro e he
      apply genuine_of_mem_entries (mem_entries_of_mem_ingestedBy ih.left he)
  apply hall.right

theorem allGenuine_of_executions_iss
    : AllGenuine issSha256 Char.isUpper [issRow1]
        ∧
      AllGenuine issSha256 Char.isUpper
        (tableAfterAll TLE.refused (methods issSha256 Char.isUpper) [issRow1]
          [(issFeed, .fails 1), (issFeed, .completes)]) := by
  have hpair : validatePair Char.isUpper issName issDay1 issLine2 = some none := by
    decide +kernel
  have hok := validatePair_eq_some_none.mp hpair
  have hissRow1 : AllGenuine issSha256 Char.isUpper [issRow1] := by
    intro t ht
    rw [List.mem_singleton] at ht
    subst ht
    refine ⟨hok.left, hok.right.left, ?_, ?_, ?_, ?_⟩
    all_goals decide +kernel
  constructor
  . apply hissRow1
  . apply allGenuine_of_executions
    . decide +kernel
    . apply hissRow1

end TLEFetcher
end SdaSystem
