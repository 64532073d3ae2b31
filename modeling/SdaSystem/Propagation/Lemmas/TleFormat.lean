import SdaSystem.Ingestion.Lemmas.Corrupt
import SdaSystem.Propagation.Impl.TleFormat

open PyNumber

namespace SdaSystem
namespace SGP4Engine

open TLEFetcher
open Validator

section columns

variable {line : List Char}

theorem columns_append {i j k : Nat} (hij : i ≤ j) (hjk : j ≤ k) (hj : j ≤ line.length)
    : columns i k line = columns i j line ++ columns j k line := by
  have hsplit : line.take k = line.take j ++ (line.take k).drop j := by
    conv_lhs => rw [← List.take_append_drop j (line.take k), List.take_take, Nat.min_eq_left hjk]
  have hle : i ≤ (line.take j).length := by
    rw [List.length_take, Nat.min_eq_left hj]
    exact hij
  unfold columns
  conv_lhs => rw [hsplit, List.drop_append_of_le_length hle]

theorem columns_eq_cons {i k : Nat} (hik : i < k) (hi : i < line.length)
    : columns i k line = line.getD i ' ' :: columns (i + 1) k line := by
  have hlt : i < (line.take k).length := by
    rw [List.length_take]
    omega
  unfold columns
  rw [List.drop_eq_getElem_cons hlt, List.getElem_take, List.getD_eq_getElem?_getD,
    List.getElem?_eq_getElem hi, Option.getD_some]

end columns

section epoch

variable {year day : List Char} {x : Rat}

theorem rdropWhile_ne_nil (h : float isSpace (strip day) = some (.finite x))
    : day.rdropWhile isSpace ≠ [] := by
  intro hnil
  rw [List.rdropWhile_eq_nil_iff] at hnil
  have hstrip : strip day = [] := by
    have hdrop : day.dropWhile isSpace = [] := List.dropWhile_eq_nil_iff.mpr hnil
    rw [strip_eq, hdrop]
    rfl
  rw [hstrip] at h
  cases h

theorem float_epoch_iff {c : Char} (hyear : year ≠ []) (hdecimal : year.all isdecimal)
    (hc : c ∈ day.head?) (hx : 0 < x) (h : float isSpace (strip day) = some (.finite x))
    : (float isSpace (strip (year ++ day))).isSome ↔ isSpace c = false ∧ c ≠ '+' := by
  have hne := rdropWhile_ne_nil h
  have hjoined : strip (year ++ day) = year ++ day.rdropWhile isSpace := by
    obtain ⟨y, ys, rfl⟩ := List.exists_cons_of_ne_nil hyear
    have hy := not_isSpace_of_all_isdecimal blanks_isSpace hdecimal List.mem_cons_self
    rw [strip_eq, List.cons_append, List.dropWhile_cons_of_neg (by simp [hy]),
      ← List.cons_append, rdropWhile_append hne]
  obtain ⟨a, rest, heq⟩ := List.exists_cons_of_ne_nil hne
  have hlast : ∀ b ∈ (a :: rest).getLast?, isSpace b = false := by
    rw [← heq]
    intro b
    apply getLast?_rdropWhile
  obtain rfl : a = c := by
    have hhead := @head?_rdropWhile isSpace day a (by simp [heq])
    rw [Option.mem_def] at hhead hc
    rw [hhead] at hc
    apply Option.some.inj hc
  rw [hjoined, heq]
  constructor
  . intro hsome
    by_contra hnot
    have hcases : isSpace a ∨ a = '+' := by
      rw [Decidable.not_and_iff_not_or_not, Bool.not_eq_false, not_not] at hnot
      exact hnot
    rw [float_append_eq_none blanks_isSpace hyear hdecimal hcases hlast] at hsome
    cases hsome
  . intro ha
    have hstrip : strip day = a :: rest := by
      obtain ⟨t, rfl⟩ : ∃ t, day = a :: t := by
        cases day with
        | nil => cases hc
        | cons d t => exact ⟨t, by rw [Option.some.inj hc]⟩
      rw [strip_eq, List.dropWhile_cons_of_neg (by simp [ha.left]), heq]
    rw [hstrip] at h
    apply isSome_float_append blanks_isSpace hyear hdecimal _ hlast hx h
    intro b hb
    rwa [← Option.some.inj hb]

end epoch

section lines

variable {isupper : Char → Bool} {line line1 line2 : List Char}

theorem parseLine2Elements_of_line2Ok (h : Line2Ok isupper line)
    : (∃ elements, parseLine2Elements line = some elements)
        ↔
      (float isSpace (columns 63 68 line)).isSome := by
  have hlen := h.shape.left
  obtain ⟨inclination, hincl, _⟩ := h.before.inclination
  obtain ⟨raan, hraan, _⟩ := h.before.raan
  obtain ⟨eccentricity, hecc, _⟩ := h.after.eccentricity
  obtain ⟨argPerigee, hargp, _⟩ := h.after.argPerigee
  obtain ⟨meanAnomaly, hma, _⟩ := h.after.meanAnomaly
  obtain ⟨meanMotion, hmm, _⟩ := h.after.meanMotion
  unfold parseLine2Elements
  rw [if_neg (not_not.mpr hlen), hincl, hraan, hecc, hargp, hma, hmm]
  cases float isSpace (columns 63 68 line) with
  | none => simp
  | some rev => simp

theorem validateTleFormat_of_ok (h1 : Line1Ok isupper line1) (h2 : Line2Ok isupper line2)
    (hstrip1 : strip line1 = line1) (hstrip2 : strip line2 = line2)
    : validateTleFormat line1 line2 = none
        ↔
      columns 2 7 line1 = columns 2 7 line2
        ∧ isSpace (line1.getD 20 ' ') = false ∧ line1.getD 20 ' ' ≠ '+' := by
  obtain ⟨hlen1, hfirst1, _⟩ := h1.shape
  obtain ⟨hlen2, hfirst2, _⟩ := h2.shape
  have hdecimal := (all_isdecimal_iff h1.fields.epochYear).mpr (not_hasStray_year h1)
  have hne := (of_decide_eq_true h1.fields.epochYear).left
  obtain ⟨x, hday, hx, _⟩ := finite_day h1
  have hlt : 20 < line1.length := by simp [hlen1, tleLineLength]
  have hhead : line1.getD 20 ' ' ∈ (columns 20 32 line1).head? := by
    rw [columns_eq_cons (by decide) hlt]
    rfl
  have hepoch := float_epoch_iff hne hdecimal hhead (by linarith) hday
  rw [← columns_append (by decide) (by decide) (le_of_lt hlt)] at hepoch
  unfold validateTleFormat
  dsimp only
  rw [hstrip1, hstrip2, if_neg (by simpa [tleLineLength] using hlen1),
    if_neg (by simpa [tleLineLength] using hlen2), if_neg (not_not.mpr hfirst1),
    if_neg (not_not.mpr hfirst2), ← hepoch]
  by_cases hnumber : columns 2 7 line1 = columns 2 7 line2
  . rw [if_neg (not_not.mpr hnumber), and_iff_right hnumber]
    cases float isSpace (strip (columns 18 32 line1)) with
    | none => simp
    | some epoch => simp
  . rw [if_pos hnumber]
    simp [hnumber]

/--
What the validator accepts is taken by the other readers unless the lines write the satellite number
differently, the day is padded on the left, or the number of the revolution, which the validator
does not look at, is not a number.
-/
theorem parsers_agree_iff (isupper : Char → Bool) (name line1 line2 : List Char)
    (h : validatePair isupper (strip name) (strip line1) (strip line2) = some none)
    : ((∃ noradId, extractNoradId isupper (strip line1) = some (some noradId))
          ∧ (∃ epoch, extractEpoch (strip line1) = some epoch)
          ∧ (∃ elements, parseLine2Elements (strip line2) = some elements)
          ∧ validateTleFormat (strip line1) (strip line2) = none)
        ↔
      (columns 2 7 (strip line1) = columns 2 7 (strip line2)
        ∧ (isSpace ((strip line1).getD 20 ' ') = false ∧ (strip line1).getD 20 ' ' ≠ '+')
        ∧ (float isSpace (columns 63 68 (strip line2))).isSome) := by
  obtain ⟨h1, h2, _⟩ := validatePair_eq_some_none.mp h
  rw [rstripCr_strip] at h1 h2
  have hnorad := extractNoradId_of_line1Ok h1
  have hepoch := extractEpoch_of_line1Ok h1
  rw [parseLine2Elements_of_line2Ok h2,
    validateTleFormat_of_ok h1 h2 (strip_strip line1) (strip_strip line2)]
  tauto

theorem parsers_agree_iff_iss
    : ((∃ noradId, extractNoradId Char.isUpper (strip issDay2) = some (some noradId))
          ∧ (∃ epoch, extractEpoch (strip issDay2) = some epoch)
          ∧ (∃ elements, parseLine2Elements (strip issLine2) = some elements)
          ∧ validateTleFormat (strip issDay2) (strip issLine2) = none)
        ↔
      (columns 2 7 (strip issDay2) = columns 2 7 (strip issLine2)
        ∧ (isSpace ((strip issDay2).getD 20 ' ') = false ∧ (strip issDay2).getD 20 ' ' ≠ '+')
        ∧ (float isSpace (columns 63 68 (strip issLine2))).isSome) := by
  apply parsers_agree_iff Char.isUpper issName issDay2 issLine2
  decide +kernel

/-- The validator accepts a day of the year that is padded with blanks, and the engine does not. -/
theorem padded_day_disagrees
    : ¬ ∀ (isupper : Char → Bool) (name line1 line2 : List Char),
        validatePair isupper (strip name) (strip line1) (strip line2) = some none
          → (∃ noradId, extractNoradId isupper (strip line1) = some (some noradId))
            ∧ (∃ epoch, extractEpoch (strip line1) = some epoch)
            ∧ (∃ elements, parseLine2Elements (strip line2) = some elements)
            ∧ validateTleFormat (strip line1) (strip line2) = none := by
  intro h
  let line1 := "1 25544U 98067A   24  1.50000000  .00016717  00000-0  10270-3 0  9009".toList
  obtain ⟨_, _, _, hformat⟩ := h Char.isUpper issName line1 issLine2 (by decide +kernel)
  have hfail : validateTleFormat (strip line1) (strip issLine2) ≠ none := by decide +kernel
  exact hfail hformat

end lines

end SGP4Engine
end SdaSystem
