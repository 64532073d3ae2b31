import Mathlib.Tactic.NormNum
import SdaSystem.Library.PyNumber.Float

namespace PyNumber

def signedExact (s : List Char) : Option Rat :=
  match s with
  | '-' :: s => (decimalLiteral s).map fun x => -x
  | '+' :: s => decimalLiteral s
  | s => decimalLiteral s

def exact (isSpace : Char → Bool) (s : List Char) : Option Rat :=
  (dropUnderscores ' ' (trim (s.map (toAscii isSpace)))).bind signedExact

section

variable {s t : List Char} {x y : Rat}

theorem unsigned_eq_finite (h : unsigned s = some (.finite x))
    : ∃ y, decimalLiteral s = some y ∧ x = Rounding.nearest Rounding.binary64 y := by
  unfold unsigned at h
  split at h
  . next y hy =>
    refine ⟨y, hy, ?_⟩
    unfold Float.ofRat at h
    dsimp only at h
    split at h
    . cases h
    . split at h
      . cases h
      . cases h
        rfl
  . dsimp only at h
    split at h
    . cases h
    . split at h
      . cases h
      . cases h

theorem signedExact_of_not_sign (hminus : ∀ t, s ≠ '-' :: t) (hplus : ∀ t, s ≠ '+' :: t)
    : signedExact s = decimalLiteral s := by
  unfold signedExact
  split
  . next t => exact absurd rfl (hminus t)
  . next t => exact absurd rfl (hplus t)
  . rfl

theorem signed_eq_finite (h : signed s = some (.finite x))
    : ∃ y, signedExact s = some y ∧ x = Rounding.nearest Rounding.binary64 y := by
  unfold signed at h
  split at h
  . next s =>
    obtain ⟨z, hz, hneg⟩ := Option.map_eq_some_iff.mp h
    cases z with
    | nan => cases hneg
    | inf negative => cases hneg
    | finite z =>
      obtain ⟨y, hy, rfl⟩ := unsigned_eq_finite hz
      cases hneg
      exact ⟨-y, by simp [signedExact, hy], (Rounding.nearest_neg _ y).symm⟩
  . exact unsigned_eq_finite h
  . next hminus hplus =>
    rw [signedExact_of_not_sign hminus hplus]
    exact unsigned_eq_finite h

theorem float_eq_finite {isSpace : Char → Bool} (h : float isSpace s = some (.finite x))
    : ∃ y, exact isSpace s = some y ∧ x = Rounding.nearest Rounding.binary64 y := by
  unfold float at h
  obtain ⟨u, hu, hsigned⟩ := Option.bind_eq_some_iff.mp h
  obtain ⟨y, hy, hx⟩ := signed_eq_finite hsigned
  refine ⟨y, ?_, hx⟩
  unfold exact
  rw [hu]
  exact hy

theorem ofDigits_lt (h : s.all Char.isDigit) : ofDigits s < 10 ^ s.length := by
  unfold ofDigits
  induction s using List.reverseRecOn with
  | nil => decide
  | append_singleton s c ih =>
    rw [List.all_append, Bool.and_eq_true] at h
    have ih := ih h.left
    have hc := isDigit_iff.mp (by simpa using h.right : c.isDigit = true)
    rw [List.foldl_append, List.length_append, List.length_singleton, pow_succ, List.foldl_cons,
      List.foldl_nil]
    have : '0'.toNat = 48 := rfl
    omega

theorem length_fraction (s : List Char)
    : (fraction s).1.length + (fraction s).2.length + (if (fraction s).1 = [] then 0 else 1)
        ≤
      s.length := by
  unfold fraction
  split
  . next s =>
    have := congrArg List.length (List.takeWhile_append_dropWhile (p := Char.isDigit) (l := s))
    rw [List.length_append] at this
    dsimp only
    rw [List.length_cons]
    split
    . omega
    . omega
  . simp

theorem all_isDigit_fraction (s : List Char) : (fraction s).1.all Char.isDigit := by
  unfold fraction
  split
  . exact List.all_takeWhile
  . rfl

theorem decimalLiteral_eq_div (h : decimalLiteral s = some y)
    : ∃ n k : Nat, y = n / 10 ^ k ∧ (k = 0 ∨ n < 10 ^ (s.length - 1)) := by
  have hlen := congrArg List.length (List.takeWhile_append_dropWhile (p := Char.isDigit) (l := s))
  have hfrac := length_fraction (s.dropWhile Char.isDigit)
  have hdigits : (s.takeWhile Char.isDigit ++ (fraction (s.dropWhile Char.isDigit)).1).all
      Char.isDigit := by
    rw [List.all_append, List.all_takeWhile, all_isDigit_fraction]
    rfl
  unfold decimalLiteral at h
  dsimp only at h
  split at h
  . cases h
  . obtain ⟨e, he, hscale⟩ := Option.map_eq_some_iff.mp h
    generalize hwhole : s.takeWhile Char.isDigit = whole at hlen hdigits hscale
    generalize hfst : (fraction (s.dropWhile Char.isDigit)).1 = frac at hfrac hdigits hscale
    generalize hsnd : (fraction (s.dropWhile Char.isDigit)).2 = rest at hfrac he
    rw [List.length_append] at hlen
    unfold scale at hscale
    split at hscale
    . refine ⟨ofDigits (whole ++ frac) * 10 ^ (e - frac.length).toNat, 0, ?_, Or.inl rfl⟩
      rw [← hscale, pow_zero, div_one, Rat.mkRat_one]
      push_cast
      rfl
    . next hneg =>
      refine ⟨ofDigits (whole ++ frac), (-(e - frac.length)).toNat, ?_, Or.inr ?_⟩
      . rw [← hscale, Rat.mkRat_eq_div]
        push_cast
        rfl
      . apply Nat.lt_of_lt_of_le (ofDigits_lt hdigits)
        apply Nat.pow_le_pow_right (by decide)
        rw [List.length_append]
        by_cases hnil : frac = []
        . -- then it is the exponent that is negative
          have hrest : rest ≠ [] := by
            rintro rfl
            cases he
            simp [hnil] at hneg
          have := List.length_pos_iff.mpr hrest
          rw [hnil, List.length_nil] at hfrac ⊢
          omega
        . rw [if_neg hnil] at hfrac
          omega

theorem signedExact_eq_div (h : signedExact s = some y) (hy : 0 < y)
    : ∃ n k : Nat, y = n / 10 ^ k ∧ (k = 0 ∨ n < 10 ^ (s.length - 1)) := by
  unfold signedExact at h
  split at h
  . obtain ⟨z, hz, rfl⟩ := Option.map_eq_some_iff.mp h
    have := decimalLiteral_nonneg hz
    linarith
  . next t =>
    obtain ⟨n, k, hdiv, hlt⟩ := decimalLiteral_eq_div h
    refine ⟨n, k, hdiv, hlt.imp_right ?_⟩
    intro hlt
    apply Nat.lt_of_lt_of_le hlt
    apply Nat.pow_le_pow_right (by decide)
    simp
  . exact decimalLiteral_eq_div h

theorem length_trim_le (s : List Char) : (trim s).length ≤ s.length := by
  unfold trim trimBy
  rw [List.length_reverse]
  apply Nat.le_trans (List.length_dropWhile_le _ _)
  rw [List.length_reverse]
  apply List.length_dropWhile_le

theorem length_dropUnderscores_le {prev : Char} (h : dropUnderscores prev s = some t)
    : t.length ≤ s.length := by
  induction s generalizing prev t with
  | nil =>
    unfold dropUnderscores at h
    split at h
    . cases h
    . cases h
      apply Nat.le_refl
  | cons c s ih =>
    unfold dropUnderscores at h
    rw [List.length_cons]
    split at h
    . split at h
      . have := ih h
        omega
      . cases h
    . split at h
      . cases h
      . obtain ⟨u, hu, rfl⟩ := Option.map_eq_some_iff.mp h
        have := ih hu
        rw [List.length_cons]
        omega

theorem exact_eq_div {isSpace : Char → Bool} (h : exact isSpace s = some y) (hy : 0 < y)
    : ∃ n k : Nat, y = n / 10 ^ k ∧ (k = 0 ∨ n < 10 ^ (s.length - 1)) := by
  unfold exact at h
  obtain ⟨u, hu, hsigned⟩ := Option.bind_eq_some_iff.mp h
  obtain ⟨n, k, hdiv, hlt⟩ := signedExact_eq_div hsigned hy
  refine ⟨n, k, hdiv, hlt.imp_right ?_⟩
  intro hlt
  apply Nat.lt_of_lt_of_le hlt
  apply Nat.pow_le_pow_right (by decide)
  have hlen := Nat.le_trans (length_dropUnderscores_le hu) (length_trim_le _)
  rw [List.length_map] at hlen
  omega

theorem exact_mul_pow {isSpace : Char → Bool} (h : exact isSpace s = some y) {i j : Nat}
    (hy : 10 ^ i ≤ y) (hlen : s.length ≤ i + j + 2) : ∃ n : Nat, y * 10 ^ j = n := by
  have hpos : (0 : Rat) < 10 ^ i := by positivity
  obtain ⟨n, k, rfl, hlt⟩ := exact_eq_div h (lt_of_lt_of_le hpos hy)
  have hk : k ≤ j := by
    rcases hlt with hzero | hlt
    . omega
    . rw [le_div_iff₀ (by positivity), ← pow_add] at hy
      have hle : 10 ^ (i + k) ≤ n := by exact_mod_cast hy
      have := (Nat.pow_lt_pow_iff_right (by decide)).mp (Nat.lt_of_le_of_lt hle hlt)
      omega
  refine ⟨n * 10 ^ (j - k), ?_⟩
  obtain ⟨d, rfl⟩ := Nat.exists_eq_add_of_le hk
  rw [Nat.add_sub_cancel_left, pow_add, Nat.cast_mul, Nat.cast_pow, Nat.cast_ofNat]
  field_simp

end

end PyNumber
