import SdaSystem.Library.PyNumber.Int

namespace PyNumber

section decimalLiteral

variable {s t : List Char} {c : Char}

theorem isSome_decimalLiteral (s : List Char)
    : (decimalLiteral s).isSome
        ↔
      (s.takeWhile Char.isDigit ≠ [] ∨ (fraction (s.dropWhile Char.isDigit)).1 ≠ [])
        ∧ (exponent (fraction (s.dropWhile Char.isDigit)).2).isSome := by
  unfold decimalLiteral
  dsimp only
  split
  . next h => simp [h.left, h.right]
  . next h =>
    rw [Option.isSome_map, ← not_and_or]
    exact (and_iff_right h).symm

theorem isSome_decimalLiteral_append (hs : s.all Char.isDigit) (ht : (decimalLiteral t).isSome)
    : (decimalLiteral (s ++ t)).isSome := by
  rw [List.all_eq_true] at hs
  rw [isSome_decimalLiteral] at ht ⊢
  rw [List.takeWhile_append_of_pos hs, List.dropWhile_append_of_pos hs]
  refine ⟨ht.left.imp_left ?_, ht.right⟩
  intro hne
  simp [hne]

theorem decimalLiteral_append_eq_none (hs : s.all Char.isDigit) (hc : c.toNat ≤ 43)
    : decimalLiteral (s ++ c :: t) = none := by
  have hdigit : c.isDigit = false := by
    rw [← Bool.not_eq_true, isDigit_iff]
    omega
  have hother : ∀ d : Char, 43 < d.toNat → c ≠ d := by
    rintro d hd rfl
    omega
  have hfraction : fraction (c :: t) = ([], c :: t) := by
    unfold fraction
    split
    . next heq => exact absurd (List.cons_eq_cons.mp heq).left (hother '.' (by decide))
    . rfl
  rw [List.all_eq_true] at hs
  rw [← Option.isNone_iff_eq_none, ← Option.not_isSome, Bool.not_eq_true', ← Bool.not_eq_true,
    isSome_decimalLiteral, List.dropWhile_append_of_pos hs,
    List.dropWhile_cons_of_neg (by simp [hdigit]), hfraction]
  rintro ⟨_, h⟩
  simp [exponent, hother 'e' (by decide), hother 'E' (by decide)] at h

theorem isSome_decimalLiteral_fraction (s : List Char)
    : (decimalLiteral ('0' :: '.' :: s)).isSome ↔ (exponent (s.dropWhile Char.isDigit)).isSome := by
  simp [isSome_decimalLiteral, List.takeWhile, List.dropWhile, fraction]

theorem exponent_dropWhile (h : ∀ a ∈ s, a.isDigit ∨ a = '?')
    : (exponent (s.dropWhile Char.isDigit)).isSome ↔ s.all Char.isDigit := by
  induction s with
  | nil => decide
  | cons a s ih =>
    have ih := ih fun b hb => h b (List.mem_cons_of_mem a hb)
    rcases h a List.mem_cons_self with hdigit | rfl
    . rw [List.dropWhile_cons_of_pos hdigit, ih, List.all_cons, hdigit, Bool.true_and]
    . rw [List.dropWhile_cons_of_neg (by decide)]
      simp [exponent]

end decimalLiteral

section unsigned

variable {s : List Char} {c : Char} {x : Float}

theorem signed_of_isDigit (hc : c.isDigit) : signed (c :: s) = unsigned (c :: s) := by
  unfold signed
  split
  . next heq =>
    obtain ⟨rfl, _⟩ := List.cons_eq_cons.mp heq
    exact absurd hc (by decide)
  . next heq =>
    obtain ⟨rfl, _⟩ := List.cons_eq_cons.mp heq
    exact absurd hc (by decide)
  . rfl

theorem isSome_unsigned_of_isDigit (hc : c.isDigit)
    : (unsigned (c :: s)).isSome ↔ (decimalLiteral (c :: s)).isSome := by
  have hlower : c.toLower = c := by
    rw [isDigit_iff] at hc
    unfold Char.toLower
    rw [dif_neg]
    rintro ⟨hle, _⟩
    have := UInt32.le_iff_toNat_le.mp hle
    have : 'A'.val.toNat = 65 := rfl
    have : c.val.toNat = c.toNat := rfl
    omega
  have hword : ∀ word : List Char, word.head?.all (fun d => ¬ d.isDigit) →
      (c :: s).map Char.toLower ≠ word := by
    rintro word hhead rfl
    simp [hlower, hc] at hhead
  unfold unsigned
  split
  . next heq => simp [heq]
  . next heq =>
    dsimp only
    rw [if_neg (not_or.mpr ⟨hword _ (by decide), hword _ (by decide)⟩),
      if_neg (hword _ (by decide)), heq]
    exact Iff.rfl

theorem scale_nonneg (n : Nat) (e : Int) : 0 ≤ scale n e := by
  unfold scale
  split
  . apply Rat.mkRat_nonneg (by positivity)
  . apply Rat.mkRat_nonneg (by positivity)

theorem decimalLiteral_nonneg {x : Rat} (h : decimalLiteral s = some x) : 0 ≤ x := by
  unfold decimalLiteral at h
  dsimp only at h
  split at h
  . cases h
  . obtain ⟨e, _, rfl⟩ := Option.map_eq_some_iff.mp h
    apply scale_nonneg

theorem not_ge_neg_of_unsigned (h : unsigned s = some x) {bound : Rat} (hbound : 0 < bound)
    : x.neg.ge bound = false := by
  unfold unsigned at h
  split at h
  . next y hy =>
    obtain rfl := Option.some.inj h
    have hnonneg := Rounding.nearest_nonneg Rounding.binary64 (decimalLiteral_nonneg hy)
    unfold Float.ofRat
    dsimp only
    split
    . rfl
    . split
      . next hle =>
        have : (0 : Rat) < 2 ^ 1024 := by positivity
        exact absurd (le_trans hnonneg hle) (not_le.mpr (neg_lt_zero.mpr this))
      . unfold Float.neg Float.ge
        rw [decide_eq_false_iff_not]
        linarith
  . dsimp only at h
    split at h
    . obtain rfl := Option.some.inj h
      rfl
    . split at h
      . obtain rfl := Option.some.inj h
        rfl
      . cases h

end unsigned

section float

variable {isSpace : Char → Bool} {s t : List Char} {c : Char}

theorem Blanks.toAscii_le (h : Blanks isSpace) (hc : isSpace c ∨ c = '+')
    : (toAscii isSpace c).toNat ≤ 43 := by
  unfold toAscii
  rcases hc with hc | rfl
  . split
    . next hlt =>
      have := h.low c hc hlt
      omega
    . decide
  . rw [if_pos (by decide)]
    decide

theorem eq_of_toAscii_eq_plus (hc : toAscii isSpace c = '+') : c = '+' := by
  unfold toAscii at hc
  split at hc
  . exact hc
  . split at hc
    . exact absurd hc (by decide)
    . split at hc
      . next d hd =>
        have heq := toNat_digitChar d (decimal_eq_some hd).left
        rw [hc] at heq
        have : '+'.toNat = 43 := rfl
        omega
      . exact absurd hc (by decide)

theorem not_isSpace_of_all_isdecimal (h : Blanks isSpace) (hs : s.all isdecimal) (hc : c ∈ s)
    : isSpace c = false := by
  apply h.digit
  unfold isdigit
  rw [List.all_eq_true.mp hs c hc, Bool.true_or]

theorem all_isDigit_of_all_isdecimal (h : Blanks isSpace) (hs : s.all isdecimal)
    : (s.map (toAscii isSpace)).all Char.isDigit := by
  rw [List.all_map, List.all_eq_true]
  intro c hc
  obtain ⟨d, hd⟩ := Option.isSome_iff_exists.mp (List.all_eq_true.mp hs c hc)
  exact (h.toAscii_of_decimal hd).left

theorem float_decimal_append (h : Blanks isSpace) (hne : s ≠ []) (hs : s.all isdecimal)
    (htne : t ≠ []) (hlast : ∀ c ∈ t.getLast?, isSpace c = false)
    : ∃ d : Char, d ≠ '_' ∧
        ((float isSpace (s ++ t)).isSome ↔
          ∃ u, dropUnderscores d (t.map (toAscii isSpace)) = some u
            ∧ (decimalLiteral (s.map (toAscii isSpace) ++ u)).isSome) := by
  have hdigits := all_isDigit_of_all_isdecimal h hs
  have hmap : s.map (toAscii isSpace) ≠ [] := by simpa using hne
  obtain ⟨d, hd, hdrop⟩ := dropUnderscores_digits_append (t := t.map (toAscii isSpace))
    (show ' ' ≠ '_' by decide) hmap hdigits
  have htrim : trim ((s ++ t).map (toAscii isSpace)) = (s ++ t).map (toAscii isSpace) := by
    apply trim_map_toAscii h
    . intro c hc
      rw [List.head?_append_of_ne_nil _ hne] at hc
      apply not_isSpace_of_all_isdecimal h hs (List.mem_of_mem_head? hc)
    . intro c hc
      rw [List.getLast?_append_of_ne_nil _ htne] at hc
      apply hlast c hc
  have hread : ∀ u, (signed (s.map (toAscii isSpace) ++ u)).isSome
      ↔ (decimalLiteral (s.map (toAscii isSpace) ++ u)).isSome := by
    intro u
    obtain ⟨a, as, heq⟩ := List.exists_cons_of_ne_nil hmap
    rw [heq, List.all_cons, Bool.and_eq_true] at hdigits
    rw [heq, List.cons_append, signed_of_isDigit hdigits.left,
      isSome_unsigned_of_isDigit hdigits.left]
  refine ⟨d, ?_, ?_⟩
  . rintro rfl
    exact absurd hd (by decide)
  . unfold float
    rw [htrim, List.map_append, hdrop]
    cases dropUnderscores d (t.map (toAscii isSpace)) with
    | none => simp
    | some u => simpa using hread u

theorem isSome_float_append (h : Blanks isSpace) (hne : s ≠ []) (hs : s.all isdecimal)
    (hhead : ∀ c ∈ t.head?, isSpace c = false ∧ c ≠ '+')
    (hlast : ∀ c ∈ t.getLast?, isSpace c = false) {x : Rat} (hx : 0 < x)
    (ht : float isSpace t = some (.finite x))
    : (float isSpace (s ++ t)).isSome := by
  unfold float at ht
  rw [trim_map_toAscii h (fun c hc => (hhead c hc).left) hlast] at ht
  obtain ⟨u, hu, hsigned⟩ := Option.bind_eq_some_iff.mp ht
  have htne : t ≠ [] := by
    rintro rfl
    obtain rfl : [] = u := by simpa [dropUnderscores] using hu
    cases hsigned
  obtain ⟨d, hd, hiff⟩ := float_decimal_append h hne hs htne hlast
  obtain ⟨hdrop, hheadu⟩ := dropUnderscores_of_some hu hd
  rw [hiff]
  refine ⟨u, hdrop, ?_⟩
  apply isSome_decimalLiteral_append (all_isDigit_of_all_isdecimal h hs)
  have hunsigned : unsigned u = some (.finite x) := by
    unfold signed at hsigned
    split at hsigned
    . next v =>
      obtain ⟨y, hy, hneg⟩ := Option.map_eq_some_iff.mp hsigned
      have hnot := not_ge_neg_of_unsigned hy hx
      rw [hneg] at hnot
      simp [Float.ge] at hnot
    . next v =>
      rw [List.head?_map] at hheadu
      obtain ⟨c, hc, heq⟩ := Option.map_eq_some_iff.mp hheadu.symm
      exact absurd (eq_of_toAscii_eq_plus heq) (hhead c hc).right
    . exact hsigned
  unfold unsigned at hunsigned
  split at hunsigned
  . next heq => rw [heq]; rfl
  . dsimp only at hunsigned
    split at hunsigned
    . cases hunsigned
    . split at hunsigned
      . cases hunsigned
      . cases hunsigned

theorem float_append_eq_none (h : Blanks isSpace) (hne : s ≠ []) (hs : s.all isdecimal)
    (hc : isSpace c ∨ c = '+') (hlast : ∀ a ∈ (c :: t).getLast?, isSpace a = false)
    : float isSpace (s ++ c :: t) = none := by
  have hle := h.toAscii_le hc
  obtain ⟨d, hd, hiff⟩ := float_decimal_append h hne hs (List.cons_ne_nil c t) hlast
  rw [← Option.not_isSome_iff_eq_none, hiff, not_exists]
  rintro u ⟨hu, hsome⟩
  have hunder : toAscii isSpace c ≠ '_' := by
    intro heq
    rw [heq] at hle
    exact absurd hle (by decide)
  rw [List.map_cons, dropUnderscores, if_neg hunder, if_neg (by simp [hd])] at hu
  obtain ⟨v, _, rfl⟩ := Option.map_eq_some_iff.mp hu
  rw [decimalLiteral_append_eq_none (all_isDigit_of_all_isdecimal h hs) hle] at hsome
  cases hsome

theorem float_fraction (h : Blanks isSpace) (hs : isdigitText s)
    : (float isSpace ('0' :: '.' :: s)).isSome ↔ s.all isdecimal := by
  obtain ⟨hne, hall⟩ := of_decide_eq_true hs
  have hmem := fun a => @Blanks.mem_toAscii _ s h hall a
  have htrim : trim (('0' :: '.' :: s).map (toAscii isSpace))
      = '0' :: '.' :: s.map (toAscii isSpace) := by
    rw [trim_map_toAscii h]
    . rfl
    . intro c hc
      obtain rfl := Option.some.inj hc
      apply h.digit
      decide
    . intro c hc
      rw [List.getLast?_cons_cons, List.getLast?_cons_of_ne_nil hne] at hc
      apply h.digit
      apply List.all_eq_true.mp hall c (List.mem_of_getLast? hc)
  have hunder : '_' ∉ '0' :: '.' :: s.map (toAscii isSpace) := by
    intro hin
    have hin : '_' ∈ s.map (toAscii isSpace) := by simpa using hin
    exact absurd (hmem _ hin) (by decide)
  unfold float
  rw [htrim, dropUnderscores_eq_self (by decide) hunder, Option.bind_some,
    signed_of_isDigit (by decide), isSome_unsigned_of_isDigit (by decide),
    isSome_decimalLiteral_fraction, exponent_dropWhile hmem, h.all_isDigit_iff hall]

end float

end PyNumber
