import Mathlib.Data.List.DropRight
import SdaSystem.Library.PyNumber

namespace PyNumber

theorem decimal_eq_some {c : Char} {d : Nat} (h : decimal c = some d)
    : d < 10 ∧ ∃ z ∈ zeros, c.toNat = z + d := by
  unfold decimal at h
  rw [Option.map_eq_some_iff] at h
  obtain ⟨z, hfind, rfl⟩ := h
  have hrange := List.find?_some hfind
  rw [decide_eq_true_iff] at hrange
  refine ⟨by omega, z, List.mem_of_find?_eq_some hfind, by omega⟩

theorem lt_of_isOtherDigit {c : Char} (h : isOtherDigit c) : 127 ≤ c.toNat := by
  have hall : ∀ r ∈ otherDigits, 127 ≤ r.1 := by decide
  unfold isOtherDigit at h
  rw [List.any_eq_true] at h
  obtain ⟨r, hr, hrange⟩ := h
  rw [decide_eq_true_iff] at hrange
  have := hall r hr
  omega

theorem isDigit_iff {c : Char} : c.isDigit ↔ 48 ≤ c.toNat ∧ c.toNat ≤ 57 := by
  unfold Char.isDigit
  rw [Bool.and_eq_true, decide_eq_true_iff, decide_eq_true_iff]
  rfl

theorem isDigit_of_decimal {c : Char} {d : Nat} (h : decimal c = some d) (hlt : c.toNat < 127)
    : c.isDigit ∧ c.toNat = 48 + d := by
  have hall : ∀ z ∈ zeros, z = 48 ∨ 127 ≤ z := by decide
  obtain ⟨hd, z, hz, heq⟩ := decimal_eq_some h
  rw [isDigit_iff]
  have := hall z hz
  omega

theorem toNat_digitChar : ∀ d < 10, (Char.ofNat ('0'.toNat + d)).toNat = 48 + d := by
  decide

section trim

variable {p : Char → Bool} {s t : List Char}

theorem trimBy_eq (p : Char → Bool) (s : List Char)
    : trimBy p s = (s.dropWhile p).rdropWhile p := rfl

theorem trimBy_eq_self (hhead : ∀ c ∈ s.head?, p c = false) (hlast : ∀ c ∈ s.getLast?, p c = false)
    : trimBy p s = s := by
  have hdrop : s.dropWhile p = s := by
    cases s with
    | nil => rfl
    | cons c s => rw [List.dropWhile_cons_of_neg (by simp [hhead c rfl])]
  rw [trimBy_eq, hdrop, List.rdropWhile_eq_self_iff]
  intro hne
  rw [hlast _ (List.getLast_mem_getLast? hne)]
  exact Bool.false_ne_true

theorem getLast?_rdropWhile {c : Char} (h : c ∈ (s.rdropWhile p).getLast?) : p c = false := by
  obtain ⟨hne, heq⟩ := List.mem_getLast?_eq_getLast h
  rw [heq]
  simpa using List.rdropWhile_last_not p s hne

theorem rdropWhile_append (h : t.rdropWhile p ≠ [])
    : (s ++ t).rdropWhile p = s ++ t.rdropWhile p := by
  have hne : t.reverse.dropWhile p ≠ [] := by
    intro hnil
    apply h
    rw [List.rdropWhile, hnil]
    rfl
  unfold List.rdropWhile
  rw [List.reverse_append, List.dropWhile_append, if_neg (by simpa using hne), List.reverse_append,
    List.reverse_reverse]

theorem head?_rdropWhile {c : Char} (h : c ∈ (t.rdropWhile p).head?) : c ∈ t.head? := by
  have hprefix := List.rdropWhile_prefix p t
  cases hr : t.rdropWhile p with
  | nil =>
    rw [hr] at h
    cases h
  | cons d rest =>
    rw [hr] at h hprefix
    obtain ⟨u, rfl⟩ := hprefix
    simpa using h

end trim

section underscores

variable {prev : Char} {s t : List Char}

theorem dropUnderscores_eq_self (hprev : prev ≠ '_') (h : '_' ∉ s)
    : dropUnderscores prev s = some s := by
  induction s generalizing prev with
  | nil => simp [dropUnderscores, hprev]
  | cons c s ih =>
    rw [List.mem_cons, not_or] at h
    unfold dropUnderscores
    rw [if_neg (Ne.symm h.left), if_neg (by simp [hprev]), ih (Ne.symm h.left) h.right]
    rfl

theorem dropUnderscores_of_some {u : List Char} (h : dropUnderscores ' ' s = some u)
    (hprev : prev ≠ '_') : dropUnderscores prev s = some u ∧ u.head? = s.head? := by
  cases s with
  | nil =>
    unfold dropUnderscores at h ⊢
    rw [if_neg (by decide), Option.some.injEq] at h
    rw [if_neg hprev, ← h]
    exact ⟨rfl, rfl⟩
  | cons c s =>
    unfold dropUnderscores at h ⊢
    by_cases hc : c = '_'
    . rw [if_pos hc, if_neg (by decide)] at h
      cases h
    . rw [if_neg hc, if_neg (by simp)] at h
      rw [if_neg hc, if_neg (by simp [hprev]), h]
      obtain ⟨v, _, rfl⟩ := Option.map_eq_some_iff.mp h
      exact ⟨rfl, rfl⟩

theorem dropUnderscores_digits_append (hprev : prev ≠ '_') (hne : s ≠ [])
    (h : s.all Char.isDigit)
    : ∃ d : Char, d.isDigit ∧ dropUnderscores prev (s ++ t) = (dropUnderscores d t).map (s ++ ·) := by
  induction s generalizing prev with
  | nil => exact absurd rfl hne
  | cons c s ih =>
    rw [List.all_cons, Bool.and_eq_true] at h
    have hc : c ≠ '_' := by
      intro heq
      rw [heq] at h
      exact absurd h.left (by decide)
    have hstep : dropUnderscores prev (c :: s ++ t) = (dropUnderscores c (s ++ t)).map (c :: ·) := by
      conv_lhs => rw [List.cons_append, dropUnderscores]
      rw [if_neg hc, if_neg (by simp [hprev])]
    by_cases hs : s = []
    . refine ⟨c, h.left, ?_⟩
      rw [hstep, hs]
      rfl
    . obtain ⟨d, hd, heq⟩ := ih hc hs h.right
      refine ⟨d, hd, ?_⟩
      rw [hstep, heq, Option.map_map]
      rfl

end underscores

/-- What the readers need to know about the blanks. -/
structure Blanks (isSpace : Char → Bool) : Prop where
  digit : ∀ c, isdigit c → isSpace c = false
  ascii : ∀ c, isAsciiSpace c → isSpace c
  low : ∀ c, isSpace c → c.toNat < 127 → c.toNat ≤ 32

section toAscii

variable {isSpace : Char → Bool} {c : Char} {s : List Char}

theorem Blanks.isAsciiSpace_toAscii (h : Blanks isSpace) (hc : isSpace c = false)
    : isAsciiSpace (toAscii isSpace c) = false := by
  unfold toAscii
  split
  . rw [← Bool.not_eq_true]
    intro hspace
    rw [h.ascii c hspace] at hc
    cases hc
  . rw [if_neg (by simp [hc])]
    split
    . next d hd =>
      have := toNat_digitChar d (decimal_eq_some hd).left
      unfold isAsciiSpace
      rw [decide_eq_false_iff_not]
      omega
    . rfl

theorem Blanks.toAscii_of_decimal (h : Blanks isSpace) {d : Nat} (hd : decimal c = some d)
    : (toAscii isSpace c).isDigit ∧ (toAscii isSpace c).toNat = 48 + d := by
  have hlt := (decimal_eq_some hd).left
  have hdigit : isdigit c := by simp [isdigit, isdecimal, hd]
  unfold toAscii
  split
  . next hlow => apply isDigit_of_decimal hd hlow
  . rw [if_neg (by simp [h.digit c hdigit]), hd]
    dsimp only
    have := toNat_digitChar d hlt
    rw [isDigit_iff, this]
    omega

theorem Blanks.toAscii_of_not_decimal (h : Blanks isSpace) (hdigit : isdigit c)
    (hc : isdecimal c = false) : toAscii isSpace c = '?' := by
  have hother : isOtherDigit c := by simpa [isdigit, hc] using hdigit
  have := lt_of_isOtherDigit hother
  have hnone : decimal c = none := by simpa [isdecimal] using hc
  unfold toAscii
  rw [if_neg (by omega), if_neg (by simp [h.digit c hdigit]), hnone]

theorem Blanks.isDigit_toAscii_iff (h : Blanks isSpace) (hdigit : isdigit c)
    : (toAscii isSpace c).isDigit ↔ isdecimal c := by
  cases hc : decimal c with
  | some d => simp [h.toAscii_of_decimal hc, isdecimal, hc]
  | none =>
    have hdec : isdecimal c = false := by simp [isdecimal, hc]
    rw [h.toAscii_of_not_decimal hdigit hdec, hdec]
    decide

theorem Blanks.mem_toAscii (h : Blanks isSpace) (hs : s.all isdigit) {a : Char}
    (ha : a ∈ s.map (toAscii isSpace)) : a.isDigit ∨ a = '?' := by
  obtain ⟨c, hc, rfl⟩ := List.mem_map.mp ha
  have hdigit := List.all_eq_true.mp hs c hc
  cases hdec : isdecimal c with
  | true => exact .inl ((h.isDigit_toAscii_iff hdigit).mpr hdec)
  | false => exact .inr (h.toAscii_of_not_decimal hdigit hdec)

theorem Blanks.all_isDigit_iff (h : Blanks isSpace) (hs : s.all isdigit)
    : (s.map (toAscii isSpace)).all Char.isDigit ↔ s.all isdecimal := by
  rw [List.all_map, List.all_eq_true, List.all_eq_true]
  apply forall₂_congr
  intro c hc
  apply h.isDigit_toAscii_iff (List.all_eq_true.mp hs c hc)

theorem trim_map_toAscii (h : Blanks isSpace) (hhead : ∀ c ∈ s.head?, isSpace c = false)
    (hlast : ∀ c ∈ s.getLast?, isSpace c = false)
    : trim (s.map (toAscii isSpace)) = s.map (toAscii isSpace) := by
  apply trimBy_eq_self
  . intro a ha
    rw [List.head?_map] at ha
    obtain ⟨c, hc, rfl⟩ := Option.mem_map.mp ha
    apply h.isAsciiSpace_toAscii (hhead c hc)
  . intro a ha
    rw [List.getLast?_map] at ha
    obtain ⟨c, hc, rfl⟩ := Option.mem_map.mp ha
    apply h.isAsciiSpace_toAscii (hlast c hc)

theorem trim_digits (h : Blanks isSpace) (hs : s.all isdigit)
    : trim (s.map (toAscii isSpace)) = s.map (toAscii isSpace) := by
  have hmem : ∀ c ∈ s, isSpace c = false := by
    intro c hc
    apply h.digit c (List.all_eq_true.mp hs c hc)
  apply trim_map_toAscii h
  . intro c hc
    apply hmem c (List.mem_of_mem_head? hc)
  . intro c hc
    apply hmem c (List.mem_of_getLast? hc)

end toAscii

section int

variable {isSpace : Char → Bool} {s : List Char} {c : Char}

theorem int_digits (h : Blanks isSpace) (hs : s.all isdigit)
    : int isSpace s = (digits (s.map (toAscii isSpace))).map fun n : Nat => (n : Int) := by
  have hmem := fun a => @Blanks.mem_toAscii _ s h hs a
  have hunder : '_' ∉ s.map (toAscii isSpace) := by
    intro hmem'
    have := hmem _ hmem'
    exact absurd this (by decide)
  unfold int
  rw [trim_digits h hs]
  split
  . next t heq =>
    have := hmem '-' (by simp [heq])
    exact absurd this (by decide)
  . next t heq =>
    have := hmem '+' (by simp [heq])
    exact absurd this (by decide)
  . rw [dropUnderscores_eq_self (by decide) hunder]
    rfl

theorem int_eq_none_iff (h : Blanks isSpace) (hs : isdigitText s)
    : int isSpace s = none ↔ ∃ c ∈ s, isdecimal c = false := by
  obtain ⟨hne, hall⟩ := of_decide_eq_true hs
  rw [int_digits h hall, Option.map_eq_none_iff]
  unfold digits
  have hmap : s.map (toAscii isSpace) ≠ [] := by simpa using hne
  rw [ite_eq_right_iff, h.all_isDigit_iff hall]
  simp [hne]

theorem int_singleton (h : Blanks isSpace) (hc : isdigit c)
    : int isSpace [c] = (decimal c).map fun n : Nat => (n : Int) := by
  rw [int_digits h (by simpa using hc)]
  unfold digits
  cases hd : decimal c with
  | some d =>
    obtain ⟨hdigit, hval⟩ := h.toAscii_of_decimal hd
    rw [if_pos (by simpa using hdigit)]
    simp [ofDigits, hval]
  | none =>
    have hdec : isdecimal c = false := by simp [isdecimal, hd]
    rw [if_neg (by simp [h.isDigit_toAscii_iff hc, hdec])]

theorem foldl_digits_pos (n : Nat) (s : List Char)
    : 0 < s.foldl (fun n c => 10 * n + (c.toNat - '0'.toNat)) n
        ↔
      0 < n ∨ ∃ c ∈ s, 48 < c.toNat := by
  induction s generalizing n with
  | nil => simp
  | cons c s ih =>
    have hzero : '0'.toNat = 48 := rfl
    rw [List.foldl_cons, ih, List.exists_mem_cons_iff, ← or_assoc, hzero]
    apply or_congr_left
    omega

theorem int_of_decimal (h : Blanks isSpace) (hne : s ≠ []) (hs : s.all isdecimal)
    : ∃ n : Nat, int isSpace s = some (n : Int) ∧ (0 < n ↔ ∃ c ∈ s, decimal c ≠ some 0) := by
  have hdigit : s.all isdigit := by
    rw [List.all_eq_true] at hs ⊢
    intro c hc
    simp [isdigit, hs c hc]
  have hmap : s.map (toAscii isSpace) ≠ [] := by simpa using hne
  refine ⟨ofDigits (s.map (toAscii isSpace)), ?_, ?_⟩
  . rw [int_digits h hdigit]
    unfold digits
    rw [if_pos ⟨hmap, (h.all_isDigit_iff hdigit).mpr hs⟩]
    rfl
  . unfold ofDigits
    rw [foldl_digits_pos, or_iff_right (by omega)]
    simp only [List.mem_map, exists_exists_and_eq_and]
    apply exists_congr
    intro c
    apply and_congr_right
    intro hc
    obtain ⟨d, hd⟩ := Option.isSome_iff_exists.mp (List.all_eq_true.mp hs c hc)
    rw [(h.toAscii_of_decimal hd).right, hd, Ne, Option.some.injEq]
    omega

end int

end PyNumber
