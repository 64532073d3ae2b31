import Mathlib.Algebra.Ring.Nat
import Mathlib.Data.Nat.Init

/-!
Writing numbers: Python's `str` of an `int`, and the fields of a fixed width that dates are written in.
-/

namespace PyNumber

def str (n : Int) : List Char :=
  if n < 0 then '-' :: Nat.toDigits 10 n.natAbs else Nat.toDigits 10 n.natAbs

/-- The last `width` decimal digits, with zeros in front where there are not as many. -/
def zeroPad (width n : Nat) : List Char :=
  match width with
  | 0 => []
  | width + 1 => zeroPad width (n / 10) ++ [Nat.digitChar (n % 10)]

theorem toDigits_inj {m n : Nat} (h : Nat.toDigits 10 m = Nat.toDigits 10 n) : m = n := by
  rw [← @Nat.ofDigitChars_ten_toDigits m, ← @Nat.ofDigitChars_ten_toDigits n, h]

theorem minus_not_mem_toDigits (n : Nat) : '-' ∉ Nat.toDigits 10 n := by
  intro hmem
  have := Nat.isDigit_of_mem_toDigits (by decide) (by decide) hmem
  exact absurd this (by decide)

theorem str_inj {m n : Int} (h : str m = str n) : m = n := by
  have hminus : ∀ k l : Nat, '-' :: Nat.toDigits 10 k ≠ Nat.toDigits 10 l := by
    intro k l heq
    apply minus_not_mem_toDigits l
    rw [← heq]
    exact List.mem_cons_self
  unfold str at h
  split at h
  . split at h
    . have := toDigits_inj (List.cons_inj_right _ |>.mp h)
      omega
    . exact absurd h (hminus _ _)
  . split at h
    . exact absurd h.symm (hminus _ _)
    . have := toDigits_inj h
      omega

@[simp]
theorem length_zeroPad (width n : Nat) : (zeroPad width n).length = width := by
  induction width generalizing n with
  | zero => rfl
  | succ width ih => rw [zeroPad, List.length_append, ih, List.length_singleton]

theorem digitChar_inj {m n : Nat} (hm : m < 10) (hn : n < 10)
    (h : Nat.digitChar m = Nat.digitChar n) : m = n := by
  have : ∀ m < 10, ∀ n < 10, Nat.digitChar m = Nat.digitChar n → m = n := by decide
  exact this m hm n hn h

theorem zeroPad_inj {width m n : Nat} (hm : m < 10 ^ width) (hn : n < 10 ^ width)
    (h : zeroPad width m = zeroPad width n) : m = n := by
  induction width generalizing m n with
  | zero =>
    rw [pow_zero] at hm hn
    omega
  | succ width ih =>
    rw [pow_succ] at hm hn
    obtain ⟨hinit, hlast⟩ := List.append_inj h (by simp)
    have hdiv := ih (Nat.div_lt_of_lt_mul (by omega)) (Nat.div_lt_of_lt_mul (by omega)) hinit
    have hmod := digitChar_inj (Nat.mod_lt m (by decide)) (Nat.mod_lt n (by decide))
      (List.singleton_inj.mp hlast)
    omega

end PyNumber
