import SdaSystem.Library.PyNumber.Str

/-!
The Gregorian calendar, extended backwards to the year 1, and the number of a date in the sequence of
all dates.
-/

open PyNumber (zeroPad)

namespace Gregorian

def isLeap (year : Nat) : Bool :=
  year % 4 = 0 ∧ (year % 100 ≠ 0 ∨ year % 400 = 0)

def daysInYear (year : Nat) : Nat :=
  if isLeap year then 366 else 365

def daysInMonth (year month : Nat) : Nat :=
  match month with
  | 2 => if isLeap year then 29 else 28
  | 4 | 6 | 9 | 11 => 30
  | _ => 31

/-- The days of the years from 1 on that end before `year`. -/
def daysBeforeYear (year : Nat) : Nat :=
  (year - 1) * 365 + (year - 1) / 4 - (year - 1) / 100 + (year - 1) / 400

def daysBeforeMonth (year : Nat) : Nat → Nat
  | 0 => 0
  | 1 => 0
  | month + 2 => daysBeforeMonth year (month + 1) + daysInMonth year (month + 1)

theorem le_daysInYear (year : Nat) : 365 ≤ daysInYear year := by
  unfold daysInYear
  split
  . decide
  . decide

theorem div_of_mod_eq_zero {n k : Nat} (h : 1 ≤ n) (hmod : n % k = 0)
    : n / k = (n - 1) / k + 1 := by
  have := @Nat.succ_div (n - 1) k
  rwa [Nat.sub_add_cancel h, if_pos (Nat.dvd_of_mod_eq_zero hmod)] at this

theorem div_of_mod_ne_zero {n k : Nat} (h : 1 ≤ n) (hmod : ¬ n % k = 0)
    : n / k = (n - 1) / k := by
  have := @Nat.succ_div (n - 1) k
  rwa [Nat.sub_add_cancel h, if_neg fun hdvd => hmod (Nat.mod_eq_zero_of_dvd hdvd)] at this

theorem daysBeforeYear_succ {year : Nat} (h : 1 ≤ year)
    : daysBeforeYear (year + 1) = daysBeforeYear year + daysInYear year := by
  have hle : (year - 1) / 100 ≤ (year - 1) / 4 := Nat.div_le_div_left (by omega) (by omega)
  unfold daysBeforeYear daysInYear
  rw [Nat.add_sub_cancel]
  by_cases h4 : year % 4 = 0
  . rw [div_of_mod_eq_zero h h4]
    by_cases h100 : year % 100 = 0
    . rw [div_of_mod_eq_zero h h100]
      by_cases h400 : year % 400 = 0
      . have hleap : isLeap year = true := by simp [isLeap, h4, h400]
        rw [div_of_mod_eq_zero h h400, if_pos hleap]
        omega
      . have hleap : ¬ isLeap year = true := by simp [isLeap, h100, h400]
        rw [div_of_mod_ne_zero h h400, if_neg hleap]
        omega
    . have h400 : ¬ year % 400 = 0 := by omega
      have hleap : isLeap year = true := by simp [isLeap, h4, h100]
      rw [div_of_mod_ne_zero h h100, div_of_mod_ne_zero h h400, if_pos hleap]
      omega
  . have h100 : ¬ year % 100 = 0 := by omega
    have h400 : ¬ year % 400 = 0 := by omega
    have hleap : ¬ isLeap year = true := by simp [isLeap, h4]
    rw [div_of_mod_ne_zero h h4, div_of_mod_ne_zero h h100, div_of_mod_ne_zero h h400,
      if_neg hleap]
    omega

theorem daysBeforeYear_add_le {y y' : Nat} (hy : 1 ≤ y) (h : y < y')
    : daysBeforeYear y + daysInYear y ≤ daysBeforeYear y' := by
  induction y', h using Nat.le_induction with
  | base => exact Nat.le_of_eq (daysBeforeYear_succ hy).symm
  | succ y' hlt ih =>
    rw [daysBeforeYear_succ (by omega)]
    omega

theorem daysBeforeYear_mono {y y' : Nat} (hy : 1 ≤ y) (h : y ≤ y')
    : daysBeforeYear y ≤ daysBeforeYear y' := by
  cases Nat.eq_or_lt_of_le h with
  | inl heq => exact Nat.le_of_eq (congrArg daysBeforeYear heq)
  | inr hlt =>
    have := daysBeforeYear_add_le hy hlt
    omega

theorem daysInMonth_pos (year month : Nat) : 28 ≤ daysInMonth year month := by
  unfold daysInMonth
  split
  . split
    . omega
    . omega
  all_goals omega

theorem daysInMonth_le (year month : Nat) : daysInMonth year month ≤ 31 := by
  unfold daysInMonth
  split
  . split
    . omega
    . omega
  all_goals omega

theorem daysBeforeMonth_succ {month : Nat} (year : Nat) (h : 1 ≤ month)
    : daysBeforeMonth year (month + 1) = daysBeforeMonth year month + daysInMonth year month := by
  cases month with
  | zero => omega
  | succ month => rfl

theorem daysBeforeMonth_one (year : Nat) : daysBeforeMonth year 1 = 0 := rfl

theorem daysBeforeMonth_add_le (year : Nat) {m m' : Nat} (hm : 1 ≤ m) (h : m < m')
    : daysBeforeMonth year m + daysInMonth year m ≤ daysBeforeMonth year m' := by
  induction m', h using Nat.le_induction with
  | base => exact Nat.le_of_eq (daysBeforeMonth_succ year hm).symm
  | succ m' hlt ih =>
    rw [daysBeforeMonth_succ year (by omega)]
    omega

theorem daysBeforeMonth_thirteen (year : Nat) : daysBeforeMonth year 13 = daysInYear year := by
  simp only [daysBeforeMonth, daysInMonth, daysInYear]
  split
  . rfl
  . rfl

structure Date where
  year : Nat
  month : Nat
  day : Nat
  yearPos : 1 ≤ year
  monthPos : 1 ≤ month
  monthLe : month ≤ 12
  dayPos : 1 ≤ day
  dayLe : day ≤ daysInMonth year month
deriving DecidableEq

namespace Date

def ordinal (d : Date) : Nat :=
  daysBeforeYear d.year + daysBeforeMonth d.year d.month + d.day

/-- One date is before another by year, then by month, then by day. -/
def Before (d d' : Date) : Prop :=
  d.year < d'.year
    ∨
  d.year = d'.year ∧ (d.month < d'.month ∨ d.month = d'.month ∧ d.day < d'.day)

theorem ext_iff_fields {d d' : Date}
    : d = d' ↔ d.year = d'.year ∧ d.month = d'.month ∧ d.day = d'.day := by
  cases d
  cases d'
  simp

theorem before_trichotomy (d d' : Date) : d.Before d' ∨ d = d' ∨ d'.Before d := by
  rw [ext_iff_fields]
  unfold Before
  omega

theorem dayOfYear_le (d : Date) : daysBeforeMonth d.year d.month + d.day ≤ daysInYear d.year := by
  have hday := d.dayLe
  have hmonth : d.month < 13 := Nat.lt_succ_of_le d.monthLe
  have := daysBeforeMonth_add_le d.year d.monthPos hmonth
  rw [daysBeforeMonth_thirteen] at this
  omega

theorem ordinal_lt_of_before {d d' : Date} (h : d.Before d') : d.ordinal < d'.ordinal := by
  unfold ordinal
  have hday := d.dayLe
  have hpos := d'.dayPos
  rcases h with hyear | ⟨hyear, hmonth | ⟨hmonth, hlt⟩⟩
  . have := d.dayOfYear_le
    have := daysBeforeYear_add_le d.yearPos hyear
    omega
  . have := daysBeforeMonth_add_le d.year d.monthPos hmonth
    rw [← hyear]
    omega
  . rw [← hyear, ← hmonth]
    omega

theorem ordinal_inj {d d' : Date} : d.ordinal = d'.ordinal ↔ d = d' := by
  constructor
  . intro heq
    rcases before_trichotomy d d' with h | h | h
    . have := ordinal_lt_of_before h
      omega
    . exact h
    . have := ordinal_lt_of_before h
      omega
  . intro h
    rw [h]

theorem ordinal_pos (d : Date) : 1 ≤ d.ordinal := by
  have := d.dayPos
  unfold ordinal
  omega

def next (d : Date) : Date :=
  if hday : d.day < daysInMonth d.year d.month then
    { d with day := d.day + 1, dayPos := by omega, dayLe := hday }
  else if hmonth : d.month < 12 then
    {
      year := d.year
      month := d.month + 1
      day := 1
      yearPos := d.yearPos
      monthPos := by omega
      monthLe := hmonth
      dayPos := by omega
      dayLe := by
        have := daysInMonth_pos d.year (d.month + 1)
        omega
    }
  else
    {
      year := d.year + 1
      month := 1
      day := 1
      yearPos := by omega
      monthPos := by omega
      monthLe := by omega
      dayPos := by omega
      dayLe := by
        have := daysInMonth_pos (d.year + 1) 1
        omega
    }

theorem ordinal_next (d : Date) : d.next.ordinal = d.ordinal + 1 := by
  have hdayLe := d.dayLe
  unfold next
  split
  . simp only [ordinal]
    omega
  . next hday =>
    have hlast : d.day = daysInMonth d.year d.month := by omega
    split
    . simp only [ordinal]
      rw [daysBeforeMonth_succ d.year d.monthPos]
      omega
    . next hmonth =>
      -- the last day of December is the last day of the year
      have hmonth : d.month = 12 := by
        have := d.monthLe
        omega
      have hyear := daysBeforeMonth_succ d.year d.monthPos
      rw [hmonth, daysBeforeMonth_thirteen] at hyear
      rw [hmonth] at hlast
      simp only [ordinal, hmonth, daysBeforeYear_succ d.yearPos, daysBeforeMonth_one]
      omega

theorem daysBeforeYear_lt_ordinal (d : Date) : daysBeforeYear d.year < d.ordinal := by
  have := d.dayPos
  unfold ordinal
  omega

theorem ordinal_le_daysBeforeYear (d : Date) : d.ordinal ≤ daysBeforeYear (d.year + 1) := by
  have := d.dayOfYear_le
  rw [daysBeforeYear_succ d.yearPos]
  unfold ordinal
  omega

theorem ordinal_le_iff (d : Date) {year : Nat} (h : 1 ≤ year)
    : d.ordinal ≤ daysBeforeYear (year + 1) ↔ d.year ≤ year := by
  have hlt := d.daysBeforeYear_lt_ordinal
  have hle := d.ordinal_le_daysBeforeYear
  constructor
  . intro hord
    apply Nat.le_of_not_lt
    intro hyear
    have : daysBeforeYear (year + 1) ≤ daysBeforeYear d.year :=
      daysBeforeYear_mono (by omega) (by omega)
    omega
  . intro hyear
    have : daysBeforeYear (d.year + 1) ≤ daysBeforeYear (year + 1) :=
      daysBeforeYear_mono (by omega) (by omega)
    omega

def first : Date where
  year := 1
  month := 1
  day := 1
  yearPos := Nat.zero_lt_one
  monthPos := Nat.zero_lt_one
  monthLe := by decide
  dayPos := Nat.zero_lt_one
  dayLe := by decide

theorem exists_ordinal {n : Nat} (h : 1 ≤ n) : ∃ d : Date, d.ordinal = n := by
  induction n, h using Nat.le_induction with
  | base => exact ⟨first, by decide⟩
  | succ n _ ih =>
    obtain ⟨d, hd⟩ := ih
    exact ⟨d.next, by rw [ordinal_next, hd]⟩

end Date

def Date.isoformat (d : Date) : String :=
  String.ofList (zeroPad 4 d.year ++ '-' :: zeroPad 2 d.month ++ '-' :: zeroPad 2 d.day)

end Gregorian
