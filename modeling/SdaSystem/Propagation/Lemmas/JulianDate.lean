import SdaSystem.Library.Rounding
import SdaSystem.Propagation.Impl.JulianDate

namespace SdaSystem

open Gregorian

namespace SGP4Engine

theorem jdInt_of_month_le_two {year month : Nat} (hyear : 1 ≤ year) (hpos : 1 ≤ month)
    (h : month ≤ 2) (day : Nat)
    : jdInt year month day + 15
        =
      (daysBeforeYear year + daysBeforeMonth year month + day + 1721424
        + ((year - 1) / 100 - (year - 1) / 400) : Nat) := by
  have hmonth : month = 1 ∨ month = 2 := by omega
  have hle : (year - 1) / 400 ≤ (year - 1) / 100 := Nat.div_le_div_left (by omega) (by omega)
  unfold jdInt daysBeforeYear
  rcases hmonth with rfl | rfl
  . simp only [daysBeforeMonth]
    omega
  . simp only [daysBeforeMonth, daysInMonth]
    omega

theorem daysBeforeMonth_add (year : Nat) {month : Nat} (hpos : 3 ≤ month) (hle : month ≤ 12)
    : daysBeforeMonth year month + 397 = daysInYear year + 275 * month / 9 := by
  have hmonth : month = 3 ∨ month = 4 ∨ month = 5 ∨ month = 6 ∨ month = 7 ∨ month = 8
      ∨ month = 9 ∨ month = 10 ∨ month = 11 ∨ month = 12 := by
    omega
  unfold daysInYear
  rcases hmonth with rfl | rfl | rfl | rfl | rfl | rfl | rfl | rfl | rfl | rfl
  all_goals
    simp only [daysBeforeMonth, daysInMonth]
    split
    . rfl
    . rfl

theorem jdInt_of_two_lt_month {year month : Nat} (hyear : 1 ≤ year) (hpos : 2 < month)
    (h : month ≤ 12) (day : Nat)
    : jdInt year month day + 15
        =
      (daysBeforeYear year + daysBeforeMonth year month + day + 1721424
        + (year / 100 - year / 400) : Nat) := by
  have hle : year / 400 ≤ year / 100 := Nat.div_le_div_left (by omega) (by omega)
  have hle' : year / 100 ≤ year / 4 := Nat.div_le_div_left (by omega) (by omega)
  have hmonth := daysBeforeMonth_add year hpos h
  have hsucc := daysBeforeYear_succ hyear
  have hnext : daysBeforeYear (year + 1) = year * 365 + year / 4 - year / 100 + year / 400 := rfl
  have hshift : ((month : Int) + 9) / 12 = 1 := by omega
  have hquarter : 7 * ((year : Int) + 1) / 4 = 2 * year + 1 - year / 4 := by omega
  unfold jdInt
  rw [hshift, hquarter]
  omega

/-- The year that begins in the March at or before a date. -/
def marchYear (d : Date) : Nat :=
  if d.month ≤ 2 then d.year - 1 else d.year

theorem jdInt_eq (d : Date)
    : jdInt d.year d.month d.day + 15
        =
      (d.ordinal + 1721424 + (marchYear d / 100 - marchYear d / 400) : Nat) := by
  unfold Date.ordinal marchYear
  split
  . next h =>
    exact jdInt_of_month_le_two d.yearPos d.monthPos h d.day
  . next h =>
    exact jdInt_of_two_lt_month d.yearPos (by omega) d.monthLe d.day

theorem jdInt_eq_iff {d : Date} (h : 1900 ≤ marchYear d)
    : jdInt d.year d.month d.day = d.ordinal + 1721424 ↔ marchYear d < 2100 := by
  have heq := jdInt_eq d
  have hcenturies : marchYear d / 400 = marchYear d / 100 / 4 := by
    rw [Nat.div_div_eq_div_mul]
  have hlt : marchYear d < 2100 ↔ marchYear d / 100 < 21 := by omega
  have hge : 19 ≤ marchYear d / 100 := by omega
  rw [hlt]
  rw [hcenturies] at heq
  generalize marchYear d / 100 = century at *
  omega

structure JdCorrect (d : Date) (t : TimeOfDay) (jd : Rat × Rat) : Prop where
  sum : jd.1 + jd.2 = julianDate d t
  fracNonneg : 0 ≤ jd.2
  fracLt : jd.2 < 1
  integral : ∃ n : Int, jd.1 = n

theorem jdFromComponents_add (fl : Rat → Rat) (d : Date) (t : TimeOfDay)
    : (jdFromComponents fl d t).1 + (jdFromComponents fl d t).2
        =
      jdInt d.year d.month d.day + dayFrac fl t := by
  unfold jdFromComponents
  ring

theorem jdFromComponents_frac (fl : Rat → Rat) (d : Date) (t : TimeOfDay)
    : (jdFromComponents fl d t).2 = Int.fract (dayFrac fl t) := rfl

theorem dayFrac_id (t : TimeOfDay) : dayFrac id t = t.fraction + 1 / 2 := rfl

theorem jdCorrect_iff (d : Date) (t : TimeOfDay)
    : JdCorrect d t (jdFromComponents id d t)
        ↔
      jdInt d.year d.month d.day = d.ordinal + 1721424 := by
  constructor
  . intro h
    have hsum := h.sum
    rw [jdFromComponents_add, dayFrac_id, julianDate] at hsum
    have : (jdInt d.year d.month d.day : Rat) = ((d.ordinal + 1721424 : Int) : Rat) := by
      push_cast
      linarith
    exact_mod_cast this
  . intro h
    refine { sum := ?sum, fracNonneg := ?nonneg, fracLt := ?lt, integral := ?integral }
    case sum =>
      rw [jdFromComponents_add, dayFrac_id, julianDate, h]
      push_cast
      ring
    case nonneg =>
      rw [jdFromComponents_frac]
      exact Int.fract_nonneg _
    case lt =>
      rw [jdFromComponents_frac]
      exact Int.fract_lt_one _
    case integral =>
      exact ⟨jdInt d.year d.month d.day + ⌊dayFrac id t⌋, by simp [jdFromComponents]⟩

def AfterFebruary1900 (d : Date) : Prop :=
  1900 < d.year ∨ d.year = 1900 ∧ 2 < d.month

def BeforeMarch2100 (d : Date) : Prop :=
  d.year < 2100 ∨ d.year = 2100 ∧ d.month ≤ 2

theorem le_marchYear {d : Date} (h : AfterFebruary1900 d) : 1900 ≤ marchYear d := by
  unfold AfterFebruary1900 at h
  unfold marchYear
  split
  . omega
  . omega

theorem marchYear_lt_iff (d : Date) : marchYear d < 2100 ↔ BeforeMarch2100 d := by
  have := d.yearPos
  unfold marchYear BeforeMarch2100
  split
  . omega
  . omega

theorem jdCorrect_iff_before {d : Date} (h : AfterFebruary1900 d) (t : TimeOfDay)
    : JdCorrect d t (jdFromComponents id d t) ↔ BeforeMarch2100 d := by
  rw [jdCorrect_iff, jdInt_eq_iff (le_marchYear h), marchYear_lt_iff]

def elapsedDays (d : Date) (t : TimeOfDay) (d' : Date) (t' : TimeOfDay) : Rat :=
  d'.ordinal - d.ordinal + (t'.fraction - t.fraction)

theorem jdFromComponents_correct_iff {d d' : Date} (h : AfterFebruary1900 d)
    (h' : AfterFebruary1900 d') (t t' : TimeOfDay)
    : (JdCorrect d t (jdFromComponents id d t) ∧ JdCorrect d' t' (jdFromComponents id d' t')
        ∧ (jdFromComponents id d' t').1 + (jdFromComponents id d' t').2
            = (jdFromComponents id d t).1 + (jdFromComponents id d t).2 + elapsedDays d t d' t')
        ↔
      BeforeMarch2100 d ∧ BeforeMarch2100 d' := by
  rw [← jdCorrect_iff_before h t, ← jdCorrect_iff_before h' t']
  constructor
  . rintro ⟨hd, hd', _⟩
    exact ⟨hd, hd'⟩
  . rintro ⟨hd, hd'⟩
    refine ⟨hd, hd', ?_⟩
    rw [hd.sum, hd'.sum, julianDate, julianDate, elapsedDays]
    ring

def leapDay2000 : Date where
  year := 2000
  month := 2
  day := 29
  yearPos := by decide
  monthPos := by decide
  monthLe := by decide
  dayPos := by decide
  dayLe := by decide

def march2100 : Date where
  year := 2100
  month := 3
  day := 1
  yearPos := by decide
  monthPos := by decide
  monthLe := by decide
  dayPos := Nat.zero_lt_one
  dayLe := by decide

def midnight : TimeOfDay where
  hour := 0
  minute := 0
  second := 0
  hourLt := by decide
  minuteLt := by decide
  secondNonneg := by decide
  secondLt := by decide

theorem jdFromComponents_correct_leapDay
    : JdCorrect leapDay2000 midnight (jdFromComponents id leapDay2000 midnight)
        ∧
      JdCorrect leapDay2000.next midnight (jdFromComponents id leapDay2000.next midnight)
        ∧
      (jdFromComponents id leapDay2000.next midnight).1
          + (jdFromComponents id leapDay2000.next midnight).2
        =
      (jdFromComponents id leapDay2000 midnight).1 + (jdFromComponents id leapDay2000 midnight).2
        + elapsedDays leapDay2000 midnight leapDay2000.next midnight :=
  (jdFromComponents_correct_iff (.inl (by decide)) (.inl (by decide)) midnight midnight).mpr
    ⟨.inl (by decide), .inl (by decide)⟩

/-- 2100 has no leap day, so from its first of March on the number is one day too large. -/
theorem jdFromComponents_wrong
    : ¬ ∀ d : Date, AfterFebruary1900 d → ∀ t : TimeOfDay,
        JdCorrect d t (jdFromComponents id d t) := by
  intro hall
  have hsum := (hall march2100 (.inl (by decide)) midnight).sum
  revert hsum
  decide +kernel

section doubles

open Rounding

theorem nearest_close {x x' k : Rat} (hnonneg : 0 ≤ x) (hlt : x < 3 / 2) (hk : k ≤ 100)
    (h : |x' - x| ≤ k * 2 ^ (-53 : ℤ))
    : |nearest binary64 x' - x| ≤ (k + 1) * 2 ^ (-53 : ℤ) := by
  have hpos : (0 : Rat) < 2 ^ (-53 : ℤ) := by positivity
  have hx' : |x'| < 2 := by
    have hunits : k * 2 ^ (-53 : ℤ) ≤ 1 / 10 :=
      calc
        _ ≤ (100 : Rat) * 2 ^ (-53 : ℤ) := mul_le_mul_of_nonneg_right hk (le_of_lt hpos)
        _ ≤ 1 / 10 := by norm_num
    obtain ⟨hlow, hhigh⟩ := abs_le.mp (le_trans h hunits)
    rw [abs_lt]
    constructor
    . linarith
    . linarith
  have hround : |nearest binary64 x' - x'| ≤ 2 ^ (-53 : ℤ) := by
    rw [abs_sub_comm]
    calc
      _ ≤ (2 : Rat) ^ (-52 : ℤ) / 2 := by
        apply abs_sub_nearest_le_of_lt binary64 (z := 1) (by decide)
        rwa [zpow_one]
      _ = 2 ^ (-53 : ℤ) := by norm_num
  calc
    _ ≤ |nearest binary64 x' - x'| + |x' - x| := abs_sub_le _ _ _
    _ ≤ (k + 1) * 2 ^ (-53 : ℤ) := by linarith

theorem abs_add_sub_add_le {x x' y y' k l e : Rat} (hx : |x' - x| ≤ k * e) (hy : |y' - y| ≤ l * e)
    : |x' + y' - (x + y)| ≤ (k + l) * e := by
  rw [add_sub_add_comm, add_mul]
  exact le_trans (abs_add_le _ _) (add_le_add hx hy)

theorem nearest_self_close {x : Rat} (hnonneg : 0 ≤ x) (hlt : x < 3 / 2)
    : |nearest binary64 x - x| ≤ 1 * 2 ^ (-53 : ℤ) := by
  have := @nearest_close x x 0 hnonneg hlt (by norm_num) (by simp)
  rwa [zero_add] at this

theorem TimeOfDay.fraction_lt (t : TimeOfDay) : t.fraction < 1 := by
  have hhour : (t.hour : Rat) ≤ 23 := by exact_mod_cast Nat.le_of_lt_succ t.hourLt
  have hminute : (t.minute : Rat) ≤ 59 := by exact_mod_cast Nat.le_of_lt_succ t.minuteLt
  have hsecond := t.secondLt
  unfold fraction
  linarith

theorem dayFrac_nearest (t : TimeOfDay)
    : |dayFrac (nearest binary64) t - dayFrac id t| ≤ 6 * 2 ^ (-53 : ℤ) := by
  have hhour : (0 : Rat) ≤ t.hour / 24 := by positivity
  have hminute : (0 : Rat) ≤ t.minute / 1440 := by positivity
  have hsecond : 0 ≤ t.second / 86400 := div_nonneg t.secondNonneg (by norm_num)
  have hlt := t.fraction_lt
  rw [dayFrac_id]
  unfold TimeOfDay.fraction at *
  unfold dayFrac
  generalize (t.hour : Rat) / 24 = a at *
  generalize (t.minute : Rat) / 1440 = b at *
  generalize t.second / 86400 = c at *
  -- the rounding errors of the six operations in turn
  have ha := @nearest_self_close a hhour (by linarith)
  have hb := @nearest_self_close b hminute (by linarith)
  have hc := @nearest_self_close c hsecond (by linarith)
  have hab := nearest_close (by linarith) (by linarith) (by norm_num) (abs_add_sub_add_le ha hb)
  have habc := nearest_close (by linarith) (by linarith) (by norm_num) (abs_add_sub_add_le hab hc)
  have hhalf : |(1 / 2 : Rat) - 1 / 2| ≤ 0 * 2 ^ (-53 : ℤ) := by simp
  have := nearest_close (by linarith) (by linarith) (by norm_num) (abs_add_sub_add_le habc hhalf)
  norm_num at this ⊢
  exact this

theorem dayFrac_nearest_bounds (t : TimeOfDay)
    : 0 ≤ dayFrac (nearest binary64) t ∧ dayFrac (nearest binary64) t < 2 := by
  obtain ⟨hlow, hhigh⟩ := abs_le.mp (dayFrac_nearest t)
  have hunits : 6 * (2 : Rat) ^ (-53 : ℤ) ≤ 1 / 2 := by norm_num
  have hnonneg : 0 ≤ t.fraction := by
    have := t.secondNonneg
    unfold TimeOfDay.fraction
    positivity
  have hlt := t.fraction_lt
  rw [dayFrac_id] at hlow hhigh
  constructor
  . linarith
  . linarith

theorem nearest_sub_one {x : Rat} (hfloat : nearest binary64 x = x) (hone : 1 ≤ x) (htwo : x < 2)
    : nearest binary64 (x - 1) = x - 1 := by
  have hulp : -52 ≤ ulpExponent binary64 x := by
    apply le_ulpExponent (z := 0)
    rw [abs_of_nonneg (by linarith)]
    simpa using hone
  obtain ⟨n, hn⟩ := exists_eq_mul_zpow hfloat hulp
  have heq : x - 1 = ((n - 2 ^ 52 : ℤ) : Rat) * 2 ^ (-52 : ℤ) := by
    rw [hn]
    push_cast
    norm_num
    ring
  rw [heq]
  apply nearest_eq_self
  rw [← heq]
  apply ulpExponent_le binary64 (z := 1) one_pos
  rw [abs_of_nonneg (by linarith), zpow_one]
  linarith

theorem jdInt_bounds {d : Date} (hbefore : BeforeMarch2100 d)
    : 0 ≤ jdInt d.year d.month d.day ∧ jdInt d.year d.month d.day < 2 ^ 52 := by
  have := d.monthPos
  have := d.monthLe
  have := d.dayPos
  have := d.dayLe
  have := daysInMonth_le d.year d.month
  unfold BeforeMarch2100 at hbefore
  unfold jdInt
  omega

/-- What the two numbers are in doubles. -/
structure JdFloats (d : Date) (t : TimeOfDay) (jd : Rat × Rat) : Prop where
  integral : ∃ n : Int, jd.1 = n
  fracNonneg : 0 ≤ jd.2
  fracLt : jd.2 < 1
  wholeFloat : nearest binary64 jd.1 = jd.1
  fracFloat : nearest binary64 jd.2 = jd.2
  sum : |jd.1 + jd.2 - julianDate d t| ≤ 6 * 2 ^ (-53 : ℤ)

theorem jdFloats_jdFromComponents {d : Date} (h : AfterFebruary1900 d) (hbefore : BeforeMarch2100 d)
    (t : TimeOfDay) : JdFloats d t (jdFromComponents (nearest binary64) d t) := by
  obtain ⟨hnonneg, hlt⟩ := dayFrac_nearest_bounds t
  have hfloor : ⌊dayFrac (nearest binary64) t⌋ = 0 ∨ ⌊dayFrac (nearest binary64) t⌋ = 1 := by
    have := Int.floor_nonneg.mpr hnonneg
    have : ⌊dayFrac (nearest binary64) t⌋ < 2 := Int.floor_lt.mpr (by exact_mod_cast hlt)
    omega
  have hwhole : (jdFromComponents (nearest binary64) d t).1
      = ((jdInt d.year d.month d.day + ⌊dayFrac (nearest binary64) t⌋ : ℤ) : Rat) := by
    simp [jdFromComponents]
  refine {
    integral := ⟨_, hwhole⟩
    fracNonneg := Int.fract_nonneg _
    fracLt := Int.fract_lt_one _
    wholeFloat := ?whole
    fracFloat := ?frac
    sum := ?sum }
  case whole =>
    obtain ⟨hpos, hbound⟩ := jdInt_bounds hbefore
    rw [hwhole]
    apply nearest_intCast binary64 (z := 53) (by decide) (le_refl _) (by decide)
    rw [← Int.cast_abs, abs_of_nonneg (by omega)]
    exact_mod_cast (show jdInt d.year d.month d.day + ⌊dayFrac (nearest binary64) t⌋ < 2 ^ 53 by omega)
  case frac =>
    have hfloat : nearest binary64 (dayFrac (nearest binary64) t) = dayFrac (nearest binary64) t :=
      nearest_nearest binary64 _
    rw [jdFromComponents_frac]
    unfold Int.fract
    rcases hfloor with hzero | hone
    . rw [hzero, Int.cast_zero, sub_zero, hfloat]
    . rw [hone, Int.cast_one]
      apply nearest_sub_one hfloat _ hlt
      have := Int.floor_le (dayFrac (nearest binary64) t)
      rwa [hone, Int.cast_one] at this
  case sum =>
    have hexact := ((jdCorrect_iff_before h t).mpr hbefore).sum
    rw [jdFromComponents_add] at hexact
    rw [jdFromComponents_add, ← hexact, add_sub_add_left_eq_sub]
    exact dayFrac_nearest t

/--
In doubles both numbers are exact but for the fraction of the day, so that instants keep their order if
they are a nanosecond apart.
-/
theorem jdFromComponents_nearest {d d' : Date} (h : AfterFebruary1900 d) (hbefore : BeforeMarch2100 d)
    (h' : AfterFebruary1900 d') (hbefore' : BeforeMarch2100 d') (t t' : TimeOfDay)
    : let jd := jdFromComponents (nearest binary64) d t
      let jd' := jdFromComponents (nearest binary64) d' t'
      JdFloats d t jd
        ∧
      (julianDate d t + 1 / (86400 * 10 ^ 9) ≤ julianDate d' t' → jd.1 + jd.2 < jd'.1 + jd'.2) := by
  intro jd jd'
  have hfloats := jdFloats_jdFromComponents h hbefore t
  refine ⟨hfloats, ?_⟩
  intro hlater
  obtain ⟨_, hsum⟩ := abs_le.mp hfloats.sum
  obtain ⟨hsum', _⟩ := abs_le.mp (jdFloats_jdFromComponents h' hbefore' t').sum
  have hunits : 12 * (2 : Rat) ^ (-53 : ℤ) < 1 / (86400 * 10 ^ 9) := by norm_num
  calc
    jd.1 + jd.2 ≤ julianDate d t + 6 * 2 ^ (-53 : ℤ) := sub_le_iff_le_add'.mp hsum
    _ < julianDate d t + 1 / (86400 * 10 ^ 9) - 6 * 2 ^ (-53 : ℤ) := by linarith
    _ ≤ julianDate d' t' - 6 * 2 ^ (-53 : ℤ) := sub_le_sub_right hlater _
    _ ≤ jd'.1 + jd'.2 := by
      rw [sub_eq_add_neg]
      exact le_sub_iff_add_le'.mp hsum'

theorem jdFromComponents_nearest_leapDay
    : let jd := jdFromComponents (nearest binary64) leapDay2000 midnight
      let jd' := jdFromComponents (nearest binary64) leapDay2000.next midnight
      JdFloats leapDay2000 midnight jd
        ∧
      (julianDate leapDay2000 midnight + 1 / (86400 * 10 ^ 9) ≤ julianDate leapDay2000.next midnight
        → jd.1 + jd.2 < jd'.1 + jd'.2) :=
  jdFromComponents_nearest (.inl (by decide)) (.inl (by decide)) (.inl (by decide))
    (.inl (by decide)) midnight midnight

end doubles

end SGP4Engine

end SdaSystem
