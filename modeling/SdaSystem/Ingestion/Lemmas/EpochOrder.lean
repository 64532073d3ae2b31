import Mathlib.Tactic.NormNum
import SdaSystem.Ingestion.Lemmas.Corrupt
import SdaSystem.Library.Gregorian
import SdaSystem.Library.PyNumber.Exact

open PyNumber
open Gregorian

namespace SdaSystem
namespace Validator

open TLEFetcher (isSpace strip length_strip_le)

/-- The year of an epoch, and its day as the text writes it. -/
structure EpochField where
  year : Int
  day : Rat
  deriving DecidableEq

def epochField (line : List Char) : Option EpochField := do
  let year2d ← int isSpace (columns 18 20 line)
  let day ← exact isSpace (strip (columns 20 32 line))
  return { year := if year2d ≥ epochYearCutoff then 1900 + year2d else 2000 + year2d, day }

namespace EpochField

def Before (f g : EpochField) : Prop :=
  f.year < g.year ∨ (f.year = g.year ∧ f.day < g.day)

/-- The day is past the end of its year, and is not before the other one in the next year. -/
def RunsInto (f g : EpochField) : Prop :=
  g.year = f.year + 1 ∧ daysInYear f.year.toNat + g.day ≤ f.day

def instant (f : EpochField) : Rat :=
  (newYear f.year + (f.day - 1)) * usPerDay

end EpochField

section float

open Rounding

variable {x y : Rat}

theorem one_le_of_nearest {n k : Nat} (hy : y = n / 10 ^ k) (hn : k = 0 ∨ n < 10 ^ 11)
    (h : 1 ≤ nearest binary64 y) : 1 ≤ y := by
  have hpos : (0 : Rat) < 10 ^ k := by positivity
  have hnonneg : 0 ≤ y := by
    rw [hy]
    positivity
  by_contra hlt
  rw [not_le] at hlt
  have herr : |y - nearest binary64 y| ≤ 2 ^ (-52 : ℤ) / 2 := by
    apply abs_sub_nearest_le_of_lt binary64 (z := 1) (by decide)
    rw [abs_of_nonneg hnonneg, zpow_one]
    linarith
  obtain ⟨hlow, _⟩ := abs_le.mp herr
  have hclose : 1 - 1 / 10 ^ 12 < y := by
    norm_num at hlow ⊢
    linarith
  have hk : k ≤ 11 := by
    by_contra hlarge
    have hn : (n : Rat) < 10 ^ 11 := by exact_mod_cast hn.resolve_left (by omega)
    have hpow : (10 : Rat) ^ 12 ≤ 10 ^ k := pow_le_pow_right₀ (by norm_num) (by omega)
    rw [hy, lt_div_iff₀ hpos] at hclose
    linarith
  have hpow : (10 : Rat) ^ k ≤ 10 ^ 11 := pow_le_pow_right₀ (by norm_num) hk
  have hsucc : (n : Rat) + 1 ≤ 10 ^ k := by
    rw [hy, div_lt_one hpos] at hlt
    exact_mod_cast hlt
  rw [hy, lt_div_iff₀ hpos] at hclose
  norm_num at hclose hpow
  linarith

theorem lt_of_nearest (h : nearest binary64 y < 367) : y < 367 := by
  by_contra hle
  have := nearest_mono binary64 (not_lt.mp hle)
  have hself : nearest binary64 (367 : Rat) = 367 := by decide +kernel
  linarith

theorem abs_sub_nearest_day_le (hnonneg : 0 ≤ x) (hlt : x < 512)
    : |x - nearest binary64 x| ≤ 2 ^ (-45 : ℤ) := by
  have : |x - nearest binary64 x| ≤ 2 ^ (-44 : ℤ) / 2 := by
    apply abs_sub_nearest_le_of_lt binary64 (z := 9) (by decide)
    rw [abs_of_nonneg hnonneg]
    norm_num
    exact hlt
  norm_num at this ⊢
  exact this

theorem abs_days_sub_le (hone : 1 ≤ y) (hlt : y < 367) (hx : 1 ≤ nearest binary64 y)
    (hx' : nearest binary64 y < 367)
    : |nearest binary64 (nearest binary64 y - 1) - (y - 1)| ≤ 2 ^ (-44 : ℤ) := by
  have hfirst := abs_sub_nearest_day_le (by linarith) (by linarith : y < 512)
  have hsecond := @abs_sub_nearest_day_le (nearest binary64 y - 1) (by linarith) (by linarith)
  rw [abs_le] at hfirst hsecond ⊢
  norm_num at hfirst hsecond ⊢
  constructor
  . linarith
  . linarith

theorem timedeltaDays_eq (days : Rat)
    : ∃ leftover : Rat, timedeltaDays days = ⌊days⌋ * usPerDay + halfEven leftover
        ∧ |⌊days⌋ * usPerDay + leftover - days * usPerDay| ≤ 1 / 1000 := by
  have hnonneg := Int.fract_nonneg days
  have hlt := Int.fract_lt_one days
  have hsplit := Int.floor_add_fract days
  refine ⟨nearest binary64 (Int.fract days * 86400000000), rfl, ?_⟩
  have herr : |Int.fract days * 86400000000 - nearest binary64 (Int.fract days * 86400000000)|
      ≤ 2 ^ (-16 : ℤ) / 2 := by
    apply abs_sub_nearest_le_of_lt binary64 (z := 37) (by decide)
    rw [abs_of_nonneg (by positivity)]
    norm_num
    linarith
  have hexact : ⌊days⌋ * usPerDay + Int.fract days * 86400000000 = days * usPerDay := by
    unfold usPerDay
    push_cast
    linarith
  rw [abs_le] at herr ⊢
  norm_num at herr ⊢
  constructor
  . linarith
  . linarith

theorem timedeltaDays_close (hone : 1 ≤ y) (hlt : y < 367) (hx : 1 ≤ nearest binary64 y)
    (hx' : nearest binary64 y < 367)
    : |timedeltaDays (nearest binary64 (nearest binary64 y - 1)) - (y - 1) * usPerDay| ≤ 11 / 20
        ∧
      ∀ n : ℤ, (y - 1) * usPerDay = n
        → timedeltaDays (nearest binary64 (nearest binary64 y - 1)) = n := by
  have hdays := abs_days_sub_le hone hlt hx hx'
  obtain ⟨leftover, heq, herr⟩ := timedeltaDays_eq (nearest binary64 (nearest binary64 y - 1))
  generalize nearest binary64 (nearest binary64 y - 1) = days at *
  have hclose : |⌊days⌋ * usPerDay + leftover - (y - 1) * usPerDay| ≤ 1 / 20 := by
    rw [abs_le] at hdays herr ⊢
    unfold usPerDay at *
    norm_num at hdays herr ⊢
    constructor
    . linarith
    . linarith
  rw [heq]
  constructor
  . have hround := (halfEven_spec leftover).left
    rw [abs_le] at hround hclose ⊢
    push_cast
    constructor
    . linarith
    . linarith
  . intro n hn
    rw [hn] at hclose
    have hleft : |leftover - ((n - ⌊days⌋ * usPerDay : ℤ) : Rat)| ≤ 1 / 20 := by
      push_cast
      rwa [show leftover - (n - ⌊days⌋ * usPerDay) = ⌊days⌋ * usPerDay + leftover - n by ring]
    have hhalf : halfEven leftover = n - ⌊days⌋ * usPerDay := by
      apply halfEven_eq_of
      . linarith
      . intro htie
        linarith
    rw [hhalf]
    omega

end float

section calendar

variable {f g : EpochField}

theorem newYear_natCast {year : Nat} (h : 1 ≤ year)
    : newYear year = daysBeforeYear year - 719162 := by
  obtain ⟨n, rfl⟩ := Nat.exists_eq_add_of_le' h
  have hle : n / 100 ≤ n * 365 + n / 4 := by omega
  unfold newYear daysBeforeYear
  rw [Nat.add_sub_cancel, Nat.cast_succ, add_sub_cancel_right, Nat.cast_add, Nat.cast_sub hle]
  push_cast
  ring

theorem newYear_add_one {year : Int} (h : 1 ≤ year)
    : newYear (year + 1) = newYear year + daysInYear year.toNat := by
  obtain ⟨y, rfl⟩ := Int.eq_ofNat_of_zero_le (by omega : 0 ≤ year)
  have hsucc := @daysBeforeYear_succ y (by omega)
  have hnext := @newYear_natCast (y + 1) (by omega)
  rw [newYear_natCast (by omega), Int.toNat_natCast]
  push_cast at hnext
  rw [hnext, hsucc]
  push_cast
  ring

theorem newYear_add_le {year year' : Int} (hpos : 1 ≤ year) (h : year + 1 < year')
    : newYear year + 730 ≤ newYear year' := by
  obtain ⟨y, rfl⟩ := Int.eq_ofNat_of_zero_le (by omega : 0 ≤ year)
  obtain ⟨y', rfl⟩ := Int.eq_ofNat_of_zero_le (by omega : 0 ≤ year')
  have hnext := @daysBeforeYear_succ y (by omega)
  have hle := @daysBeforeYear_add_le (y + 1) y' (by omega) (by omega)
  have := le_daysInYear y
  have := le_daysInYear (y + 1)
  rw [newYear_natCast (by omega), newYear_natCast (by omega)]
  omega

theorem instant_lt_instant_iff
    : f.instant < g.instant ↔ newYear f.year + f.day < newYear g.year + g.day := by
  unfold EpochField.instant
  rw [mul_lt_mul_iff_left₀ (by norm_num [usPerDay])]
  constructor
  . intro h
    linarith
  . intro h
    linarith

theorem instant_eq_instant_iff
    : f.instant = g.instant ↔ newYear f.year + f.day = newYear g.year + g.day := by
  unfold EpochField.instant
  rw [mul_left_inj' (by norm_num [usPerDay])]
  constructor
  . intro h
    linarith
  . intro h
    linarith

theorem Before.years (hf : 1 ≤ f.year) (hday : f.day < 367) (hday' : 1 ≤ g.day) (h : f.Before g)
    : (g.year = f.year + 1 ∧ (newYear g.year : Rat) = newYear f.year + daysInYear f.year.toNat)
        ∨
      (g.year ≠ f.year + 1 ∧ newYear f.year + f.day < newYear g.year + g.day) := by
  rcases h with hlt | ⟨hsame, hlt⟩
  . by_cases hnext : g.year = f.year + 1
    . refine Or.inl ⟨hnext, ?_⟩
      rw [hnext, newYear_add_one hf]
      push_cast
      rfl
    . have hyear : (newYear f.year : Rat) + 730 ≤ newYear g.year := by
        exact_mod_cast newYear_add_le hf (by omega)
      exact Or.inr ⟨hnext, by linarith⟩
  . rw [hsame]
    exact Or.inr ⟨by omega, by linarith⟩

theorem instant_lt_iff (hf : 1 ≤ f.year) (hday : f.day < 367) (hday' : 1 ≤ g.day) (h : f.Before g)
    : f.instant < g.instant ↔ ¬ f.RunsInto g := by
  rw [instant_lt_instant_iff]
  unfold EpochField.RunsInto
  rcases Before.years hf hday hday' h with ⟨hnext, hyear⟩ | ⟨hfar, hlt⟩
  . rw [hyear, and_iff_right hnext, not_le]
    constructor
    . intro h
      linarith
    . intro h
      linarith
  . simp [hfar, hlt]

theorem instant_eq_iff (hf : 1 ≤ f.year) (hday : f.day < 367) (hday' : 1 ≤ g.day) (h : f.Before g)
    : f.instant = g.instant
        ↔
      g.year = f.year + 1 ∧ f.day = daysInYear f.year.toNat + g.day := by
  rw [instant_eq_instant_iff]
  rcases Before.years hf hday hday' h with ⟨hnext, hyear⟩ | ⟨hfar, hlt⟩
  . rw [hyear, and_iff_right hnext, add_assoc, add_right_inj]
  . simp [hfar, hlt.ne]

end calendar

structure Decoded (f : EpochField) (epoch : Int) : Prop where
  yearPos : 1 ≤ f.year
  oneLe : 1 ≤ f.day
  lt : f.day < 367
  close : |epoch - f.instant| ≤ 11 / 20
  eq : ∀ n : Int, f.instant = n → epoch = n
  decimals : ∃ n : Nat, f.day * 10 ^ 10 = n
  fewDecimals : 100 ≤ f.day → ∃ n : Nat, f.day * 10 ^ 8 = n

section decoded

variable {f g : EpochField} {epoch epoch' : Int}

theorem Decoded.lt_of_instant_lt (hf : Decoded f epoch) (hg : Decoded g epoch')
    (h : f.instant < g.instant) : epoch < epoch' := by
  obtain ⟨n, hn⟩ := hf.decimals
  obtain ⟨m, hm⟩ := hg.decimals
  have hlt := instant_lt_instant_iff.mp h
  have hstep : newYear f.year * 10 ^ 10 + (n : Int) + 1 ≤ newYear g.year * 10 ^ 10 + m := by
    apply Int.add_one_le_of_lt
    have : (newYear f.year * 10 ^ 10 + n : Rat) < newYear g.year * 10 ^ 10 + m := by linarith
    exact_mod_cast this
  have hstep : (newYear f.year * 10 ^ 10 + n + 1 : Rat) ≤ newYear g.year * 10 ^ 10 + m := by
    exact_mod_cast hstep
  have hgap : f.instant + 8 ≤ g.instant := by
    unfold EpochField.instant usPerDay
    push_cast
    linarith
  obtain ⟨_, hle⟩ := abs_le.mp hf.close
  obtain ⟨hge, _⟩ := abs_le.mp hg.close
  have : (epoch : Rat) < epoch' := by linarith
  exact_mod_cast this

theorem Decoded.eq_of_instant_eq (hf : Decoded f epoch) (hg : Decoded g epoch') (h : f.Before g)
    (hinst : f.instant = g.instant) : epoch = epoch' := by
  have hnext := (instant_eq_iff hf.yearPos hf.lt hg.oneLe h).mp hinst
  have hyear : (365 : Rat) ≤ daysInYear f.year.toNat := by exact_mod_cast le_daysInYear _
  have hday := hg.oneLe
  obtain ⟨n, hn⟩ := hf.fewDecimals (by linarith)
  have hinstant : f.instant = ((newYear f.year - 1) * usPerDay + 864 * n : Int) := by
    unfold EpochField.instant usPerDay
    push_cast
    rw [← hn]
    ring
  rw [hf.eq _ hinstant, hg.eq _ (hinst.symm.trans hinstant)]

theorem Decoded.eq_iff (hf : Decoded f epoch) (hg : Decoded g epoch') (h : f.Before g)
    : epoch = epoch' ↔ g.year = f.year + 1 ∧ f.day = daysInYear f.year.toNat + g.day := by
  rw [← instant_eq_iff hf.yearPos hf.lt hg.oneLe h]
  constructor
  . intro heq
    rcases lt_trichotomy f.instant g.instant with hlt | hinst | hgt
    . exact absurd heq (hf.lt_of_instant_lt hg hlt).ne
    . exact hinst
    . exact absurd heq (hg.lt_of_instant_lt hf hgt).ne'
  . exact hf.eq_of_instant_eq hg h

theorem Decoded.lt_iff (hf : Decoded f epoch) (hg : Decoded g epoch') (h : f.Before g)
    : epoch < epoch' ↔ ¬ f.RunsInto g := by
  rw [← instant_lt_iff hf.yearPos hf.lt hg.oneLe h]
  constructor
  . intro hlt
    rcases lt_trichotomy f.instant g.instant with hinst | heq | hgt
    . exact hinst
    . exact absurd (hf.eq_of_instant_eq hg h heq) hlt.ne
    . exact absurd (hg.lt_of_instant_lt hf hgt) hlt.asymm
  . exact hf.lt_of_instant_lt hg

end decoded

section lines

variable {isupper : Char → Bool} {line a b : List Char}

theorem decoded_of_day {year : Int} (hyear : 1 ≤ year) {s : List Char} {y : Rat}
    (hexact : exact isSpace s = some y) (hlen : s.length ≤ 12) (hpos : 0 < y)
    (hone : 1 ≤ Rounding.nearest Rounding.binary64 y)
    (hlt : Rounding.nearest Rounding.binary64 y < 367)
    : Decoded ⟨year, y⟩ (newYear year * usPerDay
        + timedeltaDays (Rounding.nearest Rounding.binary64
            (Rounding.nearest Rounding.binary64 y - 1))) := by
  have hy : 1 ≤ y := by
    obtain ⟨n, k, hdiv, hn⟩ := exact_eq_div hexact hpos
    apply one_le_of_nearest hdiv _ hone
    apply hn.imp_right
    intro hn
    apply Nat.lt_of_lt_of_le hn
    apply Nat.pow_le_pow_right (by decide)
    omega
  have hy' := lt_of_nearest hlt
  obtain ⟨hclose, heq⟩ := timedeltaDays_close hy hy' hone hlt
  have hinstant : EpochField.instant ⟨year, y⟩ = newYear year * usPerDay + (y - 1) * usPerDay :=
    add_mul _ _ _
  refine ⟨hyear, hy, hy', ?_, ?_, ?_, ?_⟩
  . rw [hinstant]
    push_cast
    rwa [add_sub_add_left_eq_sub]
  . intro n hn
    rw [hinstant] at hn
    rw [heq (n - newYear year * usPerDay)]
    . ring
    . push_cast
      linarith
  . apply exact_mul_pow hexact (i := 0) (by simpa using hy) (by omega)
  . intro hlarge
    apply exact_mul_pow hexact (i := 2) (by linarith) (by omega)

theorem decoded_of_line1Ok (h : Line1Ok isupper (rstripCr line))
    : ∃ f epoch, epochField line = some f ∧ extractEpoch line = some epoch ∧ Decoded f epoch := by
  have hlen := h.shape.left
  have hshort : ¬ line.length < 32 := not_lt.mpr (le_trans (by decide) (le_length_of_rstripCr hlen))
  obtain ⟨year2d, hyear, _⟩ := int_pos h.fields.epochYear (not_hasStray_year h)
  obtain ⟨x, hfloat, hone, hlt⟩ := finite_day h
  rw [← columns_rstripCr hlen _ (by decide)] at hyear hfloat
  obtain ⟨y, hexact, rfl⟩ := float_eq_finite hfloat
  have hpos : 0 < y := by
    by_contra hle
    have := Rounding.nearest_mono Rounding.binary64 (not_lt.mp hle)
    rw [Rounding.nearest_zero] at this
    linarith
  have hday : (strip (columns 20 32 line)).length ≤ 12 :=
    Nat.le_trans (length_strip_le _) (length_columns_le _ _ _)
  have hyear' : 1 ≤ if (year2d : Int) ≥ epochYearCutoff then 1900 + (year2d : Int)
      else 2000 + year2d := by
    split
    . omega
    . omega
  refine ⟨_, _, ?_, ?_, decoded_of_day hyear' hexact hday hpos hone hlt⟩
  . unfold epochField
    rw [hyear, hexact]
    rfl
  . unfold extractEpoch
    rw [if_neg hshort, hyear, hfloat]
    dsimp only [Option.bind_eq_bind, Option.bind_some]
    rw [if_neg (by simp [hone, hlt])]

theorem extractNoradId_of_rstripCr (h : Line1Ok isupper (rstripCr line))
    : ∃ val, extractNoradId isupper line = some (some val) := by
  have hlen := h.shape.left
  have hshort : ¬ line.length < 7 := not_lt.mpr (le_trans (by decide) (le_length_of_rstripCr hlen))
  unfold extractNoradId
  rw [if_neg hshort]
  exact parseSatelliteNumber_of_numberOk hlen h.fields.number

/--
Accepted epochs are decoded in the order of their fields if and only if the day of the first one
does not run into the next year, and two of them are taken for one only when it runs into it.
-/
theorem extractEpoch_lt_iff (isupper : Char → Bool) (a b : List Char)
    (ha : validateLine1 isupper a = some none) (hb : validateLine1 isupper b = some none)
    : ∃ f g : EpochField, ∃ epoch epoch' noradId noradId' : Int,
        (epochField a = some f ∧ extractEpoch a = some epoch
          ∧ extractNoradId isupper a = some (some noradId))
        ∧ (epochField b = some g ∧ extractEpoch b = some epoch'
          ∧ extractNoradId isupper b = some (some noradId'))
        ∧ (f.Before g
          → (epoch < epoch' ↔ ¬ f.RunsInto g)
            ∧ ((noradId, epoch) = (noradId', epoch')
                ↔ noradId = noradId' ∧ g.year = f.year + 1
                  ∧ f.day = daysInYear f.year.toNat + g.day)) := by
  rw [validateLine1_eq_some_none] at ha hb
  obtain ⟨f, epoch, hf, hepoch, hdecoded⟩ := decoded_of_line1Ok ha
  obtain ⟨g, epoch', hg, hepoch', hdecoded'⟩ := decoded_of_line1Ok hb
  obtain ⟨noradId, hnorad⟩ := extractNoradId_of_rstripCr ha
  obtain ⟨noradId', hnorad'⟩ := extractNoradId_of_rstripCr hb
  refine ⟨f, g, epoch, epoch', noradId, noradId', ⟨hf, hepoch, hnorad⟩, ⟨hg, hepoch', hnorad'⟩, ?_⟩
  intro hbefore
  refine ⟨hdecoded.lt_iff hdecoded' hbefore, ?_⟩
  rw [Prod.mk.injEq, hdecoded.eq_iff hdecoded' hbefore]

def issOn (epoch : String) (checksum : Char) : List Char :=
  "1 25544U 98067A   ".toList ++ epoch.toList ++ "  .00016717  00000-0  10270-3 0  900".toList
    ++ [checksum]

theorem extractEpoch_lt_iff_iss
    : ∃ f g : EpochField, ∃ epoch epoch' noradId noradId' : Int,
        (epochField (issOn "23365.50000000" '1') = some f
          ∧ extractEpoch (issOn "23365.50000000" '1') = some epoch
          ∧ extractNoradId Char.isUpper (issOn "23365.50000000" '1') = some (some noradId))
        ∧ (epochField (issOn "24001.50000000" '9') = some g
          ∧ extractEpoch (issOn "24001.50000000" '9') = some epoch'
          ∧ extractNoradId Char.isUpper (issOn "24001.50000000" '9') = some (some noradId'))
        ∧ (f.Before g
          → (epoch < epoch' ↔ ¬ f.RunsInto g)
            ∧ ((noradId, epoch) = (noradId', epoch')
                ↔ noradId = noradId' ∧ g.year = f.year + 1
                  ∧ f.day = daysInYear f.year.toNat + g.day)) := by
  apply extractEpoch_lt_iff
  . decide +kernel
  . decide +kernel

/--
Day 366 of a year that has 365 days is accepted: it is decoded as the first day of the next year,
after the start of that day and with the key of its noon.
-/
theorem extractEpoch_runs_into
    : (¬ ∀ (isupper : Char → Bool) (a b : List Char) (f g : EpochField) (epoch epoch' : Int),
        validateLine1 isupper a = some none → validateLine1 isupper b = some none
          → epochField a = some f → epochField b = some g
          → extractEpoch a = some epoch → extractEpoch b = some epoch'
          → f.Before g → epoch < epoch' + 1)
        ∧
      ¬ ∀ (isupper : Char → Bool) (a b : List Char) (f g : EpochField) (key key' : Int × Int),
        validateLine1 isupper a = some none → validateLine1 isupper b = some none
          → epochField a = some f → epochField b = some g
          → extractNoradId isupper a = some (some key.1) → extractEpoch a = some key.2
          → extractNoradId isupper b = some (some key'.1) → extractEpoch b = some key'.2
          → f.year ≠ g.year ∨ 1 < |f.day - g.day| * usPerDay → key ≠ key' := by
  constructor
  . intro h
    have := h Char.isUpper (issOn "23366.99999999" '9') (issOn "24001.00000000" '4')
      ⟨2023, 36699999999 / 100000000⟩ ⟨2024, 1⟩ 1704153599999136 1704067200000000
      (by decide +kernel) (by decide +kernel) (by decide +kernel) (by decide +kernel)
      (by decide +kernel) (by decide +kernel) (Or.inl (by decide))
    omega
  . intro h
    apply h Char.isUpper (issOn "23366.50000000" '2') (issOn "24001.50000000" '9')
      ⟨2023, 733 / 2⟩ ⟨2024, 3 / 2⟩ (25544, 1704110400000000) (25544, 1704110400000000)
    . decide +kernel
    . decide +kernel
    . decide +kernel
    . decide +kernel
    . decide +kernel
    . decide +kernel
    . decide +kernel
    . decide +kernel
    . apply Or.inl
      decide
    . rfl

end lines

end Validator
end SdaSystem
