import SdaSystem.Ingestion.Impl.Validator
import SdaSystem.Library.PyNumber.Float

open PyNumber

namespace SdaSystem

namespace TLEFetcher

section strip

variable {s : List Char} {c : Char}

theorem strip_eq (s : List Char) : strip s = (s.dropWhile isSpace).rdropWhile isSpace := rfl

theorem length_strip_le (s : List Char) : (strip s).length ≤ s.length := by
  rw [strip_eq]
  apply Nat.le_trans (List.rdropWhile_prefix isSpace _).length_le
  apply List.length_dropWhile_le

theorem isSpace_head?_strip (h : c ∈ (strip s).head?) : isSpace c = false := by
  have h := head?_rdropWhile (t := s.dropWhile isSpace) h
  cases hs : s.dropWhile isSpace with
  | nil =>
    rw [hs] at h
    cases h
  | cons d t =>
    rw [hs] at h
    obtain rfl := Option.some.inj h
    rw [← Bool.not_eq_true]
    have := List.head_dropWhile_not isSpace (show s.dropWhile isSpace ≠ [] by simp [hs])
    simpa [hs] using this

theorem isSpace_getLast?_strip (h : c ∈ (strip s).getLast?) : isSpace c = false :=
  getLast?_rdropWhile h

theorem strip_eq_self (hhead : ∀ c ∈ s.head?, isSpace c = false)
    (hlast : ∀ c ∈ s.getLast?, isSpace c = false) : strip s = s :=
  trimBy_eq_self hhead hlast

@[simp]
theorem strip_strip (s : List Char) : strip (strip s) = strip s :=
  strip_eq_self (fun _ => isSpace_head?_strip) (fun _ => isSpace_getLast?_strip)

end strip

def spaces : List Nat := [
  0x09, 0x0A, 0x0B, 0x0C, 0x0D, 0x1C, 0x1D, 0x1E, 0x1F, 0x20, 0x85, 0xA0, 0x1680, 0x2000, 0x2001,
  0x2002, 0x2003, 0x2004, 0x2005, 0x2006, 0x2007, 0x2008, 0x2009, 0x200A, 0x2028, 0x2029, 0x202F,
  0x205F, 0x3000
]

theorem mem_spaces {c : Char} (h : isSpace c) : c.toNat ∈ spaces := by
  unfold isSpace at h
  rw [decide_eq_true_iff] at h
  unfold spaces
  simp only [List.mem_cons, List.not_mem_nil, or_false] at h ⊢
  omega

theorem blanks_isSpace : Blanks isSpace where
  digit := by
    intro c hdigit
    rw [← Bool.not_eq_true]
    intro hspace
    have hmem := mem_spaces hspace
    rw [isdigit, Bool.or_eq_true] at hdigit
    rcases hdigit with hdecimal | hother
    . have hall : ∀ z ∈ zeros, ∀ n ∈ spaces, n < z ∨ z + 10 ≤ n := by decide
      obtain ⟨d, hd⟩ := Option.isSome_iff_exists.mp hdecimal
      obtain ⟨_, z, hz, _⟩ := decimal_eq_some hd
      have := hall z hz c.toNat hmem
      omega
    . have hall : ∀ r ∈ otherDigits, ∀ n ∈ spaces, n < r.1 ∨ r.2 < n := by decide
      obtain ⟨r, hr, hrange⟩ := List.any_eq_true.mp hother
      rw [decide_eq_true_iff] at hrange
      have := hall r hr c.toNat hmem
      omega
  ascii := by
    intro c h
    unfold isAsciiSpace at h
    unfold isSpace
    rw [decide_eq_true_iff] at h ⊢
    omega
  low := by
    intro c h hlt
    have hall : ∀ n ∈ spaces, n < 127 → n ≤ 32 := by decide
    exact hall c.toNat (mem_spaces h) hlt

end TLEFetcher

namespace Validator

open TLEFetcher (isSpace strip blanks_isSpace)

section checks

variable {check : Option (Option LineError)} {checks : List (Option (Option LineError))}

@[simp]
theorem firstError_nil : firstError [] = some none := rfl

@[simp]
theorem firstError_cons_eq_some_none
    : firstError (check :: checks) = some none
        ↔
      check = some none ∧ firstError checks = some none := by
  match check with
  | none => simp [firstError]
  | some (some err) => simp [firstError]
  | some none => simp [firstError]

@[simp]
theorem firstError_cons_eq_none
    : firstError (check :: checks) = none
        ↔
      check = none ∨ (check = some none ∧ firstError checks = none) := by
  match check with
  | none => simp [firstError]
  | some (some err) => simp [firstError]
  | some none => simp [firstError]

variable {failed : Bool} {err : LineError}

@[simp]
theorem reject_eq_some_none : reject failed err = some none ↔ failed = false := by
  cases failed <;> simp [reject]

@[simp]
theorem reject_ne_none : reject failed err ≠ none := by
  simp [reject]

end checks

/-- There is a digit that neither `int` nor `float` takes. -/
def HasStray (s : List Char) : Prop :=
  ∃ c ∈ s, isdigit c ∧ isdecimal c = false

theorem hasStray_of_subset {s t : List Char} (h : s ⊆ t) (hs : HasStray s) : HasStray t := by
  obtain ⟨c, hc, hstray⟩ := hs
  exact ⟨c, h hc, hstray⟩

theorem columns_subset (i j : Nat) (line : List Char) : columns i j line ⊆ line := by
  unfold columns
  exact List.Subset.trans (List.drop_subset i _) (List.take_subset j line)

theorem length_columns_le (i j : Nat) (line : List Char) : (columns i j line).length ≤ j - i := by
  unfold columns
  rw [List.length_drop, List.length_take]
  omega

theorem all_isdecimal_iff {s : List Char} (h : isdigitText s)
    : s.all isdecimal ↔ ¬ HasStray s := by
  obtain ⟨_, hall⟩ := of_decide_eq_true h
  rw [List.all_eq_true] at hall ⊢
  unfold HasStray
  push Not
  apply forall₂_congr
  intro c hc
  simp [hall c hc]

def Reads (accept : PyNumber.Float → Bool) (field : List Char) : Prop :=
  ∃ x, float isSpace field = some x ∧ accept x

section

variable {field : List Char}

@[simp]
theorem checkElement_eq_some_none {element : Element} {inRange : PyNumber.Float → Bool}
    : checkElement element inRange field = some none ↔ Reads inRange field := by
  unfold checkElement Reads
  cases float isSpace field with
  | none => simp
  | some x => simp

@[simp]
theorem checkElement_ne_none {element : Element} {inRange : PyNumber.Float → Bool}
    : checkElement element inRange field ≠ none := by
  unfold checkElement
  split
  . simp
  . simp

@[simp]
theorem checkEpochDay_eq_some_none
    : checkEpochDay field = some none ↔ Reads (fun day => day.ge 1 ∧ day.lt 367) field := by
  unfold checkEpochDay Reads
  cases float isSpace field with
  | none => simp
  | some x => simp

@[simp]
theorem checkEpochDay_ne_none : checkEpochDay field ≠ none := by
  unfold checkEpochDay
  split
  . simp
  . simp

@[simp]
theorem checkEccentricity_eq_none
    : checkEccentricity field = none ↔ isdigitText field ∧ HasStray field := by
  unfold checkEccentricity
  by_cases h : isdigitText field
  . have hfloat := float_fraction blanks_isSpace h
    rw [all_isdecimal_iff h] at hfloat
    simp only [h, not_true_eq_false, if_false, true_and]
    cases hread : float isSpace ('0' :: '.' :: field) with
    | none => simpa [hread] using hfloat
    | some x => simpa [hread, Option.bind_eq_bind] using hfloat
  . simp [h]

@[simp]
theorem checkEccentricity_eq_some_none
    : checkEccentricity field = some none
        ↔
      isdigitText field ∧ Reads (fun x => x.ge 0 ∧ x.lt 1) ('0' :: '.' :: field) := by
  unfold checkEccentricity Reads
  by_cases h : isdigitText field
  . simp only [h, not_true_eq_false, if_false, true_and]
    cases hread : float isSpace ('0' :: '.' :: field) with
    | none => simp
    | some x => simp
  . simp [h]

end

section satelliteNumber

variable (isupper : Char → Bool)

def Alpha5 (s : List Char) : Prop :=
  ¬ isdigitText s ∧ s.length = 5 ∧ isupper (s.getD 0 ' ') ∧ isdigitText (s.drop 1)

def NumberRaises (field : List Char) : Prop :=
  (isdigitText (strip field) ∧ HasStray (strip field))
    ∨ (Alpha5 isupper (strip field) ∧ HasStray ((strip field).drop 1))

def NumberOk (field : List Char) : Prop :=
  (isdigitText (strip field) ∧ ¬ HasStray (strip field) ∧ ∃ c ∈ strip field, decimal c ≠ some 0)
    ∨ (Alpha5 isupper (strip field) ∧ ¬ HasStray ((strip field).drop 1))

variable {isupper} {field s : List Char}

theorem int_eq_none (hs : isdigitText s) : int isSpace s = none ↔ HasStray s := by
  have hall := List.all_eq_true.mp (of_decide_eq_true hs).right
  rw [int_eq_none_iff blanks_isSpace hs]
  apply exists_congr
  intro c
  apply and_congr_right
  intro hc
  simp [hall c hc]

theorem int_pos (hs : isdigitText s) (hstray : ¬ HasStray s)
    : ∃ n : Nat, int isSpace s = some (n : Int) ∧ (0 < n ↔ ∃ c ∈ s, decimal c ≠ some 0) :=
  int_of_decimal blanks_isSpace (of_decide_eq_true hs).left ((all_isdecimal_iff hs).mpr hstray)

theorem parseSatelliteNumber_spec (isupper : Char → Bool) (field : List Char)
    : (parseSatelliteNumber isupper field = none ↔ NumberRaises isupper field)
        ∧ ((∃ val, parseSatelliteNumber isupper field = some (some val))
          ↔ NumberOk isupper field) := by
  unfold parseSatelliteNumber NumberRaises NumberOk
  dsimp only
  generalize strip field = s
  by_cases hdigit : isdigitText s
  . have hne := (of_decide_eq_true hdigit).left
    have hnot : ¬ Alpha5 isupper s := fun h => h.left hdigit
    simp only [hne, if_false, hdigit, if_true, true_and, hnot, false_and, or_false]
    by_cases hstray : HasStray s
    . simp [(int_eq_none hdigit).mpr hstray, hstray]
    . obtain ⟨n, hn, hpos⟩ := int_pos hdigit hstray
      simp [hn, hstray, ← hpos]
  . have hiff : Alpha5 isupper s ↔
        s.length = 5 ∧ isupper (s.getD 0 ' ') ∧ isdigitText (s.drop 1) := and_iff_right hdigit
    rw [hiff]
    by_cases hnil : s = []
    . simp [hnil, isdigitText]
    . rw [if_neg hnil, if_neg hdigit]
      generalize s.getD 0 ' ' = c, s.drop 1 = rest
      by_cases halpha : s.length = 5 ∧ isupper c ∧ isdigitText rest
      . rw [if_pos halpha]
        by_cases hstray : HasStray rest
        . simp [(int_eq_none halpha.right.right).mpr hstray, hstray, halpha, hdigit]
        . obtain ⟨n, hn, _⟩ := int_pos halpha.right.right hstray
          simp [hn, hstray, halpha, hdigit]
      . simp [halpha, hdigit]

@[simp]
theorem checkSatelliteNumber_eq_none
    : checkSatelliteNumber isupper field = none ↔ NumberRaises isupper field := by
  unfold checkSatelliteNumber
  rw [Option.map_eq_none_iff, (parseSatelliteNumber_spec isupper field).left]

@[simp]
theorem checkSatelliteNumber_eq_some_none
    : checkSatelliteNumber isupper field = some none ↔ NumberOk isupper field := by
  unfold checkSatelliteNumber
  rw [← (parseSatelliteNumber_spec isupper field).right]
  match parseSatelliteNumber isupper field with
  | none => simp
  | some none => simp
  | some (some val) => simp

end satelliteNumber

section checksum

def digitValue (c : Char) : Nat :=
  (decimal c).getD (if c = '-' then 1 else 0)

def digitSum (line : List Char) : Nat :=
  ((line.take 68).map digitValue).sum

variable {line : List Char} {c : Char}

theorem decimal_eq_none (h : isdigit c = false) : decimal c = none := by
  cases hd : decimal c with
  | none => rfl
  | some d => simp [isdigit, isdecimal, hd] at h

theorem charValue_eq (c : Char)
    : charValue c = if isdigit c ∧ isdecimal c = false then none else some (digitValue c : Int) := by
  unfold charValue digitValue isdecimal
  cases hdigit : isdigit c with
  | true =>
    rw [if_pos rfl, int_singleton blanks_isSpace hdigit]
    cases decimal c with
    | none => simp
    | some d => simp
  | false =>
    rw [if_neg (by decide), decimal_eq_none hdigit]
    by_cases hc : c = '-'
    . simp [hc]
    . simp [hc]

theorem foldlM_charValue (total : Int) (s : List Char)
    : (HasStray s →
          s.foldlM (fun total c => (charValue c).map (total + ·)) total = none)
        ∧ (¬ HasStray s →
          s.foldlM (fun total c => (charValue c).map (total + ·)) total
            = some (total + ((s.map digitValue).sum : Nat))) := by
  induction s generalizing total with
  | nil => simp [HasStray]
  | cons c s ih =>
    have hcons : HasStray (c :: s) ↔ (isdigit c ∧ isdecimal c = false) ∨ HasStray s := by
      simp [HasStray]
    rw [hcons, List.foldlM_cons, charValue_eq]
    by_cases hc : isdigit c ∧ isdecimal c = false
    . simp [hc]
    . obtain ⟨hsome, hnone⟩ := ih (total + digitValue c)
      rw [if_neg hc]
      refine ⟨?_, ?_⟩
      . intro h
        simpa using hsome (h.resolve_left hc)
      . intro h
        have := hnone (not_or.mp h).right
        simpa [add_assoc] using this

theorem tleLineChecksum_eq_none : tleLineChecksum line = none ↔ HasStray (line.take 68) := by
  obtain ⟨hsome, hnone⟩ := foldlM_charValue 0 (line.take 68)
  unfold tleLineChecksum
  by_cases h : HasStray (line.take 68)
  . simp [hsome h, h]
  . simp [hnone h, h]

theorem tleLineChecksum_of_not_hasStray (h : ¬ HasStray (line.take 68))
    : tleLineChecksum line = some ((digitSum line % 10 : Nat) : Int) := by
  obtain ⟨_, hnone⟩ := foldlM_charValue 0 (line.take 68)
  unfold tleLineChecksum
  rw [hnone h, zero_add]
  rfl

theorem hasStray_iff (h : line.length = tleLineLength)
    : HasStray line
        ↔
      HasStray (line.take 68)
        ∨ (isdigit (line.getD 68 ' ') ∧ isdecimal (line.getD 68 ' ') = false) := by
  have hlt : 68 < line.length := by simp [h, tleLineLength]
  have hsplit : line = line.take 68 ++ [line.getD 68 ' '] := by
    rw [List.getD_eq_getElem?_getD, List.getElem?_eq_getElem hlt, Option.getD_some,
      List.take_concat_get' line 68 hlt, List.take_of_length_le (by simp [h, tleLineLength])]
  conv_lhs => rw [hsplit]
  simp only [HasStray, List.mem_append, List.mem_singleton, or_and_right, exists_or,
    exists_eq_left]

theorem checkChecksum_eq_none (h : line.length = tleLineLength)
    : checkChecksum line = none ↔ HasStray line := by
  rw [hasStray_iff h, ← tleLineChecksum_eq_none]
  unfold checkChecksum
  generalize line.getD 68 ' ' = c
  cases tleLineChecksum line with
  | none => simp
  | some computed =>
    cases hdigit : isdigit c with
    | false => simp [hdigit]
    | true =>
      cases hd : decimal c with
      | none => simp [hdigit, int_singleton blanks_isSpace hdigit, hd, isdecimal]
      | some d => simp [hdigit, int_singleton blanks_isSpace hdigit, hd, isdecimal]

theorem checkChecksum_eq_some_none (h : line.length = tleLineLength)
    : checkChecksum line = some none
        ↔
      ¬ HasStray line ∧ decimal (line.getD 68 ' ') = some (digitSum line % 10) := by
  rw [hasStray_iff h]
  unfold checkChecksum
  generalize line.getD 68 ' ' = c
  by_cases hstray : HasStray (line.take 68)
  . simp [tleLineChecksum_eq_none.mpr hstray, hstray]
  . rw [tleLineChecksum_of_not_hasStray hstray]
    cases hdigit : isdigit c with
    | false => simp [hdigit, decimal_eq_none hdigit]
    | true =>
      cases hd : decimal c with
      | none => simp [hdigit, int_singleton blanks_isSpace hdigit, hd, isdecimal]
      | some d =>
        simp [hdigit, int_singleton blanks_isSpace hdigit, hd, isdecimal, hstray]
        omega

end checksum

section lines

variable (isupper : Char → Bool)

def Shape (number : Char) (line : List Char) : Prop :=
  line.length = tleLineLength ∧ line.getD 0 ' ' = number ∧ line.getD 1 ' ' = ' '

def dayInRange (day : PyNumber.Float) : Bool :=
  day.ge 1 ∧ day.lt 367

-- The fields of the first line that are read before the checksum.
structure Fields1 (line : List Char) : Prop where
  number : NumberOk isupper (columns 2 7 line)
  epochYear : isdigitText (columns 18 20 line)
  epochDay : Reads dayInRange (strip (columns 20 32 line))

structure Line1Ok (line : List Char) : Prop where
  shape : Shape '1' line
  fields : Fields1 isupper line
  noStray : ¬ HasStray line
  checksum : decimal (line.getD 68 ' ') = some (digitSum line % 10)

/-- A stray digit is read, in the satellite number or else by the checksum. -/
def Line1Raises (line : List Char) : Prop :=
  Shape '1' line
    ∧ (NumberRaises isupper (columns 2 7 line) ∨ (Fields1 isupper line ∧ HasStray line))

def angleInRange (x : PyNumber.Float) : Bool :=
  x.ge 0 ∧ x.lt 360

-- The fields of the second line up to the digits of the eccentricity.
structure FieldsBefore (line : List Char) : Prop where
  number : NumberOk isupper (columns 2 7 line)
  inclination : Reads (fun x => x.ge 0 ∧ x.le 180) (columns 8 16 line)
  raan : Reads angleInRange (columns 17 25 line)
  eccentricityDigits : isdigitText (columns 26 33 line)

-- The fields of the second line from the value of the eccentricity on.
structure FieldsAfter (line : List Char) : Prop where
  eccentricity : Reads (fun x => x.ge 0 ∧ x.lt 1) ('0' :: '.' :: columns 26 33 line)
  argPerigee : Reads angleInRange (columns 34 42 line)
  meanAnomaly : Reads angleInRange (columns 43 51 line)
  meanMotion : Reads (fun x => x.gt 0 ∧ x.lt 20) (columns 52 63 line)

structure Line2Ok (line : List Char) : Prop where
  shape : Shape '2' line
  before : FieldsBefore isupper line
  after : FieldsAfter line
  noStray : ¬ HasStray line
  checksum : decimal (line.getD 68 ' ') = some (digitSum line % 10)

def Line2Raises (line : List Char) : Prop :=
  Shape '2' line
    ∧ (NumberRaises isupper (columns 2 7 line)
      ∨ (FieldsBefore isupper line
        ∧ (HasStray (columns 26 33 line) ∨ (FieldsAfter line ∧ HasStray line))))

variable {isupper} {line name line1 line2 : List Char}

theorem ne_nil_of_rstripCr (h : (rstripCr line).length = tleLineLength) : line ≠ [] := by
  rintro rfl
  cases h

theorem validateLine1_eq_some_none
    : validateLine1 isupper line = some none ↔ Line1Ok isupper (rstripCr line) := by
  have hnil := @ne_nil_of_rstripCr line
  unfold validateLine1
  generalize rstripCr line = l at hnil
  dsimp only
  simp only [firstError_cons_eq_some_none, firstError_nil, reject_eq_some_none,
    checkSatelliteNumber_eq_some_none, checkEpochDay_eq_some_none, decide_eq_false_iff_not,
    not_not, and_true]
  constructor
  . rintro ⟨_, hlen, hfirst, hblank, hnumber, hyear, hday, hsum⟩
    rw [checkChecksum_eq_some_none hlen] at hsum
    exact ⟨⟨hlen, hfirst, hblank⟩, ⟨hnumber, hyear, hday⟩, hsum.left, hsum.right⟩
  . rintro ⟨⟨hlen, hfirst, hblank⟩, ⟨hnumber, hyear, hday⟩, hstray, hsum⟩
    rw [checkChecksum_eq_some_none hlen]
    exact ⟨hnil hlen, hlen, hfirst, hblank, hnumber, hyear, hday, hstray, hsum⟩

theorem validateLine1_eq_none
    : validateLine1 isupper line = none ↔ Line1Raises isupper (rstripCr line) := by
  have hnil := @ne_nil_of_rstripCr line
  unfold validateLine1
  generalize rstripCr line = l at hnil
  dsimp only
  simp only [firstError_cons_eq_none, firstError_nil, reject_eq_some_none, reject_ne_none,
    checkSatelliteNumber_eq_some_none, checkSatelliteNumber_eq_none, checkEpochDay_eq_some_none,
    checkEpochDay_ne_none, decide_eq_false_iff_not, not_not, false_or]
  constructor
  . rintro ⟨_, hlen, hfirst, hblank, hrest⟩
    refine ⟨⟨hlen, hfirst, hblank⟩, hrest.imp_right ?_⟩
    rintro ⟨hnumber, hyear, hday, hsum⟩
    simp only [reduceCtorEq, and_false, or_false] at hsum
    exact ⟨⟨hnumber, hyear, hday⟩, (checkChecksum_eq_none hlen).mp hsum⟩
  . rintro ⟨⟨hlen, hfirst, hblank⟩, hrest⟩
    refine ⟨hnil hlen, hlen, hfirst, hblank, hrest.imp_right ?_⟩
    rintro ⟨⟨hnumber, hyear, hday⟩, hstray⟩
    exact ⟨hnumber, hyear, hday, .inl ((checkChecksum_eq_none hlen).mpr hstray)⟩

theorem validateLine2_eq_some_none
    : validateLine2 isupper line = some none ↔ Line2Ok isupper (rstripCr line) := by
  have hnil := @ne_nil_of_rstripCr line
  unfold validateLine2
  generalize rstripCr line = l at hnil
  dsimp only
  simp only [firstError_cons_eq_some_none, firstError_nil, reject_eq_some_none,
    checkSatelliteNumber_eq_some_none, checkElement_eq_some_none, checkEccentricity_eq_some_none,
    decide_eq_false_iff_not, not_not, and_true]
  constructor
  . rintro ⟨_, hlen, hfirst, hblank, hnumber, hincl, hraan, ⟨hdigits, hecc⟩, hargp, hma, hmm, hsum⟩
    rw [checkChecksum_eq_some_none hlen] at hsum
    exact ⟨⟨hlen, hfirst, hblank⟩, ⟨hnumber, hincl, hraan, hdigits⟩, ⟨hecc, hargp, hma, hmm⟩,
      hsum.left, hsum.right⟩
  . rintro ⟨⟨hlen, hfirst, hblank⟩, ⟨hnumber, hincl, hraan, hdigits⟩, ⟨hecc, hargp, hma, hmm⟩,
      hstray, hsum⟩
    rw [checkChecksum_eq_some_none hlen]
    exact ⟨hnil hlen, hlen, hfirst, hblank, hnumber, hincl, hraan, ⟨hdigits, hecc⟩, hargp, hma, hmm,
      hstray, hsum⟩

theorem validateLine2_eq_none
    : validateLine2 isupper line = none ↔ Line2Raises isupper (rstripCr line) := by
  have hnil := @ne_nil_of_rstripCr line
  unfold validateLine2
  generalize rstripCr line = l at hnil
  dsimp only
  simp only [firstError_cons_eq_none, firstError_nil, reject_eq_some_none, reject_ne_none,
    checkSatelliteNumber_eq_some_none, checkSatelliteNumber_eq_none, checkElement_eq_some_none,
    checkElement_ne_none, checkEccentricity_eq_none, checkEccentricity_eq_some_none,
    decide_eq_false_iff_not, not_not, false_or]
  constructor
  . rintro ⟨_, hlen, hfirst, hblank, hrest⟩
    refine ⟨⟨hlen, hfirst, hblank⟩, hrest.imp_right ?_⟩
    rintro ⟨hnumber, hincl, hraan, ⟨hdigits, hstray⟩ | ⟨⟨hdigits, hecc⟩, hargp, hma, hmm, hsum⟩⟩
    . exact ⟨⟨hnumber, hincl, hraan, hdigits⟩, .inl hstray⟩
    . simp only [reduceCtorEq, and_false, or_false] at hsum
      exact ⟨⟨hnumber, hincl, hraan, hdigits⟩,
        .inr ⟨⟨hecc, hargp, hma, hmm⟩, (checkChecksum_eq_none hlen).mp hsum⟩⟩
  . rintro ⟨⟨hlen, hfirst, hblank⟩, hrest⟩
    refine ⟨hnil hlen, hlen, hfirst, hblank, hrest.imp_right ?_⟩
    rintro ⟨⟨hnumber, hincl, hraan, hdigits⟩, hstray | ⟨⟨hecc, hargp, hma, hmm⟩, hstray⟩⟩
    . exact ⟨hnumber, hincl, hraan, .inl ⟨hdigits, hstray⟩⟩
    . exact ⟨hnumber, hincl, hraan,
        .inr ⟨⟨hdigits, hecc⟩, hargp, hma, hmm, .inl ((checkChecksum_eq_none hlen).mpr hstray)⟩⟩

theorem le_length_of_rstripCr (h : (rstripCr line).length = tleLineLength)
    : tleLineLength ≤ line.length := by
  rw [← h]
  apply (List.rdropWhile_prefix (· = '\r') line).length_le

theorem columns_rstripCr (h : (rstripCr line).length = tleLineLength) (i : Nat) {j : Nat}
    (hj : j ≤ tleLineLength) : columns i j line = columns i j (rstripCr line) := by
  obtain ⟨rest, heq⟩ := List.rdropWhile_prefix (· = '\r') line
  have heq : rstripCr line ++ rest = line := heq
  have hle : j ≤ (rstripCr line).length := by rwa [h]
  unfold columns
  conv_lhs => rw [← heq, List.take_append_of_le_length hle]

theorem parseSatelliteNumber_of_numberOk (hlen : (rstripCr line).length = tleLineLength)
    (h : NumberOk isupper (columns 2 7 (rstripCr line)))
    : ∃ val, parseSatelliteNumber isupper (columns 2 7 line) = some (some val) := by
  rw [columns_rstripCr hlen 2 (by decide)]
  exact (parseSatelliteNumber_spec isupper _).right.mpr h

theorem finite_of_dayInRange {day : PyNumber.Float} (h : dayInRange day)
    : ∃ x, day = .finite x ∧ 1 ≤ x ∧ x < 367 := by
  unfold dayInRange at h
  rw [decide_eq_true_iff] at h
  cases day with
  | nan => simp [PyNumber.Float.ge] at h
  | inf negative => cases negative <;> simp [PyNumber.Float.ge, PyNumber.Float.lt] at h
  | finite x => exact ⟨x, rfl, by simpa [PyNumber.Float.ge, PyNumber.Float.lt] using h⟩

theorem not_hasStray_year (h : Line1Ok isupper line) : ¬ HasStray (columns 18 20 line) :=
  mt (hasStray_of_subset (columns_subset 18 20 line)) h.noStray

theorem finite_day (h : Line1Ok isupper line)
    : ∃ x, float isSpace (strip (columns 20 32 line)) = some (.finite x) ∧ 1 ≤ x ∧ x < 367 := by
  obtain ⟨day, hday, hrange⟩ := h.fields.epochDay
  obtain ⟨x, rfl, hx⟩ := finite_of_dayInRange hrange
  exact ⟨x, hday, hx⟩

theorem validatePair_eq_none
    : validatePair isupper name line1 line2 = none
        ↔
      Line1Raises isupper (rstripCr line1)
        ∨ (Line1Ok isupper (rstripCr line1) ∧ Line2Raises isupper (rstripCr line2)) := by
  rw [← validateLine1_eq_none, ← validateLine1_eq_some_none, ← validateLine2_eq_none]
  unfold validatePair
  match h1 : validateLine1 isupper line1 with
  | none => simp
  | some (some err) => simp
  | some none =>
    match h2 : validateLine2 isupper line2 with
    | none => simp
    | some (some err) => simp
    | some none =>
      have hok1 := validateLine1_eq_some_none.mp h1
      have hok2 := validateLine2_eq_some_none.mp h2
      obtain ⟨val1, hval1⟩ := parseSatelliteNumber_of_numberOk hok1.shape.left hok1.fields.number
      obtain ⟨val2, hval2⟩ := parseSatelliteNumber_of_numberOk hok2.shape.left hok2.before.number
      simp [hval1, hval2]

theorem validatePair_eq_some_none
    : validatePair isupper name line1 line2 = some none
        ↔
      Line1Ok isupper (rstripCr line1) ∧ Line2Ok isupper (rstripCr line2)
        ∧ parseSatelliteNumber isupper (columns 2 7 line1)
            = parseSatelliteNumber isupper (columns 2 7 line2) := by
  rw [← validateLine1_eq_some_none, ← validateLine2_eq_some_none]
  unfold validatePair
  match h1 : validateLine1 isupper line1 with
  | none => simp
  | some (some err) => simp
  | some none =>
    match h2 : validateLine2 isupper line2 with
    | none => simp
    | some (some err) => simp
    | some none =>
      have hok1 := validateLine1_eq_some_none.mp h1
      have hok2 := validateLine2_eq_some_none.mp h2
      obtain ⟨val1, hval1⟩ := parseSatelliteNumber_of_numberOk hok1.shape.left hok1.fields.number
      obtain ⟨val2, hval2⟩ := parseSatelliteNumber_of_numberOk hok2.shape.left hok2.before.number
      simp [hval1, hval2]

end lines

end Validator
end SdaSystem
