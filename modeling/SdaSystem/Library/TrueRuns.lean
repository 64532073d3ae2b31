import Mathlib.Data.List.Basic

/-!
The maximal runs of `true` in a list, and how the differences of neighbouring entries find them.
-/

namespace TrueRuns

def diff (xs : List Int) : List Int :=
  List.zipWith (fun a b => b - a) xs xs.tail

def indicesFrom (v : Int) (i : Nat) (xs : List Int) : List Nat :=
  ((xs.zipIdx i).filter (·.1 = v)).map (·.2)

def indicesOf (v : Int) (xs : List Int) : List Nat :=
  indicesFrom v 0 xs

def toInt (b : Bool) : Int :=
  if b then 1 else 0

/-- The maximal runs `[rise, set)` of `true`. -/
def trueRuns (xs : List Bool) : List (Nat × Nat) :=
  go none 0 xs
where
  -- `start` is where the run began that is not over yet.
  go (start : Option Nat) (i : Nat) (xs : List Bool) : List (Nat × Nat) :=
    match xs, start with
    | [], none => []
    | [], some rise => [(rise, i)]
    | true :: xs, none => go (some i) (i + 1) xs
    | true :: xs, some rise => go (some rise) (i + 1) xs
    | false :: xs, none => go none (i + 1) xs
    | false :: xs, some rise => (rise, i) :: go none (i + 1) xs

@[simp]
theorem indicesFrom_nil (v : Int) (i : Nat) : indicesFrom v i [] = [] := rfl

@[simp]
theorem indicesFrom_cons (v x : Int) (i : Nat) (xs : List Int)
    : indicesFrom v i (x :: xs)
        =
      if x = v then i :: indicesFrom v (i + 1) xs else indicesFrom v (i + 1) xs := by
  unfold indicesFrom
  rw [List.zipIdx_cons, List.filter_cons]
  by_cases h : x = v <;> simp [h]

@[simp]
theorem diff_singleton (a : Int) : diff [a] = [] := rfl

@[simp]
theorem diff_cons_cons (a b : Int) (xs : List Int) : diff (a :: b :: xs) = (b - a) :: diff (b :: xs) :=
  rfl

theorem zip_indicesFrom_diff (xs : List Bool) (i : Nat)
    : List.zip
          (indicesFrom 1 i (diff (0 :: (xs.map toInt ++ [0]))))
          (indicesFrom (-1) i (diff (0 :: (xs.map toInt ++ [0]))))
          =
        trueRuns.go none i xs
        ∧
      ∀ rise, List.zip
          (rise :: indicesFrom 1 i (diff (1 :: (xs.map toInt ++ [0]))))
          (indicesFrom (-1) i (diff (1 :: (xs.map toInt ++ [0]))))
          =
        trueRuns.go (some rise) i xs := by
  -- a run that has begun needs a case of its own: it is preceded by 1 in place of 0
  induction xs generalizing i with
  | nil => simp [trueRuns.go]
  | cons b xs ih =>
    have ih := ih (i + 1)
    cases b with
    | false =>
      constructor
      . simpa [toInt, trueRuns.go] using ih.left
      . intro rise
        simpa [toInt, trueRuns.go] using ih.left
    | true =>
      constructor
      . simpa [toInt, trueRuns.go] using ih.right i
      . intro rise
        simpa [toInt, trueRuns.go] using ih.right rise

theorem zip_indicesOf_diff (xs : List Bool)
    : List.zip
          (indicesOf 1 (diff (0 :: (xs.map toInt ++ [0]))))
          (indicesOf (-1) (diff (0 :: (xs.map toInt ++ [0]))))
        =
      trueRuns xs := by
  unfold indicesOf trueRuns
  apply (zip_indicesFrom_diff xs 0).left

theorem go_spec (xs : List Bool) (start : Option Nat) (i : Nat)
    (hstart : ∀ rise, start = some rise → rise < i) {rise set : Nat}
    (h : (rise, set) ∈ trueRuns.go start i xs)
    : rise < set ∧ set ≤ i + xs.length
        ∧ (start = some rise ∨ i ≤ rise)
        ∧ ∀ k, i ≤ k → rise ≤ k → k < set → xs[k - i]? = some true := by
  induction xs generalizing start i with
  | nil =>
    cases start with
    | none => simp [trueRuns.go] at h
    | some r =>
      simp only [trueRuns.go, List.mem_singleton, Prod.mk.injEq] at h
      have := hstart r rfl
      grind
  | cons b xs ih =>
    -- the run is found behind `b`, and `b` is part of it only if `b` is `true`
    have hbehind : ∀ start' : Option Nat, (∀ r, start' = some r → r < i + 1) → (start' ≠ none → b = true)
        → (rise, set) ∈ trueRuns.go start' (i + 1) xs
        → rise < set ∧ set ≤ i + (b :: xs).length
            ∧ (start' = some rise ∨ i + 1 ≤ rise)
            ∧ ∀ k, i ≤ k → rise ≤ k → k < set → (b :: xs)[k - i]? = some true := by
      intro start' hstart' htrue hmem
      obtain ⟨hlt, hle, hrise, hinside⟩ := ih start' (i + 1) hstart' hmem
      refine ⟨hlt, by rw [List.length_cons]; omega, hrise, ?_⟩
      intro k hik hrk hks
      cases Nat.eq_or_lt_of_le hik with
      | inl heq =>
        have hb : b = true := by
          apply htrue
          rintro rfl
          grind
        simp [← heq, hb]
      | inr hlt =>
        have hshift : k - i = k - (i + 1) + 1 := by omega
        rw [hshift, List.getElem?_cons_succ]
        apply hinside k hlt hrk hks
    cases b with
    | true =>
      cases start with
      | none =>
        have := hbehind (some i) (by grind) (by simp) (by simpa [trueRuns.go] using h)
        grind
      | some r =>
        have hr := hstart r rfl
        have := hbehind (some r) (by grind) (by simp) (by simpa [trueRuns.go] using h)
        grind
    | false =>
      cases start with
      | none =>
        have := hbehind none (by simp) (by simp) (by simpa [trueRuns.go] using h)
        grind
      | some r =>
        have hr := hstart r rfl
        simp only [trueRuns.go, List.mem_cons, Prod.mk.injEq] at h
        cases h with
        | inl h =>
          rw [h.left, h.right, List.length_cons]
          refine ⟨hr, by omega, Or.inl rfl, by omega⟩
        | inr h =>
          have := hbehind none (by simp) (by simp) h
          grind

theorem trueRuns_spec {xs : List Bool} {rise set : Nat} (h : (rise, set) ∈ trueRuns xs)
    : rise < set ∧ set ≤ xs.length ∧ ∀ k, rise ≤ k → k < set → xs[k]? = some true := by
  have := go_spec xs none 0 (by simp) h
  refine ⟨this.left, by omega, ?_⟩
  intro k hrk hks
  have hk := this.right.right.right k (by omega) hrk hks
  simpa using hk

theorem pairwise_go (xs : List Bool) (start : Option Nat) (i : Nat)
    : (trueRuns.go start i xs).Pairwise fun w w' => w.2 < w'.1 := by
  induction xs generalizing start i with
  | nil => cases start <;> simp [trueRuns.go]
  | cons b xs ih =>
    have hlater : ∀ w ∈ trueRuns.go none (i + 1) xs, i < w.1 := by
      intro w hw
      have := go_spec xs none (i + 1) (by simp) hw
      simp only [reduceCtorEq, false_or] at this
      omega
    cases b with
    | true => cases start <;> apply ih
    | false =>
      cases start with
      | none => apply ih
      | some rise => exact List.Pairwise.cons hlater (ih none (i + 1))

theorem trueRuns_pairwise (xs : List Bool) : (trueRuns xs).Pairwise fun w w' => w.2 < w'.1 := by
  apply pairwise_go

theorem getElem?_cons_sub (b : Bool) (xs : List Bool) {i k : Nat} (hlt : i < k)
    : (b :: xs)[k - i]? = xs[k - (i + 1)]? := by
  have hshift : k - i = k - (i + 1) + 1 := by omega
  rw [hshift, List.getElem?_cons_succ]

theorem go_maximal (xs : List Bool) (start : Option Nat) (i : Nat)
    (hstart : ∀ rise, start = some rise → rise < i) {rise set : Nat}
    (h : (rise, set) ∈ trueRuns.go start i xs)
    : i ≤ set
        ∧ (start = some rise ∨ ((start ≠ none → i < rise) ∧ (i < rise → xs[rise - 1 - i]? = some false)))
        ∧ (set < i + xs.length → xs[set - i]? = some false) := by
  induction xs generalizing start i with
  | nil =>
    cases start with
    | none => simp [trueRuns.go] at h
    | some r =>
      simp only [trueRuns.go, List.mem_singleton, Prod.mk.injEq] at h
      simp [h.left, h.right]
  | cons b xs ih =>
    -- Behind `b`, all that matters of the run is whether it begins right there.
    have hbehind : ∀ start' : Option Nat, (∀ r, start' = some r → r < i + 1)
        → (rise, set) ∈ trueRuns.go start' (i + 1) xs
        → i < set
            ∧ (start' = some rise
              ∨ ((start' ≠ none → i + 1 < rise)
                ∧ (i + 1 < rise → (b :: xs)[rise - 1 - i]? = some false)))
            ∧ (set < i + (b :: xs).length → (b :: xs)[set - i]? = some false) := by
      intro start' hstart' hmem
      obtain ⟨hle, hrise, hset⟩ := ih start' (i + 1) hstart' hmem
      refine ⟨hle, hrise.imp_right fun hrise => ⟨hrise.left, ?_⟩, ?_⟩
      . intro hlt
        rw [getElem?_cons_sub b xs (by omega)]
        apply hrise.right hlt
      . intro hlt
        rw [List.length_cons] at hlt
        rw [getElem?_cons_sub b xs hle]
        apply hset
        omega
    cases b with
    | true =>
      cases start with
      | none =>
        have := hbehind (some i) (by grind) (by simpa [trueRuns.go] using h)
        grind
      | some r =>
        have hr := hstart r rfl
        have := hbehind (some r) (by grind) (by simpa [trueRuns.go] using h)
        grind
    | false =>
      cases start with
      | none =>
        have := hbehind none (by simp) (by simpa [trueRuns.go] using h)
        grind
      | some r =>
        have hr := hstart r rfl
        simp only [trueRuns.go, List.mem_cons, Prod.mk.injEq] at h
        cases h with
        | inl h =>
          rw [h.left, h.right]
          simp
        | inr h =>
          have hspec := go_spec xs none (i + 1) (by simp) h
          have := hbehind none (by simp) h
          grind

theorem trueRuns_maximal {xs : List Bool} {rise set : Nat} (h : (rise, set) ∈ trueRuns xs)
    : (0 < rise → xs[rise - 1]? = some false) ∧ (set < xs.length → xs[set]? = some false) := by
  simpa using (go_maximal xs none 0 (by simp) h).right

theorem mem_go_of_begun (xs : List Bool) (rise i : Nat) {set : Nat} (hle : i ≤ set)
    (hend : set ≤ i + xs.length) (htrue : ∀ k, i ≤ k → k < set → xs[k - i]? = some true)
    (hafter : set < i + xs.length → xs[set - i]? = some false)
    : (rise, set) ∈ trueRuns.go (some rise) i xs := by
  induction xs generalizing i with
  | nil =>
    rw [List.length_nil] at hend
    have : set = i := by omega
    simp [trueRuns.go, this]
  | cons b xs ih =>
    rw [List.length_cons] at hend hafter
    cases b with
    | false =>
      -- the run is over here: its next sample would have to be `true`
      have : set = i := by
        by_contra hne
        have := htrue i (Nat.le_refl i) (by omega)
        simp at this
      simp [trueRuns.go, this]
    | true =>
      have hlt : i < set := by
        by_contra hge
        have heq : set = i := by omega
        have := hafter (by omega)
        simp [heq] at this
      apply ih (i + 1) hlt (by omega)
      . intro k hik hks
        rw [← getElem?_cons_sub true xs (by omega)]
        apply htrue k (by omega) hks
      . intro hset
        rw [← getElem?_cons_sub true xs hlt]
        apply hafter
        omega

theorem mem_go (xs : List Bool) (start : Option Nat) (i : Nat) {rise set : Nat} (hle : i ≤ rise)
    (hlt : rise < set) (hend : set ≤ i + xs.length) (hstart : i = rise → start = none)
    (htrue : ∀ k, rise ≤ k → k < set → xs[k - i]? = some true)
    (hbefore : i < rise → xs[rise - 1 - i]? = some false)
    (hafter : set < i + xs.length → xs[set - i]? = some false)
    : (rise, set) ∈ trueRuns.go start i xs := by
  induction xs generalizing start i with
  | nil =>
    rw [List.length_nil] at hend
    omega
  | cons b xs ih =>
    rw [List.length_cons] at hend hafter
    have htrue' : ∀ k, i < k → rise ≤ k → k < set → xs[k - (i + 1)]? = some true := by
      intro k hik hrk hks
      rw [← getElem?_cons_sub b xs hik]
      apply htrue k hrk hks
    have hafter' : set < i + 1 + xs.length → xs[set - (i + 1)]? = some false := by
      intro hset
      rw [← getElem?_cons_sub b xs (by omega)]
      apply hafter
      omega
    by_cases heq : i = rise
    . have hb := htrue i (by omega) (by omega)
      simp only [Nat.sub_self, List.getElem?_cons_zero, Option.some.injEq] at hb
      rw [hstart heq, hb, heq]
      apply mem_go_of_begun xs rise (rise + 1) hlt (by omega)
      . intro k hk hks
        rw [← heq]
        apply htrue' k (by omega) (by omega) hks
      . rw [← heq]
        apply hafter'
    . have hlater : ∀ start', (i + 1 = rise → start' = none)
          → (rise, set) ∈ trueRuns.go start' (i + 1) xs := by
        intro start' hstart'
        apply ih start' (i + 1) (by omega) (by omega) hstart' _ _ hafter'
        . intro k hrk hks
          apply htrue' k (by omega) hrk hks
        . intro hrise
          rw [← getElem?_cons_sub b xs (by omega)]
          apply hbefore
          omega
      cases b with
      | true =>
        have hnext : i + 1 ≠ rise := by
          intro hnext
          have := hbefore (by omega)
          simp [← hnext] at this
        cases start with
        | none => apply hlater (some i) fun h => absurd h hnext
        | some r => apply hlater (some r) fun h => absurd h hnext
      | false =>
        cases start with
        | none => apply hlater none fun _ => rfl
        | some r => apply List.mem_cons_of_mem _ (hlater none fun _ => rfl)

/-- The runs that are found are exactly the maximal ones. -/
theorem mem_trueRuns_iff {xs : List Bool} {rise set : Nat}
    : (rise, set) ∈ trueRuns xs
        ↔
      rise < set ∧ set ≤ xs.length ∧ (∀ k, rise ≤ k → k < set → xs[k]? = some true)
        ∧ (0 < rise → xs[rise - 1]? = some false) ∧ (set < xs.length → xs[set]? = some false) := by
  constructor
  . intro h
    obtain ⟨hlt, hle, htrue⟩ := trueRuns_spec h
    exact ⟨hlt, hle, htrue, trueRuns_maximal h⟩
  . rintro ⟨hlt, hle, htrue, hbefore, hafter⟩
    apply mem_go xs none 0 (Nat.zero_le rise) hlt
    . simpa using hle
    . simp
    . simpa using htrue
    . simpa using hbefore
    . simpa using hafter

end TrueRuns
