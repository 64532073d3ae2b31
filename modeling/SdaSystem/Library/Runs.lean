import Mathlib.Data.List.Induction

/-!
Finite runs of a labelled transition system, the rule that an invariant of its steps is an invariant
of its runs, and its counterpart for runs of a function.
-/

namespace Runs

universe u v u' v'

variable {σ : Type u} {ε : Type v}

/-- `Run step s events t`: the events lead from `s` to `t`, one step each. -/
inductive Run (step : σ → ε → σ → Prop) : σ → List ε → σ → Prop where
  | nil (s : σ) : Run step s [] s
  | cons {s s' t : σ} {e : ε} {events : List ε} (hstep : step s e s') (hrest : Run step s' events t)
      : Run step s (e :: events) t

def restrict (allowed : σ → ε → Prop) (step : σ → ε → σ → Prop) (s : σ) (e : ε) (t : σ) : Prop :=
  allowed s e ∧ step s e t

variable {step : σ → ε → σ → Prop}

theorem Run.mono {step' : σ → ε → σ → Prop} (himp : ∀ s e t, step s e t → step' s e t) {s t : σ}
    {events : List ε} (h : Run step s events t) : Run step' s events t := by
  induction h with
  | nil => apply Run.nil
  | cons hstep _ ih => exact Run.cons (himp _ _ _ hstep) ih

theorem Run.invariant {I : σ → Prop} (hinv : ∀ s e t, I s → step s e t → I t) {s t : σ}
    {events : List ε} (h : Run step s events t) (hs : I s) : I t := by
  induction h with
  | nil => apply hs
  | cons hstep _ ih =>
    apply ih
    apply hinv _ _ _ hs hstep

theorem Run.invariant_events {allowed : ε → Prop} {I : List ε → σ → Prop}
    (hinv : ∀ before s e t, allowed e → I before s → step s e t → I (before ++ [e]) t) {s t : σ}
    {before events : List ε} (h : Run step s events t) (hevents : ∀ e ∈ events, allowed e)
    (hs : I before s) : I (before ++ events) t := by
  induction h generalizing before with
  | nil =>
    rw [List.append_nil]
    apply hs
  | cons hstep _ ih =>
    obtain ⟨he, hevents⟩ := List.forall_mem_cons.mp hevents
    rw [List.append_cons]
    apply ih hevents
    apply hinv _ _ _ _ he hs hstep

theorem Run.split {s t : σ} {before after : List ε} {e : ε} (h : Run step s (before ++ e :: after) t)
    : ∃ s' s'', Run step s before s' ∧ step s' e s'' ∧ Run step s'' after t := by
  induction before generalizing s with
  | nil =>
    cases h with
    | cons hstep hrest => exact ⟨_, _, Run.nil _, hstep, hrest⟩
  | cons e' before ih =>
    cases h with
    | cons hstep hrest =>
      obtain ⟨s', s'', hbefore, he, hafter⟩ := ih hrest
      exact ⟨s', s'', Run.cons hstep hbefore, he, hafter⟩

theorem Run.unappend {s t : σ} {before after : List ε} (h : Run step s (before ++ after) t)
    : ∃ u, Run step s before u ∧ Run step u after t := by
  induction before generalizing s with
  | nil => exact ⟨s, Run.nil s, h⟩
  | cons e before ih =>
    cases h with
    | cons hstep hrest =>
      obtain ⟨u, hbefore, hafter⟩ := ih hrest
      exact ⟨u, Run.cons hstep hbefore, hafter⟩

theorem Run.restrict_of_forall {allowed : ε → Prop} {s t : σ} {events : List ε}
    (h : Run step s events t) (hevents : ∀ e ∈ events, allowed e)
    : Run (restrict (fun _ e => allowed e) step) s events t := by
  induction h with
  | nil => apply Run.nil
  | cons hstep _ ih =>
    rw [List.forall_mem_cons] at hevents
    apply Run.cons
    . exact ⟨hevents.left, hstep⟩
    . apply ih hevents.right

theorem Run.snoc {s t u : σ} {events : List ε} {e : ε} (h : Run step s events t) (hstep : step t e u)
    : Run step s (events ++ [e]) u := by
  induction h with
  | nil => exact Run.cons hstep (Run.nil _)
  | cons hfirst _ ih => exact Run.cons hfirst (ih hstep)

theorem Run.append {s t u : σ} {events events' : List ε} (h : Run step s events t)
    (h' : Run step t events' u) : Run step s (events ++ events') u := by
  induction h with
  | nil => apply h'
  | cons hstep _ ih => exact Run.cons hstep (ih h')

theorem Run.project {σ' : Type u'} {ε' : Type v'} {step' : σ' → ε' → σ' → Prop} {part : σ → σ'}
    {events' : ε → List ε'} (hpart : ∀ s e t, step s e t → Run step' (part s) (events' e) (part t))
    {s t : σ} {events : List ε} (h : Run step s events t)
    : Run step' (part s) (events.flatMap events') (part t) := by
  induction h with
  | nil => apply Run.nil
  | cons hstep _ ih =>
    rw [List.flatMap_cons]
    apply (hpart _ _ _ hstep).append ih

theorem Run.invariant_prefix {s₀ t : σ} {events : List ε} {I : List ε → σ → Prop}
    (hinv : ∀ before s e s', Run step s₀ before s → I before s → step s e s' → I (before ++ [e]) s')
    (h : Run step s₀ events t) (hs : I [] s₀) : I events t := by
  have hfrom : ∀ before s rest u, Run step s₀ before s → I before s → Run step s rest u
      → I (before ++ rest) u := by
    intro before s rest u hbefore hI hrest
    induction hrest generalizing before with
    | nil =>
      rw [List.append_nil]
      apply hI
    | cons hstep _ ih =>
      rw [List.append_cons]
      apply ih
      . apply hbefore.snoc hstep
      . apply hinv _ _ _ _ hbefore hI hstep
  apply hfrom [] s₀ events t (Run.nil s₀) hs h

/-- At some event of the run `P` held of what came before it, of the state it found and of itself. -/
def Once (step : σ → ε → σ → Prop) (s₀ : σ) (P : List ε → σ → ε → Prop) (events : List ε) : Prop :=
  ∃ before e after s, events = before ++ e :: after ∧ Run step s₀ before s ∧ P before s e

theorem Once.append {s₀ : σ} {P : List ε → σ → ε → Prop} {events : List ε}
    (h : Once step s₀ P events) (more : List ε) : Once step s₀ P (events ++ more) := by
  obtain ⟨before, e, after, s, rfl, hrun, hP⟩ := h
  exact ⟨before, e, after ++ more, s, by simp, hrun, hP⟩

theorem Once.last {s₀ s : σ} {P : List ε → σ → ε → Prop} {before : List ε} {e : ε}
    (hrun : Run step s₀ before s) (h : P before s e) : Once step s₀ P (before ++ [e]) :=
  ⟨before, e, [], s, rfl, hrun, h⟩

theorem Once.imp {s₀ : σ} {P Q : List ε → σ → ε → Prop} {events : List ε}
    (h : Once step s₀ P events) (himp : ∀ before s e, P before s e → Q before s e)
    : Once step s₀ Q events := by
  obtain ⟨before, e, after, s, heq, hrun, hP⟩ := h
  exact ⟨before, e, after, s, heq, hrun, himp before s e hP⟩

/-- The invariant rule for what holds until something happens. -/
theorem Run.invariant_or_once {s₀ t : σ} {events : List ε} {I : σ → Prop} {P : List ε → σ → ε → Prop}
    (hinv : ∀ before s e s', I s → step s e s' → I s' ∨ P before s e)
    (h : Run step s₀ events t) (hs : I s₀) : I t ∨ Once step s₀ P events := by
  apply h.invariant_prefix (I := fun events t => I t ∨ Once step s₀ P events)
  . intro before s e s' hbefore hI hstep
    rcases hI with hI | honce
    . cases hinv before s e s' hI hstep with
      | inl hI => exact .inl hI
      | inr hP => exact .inr (Once.last hbefore hP)
    . exact .inr (honce.append [e])
  . exact .inl hs

theorem run_of_foldlM {f : σ → ε → Option σ} {s t : σ} {events : List ε}
    (h : events.foldlM f s = some t) : Run (fun s e s' => f s e = some s') s events t := by
  induction events generalizing s with
  | nil =>
    cases h
    apply Run.nil
  | cons e events ih =>
    rw [List.foldlM_cons, Option.bind_eq_bind, Option.bind_eq_some_iff] at h
    obtain ⟨s', hstep, hrest⟩ := h
    exact Run.cons hstep (ih hrest)

theorem forall_prefix_foldl_iff {r : σ → σ → Prop} (hr : Equivalence r) (f : σ → ε → σ) (s : σ)
    (events : List ε)
    : (∀ before, before <+: events → r (before.foldl f s) s)
        ↔
      ∀ before e, before ++ [e] <+: events → r (f (before.foldl f s) e) (before.foldl f s) := by
  constructor
  . intro h before e hpre
    have hbefore := h before ((List.prefix_append before [e]).trans hpre)
    have hafter := h (before ++ [e]) hpre
    rw [List.foldl_append] at hafter
    apply hr.trans hafter (hr.symm hbefore)
  . intro h before
    induction before using List.reverseRecOn with
    | nil =>
      intro _
      apply hr.refl
    | append_singleton before e ih =>
      intro hpre
      rw [List.foldl_append]
      apply hr.trans (h before e hpre)
      apply ih ((List.prefix_append before [e]).trans hpre)

/-- What holds at each place of a list, given what comes before it. -/
theorem forall_split_cons_iff {r : List ε → ε → Prop} {e : ε} {events : List ε}
    : (∀ before x after, e :: events = before ++ x :: after → r before x)
        ↔
      r [] e ∧ ∀ before x after, events = before ++ x :: after → r (e :: before) x := by
  constructor
  . intro h
    refine ⟨h [] e events rfl, ?_⟩
    intro before x after hsplit
    apply h (e :: before) x after
    rw [hsplit]
    rfl
  . rintro ⟨hfirst, hrest⟩ before x after hsplit
    cases before with
    | nil =>
      rw [List.nil_append, List.cons.injEq] at hsplit
      rw [← hsplit.left]
      apply hfirst
    | cons y before =>
      rw [List.cons_append, List.cons.injEq] at hsplit
      rw [← hsplit.left]
      apply hrest before x after hsplit.right

end Runs
