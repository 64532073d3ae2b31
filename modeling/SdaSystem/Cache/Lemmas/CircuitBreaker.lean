import SdaSystem.Cache.Impl.CircuitBreaker

open Runs

namespace SdaSystem
namespace RedisCache

/-- What the completions, the latest one first, make of a new breaker. -/
def replay (completions : List Completion) : Breaker :=
  match completions with
  | [] => {}
  | completion :: completions =>
    if completion.failed then
      (replay completions).onFailure completion.time
    else
      .onSuccess

theorem openDeadline_pos {t : Rat} (h : 0 ≤ t) : 0 < openDeadline t := by
  have hthirty : PyFloat.fl ((30 : Int) : Rat) = (30 : Int) := PyFloat.fl_intCast (by decide)
  have hle : PyFloat.fl ((30 : Int) : Rat) ≤ openDeadline t := by
    apply PyFloat.fl_mono
    unfold openDurationSec
    push_cast
    linarith
  rw [hthirty] at hle
  apply lt_of_lt_of_le _ hle
  norm_num

theorem failureCount_replay (completions : List Completion)
    : (replay completions).failureCount = failedSinceSuccess completions := by
  unfold failedSinceSuccess
  induction completions with
  | nil => rfl
  | cons completion completions ih =>
    rw [replay, List.takeWhile_cons]
    split
    . exact congrArg (· + 1) ih
    . rfl

theorem openUntil_replay (completions : List Completion)
    : (replay completions).openUntil
        =
      if maxFailures ≤ failedSinceSuccess completions then
        ((completions.find? (·.failed)).map fun last => openDeadline last.time).getD 0
      else
        0 := by
  induction completions with
  | nil => rfl
  | cons completion completions ih =>
    have hcount := failureCount_replay completions
    unfold failedSinceSuccess at *
    rw [replay, List.takeWhile_cons, List.find?_cons]
    cases completion.failed with
    | false => rfl
    | true =>
      simp only [if_true, List.length_cons, Option.map_some, Option.getD_some]
      unfold Breaker.onFailure
      rw [hcount, ih]
      dsimp only
      split
      . rfl
      . next hfew => rw [if_neg (by omega)]

theorem circuitIsOpen_replay {completions : List Completion} (h : ∀ c ∈ completions, 0 ≤ c.time)
    (t : Rat) : (replay completions).circuitIsOpen t = true ↔ OpenAt completions t := by
  unfold Breaker.circuitIsOpen OpenAt
  rw [openUntil_replay, decide_eq_true_iff]
  split
  . next hmany =>
    cases hfind : completions.find? (·.failed) with
    | none => simp
    | some last =>
      have hnonneg := h last (List.mem_of_find?_eq_some hfind)
      have hpos : openDeadline last.time ≠ 0 := ne_of_gt (openDeadline_pos hnonneg)
      simp [hmany, hpos]
  . next hfew => simp [hfew]

def recorded (completions : List Completion) (i : Nat) : List Bool :=
  (completions.filter (·.call = i)).map (·.failed)

def Transient (results : List Result) : Prop :=
  ∀ result ∈ results, result = .transientError

/-- What the results of its commands say about where a call stands. -/
def Explained (call : Execution) : Prop :=
  match call.phase with
  | .awaiting attempt =>
    call.results.length + 1 = attempt ∧ attempt ≤ maxRetries ∧ call.commands = attempt
      ∧ Transient call.results
  | .sleeping attempt _ =>
    call.results.length = attempt ∧ attempt ≤ maxRetries ∧ call.commands = attempt
      ∧ Transient call.results
  | .finished .returned =>
    ∃ before, call.results = before ++ [.success] ∧ before.length < maxRetries ∧ Transient before
  | .finished .permanentError =>
    ∃ before, call.results = before ++ [.permanentError] ∧ before.length < maxRetries
      ∧ Transient before
  | .finished .retriesExhausted => call.results.length = maxRetries ∧ Transient call.results
  | .finished .circuitOpen => call.enteredOpen = true
  | .finished .otherException => .success ∉ call.results ∧ .permanentError ∉ call.results

structure CallOk (call : Execution) (recorded : List Bool) : Prop where
  enteredOpen : call.enteredOpen = true → call.phase = .finished .circuitOpen ∧ call.commands = 0
  commandsLe : call.commands ≤ maxRetries
  explained : Explained call
  recorded : recorded = call.phase.completion.toList

theorem Transient.not_mem {results : List Result} (h : Transient results) (result : Result)
    (hresult : result ≠ .transientError) : result ∉ results :=
  fun hmem => hresult (h result hmem)

theorem CallOk.not_enteredOpen {call : Execution} {recorded : List Bool} (h : CallOk call recorded)
    (hphase : ∀ ending, call.phase ≠ .finished ending) : call.enteredOpen = false := by
  cases hopen : call.enteredOpen with
  | false => rfl
  | true => exact absurd (h.enteredOpen hopen).left (hphase _)

def Execution.continued (call : Execution) (phase : Phase) (results : List Result) : Execution :=
  { call with
    phase
    commands := call.commands + phase.commands
    results := call.results ++ results }

/-- What one stretch of a call may do. Its accounting is that of the completion that can be seen. -/
structure Stretch (call : Execution) (results : List Result) (phase : Phase)
    (accounting : Option Accounting) : Prop where
  running : ∀ ending, call.phase ≠ .finished ending
  commandsLe : call.commands + phase.commands ≤ maxRetries
  explained : Explained (call.continued phase results)
  accounting : accounting
    = phase.completion.map fun failed => if failed then .onFailure else .onSuccess

def Keeps (results : List Result) (f : Phase → Option (Phase × Option Accounting)) : Prop :=
  ∀ call phase accounting, Explained call → call.commands ≤ maxRetries →
    f call.phase = some (phase, accounting) → Stretch call results phase accounting

theorem keeps_onResult (result : Result) : Keeps [result] (Call.onResult result) := by
  intro call phase accounting hexplained hle heq
  unfold Call.onResult at heq
  split at heq
  . next attempt hphase =>
    unfold Explained at hexplained
    rw [hphase] at hexplained
    obtain ⟨hlength, hattempt, hcommands, htransient⟩ := hexplained
    have hrunning : ∀ ending, call.phase ≠ .finished ending := by simp [hphase]
    cases result with
    | success =>
      cases heq
      exact ⟨hrunning, hle, ⟨call.results, rfl, by omega, htransient⟩, rfl⟩
    | transientError =>
      cases heq
      refine ⟨hrunning, hle, ⟨?_, hattempt, hcommands, ?_⟩, rfl⟩
      . exact List.length_append.trans hlength
      . exact List.forall_mem_append.mpr ⟨htransient, by simp⟩
    | permanentError =>
      cases heq
      exact ⟨hrunning, hle, ⟨call.results, rfl, by omega, htransient⟩, rfl⟩
    | otherException =>
      cases heq
      refine ⟨hrunning, hle, ⟨?_, ?_⟩, rfl⟩
      . simpa [Execution.continued] using htransient.not_mem .success (by decide)
      . simpa [Execution.continued] using htransient.not_mem .permanentError (by decide)
  . cases heq

theorem keeps_onWake : Keeps [] Call.onWake := by
  intro call phase accounting hexplained hle heq
  unfold Call.onWake at heq
  split at heq
  . next attempt delay hphase =>
    unfold Explained at hexplained
    rw [hphase] at hexplained
    obtain ⟨hlength, hattempt, hcommands, htransient⟩ := hexplained
    have hrunning : ∀ ending, call.phase ≠ .finished ending := by simp [hphase]
    split at heq
    . next hlt =>
      cases heq
      have hone : (Phase.awaiting (attempt + 1)).commands = 1 := rfl
      refine ⟨hrunning, by omega, ⟨?_, hlt, congrArg (· + 1) hcommands, ?_⟩, rfl⟩
      . simpa [Execution.continued] using hlength
      . simpa [Execution.continued] using htransient
    . cases heq
      refine ⟨hrunning, hle, ⟨?_, ?_⟩, rfl⟩
      . simp only [Execution.continued, List.append_nil]
        omega
      . simpa [Execution.continued] using htransient
  . cases heq

theorem keeps_onCancel : Keeps [] Call.onCancel := by
  intro call phase accounting hexplained hle heq
  unfold Call.onCancel at heq
  split at heq
  . cases heq
  . next hphase =>
    cases heq
    have htransient : Transient call.results := by
      unfold Explained at hexplained
      split at hexplained
      . exact hexplained.right.right.right
      . exact hexplained.right.right.right
      all_goals exact absurd ‹_› (hphase _)
    refine ⟨hphase, hle, ⟨?_, ?_⟩, rfl⟩
    . simpa [Execution.continued] using htransient.not_mem .success (by decide)
    . simpa [Execution.continued] using htransient.not_mem .permanentError (by decide)

structure Invariant (s : State) : Prop where
  breaker : s.breaker = replay s.completions
  calls : ∀ i call, s.calls[i]? = some call → CallOk call (recorded s.completions i)
  entered : ∀ c ∈ s.completions, c.call < s.calls.length
  times : ∀ c ∈ s.completions, 0 ≤ c.time ∧ c.time ≤ s.now.seconds
  latestFirst : s.completions.Pairwise fun c c' => c'.time ≤ c.time

theorem Invariant.circuitIsOpen {s : State} (h : Invariant s) (t : Rat)
    : s.breaker.circuitIsOpen t = true ↔ OpenAt s.completions t := by
  rw [h.breaker]
  exact circuitIsOpen_replay (fun c hc => (h.times c hc).left) t

theorem recorded_eq_nil {completions : List Completion} {i : Nat}
    (h : ∀ c ∈ completions, c.call ≠ i) : recorded completions i = [] := by
  unfold recorded
  rw [List.filter_eq_nil_iff.mpr, List.map_nil]
  intro c hc
  simpa using h c hc

theorem recorded_cons (c : Completion) (completions : List Completion) (i : Nat)
    : recorded (c :: completions) i
        =
      if c.call = i then c.failed :: recorded completions i else recorded completions i := by
  unfold recorded
  rw [List.filter_cons]
  by_cases h : c.call = i
  . simp [h]
  . simp [h]

theorem invariant_init (now : Moment) : Invariant { now } := by
  constructor <;> simp [replay]

theorem callOk_enter {s : State} (h : Invariant s) :
    CallOk {
      enteredOpen := OpenAt s.completions s.now.seconds
      phase := Call.enter s.breaker s.now.seconds
      commands := (Call.enter s.breaker s.now.seconds).commands
      results := []
    } [] := by
  have hopen := h.circuitIsOpen s.now.seconds
  unfold Call.enter
  split
  . next hyes =>
    rw [hopen] at hyes
    constructor
    case enteredOpen => exact fun _ => ⟨rfl, rfl⟩
    case commandsLe => exact Nat.zero_le _
    case explained => exact decide_eq_true hyes
    case recorded => rfl
  . next hno =>
    rw [hopen] at hno
    constructor
    case enteredOpen =>
      intro hyes
      exact absurd (of_decide_eq_true hyes) hno
    case commandsLe => exact (by decide : 1 ≤ maxRetries)
    case explained => exact ⟨rfl, by decide, rfl, by simp [Transient]⟩
    case recorded => rfl

theorem invariant_enter {s : State} (h : Invariant s) : Invariant s.enter := by
  unfold State.enter
  constructor
  case breaker => exact h.breaker
  case calls =>
    intro i call hget
    rw [List.getElem?_append] at hget
    split at hget
    . exact h.calls i call hget
    . next hnew =>
      -- nothing has been recorded under the number of the new call
      rw [List.getElem?_singleton] at hget
      split at hget
      . cases hget
        rw [recorded_eq_nil]
        . exact callOk_enter h
        . intro c hc
          have := h.entered c hc
          omega
      . cases hget
  case entered =>
    intro c hc
    have := h.entered c hc
    rw [List.length_append]
    omega
  case times => exact h.times
  case latestFirst => exact h.latestFirst

theorem resume_cases {results : List Result} {f : Phase → Option (Phase × Option Accounting)}
    {s s' : State} {i : Nat} (h : s.resume i results f = some s')
    : ∃ call phase accounting, s.calls[i]? = some call ∧ f call.phase = some (phase, accounting)
        ∧ s' = { s with
            breaker := s.breaker.account s.now.seconds accounting
            calls := s.calls.set i (call.continued phase results)
            completions := (phase.completion.map fun failed =>
              { call := i, time := s.now.seconds, failed }).toList ++ s.completions } := by
  unfold State.resume at h
  simp only [Option.bind_eq_bind, Option.bind_eq_some_iff, Option.pure_def] at h
  obtain ⟨call, hget, ⟨phase, accounting⟩, hcall, h⟩ := h
  cases h
  exact ⟨call, phase, accounting, hget, hcall, rfl⟩

theorem callOk_set {calls : List Execution} {recorded recorded' : Nat → List Bool} {i : Nat}
    {call' : Execution} (h : ∀ j call, calls[j]? = some call → CallOk call (recorded j))
    (hi : CallOk call' (recorded' i)) (hother : ∀ j, i ≠ j → recorded' j = recorded j)
    : ∀ j call, (calls.set i call')[j]? = some call → CallOk call (recorded' j) := by
  intro j call hget
  rw [List.getElem?_set] at hget
  split at hget
  . next hij =>
    subst hij
    split at hget
    . cases hget
      exact hi
    . cases hget
  . next hij =>
    rw [hother j hij]
    exact h j call hget

theorem CallOk.continued {call : Execution} {before : List Bool} {results : List Result}
    {phase : Phase} {accounting : Option Accounting} (h : CallOk call before)
    (hstretch : Stretch call results phase accounting)
    : before = [] ∧ CallOk (call.continued phase results) phase.completion.toList := by
  have hclosed := h.not_enteredOpen hstretch.running
  constructor
  . rw [h.recorded]
    cases hphase : call.phase with
    | awaiting attempt => rfl
    | sleeping attempt delay => rfl
    | finished ending => exact absurd hphase (hstretch.running ending)
  . constructor
    case enteredOpen =>
      intro hopen
      have : call.enteredOpen = true := hopen
      rw [hclosed] at this
      cases this
    case commandsLe => exact hstretch.commandsLe
    case explained => exact hstretch.explained
    case recorded => rfl

theorem invariant_resume {results : List Result} {f : Phase → Option (Phase × Option Accounting)}
    (hf : Keeps results f) {s s' : State} {i : Nat} (h : Invariant s)
    (heq : s.resume i results f = some s') : Invariant s' := by
  obtain ⟨call, phase, accounting, hget, hcall, rfl⟩ := resume_cases heq
  have hok := h.calls i call hget
  have hstretch := hf call phase accounting hok.explained hok.commandsLe hcall
  obtain ⟨hnone, hcontinued⟩ := hok.continued hstretch
  have hlt : i < s.calls.length := (List.getElem?_eq_some_iff.mp hget).choose
  have haccounting := hstretch.accounting
  cases hcompletion : phase.completion with
  | none =>
    rw [hcompletion] at haccounting hcontinued
    subst haccounting
    constructor
    case breaker => exact h.breaker
    case calls =>
      apply callOk_set h.calls _ fun j _ => rfl
      show CallOk _ (recorded s.completions i)
      rw [hnone]
      exact hcontinued
    case entered =>
      dsimp only
      rw [List.length_set]
      exact h.entered
    case times => exact h.times
    case latestFirst => exact h.latestFirst
  | some failed =>
    rw [hcompletion] at haccounting hcontinued
    subst haccounting
    constructor
    case breaker =>
      show _ = replay ({ call := i, time := s.now.seconds, failed } :: s.completions)
      rw [replay, h.breaker]
      cases failed with
      | true => rfl
      | false => rfl
    case calls =>
      apply callOk_set h.calls
      . show CallOk _ (recorded ({ call := i, time := s.now.seconds, failed } :: s.completions) i)
        rw [recorded_cons, if_pos rfl, hnone]
        exact hcontinued
      . intro j hij
        show recorded ({ call := i, time := s.now.seconds, failed } :: s.completions) j = _
        rw [recorded_cons, if_neg hij]
    case entered =>
      dsimp only
      rw [List.length_set]
      exact List.forall_mem_cons.mpr ⟨hlt, h.entered⟩
    case times =>
      exact List.forall_mem_cons.mpr ⟨⟨s.now.nonneg, le_refl _⟩, h.times⟩
    case latestFirst =>
      exact List.pairwise_cons.mpr ⟨fun c hc => (h.times c hc).right, h.latestFirst⟩

theorem invariant_step {s s' : State} {event : Event} (h : Invariant s) (hstep : Step s event s')
    : Invariant s' := by
  unfold Step step at hstep
  cases event with
  | enter =>
    cases hstep
    exact invariant_enter h
  | resolve i result => exact invariant_resume (keeps_onResult result) h hstep
  | wake i => exact invariant_resume keeps_onWake h hstep
  | cancel i => exact invariant_resume keeps_onCancel h hstep
  | clock now =>
    dsimp only at hstep
    split at hstep
    . next hle =>
      cases hstep
      exact { h with times := fun c hc => ⟨(h.times c hc).left, le_trans (h.times c hc).right hle⟩ }
    . cases hstep

structure BreakerInvariant (s : State) : Prop where
  failureCount : s.breaker.failureCount = failedSinceSuccess s.completions
  circuitIsOpen : ∀ t, s.breaker.circuitIsOpen t = true ↔ OpenAt s.completions t
  -- the breaker changes by the completions of calls that were let through, and by nothing else
  onlyCompletions : s.breaker = replay s.completions
  latestFirst : s.completions.Pairwise fun c c' => c'.time ≤ c.time
  enteredOpen : ∀ i call, s.calls[i]? = some call → call.enteredOpen = true →
    call.commands = 0 ∧ recorded s.completions i = []
  enteredClosed : ∀ i call, s.calls[i]? = some call →
    call.commands ≤ maxRetries ∧ (recorded s.completions i).length ≤ 1
  -- how a call ended follows from what Redis answered, and is what the completions say of it
  explained : ∀ i call, s.calls[i]? = some call →
    Explained call ∧ recorded s.completions i = call.phase.completion.toList

theorem breakerInvariant_of_run {now : Moment} {events : List Event} {s : State}
    (h : Run Step { now } events s) : BreakerInvariant s := by
  have hinv : Invariant s :=
    h.invariant (fun _ _ _ hs hstep => invariant_step hs hstep) (invariant_init now)
  constructor
  case failureCount =>
    rw [hinv.breaker]
    exact failureCount_replay s.completions
  case circuitIsOpen => exact hinv.circuitIsOpen
  case onlyCompletions => exact hinv.breaker
  case latestFirst => exact hinv.latestFirst
  case enteredOpen =>
    intro i call hget hopen
    have hok := hinv.calls i call hget
    obtain ⟨hphase, hcommands⟩ := hok.enteredOpen hopen
    refine ⟨hcommands, ?_⟩
    rw [hok.recorded, hphase]
    rfl
  case enteredClosed =>
    intro i call hget
    have hok := hinv.calls i call hget
    refine ⟨hok.commandsLe, ?_⟩
    rw [hok.recorded]
    exact Option.length_toList_le
  case explained =>
    intro i call hget
    exact ⟨(hinv.calls i call hget).explained, (hinv.calls i call hget).recorded⟩

def outage : List Event :=
  ((List.range 5).flatMap fun i => [.enter, .resolve i .permanentError])
    ++ [.clock { seconds := 2, nonneg := by decide }, .enter]

def outageEnd : State where
  now := { seconds := 2, nonneg := by decide }
  breaker := { failureCount := 5, openUntil := 30 }
  calls := List.replicate 5 {
    enteredOpen := false
    phase := .finished .permanentError
    commands := 1
    results := [.permanentError]
  } ++ [{ enteredOpen := true, phase := .finished .circuitOpen, commands := 0, results := [] }]
  completions := (List.range 5).reverse.map fun i => { call := i, time := 0, failed := true }

theorem breakerInvariant_outageEnd : BreakerInvariant outageEnd :=
  @breakerInvariant_of_run { seconds := 0, nonneg := by decide } outage outageEnd
    (run_of_foldlM (by decide +kernel))

end RedisCache
end SdaSystem
