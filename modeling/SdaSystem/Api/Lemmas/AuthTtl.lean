import Mathlib.Order.Basic
import SdaSystem.Api.Impl.AuthTtl
import SdaSystem.Library.Runs

open Runs

namespace SdaSystem
namespace APIKeyAuth

def dbAnswer (keys : KeyTable) (keyToken : String) : Phase :=
  match query keys keyToken with
  | .found rateLimit => .success rateLimit
  | _ => .unauthorized

def IsAnswer (phase : Phase) : Prop :=
  (∃ rateLimit, phase = .success rateLimit) ∨ phase = .unauthorized

/-- How long, in milliseconds, an answer can be read after it has taken effect in the cache. -/
def staleness (answer : Phase) : Int :=
  match answer with
  | .success _ => 300 * 1000
  | _ => 60 * 1000

section

variable (sha256 : String → String) (s₀ : TimedState)

def Asked (n : Nat) (keyToken : String) (answer : Phase) : List TimedEvent → Prop :=
  Once (TimedStep sha256) s₀ fun _ s e =>
    e = .query n ∧ s.calls n = some ⟨keyToken, .missed⟩ ∧ dbAnswer s.keys keyToken = answer

/-- What some call was told when it asked took effect in the cache at `putAt`. -/
def Stored (keyToken : String) (answer : Phase) (putAt : Int) : List TimedEvent → Prop :=
  Once (TimedStep sha256) s₀ fun before s e =>
    s.now = putAt
      ∧ (∃ value, e = .land keyToken value ∧ (keyToken, value) ∈ s.sent ∧ lookup (some value) = answer)
      ∧ ∃ m, Asked sha256 s₀ m keyToken answer before

/-- Call `n` asked the database itself, or it read what was stored no longer ago than `staleness`. -/
def Answered (n : Nat) (keyToken : String) (answer : Phase) (events : List TimedEvent) : Prop :=
  Asked sha256 s₀ n keyToken answer events
    ∨ Once (TimedStep sha256) s₀
        (fun before s e => e = .lookup n true ∧ s.calls n = some ⟨keyToken, .started⟩
          ∧ ∃ putAt, putAt ≤ s.now ∧ s.now ≤ putAt + staleness answer
            ∧ Stored sha256 s₀ keyToken answer putAt before)
        events

end

variable {sha256 : String → String} {s₀ s t : TimedState} {e : TimedEvent} {events : List TimedEvent}
  {n m : Nat} {keyToken token : String} {answer phase : Phase} {call : Call} {value : Cached}

def TimedEvent.IsAdmin (e : TimedEvent) : Prop :=
  match e with
  | .createApiKey .. | .revokeApiKey .. | .updateApiKey .. => True
  | _ => False

inductive TimedOutcome (sha256 : String → String) (s : TimedState) : TimedEvent → TimedState → Prop where
  | start {n : Nat} {apiKey : String} (hcall : s.calls n = none)
      : TimedOutcome sha256 s (.start n apiKey) (s.setCall n ⟨sha256 apiKey, APIKeyAuth.start apiKey⟩)
  | lookup {n : Nat} {available : Bool} {keyToken : String} {cached : Option Cached}
      (hcall : s.calls n = some ⟨keyToken, .started⟩)
      (hcached : cached = none ∨ (available = true ∧ cached = s.cache.get s.now keyToken))
      : TimedOutcome sha256 s (.lookup n available) (s.setCall n ⟨keyToken, APIKeyAuth.lookup cached⟩)
  | query {n : Nat} {keyToken : String} (hcall : s.calls n = some ⟨keyToken, .missed⟩)
      : TimedOutcome sha256 s (.query n) (s.setCall n ⟨keyToken, APIKeyAuth.query s.keys keyToken⟩)
  | finish {n : Nat} {keyToken : String} {phase answer : Phase} {value : Cached}
      (hcall : s.calls n = some ⟨keyToken, phase⟩)
      (hfinish : APIKeyAuth.finish phase = some (value, answer))
      : TimedOutcome sha256 s (.finish n)
          ({ s with sent := (keyToken, value) :: s.sent }.setCall n ⟨keyToken, answer⟩)
  | land {keyToken : String} {value : Cached} (hsent : (keyToken, value) ∈ s.sent)
      : TimedOutcome sha256 s (.land keyToken value)
          { s with cache := s.cache.setex s.now (cacheTtl value) keyToken value }
  | lose {keyToken : String} {value : Cached}
      : TimedOutcome sha256 s (.lose keyToken value) { s with sent := s.sent.erase (keyToken, value) }
  | evict {keyToken : String}
      : TimedOutcome sha256 s (.evict keyToken) { s with cache := s.cache.evict keyToken }
  | admin {e : TimedEvent} (hadmin : e.IsAdmin) (keys : KeyTable) : TimedOutcome sha256 s e { s with keys }
  | clock {now : Int} (hle : s.now ≤ now) : TimedOutcome sha256 s (.clock now) { s with now }

theorem TimedStep.outcome (h : TimedStep sha256 s e t) : TimedOutcome sha256 s e t := by
  unfold TimedStep timedNext at h
  cases e with
  | start n apiKey =>
    dsimp only at h
    split at h
    . cases h
    . next hcall =>
      cases h
      apply TimedOutcome.start hcall
  | lookup n available =>
    dsimp only at h
    split at h
    . next keyToken hcall =>
      cases h
      apply TimedOutcome.lookup hcall
      cases available with
      | false => apply Or.inl rfl
      | true => apply Or.inr ⟨rfl, rfl⟩
    . cases h
  | query n =>
    dsimp only at h
    split at h
    . next keyToken hcall =>
      cases h
      apply TimedOutcome.query hcall
    . cases h
  | finish n =>
    dsimp only at h
    split at h
    . next keyToken phase hcall =>
      split at h
      . next value answer hfinish =>
        cases h
        apply TimedOutcome.finish hcall hfinish
      . cases h
    . cases h
  | land keyToken value =>
    dsimp only at h
    split at h
    . next hsent =>
      cases h
      apply TimedOutcome.land hsent
    . cases h
  | lose keyToken value =>
    cases h
    apply TimedOutcome.lose
  | evict keyToken =>
    cases h
    apply TimedOutcome.evict
  | createApiKey keyId rawKey rateLimitPerMin =>
    cases h
    apply TimedOutcome.admin
    trivial
  | revokeApiKey keyId =>
    cases h
    apply TimedOutcome.admin
    trivial
  | updateApiKey keyId rateLimitPerMin isActive =>
    cases h
    apply TimedOutcome.admin
    trivial
  | clock now =>
    dsimp only at h
    split at h
    . next hle =>
      cases h
      apply TimedOutcome.clock hle
    . cases h

theorem TimedState.setCall_calls_self : (s.setCall n call).calls n = some call := by
  apply Function.update_self

theorem TimedState.setCall_calls_of_ne (hne : n ≠ m) : (s.setCall m call).calls n = s.calls n := by
  apply Function.update_of_ne hne

theorem finish_spec (h : finish phase = some (value, answer))
    : lookup (some value) = answer ∧ cacheTtl value = staleness answer := by
  cases phase with
  | found rateLimit =>
    cases h
    apply And.intro rfl rfl
  | notFound =>
    cases h
    apply And.intro rfl rfl
  | _ => cases h

theorem finish_eq_none_of_isAnswer (h : IsAnswer phase) : finish phase = none := by
  rcases h with ⟨rateLimit, rfl⟩ | rfl <;> rfl

theorem finish_query {keys : KeyTable} (h : finish (query keys keyToken) = some (value, answer))
    : dbAnswer keys keyToken = answer := by
  unfold dbAnswer
  generalize query keys keyToken = phase at h
  cases phase with
  | found rateLimit =>
    cases h
    rfl
  | notFound =>
    cases h
    rfl
  | _ => cases h

theorem isAnswer_dbAnswer {keys : KeyTable} : IsAnswer (dbAnswer keys keyToken) := by
  unfold dbAnswer IsAnswer
  split <;> simp

theorem dbAnswer_ne_started {keys : KeyTable} : dbAnswer keys keyToken ≠ .started := by
  intro h
  have : IsAnswer (dbAnswer keys keyToken) := isAnswer_dbAnswer
  simp [h, IsAnswer] at this

theorem exists_finish_query (keys : KeyTable) (keyToken : String)
    : ∃ value, finish (query keys keyToken) = some (value, dbAnswer keys keyToken) := by
  unfold dbAnswer query
  split
  . exact ⟨_, rfl⟩
  . exact ⟨_, rfl⟩

theorem not_isAnswer_query {keys : KeyTable} : ¬ IsAnswer (query keys keyToken) := by
  unfold query IsAnswer
  split <;> simp

theorem finish_lookup (cached : Option Cached) : finish (lookup cached) = none := by
  unfold lookup
  split <;> rfl

theorem finish_start (apiKey : String) : finish (start apiKey) = none := by
  unfold start
  split <;> rfl

theorem not_isAnswer_start (apiKey : String) : ¬ IsAnswer (start apiKey) := by
  unfold start IsAnswer
  split <;> simp

theorem staleness_le (answer : Phase) : staleness answer ≤ 300 * 1000 := by
  unfold staleness
  split <;> omega

/-- Whatever is in the cache, on the way to it or answered goes back to a query. -/
structure Justified (sha256 : String → String) (s₀ : TimedState) (events : List TimedEvent)
    (s : TimedState) : Prop where
  cache : TtlCache.Backed
    (fun keyToken value putAt => Stored sha256 s₀ keyToken (lookup (some value)) putAt events
      ∧ cacheTtl value = staleness (lookup (some value)))
    cacheTtl s.now s.cache
  sent : ∀ keyToken value, (keyToken, value) ∈ s.sent →
    (∃ m, Asked sha256 s₀ m keyToken (lookup (some value)) events)
      ∧ cacheTtl value = staleness (lookup (some value))
  asked : ∀ n keyToken phase value answer, s.calls n = some ⟨keyToken, phase⟩ →
    finish phase = some (value, answer) → Asked sha256 s₀ n keyToken answer events
  answered : ∀ n keyToken answer, s.calls n = some ⟨keyToken, answer⟩ → IsAnswer answer →
    Answered sha256 s₀ n keyToken answer events

theorem Justified.append (h : Justified sha256 s₀ events s) (more : List TimedEvent)
    : Justified sha256 s₀ (events ++ more) s := by
  constructor
  case cache =>
    apply h.cache.mono _ (le_refl s.now)
    intro keyToken value putAt hP
    exact ⟨hP.left.append more, hP.right⟩
  case sent =>
    intro keyToken value hsent
    obtain ⟨⟨m, hm⟩, httl⟩ := h.sent keyToken value hsent
    exact ⟨⟨m, hm.append more⟩, httl⟩
  case asked =>
    intro n keyToken phase value answer hcall hfinish
    apply (h.asked n keyToken phase value answer hcall hfinish).append more
  case answered =>
    intro n keyToken answer hcall hanswer
    cases h.answered n keyToken answer hcall hanswer with
    | inl hasked => apply Or.inl (hasked.append more)
    | inr hread => apply Or.inr (hread.append more)

theorem Justified.setCall (h : Justified sha256 s₀ events s)
    (hasked : ∀ value answer, finish call.phase = some (value, answer) →
      Asked sha256 s₀ n call.keyToken answer events)
    (hanswered : IsAnswer call.phase → Answered sha256 s₀ n call.keyToken call.phase events)
    : Justified sha256 s₀ events (s.setCall n call) := by
  constructor
  case cache => apply h.cache
  case sent => apply h.sent
  case asked =>
    intro m token phase value answer hcall hfinish
    by_cases hm : m = n
    . subst hm
      rw [TimedState.setCall_calls_self, Option.some.injEq] at hcall
      subst hcall
      apply hasked value answer hfinish
    . rw [TimedState.setCall_calls_of_ne hm] at hcall
      apply h.asked m token phase value answer hcall hfinish
  case answered =>
    intro m token answer hcall hanswer
    by_cases hm : m = n
    . subst hm
      rw [TimedState.setCall_calls_self, Option.some.injEq] at hcall
      subst hcall
      apply hanswered hanswer
    . rw [TimedState.setCall_calls_of_ne hm] at hcall
      apply h.answered m token answer hcall hanswer

theorem Justified.answered_of_get (h : Justified sha256 s₀ events s)
    (hrun : Run (TimedStep sha256) s₀ events s) (hcall : s.calls n = some ⟨keyToken, .started⟩)
    (hget : s.cache.get s.now keyToken = some value)
    : Answered sha256 s₀ n keyToken (lookup (some value)) (events ++ [.lookup n true]) := by
  obtain ⟨putAt, hpast, hfresh, hstored, httl⟩ := h.cache.get hget
  apply Or.inr
  apply Once.last hrun
  refine ⟨rfl, hcall, putAt, hpast, ?_, hstored⟩
  rw [← httl]
  apply hfresh

theorem Justified.step (hrun : Run (TimedStep sha256) s₀ events s) (h : Justified sha256 s₀ events s)
    (hstep : TimedStep sha256 s e t) : Justified sha256 s₀ (events ++ [e]) t := by
  have h' := h.append [e]
  cases hstep.outcome with
  | @start n apiKey hcall =>
    apply h'.setCall
    . intro value answer hfinish
      rw [finish_start] at hfinish
      cases hfinish
    . intro hanswer
      exact absurd hanswer (not_isAnswer_start apiKey)
  | @lookup n available keyToken cached hcall hcached =>
    apply h'.setCall
    . intro value answer hfinish
      rw [finish_lookup] at hfinish
      cases hfinish
    . intro hanswer
      cases cached with
      | none => simp [IsAnswer, APIKeyAuth.lookup] at hanswer
      | some value =>
        rcases hcached with hnone | ⟨rfl, hget⟩
        . cases hnone
        . apply h.answered_of_get hrun hcall hget.symm
  | @query n keyToken hcall =>
    apply h'.setCall
    . intro value answer hfinish
      apply Once.last hrun
      exact ⟨rfl, hcall, finish_query hfinish⟩
    . intro hanswer
      exact absurd hanswer not_isAnswer_query
  | @finish n keyToken phase answer value hcall hfinish =>
    have hasked := h'.asked n keyToken phase value answer hcall hfinish
    have hspec := finish_spec hfinish
    have hsend : Justified sha256 s₀ (events ++ [.finish n])
        { s with sent := (keyToken, value) :: s.sent } := by
      refine ⟨h'.cache, ?_, h'.asked, h'.answered⟩
      intro token other hother
      cases List.mem_cons.mp hother with
      | inl heq =>
        cases heq
        rw [hspec.left]
        exact ⟨⟨n, hasked⟩, hspec.right⟩
      | inr hother => apply h'.sent token other hother
    apply hsend.setCall
    . intro other answer' hfinish'
      have hnone : finish answer = none := by
        rw [← hspec.left, finish_lookup]
      rw [hnone] at hfinish'
      cases hfinish'
    . intro _
      apply Or.inl hasked
  | @land keyToken value hsent =>
    obtain ⟨hasked, httl⟩ := h.sent keyToken value hsent
    refine ⟨?_, h'.sent, h'.asked, h'.answered⟩
    apply TtlCache.Backed.setex h'.cache
    refine ⟨?_, httl⟩
    apply Once.last hrun
    exact ⟨rfl, ⟨value, rfl, hsent, rfl⟩, hasked⟩
  | @lose keyToken value =>
    refine ⟨h'.cache, ?_, h'.asked, h'.answered⟩
    intro token other hother
    apply h'.sent token other (List.mem_of_mem_erase hother)
  | evict => exact ⟨h'.cache.evict, h'.sent, h'.asked, h'.answered⟩
  | admin _ keys => exact ⟨h'.cache, h'.sent, h'.asked, h'.answered⟩
  | clock hle =>
    refine ⟨?_, h'.sent, h'.asked, h'.answered⟩
    apply h'.cache.mono _ hle
    intro _ _ _ hP
    apply hP

structure TimedState.Initial (s : TimedState) : Prop where
  cache : ∀ keyToken, s.cache keyToken = none
  sent : s.sent = []
  calls : ∀ n, s.calls n = none

theorem justified_of_initial (h : s₀.Initial) : Justified sha256 s₀ [] s₀ := by
  constructor
  case cache =>
    intro keyToken entry hentry
    rw [h.cache] at hentry
    cases hentry
  case sent =>
    intro keyToken value hsent
    rw [h.sent] at hsent
    cases hsent
  case asked =>
    intro n _ _ _ _ hcall
    rw [h.calls] at hcall
    cases hcall
  case answered =>
    intro n _ _ hcall
    rw [h.calls] at hcall
    cases hcall

theorem justified_of_run (hinit : s₀.Initial) (hrun : Run (TimedStep sha256) s₀ events s)
    : Justified sha256 s₀ events s := by
  apply hrun.invariant_prefix _ (justified_of_initial hinit)
  intro before s e s' hbefore hs hstep
  apply hs.step hbefore hstep

/--
Whatever `verify` answers, the database said so when the call asked it, or when another call did whose
`SETEX` took effect at most 300 seconds (60 for a rejection) before this call read the cache.
-/
theorem answered_of_run (hinit : s₀.Initial) (hrun : Run (TimedStep sha256) s₀ events s)
    (hcall : s.calls n = some ⟨keyToken, answer⟩) (hanswer : IsAnswer answer)
    : Answered sha256 s₀ n keyToken answer events := by
  apply (justified_of_run hinit hrun).answered n keyToken answer hcall hanswer

def soleKey (isActive : Bool) : KeyTable where
  rows := [{ id := 1, keyHash := "2c70e12b", isActive }]
  primaryKey := by simp
  uniqueHash := by simp

def soleKeyState : TimedState where
  now := 0
  keys := soleKey true

/-- The second call reads what the first one has stored five minutes before. -/
theorem answered_of_run_soleKey
    : Answered (fun _ => "2c70e12b") soleKeyState 2 "2c70e12b" (.success 100)
        [.start 1 "key", .lookup 1 true, .query 1, .finish 1, .land "2c70e12b" (.valid 100),
          .start 2 "key", .clock 300000, .lookup 2 true] := by
  apply answered_of_run
  . exact ⟨fun _ => rfl, rfl, fun _ => rfl⟩
  . exact .cons rfl (.cons rfl (.cons rfl (.cons rfl (.cons rfl (.cons rfl (.cons rfl (.cons rfl
      (.nil _))))))))
  . rfl
  . apply Or.inl ⟨100, rfl⟩

/-- The value is on its way to the cache: a call is to send it, or has done so. -/
def TimedState.Pending (s : TimedState) (keyToken : String) (value : Cached) : Prop :=
  (keyToken, value) ∈ s.sent
    ∨ ∃ n phase answer, s.calls n = some ⟨keyToken, phase⟩
      ∧ APIKeyAuth.finish phase = some (value, answer)

/-- All that is not yet the answer of the database can be read until `deadline` only. -/
structure Settling (keyToken : String) (answer : Phase) (deadline : Int) (s : TimedState) : Prop where
  cache : ∀ entry, s.cache keyToken = some entry →
    entry.expiresAt ≤ deadline ∨ lookup (some entry.value) = answer
  pending : ∀ value, s.Pending keyToken value → lookup (some value) = answer

theorem settling_of_run {sha256 : String → String} (hinit : s₀.Initial)
    (hrun : Run (TimedStep sha256) s₀ events s)
    (hpending : ∀ value, s.Pending keyToken value → lookup (some value) = answer)
    : Settling keyToken answer (s.now + 300 * 1000) s := by
  refine ⟨?_, hpending⟩
  intro entry hentry
  obtain ⟨putAt, hpast, hexpires, hstored⟩ := (justified_of_run hinit hrun).cache keyToken entry hentry
  have := staleness_le (lookup (some entry.value))
  rw [← hstored.right] at this
  omega

section

variable {deadline : Int}

theorem Settling.setCall (h : Settling keyToken answer deadline s)
    (hcall : call.keyToken = keyToken → ∀ value answer', finish call.phase = some (value, answer') →
      lookup (some value) = answer)
    : Settling keyToken answer deadline (s.setCall n call) := by
  refine ⟨h.cache, ?_⟩
  rintro value (hsent | ⟨m, phase, answer', hm, hfinish⟩)
  . apply h.pending value (.inl hsent)
  . by_cases hne : m = n
    . subst hne
      rw [TimedState.setCall_calls_self, Option.some.injEq] at hm
      subst hm
      apply hcall rfl value answer' hfinish
    . rw [TimedState.setCall_calls_of_ne hne] at hm
      apply h.pending value (.inr ⟨m, phase, answer', hm, hfinish⟩)

theorem Settling.step (h : Settling keyToken answer deadline s)
    (hdb : dbAnswer s.keys keyToken = answer) (hstep : TimedStep sha256 s e t)
    : Settling keyToken answer deadline t := by
  cases hstep.outcome with
  | @start n apiKey hcall =>
    apply h.setCall
    intro _ value answer' hfinish
    rw [finish_start] at hfinish
    cases hfinish
  | @lookup n available token cached hcall hcached =>
    apply h.setCall
    intro _ value answer' hfinish
    rw [finish_lookup] at hfinish
    cases hfinish
  | @query n token hcall =>
    apply h.setCall
    rintro rfl value answer' hfinish
    rw [(finish_spec hfinish).left, ← finish_query hfinish, hdb]
  | @finish n token phase answer' value hcall hfinish =>
    have hsend : Settling keyToken answer deadline { s with sent := (token, value) :: s.sent } := by
      refine ⟨h.cache, ?_⟩
      rintro other (hsent | hcalls)
      . cases List.mem_cons.mp hsent with
        | inl heq =>
          cases heq
          apply h.pending value (.inr ⟨n, phase, answer', hcall, hfinish⟩)
        | inr hsent => apply h.pending other (.inl hsent)
      . apply h.pending other (.inr hcalls)
    apply hsend.setCall
    intro _ other answer'' hfinish'
    rw [← (finish_spec hfinish).left, finish_lookup] at hfinish'
    cases hfinish'
  | @land token value hsent =>
    refine ⟨?_, h.pending⟩
    intro entry hentry
    cases TtlCache.setex_eq_some hentry with
    | inl hnew =>
      obtain ⟨rfl, rfl⟩ := hnew
      apply Or.inr (h.pending value (.inl hsent))
    | inr hold => apply h.cache entry hold
  | lose =>
    refine ⟨h.cache, ?_⟩
    rintro other (hother | hcalls)
    . apply h.pending other (.inl (List.mem_of_mem_erase hother))
    . apply h.pending other (.inr hcalls)
  | @evict token =>
    refine ⟨?_, h.pending⟩
    intro entry hentry
    apply h.cache entry (TtlCache.evict_eq_some hentry)
  | admin _ keys => exact ⟨h.cache, h.pending⟩
  | clock hle => exact ⟨h.cache, h.pending⟩

/-- Call `n` has read the cache, and nothing lets it answer anything but `answer`. -/
def Bound (n : Nat) (keyToken : String) (answer : Phase) (s : TimedState) : Prop :=
  ∃ phase, s.calls n = some ⟨keyToken, phase⟩
    ∧ (phase = .missed ∨ phase = answer ∨ ∃ value, finish phase = some (value, answer))

theorem Bound.answer_eq (h : Bound n keyToken answer s) (hcall : s.calls n = some ⟨token, phase⟩)
    (hanswer : IsAnswer phase) : phase = answer := by
  obtain ⟨phase', hphase', hcases⟩ := h
  rw [hphase', Option.some.injEq, Call.mk.injEq] at hcall
  obtain ⟨_, rfl⟩ := hcall
  rcases hcases with rfl | heq | ⟨value, hfinish⟩
  . simp [IsAnswer] at hanswer
  . exact heq
  . rw [finish_eq_none_of_isAnswer hanswer] at hfinish
    cases hfinish

theorem Settling.bound_of_lookup {available : Bool} (h : Settling keyToken answer deadline s)
    (hlate : deadline < s.now) (hcall : s.calls n = some ⟨keyToken, .started⟩)
    (hstep : TimedStep sha256 s (.lookup n available) t) : Bound n keyToken answer t := by
  cases hstep.outcome with
  | @lookup _ _ token cached hcall' hcached =>
    rw [hcall', Option.some.injEq, Call.mk.injEq] at hcall
    obtain ⟨rfl, _⟩ := hcall
    refine ⟨_, TimedState.setCall_calls_self, ?_⟩
    cases cached with
    | none => apply Or.inl rfl
    | some value =>
      rcases hcached with hnone | ⟨_, hget⟩
      . cases hnone
      . obtain ⟨entry, hentry, hle, rfl⟩ := TtlCache.get_eq_some.mp hget.symm
        cases h.cache entry hentry with
        | inl hexpired => omega
        | inr heq => apply Or.inr (.inl heq)
  | admin hadmin => cases hadmin

theorem Bound.setCall_of_ne (h : Bound n keyToken answer s) (hne : n ≠ m)
    : Bound n keyToken answer (s.setCall m call) := by
  obtain ⟨phase, hphase, hcases⟩ := h
  exact ⟨phase, (TimedState.setCall_calls_of_ne hne).trans hphase, hcases⟩

theorem Bound.step (h : Bound n keyToken answer s) (hdb : dbAnswer s.keys keyToken = answer)
    (hstep : TimedStep sha256 s e t) : Bound n keyToken answer t := by
  obtain ⟨phase, hphase, hcases⟩ := id h
  cases hstep.outcome with
  | @start m apiKey hcall =>
    apply h.setCall_of_ne
    rintro rfl
    rw [hcall] at hphase
    cases hphase
  | @lookup m available token cached hcall hcached =>
    apply h.setCall_of_ne
    rintro rfl
    rw [hcall, Option.some.injEq, Call.mk.injEq] at hphase
    obtain ⟨_, rfl⟩ := hphase
    rcases hcases with hmissed | heq | ⟨value, hfinish⟩
    . cases hmissed
    . exact absurd (hdb.trans heq.symm) dbAnswer_ne_started
    . cases hfinish
  | @query m token hcall =>
    by_cases hne : n = m
    . subst hne
      rw [hcall, Option.some.injEq, Call.mk.injEq] at hphase
      obtain ⟨rfl, _⟩ := hphase
      refine ⟨_, TimedState.setCall_calls_self, ?_⟩
      refine .inr (.inr ?_)
      rw [← hdb]
      apply exists_finish_query
    . apply h.setCall_of_ne hne
  | @finish m token phase' answer' value hcall hfinish =>
    by_cases hne : n = m
    . subst hne
      rw [hcall, Option.some.injEq, Call.mk.injEq] at hphase
      obtain ⟨rfl, rfl⟩ := hphase
      refine ⟨_, TimedState.setCall_calls_self, ?_⟩
      rcases hcases with rfl | rfl | ⟨value', hfinish'⟩
      . cases hfinish
      . rw [← hdb, finish_eq_none_of_isAnswer isAnswer_dbAnswer] at hfinish
        cases hfinish
      . rw [hfinish, Option.some.injEq, Prod.mk.injEq] at hfinish'
        apply Or.inr (.inl hfinish'.right)
    . apply Bound.setCall_of_ne _ hne
      apply h
  | land => apply h
  | lose => apply h
  | evict => apply h
  | admin => apply h
  | clock => apply h

end

/--
Once the database gives one answer about a key, and nothing else is on its way to the cache, every call
that reads the cache more than 300 seconds later gives that answer, as long as the database does.
-/
theorem answer_eq_of_settled {mid rest : List TimedEvent} {u u' : TimedState} {available : Bool}
    (hinit : s₀.Initial) (hrun : Run (TimedStep sha256) s₀ events s)
    (hpending : ∀ value, s.Pending keyToken value → lookup (some value) = answer)
    (hmid : Run (restrict (fun s _ => dbAnswer s.keys keyToken = answer) (TimedStep sha256)) s mid u)
    (hlate : s.now + 300 * 1000 < u.now) (hcall : u.calls n = some ⟨keyToken, .started⟩)
    (hlookup : TimedStep sha256 u (.lookup n available) u')
    (hrest : Run (restrict (fun s _ => dbAnswer s.keys keyToken = answer) (TimedStep sha256)) u' rest t)
    (hend : t.calls n = some ⟨token, phase⟩) (hanswer : IsAnswer phase) : phase = answer := by
  have hsettling : Settling keyToken answer (s.now + 300 * 1000) u := by
    apply hmid.invariant _ (settling_of_run hinit hrun hpending)
    intro s e s' hs hstep
    apply hs.step hstep.left hstep.right
  have hbound : Bound n keyToken answer t := by
    apply hrest.invariant _ (hsettling.bound_of_lookup hlate hcall hlookup)
    intro s e s' hs hstep
    apply hs.step hstep.left hstep.right
  apply hbound.answer_eq hend hanswer

def revocation : List TimedEvent :=
  [.start 1 "key", .lookup 1 true, .query 1, .finish 1, .land "2c70e12b" (.valid 100),
    .lose "2c70e12b" (.valid 100), .revokeApiKey 1]

/-- The entry of the first call is still there when the key is revoked, and gone for the second one. -/
theorem answer_eq_of_settled_revoked
    : ∃ t, Run (TimedStep fun _ => "2c70e12b") soleKeyState
        (revocation ++ [.start 2 "key", .clock 300001, .lookup 2 true, .query 2, .finish 2]) t
      ∧ ∃ phase, t.calls 2 = some ⟨"2c70e12b", phase⟩ ∧ phase = .unauthorized := by
  refine ⟨_, .cons rfl (.cons rfl (.cons rfl (.cons rfl (.cons rfl (.cons rfl (.cons rfl (.cons rfl
    (.cons rfl (.cons rfl (.cons rfl (.cons rfl (.nil _)))))))))))), .unauthorized, rfl, ?_⟩
  refine @answer_eq_of_settled (fun _ => "2c70e12b") soleKeyState _ _ revocation 2 "2c70e12b" "2c70e12b"
    .unauthorized .unauthorized [.start 2 "key", .clock 300001] [.query 2, .finish 2] _ _ true ?_
    (.cons rfl (.cons rfl (.cons rfl (.cons rfl (.cons rfl (.cons rfl (.cons rfl (.nil _)))))))) ?_
    (.cons ⟨rfl, rfl⟩ (.cons ⟨rfl, rfl⟩ (.nil _))) ?_ rfl rfl
    (.cons ⟨rfl, rfl⟩ (.cons ⟨rfl, rfl⟩ (.nil _))) rfl ?_
  . exact ⟨fun _ => rfl, rfl, fun _ => rfl⟩
  . rintro value (hsent | ⟨n, phase, answer, hcall, hfinish⟩)
    . cases hsent
    . by_cases hn : n = 1
      . subst hn
        cases hcall
        cases hfinish
      . simp [TimedState.setCall, Function.update_of_ne hn, soleKeyState] at hcall
  . decide
  . apply Or.inr rfl

end APIKeyAuth
end SdaSystem
