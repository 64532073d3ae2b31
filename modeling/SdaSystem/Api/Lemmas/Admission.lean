import SdaSystem.Api.Impl.Admission
import SdaSystem.Api.Lemmas.Auth
import SdaSystem.Api.Lemmas.RateLimit

open Runs SlidingWindow

namespace SdaSystem
namespace APIKeyAuth

open RateLimiter (Store redisKey allowedTimes Tracks)

namespace AdmissionState

def timesOf (s : AdmissionState) (keyToken : String) : List Rat :=
  allowedTimes keyToken s.checks

def members (s : AdmissionState) : List String :=
  s.checks.map (·.1.member)

def lastCheck (s : AdmissionState) : Rat :=
  (s.checks.getLast?.map (·.1.now.seconds)).getD 0

structure Initial (s : AdmissionState) : Prop where
  auth : s.auth.Initial
  store : ∀ key, s.store key = none
  checks : s.checks = []
  replies : ∀ n, s.replies n = none
  decided : ∀ n, s.decided n = none

end AdmissionState

variable {sha256 : String → String} {s₀ s t : AdmissionState} {e : AdmissionEvent}
  {events : List AdmissionEvent} {n : Nat} {keyToken : String}

theorem AdmissionStep.authRun (h : AdmissionStep sha256 s e t)
    : Run (TimedStep sha256) s.auth e.authEvents t.auth := by
  cases h with
  | @missingKey n xApiKey _ _ hkey =>
    cases xApiKey with
    | none => apply Run.nil
    | some apiKey =>
      have hkey : apiKey = "" := hkey
      simp only [AdmissionEvent.authEvents, hkey, ↓reduceIte]
      apply Run.nil
  | request _ hkey hstart =>
    simp only [AdmissionEvent.authEvents, hkey, ↓reduceIte]
    exact .cons hstart (.nil _)
  | auth _ hstep => exact .cons hstep (.nil _)
  | readClock => apply Run.nil
  | runScript => apply Run.nil
  | answer => apply Run.nil
  | failOpen => apply Run.nil

theorem authRun_of_run (h : Run (AdmissionStep sha256) s events t)
    : Run (TimedStep sha256) s.auth (events.flatMap (·.authEvents)) t.auth :=
  h.project fun _ _ _ hstep => hstep.authRun

/-- The scripts run in the order of the timestamps that their calls have read. -/
def InOrder (s : AdmissionState) (e : AdmissionEvent) : Prop :=
  ∀ n member now, e = .runScript n member → s.stamps n = some now
    → ∀ check ∈ s.checks, check.1.now.seconds ≤ now.seconds

/-- For every key the set in Redis tracks the requests that the script has allowed it. -/
def Tracked (s : AdmissionState) : Prop :=
  ∀ keyToken, Tracks s.store (redisKey keyToken) (s.timesOf keyToken) s.members s.lastCheck

theorem tracked_of_initial (h : s₀.Initial) : Tracked s₀ := by
  intro keyToken
  have hset : RateLimiter.setAt s₀.store (redisKey keyToken) = .empty := by
    simp [RateLimiter.setAt, h.store]
  unfold AdmissionState.timesOf AdmissionState.members
  rw [h.checks]
  constructor
  case past => simp [allowedTimes]
  case nonneg => simp [hset]
  case members => simp [hset, SortedSet.empty]
  case expireAt => simp [h.store]
  case counting => simp [hset, allowedTimes]

theorem InOrder.lastCheck_le {member : String} {now : RateLimiter.Timestamp}
    (h : InOrder s (.runScript n member)) (hstamp : s.stamps n = some now)
    : s.lastCheck ≤ now.seconds := by
  unfold AdmissionState.lastCheck
  cases hlast : s.checks.getLast? with
  | none => apply now.nonneg
  | some check => apply h n member now rfl hstamp check (List.mem_of_getLast? hlast)

theorem Tracked.check (h : Tracked s) {call : RateLimiter.Call} {allowed : Bool} {store : Store}
    (hnow : s.lastCheck ≤ call.now.seconds) (hmember : call.member ∉ s.checks.map (·.1.member))
    (hstep : RateLimiter.Step s.store (call, allowed) store)
    : (∀ keyToken, Tracks store (redisKey keyToken)
          (allowedTimes keyToken (s.checks ++ [(call, allowed)]))
          ((s.checks ++ [(call, allowed)]).map (·.1.member)) call.now.seconds)
        ∧
      (allowed = false
        ↔ call.requestsPerMin ≤ (inWindow 60 call.now.seconds (s.timesOf call.keyHash)).length) := by
  have hchecked := fun keyToken => hstep.tracks (h keyToken) hnow hmember fun _ => rfl
  constructor
  . intro keyToken
    rw [RateLimiter.allowedTimes_append]
    apply (hchecked keyToken).left.weaken
    intro member hmem
    simp only [List.map_append, List.map_cons, List.map_nil, List.mem_append, List.mem_cons,
      List.not_mem_nil, or_false]
    exact (List.mem_cons.mp hmem).symm
  . rw [(hchecked call.keyHash).right rfl]

theorem Tracked.step (h : Tracked s) (horder : InOrder s e) (hstep : AdmissionStep sha256 s e t)
    : Tracked t := by
  cases hstep with
  | runScript _ _ hstamp _ hmember hcheck =>
    have htracks := (h.check (horder.lastCheck_le hstamp) hmember hcheck).left
    intro keyToken
    unfold AdmissionState.lastCheck
    rw [List.getLast?_concat]
    apply htracks keyToken
  | _ => apply h

section decisions

variable (sha256 s₀)

/-- The script has run for request `n`, with a limit that its key had not reached, or had. -/
def Checked (n : Nat) (keyToken : String) (allowed : Bool) : List AdmissionEvent → Prop :=
  Once (AdmissionStep sha256) s₀ fun before s e => ∃ (rateLimit : Int) (now : RateLimiter.Timestamp),
    Answered sha256 s₀.auth n keyToken (.success rateLimit) (before.flatMap (·.authEvents))
      ∧ (∃ member, e = .runScript n member) ∧ s.stamps n = some now
      ∧ (allowed ↔ (inWindow 60 now.seconds (s.timesOf keyToken)).length < rateLimit)

def FailedOpen (n : Nat) (keyToken : String) : List AdmissionEvent → Prop :=
  Once (AdmissionStep sha256) s₀ fun before _ e => ∃ rateLimit,
    Answered sha256 s₀.auth n keyToken (.success rateLimit) (before.flatMap (·.authEvents))
      ∧ e = .failOpen n

structure Decisions (events : List AdmissionEvent) (s : AdmissionState) : Prop where
  admitted : ∀ n keyToken, s.decided n = some (.admitted keyToken)
    → Checked sha256 s₀ n keyToken true events ∨ FailedOpen sha256 s₀ n keyToken events
  tooManyRequests : ∀ n retryAfter, s.decided n = some (.tooManyRequests retryAfter)
    → retryAfter = 60 ∧ ∃ keyToken, Checked sha256 s₀ n keyToken false events

def Replied (events : List AdmissionEvent) (s : AdmissionState) : Prop :=
  ∀ n allowed, s.replies n = some allowed → ∃ keyToken rateLimit,
    s.auth.calls n = some ⟨keyToken, .success rateLimit⟩ ∧ Checked sha256 s₀ n keyToken allowed events

variable {sha256 s₀}

theorem Decisions.append (h : Decisions sha256 s₀ events s) (more : List AdmissionEvent)
    : Decisions sha256 s₀ (events ++ more) s := by
  constructor
  case admitted =>
    intro n keyToken hdecided
    cases h.admitted n keyToken hdecided with
    | inl hchecked => apply Or.inl (hchecked.append more)
    | inr hopen => apply Or.inr (hopen.append more)
  case tooManyRequests =>
    intro n retryAfter hdecided
    obtain ⟨hretry, keyToken, hchecked⟩ := h.tooManyRequests n retryAfter hdecided
    exact ⟨hretry, keyToken, hchecked.append more⟩

theorem Decisions.of_eq (h : Decisions sha256 s₀ events s) (hsame : t.decided = s.decided)
    : Decisions sha256 s₀ events t := by
  constructor
  case admitted =>
    rw [hsame]
    apply h.admitted
  case tooManyRequests =>
    rw [hsame]
    apply h.tooManyRequests

theorem Decisions.decide (h : Decisions sha256 s₀ events s) {verdict : Verdict}
    (hadmitted : ∀ keyToken, verdict = .admitted keyToken
      → Checked sha256 s₀ n keyToken true events ∨ FailedOpen sha256 s₀ n keyToken events)
    (haway : ∀ retryAfter, verdict = .tooManyRequests retryAfter
      → retryAfter = 60 ∧ ∃ keyToken, Checked sha256 s₀ n keyToken false events)
    : Decisions sha256 s₀ events (s.decide n verdict) := by
  unfold AdmissionState.decide
  constructor
  case admitted =>
    intro m keyToken hdecided
    dsimp only at hdecided
    rw [Function.update_apply] at hdecided
    split at hdecided
    . next heq =>
      rw [heq]
      apply hadmitted keyToken (Option.some.inj hdecided)
    . apply h.admitted m keyToken hdecided
  case tooManyRequests =>
    intro m retryAfter hdecided
    dsimp only at hdecided
    rw [Function.update_apply] at hdecided
    split at hdecided
    . next heq =>
      rw [heq]
      apply haway retryAfter (Option.some.inj hdecided)
    . apply h.tooManyRequests m retryAfter hdecided

theorem verdict_response (keyToken : String) (allowed : Bool)
    : verdict keyToken (RateLimiter.response (some (if allowed then 0 else 1)))
        =
      if allowed then .admitted keyToken else .tooManyRequests 60 := by
  cases allowed <;> rfl

theorem TimedStep.calls_eq_of_success {s t : TimedState} {e : TimedEvent} {rateLimit : Int}
    (hstep : TimedStep sha256 s e t) (hcall : s.calls n = some ⟨keyToken, .success rateLimit⟩)
    : t.calls n = s.calls n := by
  rcases hstep.call_cases hcall with hsame | ⟨heq, _⟩ | ⟨heq, _⟩ | ⟨value, answer, hfinish, _⟩
  . rw [hsame, hcall]
  . cases heq
  . cases heq
  . cases hfinish

theorem Replied.append (h : Replied sha256 s₀ events s) (more : List AdmissionEvent)
    (hreplies : t.replies = s.replies)
    (hcalls : ∀ n keyToken rateLimit, s.auth.calls n = some ⟨keyToken, .success rateLimit⟩
      → t.auth.calls n = s.auth.calls n)
    : Replied sha256 s₀ (events ++ more) t := by
  intro n allowed hreply
  rw [hreplies] at hreply
  obtain ⟨keyToken, rateLimit, hcall, hchecked⟩ := h n allowed hreply
  exact ⟨keyToken, rateLimit, (hcalls n keyToken rateLimit hcall).trans hcall, hchecked.append more⟩

section step

variable (hinit : s₀.Initial) (hrun : Run (AdmissionStep sha256) s₀ events s) (htracked : Tracked s)
  (horder : InOrder s e)

include hinit hrun

theorem answered_of_call {rateLimit : Int} (hcall : s.auth.calls n = some ⟨keyToken, .success rateLimit⟩)
    : Answered sha256 s₀.auth n keyToken (.success rateLimit) (events.flatMap (·.authEvents)) := by
  apply (justified_of_run hinit.auth (authRun_of_run hrun)).answered n keyToken _ hcall
  exact Or.inl ⟨rateLimit, rfl⟩

include htracked horder

theorem Replied.step (h : Replied sha256 s₀ events s) (hstep : AdmissionStep sha256 s e t)
    : Replied sha256 s₀ (events ++ [e]) t := by
  cases hstep with
  | request _ _ hstart =>
    apply Replied.append h
    . rfl
    . intro _ _ _ hcall
      apply hstart.calls_eq_of_success hcall
  | auth _ hauth =>
    apply Replied.append h
    . rfl
    . intro _ _ _ hcall
      apply hauth.calls_eq_of_success hcall
  | @runScript n call rateLimit allowed store hcall hlimit hstamp _ hmember hcheck =>
    intro m allowed' hreply
    dsimp only at hreply
    rw [Function.update_apply] at hreply
    split at hreply
    . next heq =>
      subst heq
      cases hreply
      have hallowed := (htracked.check (horder.lastCheck_le hstamp) hmember hcheck).right
      refine ⟨call.keyHash, rateLimit, hcall, ?_⟩
      apply Once.last hrun
      refine ⟨rateLimit, call.now, answered_of_call hinit hrun hcall, ⟨_, rfl⟩, hstamp, ?_⟩
      rw [hlimit] at hallowed
      cases allowed with
      | true =>
        simp only [Bool.true_eq_false, false_iff, not_le] at hallowed
        simp only [true_iff]
        omega
      | false =>
        simp only [true_iff] at hallowed
        simp only [Bool.false_eq_true, false_iff]
        omega
    . obtain ⟨keyToken, rateLimit', hcall', hchecked⟩ := h m allowed' hreply
      exact ⟨keyToken, rateLimit', hcall', hchecked.append _⟩
  | _ =>
    apply Replied.append h
    . rfl
    . intro _ _ _ _
      rfl

omit htracked horder in
theorem Decisions.step (hreplied : Replied sha256 s₀ events s) (h : Decisions sha256 s₀ events s)
    (hstep : AdmissionStep sha256 s e t) : Decisions sha256 s₀ (events ++ [e]) t := by
  cases hstep with
  | missingKey =>
    apply (h.append _).decide
    . intro keyToken heq
      cases heq
    . intro retryAfter heq
      cases heq
  | @answer n keyToken rateLimit allowed hcall _ hreply =>
    rw [verdict_response]
    obtain ⟨keyToken', rateLimit', hcall', hchecked⟩ := hreplied n allowed hreply
    rw [hcall', Option.some.injEq, Call.mk.injEq] at hcall
    obtain ⟨rfl, _⟩ := hcall
    apply (h.append _).decide
    . intro token heq
      cases allowed with
      | false => cases heq
      | true =>
        cases heq
        apply Or.inl (hchecked.append _)
    . intro retryAfter heq
      cases allowed with
      | true => cases heq
      | false =>
        cases heq
        exact ⟨rfl, keyToken', hchecked.append _⟩
  | @failOpen n keyToken rateLimit now hcall =>
    apply (h.append _).decide
    . intro token heq
      cases heq
      apply Or.inr
      apply Once.last hrun
      exact ⟨rateLimit, answered_of_call hinit hrun hcall, rfl⟩
    . intro retryAfter heq
      cases heq
  | _ =>
    apply Decisions.of_eq (h.append _)
    rfl

end step

end decisions

/-- What holds of the limiter, of what it has answered and of what the requests were told. -/
structure Fair (sha256 : String → String) (s₀ : AdmissionState) (events : List AdmissionEvent)
    (s : AdmissionState) : Prop where
  run : Run (AdmissionStep sha256) s₀ events s
  tracked : Tracked s
  replied : Replied sha256 s₀ events s
  decisions : Decisions sha256 s₀ events s

theorem fair_of_initial (h : s₀.Initial) : Fair sha256 s₀ [] s₀ := by
  refine ⟨.nil s₀, tracked_of_initial h, ?_, ?_, ?_⟩
  . intro n allowed hreply
    rw [h.replies] at hreply
    cases hreply
  . intro n keyToken hdecided
    rw [h.decided] at hdecided
    cases hdecided
  . intro n retryAfter hdecided
    rw [h.decided] at hdecided
    cases hdecided

section grants

variable {most : Nat} {s t : TimedState} {e : TimedEvent}

/-- No limit above `most` is in the cache for the key, on its way there or in the hands of a call. -/
structure Grants (keyToken : String) (most : Nat) (s : TimedState) : Prop where
  cache : ∀ entry rateLimit, s.cache keyToken = some entry → entry.value = .valid rateLimit
    → rateLimit ≤ most
  sent : ∀ rateLimit : Int, (keyToken, .valid rateLimit) ∈ s.sent → rateLimit ≤ most
  calls : ∀ n phase rateLimit, s.calls n = some ⟨keyToken, phase⟩
    → phase = .found rateLimit ∨ phase = .success rateLimit → rateLimit ≤ most

theorem grants_of_initial (h : s.Initial) : Grants keyToken most s := by
  constructor
  case cache =>
    intro entry rateLimit hentry
    rw [h.cache] at hentry
    cases hentry
  case sent =>
    intro rateLimit hsent
    rw [h.sent] at hsent
    cases hsent
  case calls =>
    intro n phase rateLimit hcall
    rw [h.calls] at hcall
    cases hcall

theorem Grants.setCall (h : Grants keyToken most s) {token : String} {phase : Phase}
    (hphase : ∀ rateLimit, token = keyToken → phase = .found rateLimit ∨ phase = .success rateLimit
      → rateLimit ≤ most)
    : Grants keyToken most (s.setCall n ⟨token, phase⟩) := by
  refine ⟨h.cache, h.sent, ?_⟩
  intro m phase' rateLimit hcall hlimit
  by_cases hm : m = n
  . subst hm
    rw [TimedState.setCall_calls_self, Option.some.injEq, Call.mk.injEq] at hcall
    obtain ⟨htoken, rfl⟩ := hcall
    apply hphase rateLimit htoken hlimit
  . rw [TimedState.setCall_calls_of_ne hm] at hcall
    apply h.calls m phase' rateLimit hcall hlimit

theorem dbAnswer_of_query {keys : KeyTable} {rateLimit : Int}
    (h : query keys keyToken = .found rateLimit ∨ query keys keyToken = .success rateLimit)
    : dbAnswer keys keyToken = .success rateLimit := by
  have hfound : query keys keyToken = .found rateLimit := by
    apply h.resolve_right
    intro hsuccess
    exact not_isAnswer_query (.inl ⟨rateLimit, hsuccess⟩)
  unfold dbAnswer
  rw [hfound]

theorem Grants.step (h : Grants keyToken most s)
    (hdb : ∀ rateLimit, dbAnswer s.keys keyToken = .success rateLimit → rateLimit ≤ most)
    (hstep : TimedStep sha256 s e t) : Grants keyToken most t := by
  cases hstep.outcome with
  | @start n apiKey hcall =>
    apply h.setCall
    intro rateLimit _ hlimit
    unfold start at hlimit
    split at hlimit <;> simp at hlimit
  | @lookup n available token cached hcall hcached =>
    apply h.setCall
    rintro rateLimit rfl hlimit
    unfold lookup at hlimit
    split at hlimit
    . simp at hlimit
    . simp at hlimit
    . next rateLimit' =>
      -- the limit was read from the cache
      obtain ⟨entry, hentry, _, hvalue⟩ : ∃ entry, s.cache token = some entry
          ∧ s.now ≤ entry.expiresAt ∧ entry.value = .valid rateLimit' := by
        rcases hcached with hnone | ⟨_, hget⟩
        . cases hnone
        . apply TtlCache.get_eq_some.mp hget.symm
      have hsame : rateLimit' = rateLimit := by simpa using hlimit
      rw [← hsame]
      apply h.cache entry rateLimit' hentry hvalue
    . simp at hlimit
    . simp at hlimit
  | @query n token hcall =>
    apply h.setCall
    rintro rateLimit rfl hlimit
    apply hdb rateLimit (dbAnswer_of_query hlimit)
  | @finish n token phase answer value hcall hfinish =>
    have hfound : ∀ rateLimit, token = keyToken
        → value = .valid rateLimit ∨ answer = .success rateLimit → rateLimit ≤ most := by
      rintro rateLimit rfl hlimit
      cases phase with
      | found rateLimit' =>
        cases hfinish
        have hsame : rateLimit' = rateLimit := by simpa using hlimit
        rw [← hsame]
        apply h.calls n _ rateLimit' hcall (.inl rfl)
      | notFound =>
        cases hfinish
        simp at hlimit
      | _ => cases hfinish
    have hsend : Grants keyToken most { s with sent := (token, value) :: s.sent } := by
      refine ⟨h.cache, ?_, h.calls⟩
      intro rateLimit hsent
      cases List.mem_cons.mp hsent with
      | inl heq =>
        obtain ⟨htoken, hvalue⟩ := Prod.mk.inj heq
        apply hfound rateLimit htoken.symm (.inl hvalue.symm)
      | inr hsent => apply h.sent rateLimit hsent
    apply hsend.setCall
    intro rateLimit htoken hlimit
    rcases hlimit with rfl | rfl
    . cases phase with
      | found => cases hfinish
      | notFound => cases hfinish
      | _ => cases hfinish
    . apply hfound rateLimit htoken (.inr rfl)
  | @land token value hsent =>
    refine ⟨?_, h.sent, h.calls⟩
    intro entry rateLimit hentry hvalue
    cases TtlCache.setex_eq_some hentry with
    | inl hnew =>
      obtain ⟨rfl, rfl⟩ := hnew
      dsimp only at hvalue
      subst hvalue
      apply h.sent rateLimit hsent
    | inr hold => apply h.cache entry rateLimit hold hvalue
  | lose =>
    refine ⟨h.cache, ?_, h.calls⟩
    intro rateLimit hother
    apply h.sent rateLimit (List.mem_of_mem_erase hother)
  | @evict token =>
    refine ⟨?_, h.sent, h.calls⟩
    intro entry rateLimit hentry hvalue
    apply h.cache entry rateLimit (TtlCache.evict_eq_some hentry) hvalue
  | admin _ keys => exact ⟨h.cache, h.sent, h.calls⟩
  | clock hle => exact ⟨h.cache, h.sent, h.calls⟩

end grants

def GrantsAtMost (keyToken : String) (most : Nat) (s : AdmissionState) (_ : AdmissionEvent) : Prop :=
  ∀ rateLimit, dbAnswer s.auth.keys keyToken = .success rateLimit → rateLimit ≤ most

structure Throttled (keyToken : String) (most : Nat) (s : AdmissionState) : Prop where
  tracked : Tracked s
  grants : Grants keyToken most s.auth
  admitted : Admitted 60 most (s.timesOf keyToken)

theorem timesOf_check (keyToken : String) (checks : List (RateLimiter.Call × Bool))
    (call : RateLimiter.Call) (allowed : Bool)
    : allowedTimes keyToken (checks ++ [(call, allowed)])
        =
      if allowed ∧ call.keyHash = keyToken then
        allowedTimes keyToken checks ++ [call.now.seconds]
      else
        allowedTimes keyToken checks := by
  rw [RateLimiter.allowedTimes_append]
  split
  . next h => simp [allowedTimes, h]
  . next h => simp [allowedTimes, h]

theorem Throttled.step {most : Nat} (h : Throttled keyToken most s) (horder : InOrder s e)
    (hdb : GrantsAtMost keyToken most s e) (hstep : AdmissionStep sha256 s e t)
    : Throttled keyToken most t := by
  have htracked := h.tracked.step horder hstep
  cases hstep with
  | request _ _ hstart => exact ⟨htracked, h.grants.step hdb hstart, h.admitted⟩
  | auth _ hauth => exact ⟨htracked, h.grants.step hdb hauth, h.admitted⟩
  | @runScript n call rateLimit allowed store hcall hlimit hstamp _ hmember hcheck =>
    refine ⟨htracked, h.grants, ?_⟩
    unfold AdmissionState.timesOf
    dsimp only
    rw [timesOf_check]
    split
    . next hallowed =>
      obtain ⟨rfl, rfl⟩ := hallowed
      have hnow := horder.lastCheck_le hstamp
      have hroom := (h.tracked.check hnow hmember hcheck).right
      have hle := h.grants.calls n _ rateLimit hcall (.inr rfl)
      rw [hlimit] at hroom
      apply h.admitted.snoc
      . intro time htime
        apply le_trans ((h.tracked call.keyHash).past time htime) hnow
      . simp only [Bool.true_eq_false, false_iff, not_le] at hroom
        apply lt_of_lt_of_le hroom
        omega
    . apply h.admitted
  | _ => exact ⟨htracked, h.grants, h.admitted⟩

def oneAMinute : AdmissionState where
  auth := {
    now := 0
    keys := {
      rows := [{ id := 1, keyHash := "2c70e12b", rateLimitPerMin := 1 }]
      primaryKey := by simp
      uniqueHash := by simp
    }
  }

def twoRequests : List AdmissionEvent :=
  [.request 1 (some "key"), .auth (.lookup 1 true), .auth (.query 1), .auth (.finish 1), .readClock 1,
    .request 2 (some "key"), .auth (.lookup 2 true), .auth (.query 2), .auth (.finish 2), .readClock 2,
    .runScript 1 "a", .runScript 2 "b", .answer 1, .answer 2]

theorem initial_oneAMinute : oneAMinute.Initial where
  auth := ⟨fun _ => rfl, rfl, fun _ => rfl⟩
  store _ := rfl
  checks := rfl
  replies _ := rfl
  decided _ := rfl

theorem exists_run_twoRequests
    : ∃ s, Run (restrict (fun s e => InOrder s e ∧ GrantsAtMost "2c70e12b" 1 s e)
          (AdmissionStep fun _ => "2c70e12b")) oneAMinute twoRequests s
        ∧ s.decided 1 = some (.admitted "2c70e12b") ∧ s.decided 2 = some (.tooManyRequests 60) := by
  let begin : RateLimiter.Timestamp := { seconds := 0, nonneg := le_refl _ }
  let call (member : String) : RateLimiter.Call := {
    keyHash := "2c70e12b"
    requestsPerMin := 1
    now := begin
    member
  }
  have hcheck : ∀ (store : Store) (c : RateLimiter.Call) (ok : Bool),
      (RateLimiter.checkRateLimit store c).2.1 = ok
      → RateLimiter.Step store (c, ok) (RateLimiter.checkRateLimit store c).1 := by
    intro store c ok hok
    rw [← hok]
    apply RateLimiter.Step.checkRateLimit
    intro key
    exact Or.inl rfl
  -- all timestamps are those of the beginning
  have hallowed : ∀ s e, s.auth.keys = oneAMinute.auth.keys
      → (∀ check ∈ s.checks, check.1.now.seconds = 0)
      → InOrder s e ∧ GrantsAtMost "2c70e12b" 1 s e := by
    intro s e hkeys hzero
    constructor
    . intro n member now _ _ check hmem
      rw [hzero check hmem]
      apply now.nonneg
    . intro rateLimit hdb
      rw [hkeys] at hdb
      cases hdb
      decide
  have hnow : ∀ s : AdmissionState, s.auth.now = 0 → begin.seconds = s.seconds := by
    intro s hzero
    unfold AdmissionState.seconds
    rw [hzero, Rat.zero_mkRat]
  let store := (RateLimiter.checkRateLimit (fun _ => none) (call "a")).1
  have hfirst := hcheck (fun _ => none) (call "a") true (by decide +kernel)
  have hsecond := hcheck store (call "b") false (by decide +kernel)
  refine ⟨_, .cons ⟨hallowed _ _ rfl (by simp [oneAMinute]), .request rfl (by decide) rfl⟩
    (.cons ⟨hallowed _ _ rfl (by simp [oneAMinute]), .auth (by simp) rfl⟩
    (.cons ⟨hallowed _ _ rfl (by simp [oneAMinute]), .auth (by simp) rfl⟩
    (.cons ⟨hallowed _ _ rfl (by simp [oneAMinute]), .auth (by simp) rfl⟩
    (.cons ⟨hallowed _ _ rfl (by simp [oneAMinute]), .readClock rfl rfl (hnow _ rfl)⟩
    (.cons ⟨hallowed _ _ rfl (by simp [oneAMinute]), .request rfl (by decide) rfl⟩
    (.cons ⟨hallowed _ _ rfl (by simp [oneAMinute]), .auth (by simp) rfl⟩
    (.cons ⟨hallowed _ _ rfl (by simp [oneAMinute]), .auth (by simp) rfl⟩
    (.cons ⟨hallowed _ _ rfl (by simp [oneAMinute]), .auth (by simp) rfl⟩
    (.cons ⟨hallowed _ _ rfl (by simp [oneAMinute]), .readClock rfl rfl (hnow _ rfl)⟩
    (.cons ⟨hallowed _ _ rfl (by simp [oneAMinute]),
      @AdmissionStep.runScript _ _ 1 (call "a") 1 true store rfl rfl rfl rfl ?_ hfirst⟩
    (.cons ⟨hallowed _ _ rfl ?_,
      @AdmissionStep.runScript _ _ 2 (call "b") 1 false _ rfl rfl rfl rfl ?_ hsecond⟩
    (.cons ⟨hallowed _ _ rfl ?_, .answer rfl rfl rfl⟩
    (.cons ⟨hallowed _ _ rfl ?_, .answer rfl rfl rfl⟩
    (.nil _)))))))))))))), ?_, ?_⟩
  . simp [oneAMinute]
  . simp [oneAMinute, call, begin]
  . simp [oneAMinute, call]
  . simp [oneAMinute, call, begin]
  . simp [oneAMinute, call, begin, AdmissionState.decide]
  . rfl
  . rfl

end APIKeyAuth
end SdaSystem
