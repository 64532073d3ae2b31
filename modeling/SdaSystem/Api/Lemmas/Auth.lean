import SdaSystem.Api.Lemmas.AuthTtl

open Runs

namespace SdaSystem

def KeyTable.Revoked (keys : KeyTable) (keyToken : String) : Prop :=
  ∃ row ∈ keys.rows, row.keyHash = keyToken ∧ row.isActive = false

namespace APIKeyAuth

namespace TimedState

variable (s : TimedState) (keyToken : String)

/-- An entry that has not expired says that the key is active, or is on its way to the cache. -/
def Known : Prop :=
  ∃ rateLimit, s.cache.get s.now keyToken = some (.valid rateLimit)
    ∨ s.Pending keyToken (.valid rateLimit)

def Succeeded (n : Nat) : Prop :=
  ∃ keyToken rateLimit, s.calls n = some { keyToken, phase := .success rateLimit }

end TimedState

def Reactivates (keyToken : String) (s : TimedState) (e : TimedEvent) : Prop :=
  ∃ keyId rateLimitPerMin, e = .updateApiKey keyId rateLimitPerMin (some true)
    ∧ ∃ row ∈ s.keys.rows, row.id = keyId ∧ row.keyHash = keyToken

/-- The key is not reactivated before the call has read its row. -/
def Quiet (n : Nat) (keyToken : String) (s : TimedState) (e : TimedEvent) : Prop :=
  Reactivates keyToken s e
    → s.calls n ≠ some { keyToken, phase := .started } ∧ s.calls n ≠ some { keyToken, phase := .missed }

theorem query_of_revoked {keys : KeyTable} {keyToken : String} (h : keys.Revoked keyToken)
    : query keys keyToken = .notFound := by
  obtain ⟨row, hrow, hhash, hactive⟩ := h
  have hnone : keys.rows.find? (fun row => row.keyHash = keyToken ∧ row.isActive) = none := by
    rw [List.find?_eq_none]
    intro other hother heq
    simp only [decide_eq_true_eq] at heq
    have : other = row := by
      apply List.inj_on_of_nodup_map keys.uniqueHash hother hrow
      rw [heq.left, hhash]
    subst this
    simp [hactive] at heq
  unfold query
  rw [hnone]

theorem Revoked.update {keys : KeyTable} {keyToken : String} (h : keys.Revoked keyToken) {keyId : Nat}
    {rateLimitPerMin : Option Int} {isActive : Option Bool}
    (hquiet : isActive = some true → ∀ row ∈ keys.rows, row.id = keyId → row.keyHash ≠ keyToken)
    : (keys.update keyId rateLimitPerMin isActive).Revoked keyToken := by
  obtain ⟨row, hrow, hhash, hactive⟩ := h
  refine ⟨_, List.mem_map_of_mem hrow, ?_, ?_⟩
  . split <;> exact hhash
  . split
    . next hid =>
      cases isActive with
      | none => exact hactive
      | some active =>
        cases active with
        | false => rfl
        | true => exact absurd hhash (hquiet rfl row hrow hid)
    . exact hactive

theorem Revoked.create {keys : KeyTable} {keyToken : String} (h : keys.Revoked keyToken) {id : Nat}
    {keyHash : String} {rateLimitPerMin : Int} : (keys.create id keyHash rateLimitPerMin).Revoked keyToken := by
  obtain ⟨row, hrow, hrevoked⟩ := h
  unfold KeyTable.create
  split
  . exact ⟨row, List.mem_cons_of_mem _ hrow, hrevoked⟩
  . exact ⟨row, hrow, hrevoked⟩

variable {sha256 : String → String} {s t : TimedState} {e : TimedEvent} {n m : Nat}
  {keyToken token : String} {phase : Phase} {call : Call}

theorem TimedStep.revoked (hstep : TimedStep sha256 s e t) (h : s.keys.Revoked keyToken)
    (hquiet : ¬ Reactivates keyToken s e) : t.keys.Revoked keyToken := by
  cases hstep.outcome with
  | admin hadmin keys =>
    cases e with
    | createApiKey keyId rawKey rateLimitPerMin =>
      cases hstep
      apply Revoked.create h
    | revokeApiKey keyId =>
      cases hstep
      apply Revoked.update h
      intro htrue
      cases htrue
    | updateApiKey keyId rateLimitPerMin isActive =>
      cases hstep
      apply Revoked.update h
      rintro rfl row hrow hid hhash
      apply hquiet ⟨keyId, rateLimitPerMin, rfl, row, hrow, hid, hhash⟩
    | _ => cases hadmin
  | _ => apply h

theorem not_known_setCall (h : ¬ s.Known keyToken)
    (hcall : call.keyToken = keyToken → ∀ rateLimit answer,
      finish call.phase ≠ some (.valid rateLimit, answer))
    : ¬ (s.setCall m call).Known keyToken := by
  rintro ⟨rateLimit, hget | hsent | ⟨n, phase, answer, hn, hfinish⟩⟩
  . apply h ⟨rateLimit, .inl hget⟩
  . apply h ⟨rateLimit, .inr (.inl hsent)⟩
  . by_cases hne : n = m
    . subst hne
      rw [TimedState.setCall_calls_self, Option.some.injEq] at hn
      subst hn
      apply hcall rfl rateLimit answer hfinish
    . rw [TimedState.setCall_calls_of_ne hne] at hn
      apply h ⟨rateLimit, .inr (.inr ⟨n, phase, answer, hn, hfinish⟩)⟩

theorem TimedStep.not_known (hstep : TimedStep sha256 s e t) (hrevoked : s.keys.Revoked keyToken)
    (h : ¬ s.Known keyToken) : ¬ t.Known keyToken := by
  cases hstep.outcome with
  | @start m apiKey hcall =>
    apply not_known_setCall h
    intro _ rateLimit answer
    simp [finish_start]
  | @lookup m available token cached hcall hcached =>
    apply not_known_setCall h
    intro _ rateLimit answer
    simp [finish_lookup]
  | @query m token hcall =>
    apply not_known_setCall h
    rintro rfl rateLimit answer
    simp [query_of_revoked hrevoked, finish]
  | @finish m token phase answer value hcall hfinish =>
    apply not_known_setCall
    . rintro ⟨rateLimit, hget | hsent | hcalls⟩
      . apply h ⟨rateLimit, .inl hget⟩
      . cases List.mem_cons.mp hsent with
        | inl heq =>
          cases heq
          apply h ⟨rateLimit, .inr (.inr ⟨m, phase, answer, hcall, hfinish⟩)⟩
        | inr hsent => apply h ⟨rateLimit, .inr (.inl hsent)⟩
      . apply h ⟨rateLimit, .inr (.inr hcalls)⟩
    . intro _ rateLimit answer'
      rw [← (finish_spec hfinish).left, finish_lookup]
      simp
  | @land token value hsent =>
    rintro ⟨rateLimit, hget | hpending⟩
    . cases TtlCache.get_setex hget with
      | inl hnew =>
        obtain ⟨rfl, rfl⟩ := hnew
        apply h ⟨rateLimit, .inr (.inl hsent)⟩
      | inr hold => apply h ⟨rateLimit, .inl hold⟩
    . apply h ⟨rateLimit, .inr hpending⟩
  | lose =>
    rintro ⟨rateLimit, hget | hsent | hcalls⟩
    . apply h ⟨rateLimit, .inl hget⟩
    . apply h ⟨rateLimit, .inr (.inl (List.mem_of_mem_erase hsent))⟩
    . apply h ⟨rateLimit, .inr (.inr hcalls)⟩
  | evict =>
    rintro ⟨rateLimit, hget | hpending⟩
    . apply h ⟨rateLimit, .inl (TtlCache.get_evict hget)⟩
    . apply h ⟨rateLimit, .inr hpending⟩
  | admin _ keys => apply h
  | clock hle =>
    -- an entry that can still be read later can be read now
    rintro ⟨rateLimit, hget | hpending⟩
    . apply h ⟨rateLimit, .inl (TtlCache.get_of_le hle hget)⟩
    . apply h ⟨rateLimit, .inr hpending⟩

theorem TimedStep.call_cases (hstep : TimedStep sha256 s e t) (hcall : s.calls n = some ⟨keyToken, phase⟩)
    : t.calls n = some ⟨keyToken, phase⟩
        ∨ (phase = .started ∧ ∃ cached, (cached = none ∨ cached = s.cache.get s.now keyToken)
          ∧ t.calls n = some ⟨keyToken, lookup cached⟩)
        ∨ (phase = .missed ∧ t.calls n = some ⟨keyToken, query s.keys keyToken⟩)
        ∨ ∃ value answer, finish phase = some (value, answer) ∧ t.calls n = some ⟨keyToken, answer⟩ := by
  cases hstep.outcome with
  | @start m apiKey hm =>
    apply Or.inl
    rw [TimedState.setCall_calls_of_ne]
    . apply hcall
    . rintro rfl
      rw [hm] at hcall
      cases hcall
  | @lookup m available token cached hm hcached =>
    by_cases hne : n = m
    . subst hne
      rw [hm, Option.some.injEq, Call.mk.injEq] at hcall
      obtain ⟨rfl, rfl⟩ := hcall
      exact .inr (.inl ⟨rfl, cached, hcached.imp_right And.right, TimedState.setCall_calls_self⟩)
    . exact .inl ((TimedState.setCall_calls_of_ne hne).trans hcall)
  | @query m token hm =>
    by_cases hne : n = m
    . subst hne
      rw [hm, Option.some.injEq, Call.mk.injEq] at hcall
      obtain ⟨rfl, rfl⟩ := hcall
      exact .inr (.inr (.inl ⟨rfl, TimedState.setCall_calls_self⟩))
    . exact .inl ((TimedState.setCall_calls_of_ne hne).trans hcall)
  | @finish m token phase' answer value hm hfinish =>
    by_cases hne : n = m
    . subst hne
      rw [hm, Option.some.injEq, Call.mk.injEq] at hcall
      obtain ⟨rfl, rfl⟩ := hcall
      exact .inr (.inr (.inr ⟨value, answer, hfinish, TimedState.setCall_calls_self⟩))
    . exact .inl ((TimedState.setCall_calls_of_ne hne).trans hcall)
  | _ => apply Or.inl hcall

/-- Nothing lets the call succeed: it is over or has not found the row, or the key is unknown. -/
inductive Rejecting (n : Nat) (keyToken : String) (s : TimedState) : Prop where
  | ended {phase : Phase} (hcall : s.calls n = some { keyToken, phase })
      (hphase : phase ∈ [Phase.notFound, .unauthorized, .badRequest])
  | unread {phase : Phase} (hcall : s.calls n = some { keyToken, phase })
      (hphase : phase ∈ [Phase.started, .missed]) (hrevoked : s.keys.Revoked keyToken)
      (hunknown : ¬ s.Known keyToken)

theorem Rejecting.not_succeeded (h : Rejecting n keyToken s) : ¬ s.Succeeded n := by
  rintro ⟨token, rateLimit, hcall⟩
  cases h with
  | ended hn hphase =>
    rw [hn, Option.some.injEq, Call.mk.injEq] at hcall
    simp [hcall.right] at hphase
  | unread hn hphase =>
    rw [hn, Option.some.injEq, Call.mk.injEq] at hcall
    simp [hcall.right] at hphase

theorem Rejecting.of_lookup {cached : Option Cached} (hcall : t.calls n = some ⟨keyToken, lookup cached⟩)
    (hcached : cached = none ∨ cached = s.cache.get s.now keyToken) (hbefore : ¬ s.Known keyToken)
    (hrevoked : t.keys.Revoked keyToken) (hunknown : ¬ t.Known keyToken)
    : Rejecting n keyToken t := by
  cases cached with
  | none => exact .unread hcall (by simp [lookup]) hrevoked hunknown
  | some cached =>
    cases cached with
    | valid rateLimit =>
      rcases hcached with hnone | hget
      . cases hnone
      . exact absurd ⟨rateLimit, .inl hget.symm⟩ hbefore
    | invalid => exact .ended hcall (by simp [lookup])
    | revoked => exact .ended hcall (by simp [lookup])
    | malformed => exact .unread hcall (by simp [lookup]) hrevoked hunknown

theorem Rejecting.step (h : Rejecting n keyToken s) (hstep : TimedStep sha256 s e t)
    (hquiet : Quiet n keyToken s e) : Rejecting n keyToken t := by
  cases h with
  | @ended phase hcall hphase =>
    rcases hstep.call_cases hcall with hsame | ⟨rfl, _⟩ | ⟨rfl, _⟩ | ⟨value, answer, hfinish, hover⟩
    . exact .ended hsame hphase
    . simp at hphase
    . simp at hphase
    . cases phase with
      | notFound =>
        cases hfinish
        exact .ended hover (by simp)
      | _ => simp [finish] at hfinish hphase
  | @unread phase hcall hphase hrevoked hunknown =>
    have hunknown' := hstep.not_known hrevoked hunknown
    have hrevoked' : t.keys.Revoked keyToken := by
      apply hstep.revoked hrevoked
      intro hreactivates
      have hread := hquiet hreactivates
      simp only [List.mem_cons, List.not_mem_nil, or_false] at hphase
      rcases hphase with rfl | rfl
      . apply hread.left hcall
      . apply hread.right hcall
    rcases hstep.call_cases hcall with hsame | ⟨_, cached, hcached, hlooked⟩ | ⟨_, hread⟩
      | ⟨value, answer, hfinish, _⟩
    . exact .unread hsame hphase hrevoked' hunknown'
    . exact .of_lookup hlooked hcached hunknown hrevoked' hunknown'
    . rw [query_of_revoked hrevoked] at hread
      exact .ended hread (by simp)
    . simp only [List.mem_cons, List.not_mem_nil, or_false] at hphase
      rcases hphase with rfl | rfl <;> cases hfinish

theorem Rejecting.run {events : List TimedEvent} (h : Rejecting n keyToken s)
    (hrun : Run (restrict (Quiet n keyToken) (TimedStep sha256)) s events t) : Rejecting n keyToken t := by
  apply hrun.invariant _ h
  intro s e t hs hstep
  apply hs.step hstep.right hstep.left

theorem Rejecting.of_start {apiKey : String} (hrevoked : s.keys.Revoked keyToken)
    (hunknown : apiKey = "" ∨ ¬ s.Known keyToken)
    : Rejecting n keyToken (s.setCall n ⟨keyToken, start apiKey⟩) := by
  by_cases hkey : apiKey = ""
  . apply Rejecting.ended TimedState.setCall_calls_self
    simp [start, hkey]
  . apply Rejecting.unread TimedState.setCall_calls_self
    . simp [start, hkey]
    . apply hrevoked
    . apply not_known_setCall (hunknown.resolve_left hkey)
      intro _ rateLimit answer
      simp [finish_start]

def CanSucceed (sha256 : String → String) (n : Nat) (keyToken : String) (s : TimedState) : Prop :=
  ∃ events t, Run (restrict (Quiet n keyToken) (TimedStep sha256)) s events t ∧ t.Succeeded n

theorem CanSucceed.of_step (hstep : TimedStep sha256 s e t)
    (he : ∀ keyId rateLimitPerMin, e ≠ .updateApiKey keyId rateLimitPerMin (some true))
    (h : CanSucceed sha256 n keyToken t) : CanSucceed sha256 n keyToken s := by
  obtain ⟨events, u, hrun, hsucceeded⟩ := h
  refine ⟨e :: events, u, .cons ⟨?_, hstep⟩ hrun, hsucceeded⟩
  rintro ⟨keyId, rateLimitPerMin, rfl, _⟩
  exact absurd rfl (he keyId rateLimitPerMin)

theorem canSucceed_of_get {rateLimit : Int} (hcall : s.calls n = some ⟨keyToken, .started⟩)
    (hget : s.cache.get s.now keyToken = some (.valid rateLimit)) : CanSucceed sha256 n keyToken s := by
  have hstep : TimedStep sha256 s (.lookup n true) (s.setCall n ⟨keyToken, .success rateLimit⟩) := by
    simp [TimedStep, timedNext, hcall, hget, lookup]
  apply CanSucceed.of_step hstep (by simp)
  exact ⟨[], _, .nil _, keyToken, rateLimit, TimedState.setCall_calls_self⟩

theorem canSucceed_of_sent {rateLimit : Int} (hcall : s.calls n = some ⟨keyToken, .started⟩)
    (hsent : (keyToken, .valid rateLimit) ∈ s.sent) : CanSucceed sha256 n keyToken s := by
  let t : TimedState :=
    { s with cache := s.cache.setex s.now (cacheTtl (.valid rateLimit)) keyToken (.valid rateLimit) }
  have hstep : TimedStep sha256 s (.land keyToken (.valid rateLimit)) t := by
    simp [TimedStep, timedNext, hsent, t]
  apply CanSucceed.of_step hstep (by simp)
  have hcall' : t.calls n = some ⟨keyToken, .started⟩ := hcall
  apply canSucceed_of_get hcall'
  rw [TtlCache.get_eq_some]
  refine ⟨_, Function.update_self .., ?_, rfl⟩
  simp only [cacheTtl, t]
  omega

theorem canSucceed_of_known (hcall : s.calls n = some ⟨keyToken, .started⟩) (h : s.Known keyToken)
    : CanSucceed sha256 n keyToken s := by
  obtain ⟨rateLimit, hget | hsent | ⟨m, phase, answer, hm, hfinish⟩⟩ := h
  . apply canSucceed_of_get hcall hget
  . apply canSucceed_of_sent hcall hsent
  . have hne : n ≠ m := by
      rintro rfl
      rw [hcall, Option.some.injEq, Call.mk.injEq] at hm
      rw [← hm.right] at hfinish
      cases hfinish
    have hstep : TimedStep sha256 s (.finish m)
        ({ s with sent := (keyToken, .valid rateLimit) :: s.sent }.setCall m ⟨keyToken, answer⟩) := by
      simp [TimedStep, timedNext, hm, hfinish]
    apply CanSucceed.of_step hstep (by simp)
    apply canSucceed_of_sent
    . exact (TimedState.setCall_calls_of_ne hne).trans hcall
    . apply List.mem_cons_self

/--
A call that starts while the key is revoked is rejected in every continuation, up to a reactivation
that comes before it has read the row, if and only if nobody knows the key as active at its start.
-/
theorem verify_rejected_iff {s' : TimedState} {apiKey : String}
    (hrevoked : s.keys.Revoked (sha256 apiKey)) (hstart : TimedStep sha256 s (.start n apiKey) s')
    : (∀ events t, Run (restrict (Quiet n (sha256 apiKey)) (TimedStep sha256)) s' events t
        → ¬ t.Succeeded n)
        ↔
      apiKey = "" ∨ ¬ s.Known (sha256 apiKey) := by
  cases hstart.outcome with
  | start hcall =>
    constructor
    . intro hnever
      by_contra hknown
      rw [not_or, not_not] at hknown
      have hstarted : (s.setCall n ⟨sha256 apiKey, start apiKey⟩).calls n
          = some ⟨sha256 apiKey, .started⟩ := by
        rw [TimedState.setCall_calls_self]
        simp [start, hknown.left]
      have hknown' : (s.setCall n ⟨sha256 apiKey, start apiKey⟩).Known (sha256 apiKey) := by
        obtain ⟨rateLimit, hget | hsent | ⟨m, phase, answer, hm, hfinish⟩⟩ := hknown.right
        . exact ⟨rateLimit, .inl hget⟩
        . exact ⟨rateLimit, .inr (.inl hsent)⟩
        . refine ⟨rateLimit, .inr (.inr ⟨m, phase, answer, ?_, hfinish⟩)⟩
          rw [TimedState.setCall_calls_of_ne]
          . apply hm
          . rintro rfl
            rw [hcall] at hm
            cases hm
      obtain ⟨events, t, hrun, hsucceeded⟩ := canSucceed_of_known hstarted hknown'
      apply hnever events t hrun hsucceeded
    . intro hunknown events t hrun
      apply Rejecting.not_succeeded
      apply Rejecting.run _ hrun
      apply Rejecting.of_start hrevoked hunknown
  | admin hadmin => cases hadmin

theorem verify_rejected_iff_unknown
    : (∀ events t,
        Run (restrict (Quiet 1 "2c70e12b") (TimedStep fun _ => "2c70e12b"))
          (TimedState.setCall { now := 0, keys := soleKey false } 1 ⟨"2c70e12b", .started⟩) events t
        → ¬ t.Succeeded 1)
        ↔
      "key" = "" ∨ ¬ TimedState.Known { now := 0, keys := soleKey false } "2c70e12b" := by
  apply @verify_rejected_iff fun _ => "2c70e12b"
  . exact ⟨{ id := 1, keyHash := "2c70e12b", isActive := false }, by simp [soleKey], rfl, rfl⟩
  . rfl

/-- The first call stores the key as active, and the second one finds that after the revocation. -/
theorem verify_succeeds_after_revocation
    : ∃ (sha256 : String → String) (s₀ s s' t : TimedState) (before after : List TimedEvent)
        (apiKey : String),
        s₀.Initial
          ∧
        Run (TimedStep sha256) s₀ before s ∧ .revokeApiKey 1 ∈ before ∧ s.keys.Revoked (sha256 apiKey)
          ∧
        TimedStep sha256 s (.start 2 apiKey) s'
          ∧
        Run (restrict (Quiet 2 (sha256 apiKey)) (TimedStep sha256)) s' after t
          ∧
        t.Succeeded 2 := by
  refine ⟨fun _ => "2c70e12b", soleKeyState, _, _, _,
    [.start 1 "key", .lookup 1 true, .query 1, .finish 1, .land "2c70e12b" (.valid 100), .revokeApiKey 1],
    [.lookup 2 true], "key", ⟨fun _ => rfl, rfl, fun _ => rfl⟩,
    .cons rfl (.cons rfl (.cons rfl (.cons rfl (.cons rfl (.cons rfl (.nil _)))))), by simp, ?_, rfl,
    .cons ⟨?_, rfl⟩ (.nil _), ?_⟩
  . exact ⟨{ id := 1, keyHash := "2c70e12b", isActive := false }, by decide, rfl, rfl⟩
  . rintro ⟨_, _, heq, _⟩
    cases heq
  . exact ⟨"2c70e12b", 100, rfl⟩

end APIKeyAuth
end SdaSystem
