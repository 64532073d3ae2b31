import Mathlib.Algebra.Order.Ring.Rat
import Mathlib.Tactic.Linarith
import SdaSystem.Api.Impl.RateLimit
import SdaSystem.Library.SlidingWindow

/-!
The sorted set of a key tracks the requests that were allowed: from the last call on, it holds those
that still count, whatever Redis has evicted or let expire in between.
-/

open Runs SlidingWindow

namespace SdaSystem
namespace RateLimiter

theorem redisKey_injective : Function.Injective redisKey := by
  intro a b h
  unfold redisKey at h
  rw [← String.toList_inj] at h ⊢
  simpa using h

structure Tracks (store : Store) (key : String) (allowed : List Rat) (members : List String)
    (clock : Rat) : Prop where
  past : ∀ a ∈ allowed, a ≤ clock
  nonneg : ∀ s ∈ (setAt store key).scores, 0 ≤ s
  members : ∀ m ∈ (setAt store key).entries.map (·.1), m ∈ members
  expireAt : ∀ e t, store key = some e → e.expireAt = some t → ∀ a ∈ allowed, a + 60 ≤ t
  counting : ∀ t, clock ≤ t
    → (((setAt store key).scores).filter (t - 60 < ·)).Perm (allowed.filter (t - 60 < ·))

variable {store store' : Store} {key : String} {allowed : List Rat} {members : List String}
  {clock now : Rat}

theorem Tracks.of_eq (h : Tracks store key allowed members clock) (hclock : clock ≤ now)
    (hsame : store' key = store key) : Tracks store' key allowed members now := by
  have hset : setAt store' key = setAt store key := by
    unfold setAt
    rw [hsame]
  constructor
  case past =>
    intro a ha
    apply le_trans (h.past a ha) hclock
  case nonneg =>
    rw [hset]
    apply h.nonneg
  case members =>
    rw [hset]
    apply h.members
  case expireAt =>
    rw [hsame]
    apply h.expireAt
  case counting =>
    intro t ht
    rw [hset]
    apply h.counting t (le_trans hclock ht)

theorem Tracks.lapse (h : Tracks store key allowed members clock) (hclock : clock ≤ now)
    (hlapse : Lapse now store store') : Tracks store' key allowed members now := by
  rcases hlapse key with hsame | ⟨hgone, e, t, he, ht, hle⟩
  . apply h.of_eq hclock hsame
  . have hset : setAt store' key = .empty := by simp [setAt, hgone]
    constructor
    case past =>
      intro a ha
      apply le_trans (h.past a ha) hclock
    case nonneg => simp [hset]
    case members => simp [hset, SortedSet.empty]
    case expireAt => simp [hgone]
    case counting =>
      -- the key went sixty seconds after its last entry, so none of the entries counts any more
      intro t' ht'
      have hnone : allowed.filter (t' - 60 < ·) = [] := by
        rw [List.filter_eq_nil_iff]
        intro a ha
        have := h.expireAt e t he ht a ha
        rw [decide_eq_true_iff, not_lt]
        linarith
      rw [hset, hnone]
      simp

theorem Tracks.weaken (h : Tracks store key allowed members clock) {members' : List String}
    (hsub : members ⊆ members') : Tracks store key allowed members' clock :=
  { h with members := fun m hm => hsub (h.members m hm) }

section

variable {key' : String} (hne : key' ≠ key)

include hne

theorem zremrangebyscore_of_ne (lo hi : Rat) : zremrangebyscore store key lo hi key' = store key' := by
  apply Function.update_of_ne hne

theorem zadd_of_ne (score : Rat) (member : String) : zadd store key score member key' = store key' := by
  apply Function.update_of_ne hne

theorem expire_of_ne (deadline : Rat) : expire store key deadline key' = store key' := by
  apply Function.update_of_ne hne

theorem rateLimitLua_of_ne (winStart : Rat) (limit : Nat) (member : String)
    : (rateLimitLua store key now winStart limit member).1 key' = store key' := by
  unfold rateLimitLua
  dsimp only
  split
  . apply zremrangebyscore_of_ne hne
  . dsimp only
    rw [expire_of_ne hne, zadd_of_ne hne, zremrangebyscore_of_ne hne]

end

theorem entries_setAt_zremrangebyscore (store : Store) (key : String) (lo hi : Rat)
    : (setAt (zremrangebyscore store key lo hi) key).entries
        =
      ((setAt store key).removeRangeByScore lo hi).entries := by
  unfold zremrangebyscore
  dsimp only
  split
  . next hcard =>
    unfold SortedSet.card at hcard
    rw [List.eq_nil_of_length_eq_zero hcard]
    simp [setAt, SortedSet.empty]
  . next hcard =>
    cases hkey : store key with
    | none =>
      exfalso
      apply hcard
      simp [setAt, hkey, SortedSet.removeRangeByScore, SortedSet.filter, SortedSet.empty, SortedSet.card]
    | some entry => simp [setAt]

theorem Tracks.scores_zremrangebyscore (h : Tracks store key allowed members now)
    : (setAt (zremrangebyscore store key 0 (now - 60)) key).scores
        =
      (setAt store key).scores.filter (now - 60 < ·) := by
  have hentries := entries_setAt_zremrangebyscore store key 0 (now - 60)
  have hscores := SortedSet.scores_removeRangeByScore (setAt store key) 0 (now - 60)
  unfold SortedSet.scores at hscores ⊢
  rw [hentries, hscores]
  apply List.filter_congr
  intro s hs
  have := h.nonneg s hs
  rw [decide_eq_decide, not_and, not_le]
  constructor
  . intro hlt
    apply hlt this
  . intro hlt _
    assumption

theorem Tracks.zremrangebyscore (h : Tracks store key allowed members now)
    : Tracks (RateLimiter.zremrangebyscore store key 0 (now - 60)) key allowed members now := by
  have hscores := h.scores_zremrangebyscore
  constructor
  case past => apply h.past
  case nonneg =>
    rw [hscores]
    intro s hs
    apply h.nonneg s (List.mem_of_mem_filter hs)
  case members =>
    rw [entries_setAt_zremrangebyscore]
    intro m hm
    apply h.members m (SortedSet.mem_members_removeRangeByScore hm)
  case expireAt =>
    intro e t he ht
    unfold RateLimiter.zremrangebyscore at he
    rw [Function.update_self] at he
    split at he
    . cases he
    . obtain ⟨entry, hentry, rfl⟩ := Option.map_eq_some_iff.mp he
      apply h.expireAt entry t hentry ht
  case counting =>
    intro t ht
    rw [hscores, List.filter_filter]
    have hfilter : (setAt store key).scores.filter (fun s => decide (t - 60 < s) && decide (now - 60 < s))
        = (setAt store key).scores.filter (t - 60 < ·) := by
      apply List.filter_congr
      intro s _
      rw [Bool.eq_iff_iff, Bool.and_eq_true, decide_eq_true_iff, decide_eq_true_iff]
      constructor
      . intro hlt
        apply hlt.left
      . intro hlt
        refine ⟨hlt, ?_⟩
        linarith
    rw [hfilter]
    apply h.counting t ht

theorem Tracks.zcard (h : Tracks store key allowed members now)
    : RateLimiter.zcard (RateLimiter.zremrangebyscore store key 0 (now - 60)) key
        =
      (inWindow 60 now allowed).length := by
  unfold RateLimiter.zcard
  rw [← SortedSet.length_scores, h.scores_zremrangebyscore, (h.counting now (le_refl now)).length_eq]
  unfold inWindow
  congr 1
  apply List.filter_congr
  intro a ha
  rw [decide_eq_decide]
  constructor
  . intro hlt
    exact ⟨hlt, h.past a ha⟩
  . intro hwin
    apply hwin.left

theorem setAt_expire_zadd (store : Store) (key : String) (now deadline : Rat) (member : String)
    : expire (zadd store key now member) key deadline key
        =
      some { value := (setAt store key).add now member, expireAt := some deadline } := by
  simp [expire, zadd]

theorem Tracks.zadd (h : Tracks store key allowed members now) (hnow : 0 ≤ now) {member : String}
    (hnew : member ∉ members)
    : Tracks (expire (RateLimiter.zadd store key now member) key (now + 60)) key (allowed ++ [now])
        (member :: members) now := by
  have hentry := setAt_expire_zadd store key now (now + 60) member
  have hset : setAt (expire (RateLimiter.zadd store key now member) key (now + 60)) key
      = (setAt store key).add now member := by
    rw [setAt, hentry]
  have hscores : ((setAt store key).add now member).scores = now :: (setAt store key).scores := by
    apply SortedSet.scores_add
    intro hm
    apply hnew (h.members member hm)
  have hpast : ∀ a ∈ allowed ++ [now], a ≤ now := by
    intro a ha
    rw [List.mem_append, List.mem_singleton] at ha
    rcases ha with ha | rfl
    . apply h.past a ha
    . apply le_refl
  constructor
  case past => assumption
  case nonneg =>
    rw [hset, hscores, List.forall_mem_cons]
    exact ⟨hnow, h.nonneg⟩
  case members =>
    rw [hset]
    intro m hm
    rcases SortedSet.mem_members_add hm with rfl | hm
    . simp
    . apply List.mem_cons_of_mem _ (h.members m hm)
  case expireAt =>
    intro e t he ht a ha
    rw [hentry, Option.some.injEq] at he
    subst he
    rw [Option.some.injEq] at ht
    have := hpast a ha
    linarith
  case counting =>
    intro t ht
    rw [hset, hscores, List.filter_append]
    have hcons : now :: (setAt store key).scores = [now] ++ (setAt store key).scores := rfl
    rw [hcons, List.filter_append]
    apply List.perm_append_comm.trans
    apply (h.counting t ht).append_right

theorem Tracks.rateLimitLua (h : Tracks store key allowed members now) (hnow : 0 ≤ now) (limit : Nat)
    {member : String} (hnew : member ∉ members)
    : if limit ≤ (inWindow 60 now allowed).length then
        (RateLimiter.rateLimitLua store key now (now - 60) limit member).2 = 1
          ∧ Tracks (RateLimiter.rateLimitLua store key now (now - 60) limit member).1 key allowed
              (member :: members) now
      else
        (RateLimiter.rateLimitLua store key now (now - 60) limit member).2 = 0
          ∧ Tracks (RateLimiter.rateLimitLua store key now (now - 60) limit member).1 key
              (allowed ++ [now]) (member :: members) now := by
  unfold RateLimiter.rateLimitLua
  dsimp only
  rw [h.zcard]
  split
  . exact ⟨rfl, h.zremrangebyscore.weaken (List.subset_cons_self _ _)⟩
  . exact ⟨rfl, h.zremrangebyscore.zadd hnow hnew⟩

def allowedTimes (keyHash : String) (events : List (Call × Bool)) : List Rat :=
  events.filterMap fun e => if e.2 ∧ e.1.keyHash = keyHash then some e.1.now.seconds else none

theorem allowedTimes_append (keyHash : String) (events events' : List (Call × Bool))
    : allowedTimes keyHash (events ++ events')
        =
      allowedTimes keyHash events ++ allowedTimes keyHash events' := by
  apply List.filterMap_append

section

variable {keyHash : String} {limit : Nat}

theorem Step.tracks {e : Call × Bool} (hstep : Step store e store')
    (h : Tracks store (redisKey keyHash) allowed members clock) (hclock : clock ≤ e.1.now.seconds)
    (hnew : e.1.member ∉ members) (hlimit : e.1.keyHash = keyHash → e.1.requestsPerMin = limit)
    : Tracks store' (redisKey keyHash) (allowed ++ allowedTimes keyHash [e])
          (e.1.member :: members) e.1.now.seconds
        ∧
      (e.1.keyHash = keyHash
        → (e.2 = false ↔ limit ≤ (inWindow 60 e.1.now.seconds allowed).length)) := by
  cases hstep with
  | @checkRateLimit lapsed call hlapse =>
    have h := h.lapse hclock hlapse
    by_cases hkey : call.keyHash = keyHash
    . have hlua := h.rateLimitLua call.now.nonneg call.requestsPerMin hnew
      rw [← hkey, hlimit hkey] at hlua
      unfold allowedTimes RateLimiter.checkRateLimit
      dsimp only
      rw [← hkey, hlimit hkey]
      split at hlua
      . next hle => simpa [response, hlua.left, hle] using hlua.right
      . next hle => simpa [response, hlua.left, hle] using hlua.right
    . have hne : redisKey keyHash ≠ redisKey call.keyHash := by
        intro heq
        apply hkey (redisKey_injective heq).symm
      have hother : allowedTimes keyHash [(call, (RateLimiter.checkRateLimit lapsed call).2.1)] = [] := by
        simp [allowedTimes, hkey]
      rw [hother, List.append_nil]
      refine ⟨?_, fun heq => absurd heq hkey⟩
      apply (h.weaken (List.subset_cons_self _ _)).of_eq (le_refl _)
      unfold RateLimiter.checkRateLimit
      apply rateLimitLua_of_ne hne

theorem admitted_of_run {events : List (Call × Bool)} (hrun : Run Step store events store')
    (h : Tracks store (redisKey keyHash) allowed members clock) (hadmitted : Admitted 60 limit allowed)
    (hclock : (clock :: events.map (·.1.now.seconds)).Pairwise (· ≤ ·))
    (hmembers : (events.map (·.1.member)).Nodup) (hnew : ∀ e ∈ events, e.1.member ∉ members)
    (hlimit : ∀ e ∈ events, e.1.keyHash = keyHash → e.1.requestsPerMin = limit)
    : Admitted 60 limit (allowed ++ allowedTimes keyHash events)
        ∧
      ∀ before e after, events = before ++ e :: after → e.1.keyHash = keyHash → e.2 = false
        → limit ≤ (inWindow 60 e.1.now.seconds (allowed ++ allowedTimes keyHash before)).length := by
  induction hrun generalizing allowed members clock with
  | nil =>
    refine ⟨?_, ?_⟩
    . simpa [allowedTimes] using hadmitted
    . intro before e after hsplit
      simp at hsplit
  | @cons store mid store' e events hstep hrest ih =>
    rw [List.map_cons, List.pairwise_cons, List.forall_mem_cons] at hclock
    rw [List.map_cons, List.nodup_cons] at hmembers
    rw [List.forall_mem_cons] at hnew hlimit
    obtain ⟨htracks, hdecision⟩ := hstep.tracks h hclock.left.left hnew.left hlimit.left
    have hadmitted' : Admitted 60 limit (allowed ++ allowedTimes keyHash [e]) := by
      by_cases hallowed : e.2 ∧ e.1.keyHash = keyHash
      . have htimes : allowedTimes keyHash [e] = [e.1.now.seconds] := by simp [allowedTimes, hallowed]
        rw [htimes]
        apply hadmitted.snoc
        . intro a ha
          apply htracks.past
          simp [ha]
        . have := hdecision hallowed.right
          rw [hallowed.left] at this
          simpa using this
      . have htimes : allowedTimes keyHash [e] = [] := by simpa [allowedTimes] using hallowed
        rwa [htimes, List.append_nil]
    have hnew' : ∀ e' ∈ events, e'.1.member ∉ e.1.member :: members := by
      intro e' he'
      rw [List.mem_cons, not_or]
      refine ⟨?_, hnew.right e' he'⟩
      intro heq
      apply hmembers.left
      rw [← heq]
      apply List.mem_map_of_mem he'
    obtain ⟨hall, hlater⟩ := ih htracks hadmitted' hclock.right hmembers.right hnew' hlimit.right
    rw [List.append_assoc, ← allowedTimes_append] at hall
    refine ⟨hall, Runs.forall_split_cons_iff.mpr ⟨?_, ?_⟩⟩
    . intro hkey hrejected
      simpa [allowedTimes] using (hdecision hkey).mp hrejected
    . intro before e' after hsplit hkey hrejected
      have := hlater before e' after hsplit hkey hrejected
      rwa [List.append_assoc, ← allowedTimes_append] at this

end

/-- Which requests are allowed depends on nothing but the requests that were allowed before. -/
theorem checkRateLimit_exact {events : List (Call × Bool)} (hrun : Run Step store events store')
    (keyHash : String) (limit : Nat) (hkey : store (redisKey keyHash) = none)
    (hclock : (events.map (·.1.now.seconds)).Pairwise (· ≤ ·))
    (hmembers : (events.map (·.1.member)).Nodup)
    (hlimit : ∀ e ∈ events, e.1.keyHash = keyHash → e.1.requestsPerMin = limit)
    : (∀ t, (inWindow 60 t (allowedTimes keyHash events)).length ≤ limit)
        ∧
      ∀ e ∈ events, e.1.keyHash = keyHash → e.2 = false
        → (inWindow 60 e.1.now.seconds (allowedTimes keyHash events)).length = limit := by
  have hset : setAt store (redisKey keyHash) = .empty := by simp [setAt, hkey]
  have htracks : Tracks store (redisKey keyHash) [] [] 0 := by
    constructor
    case past => simp
    case nonneg => simp [hset]
    case members => simp [hset, SortedSet.empty]
    case expireAt => simp [hkey]
    case counting => simp [hset]
  have hclock' : (0 :: events.map (·.1.now.seconds)).Pairwise (· ≤ ·) := by
    rw [List.pairwise_cons, List.forall_mem_map]
    exact ⟨fun e _ => e.1.now.nonneg, hclock⟩
  obtain ⟨hadmitted, hrejected⟩ :=
    admitted_of_run hrun htracks .nil hclock' hmembers (by simp) hlimit
  rw [List.nil_append] at hadmitted
  refine ⟨hadmitted.length_inWindow_le, ?_⟩
  intro e he hk hfalse
  obtain ⟨before, after, hsplit⟩ := List.append_of_mem he
  apply le_antisymm (hadmitted.length_inWindow_le _)
  apply le_trans (hrejected before e after hsplit hk hfalse)
  apply inWindow_length_mono
  rw [List.nil_append, hsplit, allowedTimes_append]
  apply List.sublist_append_left

/-- Two calls at once with a limit of one, and a third one a minute later. -/
theorem checkRateLimit_exact_minute
    : let call (now : Timestamp) (member : String) : Call := {
        keyHash := "9f86d081"
        requestsPerMin := 1
        now
        member
      }
      let begin : Timestamp := { seconds := 0, nonneg := by decide }
      let later : Timestamp := { seconds := 60, nonneg := by decide }
      let events := [(call begin "a", true), (call begin "b", false), (call later "c", true)]
      (∀ t, (inWindow 60 t (allowedTimes "9f86d081" events)).length ≤ 1)
        ∧
      ∀ e ∈ events, e.1.keyHash = "9f86d081" → e.2 = false
        → (inWindow 60 e.1.now.seconds (allowedTimes "9f86d081" events)).length = 1 := by
  intro call begin later events
  have hstep : ∀ (store : Store) (c : Call) (ok : Bool), (checkRateLimit store c).2.1 = ok
      → Step store (c, ok) (checkRateLimit store c).1 := by
    intro store c ok hok
    rw [← hok]
    apply Step.checkRateLimit
    intro key
    apply Or.inl rfl
  let first : Store := (checkRateLimit (fun _ => none) (call begin "a")).1
  let second : Store := (checkRateLimit first (call begin "b")).1
  have hrun : Run Step (fun _ => none) events (checkRateLimit second (call later "c")).1 := by
    apply Run.cons (hstep _ (call begin "a") true (by decide +kernel))
    apply Run.cons (hstep first (call begin "b") false (by decide +kernel))
    apply Run.cons (hstep second (call later "c") true (by decide +kernel))
    apply Run.nil
  apply checkRateLimit_exact hrun "9f86d081" 1 rfl
  . decide +kernel
  . decide +kernel
  . decide +kernel

end RateLimiter
end SdaSystem
