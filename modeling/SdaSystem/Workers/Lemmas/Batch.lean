import Mathlib.Data.Fintype.Card
import SdaSystem.Library.Runs
import SdaSystem.Workers.Impl.Batch

open Runs

namespace SdaSystem
namespace Batch

variable {n : Nat} {batchKey : String}

def Landing.decrements (landing : Landing) : Nat :=
  match landing with
  | .beforeCall | .beforeDecr => 0
  | .beforeDispatch | .beforeReturn => 1

def Outcome.decrements (outcome : Outcome) (retries : Nat) : Nat :=
  match outcome with
  | .success | .noStations => 1
  | .softTimeLimit landing =>
    match landing with
    | .beforeCall | .beforeDispatch => 1
    | .beforeDecr => 0
    | .beforeReturn => 2
  | .exception exc => if retries < maxRetries then 0 else if exc = .maxRetriesExceeded then 1 else 0
  | .handlerRaises => 0
  | .maxRetriesTimeLimit landing => if retries < maxRetries then 0 else landing.decrements

structure Counted (batchKey : String) (s : State n) : Prop where
  key : ∀ m ∈ s.queue, m.counterKey = batchKey
  counter : s.counter = some (n - s.decremented.length : Int)
  dispatches : s.dispatches.length = s.decremented.length + 1 - n

theorem counterKey_propagateBatch (batchKey : String)
    : ∀ m ∈ (propagateBatch batchKey n).queue, m.counterKey = batchKey := by
  intro m hm
  unfold propagateBatch at hm
  obtain ⟨sat, _, rfl⟩ := List.mem_map.mp hm
  rfl

theorem counted_propagateBatch (batchKey : String) (hn : 0 < n)
    : Counted batchKey (propagateBatch batchKey n) where
  key := counterKey_propagateBatch batchKey
  counter := by simp [propagateBatch]
  dispatches := by
    simp only [propagateBatch, List.length_nil]
    omega

theorem propagateCounterDecr_queue (m : Message n) (s : State n)
    : (propagateCounterDecr m s).queue = s.queue := by
  unfold propagateCounterDecr
  split
  . rfl
  . dsimp
    split <;> rfl

theorem propagateCounterDecr_decremented {m : Message n} (hm : m.counterKey ≠ "") (s : State n)
    : (propagateCounterDecr m s).decremented = s.decremented ++ [m.sat] := by
  unfold propagateCounterDecr
  rw [if_neg hm]
  dsimp
  split <;> rfl

theorem Counted.propagateCounterDecr {s : State n} (h : Counted batchKey s) {m : Message n}
    (hm : m.counterKey ≠ "") : Counted batchKey (propagateCounterDecr m s) where
  key := by
    rw [propagateCounterDecr_queue]
    apply h.key
  counter := by
    rw [propagateCounterDecr_decremented hm]
    unfold Batch.propagateCounterDecr
    rw [if_neg hm]
    have hcounter := h.counter
    unfold decr delayGreedy
    dsimp
    split
    all_goals
      simp only [hcounter, Option.getD_some, List.length_append, List.length_singleton]
      congr 1
      omega
  dispatches := by
    rw [propagateCounterDecr_decremented hm]
    unfold Batch.propagateCounterDecr
    rw [if_neg hm]
    have hcounter := h.counter
    have hdispatches := h.dispatches
    unfold decr delayGreedy
    dsimp
    rw [List.length_append, List.length_singleton, hcounter, Option.getD_some]
    split
    . dsimp
      rw [List.length_append, List.length_singleton]
      omega
    . dsimp
      omega

/--
An attempt that ends for good calls `DECR` once, and a soft time limit comes between this call and the
dispatch only where there is nothing to dispatch yet.
-/
def CountsOnce (s : State n) (e : Event n) : Prop :=
  match e with
  | .ack m outcome =>
    match outcome with
    | .success | .noStations => True
    | .softTimeLimit landing =>
      landing = .beforeCall ∨ landing = .beforeDispatch ∧ s.counter ≠ some 1
    | .exception exc => m.retries < maxRetries ∨ exc = .maxRetriesExceeded
    | .handlerRaises => False
    | .maxRetriesTimeLimit landing =>
      m.retries < maxRetries
        ∨ landing = .beforeReturn ∨ landing = .beforeDispatch ∧ s.counter ≠ some 1
  | _ => True

def Event.DeliveredOnce (e : Event n) : Prop :=
  match e with
  | .ack _ _ => True
  | _ => False

structure Balanced (batchKey : String) (s : State n) : Prop extends Counted batchKey s where
  total : s.decremented.length + s.queue.length = n

namespace Balanced

variable {s : State n} {m : Message n}

theorem counterKey_ne (h : Balanced batchKey s) (hkey : batchKey ≠ "") (hm : m ∈ s.queue)
    : m.counterKey ≠ "" := by
  rw [h.key m hm]
  apply hkey

theorem counted_erase (h : Balanced batchKey s)
    : Counted batchKey
        { s with queue := s.queue.erase m, processed := insert m.sat s.processed } where
  key := fun m' hm' => h.key m' (List.mem_of_mem_erase hm')
  counter := h.counter
  dispatches := h.dispatches

theorem end_attempt (h : Balanced batchKey s) (hkey : batchKey ≠ "") (hm : m ∈ s.queue)
    : Balanced batchKey (propagateCounterDecr m
        { s with queue := s.queue.erase m, processed := insert m.sat s.processed }) := by
  have hmkey := h.counterKey_ne hkey hm
  refine { h.counted_erase.propagateCounterDecr hmkey with total := ?_ }
  rw [propagateCounterDecr_queue, propagateCounterDecr_decremented hmkey]
  have htotal := h.total
  have := List.length_pos_of_mem hm
  simp only [List.length_append, List.length_singleton, List.length_erase_of_mem hm]
  omega

theorem end_early (h : Balanced batchKey s) (hm : m ∈ s.queue) (hmore : s.counter ≠ some 1)
    : Balanced batchKey (decr m
        { s with queue := s.queue.erase m, processed := insert m.sat s.processed }) := by
  have htotal := h.total
  have hcounter := h.counter
  have hdispatches := h.dispatches
  have hpos := List.length_pos_of_mem hm
  have hmore' : s.decremented.length + 1 ≠ n := by
    intro heq
    apply hmore
    rw [hcounter]
    congr 1
    omega
  constructor
  . constructor
    . apply h.counted_erase.key
    . simp only [decr, hcounter, Option.getD_some, List.length_append, List.length_singleton]
      congr 1
      omega
    . simp only [decr, List.length_append, List.length_singleton]
      omega
  . simp only [decr, List.length_append, List.length_singleton, List.length_erase_of_mem hm]
    omega

theorem retry (h : Balanced batchKey s) (hm : m ∈ s.queue)
    : Balanced batchKey
        { s with queue := s.queue.erase m ++ [{ m with retries := m.retries + 1 }] } := by
  have htotal := h.total
  have hpos := List.length_pos_of_mem hm
  constructor
  . constructor
    . intro m' hm'
      rw [List.mem_append, List.mem_singleton] at hm'
      cases hm' with
      | inl hm' => apply h.key m' (List.mem_of_mem_erase hm')
      | inr heq =>
        rw [heq]
        apply h.key m hm
    . apply h.counter
    . apply h.dispatches
  . simp only [List.length_append, List.length_singleton, List.length_erase_of_mem hm]
    omega

theorem step {t : State n} {e : Event n} (h : Balanced batchKey s) (hkey : batchKey ≠ "")
    (hstep : Step s e t) (honce : e.DeliveredOnce) (hcount : CountsOnce s e)
    : Balanced batchKey t := by
  cases hstep with
  | @ack m outcome hm =>
    have hmkey := h.counterKey_ne hkey hm
    cases outcome with
    | success => apply h.end_attempt hkey hm
    | noStations => apply h.end_attempt hkey hm
    | softTimeLimit landing =>
      rcases hcount with rfl | ⟨rfl, hmore⟩
      . apply h.end_attempt hkey hm
      . simp only [detectPasses, exceptSoftTimeLimit, interrupted, hmkey, ↓reduceIte,
          Bool.false_eq_true]
        apply h.end_early hm hmore
    | exception exc =>
      simp only [CountsOnce] at hcount
      unfold detectPasses Batch.retry
      dsimp
      by_cases hretry : m.retries < maxRetries
      . simp only [hretry, ↓reduceIte]
        apply h.retry hm
      . have hexc := hcount.resolve_left hretry
        simp only [hretry, ↓reduceIte, hexc]
        apply h.end_attempt hkey hm
    | handlerRaises => exact absurd hcount id
    | maxRetriesTimeLimit landing =>
      simp only [CountsOnce] at hcount
      unfold detectPasses Batch.retry
      dsimp
      by_cases hretry : m.retries < maxRetries
      . simp only [hretry, ↓reduceIte]
        apply h.retry hm
      . simp only [hretry, ↓reduceIte]
        rcases hcount.resolve_left hretry with rfl | ⟨rfl, hmore⟩
        . apply h.end_attempt hkey hm
        . simp only [interrupted, hmkey, ↓reduceIte]
          apply h.end_early hm hmore
  | lostBeforeDecr => exact absurd honce id
  | lostBeforeDispatch => exact absurd honce id
  | lostBeforeAck => exact absurd honce id
  | expire => exact absurd honce id

end Balanced

def soleMessage (retries : Nat) : Message 1 :=
  { sat := 0, counterKey := "batch", retries }

def FirstCount (s : State n) (e : Event n) : Prop :=
  match e with
  | .ack m outcome | .lostBeforeAck m outcome =>
    outcome.decrements m.retries = 0
      ∨ outcome.decrements m.retries = 1 ∧ m.sat ∉ s.decremented ∧ s.counter ≠ none
  | .lostBeforeDispatch m => m.sat ∉ s.decremented ∧ s.counter ≠ none
  | .lostBeforeDecr _ | .expire => True

structure Safe (batchKey : String) (s : State n) : Prop where
  key : ∀ m ∈ s.queue, m.counterKey = batchKey
  nodup : s.decremented.Nodup
  processed : ∀ sat ∈ s.decremented, sat ∈ s.processed
  counter : s.counter = none ∨ s.counter = some (n - s.decremented.length : Int)
  once : s.dispatches.length ≤ 1
  complete : s.dispatches ≠ [] → n ≤ s.decremented.length
  all : ∀ d ∈ s.dispatches, d = Finset.univ

theorem length_le_of_nodup {sats : List (Fin n)} (h : sats.Nodup) : sats.length ≤ n := by
  have := h.length_le_card
  rwa [Fintype.card_fin] at this

theorem mem_of_nodup_of_length {sats : List (Fin n)} (h : sats.Nodup) (hlength : n ≤ sats.length)
    (sat : Fin n) : sat ∈ sats := by
  rw [← List.mem_toFinset]
  have hcard : sats.toFinset.card = Fintype.card (Fin n) := by
    rw [List.toFinset_card_of_nodup h, Fintype.card_fin]
    apply le_antisymm (length_le_of_nodup h) hlength
  rw [Finset.card_eq_iff_eq_univ] at hcard
  rw [hcard]
  apply Finset.mem_univ

theorem safe_propagateBatch (batchKey : String) : Safe batchKey (propagateBatch batchKey n) where
  key := counterKey_propagateBatch batchKey
  nodup := by simp [propagateBatch]
  processed := by simp [propagateBatch]
  counter := by simp [propagateBatch]
  once := by simp [propagateBatch]
  complete := by simp [propagateBatch]
  all := by simp [propagateBatch]

namespace Safe

variable {s : State n}

theorem process (h : Safe batchKey s) (sat : Fin n)
    : Safe batchKey { s with processed := insert sat s.processed } :=
  { h with
    processed := fun sat' hsat' => Finset.mem_insert_of_mem (h.processed sat' hsat') }

theorem queue (h : Safe batchKey s) {queue : List (Message n)}
    (hqueue : ∀ m ∈ queue, m.counterKey = batchKey) : Safe batchKey { s with queue } :=
  { h with key := hqueue }

theorem retried (h : Safe batchKey s) {m : Message n} (hm : m.counterKey = batchKey)
    : Safe batchKey { s with queue := s.queue ++ [{ m with retries := m.retries + 1 }] } := by
  apply h.queue
  intro m' hm'
  rw [List.mem_append, List.mem_singleton] at hm'
  cases hm' with
  | inl hm' => apply h.key m' hm'
  | inr heq =>
    rw [heq]
    apply hm

theorem decr (h : Safe batchKey s) {m : Message n} (hsat : m.sat ∈ s.processed)
    (hnew : m.sat ∉ s.decremented) (hcounter : s.counter ≠ none) : Safe batchKey (decr m s) where
  key := h.key
  nodup := by
    unfold Batch.decr
    rw [List.nodup_append]
    refine ⟨h.nodup, by simp, ?_⟩
    intro sat hsat' sat' hmem heq
    rw [List.mem_singleton] at hmem
    rw [heq, hmem] at hsat'
    apply hnew hsat'
  processed := by
    intro sat hmem
    unfold Batch.decr at hmem
    rw [List.mem_append, List.mem_singleton] at hmem
    cases hmem with
    | inl hmem => apply h.processed sat hmem
    | inr heq =>
      rw [heq]
      apply hsat
  counter := by
    apply Or.inr
    unfold Batch.decr
    rw [h.counter.resolve_left hcounter]
    simp only [Option.getD_some, List.length_append, List.length_singleton]
    congr 1
    omega
  once := h.once
  complete := by
    intro hne
    have := h.complete hne
    unfold Batch.decr
    rw [List.length_append]
    omega
  all := h.all

theorem propagateCounterDecr (h : Safe batchKey s) (hkey : batchKey ≠ "") {m : Message n}
    (hm : m.counterKey = batchKey) (hsat : m.sat ∈ s.processed) (hnew : m.sat ∉ s.decremented)
    (hcounter : s.counter ≠ none) : Safe batchKey (propagateCounterDecr m s) := by
  have hdecr := h.decr hsat hnew hcounter
  unfold Batch.propagateCounterDecr
  rw [hm, if_neg hkey]
  dsimp
  split
  . next hzero =>
    have hlength := length_le_of_nodup hdecr.nodup
    have hcount : (Batch.decr m s).counter = some (n - (Batch.decr m s).decremented.length : Int) := by
      apply hdecr.counter.resolve_left
      simp [Batch.decr]
    rw [hcount, Option.getD_some] at hzero
    have hfull : n ≤ (Batch.decr m s).decremented.length := by omega
    -- it has not been dispatched before: the satellite of `m` was missing
    have hfirst : s.dispatches = [] := by
      by_contra hne
      have := h.complete hne
      unfold Batch.decr at hlength
      rw [List.length_append, List.length_singleton] at hlength
      omega
    exact { hdecr with
      once := by simp [delayGreedy, Batch.decr, hfirst]
      complete := fun _ => hfull
      all := by
        intro d hd
        simp only [delayGreedy, Batch.decr, hfirst, List.nil_append, List.mem_singleton] at hd
        rw [hd, Finset.eq_univ_iff_forall]
        intro sat
        apply hdecr.processed sat
        apply mem_of_nodup_of_length hdecr.nodup hfull }
  . apply hdecr

theorem detectPasses (h : Safe batchKey s) (hkey : batchKey ≠ "") {m : Message n}
    (hm : m.counterKey = batchKey) {outcome : Outcome}
    (hfirst : outcome.decrements m.retries = 0
      ∨ outcome.decrements m.retries = 1 ∧ m.sat ∉ s.decremented ∧ s.counter ≠ none)
    : Safe batchKey (detectPasses m outcome s) := by
  have hended := h.process m.sat
  have hsat : m.sat ∈ insert m.sat s.processed := Finset.mem_insert_self _ _
  have hnew : outcome.decrements m.retries ≠ 0 → m.sat ∉ s.decremented ∧ s.counter ≠ none :=
    fun hne => (hfirst.resolve_left hne).right
  have hcount : outcome.decrements m.retries ≠ 0
      → Safe batchKey (Batch.propagateCounterDecr m { s with processed := insert m.sat s.processed }) :=
    fun hne => hended.propagateCounterDecr hkey hm hsat (hnew hne).left (hnew hne).right
  unfold Batch.detectPasses
  cases outcome with
  | success => apply hcount one_ne_zero
  | noStations => apply hcount one_ne_zero
  | softTimeLimit landing =>
    have hnokey : m.counterKey ≠ "" := by
      rw [hm]
      apply hkey
    unfold exceptSoftTimeLimit interrupted
    cases landing with
    | beforeCall => apply hcount one_ne_zero
    | beforeDecr =>
      simp only [hnokey, decide_false, Bool.false_eq_true, ↓reduceIte]
      apply hended
    | beforeDispatch =>
      simp only [hnokey, Bool.false_eq_true, ↓reduceIte]
      apply hended.decr hsat (hnew one_ne_zero).left (hnew one_ne_zero).right
    | beforeReturn => simp [Outcome.decrements] at hfirst
  | exception exc =>
    unfold retry
    dsimp
    by_cases hretry : m.retries < maxRetries
    . simp only [hretry, ↓reduceIte]
      apply h.retried hm
    . simp only [hretry, ↓reduceIte]
      cases exc with
      | maxRetriesExceeded =>
        apply hcount
        simp [Outcome.decrements, hretry]
      | other => apply hended
  | handlerRaises => apply hended
  | maxRetriesTimeLimit landing =>
    unfold retry
    dsimp
    by_cases hretry : m.retries < maxRetries
    . simp only [hretry, ↓reduceIte]
      apply h.retried hm
    . have hdecrements : (Outcome.maxRetriesTimeLimit landing).decrements m.retries
          = landing.decrements := by
        simp [Outcome.decrements, hretry]
      have hnokey : m.counterKey ≠ "" := by
        rw [hm]
        apply hkey
      rw [hdecrements] at hcount hnew
      simp only [hretry, ↓reduceIte]
      unfold interrupted
      cases landing with
      | beforeCall => apply hended
      | beforeDecr => apply hended
      | beforeDispatch =>
        simp only [hnokey, ↓reduceIte]
        apply hended.decr hsat (hnew one_ne_zero).left (hnew one_ne_zero).right
      | beforeReturn => apply hcount one_ne_zero

theorem step (h : Safe batchKey s) (hkey : batchKey ≠ "") {e : Event n} {t : State n}
    (hstep : Step s e t) (hfirst : FirstCount s e) : Safe batchKey t := by
  cases hstep with
  | @ack m outcome hm =>
    have herase : ∀ m' ∈ s.queue.erase m, m'.counterKey = batchKey :=
      fun m' hm' => h.key m' (List.mem_of_mem_erase hm')
    apply (h.queue herase).detectPasses hkey (h.key m hm) hfirst
  | lostBeforeDecr => apply h
  | @lostBeforeDispatch m hm _ =>
    apply (h.process m.sat).decr (Finset.mem_insert_self _ _) hfirst.left hfirst.right
  | @lostBeforeAck m outcome hm => apply h.detectPasses hkey (h.key m hm) hfirst
  | expire => exact { h with counter := Or.inl rfl }

end Safe

end Batch
end SdaSystem
