import Mathlib.Algebra.Order.Monoid.Defs
import Mathlib.Logic.Function.Basic

/-!
A cache whose entries live for some time from when they are put in. A read finds only what was put in
no longer ago than that, so what held of an entry when it was put in is a bound on how stale it is.
-/

structure TtlEntry (ν τ : Type) where
  value : ν
  expiresAt : τ

abbrev TtlCache (κ ν τ : Type) := κ → Option (TtlEntry ν τ)

namespace TtlCache

variable {κ ν τ : Type}

section

variable [DecidableEq κ]

def setex [Add τ] (c : TtlCache κ ν τ) (now ttl : τ) (key : κ) (value : ν) : TtlCache κ ν τ :=
  Function.update c key (some { value, expiresAt := now + ttl })

def evict (c : TtlCache κ ν τ) (key : κ) : TtlCache κ ν τ :=
  Function.update c key none

variable {c : TtlCache κ ν τ} {key key' : κ} {entry : TtlEntry ν τ}

theorem setex_eq_some [Add τ] {now ttl : τ} {value : ν}
    (h : c.setex now ttl key value key' = some entry)
    : key' = key ∧ entry = { value, expiresAt := now + ttl } ∨ c key' = some entry := by
  unfold setex at h
  by_cases heq : key' = key
  . rw [heq, Function.update_self, Option.some.injEq] at h
    exact .inl ⟨heq, h.symm⟩
  . rw [Function.update_of_ne heq] at h
    exact .inr h

theorem evict_eq_some (h : c.evict key key' = some entry) : c key' = some entry := by
  unfold evict at h
  by_cases heq : key' = key
  . rw [heq, Function.update_self] at h
    cases h
  . rwa [Function.update_of_ne heq] at h

end

variable [LinearOrder τ]

def get (c : TtlCache κ ν τ) (now : τ) (key : κ) : Option ν :=
  (c key).bind fun entry => if now ≤ entry.expiresAt then some entry.value else none

theorem get_eq_some {c : TtlCache κ ν τ} {now : τ} {key : κ} {value : ν}
    : c.get now key = some value
        ↔
      ∃ entry, c key = some entry ∧ now ≤ entry.expiresAt ∧ entry.value = value := by
  unfold get
  rw [Option.bind_eq_some_iff]
  constructor
  . rintro ⟨entry, hentry, hvalue⟩
    split at hvalue
    . next hle =>
      rw [Option.some.injEq] at hvalue
      exact ⟨entry, hentry, hle, hvalue⟩
    . cases hvalue
  . rintro ⟨entry, hentry, hle, hvalue⟩
    refine ⟨entry, hentry, ?_⟩
    rw [if_pos hle, hvalue]

section

variable {c : TtlCache κ ν τ} {now later : τ} {key key' : κ} {value value' : ν}

theorem get_of_le (hle : now ≤ later) (h : c.get later key = some value) : c.get now key = some value := by
  obtain ⟨entry, hentry, hfresh, hvalue⟩ := get_eq_some.mp h
  exact get_eq_some.mpr ⟨entry, hentry, le_trans hle hfresh, hvalue⟩

variable [DecidableEq κ]

theorem get_setex [Add τ] {ttl : τ} (h : (c.setex now ttl key value).get later key' = some value')
    : key' = key ∧ value' = value ∨ c.get later key' = some value' := by
  obtain ⟨entry, hentry, hfresh, rfl⟩ := get_eq_some.mp h
  cases setex_eq_some hentry with
  | inl hnew =>
    obtain ⟨hkey, rfl⟩ := hnew
    exact .inl ⟨hkey, rfl⟩
  | inr hold => exact .inr (get_eq_some.mpr ⟨entry, hold, hfresh, rfl⟩)

theorem get_evict (h : (c.evict key).get now key' = some value) : c.get now key' = some value := by
  obtain ⟨entry, hentry, hrest⟩ := get_eq_some.mp h
  exact get_eq_some.mpr ⟨entry, evict_eq_some hentry, hrest⟩

end

variable [Add τ]

/-- Each entry was put in at a moment at which `P` held of it. -/
def Backed (P : κ → ν → τ → Prop) (ttl : ν → τ) (now : τ) (c : TtlCache κ ν τ) : Prop :=
  ∀ key entry, c key = some entry → ∃ putAt, putAt ≤ now
    ∧ entry.expiresAt = putAt + ttl entry.value ∧ P key entry.value putAt

variable {P Q : κ → ν → τ → Prop} {ttl : ν → τ} {now later : τ} {c : TtlCache κ ν τ} {key : κ}
  {value : ν}

theorem Backed.mono (h : Backed P ttl now c)
    (himp : ∀ key value putAt, P key value putAt → Q key value putAt) (hle : now ≤ later)
    : Backed Q ttl later c := by
  intro key entry hentry
  obtain ⟨putAt, hpast, hexpires, hP⟩ := h key entry hentry
  exact ⟨putAt, le_trans hpast hle, hexpires, himp _ _ _ hP⟩

theorem Backed.setex [DecidableEq κ] (h : Backed P ttl now c) (hP : P key value now)
    : Backed P ttl now (c.setex now (ttl value) key value) := by
  intro key' entry hentry
  cases setex_eq_some hentry with
  | inl hnew =>
    obtain ⟨rfl, rfl⟩ := hnew
    exact ⟨now, le_refl now, rfl, hP⟩
  | inr hold => apply h key' entry hold

theorem Backed.evict [DecidableEq κ] (h : Backed P ttl now c) : Backed P ttl now (c.evict key) := by
  intro key' entry hentry
  apply h key' entry (evict_eq_some hentry)

theorem Backed.get (h : Backed P ttl now c) (hget : c.get now key = some value)
    : ∃ putAt, putAt ≤ now ∧ now ≤ putAt + ttl value ∧ P key value putAt := by
  obtain ⟨entry, hentry, hle, rfl⟩ := get_eq_some.mp hget
  obtain ⟨putAt, hpast, hexpires, hP⟩ := h key entry hentry
  exact ⟨putAt, hpast, hexpires ▸ hle, hP⟩

end TtlCache
