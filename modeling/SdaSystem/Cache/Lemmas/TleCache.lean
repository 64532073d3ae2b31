import SdaSystem.Cache.Impl.TleCache

open Gregorian
open Runs

namespace SdaSystem
namespace RedisCache

open PyNumber (str zeroPad str_inj zeroPad_inj length_zeroPad)

/-- The two clocks show the same second, whatever their offsets are. -/
def Epoch.SameSecond (e e' : Epoch) : Prop :=
  e.date = e'.date ∧ e.hour = e'.hour ∧ e.minute = e'.minute ∧ e.second = e'.second

instance (e e' : Epoch) : Decidable (e.SameSecond e') :=
  inferInstanceAs (Decidable (_ ∧ _ ∧ _ ∧ _))

theorem zeroPad_append_inj {width m n : Nat} {xs ys : List Char}
    (h : zeroPad width m ++ xs = zeroPad width n ++ ys)
    : zeroPad width m = zeroPad width n ∧ xs = ys :=
  List.append_inj h (by rw [length_zeroPad, length_zeroPad])

theorem two_digits {m n : Nat} (hm : m < 100) (hn : n < 100) (h : zeroPad 2 m = zeroPad 2 n)
    : m = n :=
  zeroPad_inj (by omega) (by omega) h

theorem strftime_eq_iff {e e' : Epoch} : e.strftime = e'.strftime ↔ e.SameSecond e' := by
  constructor
  . intro h
    obtain ⟨hyear, h⟩ := zeroPad_append_inj h
    obtain ⟨hmonth, h⟩ := zeroPad_append_inj h
    obtain ⟨hday, h⟩ := zeroPad_append_inj h
    obtain ⟨hhour, h⟩ := zeroPad_append_inj (List.cons_inj_right _ |>.mp h)
    obtain ⟨hminute, hsecond⟩ := zeroPad_append_inj h
    have hmonthLt : ∀ d : Date, d.month < 100 := fun d => by
      have := d.monthLe
      omega
    have hdayLt : ∀ d : Date, d.day < 100 := fun d => by
      have := d.dayLe
      have := daysInMonth_le d.year d.month
      omega
    refine ⟨Date.ext_iff_fields.mpr ⟨?_, ?_, ?_⟩, ?_, ?_, ?_⟩
    . exact zeroPad_inj (Nat.lt_succ_of_le e.yearLe) (Nat.lt_succ_of_le e'.yearLe) hyear
    . exact two_digits (hmonthLt e.date) (hmonthLt e'.date) hmonth
    . exact two_digits (hdayLt e.date) (hdayLt e'.date) hday
    . have := e.hourLt
      have := e'.hourLt
      exact two_digits (by omega) (by omega) hhour
    . have := e.minuteLt
      have := e'.minuteLt
      exact two_digits (by omega) (by omega) hminute
    . have := e.secondLt
      have := e'.secondLt
      exact two_digits (by omega) (by omega) hsecond
  . rintro ⟨hdate, hhour, hminute, hsecond⟩
    unfold Epoch.strftime
    rw [hdate, hhour, hminute, hsecond]

theorem length_strftime (e : Epoch) : e.strftime.length = 15 := by
  simp [Epoch.strftime]

theorem tleKey_eq_iff {keyPrefix : List Char} {n n' : Int} {e e' : Epoch}
    : tleKey keyPrefix n e = tleKey keyPrefix n' e' ↔ n = n' ∧ e.SameSecond e' := by
  rw [← strftime_eq_iff]
  constructor
  . intro h
    have h := List.append_cancel_left h
    simp only [List.flatMap_cons, List.flatMap_nil, List.append_nil, List.cons_append,
      List.nil_append, List.cons.injEq, true_and] at h
    -- the texts of the epochs are as long as each other, so the colons before them agree
    obtain ⟨hid, htime⟩ := List.append_inj' h (by simp [length_strftime])
    exact ⟨str_inj hid, List.cons_inj_right _ |>.mp htime⟩
  . rintro ⟨rfl, h⟩
    unfold tleKey
    rw [h]

variable {V I : Type}

def Codec.image (codec : Codec V I) (v : V) : Option I :=
  (codec.dumps v).bind codec.loads

def lastSet (p : Int → Epoch → Bool) (events : List (CacheEvent V I)) : Option V :=
  events.foldl (fun last event =>
    match event with
    | .set n e v true => if p n e then some v else last
    | _ => last) none

/-- Every answer is the image of what was set last for the satellite and the instant. -/
def ActsAsMap (codec : Codec V I) (events : List (CacheEvent V I)) : Prop :=
  ∀ before n e image after, events = before ++ .get n e (some image) :: after →
    ∃ v, lastSet (fun n' e' => n' = n ∧ e'.instant = e.instant) before = some v
      ∧ codec.image v = some image

def CacheEvent.args? (event : CacheEvent V I) : Option (Int × Epoch) :=
  match event with
  | .set n e _ _ => some (n, e)
  | .get n e _ => some (n, e)
  | _ => none

/-- Among the calls for a satellite, clocks that show the same second show the same instant. -/
def SecondsTell (events : List (CacheEvent V I)) : Prop :=
  ∀ event ∈ events, ∀ event' ∈ events, ∀ n e e', event.args? = some (n, e) →
    event'.args? = some (n, e') → (e.SameSecond e' ↔ e.instant = e'.instant)

def Answered (events : List (CacheEvent V I)) : Prop :=
  ∀ event ∈ events, ∀ key payload, event ≠ .land key payload

/-- What is under a key was put there by the last successful `set_tle` for that key. -/
def StoreOk (codec : Codec V I) (keyPrefix : List Char) (before : List (CacheEvent V I)) (c : Cache)
    : Prop :=
  ∀ key payload, c.store key = some payload →
    ∃ v, lastSet (fun n e => tleKey keyPrefix n e = key) before = some v
      ∧ codec.dumps v = some payload

theorem lastSet_append (p : Int → Epoch → Bool) (before : List (CacheEvent V I))
    (event : CacheEvent V I)
    : lastSet p (before ++ [event])
        =
      match event with
      | .set n e v true => if p n e then some v else lastSet p before
      | _ => lastSet p before := by
  unfold lastSet
  rw [List.foldl_append]
  rfl

theorem lastSet_congr {p q : Int → Epoch → Bool} {events : List (CacheEvent V I)}
    (h : ∀ event ∈ events, ∀ n e, event.args? = some (n, e) → p n e = q n e)
    : lastSet p events = lastSet q events := by
  induction events using List.reverseRecOn with
  | nil => rfl
  | append_singleton events event ih =>
    have hevents := ih fun event' hmem => h event' (List.mem_append_left _ hmem)
    rw [lastSet_append, lastSet_append, hevents]
    split
    . next n e v =>
      rw [h _ (List.mem_append_right _ List.mem_cons_self) n e rfl]
    . rfl

section

variable {codec : Codec V I} {keyPrefix : List Char} {before : List (CacheEvent V I)} {c c' : Cache}

theorem StoreOk.forget {event : CacheEvent V I} (h : StoreOk codec keyPrefix before c)
    (hevent : ∀ p, lastSet p (before ++ [event]) = lastSet p before)
    (hstore : ∀ key payload, c'.store key = some payload → c.store key = some payload)
    : StoreOk codec keyPrefix (before ++ [event]) c' := by
  intro key payload hkey
  rw [hevent]
  exact h key payload (hstore key payload hkey)

theorem update_none_eq_some {store : List Char → Option (List Char)} {key key' payload : List Char}
    (h : Function.update store key none key' = some payload) : store key' = some payload := by
  by_cases heq : key' = key
  . rw [heq, Function.update_self] at h
    cases h
  . rwa [Function.update_of_ne heq] at h

theorem StoreOk.setTle {n : Int} {e : Epoch} {v : V} {lost : Nat} {answered : Bool}
    (h : StoreOk codec keyPrefix before c)
    : StoreOk codec keyPrefix
        (before ++ [.set n e v (setTle codec keyPrefix c n e v lost answered).2])
        (setTle codec keyPrefix c n e v lost answered).1 := by
  unfold RedisCache.setTle
  dsimp only
  cases hdumps : codec.dumps v with
  | none => exact h.forget (fun p => lastSet_append p _ _) fun _ _ => id
  | some payload =>
    cases answered with
    | false => exact h.forget (fun p => lastSet_append p _ _) fun _ _ => id
    | true =>
      intro key payload' hkey
      simp only [if_true] at hkey ⊢
      rw [lastSet_append]
      dsimp only
      by_cases heq : tleKey keyPrefix n e = key
      . subst heq
        rw [Function.update_self] at hkey
        simp only [decide_true, if_true]
        exact ⟨v, rfl, hdumps.trans hkey⟩
      . rw [Function.update_of_ne (Ne.symm heq)] at hkey
        simp only [heq, decide_false, Bool.false_eq_true, if_false]
        exact h key payload' hkey

theorem getTle_store {n : Int} {e : Epoch} {answered deleted : Bool} {key payload : List Char}
    (h : (getTle codec keyPrefix c n e answered deleted).1.store key = some payload)
    : c.store key = some payload := by
  unfold getTle at h
  dsimp only at h
  split at h
  . exact h
  . split at h
    . exact h
    . split at h
      . exact h
      . dsimp only at h
        split at h
        . exact update_none_eq_some h
        . exact h

theorem getTle_eq_some {n : Int} {e : Epoch} {answered deleted : Bool} {image : I}
    (h : (getTle codec keyPrefix c n e answered deleted).2 = some image)
    : ∃ raw, c.store (tleKey keyPrefix n e) = some raw ∧ codec.loads raw = some image := by
  unfold getTle at h
  dsimp only at h
  split at h
  . cases h
  . split at h
    . cases h
    . next raw hraw =>
      split at h
      . next image' hloads =>
        cases h
        exact ⟨raw, hraw, hloads⟩
      . cases h

theorem StoreOk.step {event : CacheEvent V I} (h : StoreOk codec keyPrefix before c)
    (hstep : CacheStep codec keyPrefix c event c') (hland : ∀ key payload, event ≠ .land key payload)
    : StoreOk codec keyPrefix (before ++ [event]) c' := by
  cases hstep with
  | set n e v lost answered => exact h.setTle
  | get n e answered deleted =>
    exact h.forget (fun p => lastSet_append p _ _) fun _ _ => getTle_store
  | expire key =>
    exact h.forget (fun p => lastSet_append p _ _) fun _ _ => update_none_eq_some
  | land key payload => exact absurd rfl (hland key payload)

theorem getTle_right {n : Int} {e : Epoch} {answered deleted : Bool} {image : I}
    (h : StoreOk codec keyPrefix before c)
    (htell : ∀ event ∈ before, ∀ n' e', event.args? = some (n', e') → n' = n →
      (e'.SameSecond e ↔ e'.instant = e.instant))
    (hget : (getTle codec keyPrefix c n e answered deleted).2 = some image)
    : ∃ v, lastSet (fun n' e' => n' = n ∧ e'.instant = e.instant) before = some v
        ∧ codec.image v = some image := by
  obtain ⟨raw, hraw, hloads⟩ := getTle_eq_some hget
  obtain ⟨v, hlast, hdumps⟩ := h _ raw hraw
  refine ⟨v, ?_, ?_⟩
  . rw [← hlast]
    apply lastSet_congr
    intro event hevent n' e' hargs
    rw [Bool.eq_iff_iff, decide_eq_true_iff, decide_eq_true_iff, tleKey_eq_iff]
    apply and_congr_right
    intro hn
    exact (htell event hevent n' e' hargs hn).symm
  . unfold Codec.image
    rw [hdumps]
    exact hloads

theorem storeOk_of_run {events : List (CacheEvent V I)}
    (h : Run (CacheStep codec keyPrefix) {} events c) (hanswered : Answered events)
    : StoreOk codec keyPrefix events c := by
  have hempty : StoreOk codec keyPrefix [] {} := by
    intro key payload hkey
    cases hkey
  exact h.invariant_events (fun _ _ _ _ hland hok hstep => hok.step hstep hland) hanswered hempty

theorem actsAsMap_of_run {events : List (CacheEvent V I)}
    (h : Run (CacheStep codec keyPrefix) {} events c) (htell : SecondsTell events)
    (hanswered : Answered events) : ActsAsMap codec events := by
  intro before n e image after hevents
  subst hevents
  obtain ⟨c', c'', hbefore, hstep, _⟩ := h.split
  have hok := storeOk_of_run hbefore fun event hevent =>
    hanswered event (List.mem_append_left _ hevent)
  generalize hresult : some image = result at hstep
  cases hstep with
  | get n e answered deleted =>
    rw [← hresult]
    apply getTle_right hok _ hresult.symm
    intro event hevent n' e' hargs hn
    subst hn
    apply htell event (List.mem_append_left _ hevent) _ (List.mem_append_right _ List.mem_cons_self)
      n' e' e hargs rfl

theorem step_set {n : Int} {e : Epoch} {v : V} {payload : List Char}
    (h : codec.dumps v = some payload)
    : CacheStep codec keyPrefix c (.set n e v true)
        { c with store := Function.update c.store (tleKey keyPrefix n e) (some payload) } := by
  have hset : setTle codec keyPrefix c n e v 0 true
      = ({ c with store := Function.update c.store (tleKey keyPrefix n e) (some payload) }, true) := by
    unfold setTle
    dsimp only
    rw [h]
    simp
  have := @CacheStep.set V I codec keyPrefix c n e v 0 true
  rwa [hset] at this

theorem step_get {n : Int} {e : Epoch} {raw : List Char} {image : I}
    (h : c.store (tleKey keyPrefix n e) = some raw) (hloads : codec.loads raw = some image)
    : CacheStep codec keyPrefix c (.get n e (some image)) { c with hits := c.hits + 1 } := by
  have hget : getTle codec keyPrefix c n e true false
      = ({ c with hits := c.hits + 1 }, some image) := by
    unfold getTle
    dsimp only
    rw [if_neg (by simp), h]
    dsimp only
    rw [hloads]
  have := @CacheStep.get V I codec keyPrefix c n e true false
  rwa [hget] at this

theorem image_eq_some {v : V} {image : I} (h : codec.image v = some image)
    : ∃ payload, codec.dumps v = some payload ∧ codec.loads payload = some image :=
  Option.bind_eq_some_iff.mp h

theorem exists_run_of_sameSecond (n : Int) {e e' : Epoch} {v : V} {image : I}
    (himage : codec.image v = some image) (hsecond : e.SameSecond e')
    (hinstant : e.instant ≠ e'.instant)
    : ∃ c, Run (CacheStep codec keyPrefix) {} [.set n e v true, .get n e' (some image)] c
        ∧ ¬ ActsAsMap codec [.set n e v true, .get n e' (some image)] := by
  obtain ⟨payload, hdumps, hloads⟩ := image_eq_some himage
  have hkey : tleKey keyPrefix n e' = tleKey keyPrefix n e :=
    (tleKey_eq_iff.mpr ⟨rfl, hsecond⟩).symm
  refine ⟨_, Run.cons (step_set hdumps) (Run.cons (step_get ?_ hloads) (Run.nil _)), ?_⟩
  . rw [hkey]
    exact Function.update_self _ _ _
  . intro hmap
    obtain ⟨w, hlast, _⟩ := hmap [.set n e v true] n e' image [] rfl
    simp [lastSet, hinstant] at hlast

theorem exists_run_of_not_sameSecond (n : Int) {e e' : Epoch} {v w : V} {image : I}
    (himage : codec.image v = some image) (hsome : (codec.image w).isSome)
    (hne : codec.image w ≠ some image) (hsecond : ¬ e.SameSecond e')
    (hinstant : e.instant = e'.instant)
    : ∃ c, Run (CacheStep codec keyPrefix) {}
          [.set n e v true, .set n e' w true, .get n e (some image)] c
        ∧ ¬ ActsAsMap codec [.set n e v true, .set n e' w true, .get n e (some image)] := by
  obtain ⟨payload, hdumps, hloads⟩ := image_eq_some himage
  obtain ⟨image', himage'⟩ := Option.isSome_iff_exists.mp hsome
  obtain ⟨payload', hdumps', _⟩ := image_eq_some himage'
  have hkey : tleKey keyPrefix n e ≠ tleKey keyPrefix n e' :=
    fun heq => hsecond (tleKey_eq_iff.mp heq).right
  refine ⟨_, Run.cons (step_set hdumps) (Run.cons (step_set hdumps')
    (Run.cons (step_get ?_ hloads) (Run.nil _))), ?_⟩
  . dsimp only
    rw [Function.update_of_ne hkey, Function.update_self]
  . intro hmap
    obtain ⟨w', hlast, himage''⟩ := hmap [.set n e v true, .set n e' w true] n e image [] rfl
    simp only [lastSet, List.foldl_cons, List.foldl_nil, hinstant, decide_true, if_true, and_self,
      Option.some.injEq] at hlast
    rw [hlast] at hne
    exact hne himage''

theorem step_set_lost {n : Int} {e : Epoch} {v : V} {payload : List Char}
    (h : codec.dumps v = some payload)
    : CacheStep codec keyPrefix c (.set n e v false)
        { c with unanswered := c.unanswered ++ [(tleKey keyPrefix n e, payload)] } := by
  have hset : setTle codec keyPrefix c n e v 1 false
      = ({ c with unanswered := c.unanswered ++ [(tleKey keyPrefix n e, payload)] }, false) := by
    unfold setTle
    dsimp only
    rw [h]
    simp
  have := @CacheStep.set V I codec keyPrefix c n e v 1 false
  rwa [hset] at this

theorem exists_run_of_land (n : Int) (e : Epoch) {v : V} {image : I}
    (himage : codec.image v = some image)
    : ∃ payload c, Run (CacheStep codec keyPrefix) {}
          [.set n e v false, .land (tleKey keyPrefix n e) payload, .get n e (some image)] c
        ∧ ¬ ActsAsMap codec
            [.set n e v false, .land (tleKey keyPrefix n e) payload, .get n e (some image)] := by
  obtain ⟨payload, hdumps, hloads⟩ := image_eq_some himage
  refine ⟨payload, _, Run.cons (step_set_lost hdumps) (Run.cons (CacheStep.land _ _ _ (by simp))
    (Run.cons (step_get ?_ hloads) (Run.nil _))), ?_⟩
  . exact Function.update_self _ _ _
  . intro hmap
    obtain ⟨w, hlast, _⟩ := hmap [.set n e v false, .land (tleKey keyPrefix n e) payload] n e image
      [] rfl
    simp [lastSet] at hlast

end

def june (microsecond : Nat) (h : microsecond < 1000000) : Epoch where
  date := {
    year := 2024
    month := 6
    day := 15
    yearPos := by decide
    monthPos := by decide
    monthLe := by decide
    dayPos := by decide
    dayLe := by decide
  }
  hour := 18
  minute := 30
  second := 15
  microsecond
  utcoffset := 0
  yearLe := by decide
  hourLt := by decide
  minuteLt := by decide
  secondLt := by decide
  microsecondLt := h
  utcoffsetLt := by decide

def lineJson : Codec (List Char) (List Char) where
  dumps line := some ("\x7b\"line1\": \"".toList ++ line ++ "\"\x7d".toList)
  loads text :=
    if "\x7b\"line1\": \"".toList <+: text ∧ "\"\x7d".toList <:+ text then
      some (text.drop 11).dropLast.dropLast
    else
      none

def juneEvents : List (CacheEvent (List Char) (List Char)) := [
  .set 25544 (june 0 (by decide)) ['1'] true,
  .set 20580 (june 0 (by decide)) ['2'] true,
  .get 25544 (june 0 (by decide)) (some ['1'])
]

theorem actsAsMap_of_run_june : ActsAsMap lineJson juneEvents := by
  have hkey : tleKey ['s', 'd', 'a'] 25544 (june 0 (by decide))
      ≠ tleKey ['s', 'd', 'a'] 20580 (june 0 (by decide)) := by
    decide
  have hargs : ∀ event ∈ juneEvents, ∀ n e, event.args? = some (n, e)
      → e = june 0 (by decide) := by
    simp [juneEvents, CacheEvent.args?]
  apply @actsAsMap_of_run _ _ lineJson ['s', 'd', 'a']
  . apply Run.cons (step_set rfl) (Run.cons (step_set rfl) (Run.cons (step_get _ _) (Run.nil _)))
    . exact "\x7b\"line1\": \"1\"\x7d".toList
    . dsimp only
      rw [Function.update_of_ne hkey, Function.update_self]
      rfl
    . decide
  . intro event hevent event' hevent' n e e' he he'
    rw [hargs event hevent n e he, hargs event' hevent' n e' he']
    simp [Epoch.SameSecond]
  . simp [Answered, juneEvents]

theorem tleCache_not_map
    : ¬ ∀ (V I : Type) (codec : Codec V I) (keyPrefix : List Char) (events : List (CacheEvent V I))
        (c : Cache), Run (CacheStep codec keyPrefix) {} events c → ActsAsMap codec events := by
  intro hall
  obtain ⟨c, hrun, hnot⟩ := @exists_run_of_sameSecond _ _ lineJson ['s', 'd', 'a'] 25544
    (june 0 (by decide)) (june 250000 (by decide)) ['1'] ['1'] (by decide) (by decide) (by decide)
  exact hnot (hall _ _ lineJson _ _ c hrun)

end RedisCache
end SdaSystem
