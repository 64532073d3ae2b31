import SdaSystem.Ingestion.Impl.Sources
import SdaSystem.Ingestion.Lemmas.Fetcher

namespace SdaSystem
namespace TLEFetcher

def Response.read (resp : Response) : Except ReadError (List Char) :=
  if resp.status = 200 ∧ ¬ isHtml resp.contentType then resp.utf8Text else resp.text

def Temporary (outcome : HttpOutcome) : Prop :=
  (∃ error, outcome = .error error)
    ∨
  ∃ resp, outcome = .ok resp ∧ ((∃ error, resp.read = .error (.network error))
    ∨ (resp.status ∈ transientStatuses ∧ ∃ text, resp.read = .ok text))

def Undecodable (outcome : HttpOutcome) : Prop :=
  ∃ resp, outcome = .ok resp ∧ resp.read = .error .unicodeDecode

def Carries (text : List Char) (outcome : HttpOutcome) : Prop :=
  ∃ resp, outcome = .ok resp ∧ resp.status = 200 ∧ ¬ isHtml resp.contentType
    ∧ resp.utf8Text = .ok text ∧ text ≠ [] ∧ strip text ≠ []

def Reaches (P : HttpOutcome → Prop) (first : Nat) (outcomes : Nat → HttpOutcome) : Prop :=
  ∃ k, first ≤ k ∧ k ≤ httpMaxRetries ∧ (∀ j, first ≤ j → j < k → Temporary (outcomes j))
    ∧ P (outcomes k)

def ReachesUndecodable : (Nat → HttpOutcome) → Prop :=
  Reaches Undecodable 1

def Offers (text : List Char) : (Nat → HttpOutcome) → Prop :=
  Reaches (Carries text) 1

def FirstOffer (sources : Sources) (text : List Char) : Prop :=
  ∃ before url after, sources.urls = before ++ url :: after ∧ Offers text url
    ∧ ∀ url ∈ before, ∀ text, ¬ Offers text url

def IngestionRaises (refused : TLE → Bool) (validator : TLEValidator) (db : List TLE)
    (text : List Char) : Prop :=
  ∃ before after s, triplets (splitlines text) = before ++ after
    ∧ loop refused validator (prefetch db) before = .ok s
    ∧ match after with
      | [] => flushBatch refused s = none
      | t :: _ =>
        parseTriplet validator t = none
          ∨ ∃ e, parseTriplet validator t = some (.entry e)
            ∧ batchSize ≤ (store s e).batchPending ∧ flushBatch refused (store s e) = none

theorem handle_eq (attempt : Nat) (resp : Response)
    : handle attempt (.ok resp)
        =
      match resp.read with
      | .error error => onReadError attempt error
      | .ok text =>
        if resp.status = 200 then
          if isHtml resp.contentType ∨ text = [] ∨ strip text = [] then
            .stop (.ok none)
          else
            .stop (.ok (some text))
        else if resp.status ∈ transientStatuses ∧ attempt < httpMaxRetries then
          .retry (2 ^ attempt)
        else
          .stop (.ok none) := by
  unfold handle Response.read
  dsimp only
  by_cases hstatus : resp.status = 200
  . by_cases hhtml : isHtml resp.contentType = true
    . cases resp.text with
      | error error => simp [hstatus, hhtml]
      | ok text => simp [hstatus, hhtml]
    . cases resp.utf8Text with
      | error error => simp [hstatus, hhtml]
      | ok text => simp [hstatus, hhtml]
  . cases resp.text with
    | error error => simp [hstatus]
    | ok text => simp [hstatus]

theorem handle_undecodable {outcome : HttpOutcome} (h : Undecodable outcome) (attempt : Nat)
    : handle attempt outcome = .stop (.error .unicodeDecode) := by
  obtain ⟨resp, rfl, hread⟩ := h
  rw [handle_eq, hread]
  rfl

theorem handle_temporary {outcome : HttpOutcome} (h : Temporary outcome) (attempt : Nat)
    : handle attempt outcome = onNetworkError attempt := by
  rcases h with ⟨error, rfl⟩ | ⟨resp, rfl, ⟨error, hread⟩ | ⟨hstatus, text, hread⟩⟩
  . rfl
  . rw [handle_eq, hread]
    rfl
  . have hok : ¬ resp.status = 200 := by
      intro heq
      rw [heq] at hstatus
      exact absurd hstatus (by decide)
    rw [handle_eq, hread]
    simp only [hok, hstatus, if_false, true_and]
    rfl

theorem temporary_of_retry {outcome : HttpOutcome} {attempt wait : Nat}
    (h : handle attempt outcome = .retry wait) : Temporary outcome := by
  cases outcome with
  | error error => exact .inl ⟨error, rfl⟩
  | ok resp =>
    rw [handle_eq] at h
    apply Or.inr
    refine ⟨resp, rfl, ?_⟩
    match hread : resp.read with
    | .error (.network error) => exact .inl ⟨error, rfl⟩
    | .error .unicodeDecode =>
      rw [hread] at h
      cases h
    | .ok text =>
      rw [hread] at h
      dsimp only at h
      split at h
      . split at h <;> cases h
      . split at h
        . next hretry => exact .inr ⟨hretry.left, text, rfl⟩
        . cases h

theorem undecodable_of_stop {outcome : HttpOutcome} {attempt : Nat} {error : ReadError}
    (h : handle attempt outcome = .stop (.error error))
    : error = .unicodeDecode ∧ Undecodable outcome := by
  have hnetwork : onNetworkError attempt ≠ .stop (.error error) := by
    unfold onNetworkError
    split <;> simp
  cases outcome with
  | error error' => exact absurd h hnetwork
  | ok resp =>
    rw [handle_eq] at h
    match hread : resp.read with
    | .error (.network error') =>
      rw [hread] at h
      exact absurd h hnetwork
    | .error .unicodeDecode =>
      rw [hread] at h
      cases h
      exact ⟨rfl, resp, rfl, hread⟩
    | .ok text =>
      rw [hread] at h
      dsimp only at h
      split at h
      . split at h <;> cases h
      . split at h <;> cases h

theorem handle_carries {outcome : HttpOutcome} {text : List Char} (h : Carries text outcome)
    (attempt : Nat) : handle attempt outcome = .stop (.ok (some text)) := by
  obtain ⟨resp, rfl, hstatus, hhtml, htext, hne, hstrip⟩ := h
  unfold handle
  simp [hstatus, hhtml, htext, hne, hstrip]

theorem carries_of_stop {outcome : HttpOutcome} {attempt : Nat} {text : List Char}
    (h : handle attempt outcome = .stop (.ok (some text))) : Carries text outcome := by
  have hnetwork : onNetworkError attempt ≠ .stop (.ok (some text)) := by
    unfold onNetworkError
    split <;> simp
  cases outcome with
  | error error => exact absurd h hnetwork
  | ok resp =>
    rw [handle_eq] at h
    match hread : resp.read with
    | .error (.network error) =>
      rw [hread] at h
      exact absurd h hnetwork
    | .error .unicodeDecode =>
      rw [hread] at h
      cases h
    | .ok text' =>
      rw [hread] at h
      dsimp only at h
      split at h
      next hstatus =>
        split at h
        next => cases h
        next hgood =>
          cases h
          rw [not_or, not_or] at hgood
          unfold Response.read at hread
          rw [if_pos ⟨hstatus, hgood.left⟩] at hread
          exact ⟨resp, rfl, hstatus, hgood.left, hread, hgood.right.left, hgood.right.right⟩
      next => split at h <;> cases h

theorem fetchLoop_attempts_le (outcomes : Nat → HttpOutcome) (attempt left : Nat)
    : (fetchLoop outcomes attempt left).attempts ≤ left := by
  induction left generalizing attempt with
  | zero => exact Nat.le_refl 0
  | succ left ih =>
    unfold fetchLoop
    split
    . exact Nat.succ_le_succ (ih (attempt + 1))
    . exact Nat.succ_le_succ (Nat.zero_le left)

section

variable {P : HttpOutcome → Prop} {result : Except ReadError (Option (List Char))}

/--
The loop runs on over temporary failures, to the first attempt that decides. With a result other than
"no text" it is known which attempt that was.
-/
theorem fetchLoop_eq_iff (hresult : result ≠ .ok none)
    (hP : ∀ attempt outcome, handle attempt outcome = .stop result ↔ P outcome)
    (outcomes : Nat → HttpOutcome) {attempt left : Nat} (h : attempt + left = httpMaxRetries + 1)
    : (fetchLoop outcomes attempt left).result = result ↔ Reaches P attempt outcomes := by
  induction left generalizing attempt with
  | zero =>
    simp only [fetchLoop, hresult.symm, false_iff]
    rintro ⟨k, hle, hmax, _⟩
    omega
  | succ left ih =>
    unfold fetchLoop
    cases hhandle : handle attempt (outcomes attempt) with
    | retry wait =>
      have htemporary := temporary_of_retry hhandle
      have hnot : ¬ P (outcomes attempt) := by
        rw [← hP attempt, hhandle]
        simp
      dsimp only
      rw [@ih (attempt + 1) (by omega)]
      constructor
      . rintro ⟨k, hle, hmax, hbefore, hk⟩
        refine ⟨k, by omega, hmax, fun j hj hlt => ?_, hk⟩
        cases Nat.eq_or_lt_of_le hj with
        | inl heq => exact heq ▸ htemporary
        | inr hgt => exact hbefore j hgt hlt
      . rintro ⟨k, hle, hmax, hbefore, hk⟩
        have hne : k ≠ attempt := by
          rintro rfl
          exact hnot hk
        exact ⟨k, by omega, hmax, fun j hj => hbefore j (by omega), hk⟩
    | stop stopped =>
      dsimp only
      constructor
      . rintro rfl
        exact ⟨attempt, Nat.le_refl _, by omega, fun j hle hlt => by omega,
          (hP attempt _).mp hhandle⟩
      . rintro ⟨k, hle, hmax, hbefore, hk⟩
        cases Nat.eq_or_lt_of_le hle with
        | inl heq =>
          rw [← heq, ← hP attempt, hhandle] at hk
          cases hk
          rfl
        | inr hlt =>
          -- a temporary failure does not stop an attempt before the last one
          rw [handle_temporary (hbefore attempt (Nat.le_refl _) hlt)] at hhandle
          unfold onNetworkError at hhandle
          rw [if_pos (by omega)] at hhandle
          cases hhandle

end

theorem fetchUrl_raises_iff (outcomes : Nat → HttpOutcome)
    : (fetchUrl outcomes).result = .error .unicodeDecode ↔ ReachesUndecodable outcomes :=
  fetchLoop_eq_iff (by simp)
    (fun attempt _ =>
      ⟨fun h => (undecodable_of_stop h).right, fun h => handle_undecodable h attempt⟩)
    outcomes rfl

theorem fetchUrl_text_iff (outcomes : Nat → HttpOutcome) (text : List Char)
    : (fetchUrl outcomes).result = .ok (some text) ↔ Offers text outcomes :=
  fetchLoop_eq_iff (by simp)
    (fun attempt _ => ⟨carries_of_stop, fun h => handle_carries h attempt⟩) outcomes rfl

theorem fetchLoop_error {outcomes : Nat → HttpOutcome} {attempt left : Nat} {error : ReadError}
    (h : (fetchLoop outcomes attempt left).result = .error error) : error = .unicodeDecode := by
  induction left generalizing attempt with
  | zero => cases h
  | succ left ih =>
    unfold fetchLoop at h
    split at h
    . exact ih h
    . next result hstop =>
      subst h
      exact (undecodable_of_stop hstop).left

theorem fetchUrl_ok_iff (outcomes : Nat → HttpOutcome)
    : (∃ text, (fetchUrl outcomes).result = .ok text) ↔ ¬ ReachesUndecodable outcomes := by
  rw [← fetchUrl_raises_iff]
  cases hresult : (fetchUrl outcomes).result with
  | ok text => simp
  | error error =>
    obtain rfl := fetchLoop_error hresult
    simp

theorem fetchUrl_none_iff {outcomes : Nat → HttpOutcome} (h : ¬ ReachesUndecodable outcomes)
    : (fetchUrl outcomes).result = .ok none ↔ ∀ text, ¬ Offers text outcomes := by
  obtain ⟨found, hfound⟩ := (fetchUrl_ok_iff outcomes).mpr h
  simp only [← fetchUrl_text_iff, hfound]
  cases found with
  | none => simp
  | some text => simp

theorem fetchUrl_attempts_le (outcomes : Nat → HttpOutcome) : (fetchUrl outcomes).attempts ≤ 3 :=
  fetchLoop_attempts_le outcomes 1 httpMaxRetries

theorem firstText_append {tried : Nat} {before after : List (Nat → HttpOutcome)}
    (h : ∀ url ∈ before, (fetchUrl url).result = .ok none)
    : firstText tried (before ++ after) = firstText tried after := by
  induction before with
  | nil => rfl
  | cons url before ih =>
    obtain ⟨hurl, hbefore⟩ := List.forall_mem_cons.mp h
    rw [List.cons_append, firstText, hurl]
    exact ih hbefore

theorem firstText_first {tried : Nat} {before after : List (Nat → HttpOutcome)} {url : Nat → HttpOutcome}
    {text : List Char} (hbefore : ∀ url ∈ before, (fetchUrl url).result = .ok none)
    (htext : (fetchUrl url).result = .ok (some text))
    : firstText tried (before ++ url :: after) = .ok text := by
  rw [firstText_append hbefore, firstText, htext]

section ingestion

variable {refused : TLE → Bool} {validator : TLEValidator} {db : List TLE} {text : List Char}

theorem step_eq_none_iff {s : State} {t : Triplet}
    : step refused validator s t = none
        ↔
      parseTriplet validator t = none
        ∨ ∃ e, parseTriplet validator t = some (.entry e)
          ∧ batchSize ≤ (store s e).batchPending ∧ flushBatch refused (store s e) = none := by
  unfold step
  cases parseTriplet validator t with
  | none => simp
  | some parsed =>
    cases parsed with
    | blank => simp
    | invalid => simp
    | entry e =>
      simp only [Option.bind_eq_bind, Option.bind_some, reduceCtorEq, Option.some.injEq,
        Parsed.entry.injEq, false_or, exists_eq_left']
      split
      . next hfull =>
        cases hflush : flushBatch refused (store s e) with
        | none => simp [hfull]
        | some s' => simp [hfull]
      . next hroom => simp [hroom]

theorem loop_eq_error {s s' : State} {ts : List Triplet}
    (h : loop refused validator s ts = .error s')
    : ∃ before t after, ts = before ++ t :: after ∧ loop refused validator s before = .ok s'
        ∧ step refused validator s' t = none := by
  induction ts generalizing s with
  | nil => cases h
  | cons t ts ih =>
    unfold loop at h
    cases hstep : step refused validator s t with
    | none =>
      rw [hstep] at h
      cases h
      exact ⟨[], t, ts, rfl, rfl, hstep⟩
    | some s₁ =>
      rw [hstep] at h
      obtain ⟨before, t', after, rfl, hbefore, hnone⟩ := ih h
      refine ⟨t :: before, t', after, rfl, ?_, hnone⟩
      unfold loop
      rw [hstep]
      exact hbefore

theorem parseAndStore_ok_iff
    : (∃ res, parseAndStore refused validator db text = .ok res)
        ↔
      ¬ IngestionRaises refused validator db text := by
  unfold parseAndStore
  constructor
  . rintro ⟨res, hres⟩ ⟨before, after, s, hsplit, hbefore, hraises⟩
    rw [hsplit, loop_append, hbefore] at hres
    dsimp only at hres
    cases after with
    | nil =>
      simp only [loop] at hres
      rw [hraises] at hres
      cases hres
    | cons t after =>
      have hnone := step_eq_none_iff.mpr hraises
      simp only [loop, hnone] at hres
      cases hres
  . intro h
    cases hloop : loop refused validator (prefetch db) (triplets (splitlines text)) with
    | error s =>
      obtain ⟨before, t, after, hsplit, hbefore, hnone⟩ := loop_eq_error hloop
      exact absurd ⟨before, t :: after, s, hsplit, hbefore, step_eq_none_iff.mp hnone⟩ h
    | ok s =>
      cases hflush : flushBatch refused s with
      | none =>
        exact absurd ⟨triplets (splitlines text), [], s, (List.append_nil _).symm, hloop, hflush⟩ h
      | some s' => exact ⟨(s'.db, s'.counts), by simp [hflush]⟩

end ingestion

/-- What the download promises: no source is given up or passed over by an exception. -/
structure Exhaustive (refused : TLE → Bool) (validator : TLEValidator) (db : List TLE)
    (sources : Sources) : Prop where
  neverRaises : ∀ url ∈ sources.urls, ∃ text, (fetchUrl url).result = .ok text
  attemptsLe : ∀ url ∈ sources.urls, (fetchUrl url).attempts ≤ 3
  ingestsFirst : ∀ before url after text, sources.urls = before ++ url :: after
    → (∀ url ∈ before, (fetchUrl url).result = .ok none)
    → (fetchUrl url).result = .ok (some text)
    → ∃ db' counts, parseAndStore refused validator db text = .ok (db', counts)
        ∧ fetchAll refused validator db sources = (.ok counts, db')
  raisesOnlyIf : ∀ error, (fetchAll refused validator db sources).1 = .error error
    → ∀ url ∈ sources.urls, (fetchUrl url).result = .ok none

section

variable {refused : TLE → Bool} {validator : TLEValidator} {db : List TLE} {sources : Sources}

theorem firstOffer_iff (h : ∀ url ∈ sources.urls, ¬ ReachesUndecodable url) (text : List Char)
    : FirstOffer sources text
        ↔
      ∃ before url after, sources.urls = before ++ url :: after
        ∧ (∀ url ∈ before, (fetchUrl url).result = .ok none)
        ∧ (fetchUrl url).result = .ok (some text) := by
  have hnone : ∀ before url after, sources.urls = before ++ url :: after →
      ((∀ url ∈ before, (fetchUrl url).result = .ok none)
        ↔ ∀ url ∈ before, ∀ text, ¬ Offers text url) := by
    intro before url after hurls
    apply forall₂_congr
    intro url hurl
    apply fetchUrl_none_iff (h url _)
    rw [hurls]
    exact List.mem_append_left _ hurl
  unfold FirstOffer
  constructor
  . rintro ⟨before, url, after, hurls, htext, hbefore⟩
    exact ⟨before, url, after, hurls, (hnone before url after hurls).mpr hbefore,
      (fetchUrl_text_iff url text).mpr htext⟩
  . rintro ⟨before, url, after, hurls, hbefore, htext⟩
    exact ⟨before, url, after, hurls, (fetchUrl_text_iff url text).mp htext,
      (hnone before url after hurls).mp hbefore⟩

theorem firstText_cases {urls : List (Nat → HttpOutcome)}
    (hok : ∀ url ∈ urls, ∃ text, (fetchUrl url).result = .ok text)
    : (∃ before url after text, urls = before ++ url :: after
          ∧ (∀ url ∈ before, (fetchUrl url).result = .ok none)
          ∧ (fetchUrl url).result = .ok (some text))
        ∨
      ∀ url ∈ urls, (fetchUrl url).result = .ok none := by
  induction urls with
  | nil => exact .inr (by simp)
  | cons url urls ih =>
    obtain ⟨⟨text, hurl⟩, hok⟩ := List.forall_mem_cons.mp hok
    cases text with
    | some text => exact .inl ⟨[], url, urls, text, rfl, by simp, hurl⟩
    | none =>
      rcases ih hok with ⟨before, url', after, text, rfl, hbefore, htext⟩ | hnone
      . exact .inl ⟨url :: before, url', after, text, rfl, List.forall_mem_cons.mpr ⟨hurl, hbefore⟩,
          htext⟩
      . exact .inr (List.forall_mem_cons.mpr ⟨hurl, hnone⟩)

end

theorem fetchAll_exhaustive_iff (refused : TLE → Bool) (validator : TLEValidator) (db : List TLE)
    (sources : Sources)
    : Exhaustive refused validator db sources
        ↔
      (∀ url ∈ sources.urls, ¬ ReachesUndecodable url)
        ∧ ∀ text, FirstOffer sources text → ¬ IngestionRaises refused validator db text := by
  constructor
  . intro h
    have hreach : ∀ url ∈ sources.urls, ¬ ReachesUndecodable url :=
      fun url hurl => (fetchUrl_ok_iff url).mp (h.neverRaises url hurl)
    refine ⟨hreach, ?_⟩
    intro text hfirst
    obtain ⟨before, url, after, hurls, hbefore, htext⟩ := (firstOffer_iff hreach text).mp hfirst
    obtain ⟨db', counts, hstore, _⟩ := h.ingestsFirst before url after text hurls hbefore htext
    exact parseAndStore_ok_iff.mp ⟨_, hstore⟩
  . rintro ⟨hreach, hingest⟩
    have hok : ∀ url ∈ sources.urls, ∃ text, (fetchUrl url).result = .ok text :=
      fun url hurl => (fetchUrl_ok_iff url).mpr (hreach url hurl)
    have hfirst : ∀ before url after text, sources.urls = before ++ url :: after
        → (∀ url ∈ before, (fetchUrl url).result = .ok none)
        → (fetchUrl url).result = .ok (some text)
        → ∃ db' counts, parseAndStore refused validator db text = .ok (db', counts)
            ∧ fetchAll refused validator db sources = (.ok counts, db') := by
      intro before url after text hurls hbefore htext
      have hoffer := (firstOffer_iff hreach text).mpr ⟨before, url, after, hurls, hbefore, htext⟩
      obtain ⟨⟨db', counts⟩, hstore⟩ := parseAndStore_ok_iff.mpr (hingest text hoffer)
      refine ⟨db', counts, hstore, ?_⟩
      unfold fetchAll
      rw [hurls, firstText_first hbefore htext]
      dsimp only
      rw [hstore]
    constructor
    case neverRaises => exact hok
    case attemptsLe => exact fun url _ => fetchUrl_attempts_le url
    case ingestsFirst => exact hfirst
    case raisesOnlyIf =>
      intro error herror
      rcases firstText_cases hok with ⟨before, url, after, text, hurls, hbefore, htext⟩ | hnone
      . obtain ⟨db', counts, _, hfetch⟩ := hfirst before url after text hurls hbefore htext
        rw [hfetch] at herror
        cases herror
      . exact hnone

def latin1Sources (feed : List Char) : Sources where
  celestrakUrl _ := .ok {
    status := 200
    contentType := some "text/plain".toList
    utf8Text := .error .unicodeDecode
    text := .ok feed
  }
  tleFallbackUrls := [fun _ => .ok {
    status := 200
    contentType := some "text/plain".toList
    utf8Text := .ok feed
    text := .ok feed
  }]

/-- The body that cannot be decoded ends the download, and the good feed is not asked for. -/
theorem fetchAll_not_exhaustive
    : ¬ ∀ refused validator db sources, Exhaustive refused validator db sources := by
  intro hall
  let validator : TLEValidator := {
    validatePair := fun _ _ _ => some false
    extractNoradId := fun _ => some none
    extractEpoch := fun _ => some none
    computePairHash := fun _ _ => some []
  }
  have hraises :=
    (hall TLE.refused validator [] (latin1Sources ['A'])).raisesOnlyIf .unicodeDecodeError rfl
  have := hraises _ List.mem_cons_self
  revert this
  decide +kernel

end TLEFetcher
end SdaSystem
