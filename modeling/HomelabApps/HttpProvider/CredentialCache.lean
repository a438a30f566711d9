import HomelabApps.HttpProvider.JwtSelfSignedStrategy
import HomelabApps.HttpProvider.TokenExchangeStrategy

namespace HomelabApps.HttpProvider

open HomelabApps.Library
open HomelabApps.Library.Json
open HomelabApps.Library.SharedFetch
open HomelabApps.Library.Transition (run)
open HomelabApps.Library.Utf16

variable {Answer Failure Result Value Expiry : Type}

abbrev getCredentials (source : Source Answer Failure Result Value Expiry)
    (s : State Answer Failure Result Value Expiry) : State Answer Failure Result Value Expiry :=
  s.get source

abbrev invalidate (s : State Answer Failure Result Value Expiry) : State Answer Failure Result Value Expiry :=
  { s with cache := s.cache.invalidate }

def Reachable (source : Source Answer Failure Result Value Expiry) (s : State Answer Failure Result Value Expiry) :
    Prop :=
  ∃ events, run (step source) {} events = some s

def Provides (source : Source Answer Failure Result Value Expiry) (s : State Answer Failure Result Value Expiry)
    (fetch : Nat) (credentials : Value) : Prop :=
  ∃ (f : Fetch Answer Failure Result) (reply : Reply Answer Failure Result) (result : Result),
    s.fetches[fetch]? = some f ∧ f.reply = some reply ∧ reply.outcome = .ok result ∧
      source.value result = credentials

def Failed (s : State Answer Failure Result Value Expiry) (fetch : Nat) : Prop :=
  ∃ (f : Fetch Answer Failure Result) (reply : Reply Answer Failure Result) (failure : Failure),
    s.fetches[fetch]? = some f ∧ f.settled = true ∧ f.reply = some reply ∧ reply.outcome = .error failure

structure CacheCoherent (source : Source Answer Failure Result Value Expiry) : Prop where
  singleFlight : ∀ s, Reachable source s → ∀ (i j : Nat) (f g : Fetch Answer Failure Result),
    s.fetches[i]? = some f → s.fetches[j]? = some g → f.settled = false → g.settled = false →
    f.requestEpoch = g.requestEpoch → i = j
  fresh : ∀ s, Reachable source s → ∀ events t, run (step source) (invalidate s) events = some t →
    ∀ call ∈ t.calls.drop s.calls.length, s.fetches.length ≤ call.fetch ∧
      ∀ credentials, t.returned source call = some (.ok credentials) → Provides source t call.fetch credentials
  overtaken : ∀ s, Reachable source s → ∀ events t, run (step source) (invalidate s) events = some t →
    ∀ kept, t.cache.cached = some kept → s.fetches.length ≤ kept.fetch ∧ Provides source t kept.fetch kept.value
  residue : ∀ s, Reachable source s → ∀ i, Failed s i →
    s.cache.inFlight ≠ some i ∧ (∀ kept, s.cache.cached = some kept → kept.fetch ≠ i) ∧
    ∃ call, (getCredentials source s).calls = s.calls ++ [call] ∧ i < call.fetch ∧
      (i + 1 = s.fetches.length → call.fetch = s.fetches.length ∧
        (getCredentials source s).fetches.length = s.fetches.length + 1)

def TokenUnexpired (values : Values) (config : TokenExchangeAuth) : Prop :=
  ∀ s, Reachable (TokenExchangeStrategy values config) s → ∀ call ∈ s.calls, ∀ credentials,
    call.cached = some credentials →
    ∃ f reply data, s.fetches[call.fetch]? = some f ∧ f.reply = some reply ∧ reply.answer = .ok data ∧
      extractAll values data config.tokenExtractor [] = .ok credentials ∧
      ∀ path, config.expiresIn = some path → ∃ lifetime, extractNumberByPath values data path = .ok lifetime ∧
        (call.madeAt : ℚ) < reply.receivedAt + (lifetime - config.margin) * 1000

/-- A cached token is returned only until the buffer before the expiry counted from the time it came
back; the `exp` in it is counted from the time its claims were set. -/
def JwtUnexpired (claims : JwtClaims) : Prop :=
  ∀ s, Reachable (JwtSelfSignedStrategy claims) s → ∀ call ∈ s.calls, ∀ token, call.cached = some token →
    ∃ (f : Fetch _ _ _) (reply : Reply _ _ _) (time signedAt : Nat) (text : JsString), s.fetches[call.fetch]? = some f ∧
      f.Resumed reply token time ∧ reply.answer = .ok (signedAt, text) ∧ f.startedAt ≤ signedAt ∧
      signedAt ≤ reply.receivedAt ∧ token = generateToken claims signedAt text ∧
      (seconds call.madeAt : Int) < (seconds time + claims.exp : Nat) - EXPIRY_BUFFER_SECONDS

variable {source : Source Answer Failure Result Value Expiry} {s : State Answer Failure Result Value Expiry}

theorem Reachable.coherent (h : Reachable source s) : Coherent source s := by
  obtain ⟨events, hrun⟩ := h
  exact coherent_run hrun

theorem no_residue (h : Coherent source s) {i : Nat} (hfailed : Failed s i) :
    s.cache.inFlight ≠ some i ∧ (∀ kept, s.cache.cached = some kept → kept.fetch ≠ i) ∧
    ∃ call, (getCredentials source s).calls = s.calls ++ [call] ∧ i < call.fetch ∧
      (i + 1 = s.fetches.length → call.fetch = s.fetches.length ∧
        (getCredentials source s).fetches.length = s.fetches.length + 1) := by
  obtain ⟨f, reply, failure, hf, hsettled, hreply, houtcome⟩ := hfailed
  refine ⟨fun hslot => ?_, fun kept hkept hi => ?_, ?_⟩
  · obtain ⟨g, hg, hunsettled, _⟩ := h.slot i hslot
    obtain rfl : f = g := by simpa [hf] using hg
    simp [hsettled] at hunsettled
  · obtain ⟨g, hg, _, r, result, time, hresumed, _⟩ := h.kept kept hkept
    obtain rfl : f = g := by simpa [hi, hf] using hg
    obtain rfl : reply = r := by simpa [hreply] using hresumed.replied
    cases houtcome.symm.trans hresumed.outcome
  · obtain ⟨call, hcalls, hlt⟩ := h.get_after_failure hf hsettled hreply houtcome
    refine ⟨call, hcalls, hlt, fun hlast => ?_⟩
    have hmem : call ∈ (getCredentials source s).calls := by simp [hcalls]
    obtain ⟨g, hg, _⟩ := h.get.served call hmem
    have hbound : call.fetch < (getCredentials source s).fetches.length := (List.getElem?_eq_some_iff.mp hg).1
    have hlength : (getCredentials source s).fetches.length ≤ s.fetches.length + 1 := length_get s
    omega

theorem cacheCoherent (source : Source Answer Failure Result Value Expiry) : CacheCoherent source where
  singleFlight _ hs _ _ _ _ hf hg hfs hgs hepoch := single_flight hs.coherent hf hg hfs hgs hepoch
  fresh _ hs _ _ hrun call hcall := by
    obtain ⟨hcoherent, hbehind⟩ := behind_run hs.coherent hrun
    exact ⟨hbehind.served call hcall, fun _ => hcoherent.returned (List.mem_of_mem_drop hcall)⟩
  overtaken _ hs _ _ hrun kept hkept := by
    obtain ⟨hcoherent, hbehind⟩ := behind_run hs.coherent hrun
    obtain ⟨f, hf, _, reply, result, time, hresumed, hvalue, _⟩ := hcoherent.kept kept hkept
    exact ⟨hbehind.cached hcoherent hkept, f, reply, result, hf, hresumed.replied, hresumed.outcome, hvalue⟩
  residue _ hs _ hfailed := no_residue hs.coherent hfailed

theorem extractAll_ok {values : Values} {config : TokenExchangeAuth} {now : Nat} {data : Parsed} {fetched : Fetched}
    (h : fetchCredentials values config now data = .ok fetched) :
    extractAll values data config.tokenExtractor [] = .ok fetched.credentials ∧
      ∀ path, config.expiresIn = some path → ∃ lifetime, extractNumberByPath values data path = .ok lifetime ∧
        fetched.expiresAt = some (now + (lifetime - config.margin) * 1000) := by
  rw [fetchCredentials] at h
  cases hcredentials : extractAll values data config.tokenExtractor [] with
  | error failure =>
    rw [hcredentials] at h
    cases h
  | ok credentials =>
    rw [hcredentials, Except.bind] at h
    cases hpath : config.expiresIn with
    | none =>
      simp only [hpath] at h
      cases h
      exact ⟨rfl, fun path hp => by cases hp⟩
    | some path =>
      simp only [hpath] at h
      cases hlifetime : extractNumberByPath values data path with
      | error failure =>
        rw [hlifetime] at h
        cases h
      | ok lifetime =>
        rw [hlifetime] at h
        cases h
        refine ⟨rfl, fun p hp => ?_⟩
        obtain rfl := Option.some.inj hp
        exact ⟨lifetime, hlifetime, rfl⟩

theorem tokenUnexpired (values : Values) (config : TokenExchangeAuth) : TokenUnexpired values config := by
  intro s hs call hcall credentials hcached
  obtain ⟨f, hf, hserved⟩ := hs.coherent.served call hcall
  obtain ⟨reply, fetched, time, hresumed, hvalue, husable⟩ := hserved credentials hcached
  have hreceive : reply.answer.bind (fetchCredentials values config reply.receivedAt) = reply.outcome :=
    Option.some.inj (hs.coherent.replies call.fetch f reply hf hresumed.replied)
  rw [hresumed.outcome] at hreceive
  cases hanswer : reply.answer with
  | error failure =>
    rw [hanswer] at hreceive
    cases hreceive
  | ok data =>
    rw [hanswer] at hreceive
    obtain ⟨hextract, hexpiry⟩ := extractAll_ok hreceive
    subst hvalue
    refine ⟨f, reply, data, hf, hresumed.replied, hanswer, hextract, fun path hpath => ?_⟩
    obtain ⟨lifetime, hlifetime, hexpiresAt⟩ := hexpiry path hpath
    simp only [TokenExchangeStrategy, hexpiresAt] at husable
    exact ⟨lifetime, hlifetime, of_decide_eq_true husable⟩

theorem jwtUnexpired (claims : JwtClaims) : JwtUnexpired claims := by
  intro s hs call hcall token hcached
  obtain ⟨f, hf, hserved⟩ := hs.coherent.served call hcall
  obtain ⟨reply, result, time, hresumed, hvalue, husable⟩ := hserved token hcached
  obtain rfl : result = token := hvalue
  have hreceive := hs.coherent.replies call.fetch f reply hf hresumed.replied
  rw [hresumed.outcome] at hreceive
  simp only [JwtSelfSignedStrategy] at hreceive husable
  cases hanswer : reply.answer with
  | error failure => simp [hanswer] at hreceive
  | ok signed =>
    obtain ⟨signedAt, text⟩ := signed
    simp only [hanswer] at hreceive
    split_ifs at hreceive with htimes
    have htoken : generateToken claims signedAt text = result := Except.ok.inj (Option.some.inj hreceive)
    rw [Bool.and_eq_true] at husable
    exact ⟨f, reply, time, signedAt, text, hf, hresumed, hanswer, htimes.1, htimes.2, htoken.symm,
      of_decide_eq_true husable.2⟩

theorem credentialCaches_coherent (values : Values) (config : TokenExchangeAuth) (claims : JwtClaims) :
    CacheCoherent (TokenExchangeStrategy values config) ∧ TokenUnexpired values config ∧
      CacheCoherent (JwtSelfSignedStrategy claims) ∧ JwtUnexpired claims :=
  ⟨cacheCoherent _, tokenUnexpired values config, cacheCoherent _, jwtUnexpired claims⟩

def aMinute : JwtClaims := ⟨60, by decide⟩

def slowSigning : List (Event (Except JsString (Nat × JsString))) :=
  [.get, .pass 1000, .receive 0 (.ok (999, [0x74])), .resume 0, .settle 0, .pass 29000, .get]

def overtakenFailure : List (Event (Except JsString (Nat × JsString))) :=
  [.get, .invalidate, .get, .receive 0 (.error []), .resume 0, .settle 0]

theorem credentialCache_counterexample :
    (∃ s token, run (step (JwtSelfSignedStrategy aMinute)) {} slowSigning = some s ∧
      s.calls[1]? = some ⟨30000, 0, some token⟩ ∧ ¬(seconds 30000 : Int) < token.exp - EXPIRY_BUFFER_SECONDS) ∧
    ∃ s, run (step (JwtSelfSignedStrategy aMinute)) {} overtakenFailure = some s ∧ Failed s 0 ∧
      (getCredentials (JwtSelfSignedStrategy aMinute) s).fetches.length = s.fetches.length := by
  refine ⟨⟨_, ⟨[0x74], 60⟩, rfl, rfl, by decide⟩, _, rfl, ⟨_, _, _, rfl, rfl, rfl, rfl⟩, rfl⟩

end HomelabApps.HttpProvider
