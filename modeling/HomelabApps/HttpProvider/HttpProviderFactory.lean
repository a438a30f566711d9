import HomelabApps.HttpProvider.TokenExchangeStrategy
import HomelabApps.Library.KeyedMap
import HomelabApps.Resilience.ResiliencePolicy

/-! The client of a provider whose strategy caches its credentials: the interceptors that `HttpProviderFactory` puts
around a request, and the one replay that a 401 gets. -/

namespace HomelabApps.HttpProvider

open HomelabApps.Library
open HomelabApps.Library.Utf16
open HomelabApps.Library.SharedFetch (Source Call)
open HomelabApps.Resilience (Outcome ResilienceConfig ResiliencePolicy Thrown)

inductive HttpMethod
  | GET | POST | PUT | PATCH | DELETE | HEAD | OPTIONS | QUERY
  deriving DecidableEq, Repr

def RETRIED_METHODS : List HttpMethod := [.GET, .HEAD, .OPTIONS, .QUERY, .PUT, .DELETE]

structure AxiosError where
  status : Option Nat
  code : Option JsString
  deriving DecidableEq

def isRetriableHttpError (error : Thrown AxiosError) (statusCodes : List Nat) : Bool :=
  match error with
  | .other error =>
    match error.status with
    | some status => statusCodes.contains status
    | none => error.code ≠ some (utf16 "ERR_CANCELED")
  | _ => false

inductive TransportEntry
  | static (name value : JsString)
  | credential (name credential : JsString) (before after : Option JsString)

structure TransportConfig where
  headers : List TransportEntry := []
  queryParams : List TransportEntry := []

def TransportEntry.name : TransportEntry → JsString
  | .static name _ => name
  | .credential name _ _ _ => name

def resolveEntry (entry : TransportEntry) (credentials : Credentials) : Except JsString JsString :=
  match entry with
  | .static _ value => .ok value
  | .credential name credential before after =>
    let found := (KeyedMap.get credentials credential).getD []
    if isNotEmpty found then .ok (before.getD [] ++ found ++ after.getD [])
    else
      .error (utf16 "Transport entry \"" ++ name ++ utf16 "\" needs credential \"" ++ credential ++
        utf16 "\", which the auth strategy did not produce")

structure Applied where
  headers : List (JsString × JsString)
  queryParams : List (JsString × JsString)
  deriving DecidableEq

def resolveEntries (credentials : Credentials) : List TransportEntry → Except JsString (List (JsString × JsString))
  | [] => .ok []
  | entry :: entries =>
    (resolveEntry entry credentials).bind fun value =>
      (resolveEntries credentials entries).map fun rest => (entry.name, value) :: rest

def applyTransport (transport : TransportConfig) (credentials : Credentials) : Except JsString Applied :=
  (resolveEntries credentials transport.headers).bind fun headers =>
    (resolveEntries credentials transport.queryParams).map fun queryParams => { headers, queryParams }

/-- The adapter of the instance, or one that runs another under the policy. -/
inductive Adapter
  | base
  | wrapped (inner : Adapter)
  deriving DecidableEq, Repr

structure RequestConfig where
  method : Option HttpMethod := none
  retry : Option Bool := none
  adapter : Option Adapter := none
  resilienceBaseAdapter : Option Adapter := none
  retried : Bool := false

def mayRetry (config : RequestConfig) : Bool :=
  config.retry.getD (RETRIED_METHODS.contains (config.method.getD .GET))

def RequestConfig.baseAdapter (config : RequestConfig) : Adapter :=
  config.resilienceBaseAdapter.getD (config.adapter.getD .base)

def wrapAdapterWithPolicy (config : RequestConfig) : RequestConfig :=
  { config with resilienceBaseAdapter := some config.baseAdapter, adapter := some (.wrapped config.baseAdapter) }

structure Provider (Answer Failure Result Value Expiry : Type) where
  source : Source Answer Failure Result Value Expiry
  credentials : Value → Credentials
  transport : TransportConfig
  resilience : ResilienceConfig
  retriableStatusCodes : List Nat

/-- A request that waits for credentials: the `_authGeneration` it was tagged with, its call of the strategy and the
epoch that call was made in. -/
structure Asked where
  authGeneration : Nat
  call : Nat
  epoch : Nat

structure Sent (Value Response : Type) where
  asked : Asked
  fetch : Nat
  credentials : Value
  applied : Applied
  adapter : Adapter
  execution : Resilience.Execution AxiosError Response

inductive Stage (Value Response : Type)
  | requested
  | asked (asked : Asked)
  | sent (sent : Sent Value Response)
  | settled

structure Request (Value Response : Type) where
  config : RequestConfig
  stage : Stage Value Response := .requested
  handled : List (Sent Value Response) := []

/-- `refreshed` are the generations whose credentials a 401 dropped. -/
structure State (Answer Failure Result Value Expiry Response : Type) where
  generation : Nat := 0
  refreshed : List Nat := []
  strategy : SharedFetch.State Answer Failure Result Value Expiry := {}
  requests : List (Request Value Response) := []

inductive Event (Answer Response : Type)
  | request (method : Option HttpMethod) (retry : Option Bool)
  | strategy (event : SharedFetch.Event Answer)
  | ask (i : Nat)
  | send (i : Nat) (parentAborted : Option Bool)
  | policy (i : Nat) (event : Resilience.Event AxiosError Response)
  | handle (i : Nat)

variable {Answer Failure Result Value Expiry Response : Type}

def Provider.policy (provider : Provider Answer Failure Result Value Expiry) : ResiliencePolicy AxiosError where
  cfg := provider.resilience
  predicate := some fun error => isRetriableHttpError error provider.retriableStatusCodes

def ownEvent : SharedFetch.Event Answer → Bool
  | .get => false
  | .invalidate => false
  | _ => true

def isUnauthorized : Outcome AxiosError Response → Bool
  | .error (.other error) => error.status = some 401
  | _ => false

def State.invalidate (s : State Answer Failure Result Value Expiry Response) :
    State Answer Failure Result Value Expiry Response :=
  { s with strategy := { s.strategy with cache := s.strategy.cache.invalidate } }

def State.put (s : State Answer Failure Result Value Expiry Response) (i : Nat) (r : Request Value Response) :
    State Answer Failure Result Value Expiry Response :=
  { s with requests := s.requests.set i r }

def State.ask (provider : Provider Answer Failure Result Value Expiry)
    (s : State Answer Failure Result Value Expiry Response) (i : Nat) (r : Request Value Response) :
    State Answer Failure Result Value Expiry Response :=
  { s.put i { r with
      config := wrapAdapterWithPolicy r.config
      stage := .asked ⟨s.generation, s.strategy.calls.length, s.strategy.cache.cacheEpoch⟩ } with
    strategy := s.strategy.get provider.source }

/-- The rest of the request interceptor, once the strategy has answered. A strategy that rejects leaves an error that
no tagged request goes with. -/
def State.send (provider : Provider Answer Failure Result Value Expiry)
    (s : State Answer Failure Result Value Expiry Response) (i : Nat) (r : Request Value Response) (asked : Asked)
    (parentAborted : Option Bool) : Option (State Answer Failure Result Value Expiry Response) :=
  (s.strategy.calls[asked.call]?).bind fun call =>
    (s.strategy.returned provider.source call).map fun
      | .error _ => s.put i { r with stage := .settled }
      | .ok credentials =>
        match applyTransport provider.transport (provider.credentials credentials) with
        | .error _ => s.invalidate.put i { r with stage := .settled }
        | .ok applied =>
          s.put i { r with
            stage := .sent
              { asked, fetch := call.fetch, credentials, applied
                adapter := r.config.adapter.getD .base
                execution := provider.policy.execute parentAborted (mayRetry r.config) } }

def State.handle (s : State Answer Failure Result Value Expiry Response) (i : Nat) (r : Request Value Response)
    (sent : Sent Value Response) (outcome : Outcome AxiosError Response) :
    State Answer Failure Result Value Expiry Response :=
  let handled := r.handled ++ [sent]
  if isUnauthorized outcome && !r.config.retried then
    let t := s.put i { config := { r.config with retried := true }, stage := .requested, handled }
    if sent.asked.authGeneration = s.generation then
      { t.invalidate with generation := s.generation + 1, refreshed := s.refreshed ++ [s.generation] }
    else t
  else s.put i { r with stage := .settled, handled }

def step (provider : Provider Answer Failure Result Value Expiry)
    (s : State Answer Failure Result Value Expiry Response) :
    Event Answer Response → Option (State Answer Failure Result Value Expiry Response)
  | .request method retry => some { s with requests := s.requests ++ [{ config := { method, retry } }] }
  | .strategy event =>
    if ownEvent event then
      (SharedFetch.step provider.source s.strategy event).map fun strategy => { s with strategy }
    else none
  | .ask i =>
    match s.requests[i]? with
    | some r =>
      match r.stage with
      | .requested => some (s.ask provider i r)
      | _ => none
    | none => none
  | .send i parentAborted =>
    match s.requests[i]? with
    | some r =>
      match r.stage with
      | .asked asked => s.send provider i r asked parentAborted
      | _ => none
    | none => none
  | .policy i event =>
    match s.requests[i]? with
    | some r =>
      match r.stage with
      | .sent sent =>
        (provider.policy.step sent.execution event).map fun execution =>
          s.put i { r with stage := .sent { sent with execution } }
      | _ => none
    | none => none
  | .handle i =>
    match s.requests[i]? with
    | some r =>
      match r.stage with
      | .sent sent =>
        match sent.execution.stage with
        | .settled outcome => some (s.handle i r sent outcome)
        | _ => none
      | _ => none
    | none => none

def Stage.sends : Stage Value Response → List (Sent Value Response)
  | .requested => []
  | .asked _ => []
  | .sent last => [last]
  | .settled => []

def Request.sends (r : Request Value Response) : List (Sent Value Response) := r.handled ++ r.stage.sends

def Provider.retries (provider : Provider Answer Failure Result Value Expiry) (config : RequestConfig) : Nat :=
  if mayRetry config then (provider.resilience.retry.map fun retry => retry.count).getD 0 else 0

end HomelabApps.HttpProvider
