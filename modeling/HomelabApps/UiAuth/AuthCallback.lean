import HomelabApps.Library.JsonAccess

namespace HomelabApps.UiAuth

open HomelabApps.Library.Utf16
open HomelabApps.Library.Json (Parsed)

inductive CallbackResult
  | signedIn | noSession | failed
  deriving DecidableEq, Repr

structure CallbackOutcome where
  result : CallbackResult
  returnTo : Option JsString
  deriving DecidableEq, Repr

def SLASH : UInt16 := 0x2F

def startsWith (s start : JsString) : Bool := start.isPrefixOf s

def safeReturnTo : Option Parsed → Option JsString
  | some (.string value) =>
    if startsWith value [SLASH] && !startsWith value [SLASH, SLASH] then some value else none
  | _ => none

def NO_SESSION_ERRORS : List JsString :=
  [utf16 "login_required", utf16 "consent_required", utf16 "interaction_required"]

/-- What `signinRedirectCallback` comes to: a user with its state, or a throw with its fields. A field that is
`undefined` is `none`. -/
inductive RedirectCallback
  | user (state : Option Parsed)
  | thrown (error state : Option Parsed)

abbrev SearchParams := List (JsString × JsString)

def SearchParams.has (params : SearchParams) (name : JsString) : Bool := params.any (·.1 = name)

def SearchParams.get (params : SearchParams) (name : JsString) : Option JsString :=
  (params.find? (·.1 = name)).map (·.2)

def returnToOf (state : Option Parsed) : Option Parsed := state.bind (·.get (utf16 "returnTo"))

def responseParams : List JsString :=
  [utf16 "code", utf16 "state", utf16 "error", utf16 "error_description", utf16 "error_uri", utf16 "session_state",
    utf16 "iss"]

def stripAuthorizationResponse (search : SearchParams) : SearchParams :=
  search.filter fun param => !responseParams.contains param.1

def isNoSession (search : SearchParams) : Option Parsed → Bool
  | none | some .null => (search.get (utf16 "error")).any NO_SESSION_ERRORS.contains
  | some (.string error) => NO_SESSION_ERRORS.contains error
  | some _ => false

def handleCallback (search : SearchParams) (client : RedirectCallback) : CallbackOutcome × SearchParams :=
  if !search.has (utf16 "code") && !search.has (utf16 "error") then (⟨.noSession, none⟩, search)
  else
    match client with
    | .user state => (⟨.signedIn, safeReturnTo (returnToOf state)⟩, search)
    | .thrown error state =>
      if isNoSession search error then (⟨.noSession, safeReturnTo (returnToOf state)⟩, search)
      else (⟨.failed, none⟩, stripAuthorizationResponse search)

def baseOf (basePath : JsString) : JsString :=
  if basePath.getLast? = some SLASH then basePath.dropLast else basePath

def routePathOf (returnTo : Option JsString) (basePath : JsString) : Option JsString :=
  match returnTo with
  | none => none
  | some returnTo =>
    let base := baseOf basePath
    let path := if !base.isEmpty && startsWith returnTo base then returnTo.drop base.length else returnTo
    let normalised := if startsWith path [SLASH] then path else SLASH :: path
    if startsWith normalised (utf16 "/callback") then none else some normalised

structure Navigation where
  path : JsString
  replace : Bool
  deriving DecidableEq, Repr

/-- What the component does: the result it shows, whether it settles the provider, where it navigates. -/
structure CallbackEffects where
  result : Option CallbackResult
  anonymous : Bool
  navigated : Option Navigation
  search : SearchParams

def authCallback (started : Bool) (search : SearchParams) (client : RedirectCallback)
    (basePath defaultPath : JsString) : CallbackEffects :=
  if started then ⟨none, false, none, search⟩
  else
    let (outcome, search) := handleCallback search client
    let landing : Navigation := ⟨(routePathOf outcome.returnTo basePath).getD defaultPath, true⟩
    match outcome.result with
    | .signedIn => ⟨some .signedIn, false, some landing, search⟩
    | .noSession => ⟨some .noSession, true, some landing, search⟩
    | .failed => ⟨some .failed, false, none, search⟩

end HomelabApps.UiAuth
