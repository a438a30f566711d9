import HomelabApps.Library.Transition

/-! `AuthProvider`: one tab, its session storage and its page loads; the redirects that the provider starts by itself. -/

namespace HomelabApps.UiAuth

inductive AuthState
  | loading | authenticated | anonymous
  deriving DecidableEq, Repr

def RENEW_SKEW_MS : Int := 60000

def MAX_FUTILE_RENEWALS : Nat := 2

/-- What is kept under `SSO_ATTEMPTED`, whether it is `1`, and under `RENEW_ATTEMPTS`. -/
structure SessionStorage where
  ssoAttempted : Bool
  renewAttempts : Option Nat
  deriving DecidableEq, Repr

/-- Which accesses to the storage fail; nothing below makes more than one read and one write. -/
structure Faults where
  read : Bool
  write : Bool
  deriving DecidableEq, Repr

def futileRenewals (storage : SessionStorage) (faults : Faults) : Nat :=
  if faults.read then MAX_FUTILE_RENEWALS else storage.renewAttempts.getD 0

def recordFutileRenewal (storage : SessionStorage) (faults : Faults) (count : Nat) : SessionStorage :=
  if faults.write then storage
  else if count = 0 then { storage with renewAttempts := none }
  else { storage with renewAttempts := some count }

def ssoAlreadyAttempted (storage : SessionStorage) (faults : Faults) : Bool :=
  faults.read || storage.ssoAttempted

def rememberSsoAttempt (storage : SessionStorage) (faults : Faults) (value : Bool) : SessionStorage :=
  if faults.write then storage else { storage with ssoAttempted := value }

structure User where
  expiresAt : Option Int
  expired : Bool
  deriving DecidableEq, Repr

inductive RenewalTimer
  | now | later
  deriving DecidableEq, Repr

/-- A page load. `callback` is whether it came with an authorization response, `handling` whether the response is still
in the address bar; `exchanged` whether the response was exchanged. `effect` is whether the renewal effect has yet to run
for the user and the state; `leaving` whether a redirect was started. -/
structure Page where
  callback : Bool
  handling : Bool
  exchanged : Bool
  user : Option User
  state : AuthState
  effect : Bool
  timer : Option RenewalTimer
  leaving : Bool
  deriving DecidableEq, Repr

/-- A tab. `probes` and `renewals` count the redirects with `prompt=none` since the user last did something or a page
last held a token with more than the skew left. -/
structure Tab where
  storage : SessionStorage
  page : Page
  probes : Nat
  renewals : Nat
  deriving DecidableEq, Repr

def Page.load (handling : Bool) : Page where
  callback := handling
  handling := handling
  exchanged := false
  user := none
  state := .loading
  effect := false
  timer := none
  leaving := false

def Page.adopt (page : Page) (next : Option User) : Page :=
  { page with user := next, state := if next.isSome then .authenticated else .anonymous, effect := true }

def Page.redirect (page : Page) (fails : Bool) : Page := { page with leaving := page.leaving || !fails }

def recover (tab : Tab) (existing : Option User) (faults : Faults) (redirectFails : Bool) : Tab :=
  if tab.page.handling then tab
  else if existing.any fun user => !user.expired then
    { tab with storage := rememberSsoAttempt tab.storage faults false, page := tab.page.adopt existing }
  else if !ssoAlreadyAttempted tab.storage faults then
    { tab with
      storage := rememberSsoAttempt tab.storage faults true
      page := if redirectFails then tab.page.adopt none else tab.page.redirect false
      probes := tab.probes + 1 }
  else { tab with page := tab.page.adopt none }

def Page.delay (page : Page) (now : Int) : Option Int :=
  if page.state ≠ .authenticated then none
  else
    match page.user with
    | none => none
    | some user =>
      if page.handling then none
      else
        match user.expiresAt with
        | none => none
        | some expiresAt => if expiresAt = 0 then none else some (expiresAt * 1000 - now - RENEW_SKEW_MS)

def renewalEffect (tab : Tab) (now : Int) (faults : Faults) : Tab :=
  -- the clean-up of the effect's last run clears its timer
  let page := { tab.page with effect := false, timer := none }
  match tab.page.delay now with
  | none => { tab with page := page }
  | some delay =>
    if delay ≤ 0 then
      let attempts := futileRenewals tab.storage faults
      if attempts ≥ MAX_FUTILE_RENEWALS then
        { tab with
          storage := recordFutileRenewal tab.storage faults 0
          page := { page with user := none, state := .anonymous, effect := true } }
      else
        { tab with
          storage := recordFutileRenewal tab.storage faults (attempts + 1)
          page := { page with timer := some .now } }
    else
      { storage := recordFutileRenewal tab.storage faults 0
        page := { page with timer := some .later }
        probes := 0
        renewals := 0 }

def resolveAnonymous (page : Page) : Page :=
  { page with
    user := none
    state := if page.state = .authenticated then .authenticated else .anonymous
    effect := true }

/-- What happens in a tab. `opened`, `login` and `logout` are the user's; `returned` is a page load that an answer of the
identity provider causes. `handling` is whether the page's address has a code or an error. -/
inductive Event
  | opened (handling : Bool) (faults : Faults) (redirectFails : Bool)
  | returned (handling : Bool) (faults : Faults) (redirectFails : Bool)
  | userLoaded (user : User) (faults : Faults)
  | userUnloaded
  | navigated (handling : Bool)
  | resolveAnonymous
  | effect (now : Int) (faults : Faults)
  | timer (redirectFails : Bool)
  | login (faults : Faults) (redirectFails : Bool)
  | logout (faults : Faults) (redirectFails : Bool)
  deriving DecidableEq, Repr

def step (tab : Tab) : Event → Option Tab
  | .opened handling faults redirectFails =>
    some (recover { tab with page := .load handling, probes := 0, renewals := 0 } none faults redirectFails)
  | .returned handling faults redirectFails =>
    if tab.page.leaving then some (recover { tab with page := .load handling } none faults redirectFails) else none
  | .userLoaded user faults =>
    if tab.page.callback && !tab.page.exchanged then
      some { tab with
        storage := rememberSsoAttempt tab.storage faults false
        page := { tab.page.adopt (some user) with exchanged := true } }
    else none
  | .userUnloaded => some { tab with page := tab.page.adopt none }
  | .navigated handling => some { tab with page := { tab.page with handling := handling } }
  | .resolveAnonymous => some { tab with page := UiAuth.resolveAnonymous tab.page }
  | .effect now faults => if tab.page.effect then some (renewalEffect tab now faults) else none
  | .timer redirectFails =>
    match tab.page.timer with
    | none => none
    | some timer => some { tab with
        page := { tab.page.redirect redirectFails with timer := none }
        renewals := if timer = .now then tab.renewals + 1 else tab.renewals }
  | .login faults redirectFails =>
    some {
      storage := rememberSsoAttempt tab.storage faults false
      page := tab.page.redirect redirectFails
      probes := 0
      renewals := 0 }
  | .logout faults redirectFails =>
    some {
      storage := rememberSsoAttempt tab.storage faults true
      page := tab.page.redirect redirectFails
      probes := 0
      renewals := 0 }

end HomelabApps.UiAuth
