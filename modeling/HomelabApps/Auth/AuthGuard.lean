import HomelabApps.Auth.Authenticator
import HomelabApps.Library.JsonParse

namespace HomelabApps.Auth

open HomelabApps.Library.Json
open HomelabApps.Library.Utf16

def encodeMethods (methods : List JsString) : JsString := (Value.array (methods.map .string)).text

def methodOf? : Parsed → Option JsString
  | .string m => if isNotEmpty m then some m else none
  | _ => none

def decodeMethods (encoded : Option JsString) : List JsString :=
  match encoded with
  | none => []
  | some text =>
    if isNotEmpty text then
      match parse text with
      | some (.array items) => items.filterMap methodOf?
      | _ => []
    else []

structure AuthGuardOptions where
  anonymous : Option Bool := none
  methods : Option JsString := none
  roles : Option (List (List JsString)) := none

def AuthGuardOptions.merge (options more : AuthGuardOptions) : AuthGuardOptions where
  anonymous := more.anonymous.or options.anonymous
  methods := more.methods.or options.methods
  roles := options.roles.merge (· ++ ·) more.roles

def mergeOptions (all : List AuthGuardOptions) : AuthGuardOptions := all.foldl AuthGuardOptions.merge {}

inductive Decorator
  | authenticate (methods : List JsString)
  | requireRoles (roles : List JsString)
  | anonymous
  deriving DecidableEq

def Decorator.options : Decorator → AuthGuardOptions
  | .authenticate methods => { methods := some (encodeMethods methods) }
  | .requireRoles roles => { roles := some [roles] }
  | .anonymous => { anonymous := some true }

structure Route where
  controller : List Decorator
  handler : List Decorator

def Route.decorators (route : Route) : List Decorator := route.controller ++ route.handler

/-- What the endpoint's store holds for the guard: nothing without a decorator, and then the
endpoint runs without the guard. -/
def Route.options (route : Route) : Option AuthGuardOptions :=
  if route.decorators = [] then none else some (mergeOptions (route.decorators.map Decorator.options))

structure PlatformContext where
  endpoint : Option AuthGuardOptions
  source : CredentialSource
  principal : Option Principal

inductive GuardError
  | configuration (message : JsString)
  | type
  | serviceUnavailable (message : JsString)
  | unauthorized (message : JsString)
  | forbidden (message : JsString)

def GuardError.status : GuardError → Nat
  | .configuration _ => 500
  | .type => 500
  | .serviceUnavailable _ => 503
  | .unauthorized _ => 401
  | .forbidden _ => 403

def GuardError.ofAuth : AuthError → GuardError
  | .configuration message => .configuration message
  | .type => .type

/-- "And" across the requirements, "or" within one; an empty one is satisfied by anyone. -/
def satisfies (principal : Principal) (requirements : List (List JsString)) : Bool :=
  requirements.all fun anyOf => anyOf.isEmpty || anyOf.any fun role => principal.roles.contains role

def exceptionFor (reason : RefusalReason) : GuardError :=
  if reason.val = .indeterminate then
    .serviceUnavailable (utf16 "Authentication is temporarily unavailable.")
  else .unauthorized (utf16 "Authentication required.")

def use (verifiers : AuthVerifiers) (ctx : PlatformContext) : PlatformContext × Except GuardError Unit :=
  if ctx.endpoint.bind (·.anonymous) = some true then (ctx, .ok ())
  else
    let methods := decodeMethods (ctx.endpoint.bind (·.methods))
    if methods = [] then
      (ctx, .error (.configuration
        (utf16 "AuthGuard ran on an endpoint with no auth method; use @Authenticate(method) or @Anonymous().")))
    else
      match authenticate verifiers ctx.source methods with
      | .error e => (ctx, .error (.ofAuth e))
      | .ok (.refused reason _ _) => (ctx, .error (exceptionFor reason))
      | .ok (.allowed principal) =>
        let ctx' := { ctx with principal := some principal }
        match ctx.endpoint.bind (·.roles) with
        | none => (ctx', .ok ())
        | some roles =>
          if satisfies principal roles then (ctx', .ok ())
          else (ctx', .error (.forbidden (utf16 "Insufficient permissions.")))

inductive Response
  | handler (principal : Option Principal)
  | refused (error : GuardError)

def respond (verifiers : AuthVerifiers) (route : Route) (source : CredentialSource) : Response :=
  match route.options with
  | none => .handler none
  | some options =>
    match use verifiers { endpoint := some options, source, principal := none } with
    | (ctx, .ok ()) => .handler ctx.principal
    | (_, .error e) => .refused e

end HomelabApps.Auth
