import HomelabApps.Auth.KeySource
import HomelabApps.Library.JsonAccess

namespace HomelabApps.Auth

open HomelabApps.Library.Json
open HomelabApps.Library.Utf16

abbrev JWTPayload := JsString → Option Parsed

structure ProtectedHeader where
  alg : Option Parsed
  kid : Option Parsed

structure VerifyOptions where
  issuer : JsString
  audience : JsString
  algorithms : List JsString
  requiredClaims : List JsString

inductive JoseError
  | signatureVerificationFailed (message : JsString)
  | claimValidationFailed (claim message : JsString)
  | other (message : JsString)

structure Jose (Key : Type) where
  decodeJwt : Credential → Except JsString JWTPayload
  decodeProtectedHeader : Credential → Except JsString ProtectedHeader
  jwtVerify : Credential → Key → VerifyOptions → Except JoseError JWTPayload

def invalid (message : JsString) : VerificationOutcome := .refused ⟨⟨.invalid, by decide⟩, some message⟩

def algorithmsFor (row : TrustedIssuer) : List JsString :=
  match row.key with
  | .value key => [key.algorithm]
  | .jwks key => key.algorithms

def displayName (payload : JWTPayload) : Option JsString :=
  match payload (utf16 "preferred_username") with
  | some (.string name) => some name
  | _ => none

def stringOf? : Parsed → Option JsString
  | .string s => some s
  | _ => none

def rolesFrom (payload : JWTPayload) (claim : JsString) : List JsString :=
  match payload claim with
  | some (.array entries) => entries.filterMap stringOf?
  | _ => []

def toPrincipal (payload : JWTPayload) (subject : JsString) (row : TrustedIssuer) : Principal where
  subject
  kind := row.subjectKind
  displayName := displayName payload
  roles := rolesFrom payload row.rolesClaim
  issuer := row.issuer

/-- `Authorization: Bearer <token>`, the scheme in any case. -/
def extract (source : CredentialSource) : Option Credential := do
  let header ← source (utf16 "authorization")
  if !isNotEmpty header then none
  let scheme :: rest := (header.splitOnP isWhitespace).filter (· ≠ []) | none
  let lower := scheme.map fun u => if 0x41 ≤ u ∧ u ≤ 0x5A then u + 0x20 else u
  if lower ≠ utf16 "bearer" ∨ rest = [] then none
  else some ((utf16 " ").intercalate rest)

def rowFor (issuers : List TrustedIssuer) (issuer : Parsed) : Option TrustedIssuer :=
  match issuer with
  | .string s => mapGet (issuers.map fun row => (row.issuer, row)) s
  | _ => none

def allowedAlgorithm (row : TrustedIssuer) (alg : Option Parsed) : Option JsString :=
  match alg with
  | some (.string a) => if isNotEmpty a && (algorithmsFor row).contains a then some a else none
  | _ => none

def shownAlgorithm : Option Parsed → Except TypeError JsString
  | none => .ok (utf16 "(none)")
  | some .null => .ok (utf16 "(none)")
  | some alg => interpolate alg

inductive Selection
  | refused (outcome : VerificationOutcome)
  | selected (row : TrustedIssuer) (lookup : KeyLookup)

variable {Key : Type}

def select (jose : Jose Key) (issuers : List TrustedIssuer) (credential : Credential) : Except TypeError Selection :=
  if !isNotEmpty (trim credential) then .ok (.refused (.refused ⟨⟨.missing, by decide⟩, none⟩))
  else
    match jose.decodeJwt credential with
    | .error message => .ok (.refused (invalid message))
    | .ok payload =>
      match jose.decodeProtectedHeader credential with
      | .error message => .ok (.refused (invalid message))
      | .ok header =>
        match payload (utf16 "iss") with
        | none => .ok (.refused (invalid (utf16 "token carries no iss claim")))
        | some issuer =>
          match rowFor issuers issuer with
          | none => do
            let shown ← interpolate issuer
            return .refused (.refused ⟨⟨.unknownIssuer, by decide⟩, some (utf16 "no trusted issuer matches " ++ shown)⟩)
          | some row =>
            match allowedAlgorithm row header.alg with
            | none => do
              let shown ← shownAlgorithm header.alg
              return .refused (invalid (utf16 "token algorithm " ++ shown ++ utf16 " is not allowed for " ++ row.issuer))
            | some algorithm => .ok (.selected row ⟨row.issuer, header.kid, some algorithm⟩)

def verifyOptions (row : TrustedIssuer) : VerifyOptions where
  issuer := row.issuer
  audience := row.audience
  algorithms := algorithmsFor row
  requiredClaims := [utf16 "exp"]

/-- The loop over the candidates: a signature that does not verify says only "not this key". -/
def tryKeys (jose : Jose Key) (row : TrustedIssuer) (credential : Credential) :
    List Key → VerificationOutcome → VerificationOutcome
  | [], refusal => refusal
  | key :: candidates, refusal =>
    match jose.jwtVerify credential key (verifyOptions row) with
    | .ok payload =>
      match payload (utf16 "sub") with
      | some (.string sub) =>
        if isNotEmpty sub then .verified (toPrincipal payload sub row)
        else invalid (utf16 "token carries no sub claim")
      | _ => invalid (utf16 "token carries no sub claim")
    | .error (.signatureVerificationFailed message) => tryKeys jose row credential candidates (invalid message)
    | .error (.claimValidationFailed claim message) =>
      if claim = utf16 "aud" then .refused ⟨⟨.wrongAudience, by decide⟩, some message⟩ else invalid message
    | .error (.other message) => invalid message

def verify (jose : Jose Key) (issuers : List TrustedIssuer) (keys : IKeySource Key) (credential : Credential) :
    Except TypeError VerificationOutcome := do
  match ← select jose issuers credential with
  | .refused outcome => return outcome
  | .selected row lookup =>
    let refusal := invalid (utf16 "no candidate key verifies the signature")
    match keys.getKey lookup with
    | .ok key => return tryKeys jose row credential [key] refusal
    | .error (.ambiguous _ candidates) => return tryKeys jose row credential candidates refusal
    | .error (.unresolvable message) => return invalid message
    | .error (.other message) => return .refused ⟨⟨.indeterminate, by decide⟩, some message⟩

end HomelabApps.Auth
