import HomelabApps.Auth.Authenticator
import HomelabApps.Library.JsonParse

/-! The issuers a service trusts and the sources of their keys. -/

namespace HomelabApps.Auth

open HomelabApps.Library.Json
open HomelabApps.Library.Utf16

structure StaticKey where
  algorithm : JsString
  value : JsString

structure JwksKey where
  uri : JsString
  algorithms : List JsString

inductive KeyConfig
  | value (key : StaticKey)
  | jwks (key : JwksKey)

structure TrustedIssuer where
  issuer : JsString
  audience : JsString
  key : KeyConfig
  subjectKind : PrincipalKind
  rolesClaim : JsString

def TrustedIssuer.static? (row : TrustedIssuer) : Option (JsString × StaticKey) :=
  match row.key with
  | .value key => some (row.issuer, key)
  | .jwks _ => none

def TrustedIssuer.jwks? (row : TrustedIssuer) : Option (JsString × JwksKey) :=
  match row.key with
  | .value _ => none
  | .jwks key => some (row.issuer, key)

/-- What a `Map` built from these entries has under the key: the last one. -/
def mapGet (entries : List (JsString × α)) (key : JsString) : Option α :=
  (entries.reverse.find? fun e => e.1 = key).map (·.2)

structure KeyLookup where
  issuer : JsString
  kid : Option Parsed
  algorithm : Option JsString

/-- Why a source names no key; an error of another kind says nothing about the token. -/
inductive KeyError (Key : Type)
  | unresolvable (message : JsString)
  | ambiguous (message : JsString) (candidates : List Key)
  | other (message : JsString)

structure IKeySource (Key : Type) where
  getKey : KeyLookup → Except (KeyError Key) Key

inductive JwksError (Key : Type)
  | noMatchingKey (message : JsString)
  | multipleMatchingKeys (message : JsString) (keys : List Key)
  | other (message : JsString)

/-- How keys are made: the bytes of a secret, a public key in PEM, and the remote key set of a row
asked for a header's algorithm and key id. -/
structure KeyMaterial (Key : Type) where
  secret : JsString → Key
  importSPKI : JsString → JsString → Except JsString Key
  resolve : JwksKey → Option JsString → Option Parsed → Except (JwksError Key) Key

variable {Key : Type}

def importStatic (material : KeyMaterial Key) (issuer : JsString) (key : StaticKey) : Except (KeyError Key) Key :=
  if (utf16 "HS").isPrefixOf key.algorithm then .ok (material.secret key.value)
  else
    match material.importSPKI key.value key.algorithm with
    | .ok imported => .ok imported
    | .error cause =>
      .error (.unresolvable (utf16 "Static key for issuer " ++ issuer ++ utf16 " could not be imported: " ++ cause))

def staticKeySource (material : KeyMaterial Key) (issuers : List TrustedIssuer) : IKeySource Key where
  getKey lookup :=
    match mapGet (issuers.filterMap TrustedIssuer.static?) lookup.issuer with
    | none => .error (.unresolvable (utf16 "No static key configured for issuer " ++ lookup.issuer ++ utf16 "."))
    | some key =>
      match lookup.algorithm with
      | none => importStatic material lookup.issuer key
      | some algorithm =>
        if algorithm ≠ key.algorithm then
          .error (.unresolvable (utf16 "Issuer " ++ lookup.issuer ++ utf16 " is configured for " ++ key.algorithm ++
            utf16 ", token used " ++ algorithm ++ utf16 "."))
        else importStatic material lookup.issuer key

def remoteJwksSource (material : KeyMaterial Key) (issuers : List TrustedIssuer) : IKeySource Key where
  getKey lookup :=
    match mapGet (issuers.filterMap TrustedIssuer.jwks?) lookup.issuer with
    | none => .error (.unresolvable (utf16 "No JWKS configured for issuer " ++ lookup.issuer ++ utf16 "."))
    | some key =>
      match material.resolve key lookup.algorithm lookup.kid with
      | .ok resolved => .ok resolved
      | .error (.noMatchingKey message) => .error (.unresolvable message)
      | .error (.multipleMatchingKeys message keys) => .error (.ambiguous message keys)
      | .error (.other message) => .error (.other message)

def createKeySource (material : KeyMaterial Key) (issuers : List TrustedIssuer) : IKeySource Key where
  getKey lookup :=
    if (mapGet (issuers.filterMap TrustedIssuer.static?) lookup.issuer).isSome then
      (staticKeySource material issuers).getKey lookup
    else if (mapGet (issuers.filterMap TrustedIssuer.jwks?) lookup.issuer).isSome then
      (remoteJwksSource material issuers).getKey lookup
    else .error (.unresolvable (utf16 "No key source configured for issuer " ++ lookup.issuer ++ utf16 "."))

inductive IKeySource.Supplies (keys : IKeySource Key) (lookup : KeyLookup) (key : Key) : Prop
  | one : keys.getKey lookup = .ok key → Supplies keys lookup key
  | several : keys.getKey lookup = .error (.ambiguous message candidates) → key ∈ candidates →
      Supplies keys lookup key

inductive Configured (material : KeyMaterial Key) (issuers : List TrustedIssuer) (lookup : KeyLookup) (key : Key) : Prop
  | static : row ∈ issuers → row.issuer = lookup.issuer → row.key = .value config →
      importStatic material lookup.issuer config = .ok key → Configured material issuers lookup key
  | jwks : row ∈ issuers → row.issuer = lookup.issuer → row.key = .jwks config →
      material.resolve config lookup.algorithm lookup.kid = .ok key → Configured material issuers lookup key
  | several : row ∈ issuers → row.issuer = lookup.issuer → row.key = .jwks config →
      material.resolve config lookup.algorithm lookup.kid = .error (.multipleMatchingKeys message keys) → key ∈ keys →
      Configured material issuers lookup key

variable {material : KeyMaterial Key} {issuers : List TrustedIssuer} {lookup : KeyLookup} {key : Key}
  {message issuer : JsString}

theorem mapGet_mem {entries : List (JsString × α)} {value : α} (h : mapGet entries issuer = some value) :
    (issuer, value) ∈ entries := by
  obtain ⟨e, he, rfl⟩ := Option.map_eq_some_iff.mp h
  have hkey : e.1 = issuer := of_decide_eq_true (List.find?_some (p := fun e : JsString × α => e.1 = issuer) he)
  rw [← hkey]
  exact List.mem_reverse.mp (List.mem_of_find?_eq_some he)

theorem static_row {config : StaticKey} (h : mapGet (issuers.filterMap TrustedIssuer.static?) issuer = some config) :
    ∃ row ∈ issuers, row.issuer = issuer ∧ row.key = .value config := by
  obtain ⟨row, hrow, hstatic⟩ := List.mem_filterMap.mp (mapGet_mem h)
  refine ⟨row, hrow, ?_⟩
  rw [TrustedIssuer.static?] at hstatic
  cases hkey : row.key with
  | value key =>
    rw [hkey] at hstatic
    cases hstatic
    exact ⟨rfl, rfl⟩
  | jwks key =>
    rw [hkey] at hstatic
    cases hstatic

theorem jwks_row {config : JwksKey} (h : mapGet (issuers.filterMap TrustedIssuer.jwks?) issuer = some config) :
    ∃ row ∈ issuers, row.issuer = issuer ∧ row.key = .jwks config := by
  obtain ⟨row, hrow, hjwks⟩ := List.mem_filterMap.mp (mapGet_mem h)
  refine ⟨row, hrow, ?_⟩
  rw [TrustedIssuer.jwks?] at hjwks
  cases hkey : row.key with
  | value key =>
    rw [hkey] at hjwks
    cases hjwks
  | jwks key =>
    rw [hkey] at hjwks
    cases hjwks
    exact ⟨rfl, rfl⟩

theorem importStatic_error {config : StaticKey} {error : KeyError Key}
    (h : importStatic material issuer config = .error error) : ∃ message, error = .unresolvable message := by
  rw [importStatic] at h
  split_ifs at h
  split at h
  · cases h
  · cases h
    exact ⟨_, rfl⟩

theorem static_ok (h : (staticKeySource material issuers).getKey lookup = .ok key) :
    Configured material issuers lookup key := by
  simp only [staticKeySource] at h
  cases hconfig : mapGet (issuers.filterMap TrustedIssuer.static?) lookup.issuer with
  | none =>
    rw [hconfig] at h
    cases h
  | some config =>
    obtain ⟨row, hrow, hissuer, hkey⟩ := static_row hconfig
    simp only [hconfig] at h
    split at h
    · exact .static hrow hissuer hkey h
    · split_ifs at h
      exact .static hrow hissuer hkey h

theorem static_error {error : KeyError Key} (h : (staticKeySource material issuers).getKey lookup = .error error) :
    ∃ message, error = .unresolvable message := by
  simp only [staticKeySource] at h
  cases hconfig : mapGet (issuers.filterMap TrustedIssuer.static?) lookup.issuer with
  | none =>
    rw [hconfig] at h
    cases h
    exact ⟨_, rfl⟩
  | some config =>
    simp only [hconfig] at h
    split at h
    · exact importStatic_error h
    · split_ifs at h
      · cases h
        exact ⟨_, rfl⟩
      · exact importStatic_error h

theorem remote_supplies (h : (remoteJwksSource material issuers).Supplies lookup key) :
    Configured material issuers lookup key := by
  cases hconfig : mapGet (issuers.filterMap TrustedIssuer.jwks?) lookup.issuer with
  | none => cases h with
    | one h => simp [remoteJwksSource, hconfig] at h
    | several h _ => simp [remoteJwksSource, hconfig] at h
  | some config =>
    obtain ⟨row, hrow, hissuer, hkey⟩ := jwks_row hconfig
    cases h with
    | one h =>
      simp only [remoteJwksSource, hconfig] at h
      split at h
      · next resolved hresolve =>
        cases h
        exact .jwks hrow hissuer hkey hresolve
      · cases h
      · cases h
      · cases h
    | several h hmem =>
      simp only [remoteJwksSource, hconfig] at h
      split at h
      · cases h
      · cases h
      · next hresolve =>
        cases h
        exact .several hrow hissuer hkey hresolve hmem
      · cases h

theorem remote_other (h : (remoteJwksSource material issuers).getKey lookup = .error (.other message)) :
    ∃ row ∈ issuers, row.issuer = lookup.issuer ∧ ∃ config, row.key = .jwks config ∧
      material.resolve config lookup.algorithm lookup.kid = .error (.other message) := by
  cases hconfig : mapGet (issuers.filterMap TrustedIssuer.jwks?) lookup.issuer with
  | none => simp [remoteJwksSource, hconfig] at h
  | some config =>
    obtain ⟨row, hrow, hissuer, hkey⟩ := jwks_row hconfig
    refine ⟨row, hrow, hissuer, config, hkey, ?_⟩
    simp only [remoteJwksSource, hconfig] at h
    split at h
    · cases h
    · cases h
    · cases h
    · next hresolve =>
      cases h
      exact hresolve

theorem createKeySource_supplies (h : (createKeySource material issuers).Supplies lookup key) :
    Configured material issuers lookup key := by
  by_cases hstatic : (mapGet (issuers.filterMap TrustedIssuer.static?) lookup.issuer).isSome
  · cases h with
    | one h =>
      simp only [createKeySource, if_pos hstatic] at h
      exact static_ok h
    | several h _ =>
      simp only [createKeySource, if_pos hstatic] at h
      obtain ⟨message, hmessage⟩ := static_error h
      cases hmessage
  · by_cases hjwks : (mapGet (issuers.filterMap TrustedIssuer.jwks?) lookup.issuer).isSome
    · apply remote_supplies
      cases h with
      | one h => exact .one (by simpa only [createKeySource, if_neg hstatic, if_pos hjwks] using h)
      | several h hmem => exact .several (by simpa only [createKeySource, if_neg hstatic, if_pos hjwks] using h) hmem
    · cases h with
      | one h => simp [createKeySource, if_neg hstatic, if_neg hjwks] at h
      | several h _ => simp [createKeySource, if_neg hstatic, if_neg hjwks] at h

theorem createKeySource_other (h : (createKeySource material issuers).getKey lookup = .error (.other message)) :
    ∃ row ∈ issuers, row.issuer = lookup.issuer ∧ ∃ config, row.key = .jwks config ∧
      material.resolve config lookup.algorithm lookup.kid = .error (.other message) := by
  simp only [createKeySource] at h
  split_ifs at h with hstatic hjwks
  · obtain ⟨message, hmessage⟩ := static_error h
    cases hmessage
  · exact remote_other h
  · cases h

end HomelabApps.Auth
