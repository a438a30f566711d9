import HomelabApps.Auth.JwtVerifier
import HomelabApps.Library.Lists

namespace HomelabApps.Auth

open HomelabApps.Library
open HomelabApps.Library.Json
open HomelabApps.Library.Utf16

structure TokenFacts (Key : Type) where
  signedWith : Credential → Key → Prop
  issuedBy : Credential → JsString → Prop
  meantFor : Credential → JsString → Prop
  carries : Credential → JsString → Prop
  inTime : Credential → Prop

/-- The library accepts exactly when signature and claims hold, and looks at the claims only after
the signature. -/
structure Jose.Lawful (jose : Jose Key) (facts : TokenFacts Key) : Prop where
  mismatch : ∀ token key row, ¬ facts.signedWith token key →
    ∃ message, jose.jwtVerify token key (verifyOptions row) = .error (.signatureVerificationFailed message)
  claims_after : ∀ token key row message, facts.signedWith token key →
    jose.jwtVerify token key (verifyOptions row) ≠ .error (.signatureVerificationFailed message)
  accepts : ∀ token key row, (∃ payload, jose.jwtVerify token key (verifyOptions row) = .ok payload) ↔
    facts.signedWith token key ∧ facts.issuedBy token row.issuer ∧ facts.meantFor token row.audience ∧
      facts.carries token (utf16 "exp") ∧ facts.inTime token

structure Names (jose : Jose Key) (token : Credential) (issuer : JsString) (kid : Option Parsed) (alg : JsString) :
    Prop where
  issuer : ∃ payload, jose.decodeJwt token = .ok payload ∧ payload (utf16 "iss") = some (.string issuer)
  header : jose.decodeProtectedHeader token = .ok ⟨some (.string alg), kid⟩

structure Admits (jose : Jose Key) (row : TrustedIssuer) (token : Credential) (key : Key) (principal : Principal) :
    Prop where
  subject : ∃ payload sub, jose.jwtVerify token key (verifyOptions row) = .ok payload ∧
    payload (utf16 "sub") = some (.string sub) ∧ isNotEmpty sub = true ∧ principal = toPrincipal payload sub row

section

variable {Key : Type} {jose : Jose Key} {facts : TokenFacts Key} {issuers : List TrustedIssuer}
  {keys : IKeySource Key} {row : TrustedIssuer} {lookup : KeyLookup} {credential : Credential}
  {candidates : List Key} {key : Key} {refusal refusal' : VerificationOutcome} {outcome : RefusedOutcome}
  {principal : Principal} {message : JsString}

theorem tryKeys_mismatch (lawful : jose.Lawful facts) (row : TrustedIssuer) (candidates : List Key)
    (refusal : VerificationOutcome) (h : ¬ facts.signedWith credential key) :
    ∃ message, tryKeys jose row credential (key :: candidates) refusal =
      tryKeys jose row credential candidates (invalid message) := by
  obtain ⟨message, hverify⟩ := lawful.mismatch credential key row h
  exact ⟨message, by rw [tryKeys, hverify]⟩

theorem tryKeys_match (lawful : jose.Lawful facts) (h : facts.signedWith credential key) :
    tryKeys jose row credential (key :: candidates) refusal = tryKeys jose row credential [key] refusal' := by
  rw [tryKeys, tryKeys]
  cases hverify : jose.jwtVerify credential key (verifyOptions row) with
  | ok payload => rfl
  | error error =>
    cases error with
    | signatureVerificationFailed message => exact absurd hverify (lawful.claims_after _ _ _ _ h)
    | claimValidationFailed claim message => rfl
    | other message => rfl

theorem tryKeys_of_mem (lawful : jose.Lawful facts)
    (hunique : ∀ k ∈ candidates, ∀ k' ∈ candidates, facts.signedWith credential k → facts.signedWith credential k' → k = k')
    (hkey : key ∈ candidates) (h : facts.signedWith credential key) :
    tryKeys jose row credential candidates refusal = tryKeys jose row credential [key] refusal' := by
  induction candidates generalizing refusal with
  | nil => exact absurd hkey List.not_mem_nil
  | cons k candidates ih =>
    by_cases hk : facts.signedWith credential k
    · obtain rfl := hunique k List.mem_cons_self key hkey hk h
      exact tryKeys_match lawful hk
    · have hrest : key ∈ candidates := by
        refine (List.mem_cons.mp hkey).resolve_left ?_
        rintro rfl
        exact hk h
      obtain ⟨message, hskip⟩ := tryKeys_mismatch lawful row candidates refusal hk
      rw [hskip]
      refine ih (fun a ha b hb => ?_) hrest
      exact hunique a (List.mem_cons_of_mem k ha) b (List.mem_cons_of_mem k hb)

theorem tryKeys_none (lawful : jose.Lawful facts) (row : TrustedIssuer) (h : ∀ k ∈ candidates, ¬ facts.signedWith credential k)
    (hrefusal : ∃ message, refusal = invalid message) :
    ∃ message, tryKeys jose row credential candidates refusal = invalid message := by
  induction candidates generalizing refusal with
  | nil => exact hrefusal
  | cons k candidates ih =>
    obtain ⟨message, hskip⟩ := tryKeys_mismatch lawful row candidates refusal (h k List.mem_cons_self)
    rw [hskip]
    exact ih (fun a ha => h a (List.mem_cons_of_mem k ha)) ⟨message, rfl⟩

theorem tryKeys_cases (jose : Jose Key) (row : TrustedIssuer) (credential : Credential) (candidates : List Key)
    (hrefusal : ∃ message, refusal = invalid message) :
    (∃ key ∈ candidates, ∃ principal, Admits jose row credential key principal ∧
      tryKeys jose row credential candidates refusal = .verified principal) ∨
    ∃ outcome, tryKeys jose row credential candidates refusal = .refused outcome ∧
      outcome.reason.val ≠ .indeterminate := by
  induction candidates generalizing refusal with
  | nil =>
    obtain ⟨message, rfl⟩ := hrefusal
    exact .inr ⟨_, rfl, by simp⟩
  | cons key candidates ih =>
    rw [tryKeys]
    split
    · next payload hverify =>
      split
      · next sub hsub =>
        split_ifs with hempty
        · exact .inl ⟨key, List.mem_cons_self, _, ⟨payload, sub, hverify, hsub, hempty, rfl⟩, rfl⟩
        · exact .inr ⟨_, rfl, by simp⟩
      · exact .inr ⟨_, rfl, by simp⟩
    · next message hverify =>
      rcases ih ⟨message, (rfl : invalid message = invalid message)⟩ with ⟨key, hkey, principal, hadmits, htry⟩ | hrefused
      · exact .inl ⟨key, List.mem_cons_of_mem _ hkey, principal, hadmits, htry⟩
      · exact .inr hrefused
    · split_ifs
      · exact .inr ⟨_, rfl, by simp⟩
      · exact .inr ⟨_, rfl, by simp⟩
    · exact .inr ⟨_, rfl, by simp⟩

theorem mapGet_rows {issuer : JsString} (h : mapGet (issuers.map fun row => (row.issuer, row)) issuer = some row) :
    row ∈ issuers ∧ row.issuer = issuer := by
  obtain ⟨row', hrow, heq⟩ := List.mem_map.mp (mapGet_mem h)
  cases heq
  exact ⟨hrow, rfl⟩

theorem allowedAlgorithm_eq {alg : Option Parsed} {algorithm : JsString} (h : allowedAlgorithm row alg = some algorithm) :
    alg = some (.string algorithm) ∧ algorithm ∈ algorithmsFor row := by
  unfold allowedAlgorithm at h
  split at h
  · split_ifs at h with hallowed
    cases h
    exact ⟨rfl, List.contains_iff_mem.mp (Bool.and_eq_true_iff.mp hallowed).2⟩
  · cases h

theorem extract_some {source : CredentialSource} (h : extract source = some credential) :
    ∃ (header scheme : JsString) (rest : List JsString), (header.splitOnP isWhitespace).filter (· ≠ []) = scheme :: rest ∧
      rest ≠ [] ∧ credential = (utf16 " ").intercalate rest := by
  rw [extract, Option.bind_eq_bind, Option.bind_eq_some_iff] at h
  obtain ⟨header, -, h⟩ := h
  cases hheader : isNotEmpty header with
  | false => simp [hheader] at h
  | true =>
    cases hparts : (header.splitOnP isWhitespace).filter (· ≠ []) with
    | nil =>
      simp only [hheader, hparts, Bool.not_true, Bool.false_eq_true, if_false] at h
      cases h
    | cons scheme rest =>
      simp only [hheader, hparts, Bool.not_true, Bool.false_eq_true, if_false] at h
      obtain ⟨hbearer, h⟩ := Option.ite_none_left_eq_some.mp h
      exact ⟨header, scheme, rest, hparts, fun hrest => hbearer (.inr hrest), (Option.some.inj h).symm⟩

theorem isNotEmpty_of_extract {source : CredentialSource} (h : extract source = some credential) :
    isNotEmpty (trim credential) = true := by
  obtain ⟨header, scheme, rest, hparts, hrest, rfl⟩ := extract_some h
  obtain ⟨part, parts, rfl⟩ := List.exists_cons_of_ne_nil hrest
  have hpart : part ∈ (header.splitOnP isWhitespace).filter (· ≠ []) := by
    rw [hparts]
    exact List.mem_cons_of_mem scheme List.mem_cons_self
  obtain ⟨hmem, hne⟩ := List.mem_filter.mp hpart
  obtain ⟨u, units, rfl⟩ := List.exists_cons_of_ne_nil (of_decide_eq_true hne)
  have hu : isWhitespace u = false := eq_false_of_mem_splitOnP hmem List.mem_cons_self
  rw [isNotEmpty_trim, isNotEmpty_iff]
  refine ⟨u, ?_, hu⟩
  cases parts with
  | nil => exact List.mem_cons_self
  | cons part parts =>
    rw [List.intercalate_cons_cons]
    exact List.mem_cons_self

theorem select_selected (h : select jose issuers credential = .ok (.selected row lookup)) :
    row ∈ issuers ∧ ∃ kid alg, lookup = ⟨row.issuer, kid, some alg⟩ ∧ alg ∈ algorithmsFor row ∧
      Names jose credential row.issuer kid alg := by
  rw [select] at h
  split_ifs at h
  · cases h
  split at h
  · cases h
  next payload hpayload =>
  split at h
  · cases h
  next header hheader =>
  split at h
  · cases h
  next issuer hissuer =>
  split at h
  · cases hshown : interpolate issuer <;> simp [hshown, bind, Except.bind, pure, Except.pure] at h
  next row' hrow =>
  split at h
  · cases hshown : shownAlgorithm header.alg <;> simp [hshown, bind, Except.bind, pure, Except.pure] at h
  next algorithm halgorithm =>
  cases h
  unfold rowFor at hrow
  split at hrow
  · obtain ⟨hmem, hname⟩ := mapGet_rows hrow
    obtain ⟨halg, hallowed⟩ := allowedAlgorithm_eq halgorithm
    refine ⟨hmem, header.kid, algorithm, rfl, hallowed, ⟨payload, hpayload, by rw [hissuer, hname]⟩, ?_⟩
    rw [hheader, ← halg]
  · cases hrow

theorem select_refused {result : VerificationOutcome} (h : select jose issuers credential = .ok (.refused result)) :
    ∃ outcome, result = .refused outcome ∧ outcome.reason.val ≠ .indeterminate := by
  rw [select] at h
  split_ifs at h
  · cases h
    exact ⟨_, rfl, by simp⟩
  split at h
  · cases h
    exact ⟨_, rfl, by simp⟩
  split at h
  · cases h
    exact ⟨_, rfl, by simp⟩
  next header hheader =>
  split at h
  · cases h
    exact ⟨_, rfl, by simp⟩
  next issuer hissuer =>
  split at h
  · cases hshown : interpolate issuer with
    | error thrown => simp [hshown, bind, Except.bind] at h
    | ok shown =>
      simp only [hshown, bind, Except.bind, pure, Except.pure] at h
      cases h
      exact ⟨_, rfl, by simp⟩
  split at h
  · cases hshown : shownAlgorithm header.alg with
    | error thrown => simp [hshown, bind, Except.bind] at h
    | ok shown =>
      simp only [hshown, bind, Except.bind, pure, Except.pure] at h
      cases h
      exact ⟨_, rfl, by simp⟩
  · cases h

/-- Only who sends no bearer token has sent none. -/
theorem select_missing_iff {source : CredentialSource} :
    select jose issuers ((extract source).getD []) = .ok (.refused (.refused ⟨⟨.missing, by decide⟩, none⟩)) ↔
      extract source = none := by
  constructor
  · intro h
    cases hextract : extract source with
    | none => rfl
    | some credential =>
      rw [hextract, Option.getD_some, select, isNotEmpty_of_extract hextract, Bool.not_true,
        if_neg Bool.false_ne_true] at h
      split at h
      · cases h
      split at h
      · cases h
      next header hheader =>
      split at h
      · cases h
      next issuer hissuer =>
      split at h
      · cases hshown : interpolate issuer <;> simp [hshown, bind, Except.bind, pure, Except.pure] at h
      split at h
      · cases hshown : shownAlgorithm header.alg <;> simp [hshown, bind, Except.bind, pure, Except.pure, invalid] at h
      · cases h
  · intro h
    rw [h]
    rfl

theorem verify_cases {result : VerificationOutcome} (h : verify jose issuers keys credential = .ok result) :
    (∃ outcome, result = .refused outcome ∧ outcome.reason.val ≠ .indeterminate) ∨
    ∃ row lookup, select jose issuers credential = .ok (.selected row lookup) ∧
      ((∃ key, keys.Supplies lookup key ∧ ∃ principal, Admits jose row credential key principal ∧
          result = .verified principal) ∨
        ∃ message, keys.getKey lookup = .error (.other message) ∧
          result = .refused ⟨⟨.indeterminate, by decide⟩, some message⟩) := by
  rw [verify] at h
  cases hselect : select jose issuers credential with
  | error thrown => simp [hselect, bind, Except.bind] at h
  | ok selection =>
    rw [hselect] at h
    cases selection with
    | refused early =>
      cases h
      exact .inl (select_refused hselect)
    | selected row lookup =>
      simp only [bind, Except.bind, pure, Except.pure] at h
      cases hkey : keys.getKey lookup with
      | ok key =>
        simp only [hkey] at h
        cases h
        rcases tryKeys_cases jose row credential [key] ⟨_, rfl⟩ with ⟨key', hmem, principal, hadmits, htry⟩ | hrefused
        · obtain rfl := List.mem_singleton.mp hmem
          exact .inr ⟨row, lookup, rfl, .inl ⟨key', .one hkey, principal, hadmits, htry⟩⟩
        · exact .inl hrefused
      | error error =>
        cases error with
        | unresolvable message =>
          simp only [hkey] at h
          cases h
          exact .inl ⟨_, rfl, by simp⟩
        | ambiguous message candidates =>
          simp only [hkey] at h
          cases h
          rcases tryKeys_cases jose row credential candidates ⟨_, rfl⟩ with ⟨key, hmem, principal, hadmits, htry⟩ | hrefused
          · exact .inr ⟨row, lookup, rfl, .inl ⟨key, .several hkey hmem, principal, hadmits, htry⟩⟩
          · exact .inl hrefused
        | other message =>
          simp only [hkey] at h
          cases h
          exact .inr ⟨row, lookup, rfl, .inr ⟨message, hkey, rfl⟩⟩

theorem verify_ambiguous (hselect : select jose issuers credential = .ok (.selected row lookup))
    (hkeys : keys.getKey lookup = .error (.ambiguous message candidates)) :
    verify jose issuers keys credential = .ok (tryKeys jose row credential candidates
      (invalid (utf16 "no candidate key verifies the signature"))) := by
  rw [verify, hselect]
  simp only [bind, Except.bind, hkeys]
  rfl

theorem verify_one (hselect : select jose issuers credential = .ok (.selected row lookup))
    (hkeys : keys.getKey lookup = .ok key) :
    verify jose issuers keys credential = .ok (tryKeys jose row credential [key]
      (invalid (utf16 "no candidate key verifies the signature"))) := by
  rw [verify, hselect]
  simp only [bind, Except.bind, hkeys]
  rfl

end

theorem verify_sound (jose : Jose Key) (facts : TokenFacts Key) (lawful : jose.Lawful facts)
    (issuers : List TrustedIssuer) (keys : IKeySource Key) (credential : Credential) :
    (∀ principal, verify jose issuers keys credential = .ok (.verified principal) →
      ∃ row ∈ issuers, ∃ kid alg key, Names jose credential row.issuer kid alg ∧ alg ∈ algorithmsFor row ∧
        keys.Supplies ⟨row.issuer, kid, some alg⟩ key ∧ facts.signedWith credential key ∧
        facts.meantFor credential row.audience ∧ facts.carries credential (utf16 "exp") ∧ facts.inTime credential ∧
        Admits jose row credential key principal) ∧
    (∀ row lookup message candidates, select jose issuers credential = .ok (.selected row lookup) →
      keys.getKey lookup = .error (.ambiguous message candidates) →
      (∀ k ∈ candidates, ∀ k' ∈ candidates, facts.signedWith credential k → facts.signedWith credential k' → k = k') →
      (∀ key ∈ candidates, facts.signedWith credential key →
        verify jose issuers keys credential = verify jose issuers { getKey := fun _ => .ok key } credential) ∧
      ((∀ key ∈ candidates, ¬ facts.signedWith credential key) →
        ∃ message, verify jose issuers keys credential = .ok (invalid message))) ∧
    (∀ outcome, verify jose issuers keys credential = .ok (.refused outcome) → outcome.reason.val = .indeterminate →
      ∃ row lookup message, select jose issuers credential = .ok (.selected row lookup) ∧
        keys.getKey lookup = .error (.other message)) ∧
    (∀ material, keys = createKeySource material issuers →
      (∀ lookup key, keys.Supplies lookup key → Configured material issuers lookup key) ∧
      ∀ lookup message, keys.getKey lookup = .error (.other message) →
        ∃ row ∈ issuers, row.issuer = lookup.issuer ∧ ∃ config, row.key = .jwks config ∧
          material.resolve config lookup.algorithm lookup.kid = .error (.other message)) := by
  refine ⟨fun principal hverify => ?_, fun row lookup message candidates hselect hkeys hunique => ⟨?_, ?_⟩, ?_, ?_⟩
  · rcases verify_cases hverify with ⟨outcome, hrefused, -⟩ | ⟨row, lookup, hselect, hfound | ⟨message, -, hrefused⟩⟩
    · cases hrefused
    · obtain ⟨key, hsupplied, principal', hadmits, hprincipal⟩ := hfound
      cases hprincipal
      obtain ⟨hrow, kid, alg, rfl, hallowed, hnames⟩ := select_selected hselect
      have ⟨payload, _, hpayload, _⟩ := hadmits.subject
      obtain ⟨hsigned, -, hmeant, hcarries, htime⟩ := (lawful.accepts _ _ _).mp ⟨payload, hpayload⟩
      exact ⟨row, hrow, kid, alg, key, hnames, hallowed, hsupplied, hsigned, hmeant, hcarries, htime, hadmits⟩
    · cases hrefused
  · intro key hkey hsigned
    rw [verify_ambiguous hselect hkeys, verify_one hselect rfl, tryKeys_of_mem lawful hunique hkey hsigned]
  · intro hnone
    obtain ⟨message, htry⟩ := tryKeys_none lawful row hnone ⟨_, rfl⟩
    exact ⟨message, by rw [verify_ambiguous hselect hkeys, htry]⟩
  · intro outcome hverify hindeterminate
    rcases verify_cases hverify with ⟨outcome', hrefused, hother⟩ |
      ⟨row, lookup, hselect, ⟨_, _, _, _, hverified⟩ | ⟨message, hkeys, -⟩⟩
    · cases hrefused
      exact absurd hindeterminate hother
    · cases hverified
    · exact ⟨row, lookup, message, hselect, hkeys⟩
  · rintro material rfl
    exact ⟨fun lookup key => createKeySource_supplies, fun lookup message => createKeySource_other⟩

def rotatingRow : TrustedIssuer where
  issuer := utf16 "https://idp"
  audience := utf16 "api"
  key := .jwks { uri := utf16 "https://idp/jwks", algorithms := [utf16 "RS256"] }
  subjectKind := .human
  rolesClaim := utf16 "roles"

def rotatingPayload : JWTPayload := fun claim =>
  if claim = utf16 "iss" then some (.string (utf16 "https://idp"))
  else if claim = utf16 "sub" then some (.string (utf16 "jane"))
  else if claim = utf16 "aud" then some (.string (utf16 "api"))
  else if claim = utf16 "exp" then some (.number (utf16 "4102444800"))
  else none

def rotatingJose : Jose Bool where
  decodeJwt _ := .ok rotatingPayload
  decodeProtectedHeader _ := .ok { alg := some (.string (utf16 "RS256")), kid := none }
  jwtVerify _ key options :=
    if key = false then .error (.signatureVerificationFailed (utf16 "signature verification failed"))
    else if options.issuer = utf16 "https://idp" ∧ options.audience = utf16 "api" ∧
        ∀ claim ∈ options.requiredClaims, claim = utf16 "exp" then .ok rotatingPayload
    else .error (.claimValidationFailed (utf16 "aud") (utf16 "unexpected claim value"))

def rotatingFacts : TokenFacts Bool where
  signedWith _ key := key = true
  issuedBy _ issuer := issuer = utf16 "https://idp"
  meantFor _ audience := audience = utf16 "api"
  carries _ claim := claim = utf16 "exp"
  inTime _ := True

theorem rotating_lawful : rotatingJose.Lawful rotatingFacts where
  mismatch token key row h := ⟨_, if_pos (Bool.eq_false_iff.mpr h)⟩
  claims_after token key row message h := by
    obtain rfl : key = true := h
    simp only [rotatingJose, Bool.true_eq_false, if_false]
    split_ifs <;> simp
  accepts token key row := by
    simp only [rotatingJose, rotatingFacts, verifyOptions]
    cases key with
    | false => simp
    | true =>
      simp only [Bool.true_eq_false, if_false, true_and, and_true, List.mem_singleton, forall_eq]
      split_ifs with h
      · simpa using h
      · simpa using h

theorem verify_sound_rotating :
    verify rotatingJose [rotatingRow] { getKey := fun _ => .error (.ambiguous [] [false, true]) } (utf16 "t") =
      verify rotatingJose [rotatingRow] { getKey := fun _ => .ok true } (utf16 "t") :=
  have hunique : ∀ k ∈ [false, true], ∀ k' ∈ [false, true], rotatingFacts.signedWith (utf16 "t") k →
      rotatingFacts.signedWith (utf16 "t") k' → k = k' := fun _ _ _ _ h h' => h.trans h'.symm
  ((verify_sound rotatingJose rotatingFacts rotating_lawful [rotatingRow]
    { getKey := fun _ => .error (.ambiguous [] [false, true]) } (utf16 "t")).2.1 rotatingRow
    ⟨utf16 "https://idp", none, some (utf16 "RS256")⟩ [] [false, true] rfl rfl hunique).1 true (by simp) rfl

end HomelabApps.Auth
