import HomelabApps.Library.Utf16

namespace HomelabApps.Auth

open HomelabApps.Library.Utf16

inductive PrincipalKind
  | human
  | service
  | device
  deriving DecidableEq

structure Principal where
  subject : JsString
  kind : PrincipalKind
  displayName : Option JsString
  roles : List JsString
  issuer : JsString
  deriving DecidableEq

inductive VerificationReason
  | ok
  | missing
  | invalid
  | wrongAudience
  | unknownIssuer
  | indeterminate
  deriving DecidableEq

abbrev RefusalReason := { reason : VerificationReason // reason ≠ .ok }

structure RefusedOutcome where
  reason : RefusalReason
  detail : Option JsString
  deriving DecidableEq

inductive VerificationOutcome
  | verified (principal : Principal)
  | refused (outcome : RefusedOutcome)
  deriving DecidableEq

abbrev CredentialSource := JsString → Option JsString

abbrev Credential := JsString

structure ITokenVerifier where
  extract : CredentialSource → Option Credential
  /-- The answer, after so many other calls for the same request. -/
  verify : Nat → Credential → VerificationOutcome

abbrev AuthVerifiers := JsString → Option ITokenVerifier

inductive AuthDecision
  | allowed (principal : Principal)
  | refused (reason : RefusalReason) (status : Nat) (detail : Option JsString)

inductive AuthError
  | configuration (message : JsString)
  | type

def statusForReason : VerificationReason → Nat
  | .ok => 200
  | .indeterminate => 503
  | _ => 401

def mostTelling (failures : List RefusedOutcome) : Option RefusedOutcome :=
  (failures.find? fun f => f.reason.val = .indeterminate).or
    ((failures.find? fun f => f.reason.val ≠ .missing).or failures.head?)

def resolve (verifiers : AuthVerifiers) (method : JsString) : Except AuthError ITokenVerifier :=
  match verifiers method with
  | some verifier => .ok verifier
  | none => .error (.configuration (utf16 "No verifier is configured for auth method '" ++ method ++ utf16 "'."))

def attempt (source : CredentialSource) : List ITokenVerifier → Nat → List RefusedOutcome → Except AuthError AuthDecision
  | [], _, failures =>
    match mostTelling failures with
    | some worst => .ok (.refused worst.reason (statusForReason worst.reason) worst.detail)
    | none => .error .type
  | verifier :: chain, n, failures =>
    match verifier.verify n ((verifier.extract source).getD []) with
    | .verified principal => .ok (.allowed principal)
    | .refused outcome => attempt source chain (n + 1) (failures ++ [outcome])

def authenticate (verifiers : AuthVerifiers) (source : CredentialSource) (methods : List JsString) :
    Except AuthError AuthDecision := do
  if methods = [] then
    throw (.configuration (utf16 "A guarded endpoint named no auth method."))
  let chain ← methods.mapM (resolve verifiers)
  attempt source chain 0 []

def answer (source : CredentialSource) (chain : List ITokenVerifier) (n i : Nat) : Option VerificationOutcome :=
  chain[i]?.map fun verifier => verifier.verify (n + i) ((verifier.extract source).getD [])

def attempted (verifiers : AuthVerifiers) (source : CredentialSource) (methods : List JsString) (i : Nat) :
    Option VerificationOutcome := do
  let verifier ← verifiers (← methods[i]?)
  return verifier.verify i ((verifier.extract source).getD [])

def FirstVerified (answers : Nat → Option VerificationOutcome) (principal : Principal) : Prop :=
  ∃ i, answers i = some (.verified principal) ∧ ∀ j < i, ∀ other, answers j ≠ some (.verified other)

def SomeIndeterminate (answers : Nat → Option VerificationOutcome) : Prop :=
  ∃ i outcome, answers i = some (.refused outcome) ∧ outcome.reason.val = .indeterminate

variable {verifiers : AuthVerifiers} {source : CredentialSource} {chain : List ITokenVerifier}
  {verifier : ITokenVerifier} {failures : List RefusedOutcome} {outcome : RefusedOutcome}
  {principal other : Principal} {answers : Nat → Option VerificationOutcome} {methods : List JsString}
  {n i : Nat}

theorem FirstVerified.unique (h : FirstVerified answers principal) (h' : FirstVerified answers other) :
    principal = other := by
  obtain ⟨i, hi, hbefore⟩ := h
  obtain ⟨j, hj, hbefore'⟩ := h'
  have hij : i = j := by
    apply Nat.le_antisymm
    · exact Nat.le_of_not_lt fun hlt => hbefore j hlt other hj
    · exact Nat.le_of_not_lt fun hlt => hbefore' i hlt principal hi
  rw [hij, hj] at hi
  cases hi
  rfl

theorem answer_zero : answer source (verifier :: chain) n 0 =
    some (verifier.verify n ((verifier.extract source).getD [])) := rfl

theorem answer_succ : answer source (verifier :: chain) n (i + 1) = answer source chain (n + 1) i := by
  rw [answer, answer, List.getElem?_cons_succ, Nat.add_right_comm n 1 i, Nat.add_assoc]

theorem mostTelling_eq_none : mostTelling failures = none ↔ failures = [] := by
  constructor
  · intro h
    have hhead := (Option.or_eq_none_iff.mp (Option.or_eq_none_iff.mp h).2).2
    exact List.head?_eq_none_iff.mp hhead
  · rintro rfl
    rfl

theorem mostTelling_indeterminate (h : mostTelling failures = some outcome) :
    outcome.reason.val = .indeterminate ↔ ∃ f ∈ failures, f.reason.val = .indeterminate := by
  constructor
  · intro hreason
    refine ⟨outcome, ?_, hreason⟩
    rcases Option.or_eq_some_iff.mp h with hfound | ⟨-, hrest⟩
    · exact List.mem_of_find?_eq_some hfound
    · rcases Option.or_eq_some_iff.mp hrest with hfound | ⟨-, hhead⟩
      · exact List.mem_of_find?_eq_some hfound
      · exact List.mem_of_head? hhead
  · rintro ⟨f, hf, hreason⟩
    cases hfind : failures.find? fun f => f.reason.val = .indeterminate with
    | none => exact absurd (decide_eq_true hreason) (List.find?_eq_none.mp hfind f hf)
    | some g =>
      rw [mostTelling, hfind, Option.some_or] at h
      obtain rfl := Option.some.inj h
      have hg := List.find?_some hfind
      exact of_decide_eq_true hg

theorem attempt_cases (source : CredentialSource) (n : Nat) (h : failures ≠ [] ∨ chain ≠ []) :
    (∃ principal, FirstVerified (answer source chain n) principal ∧
      attempt source chain n failures = .ok (.allowed principal)) ∨
    ((∀ i principal, answer source chain n i ≠ some (.verified principal)) ∧
      ∃ reason detail, attempt source chain n failures = .ok (.refused reason (statusForReason reason) detail) ∧
        (reason.val = .indeterminate ↔
          (∃ f ∈ failures, f.reason.val = .indeterminate) ∨ SomeIndeterminate (answer source chain n))) := by
  induction chain generalizing n failures with
  | nil =>
    have hanswer : ∀ i, answer source [] n i = none := fun i => rfl
    refine .inr ⟨fun i principal => by simp [hanswer], ?_⟩
    have hfailures : failures ≠ [] := h.resolve_right fun hnil => hnil rfl
    obtain ⟨worst, hworst⟩ := Option.ne_none_iff_exists'.mp (mt mostTelling_eq_none.mp hfailures)
    refine ⟨worst.reason, worst.detail, by rw [attempt, hworst], ?_⟩
    rw [mostTelling_indeterminate hworst]
    refine ⟨.inl, fun hor => hor.resolve_right ?_⟩
    rintro ⟨i, outcome, hi, -⟩
    rw [hanswer] at hi
    cases hi
  | cons verifier chain ih =>
    rw [attempt]
    cases hverify : verifier.verify n ((verifier.extract source).getD []) with
    | verified principal =>
      refine .inl ⟨principal, ⟨0, ?_, ?_⟩, rfl⟩
      · rw [answer_zero, hverify]
      · intro j hj
        exact absurd hj (Nat.not_lt_zero j)
    | refused outcome =>
      have hzero : answer source (verifier :: chain) n 0 = some (.refused outcome) := by
        rw [answer_zero, hverify]
      have happend : failures ++ [outcome] ≠ [] := List.append_ne_nil_of_right_ne_nil _ (List.cons_ne_nil _ _)
      rcases ih (n + 1) (.inl happend) with ⟨principal, ⟨i, hi, hbefore⟩, hattempt⟩ |
        ⟨hnone, reason, detail, hattempt, hreason⟩
      · refine .inl ⟨principal, ⟨i + 1, by rw [answer_succ, hi], ?_⟩, hattempt⟩
        intro j hj other
        cases j with
        | zero => rw [hzero]; simp
        | succ j =>
          rw [answer_succ]
          exact hbefore j (Nat.lt_of_succ_lt_succ hj) other
      · refine .inr ⟨?_, reason, detail, hattempt, ?_⟩
        · intro i other
          cases i with
          | zero => rw [hzero]; simp
          | succ i =>
            rw [answer_succ]
            exact hnone i other
        · rw [hreason]
          constructor
          · rintro (⟨f, hf, hindeterminate⟩ | ⟨i, o, hi, hindeterminate⟩)
            · rcases List.mem_append.mp hf with hf | hf
              · exact .inl ⟨f, hf, hindeterminate⟩
              · rw [List.mem_singleton.mp hf] at hindeterminate
                exact .inr ⟨0, outcome, hzero, hindeterminate⟩
            · exact .inr ⟨i + 1, o, by rw [answer_succ, hi], hindeterminate⟩
          · rintro (⟨f, hf, hindeterminate⟩ | ⟨i, o, hi, hindeterminate⟩)
            · exact .inl ⟨f, List.mem_append_left _ hf, hindeterminate⟩
            · cases i with
              | zero =>
                rw [hzero] at hi
                cases hi
                exact .inl ⟨outcome, List.mem_append_right _ (List.mem_singleton.mpr rfl), hindeterminate⟩
              | succ i =>
                rw [answer_succ] at hi
                exact .inr ⟨i, o, hi, hindeterminate⟩

theorem resolve_all (verifiers : AuthVerifiers) (methods : List JsString) : (∀ m ∈ methods, (verifiers m).isSome) ∧
      (∃ chain, methods.mapM (resolve verifiers) = .ok chain ∧ methods.map verifiers = chain.map some) ∨
    (∃ m ∈ methods, verifiers m = none) ∧
      ∃ message, methods.mapM (resolve verifiers) = .error (.configuration message) := by
  induction methods with
  | nil =>
    refine .inl ⟨fun m hm => absurd hm List.not_mem_nil, [], rfl, rfl⟩
  | cons method methods ih =>
    rw [List.mapM_cons, resolve]
    cases hmethod : verifiers method with
    | none => exact .inr ⟨⟨method, List.mem_cons_self, hmethod⟩, _, rfl⟩
    | some verifier =>
      rcases ih with ⟨hall, chain, hchain, hmap⟩ | ⟨⟨m, hm, hnone⟩, message, hmessage⟩
      · refine .inl ⟨?_, verifier :: chain, ?_, ?_⟩
        · intro m hm
          rcases List.mem_cons.mp hm with rfl | hm
          · rw [hmethod]
            rfl
          · exact hall m hm
        · rw [hchain]
          rfl
        · rw [List.map_cons, List.map_cons, hmethod, hmap]
      · refine .inr ⟨⟨m, List.mem_cons_of_mem _ hm, hnone⟩, message, ?_⟩
        rw [hmessage]
        rfl

theorem attempted_eq (h : methods.map verifiers = chain.map some) :
    attempted verifiers source methods = answer source chain 0 := by
  funext i
  have hget := congrArg (fun l => l[i]?) h
  simp only [List.getElem?_map] at hget
  rw [attempted, answer, Nat.zero_add]
  cases hmethod : methods[i]? with
  | none =>
    rw [hmethod] at hget
    cases hverifier : chain[i]? with
    | none => rfl
    | some verifier => simp [hverifier] at hget
  | some method =>
    rw [hmethod] at hget
    cases hverifier : chain[i]? with
    | none => simp [hverifier] at hget
    | some verifier =>
      rw [hverifier, Option.map_some, Option.map_some] at hget
      simp [Option.some.inj hget]

theorem authenticate_cases (verifiers : AuthVerifiers) (source : CredentialSource) (h : methods ≠ []) :
    (∃ m ∈ methods, verifiers m = none) ∧
        (∃ message, authenticate verifiers source methods = .error (.configuration message)) ∨
      (∀ m ∈ methods, (verifiers m).isSome) ∧
        ((∃ principal, FirstVerified (attempted verifiers source methods) principal ∧
            authenticate verifiers source methods = .ok (.allowed principal)) ∨
          (∀ i principal, attempted verifiers source methods i ≠ some (.verified principal)) ∧
            ∃ reason detail,
              authenticate verifiers source methods = .ok (.refused reason (statusForReason reason) detail) ∧
              (reason.val = .indeterminate ↔ SomeIndeterminate (attempted verifiers source methods))) := by
  rw [authenticate, if_neg h]
  rcases resolve_all verifiers methods with ⟨hall, chain, hchain, hmap⟩ |
    ⟨hsome, message, hmessage⟩
  · have hnonempty : chain ≠ [] := by
      rintro rfl
      exact h (List.map_eq_nil_iff.mp hmap)
    rw [hchain, attempted_eq hmap]
    refine .inr ⟨hall, ?_⟩
    have hcases := attempt_cases source 0 (.inr hnonempty : ([] : List RefusedOutcome) ≠ [] ∨ chain ≠ [])
    rcases hcases with hverified | ⟨hnone, reason, detail, hattempt, hreason⟩
    · exact .inl hverified
    · refine .inr ⟨hnone, reason, detail, hattempt, hreason.trans ?_⟩
      exact or_iff_right fun ⟨f, hf, _⟩ => List.not_mem_nil hf
  · rw [hmessage]
    exact .inl ⟨hsome, message, rfl⟩

end HomelabApps.Auth
