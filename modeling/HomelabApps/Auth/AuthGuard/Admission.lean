import HomelabApps.Auth.AuthGuard

namespace HomelabApps.Auth

open HomelabApps.Library.Json
open HomelabApps.Library.Utf16

def Decorator.methods? : Decorator → Option (List JsString)
  | .authenticate methods => some methods
  | _ => none

def Decorator.roles? : Decorator → Option (List JsString)
  | .requireRoles roles => some roles
  | _ => none

def Decorator.isAnonymous : Decorator → Bool
  | .anonymous => true
  | _ => false

def Route.isAnonymous (route : Route) : Bool := route.decorators.any Decorator.isAnonymous

def Route.named (route : Route) : List JsString :=
  ((route.decorators.reverse.findSome? Decorator.methods?).getD []).filter isNotEmpty

def Route.requirements (route : Route) : List (List JsString) := route.decorators.filterMap Decorator.roles?

def Route.Guarded (route : Route) : Prop := route.decorators ≠ [] ∧ route.isAnonymous = false

def Meets (principal : Principal) (requirements : List (List JsString)) : Prop :=
  ∀ anyOf ∈ requirements, anyOf = [] ∨ ∃ role ∈ anyOf, role ∈ principal.roles

def Misconfigured (verifiers : AuthVerifiers) (route : Route) : Prop :=
  route.named = [] ∨ ∃ m ∈ route.named, verifiers m = none

structure Verifies (verifiers : AuthVerifiers) (route : Route) (source : CredentialSource) (principal : Principal) :
    Prop where
  configured : ∀ m ∈ route.named, (verifiers m).isSome
  first : FirstVerified (attempted verifiers source route.named) principal

structure Unverified (verifiers : AuthVerifiers) (route : Route) (source : CredentialSource) : Prop where
  configured : ∀ m ∈ route.named, (verifiers m).isSome
  none : ∀ i principal, attempted verifiers source route.named i ≠ some (.verified principal)

inductive Answered (verifiers : AuthVerifiers) (route : Route) (source : CredentialSource) : Response → Prop
  | misconfigured : Misconfigured verifiers route → Answered verifiers route source (.refused (.configuration message))
  | admitted : Verifies verifiers route source principal → Meets principal route.requirements →
      Answered verifiers route source (.handler (some principal))
  | forbidden : Verifies verifiers route source principal → ¬ Meets principal route.requirements →
      Answered verifiers route source (.refused (.forbidden message))
  | unavailable : Unverified verifiers route source → SomeIndeterminate (attempted verifiers source route.named) →
      Answered verifiers route source (.refused (.serviceUnavailable message))
  | unauthorized : ¬ Misconfigured verifiers route → Unverified verifiers route source →
      ¬ SomeIndeterminate (attempted verifiers source route.named) →
      Answered verifiers route source (.refused (.unauthorized message))

inductive Narrowed (roles : List JsString) : Route → Route → Prop
  | controller : Narrowed roles ⟨before ++ after, handler⟩ ⟨before ++ .requireRoles roles :: after, handler⟩
  | handler : Narrowed roles ⟨controller, before ++ after⟩ ⟨controller, before ++ .requireRoles roles :: after⟩

variable {verifiers : AuthVerifiers} {source : CredentialSource} {route route' : Route} {ds : List Decorator}
  {principal : Principal} {requirements : List (List JsString)} {methods roles : List JsString} {s : JsString}
  {u : UInt16}

theorem satisfies_iff : satisfies principal requirements = true ↔ Meets principal requirements := by
  simp [satisfies, Meets]

theorem decodeMethods_encodeMethods : decodeMethods (some (encodeMethods methods)) = methods.filter isNotEmpty := by
  have hbracket : ∃ rest, encodeMethods methods = 0x5B :: rest := ⟨_, rfl⟩
  obtain ⟨rest, hrest⟩ := hbracket
  have hnotEmpty : isNotEmpty (encodeMethods methods) = true := by
    rw [hrest]
    exact isNotEmpty_iff.mpr ⟨0x5B, List.mem_cons_self, by decide⟩
  simp only [decodeMethods, hnotEmpty, if_true]
  rw [encodeMethods, parse_strings]
  simp only [List.filterMap_map]
  rw [← List.filterMap_eq_filter]
  apply List.filterMap_congr
  intro m _
  simp only [Function.comp_apply, methodOf?, Option.guard_def]

def merged (ds : List Decorator) : AuthGuardOptions := mergeOptions (ds.map Decorator.options)

theorem merged_concat {d : Decorator} : merged (ds ++ [d]) = (merged ds).merge d.options := by
  rw [merged, List.map_append, mergeOptions, List.foldl_append]
  rfl

theorem merged_anonymous : (merged ds).anonymous = if ds.any Decorator.isAnonymous then some true else none := by
  induction ds using List.reverseRecOn with
  | nil => rfl
  | append_singleton ds d ih =>
    rw [merged_concat, AuthGuardOptions.merge, ih, List.any_append]
    cases d <;> simp [Decorator.options, Decorator.isAnonymous]

theorem merged_methods :
    (merged ds).methods = (ds.reverse.findSome? Decorator.methods?).map encodeMethods := by
  induction ds using List.reverseRecOn with
  | nil => rfl
  | append_singleton ds d ih =>
    rw [merged_concat, AuthGuardOptions.merge, ih, List.reverse_append, List.reverse_singleton,
      List.singleton_append, List.findSome?_cons]
    cases d <;> rfl

theorem merged_roles :
    (merged ds).roles =
      if ds.filterMap Decorator.roles? = [] then none else some (ds.filterMap Decorator.roles?) := by
  induction ds using List.reverseRecOn with
  | nil => rfl
  | append_singleton ds d ih =>
    rw [merged_concat, AuthGuardOptions.merge, ih, List.filterMap_append]
    cases d with
    | authenticate methods =>
      rw [show [Decorator.authenticate methods].filterMap Decorator.roles? = [] from rfl, List.append_nil]
      split_ifs <;> rfl
    | requireRoles roles =>
      rw [show [Decorator.requireRoles roles].filterMap Decorator.roles? = [roles] from rfl,
        if_neg (List.append_ne_nil_of_right_ne_nil _ (List.cons_ne_nil roles []))]
      split_ifs with h
      · rw [h]
        rfl
      · rfl
    | anonymous =>
      rw [show [Decorator.anonymous].filterMap Decorator.roles? = [] from rfl, List.append_nil]
      split_ifs <;> rfl

theorem options_eq (h : route.decorators ≠ []) : route.options = some (merged route.decorators) := if_neg h

theorem named_eq : decodeMethods (merged route.decorators).methods = route.named := by
  rw [merged_methods, Route.named]
  cases route.decorators.reverse.findSome? Decorator.methods? with
  | none => rfl
  | some methods => exact decodeMethods_encodeMethods

theorem meets_of_no_roles (h : (merged route.decorators).roles = none) : Meets principal route.requirements := by
  rw [merged_roles] at h
  split_ifs at h with hnil
  rw [Route.requirements, hnil]
  intro anyOf hmem
  exact absurd hmem List.not_mem_nil

theorem requirements_eq (h : (merged route.decorators).roles = some requirements) :
    requirements = route.requirements := by
  rw [merged_roles] at h
  split_ifs at h with hnil
  exact (Option.some.inj h).symm

theorem respond_open (h : ¬ route.Guarded) : respond verifiers route source = .handler none := by
  by_cases hnil : route.decorators = []
  · simp only [respond, Route.options, if_pos hnil]
  · have hanonymous : route.isAnonymous = true := by
      cases hroute : route.isAnonymous with
      | true => rfl
      | false => exact absurd ⟨hnil, hroute⟩ h
    have hoption : (merged route.decorators).anonymous = some true := by
      rw [merged_anonymous, ← Route.isAnonymous, if_pos hanonymous]
    rw [respond, options_eq hnil]
    simp only [use, Option.bind_some, hoption, if_true]

theorem respond_guarded (verifiers : AuthVerifiers) (source : CredentialSource) (h : route.Guarded) :
    Answered verifiers route source (respond verifiers route source) := by
  have hoption : (merged route.decorators).anonymous ≠ some true := by
    rw [merged_anonymous, ← Route.isAnonymous, h.2]
    simp
  rw [respond, options_eq h.1]
  simp only [use, Option.bind_some, if_neg hoption, named_eq]
  by_cases hnil : route.named = []
  · simp only [if_pos hnil]
    exact .misconfigured (.inl hnil)
  · simp only [if_neg hnil]
    rcases authenticate_cases verifiers source hnil with
      ⟨⟨m, hm, hnone⟩, message, herror⟩ | ⟨hall, ⟨principal, hfirst, hallowed⟩ | ⟨hnone, reason, detail, hrefused, hreason⟩⟩
    · rw [herror]
      exact .misconfigured (.inr ⟨m, hm, hnone⟩)
    · rw [hallowed]
      cases hroles : (merged route.decorators).roles with
      | none => exact .admitted ⟨hall, hfirst⟩ (meets_of_no_roles hroles)
      | some requirements =>
        obtain rfl := requirements_eq hroles
        by_cases hmeets : satisfies principal route.requirements = true
        · simp only [if_pos hmeets]
          exact .admitted ⟨hall, hfirst⟩ (satisfies_iff.mp hmeets)
        · simp only [if_neg hmeets]
          exact .forbidden ⟨hall, hfirst⟩ (mt satisfies_iff.mpr hmeets)
    · have hunverified : Unverified verifiers route source := ⟨hall, hnone⟩
      rw [hrefused]
      by_cases hindeterminate : reason.val = .indeterminate
      · simp only [exceptionFor, if_pos hindeterminate]
        exact .unavailable hunverified (hreason.mp hindeterminate)
      · simp only [exceptionFor, if_neg hindeterminate]
        refine .unauthorized ?_ hunverified (mt hreason.mpr hindeterminate)
        rintro (hnil' | ⟨m, hm, hmissing⟩)
        · exact hnil hnil'
        · simpa [hmissing] using hall m hm

def Response.status : Response → Option Nat
  | .handler _ => none
  | .refused error => some error.status

theorem attempted_nil {i : Nat} : attempted verifiers source [] i = none := rfl

theorem Verifies.not_misconfigured (h : Verifies verifiers route source principal) :
    ¬ Misconfigured verifiers route := by
  rintro (hnil | ⟨m, hm, hnone⟩)
  · obtain ⟨i, hi, -⟩ := h.first
    rw [hnil, attempted_nil] at hi
    cases hi
  · simpa [hnone] using h.configured m hm

theorem Verifies.not_unverified (h : Verifies verifiers route source principal) :
    ¬ Unverified verifiers route source := by
  intro hunverified
  obtain ⟨i, hi, -⟩ := h.first
  exact hunverified.none i principal hi

theorem Unverified.not_misconfigured (h : Unverified verifiers route source)
    (hindeterminate : SomeIndeterminate (attempted verifiers source route.named)) :
    ¬ Misconfigured verifiers route := by
  rintro (hnil | ⟨m, hm, hnone⟩)
  · obtain ⟨i, outcome, hi, -⟩ := hindeterminate
    rw [hnil, attempted_nil] at hi
    cases hi
  · simpa [hnone] using h.configured m hm

theorem respond_handler_iff {parked : Option Principal} :
    respond verifiers route source = .handler parked ↔
      ¬ route.Guarded ∧ parked = none ∨
        route.Guarded ∧ ∃ principal, Verifies verifiers route source principal ∧
          Meets principal route.requirements ∧ parked = some principal := by
  by_cases hguarded : route.Guarded
  · have hanswer := respond_guarded verifiers source hguarded
    generalize respond verifiers route source = response at hanswer ⊢
    simp only [hguarded, not_true, false_and, false_or, true_and]
    constructor
    · rintro rfl
      cases hanswer with
      | admitted hverifies hmeets => exact ⟨_, hverifies, hmeets, rfl⟩
    · rintro ⟨principal, hverifies, hmeets, rfl⟩
      cases hanswer with
      | misconfigured hmis => exact absurd hmis hverifies.not_misconfigured
      | admitted hverifies' _ => rw [hverifies'.first.unique hverifies.first]
      | forbidden hverifies' hrefused =>
        rw [hverifies'.first.unique hverifies.first] at hrefused
        exact absurd hmeets hrefused
      | unavailable hunverified _ => exact absurd hunverified hverifies.not_unverified
      | unauthorized _ hunverified _ => exact absurd hunverified hverifies.not_unverified
  · rw [respond_open hguarded]
    simp only [hguarded, not_false_eq_true, true_and, false_and, or_false, Response.handler.injEq]
    exact eq_comm

theorem Answered.status_500 {response : Response} (h : Answered verifiers route source response) :
    response.status = some 500 ↔ Misconfigured verifiers route := by
  cases h with
  | misconfigured hmis => simp [Response.status, GuardError.status, hmis]
  | admitted hverifies _ => simp [Response.status, hverifies.not_misconfigured]
  | forbidden hverifies _ => simp [Response.status, GuardError.status, hverifies.not_misconfigured]
  | unavailable hunverified hindeterminate =>
    simp [Response.status, GuardError.status, hunverified.not_misconfigured hindeterminate]
  | unauthorized hmis _ _ => simp [Response.status, GuardError.status, hmis]

theorem Answered.status_503 {response : Response} (h : Answered verifiers route source response) :
    response.status = some 503 ↔
      Unverified verifiers route source ∧ SomeIndeterminate (attempted verifiers source route.named) := by
  cases h with
  | misconfigured hmis =>
    simp only [Response.status, GuardError.status, Option.some.injEq, Nat.reduceEqDiff, false_iff]
    exact fun ⟨hunverified, hindeterminate⟩ => hunverified.not_misconfigured hindeterminate hmis
  | admitted hverifies _ => simp [Response.status, hverifies.not_unverified]
  | forbidden hverifies _ => simp [Response.status, GuardError.status, hverifies.not_unverified]
  | unavailable hunverified hindeterminate =>
    simp [Response.status, GuardError.status, hunverified, hindeterminate]
  | unauthorized _ _ hindeterminate => simp [Response.status, GuardError.status, hindeterminate]

theorem Answered.status_403 {response : Response} (h : Answered verifiers route source response) :
    response.status = some 403 ↔
      ∃ principal, Verifies verifiers route source principal ∧ ¬ Meets principal route.requirements := by
  cases h with
  | misconfigured hmis =>
    simp only [Response.status, GuardError.status, Option.some.injEq, Nat.reduceEqDiff, false_iff]
    exact fun ⟨_, hverifies, _⟩ => hverifies.not_misconfigured hmis
  | admitted hverifies hmeets =>
    simp only [Response.status, reduceCtorEq, false_iff]
    rintro ⟨other, hverifies', hrefused⟩
    rw [hverifies'.first.unique hverifies.first] at hrefused
    exact hrefused hmeets
  | forbidden hverifies hrefused =>
    simp only [Response.status, GuardError.status, true_iff]
    exact ⟨_, hverifies, hrefused⟩
  | unavailable hunverified _ =>
    simp only [Response.status, GuardError.status, Option.some.injEq, Nat.reduceEqDiff, false_iff]
    exact fun ⟨_, hverifies, _⟩ => hverifies.not_unverified hunverified
  | unauthorized _ hunverified _ =>
    simp only [Response.status, GuardError.status, Option.some.injEq, Nat.reduceEqDiff, false_iff]
    exact fun ⟨_, hverifies, _⟩ => hverifies.not_unverified hunverified

theorem Answered.status_mem {response : Response} {status : Nat} (h : Answered verifiers route source response)
    (hstatus : response.status = some status) : status ∈ [500, 503, 403, 401] := by
  cases h <;> cases hstatus <;> simp [GuardError.status]

theorem Narrowed.decorators (h : Narrowed roles route route') :
    ∃ before after, route.decorators = before ++ after ∧
      route'.decorators = before ++ .requireRoles roles :: after := by
  cases h with
  | controller => exact ⟨_, _, List.append_assoc .., List.append_assoc ..⟩
  | handler => exact ⟨_, _, (List.append_assoc ..).symm, (List.append_assoc ..).symm⟩

theorem Narrowed.guarded (h : Narrowed roles route route') (hguarded : route.Guarded) : route'.Guarded := by
  obtain ⟨before, after, hroute, hroute'⟩ := h.decorators
  refine ⟨by simp [hroute'], ?_⟩
  have hanonymous := hguarded.2
  rw [Route.isAnonymous, hroute, List.any_append] at hanonymous
  rw [Route.isAnonymous, hroute', List.any_append, List.any_cons]
  exact hanonymous

theorem Narrowed.named (h : Narrowed roles route route') : route'.named = route.named := by
  obtain ⟨before, after, hroute, hroute'⟩ := h.decorators
  rw [Route.named, Route.named, hroute, hroute', List.reverse_append, List.reverse_cons, List.append_assoc,
    List.reverse_append, List.findSome?_append, List.findSome?_append, List.findSome?_append]
  rfl

theorem Narrowed.meets (h : Narrowed roles route route') (hmeets : Meets principal route'.requirements) :
    Meets principal route.requirements := by
  obtain ⟨before, after, hroute, hroute'⟩ := h.decorators
  intro anyOf hmem
  apply hmeets
  rw [Route.requirements, hroute, List.filterMap_append] at hmem
  rw [Route.requirements, hroute', List.filterMap_append]
  rcases List.mem_append.mp hmem with hmem | hmem
  · exact List.mem_append_left _ hmem
  · exact List.mem_append_right _ (List.mem_cons_of_mem _ hmem)

theorem Narrowed.verifies (h : Narrowed roles route route') (hverifies : Verifies verifiers route' source principal) :
    Verifies verifiers route source principal := by
  obtain ⟨hconfigured, hfirst⟩ := hverifies
  rw [h.named] at hconfigured hfirst
  exact ⟨hconfigured, hfirst⟩

theorem Narrowed.refused (h : Narrowed roles route route')
    (hrefused : (respond verifiers route source).status ≠ none) :
    (respond verifiers route' source).status ≠ none := by
  have hguarded : route.Guarded := by
    by_contra hopen
    rw [respond_open hopen] at hrefused
    exact hrefused rfl
  cases hresponse : respond verifiers route' source with
  | refused error => simp [Response.status]
  | handler parked =>
    rcases respond_handler_iff.mp hresponse with ⟨hopen, -⟩ | ⟨-, principal, hverifies, hmeets, -⟩
    · exact absurd (h.guarded hguarded) hopen
    · have hadmitted := respond_handler_iff.mpr
        (.inr ⟨hguarded, principal, h.verifies hverifies, h.meets hmeets, rfl⟩)
      rw [hadmitted] at hrefused
      exact absurd rfl hrefused

theorem gate (verifiers : AuthVerifiers) (route : Route) (source : CredentialSource) :
    (∀ parked, respond verifiers route source = .handler parked ↔
      ¬ route.Guarded ∧ parked = none ∨
        route.Guarded ∧ ∃ principal, Verifies verifiers route source principal ∧
          Meets principal route.requirements ∧ parked = some principal) ∧
    (¬ route.Guarded ↔ route.decorators = [] ∨ route.isAnonymous = true) ∧
    ((respond verifiers route source).status = some 500 ↔ route.Guarded ∧ Misconfigured verifiers route) ∧
    ((respond verifiers route source).status = some 503 ↔ route.Guarded ∧
      Unverified verifiers route source ∧ SomeIndeterminate (attempted verifiers source route.named)) ∧
    ((respond verifiers route source).status = some 403 ↔ route.Guarded ∧
      ∃ principal, Verifies verifiers route source principal ∧ ¬ Meets principal route.requirements) ∧
    (∀ status, (respond verifiers route source).status = some status → status ∈ [500, 503, 403, 401]) ∧
    (∀ roles route', Narrowed roles route route' → (respond verifiers route source).status ≠ none →
      (respond verifiers route' source).status ≠ none) := by
  have hopen : ¬ route.Guarded ↔ route.decorators = [] ∨ route.isAnonymous = true := by
    rw [Route.Guarded, not_and_or, not_not, Bool.not_eq_false]
  refine ⟨fun parked => respond_handler_iff, hopen, ?_⟩
  by_cases hguarded : route.Guarded
  · have hanswer := respond_guarded verifiers source hguarded
    simp only [hguarded, true_and]
    exact ⟨hanswer.status_500, hanswer.status_503, hanswer.status_403, fun _ => hanswer.status_mem,
      fun _ _ hnarrowed => hnarrowed.refused⟩
  · have hstatus : (respond verifiers route source).status = none := by rw [respond_open hguarded]; rfl
    simp [hguarded, hstatus]

/-- A route that asks for roles and names no method answers 500, though none of its methods lacks a
verifier: not the 401 of a caller who sent nothing. -/
theorem gate_without_method : ¬ ∀ (verifiers : AuthVerifiers) (route : Route) (source : CredentialSource),
    route.isAnonymous = false → route.decorators ≠ [] → (∀ m ∈ route.named, (verifiers m).isSome) →
    Unverified verifiers route source → ¬ SomeIndeterminate (attempted verifiers source route.named) →
    (respond verifiers route source).status = some 401 := by
  intro hclaim
  have hnamed : Route.named ⟨[], [.requireRoles [utf16 "admin"]]⟩ = [] := rfl
  have hstatus := hclaim (fun _ => none) ⟨[], [.requireRoles [utf16 "admin"]]⟩ (fun _ => none) rfl
    (List.cons_ne_nil _ _) (by simp [hnamed]) ⟨by simp [hnamed], by simp [hnamed, attempted_nil]⟩
    (by simp [hnamed, attempted_nil, SomeIndeterminate])
  have hactual : (respond (fun _ => none) ⟨[], [.requireRoles [utf16 "admin"]]⟩ fun _ => none).status = some 500 := rfl
  rw [hactual] at hstatus
  exact absurd hstatus (by decide)

end HomelabApps.Auth
