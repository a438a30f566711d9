import HomelabApps.UiAuth.AuthCallback

namespace HomelabApps.UiAuth

open HomelabApps.Library.Utf16
open HomelabApps.Library.Json (Parsed)

variable {s t returnTo base basePath defaultPath rest route : JsString} {search : SearchParams}
  {client : RedirectCallback} {value : Option Parsed}

def OnSite (path : JsString) : Prop := [SLASH] <+: path ∧ ¬[SLASH, SLASH] <+: path

instance {path : JsString} : Decidable (OnSite path) := inferInstanceAs (Decidable (_ ∧ _))

def CallbackRoute (path : JsString) : Prop :=
  ∃ rest, path = utf16 "/callback" ++ rest ∧ (rest = [] ∨ ∃ u ∈ [0x2F, 0x3F, 0x23], rest.head? = some u)

structure InApp (route : JsString) : Prop where
  onSite : OnSite route
  other : ¬CallbackRoute route

def handedBack (search : SearchParams) (client : RedirectCallback) : Option (Option Parsed) :=
  if !search.has (utf16 "code") && !search.has (utf16 "error") then some none
  else
    match client with
    | .user state => some (returnToOf state)
    | .thrown error state => if isNoSession search error then some (returnToOf state) else none

theorem startsWith_iff : startsWith s t = true ↔ t <+: s := List.isPrefixOf_iff_prefix

theorem navigated_eq : (authCallback false search client basePath defaultPath).navigated =
    (handedBack search client).map fun value => ⟨(routePathOf (safeReturnTo value) basePath).getD defaultPath, true⟩ := by
  rw [authCallback, if_neg Bool.false_ne_true, handedBack.eq_def]
  by_cases hasked : (!search.has (utf16 "code") && !search.has (utf16 "error")) = true
  · rw [if_pos hasked, handleCallback.eq_def, if_pos hasked]
    rfl
  · rw [if_neg hasked, handleCallback.eq_def, if_neg hasked]
    cases client with
    | user state => rfl
    | thrown error state =>
      dsimp only
      by_cases hnone : isNoSession search error = true
      · rw [if_pos hnone, if_pos hnone]
        rfl
      · rw [if_neg hnone, if_neg hnone]
        rfl

theorem safeReturnTo_string : safeReturnTo (some (.string s)) = if OnSite s then some s else none := by
  rw [safeReturnTo]
  refine if_congr ?_ rfl rfl
  rw [Bool.and_eq_true, Bool.not_eq_true', ← Bool.not_eq_true, startsWith_iff, startsWith_iff]
  exact Iff.rfl

theorem exists_of_safeReturnTo (h : safeReturnTo value = some s) : value = some (.string s) ∧ OnSite s := by
  cases value with
  | none => cases h
  | some parsed =>
    cases parsed with
    | string text =>
      rw [safeReturnTo_string] at h
      split at h
      · rename_i hsite
        cases h
        exact ⟨rfl, hsite⟩
      · cases h
    | null => cases h
    | bool b => cases h
    | number token => cases h
    | array items => cases h
    | object entries => cases h

def pathUnder (basePath returnTo : JsString) : JsString :=
  if baseOf basePath <+: returnTo then returnTo.drop (baseOf basePath).length else returnTo

def rooted (path : JsString) : JsString := if [SLASH] <+: path then path else SLASH :: path

theorem routePathOf_some : routePathOf (some returnTo) basePath =
    if utf16 "/callback" <+: rooted (pathUnder basePath returnTo) then none
    else some (rooted (pathUnder basePath returnTo)) := by
  have hpath : (if (!(baseOf basePath).isEmpty && startsWith returnTo (baseOf basePath)) = true then
      returnTo.drop (baseOf basePath).length else returnTo) = pathUnder basePath returnTo := by
    rw [pathUnder]
    cases hbase : baseOf basePath with
    | nil => simp
    | cons u base => simp [startsWith_iff]
  have hrooted : ∀ path, (if startsWith path [SLASH] = true then path else SLASH :: path) = rooted path :=
    fun _ => if_congr startsWith_iff rfl rfl
  rw [routePathOf, hpath, hrooted]
  exact if_congr startsWith_iff rfl rfl

theorem pathUnder_append : pathUnder basePath (baseOf basePath ++ rest) = rest := by
  rw [pathUnder, if_pos (List.prefix_append _ _), List.drop_left]

theorem pathUnder_eq : pathUnder basePath returnTo = returnTo ∨
    returnTo = baseOf basePath ++ pathUnder basePath returnTo := by
  rw [pathUnder]
  split
  · rename_i hunder
    obtain ⟨rest, rfl⟩ := hunder
    rw [List.drop_left]
    exact .inr rfl
  · exact .inl rfl

theorem not_callback_double (h : [SLASH, SLASH] <+: s) : ¬utf16 "/callback" <+: s := by
  obtain ⟨rest, rfl⟩ := h
  rintro ⟨tail, htail⟩
  have hsecond := (List.cons.inj (List.cons.inj htail).2).1
  exact absurd hsecond (by decide)

theorem slash_of_double (h : [SLASH, SLASH] <+: s) : [SLASH] <+: s :=
  List.IsPrefix.trans ⟨[SLASH], rfl⟩ h

theorem onSite_rooted (h : ¬[SLASH, SLASH] <+: s) : OnSite (rooted s) := by
  rw [rooted]
  split
  · rename_i hslash
    exact ⟨hslash, h⟩
  · rename_i hslash
    refine ⟨⟨s, rfl⟩, ?_⟩
    rintro ⟨tail, htail⟩
    exact hslash ⟨tail, (List.cons.inj htail).2⟩

theorem landing_of_double (h : [SLASH, SLASH] <+: pathUnder basePath returnTo) :
    routePathOf (some returnTo) basePath = some (pathUnder basePath returnTo) := by
  rw [routePathOf_some, rooted, if_pos (slash_of_double h), if_neg (not_callback_double h)]

theorem onSite_landing (h : ¬[SLASH, SLASH] <+: pathUnder basePath returnTo)
    (hpath : routePathOf (some returnTo) basePath = some s) : OnSite s := by
  rw [routePathOf_some] at hpath
  split at hpath
  · cases hpath
  · obtain rfl := Option.some.inj hpath
    exact onSite_rooted h

theorem routePathOf_route (hslash : [SLASH] <+: route) :
    routePathOf (some (baseOf basePath ++ route)) basePath = if utf16 "/callback" <+: route then none else some route := by
  rw [routePathOf_some, pathUnder_append, rooted, if_pos hslash]

theorem base_append (h : basePath.getLast? = some SLASH) : baseOf basePath ++ [SLASH] = basePath := by
  rw [baseOf, if_pos h]
  exact List.dropLast_append_getLast? SLASH h

theorem landing_base (hroute : OnSite route) :
    (routePathOf (safeReturnTo (some (.string (baseOf basePath ++ route)))) basePath).getD defaultPath = route ↔
      route = defaultPath ∨ OnSite (baseOf basePath ++ route) ∧ ¬utf16 "/callback" <+: route := by
  rw [safeReturnTo_string]
  by_cases hsite : OnSite (baseOf basePath ++ route)
  · rw [if_pos hsite, routePathOf_route hroute.1]
    by_cases hcallback : utf16 "/callback" <+: route
    · simp [hcallback, eq_comm]
    · simp [hcallback, hsite]
  · rw [if_neg hsite]
    simp [routePathOf, hsite, eq_comm]

theorem landing_double (hroute : OnSite route) (hslash : basePath.getLast? = some SLASH) :
    (routePathOf (safeReturnTo (some (.string (basePath ++ route)))) basePath).getD defaultPath = route ↔
      route = defaultPath ∧ ¬OnSite (basePath ++ route) := by
  rw [safeReturnTo_string]
  by_cases hsite : OnSite (basePath ++ route)
  · have happend : basePath ++ route = baseOf basePath ++ SLASH :: route := by
      rw [← List.singleton_append, ← List.append_assoc, base_append hslash]
    have hdouble : [SLASH, SLASH] <+: SLASH :: route := List.cons_prefix_cons.mpr ⟨rfl, hroute.1⟩
    have hunder : pathUnder basePath (basePath ++ route) = SLASH :: route := by rw [happend, pathUnder_append]
    rw [if_pos hsite, landing_of_double (hunder ▸ hdouble), hunder]
    simp [hsite]
  · rw [if_neg hsite]
    simp [routePathOf, hsite, eq_comm]

theorem authCallback_iff (search : SearchParams) (client : RedirectCallback) (basePath defaultPath : JsString)
    (value : Option Parsed) (h : handedBack search client = some value) :
    ∃ path, (authCallback false search client basePath defaultPath).navigated = some ⟨path, true⟩ ∧
      (path = defaultPath ∨ OnSite path ↔ ∀ rest, value = some (.string (baseOf basePath ++ rest)) →
        OnSite (baseOf basePath ++ rest) → [SLASH, SLASH] <+: rest → rest = defaultPath) ∧
      (∀ route, InApp route → value = some (.string (basePath ++ route)) →
        (path = route ↔ route = defaultPath ∧ (OnSite (basePath ++ route) → basePath.getLast? ≠ some SLASH) ∨
          OnSite (basePath ++ route) ∧ basePath.getLast? ≠ some SLASH ∧ ¬utf16 "/callback" <+: route)) ∧
      ∀ route, InApp route → value = some (.string (baseOf basePath ++ route)) →
        (path = route ↔ route = defaultPath ∨ OnSite (baseOf basePath ++ route) ∧ ¬utf16 "/callback" <+: route) := by
  refine ⟨(routePathOf (safeReturnTo value) basePath).getD defaultPath, ?_, ?_, ?_, ?_⟩
  · rw [navigated_eq, h]
    rfl
  · constructor
    · rintro hpath rest rfl hsite hdouble
      have hunder : pathUnder basePath (baseOf basePath ++ rest) = rest := pathUnder_append
      rw [safeReturnTo_string, if_pos hsite, landing_of_double (hunder.symm ▸ hdouble), hunder] at hpath
      exact hpath.resolve_right fun hrest => hrest.2 hdouble
    · intro hrest
      cases hsafe : safeReturnTo value with
      | none => exact .inl rfl
      | some returnTo =>
        obtain ⟨rfl, hsite⟩ := exists_of_safeReturnTo hsafe
        by_cases hdouble : [SLASH, SLASH] <+: pathUnder basePath returnTo
        · rw [landing_of_double hdouble]
          rcases @pathUnder_eq returnTo basePath with hkept | hstripped
          · rw [hkept] at hdouble
            exact absurd hdouble hsite.2
          · exact .inl (hrest _ (congrArg (some ∘ Parsed.string) hstripped) (hstripped ▸ hsite) hdouble)
        · cases hpath : routePathOf (some returnTo) basePath with
          | none => exact .inl rfl
          | some path => exact .inr (onSite_landing hdouble hpath)
  · rintro route hroute rfl
    by_cases hslash : basePath.getLast? = some SLASH
    · rw [landing_double hroute.onSite hslash]
      simp [hslash]
    · have hbase : baseOf basePath = basePath := if_neg hslash
      have hlanding := @landing_base basePath defaultPath route hroute.onSite
      rw [hbase] at hlanding
      rw [hlanding]
      simp [hslash]
  · rintro route hroute rfl
    exact landing_base hroute.onSite

def returning (path : String) : RedirectCallback :=
  .user (some (.object [(utf16 "returnTo", .string (utf16 path))]))

def withCode : SearchParams := [(utf16 "code", utf16 "abc")]

theorem inApp_of_word {word : String} (honSite : OnSite (utf16 word)) (h : ¬utf16 "/callback" <+: utf16 word) :
    InApp (utf16 word) :=
  ⟨honSite, fun ⟨rest, hrest, _⟩ => h ⟨rest, hrest.symm⟩⟩

theorem authCallback_admin :
    (authCallback false withCode (returning "/app/admin") (utf16 "/app") (utf16 "/")).navigated =
      some ⟨utf16 "/admin", true⟩ := by
  obtain ⟨path, hnavigated, -, hroute, -⟩ := authCallback_iff withCode (returning "/app/admin") (utf16 "/app")
    (utf16 "/") (some (.string (utf16 "/app/admin"))) rfl
  have hadmin : path = utf16 "/admin" :=
    (hroute (utf16 "/admin") (inApp_of_word (by decide) (by decide)) rfl).mpr (by decide)
  rw [hnavigated, hadmin]

/-- The part under the base path is off the site; a route next to the callback's is not returned to. -/
theorem authCallback_offSite :
    (authCallback false withCode (returning "/app//evil.test") (utf16 "/app") (utf16 "/")).navigated =
        some ⟨utf16 "//evil.test", true⟩ ∧ ¬OnSite (utf16 "//evil.test") ∧
      (authCallback false withCode (returning "/app/callbacks") (utf16 "/app") (utf16 "/")).navigated =
        some ⟨utf16 "/", true⟩ ∧ InApp (utf16 "/callbacks") := by
  refine ⟨by decide, by decide, by decide, by decide, ?_⟩
  rintro ⟨rest, hrest, hend⟩
  have hword : utf16 "/callback" ++ utf16 "s" = utf16 "/callback" ++ rest := hrest
  obtain rfl := List.append_cancel_left hword
  rcases hend with hnil | ⟨u, hu, hhead⟩
  · exact absurd hnil (by decide)
  · rw [← Option.some.inj hhead] at hu
    exact absurd hu (by decide)

end HomelabApps.UiAuth
