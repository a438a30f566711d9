import HomelabApps.Library.Table
import HomelabApps.Library.Utf16

/-! The MCP endpoints of the app: what their schema accepts, which of them the router hands a request to,
and which of them the tools take the request for. -/

namespace HomelabApps.KnowledgeBaseMcp

open HomelabApps.Library
open HomelabApps.Library.Utf16

def SLASH : UInt16 := 0x2F

def QUESTION_MARK : UInt16 := 0x3F

def UNDERSCORE : UInt16 := 0x5F

/-- `toLowerCase`, and what is known of it: it neither makes nor takes away a slash at the end, a
question mark or the last of a text. -/
structure LowerCase where
  toLowerCase : JsString → JsString
  append_slash : ∀ s, toLowerCase (s ++ [SLASH]) = toLowerCase s ++ [SLASH]
  getLast?_slash : ∀ s, (toLowerCase s).getLast? = some SLASH → s.getLast? = some SLASH
  mem_questionMark : ∀ s, QUESTION_MARK ∈ toLowerCase s ↔ QUESTION_MARK ∈ s
  eq_nil : ∀ s, toLowerCase s = [] ↔ s = []

inductive KnowledgeBaseRole
  | reader | editor
  deriving DecidableEq, Repr

structure McpServerConfig where
  path : JsString
  kb : JsString
  roles : KnowledgeBaseRole → Option JsString

abbrev McpServersConfig := List (JsString × McpServerConfig)

structure Issue where
  path : List JsString
  message : JsString
  deriving DecidableEq

inductive HttpError
  | internalServerError (message : JsString)
  | forbidden (message : JsString)
  deriving DecidableEq

section Schema

def isUpper (u : UInt16) : Bool := 0x41 ≤ u && u ≤ 0x5A

def isUpperOrDigit (u : UInt16) : Bool := isUpper u || (0x30 ≤ u && u ≤ 0x39)

def isServerKey (key : JsString) : Bool :=
  key.head?.any isUpper && (key.splitOn UNDERSCORE).all fun word => word ≠ [] && word.all isUpperOrDigit

def McpServerConfig.valid (server : McpServerConfig) : Bool := server.path.head? = some SLASH && server.kb ≠ []

/-- The refinement of `McpServersSchema`; `seen` has the key that a path was last used by first. -/
def pathIssues (lower : LowerCase) : McpServersConfig → List (JsString × JsString) → List Issue
  | [], _ => []
  | (key, server) :: servers, seen =>
    let path := lower.toLowerCase server.path
    let issues :=
      match seen.lookup path with
      | none => []
      | some other => [⟨[key, utf16 "path"],
          utf16 "Path " ++ server.path ++ utf16 " is already used by " ++ other ++ utf16 "."⟩]
    issues ++ pathIssues lower servers ((path, key) :: seen)

def McpServersSchema.accepts (lower : LowerCase) (servers : McpServersConfig) : Bool :=
  servers ≠ [] && servers.all (fun e => isServerKey e.1 && e.2.valid) && pathIssues lower servers [] = []

end Schema

structure PlatformMcpSettings where
  path : JsString
  endpoint : JsString × McpServerConfig

def toMcpSettings (servers : McpServersConfig) : List PlatformMcpSettings :=
  servers.map fun e => { path := e.2.path, endpoint := e }

def chopSlash (path : JsString) : JsString := if path.getLast? = some SLASH then path.dropLast else path

structure RequestUrl where
  url : JsString
  absolute : url.head? = some SLASH

def withoutQuery (url : JsString) : JsString := url.takeWhile (· ≠ QUESTION_MARK)

/-- The first endpoint mounted at the path, whatever its case and one slash at the end of either. -/
def route (lower : LowerCase) (mounted : List PlatformMcpSettings) (request : RequestUrl) :
    Option PlatformMcpSettings :=
  mounted.find? fun settings =>
    lower.toLowerCase (chopSlash settings.path) = lower.toLowerCase (chopSlash (withoutQuery request.url))

def pathOf (url : JsString) : JsString :=
  let path := withoutQuery url
  if 1 < path.length then path.rdropWhile (· = SLASH) else path

def current (lower : LowerCase) (servers : McpServersConfig) : Option RequestUrl → Except HttpError McpServerConfig
  | none => .error (.internalServerError (utf16 "No MCP request is being handled."))
  | some request =>
    let path := pathOf request.url
    match (servers.map (·.2)).find? fun entry => lower.toLowerCase entry.path = lower.toLowerCase path with
    | none => .error (.internalServerError (utf16 "No MCP endpoint is mounted at " ++ path ++ utf16 "."))
    | some endpoint => .ok endpoint

def knowledgeBase (lower : LowerCase) (servers : McpServersConfig) (request : Option RequestUrl) :
    Except HttpError JsString :=
  (current lower servers request).map (·.kb)

def McpServerConfig.admits (endpoint : McpServerConfig) (level : KnowledgeBaseRole) (principal : Option (List JsString)) :
    Except HttpError Unit :=
  match principal, endpoint.roles level with
  | some roles, some role =>
    if roles.contains role then .ok () else .error (.forbidden (utf16 "Insufficient permissions."))
  | _, _ => .error (.forbidden (utf16 "Insufficient permissions."))

def requireRole (lower : LowerCase) (servers : McpServersConfig) (request : Option RequestUrl)
    (level : KnowledgeBaseRole) (principal : Option (List JsString)) : Except HttpError Unit :=
  (current lower servers request).bind fun endpoint => endpoint.admits level principal

structure ServedBy (lower : LowerCase) (servers : McpServersConfig) (request : RequestUrl)
    (endpoint : McpServerConfig) : Prop where
  current : current lower servers (some request) = .ok endpoint
  knowledgeBase : knowledgeBase lower servers (some request) = .ok endpoint.kb
  requireRole : ∀ level principal, requireRole lower servers (some request) level principal =
    endpoint.admits level principal

/-- Whom the router admits by an endpoint, that endpoint serves, and each has a request to serve. -/
structure Coherent (lower : LowerCase) (servers : McpServersConfig) : Prop where
  serves : ∀ request settings, route lower (toMcpSettings servers) request = some settings →
    ServedBy lower servers request settings.endpoint.2
  reachable : ∀ e ∈ servers, ∃ request, (route lower (toMcpSettings servers) request).map (·.endpoint) = some e

def McpServerConfig.Plain (server : McpServerConfig) : Prop :=
  QUESTION_MARK ∉ server.path ∧ (server.path = [SLASH] ∨ server.path.getLast? ≠ some SLASH)

variable {lower : LowerCase} {servers : McpServersConfig} {request : RequestUrl} {s t : JsString}
  {server : McpServerConfig}

theorem pathIssues_eq_nil {seen : List (JsString × JsString)} (h : pathIssues lower servers seen = []) :
    (servers.map fun e => lower.toLowerCase e.2.path).Nodup ∧
      ∀ e ∈ servers, seen.lookup (lower.toLowerCase e.2.path) = none := by
  induction servers generalizing seen with
  | nil => exact ⟨List.nodup_nil, by simp⟩
  | cons e servers ih =>
    obtain ⟨key, server⟩ := e
    rw [pathIssues, List.append_eq_nil_iff] at h
    obtain ⟨hfirst, hrest⟩ := h
    have hlookup : seen.lookup (lower.toLowerCase server.path) = none := by
      split at hfirst
      · assumption
      · cases hfirst
    obtain ⟨hnodup, hnone⟩ := ih hrest
    have hother : ∀ e ∈ servers, lower.toLowerCase e.2.path ≠ lower.toLowerCase server.path ∧
        seen.lookup (lower.toLowerCase e.2.path) = none := by
      intro e he
      have hcons := hnone e he
      rw [List.lookup_cons] at hcons
      split at hcons
      · cases hcons
      next hne => exact ⟨by simpa using hne, hcons⟩
    constructor
    · rw [List.map_cons, List.nodup_cons, List.mem_map]
      refine ⟨?_, hnodup⟩
      rintro ⟨e, he, heq⟩
      exact (hother e he).1 heq
    · intro e he
      rcases List.mem_cons.mp he with rfl | he
      · exact hlookup
      · exact (hother e he).2

theorem accepted (h : McpServersSchema.accepts lower servers = true) :
    (servers.map fun e => lower.toLowerCase e.2.path).Nodup ∧ ∀ e ∈ servers, e.2.path.head? = some SLASH := by
  simp only [McpServersSchema.accepts, Bool.and_eq_true, decide_eq_true_eq, List.all_eq_true] at h
  refine ⟨(pathIssues_eq_nil h.2).1, fun e he => ?_⟩
  have hvalid := (h.1.2 e he).2
  simp only [McpServerConfig.valid, Bool.and_eq_true, decide_eq_true_eq] at hvalid
  exact hvalid.1

theorem chopSlash_of_ne (h : s.getLast? ≠ some SLASH) : chopSlash s = s := if_neg h

theorem chopSlash_append : chopSlash (s ++ [SLASH]) = s := by
  rw [chopSlash, if_pos List.getLast?_concat, List.dropLast_concat]

theorem eq_or_chopSlash (s : JsString) : s.getLast? ≠ some SLASH ∧ chopSlash s = s ∨ s = chopSlash s ++ [SLASH] := by
  by_cases h : s.getLast? = some SLASH
  · right
    obtain ⟨t, rfl⟩ := List.getLast?_eq_some_iff.mp h
    rw [chopSlash_append]
  · exact .inl ⟨h, chopSlash_of_ne h⟩

theorem chopSlash_eq_nil (hslash : s.head? = some SLASH) : chopSlash s = [] ↔ s = [SLASH] := by
  constructor
  · intro h
    rcases eq_or_chopSlash s with ⟨-, heq⟩ | heq
    · rw [h] at heq
      rw [← heq] at hslash
      cases hslash
    · rw [heq, h]
      rfl
  · rintro rfl
    rfl

theorem withoutQuery_head (hslash : s.head? = some SLASH) : (withoutQuery s).head? = some SLASH := by
  obtain ⟨rest, rfl⟩ := List.head?_eq_some_iff.mp hslash
  rw [withoutQuery, List.takeWhile_cons_of_pos (by decide)]
  rfl

theorem withoutQuery_of_notMem (h : QUESTION_MARK ∉ s) : withoutQuery s = s := by
  rw [withoutQuery, List.takeWhile_eq_self_iff]
  intro u hu
  rw [decide_eq_true_eq]
  rintro rfl
  exact h hu

theorem notMem_withoutQuery : QUESTION_MARK ∉ withoutQuery s := by
  intro h
  have hne := List.mem_takeWhile_imp h
  exact absurd hne (by decide)

theorem rdropWhile_slash (h : s.getLast? ≠ some SLASH) : s.rdropWhile (· = SLASH) = s := by
  rw [List.rdropWhile_eq_self_iff]
  intro hne hlast
  rw [decide_eq_true_eq] at hlast
  exact h (hlast ▸ List.getLast?_eq_getLast_of_ne_nil hne)

theorem getLast?_pathOf (hslash : s.head? = some SLASH) (h : (pathOf s).getLast? = some SLASH) : pathOf s = [SLASH] := by
  have hhead := withoutQuery_head hslash
  rw [pathOf] at h ⊢
  split at h
  next hlength =>
    have hne : (withoutQuery s).rdropWhile (· = SLASH) ≠ [] := by
      intro hnil
      rw [hnil] at h
      cases h
    have hlast := List.rdropWhile_last_not _ _ hne
    rw [List.getLast?_eq_getLast_of_ne_nil hne] at h
    rw [Option.some.inj h] at hlast
    exact absurd (decide_eq_true rfl) hlast
  next hlength =>
    obtain ⟨rest, hrest⟩ := List.head?_eq_some_iff.mp hhead
    rw [hrest, List.length_cons] at hlength
    have hnil : rest = [] := List.eq_nil_of_length_eq_zero (by omega)
    rw [if_neg (by rw [hrest, List.length_cons]; omega), hrest, hnil]

theorem pathOf_eq (hne : chopSlash (withoutQuery s) ≠ [])
    (hlast : (chopSlash (withoutQuery s)).getLast? ≠ some SLASH) (hslash : s.head? = some SLASH) :
    pathOf s = chopSlash (withoutQuery s) := by
  have hhead := withoutQuery_head hslash
  rcases eq_or_chopSlash (withoutQuery s) with ⟨hnone, heq⟩ | heq
  · rw [pathOf]
    split
    · rw [rdropWhile_slash hnone, heq]
    · exact heq.symm
  · have hlength : 1 < (withoutQuery s).length := by
      rw [heq, List.length_append, List.length_singleton]
      have hpos := List.length_pos_iff.mpr hne
      omega
    rw [pathOf, if_pos hlength]
    conv_lhs => rw [heq]
    rw [List.rdropWhile_concat_pos _ _ _ (by decide), rdropWhile_slash hlast]

theorem toLowerCase_slash : lower.toLowerCase s = [SLASH] ↔ s = [SLASH] := by
  have hnil : lower.toLowerCase [] = [] := (lower.eq_nil []).mpr rfl
  constructor
  · intro h
    have hlast := lower.getLast?_slash s (by rw [h]; rfl)
    obtain ⟨t, rfl⟩ := List.getLast?_eq_some_iff.mp hlast
    rw [lower.append_slash, List.append_eq_singleton_iff] at h
    rcases h with ⟨ht, -⟩ | ⟨-, hcons⟩
    · rw [(lower.eq_nil t).mp ht]
      rfl
    · cases hcons
  · rintro rfl
    have happend := lower.append_slash []
    rw [hnil] at happend
    exact happend

theorem McpServerConfig.Plain.chop_inj {e f : McpServerConfig} (he : e.Plain) (hf : f.Plain)
    (hslash : e.path.head? = some SLASH) (hslash' : f.path.head? = some SLASH)
    (h : lower.toLowerCase (chopSlash e.path) = lower.toLowerCase (chopSlash f.path)) :
    lower.toLowerCase e.path = lower.toLowerCase f.path := by
  have hroot : ∀ {e f : McpServerConfig}, f.Plain → f.path.head? = some SLASH → e.path = [SLASH] →
      lower.toLowerCase (chopSlash e.path) = lower.toLowerCase (chopSlash f.path) → f.path = [SLASH] := by
    intro e f hf hslash he h
    rw [he, show chopSlash [SLASH] = [] from rfl, (lower.eq_nil []).mpr rfl, eq_comm, lower.eq_nil] at h
    exact (chopSlash_eq_nil hslash).mp h
  rcases he.2 with hone | hlast
  · rw [hone, hroot hf hslash' hone h]
  · rcases hf.2 with hone | hlast'
    · rw [hone, hroot he hslash hone h.symm]
    · rw [chopSlash_of_ne hlast, chopSlash_of_ne hlast'] at h
      exact h

theorem route_eq_some {e : JsString × McpServerConfig} (hservers : (servers.map fun e => lower.toLowerCase e.2.path).Nodup)
    (hslash : ∀ e ∈ servers, e.2.path.head? = some SLASH) (hplain : ∀ e ∈ servers, e.2.Plain) (he : e ∈ servers)
    (h : lower.toLowerCase (chopSlash e.2.path) = lower.toLowerCase (chopSlash (withoutQuery request.url))) :
    (route lower (toMcpSettings servers) request).map (·.endpoint) = some e := by
  have hnodup : (servers.map fun e => lower.toLowerCase (chopSlash e.2.path)).Nodup := by
    refine (List.Nodup.of_map _ hservers).map_on ?_
    intro e he f hf heq
    exact List.inj_on_of_nodup_map hservers he hf
      ((hplain e he).chop_inj (hplain f hf) (hslash e he) (hslash f hf) heq)
  have hfind := (Table.find?_eq_some_iff hnodup).mpr ⟨he, h⟩
  rw [route, toMcpSettings, List.find?_map, Option.map_map]
  exact Option.map_id'.trans hfind

theorem current_eq_ok {e : JsString × McpServerConfig} (hservers : (servers.map fun e => lower.toLowerCase e.2.path).Nodup)
    (he : e ∈ servers) (h : lower.toLowerCase e.2.path = lower.toLowerCase (pathOf request.url)) :
    current lower servers (some request) = .ok e.2 := by
  have hnodup : ((servers.map (·.2)).map fun entry => lower.toLowerCase entry.path).Nodup := by
    rw [List.map_map]
    exact hservers
  have hfind := (Table.find?_eq_some_iff hnodup).mpr ⟨List.mem_map_of_mem he, h⟩
  rw [current, hfind]

theorem servedBy_of_current (h : current lower servers (some request) = .ok server) :
    ServedBy lower servers request server :=
  ⟨h, by rw [knowledgeBase, h]; rfl, fun level principal => by rw [requireRole, h]; rfl⟩

theorem current_path (h : current lower servers (some request) = .ok server) :
    lower.toLowerCase server.path = lower.toLowerCase (pathOf request.url) := by
  rw [current] at h
  split at h
  · cases h
  next hfind =>
    cases h
    simpa using List.find?_some hfind

theorem route_path {settings : PlatformMcpSettings} (h : route lower (toMcpSettings servers) request = some settings) :
    settings.endpoint ∈ servers ∧ lower.toLowerCase (chopSlash settings.endpoint.2.path) =
      lower.toLowerCase (chopSlash (withoutQuery request.url)) := by
  rw [route] at h
  have hmem := List.mem_of_find?_eq_some h
  rw [toMcpSettings, List.mem_map] at hmem
  obtain ⟨e, he, rfl⟩ := hmem
  exact ⟨he, by simpa using List.find?_some h⟩

theorem coherent_iff (h : McpServersSchema.accepts lower servers = true) :
    Coherent lower servers ↔ ∀ e ∈ servers, e.2.Plain := by
  obtain ⟨hservers, hslash⟩ := accepted h
  constructor
  · intro hcoherent e he
    obtain ⟨request, hrequest⟩ := hcoherent.reachable e he
    obtain ⟨settings, hroute, rfl⟩ := Option.map_eq_some_iff.mp hrequest
    have hpath := (route_path hroute).2
    have hcurrent := current_path (hcoherent.serves request settings hroute).current
    constructor
    · intro hmem
      have hchop : QUESTION_MARK ∈ chopSlash settings.endpoint.2.path := by
        rcases eq_or_chopSlash settings.endpoint.2.path with ⟨-, heq⟩ | heq
        · rw [heq]
          exact hmem
        · rw [heq, List.mem_append, List.mem_singleton] at hmem
          exact hmem.resolve_right (by decide)
      rw [← lower.mem_questionMark, hpath, lower.mem_questionMark] at hchop
      rcases eq_or_chopSlash (withoutQuery request.url) with ⟨-, heq⟩ | heq
      · exact notMem_withoutQuery (heq ▸ hchop)
      · have hquery := List.mem_append_left [SLASH] hchop
        rw [← heq] at hquery
        exact notMem_withoutQuery hquery
    · refine or_iff_not_imp_right.mpr fun hlast => ?_
      rw [not_not] at hlast
      have hend : (lower.toLowerCase settings.endpoint.2.path).getLast? = some SLASH := by
        obtain ⟨t, ht⟩ := List.getLast?_eq_some_iff.mp hlast
        rw [ht, lower.append_slash, List.getLast?_concat]
      rw [hcurrent] at hend
      rw [getLast?_pathOf request.absolute (lower.getLast?_slash _ hend)] at hcurrent
      exact toLowerCase_slash.mp (hcurrent.trans (toLowerCase_slash.mpr rfl))
  · intro hplain
    constructor
    · intro request settings hroute
      obtain ⟨he, hpath⟩ := route_path hroute
      refine servedBy_of_current (current_eq_ok hservers he ?_)
      have hhead := withoutQuery_head request.absolute
      rcases (hplain _ he).2 with hroot | hlast
      · rw [hroot, show chopSlash [SLASH] = [] from rfl, (lower.eq_nil []).mpr rfl, eq_comm, lower.eq_nil,
          chopSlash_eq_nil hhead] at hpath
        rw [hroot, pathOf, hpath]
        rfl
      · rw [chopSlash_of_ne hlast] at hpath
        have hnone : (chopSlash (withoutQuery request.url)).getLast? ≠ some SLASH := by
          intro hslash
          obtain ⟨t, ht⟩ := List.getLast?_eq_some_iff.mp hslash
          rw [ht, lower.append_slash] at hpath
          exact hlast (lower.getLast?_slash _ (by rw [hpath, List.getLast?_concat]))
        have hne : chopSlash (withoutQuery request.url) ≠ [] := by
          intro hnil
          rw [hnil, (lower.eq_nil []).mpr rfl, lower.eq_nil] at hpath
          have hstart := hslash _ he
          rw [hpath] at hstart
          cases hstart
        rw [pathOf_eq hne hnone request.absolute]
        exact hpath
    · intro e he
      refine ⟨⟨e.2.path, hslash e he⟩, route_eq_some hservers hslash hplain he ?_⟩
      rw [withoutQuery_of_notMem (hplain e he).1]

section Sample

def asciiLower (u : UInt16) : UInt16 := if isUpper u then u + 0x20 else u

theorem asciiLower_eq {u v : UInt16} (hv : v.toNat < 0x41) : asciiLower u = v ↔ u = v := by
  have hupper : ∀ {u : UInt16}, isUpper u = true → 0x41 ≤ u.toNat ∧ u.toNat ≤ 0x5A := by
    intro u hu
    simp only [isUpper, Bool.and_eq_true, decide_eq_true_eq, UInt16.le_iff_toNat_le] at hu
    exact hu
  rw [asciiLower]
  split
  next hu =>
    obtain ⟨hlow, hhigh⟩ := hupper hu
    constructor
    · rintro rfl
      simp only [UInt16.toNat_add, UInt16.reduceToNat] at hv
      omega
    · rintro rfl
      omega
  · exact Iff.rfl

def asciiLowerCase : LowerCase where
  toLowerCase := List.map asciiLower
  append_slash s := by rw [List.map_append]; rfl
  getLast?_slash s h := by
    rw [List.getLast?_map] at h
    obtain ⟨u, hu, heq⟩ := Option.map_eq_some_iff.mp h
    rw [hu, (asciiLower_eq (by decide)).mp heq]
  mem_questionMark s := by
    rw [List.mem_map]
    constructor
    · rintro ⟨u, hu, heq⟩
      rwa [(asciiLower_eq (by decide)).mp heq] at hu
    · exact fun hu => ⟨QUESTION_MARK, hu, rfl⟩
  eq_nil s := List.map_eq_nil_iff

def noRoles : KnowledgeBaseRole → Option JsString := fun _ => none

def developmentKb : JsString × McpServerConfig :=
  (utf16 "DEVELOPMENT_KB", ⟨utf16 "/development", utf16 "development", noRoles⟩)

def operationsKb : JsString × McpServerConfig :=
  (utf16 "OPERATIONS_KB", ⟨utf16 "/Development/Ops", utf16 "operations", noRoles⟩)

theorem coherent_twoServers : Coherent asciiLowerCase [developmentKb, operationsKb] ∧
    knowledgeBase asciiLowerCase [developmentKb, operationsKb] (some ⟨utf16 "/Development/?session=1", by decide⟩) =
      .ok (utf16 "development") ∧
    knowledgeBase asciiLowerCase [developmentKb, operationsKb] (some ⟨utf16 "/DEVELOPMENT/ops/", by decide⟩) =
      .ok (utf16 "operations") := by
  have hplain : ∀ e ∈ [developmentKb, operationsKb], e.2.Plain := by
    simp only [List.forall_mem_cons]
    exact ⟨⟨by decide, .inr (by decide)⟩, ⟨by decide, .inr (by decide)⟩, List.forall_mem_nil _⟩
  have hcoherent := (@coherent_iff asciiLowerCase [developmentKb, operationsKb] (by decide)).mpr hplain
  exact ⟨hcoherent, (hcoherent.serves _ ⟨developmentKb.2.path, developmentKb⟩ rfl).knowledgeBase,
    (hcoherent.serves _ ⟨operationsKb.2.path, operationsKb⟩ rfl).knowledgeBase⟩

/-- A request to `/dev` is admitted by the endpoint at `/dev/`, and served by the other one. -/
theorem served_by_other : ¬ ∀ servers, McpServersSchema.accepts asciiLowerCase servers = true →
    ∀ request settings, route asciiLowerCase (toMcpSettings servers) request = some settings →
      knowledgeBase asciiLowerCase servers (some request) = .ok settings.endpoint.2.kb := by
  intro hclaim
  have hserved := hclaim [(utf16 "A", ⟨utf16 "/dev/", utf16 "a", noRoles⟩), (utf16 "B", ⟨utf16 "/dev", utf16 "b", noRoles⟩)]
    (by decide) ⟨utf16 "/dev", by decide⟩ _ rfl
  exact absurd hserved (by decide)

end Sample

end HomelabApps.KnowledgeBaseMcp
