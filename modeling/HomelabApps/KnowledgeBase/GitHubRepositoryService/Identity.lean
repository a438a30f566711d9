import HomelabApps.KnowledgeBase.GitHubRepositoryService.Clients

namespace HomelabApps.KnowledgeBase.GitHub

open HomelabApps.Library
open HomelabApps.Library.Utf16
open HomelabApps.Library.Transition (run Along always_of_along)

variable {language : Language} {config : Config} {s t : State} {event : Event} {discovery other : Discovery}
  {repository : GitHubRepository} {repositories : List GitHubRepository} {events : List Event} {d : Nat}

def Call.AsOwn (language : Language) (config : Config) (call : Call) : Prop :=
  ∃ kb own, config.knowledgeBases[call.kb]? = some kb ∧ credentials config kb = some own ∧
    ∀ client, call.client = some client → gitHubCredentialKey language client.octokit = gitHubCredentialKey language own

def Exclusive (language : Language) (s : State) (discovery : Discovery) (repositories : List GitHubRepository) : Prop :=
  ∀ other ∈ s.started, ∀ repository, other.progress = .resolved repository → key repository ∈ repositories.map key →
    gitHubCredentialKey language other.credentials = gitHubCredentialKey language discovery.credentials

def Event.Exclusive (language : Language) (s : State) : Event → Prop
  | .listed d => ∀ discovery repositories, s.started[d]? = some discovery → discovery.progress = .listing repositories →
      GitHub.Exclusive language s discovery repositories
  | .found d repository => ∀ discovery, s.started[d]? = some discovery → discovery.progress = .reading →
      GitHub.Exclusive language s discovery [repository]
  | _ => True

inductive Event.Finds (s : State) : Event → Discovery → List GitHubRepository → Prop
  | listed {d : Nat} {discovery : Discovery} {repositories : List GitHubRepository} :
      s.started[d]? = some discovery → discovery.progress = .listing repositories →
      Finds s (.listed d) discovery repositories
  | found {d : Nat} {discovery : Discovery} {repository : GitHubRepository} :
      s.started[d]? = some discovery → discovery.progress = .reading →
      Finds s (.found d repository) discovery [repository]

/-- A knowledge base can call one of the repositories next, and does so through the client of the discovery. -/
def State.Diverted (language : Language) (config : Config) (s : State) (discovery : Discovery)
    (repositories : List GitHubRepository) : Prop :=
  ∃ k d t call, step language config s (.call k d) = some t ∧ t.calls = s.calls ++ [call] ∧
    key call.repository ∈ repositories.map key ∧ call.client = some (discovery.client language) ∧
    ¬call.AsOwn language config

def Event.Quiet : Event → Prop
  | .listed _ | .found _ _ => False
  | _ => True

structure Own (language : Language) (config : Config) (s : State) : Prop where
  resolved : ∀ discovery ∈ s.started, ∀ repository, discovery.progress = .resolved repository →
    ∀ client, s.clients.get (key repository) = some client →
      client.credential = gitHubCredentialKey language discovery.credentials
  calls : ∀ call ∈ s.calls, call.AsOwn language config

theorem own_start : Own language config {} :=
  ⟨fun _ h => absurd h List.not_mem_nil, fun _ h => absurd h List.not_mem_nil⟩

theorem Own.advance (h : Own language config s) (progress : Progress)
    (hprogress : ∀ repository, progress ≠ .resolved repository) :
    Own language config (s.advance d discovery progress) := by
  refine ⟨fun other hother repository hresolved => ?_, h.calls⟩
  obtain hother | rfl := List.mem_or_eq_of_mem_set hother
  · exact h.resolved other hother repository hresolved
  · exact absurd hresolved (hprogress repository)

theorem Own.discovers (h : Own language config s) {own : GitHubConfig} {kb : GitKnowledgeBase}
    {discovered : KeyedMap JsString GitHubConfig × Discovery} (hstarts : Starts language kb own discovered)
    (apps : KeyedMap JsString GitHubConfig) (discoveries : KeyedMap JsString Nat) (asked : List (Nat × Nat)) :
    Own language config { s with
      apps := apps, discoveries := discoveries, started := s.started ++ [discovered.2], asked := asked } := by
  refine ⟨fun discovery hdiscovery repository hresolved => ?_, h.calls⟩
  obtain hdiscovery | hdiscovery := List.mem_append.mp hdiscovery
  · exact h.resolved discovery hdiscovery repository hresolved
  · rw [List.mem_singleton.mp hdiscovery] at hresolved
    exact absurd hresolved (hstarts.unresolved repository)

theorem pick_mem {kb : GitKnowledgeBase} (h : pick language kb repositories = .ok repository) : repository ∈ repositories := by
  unfold pick at h
  cases hconfigured : kb.repository with
  | some configured =>
    rw [hconfigured] at h
    dsimp only at h
    split at h
    · rename_i hfound
      cases h
      exact List.mem_of_find?_eq_some hfound
    · cases h
  | none =>
    rw [hconfigured] at h
    match repositories, h with
    | [], h => cases h
    | [_], h =>
      cases h
      exact List.mem_singleton_self repository
    | _ :: _ :: _, h => simp at h

theorem own_listed (hkept : Kept language config s) (h : Own language config s)
    (hexclusive : Exclusive language s discovery repositories) :
    Own language config (s.listed language d discovery repositories) := by
  refine ⟨fun other hother repository hresolved client hclient => ?_, h.calls⟩
  have hget : (relist language s.clients discovery repositories).get (key repository) = some client := hclient
  rw [get_relist hkept.nodup] at hget
  obtain hother | rfl := List.mem_or_eq_of_mem_set hother
  · split at hget
    · rename_i hmem
      cases hget
      exact (hexclusive other hother repository hresolved hmem).symm
    · exact h.resolved other hother repository hresolved client (Option.filter_eq_some_iff.mp hget).1
  · -- What is picked is one of those that were listed.
    dsimp only at hresolved
    split at hresolved
    · rename_i hpick
      cases hresolved
      rw [if_pos (List.mem_map_of_mem (pick_mem hpick))] at hget
      cases hget
      rfl
    · cases hresolved

theorem own_found (h : Own language config s) (hexclusive : Exclusive language s discovery [repository]) :
    Own language config (s.found language d discovery repository) := by
  refine ⟨fun other hother repo hresolved client hclient => ?_, h.calls⟩
  have hget : (s.clients.set (key repository) (discovery.client language)).get (key repo) = some client := hclient
  rw [KeyedMap.get_set] at hget
  obtain hother | rfl := List.mem_or_eq_of_mem_set hother
  · split at hget
    · rename_i hkey
      cases hget
      exact (hexclusive other hother repo hresolved (by simp [hkey])).symm
    · exact h.resolved other hother repo hresolved client hget
  · cases hresolved
    rw [if_pos rfl] at hget
    cases hget
    rfl

theorem own_call {k : Nat} (hkept : Kept language config s) (h : Own language config s) (hasked : (k, d) ∈ s.asked)
    (hdiscovery : s.started[d]? = some discovery) (hresolved : discovery.progress = .resolved repository) :
    Call.AsOwn language config { kb := k, repository := repository, client := s.clients.get (key repository) } := by
  obtain ⟨given, kb, own, hgiven, hkb, hown, hsame⟩ := hkept.asked k d hasked
  obtain rfl : discovery = given := Option.some.inj (hdiscovery.symm.trans hgiven)
  refine ⟨kb, own, hkb, hown, fun client hclient => ?_⟩
  rw [hkept.clients _ client hclient, ← hsame]
  exact h.resolved discovery (List.mem_of_getElem? hdiscovery) repository hresolved client hclient

theorem own_step (hkept : Kept language config s) (h : Own language config s) (hexclusive : event.Exclusive language s)
    (hstep : step language config s event = some t) : Own language config t := by
  cases moves_of_step hstep with
  | joined _ _ _ => exact ⟨h.resolved, h.calls⟩
  | discovers _ _ => exact h.discovers (discover_starts hkept.apps _ _ _) _ _ _
  | forgets => exact ⟨h.resolved, h.calls⟩
  | yields _ => exact h.advance _ nofun
  | fails _ => exact h.advance _ nofun
  | @drops d discovery _ _ =>
    have hadvance : Own language config (s.advance d discovery (.rejected true)) := h.advance _ nofun
    exact ⟨hadvance.resolved, hadvance.calls⟩
  | lists hdiscovery hprogress => exact own_listed hkept h (hexclusive _ _ hdiscovery hprogress)
  | finds hdiscovery hprogress => exact own_found h (hexclusive _ hdiscovery hprogress)
  | calls hasked hdiscovery hresolved =>
    refine ⟨h.resolved, fun call hcall => ?_⟩
    obtain hcall | hcall := List.mem_append.mp hcall
    · exact h.calls call hcall
    · rw [List.mem_singleton.mp hcall]
      exact own_call hkept h hasked hdiscovery hresolved

theorem own_of_run (hexclusive : Along (step language config) (Event.Exclusive language) {} events)
    (hrun : run (step language config) {} events = some s) : Own language config s :=
  ((always_of_along (I := fun s => Kept language config s ∧ Own language config s)
    (fun _ _ _ h hexclusive hstep => ⟨kept_step h.1 hstep, own_step h.1 h.2 hexclusive hstep⟩)
    ⟨kept_start, own_start⟩ hexclusive).last hrun).2

theorem clients_of_quiet (hquiet : event.Quiet) (hstep : step language config s event = some t) : t.clients = s.clients := by
  cases moves_of_step hstep with
  | lists _ _ => exact hquiet.elim
  | finds _ _ => exact hquiet.elim
  | _ => rfl

theorem clients_of_listed {x : JsString} (hkept : Kept language config s) (hdiscovery : s.started[d]? = some discovery)
    (hprogress : discovery.progress = .listing repositories) (hstep : step language config s (.listed d) = some t) :
    (∃ client, t.clients.get x = some client ∧ client.credential = gitHubCredentialKey language discovery.credentials) ↔
      x ∈ repositories.map key := by
  have ht : t = s.listed language d discovery repositories := by
    cases moves_of_step hstep with
    | lists hsame hlisting =>
      cases hdiscovery.symm.trans hsame
      cases hprogress.symm.trans hlisting
      rfl
  have hclients : t.clients = relist language s.clients discovery repositories := by rw [ht, State.listed]
  rw [hclients, get_relist hkept.nodup]
  by_cases hx : x ∈ repositories.map key
  · rw [if_pos hx]
    exact iff_of_true ⟨_, rfl, rfl⟩ hx
  · rw [if_neg hx]
    refine iff_of_false ?_ hx
    rintro ⟨client, hclient, hcredential⟩
    exact of_decide_eq_true (Option.filter_eq_some_iff.mp hclient).2 hcredential

theorem diverted_of_client (hkept : Kept language config t) (hother : t.started[d]? = some other)
    (hresolved : other.progress = .resolved repository) (hmem : key repository ∈ repositories.map key)
    (hclient : t.clients.get (key repository) = some (discovery.client language))
    (hforeign : gitHubCredentialKey language discovery.credentials ≠ gitHubCredentialKey language other.credentials) :
    t.Diverted language config discovery repositories := by
  obtain ⟨k, hasked⟩ := hkept.given d (List.getElem?_eq_some_iff.mp hother).1
  obtain ⟨given, kb, own, hgiven, hkb, hown, hsame⟩ := hkept.asked k d hasked
  obtain rfl : other = given := Option.some.inj (hother.symm.trans hgiven)
  have hstep : step language config t (.call k d) = some { t with
      calls := t.calls ++ [{ kb := k, repository := repository, client := some (discovery.client language) }] } := by
    simp [step, hasked, hother, hresolved, hclient]
  refine ⟨k, d, _, _, hstep, rfl, hmem, rfl, ?_⟩
  rintro ⟨kb', own', hkb', hown', hclients⟩
  cases hkb.symm.trans hkb'
  cases hown.symm.trans hown'
  apply hforeign
  have hcredential : gitHubCredentialKey language (discovery.client language).octokit =
      gitHubCredentialKey language discovery.credentials := hkept.clients _ _ hclient
  rw [hsame, ← hcredential]
  exact hclients _ rfl

theorem diverted_of_not_exclusive {next : Discovery} (hkept : Kept language config t)
    (hdiscovery : s.started[d]? = some discovery) (hunresolved : ∀ repository, discovery.progress ≠ .resolved repository)
    (hstarted : t.started = s.started.set d next)
    (hclients : ∀ x ∈ repositories.map key, t.clients.get x = some (discovery.client language))
    (h : ¬Exclusive language s discovery repositories) : t.Diverted language config discovery repositories := by
  simp only [Exclusive, not_forall] at h
  obtain ⟨other, hother, repository, hresolved, hmem, hforeign⟩ := h
  obtain ⟨j, hj⟩ := List.mem_iff_getElem?.mp hother
  have hne : d ≠ j := by
    rintro rfl
    cases hdiscovery.symm.trans hj
    exact hunresolved repository hresolved
  have hkeeps : t.started[j]? = some other := by rw [hstarted, List.getElem?_set_ne hne, hj]
  exact diverted_of_client hkept hkeeps hresolved hmem (hclients _ hmem) (Ne.symm hforeign)

theorem diverted_of_success (hkept : Kept language config s) (hstep : step language config s event = some t)
    (h : ¬event.Exclusive language s) :
    ∃ discovery repositories, event.Finds s discovery repositories ∧ t.Diverted language config discovery repositories := by
  have hnext := kept_step hkept hstep
  cases moves_of_step hstep with
  | @lists d discovery repositories hdiscovery hprogress =>
    have hclients : ∀ x ∈ repositories.map key,
        (relist language s.clients discovery repositories).get x = some (discovery.client language) := by
      intro x hx
      rw [get_relist hkept.nodup, if_pos hx]
    refine ⟨discovery, repositories, .listed hdiscovery hprogress,
      diverted_of_not_exclusive hnext hdiscovery (hprogress ▸ nofun) rfl hclients fun hexclusive => h ?_⟩
    intro discovery' repositories' hdiscovery' hprogress'
    cases hdiscovery.symm.trans hdiscovery'
    cases hprogress.symm.trans hprogress'
    exact hexclusive
  | @finds d discovery repository hdiscovery hprogress =>
    have hclients : ∀ x ∈ [repository].map key,
        (s.clients.set (key repository) (discovery.client language)).get x = some (discovery.client language) := by
      intro x hx
      rw [List.map_singleton, List.mem_singleton] at hx
      rw [hx, KeyedMap.get_set_self]
    refine ⟨discovery, [repository], .found hdiscovery hprogress,
      diverted_of_not_exclusive hnext hdiscovery (hprogress ▸ nofun) rfl hclients fun hexclusive => h ?_⟩
    intro discovery' hdiscovery' hprogress'
    cases hdiscovery.symm.trans hdiscovery'
    exact hexclusive
  | _ => exact absurd trivial h

theorem calls_as_own (hrun : run (step language config) {} events = some s) :
    (Along (step language config) (Event.Exclusive language) {} events → ∀ call ∈ s.calls, call.AsOwn language config) ∧
      ∀ event t, step language config s event = some t → ¬event.Exclusive language s →
        ∃ discovery repositories, event.Finds s discovery repositories ∧
          t.Diverted language config discovery repositories :=
  ⟨fun hexclusive => (own_of_run hexclusive hrun).calls,
    fun _ _ hstep h => diverted_of_success (kept_of_run hrun) hstep h⟩

theorem clients_of_run (hrun : run (step language config) {} events = some s) :
    (∀ event t, event.Quiet → step language config s event = some t → t.clients = s.clients) ∧
      ∀ d discovery repositories t x, s.started[d]? = some discovery → discovery.progress = .listing repositories →
        step language config s (.listed d) = some t →
        ((∃ client, t.clients.get x = some client ∧
          client.credential = gitHubCredentialKey language discovery.credentials) ↔ x ∈ repositories.map key) :=
  ⟨fun _ _ => clients_of_quiet, fun _ _ _ _ _ => clients_of_listed (kept_of_run hrun)⟩

def asciiLanguage : Language where
  toLowerCase := asciiLower
  ascii _ _ := rfl
  sha256 text := text

def twoCredentials : Config where
  github := some (.app (utf16 "Iv-1") (.value (utf16 "key")) ⟨utf16 "https://api.github.com", 15000, 3⟩)
  knowledgeBases := [
    { id := utf16 "a", repository := some (utf16 "o/r"), github := none },
    { id := utf16 "b", repository := some (utf16 "O/R"),
      github := some (.token (.file (utf16 "/t")) ⟨utf16 "https://api.github.com", 15000, 3⟩) }]
  pattern kb hkb repository hrepository := by
    obtain rfl | hkb := List.mem_cons.mp hkb
    · cases hrepository
      decide
    · cases List.mem_singleton.mp hkb
      cases hrepository
      decide
  credentials := by decide
  named kb hkb token options _ := by
    obtain rfl | hkb := List.mem_cons.mp hkb
    · rfl
    · cases List.mem_singleton.mp hkb
      rfl

def appThenToken : List Event :=
  [.repository 0 true, .yield 0 ⟨utf16 "o", utf16 "r"⟩, .listed 0, .call 0 0, .repository 1 true]

theorem calls_as_own_appThenToken : ∃ s t, run (step asciiLanguage twoCredentials) {} appThenToken = some s ∧
    (∀ call ∈ s.calls, call.AsOwn asciiLanguage twoCredentials) ∧
    step asciiLanguage twoCredentials s (.found 1 ⟨utf16 "o", utf16 "r"⟩) = some t ∧
    ∃ discovery repositories, (Event.found 1 ⟨utf16 "o", utf16 "r"⟩).Finds s discovery repositories ∧
      t.Diverted asciiLanguage twoCredentials discovery repositories := by
  have hexclusive : Along (step asciiLanguage twoCredentials) (Event.Exclusive asciiLanguage) {} appThenToken := by
    refine .cons rfl trivial (.cons rfl trivial (.cons rfl ?_ (.cons rfl trivial (.cons rfl trivial trivial))))
    intro discovery repositories hdiscovery hprogress other hother repository hresolved
    cases List.mem_singleton.mp hother
    cases hresolved
  have hrun : run (step asciiLanguage twoCredentials) {} appThenToken = some _ := rfl
  refine ⟨_, _, hrun, (calls_as_own hrun).1 hexclusive, rfl, (calls_as_own hrun).2 _ _ rfl fun h => ?_⟩
  -- the token finds what the App has found
  have hsame := h _ rfl rfl _ List.mem_cons_self ⟨utf16 "o", utf16 "r"⟩ rfl (by decide)
  revert hsame
  decide

def listedAgain : List Event :=
  [.repository 0 true, .yield 0 ⟨utf16 "o", utf16 "q"⟩, .yield 0 ⟨utf16 "o", utf16 "r"⟩, .listed 0, .forget 0,
    .repository 0 true, .yield 1 ⟨utf16 "o", utf16 "r"⟩]

theorem clients_of_run_listedAgain : ∃ s t app, run (step asciiLanguage twoCredentials) {} listedAgain = some s ∧
    step asciiLanguage twoCredentials s (.listed 1) = some t ∧
    (∀ failed, step asciiLanguage twoCredentials s (.fail 1) = some failed → failed.clients = s.clients) ∧
    (s.clients.get (utf16 "o/q")).isSome = true ∧
    ∀ x, (∃ client, t.clients.get x = some client ∧ client.credential = app) ↔ x ∈ [utf16 "o/r"] := by
  have hrun : run (step asciiLanguage twoCredentials) {} listedAgain = some _ := rfl
  refine ⟨_, _, utf16 "app:Iv-1", hrun, rfl, fun failed => (clients_of_run hrun).1 (.fail 1) failed trivial, by decide,
    fun x => ?_⟩
  exact (clients_of_run hrun).2 1 _ [⟨utf16 "o", utf16 "r"⟩] _ x rfl rfl rfl

example : ((run (step asciiLanguage twoCredentials) {}
    (appThenToken ++ [.found 1 ⟨utf16 "o", utf16 "r"⟩, .call 0 0])).map fun s =>
      s.calls.map fun call => call.client.map (·.credential)) =
    some [some (utf16 "app:Iv-1"), some (utf16 "token:file:/t")] := by
  decide

end HomelabApps.KnowledgeBase.GitHub
