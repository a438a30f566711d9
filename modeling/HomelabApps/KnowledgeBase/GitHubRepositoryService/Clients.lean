import HomelabApps.KnowledgeBase.GitHubRepositoryService

namespace HomelabApps.KnowledgeBase.GitHub

open HomelabApps.Library
open HomelabApps.Library.Utf16
open HomelabApps.Library.Transition (run invariant)

variable {language : Language} {config : Config} {s t : State} {event : Event} {discovery : Discovery}
  {progress : Progress} {kb other : GitKnowledgeBase} {own : GitHubConfig} {repository : GitHubRepository}
  {repositories : List GitHubRepository} {clients : KeyedMap JsString GitHubClient} {client : GitHubClient}
  {x : JsString} {d k j : Nat}

theorem mem_pattern {text : JsString} {u : UInt16} (h : GITHUB_REPOSITORY_PATTERN text = true) (hu : u ∈ text) :
    isNameUnit u = true ∨ u = 0x2F := by
  rw [GITHUB_REPOSITORY_PATTERN] at h
  split at h
  · rename_i first owner second name howner hrest
    rw [← List.takeWhile_append_dropWhile (p := isOwnerUnit) (l := text), List.mem_append, hrest] at hu
    obtain hu | hu := hu
    · left
      rw [isNameUnit, List.mem_takeWhile_imp hu, Bool.true_or]
    · obtain rfl | hu := List.mem_cons.mp hu
      · exact .inr rfl
      · exact .inl (List.all_eq_true.mp h u hu)
  · cases h

theorem lt_of_isNameUnit {u : UInt16} (h : isNameUnit u = true ∨ u = 0x2F) :
    u < 0x80 ∧ (if 0x41 ≤ u ∧ u ≤ 0x5A then u + 0x20 else u) ≠ 0x3A := by
  obtain h | rfl := h
  · simp only [isNameUnit, isOwnerUnit, Bool.or_eq_true, Bool.and_eq_true, decide_eq_true_eq, UInt16.le_iff_toNat_le,
      UInt16.reduceToNat, ← UInt16.toNat_inj] at h
    constructor
    · rw [UInt16.lt_iff_toNat_lt]
      simp only [UInt16.reduceToNat]
      omega
    · intro heq
      have htext := congrArg UInt16.toNat heq
      split at htext
      · simp only [UInt16.toNat_add, UInt16.reduceToNat] at htext
        omega
      · simp only [UInt16.reduceToNat] at htext
        omega
  · decide

theorem colon_notMem (hkb : kb ∈ config.knowledgeBases) : (0x3A : UInt16) ∉ language.toLowerCase (kb.repository.getD []) := by
  have hunits : ∀ u ∈ kb.repository.getD [], isNameUnit u = true ∨ u = 0x2F := by
    cases hrepository : kb.repository with
    | none => exact fun u hu => absurd hu List.not_mem_nil
    | some repository => exact fun u hu => mem_pattern (config.pattern kb hkb repository hrepository) hu
  rw [language.ascii _ fun u hu => (lt_of_isNameUnit (hunits u hu)).1]
  intro hcolon
  obtain ⟨u, hu, heq⟩ := List.mem_map.mp hcolon
  exact (lt_of_isNameUnit (hunits u hu)).2 heq

theorem append_colon_inj {a b y z : JsString} (hy : (0x3A : UInt16) ∉ y) (hz : (0x3A : UInt16) ∉ z)
    (h : a ++ utf16 ":" ++ y = b ++ utf16 ":" ++ z) : a = b := by
  have hcolon : utf16 ":" = [0x3A] := rfl
  rw [hcolon, List.append_assoc, List.append_assoc, List.append_eq_append_iff] at h
  obtain ⟨more, hb, htail⟩ | ⟨more, ha, htail⟩ := h
  · cases more with
    | nil => rw [hb, List.append_nil]
    | cons u more =>
      have hmore : y = more ++ 0x3A :: z := (List.cons.inj htail).2
      exact absurd (hmore ▸ List.mem_append_right more List.mem_cons_self) hy
  · cases more with
    | nil => rw [ha, List.append_nil]
    | cons u more =>
      have hmore : z = more ++ 0x3A :: y := (List.cons.inj htail).2
      exact absurd (hmore ▸ List.mem_append_right more List.mem_cons_self) hz

theorem credential_of_discoveryKey {theirs : GitHubConfig} (hkb : kb ∈ config.knowledgeBases)
    (hother : other ∈ config.knowledgeBases) (h : discoveryKey language own kb = discoveryKey language theirs other) :
    gitHubCredentialKey language own = gitHubCredentialKey language theirs :=
  append_colon_inj (colon_notMem hkb) (colon_notMem hother) h

theorem get_setAll_same : (clients.setAll (repositories.map fun repo => (key repo, client))).get x =
    if x ∈ repositories.map key then some client else clients.get x := by
  induction repositories generalizing clients with
  | nil => rfl
  | cons repo repositories ih =>
    rw [List.map_cons, KeyedMap.setAll, List.foldl_cons, ← KeyedMap.setAll, ih, KeyedMap.get_set, List.map_cons]
    by_cases hrest : x ∈ repositories.map key
    · rw [if_pos hrest, if_pos (List.mem_cons_of_mem _ hrest)]
    · by_cases hkey : key repo = x
      · rw [if_neg hrest, if_pos hkey, if_pos (hkey ▸ List.mem_cons_self)]
      · rw [if_neg hrest, if_neg hkey, if_neg (by simp [Ne.symm hkey, hrest])]

theorem get_relist (h : (clients.map (·.1)).Nodup) : (relist language clients discovery repositories).get x =
    if x ∈ repositories.map key then some (discovery.client language)
    else (clients.get x).filter fun client => client.credential ≠ gitHubCredentialKey language discovery.credentials := by
  have hlisted : ∀ x, (KeyedMap.setAll [] (repositories.map fun repo => (key repo, discovery.client language))).get x =
      if x ∈ repositories.map key then some (discovery.client language) else none := fun x => get_setAll_same
  have hnodup : ((KeyedMap.setAll [] (repositories.map fun repo => (key repo, discovery.client language))).map (·.1)).Nodup :=
    KeyedMap.nodup_setAll (m := []) List.nodup_nil
  rw [relist, KeyedMap.get_setAll_of_nodup hnodup, KeyedMap.get_filter _ h, hlisted]
  split
  · rfl
  · rename_i hx
    simp [hlisted, hx]

theorem nodup_relist (h : (clients.map (·.1)).Nodup) :
    ((relist language clients discovery repositories).map (·.1)).Nodup :=
  KeyedMap.nodup_setAll (KeyedMap.nodup_filter _ h)

inductive Moves (language : Language) (config : Config) (s : State) : Event → State → Prop
  | joined {k d : Nat} {readable : Bool} {kb : GitKnowledgeBase} {own : GitHubConfig} :
      config.knowledgeBases[k]? = some kb → credentials config kb = some own →
      s.discoveries.get (discoveryKey language own kb) = some d →
      Moves language config s (.repository k readable) { s with asked := s.asked ++ [(k, d)] }
  | discovers {k : Nat} {readable : Bool} {kb : GitKnowledgeBase} {own : GitHubConfig} :
      config.knowledgeBases[k]? = some kb → credentials config kb = some own →
      Moves language config s (.repository k readable) { s with
        apps := (discover s.apps kb own readable).1
        discoveries := s.discoveries.set (discoveryKey language own kb) s.started.length
        started := s.started ++ [(discover s.apps kb own readable).2]
        asked := s.asked ++ [(k, s.started.length)] }
  | forgets {k : Nat} {key : JsString} :
      Moves language config s (.forget k) { s with discoveries := s.discoveries.delete key }
  | yields {d : Nat} {discovery : Discovery} {repository : GitHubRepository} {repositories : List GitHubRepository} :
      s.started[d]? = some discovery →
      Moves language config s (.yield d repository) (s.advance d discovery (.listing repositories))
  | lists {d : Nat} {discovery : Discovery} {repositories : List GitHubRepository} :
      s.started[d]? = some discovery → discovery.progress = .listing repositories →
      Moves language config s (.listed d) (s.listed language d discovery repositories)
  | finds {d : Nat} {discovery : Discovery} {repository : GitHubRepository} :
      s.started[d]? = some discovery → discovery.progress = .reading →
      Moves language config s (.found d repository) (s.found language d discovery repository)
  | fails {d : Nat} {discovery : Discovery} :
      s.started[d]? = some discovery → Moves language config s (.fail d) (s.advance d discovery (.rejected false))
  | drops {d : Nat} {discovery : Discovery} {key : JsString} :
      s.started[d]? = some discovery →
      Moves language config s (.drop d) { s.advance d discovery (.rejected true) with discoveries := s.discoveries.delete key }
  | calls {k d : Nat} {discovery : Discovery} {repository : GitHubRepository} :
      (k, d) ∈ s.asked → s.started[d]? = some discovery → discovery.progress = .resolved repository →
      Moves language config s (.call k d) { s with
        calls := s.calls ++ [{ kb := k, repository := repository, client := s.clients.get (key repository) }] }

theorem moves_of_step (h : step language config s event = some t) : Moves language config s event t := by
  cases event with
  | repository k readable =>
    obtain ⟨kb, hkb, h⟩ := Option.bind_eq_some_iff.mp h
    obtain ⟨own, hown, rfl⟩ := Option.map_eq_some_iff.mp h
    rw [State.repository]
    split
    · rename_i d hd
      exact .joined hkb hown hd
    · exact .discovers hkb hown
  | forget k =>
    obtain ⟨kb, hkb, h⟩ := Option.bind_eq_some_iff.mp h
    obtain ⟨own, hown, rfl⟩ := Option.map_eq_some_iff.mp h
    exact .forgets
  | yield d repository =>
    obtain ⟨discovery, hdiscovery, h⟩ := Option.bind_eq_some_iff.mp h
    split at h
    · cases h
      exact .yields hdiscovery
    · cases h
  | listed d =>
    obtain ⟨discovery, hdiscovery, h⟩ := Option.bind_eq_some_iff.mp h
    split at h
    · rename_i repositories hprogress
      cases h
      exact .lists hdiscovery hprogress
    · cases h
  | found d repository =>
    obtain ⟨discovery, hdiscovery, h⟩ := Option.bind_eq_some_iff.mp h
    split at h
    · rename_i hprogress
      cases h
      exact .finds hdiscovery hprogress
    · cases h
  | fail d =>
    obtain ⟨discovery, hdiscovery, h⟩ := Option.bind_eq_some_iff.mp h
    split at h
    · cases h
      exact .fails hdiscovery
    · cases h
      exact .fails hdiscovery
    · cases h
  | drop d =>
    obtain ⟨discovery, hdiscovery, h⟩ := Option.bind_eq_some_iff.mp h
    split at h
    · cases h
      exact .drops hdiscovery
    · cases h
  | call k d =>
    rw [step] at h
    split at h
    · rename_i hasked
      obtain ⟨discovery, hdiscovery, h⟩ := Option.bind_eq_some_iff.mp h
      split at h
      · rename_i repository hprogress
        cases h
        exact .calls hasked hdiscovery hprogress
      · cases h
    · cases h

structure Discovery.Owned (language : Language) (config : Config) (discovery : Discovery) : Prop where
  mem : discovery.kb ∈ config.knowledgeBases
  configured : GitHub.credentials config discovery.kb = some discovery.credentials
  octokit : gitHubCredentialKey language discovery.octokit = gitHubCredentialKey language discovery.credentials

def AppsOwned (apps : KeyedMap JsString GitHubConfig) : Prop :=
  ∀ clientId app, apps.get clientId = some app → ∃ privateKey options, app = .app clientId privateKey options

structure Kept (language : Language) (config : Config) (s : State) : Prop where
  apps : AppsOwned s.apps
  nodup : (s.clients.map (·.1)).Nodup
  clients : ∀ x client, s.clients.get x = some client →
    gitHubCredentialKey language client.octokit = client.credential
  started : ∀ discovery ∈ s.started, discovery.Owned language config
  discoveries : ∀ x d, s.discoveries.get x = some d →
    ∃ discovery, s.started[d]? = some discovery ∧ x = discoveryKey language discovery.credentials discovery.kb
  asked : ∀ k d, (k, d) ∈ s.asked → ∃ discovery kb own, s.started[d]? = some discovery ∧
    config.knowledgeBases[k]? = some kb ∧ credentials config kb = some own ∧
    gitHubCredentialKey language discovery.credentials = gitHubCredentialKey language own
  given : ∀ d, d < s.started.length → ∃ k, (k, d) ∈ s.asked

theorem kept_start : Kept language config {} := by
  constructor
  case nodup => exact List.nodup_nil
  all_goals simp [AppsOwned]

theorem getElem?_advance (progress : Progress) (h : s.started[d]? = some discovery) {other : Discovery}
    (hother : s.started[j]? = some other) :
    ∃ next, (s.advance d discovery progress).started[j]? = some next ∧ next.kb = other.kb ∧
      next.credentials = other.credentials := by
  rw [State.advance]
  by_cases hj : d = j
  · subst hj
    obtain rfl : discovery = other := Option.some.inj (h.symm.trans hother)
    exact ⟨_, List.getElem?_set_self (List.getElem?_eq_some_iff.mp h).1, rfl, rfl⟩
  · exact ⟨other, by rw [List.getElem?_set_ne hj, hother], rfl, rfl⟩

theorem Kept.advance (h : Kept language config s) (hdiscovery : s.started[d]? = some discovery) (progress : Progress) :
    Kept language config (s.advance d discovery progress) where
  apps := h.apps
  nodup := h.nodup
  clients := h.clients
  started other hother := by
    have howned := h.started discovery (List.mem_of_getElem? hdiscovery)
    obtain hother | rfl := List.mem_or_eq_of_mem_set hother
    · exact h.started other hother
    · exact ⟨howned.mem, howned.configured, howned.octokit⟩
  discoveries x j hx := by
    obtain ⟨other, hother, rfl⟩ := h.discoveries x j hx
    obtain ⟨next, hnext, hkb, hcredentials⟩ := getElem?_advance progress hdiscovery hother
    exact ⟨next, hnext, by rw [hkb, hcredentials]⟩
  asked k j hasked := by
    obtain ⟨other, kb, own, hother, hkb, hown, hsame⟩ := h.asked k j hasked
    obtain ⟨next, hnext, -, hcredentials⟩ := getElem?_advance progress hdiscovery hother
    exact ⟨next, kb, own, hnext, hkb, hown, hcredentials ▸ hsame⟩
  given j hj := h.given j (by rwa [State.advance, List.length_set] at hj)

theorem Kept.delete (h : Kept language config s) (x : JsString) :
    Kept language config { s with discoveries := s.discoveries.delete x } where
  apps := h.apps
  nodup := h.nodup
  clients := h.clients
  started := h.started
  discoveries y d hy := by
    rw [KeyedMap.get_delete] at hy
    split at hy
    · cases hy
    · exact h.discoveries y d hy
  asked := h.asked
  given := h.given

structure Starts (language : Language) (kb : GitKnowledgeBase) (own : GitHubConfig)
    (discovered : KeyedMap JsString GitHubConfig × Discovery) : Prop where
  apps : AppsOwned discovered.1
  kb : discovered.2.kb = kb
  credentials : discovered.2.credentials = own
  octokit : gitHubCredentialKey language discovered.2.octokit = gitHubCredentialKey language own
  unresolved : ∀ repository, discovered.2.progress ≠ .resolved repository

theorem discover_starts {apps : KeyedMap JsString GitHubConfig} (h : AppsOwned apps) (kb : GitKnowledgeBase)
    (own : GitHubConfig) (readable : Bool) : Starts language kb own (discover apps kb own readable) := by
  cases own with
  | token token options =>
    refine ⟨h, rfl, rfl, rfl, fun repository => ?_⟩
    simp only [discover]
    split <;> simp
  | app clientId privateKey options =>
    rw [discover]
    simp only [getApp]
    cases happ : apps.get clientId with
    | some app =>
      obtain ⟨key, settings, rfl⟩ := h clientId app happ
      exact ⟨h, rfl, rfl, rfl, fun repository hrepository => by cases hrepository⟩
    | none =>
      cases readable with
      | false => exact ⟨h, rfl, rfl, rfl, fun repository hrepository => by cases hrepository⟩
      | true =>
        refine ⟨fun other app hother => ?_, rfl, rfl, rfl, fun repository hrepository => by cases hrepository⟩
        have hset : (apps.set clientId (.app clientId privateKey options)).get other = some app := hother
        rw [KeyedMap.get_set] at hset
        split at hset
        · rename_i hsame
          cases hset
          exact ⟨privateKey, options, hsame ▸ rfl⟩
        · exact h other app hset

theorem Kept.discovers (h : Kept language config s) (readable : Bool) (hkb : config.knowledgeBases[k]? = some kb)
    (hown : credentials config kb = some own) : Kept language config { s with
      apps := (discover s.apps kb own readable).1
      discoveries := s.discoveries.set (discoveryKey language own kb) s.started.length
      started := s.started ++ [(discover s.apps kb own readable).2]
      asked := s.asked ++ [(k, s.started.length)] } := by
  have hstarts : Starts language kb own (discover s.apps kb own readable) := discover_starts h.apps kb own readable
  have hold : ∀ {d : Nat} {discovery : Discovery}, s.started[d]? = some discovery →
      (s.started ++ [(discover s.apps kb own readable).2])[d]? = some discovery := fun hd => by
    rw [List.getElem?_append_left (List.getElem?_eq_some_iff.mp hd).1, hd]
  constructor
  case apps => exact hstarts.apps
  case nodup => exact h.nodup
  case clients => exact h.clients
  case started =>
    intro discovery hdiscovery
    obtain hdiscovery | hdiscovery := List.mem_append.mp hdiscovery
    · exact h.started discovery hdiscovery
    · rw [List.mem_singleton.mp hdiscovery]
      refine ⟨?_, ?_, ?_⟩
      · rw [hstarts.kb]
        exact List.mem_of_getElem? hkb
      · rw [hstarts.kb, hstarts.credentials, hown]
      · rw [hstarts.octokit, hstarts.credentials]
  case discoveries =>
    intro x d hx
    have hset : (s.discoveries.set (discoveryKey language own kb) s.started.length).get x = some d := hx
    rw [KeyedMap.get_set] at hset
    split at hset
    · rename_i hkey
      cases hset
      refine ⟨_, List.getElem?_concat_length, ?_⟩
      rw [← hkey, hstarts.kb, hstarts.credentials]
    · obtain ⟨discovery, hdiscovery, hkey⟩ := h.discoveries x d hset
      exact ⟨discovery, hold hdiscovery, hkey⟩
  case asked =>
    intro j d hasked
    obtain hasked | hasked := List.mem_append.mp hasked
    · obtain ⟨discovery, other, theirs, hdiscovery, hrest⟩ := h.asked j d hasked
      exact ⟨discovery, other, theirs, hold hdiscovery, hrest⟩
    · cases List.mem_singleton.mp hasked
      refine ⟨_, kb, own, List.getElem?_concat_length, hkb, hown, ?_⟩
      rw [hstarts.credentials]
  case given =>
    intro d hd
    rw [List.length_append, List.length_singleton, Nat.lt_succ_iff_lt_or_eq] at hd
    obtain hd | rfl := hd
    · obtain ⟨j, hj⟩ := h.given d hd
      exact ⟨j, List.mem_append_left _ hj⟩
    · exact ⟨k, List.mem_append_right _ (List.mem_singleton_self _)⟩

theorem Kept.joined (h : Kept language config s) (hkb : config.knowledgeBases[k]? = some kb)
    (hown : credentials config kb = some own) (hd : s.discoveries.get (discoveryKey language own kb) = some d) :
    Kept language config { s with asked := s.asked ++ [(k, d)] } := by
  refine { h with asked := fun j e hasked => ?_, given := fun e he => ?_ }
  case refine_2 =>
    obtain ⟨j, hj⟩ := h.given e he
    exact ⟨j, List.mem_append_left _ hj⟩
  obtain hasked | hasked := List.mem_append.mp hasked
  · exact h.asked j e hasked
  · cases List.mem_singleton.mp hasked
    obtain ⟨discovery, hdiscovery, hkey⟩ := h.discoveries _ _ hd
    have howned := h.started discovery (List.mem_of_getElem? hdiscovery)
    exact ⟨discovery, kb, own, hdiscovery, hkb, hown,
      (credential_of_discoveryKey (List.mem_of_getElem? hkb) howned.mem hkey).symm⟩

theorem Kept.replace (h : Kept language config s) (hnodup : (clients.map (·.1)).Nodup)
    (hclients : ∀ x client, clients.get x = some client →
      gitHubCredentialKey language client.octokit = client.credential) :
    Kept language config { s with clients := clients } :=
  { h with nodup := hnodup, clients := hclients }

theorem Discovery.Owned.created (h : discovery.Owned language config) :
    gitHubCredentialKey language (discovery.client language).octokit = (discovery.client language).credential :=
  h.octokit

theorem kept_step (h : Kept language config s) (hstep : step language config s event = some t) :
    Kept language config t := by
  cases moves_of_step hstep with
  | joined hkb hown hd => exact h.joined hkb hown hd
  | discovers hkb hown => exact h.discovers _ hkb hown
  | forgets => exact h.delete _
  | yields hdiscovery => exact h.advance hdiscovery _
  | fails hdiscovery => exact h.advance hdiscovery _
  | drops hdiscovery => exact (h.advance hdiscovery _).delete _
  | calls _ _ _ => exact ⟨h.apps, h.nodup, h.clients, h.started, h.discoveries, h.asked, h.given⟩
  | @lists d discovery repositories hdiscovery _ =>
    refine (h.advance hdiscovery _).replace (nodup_relist h.nodup) fun x client hclient => ?_
    rw [get_relist h.nodup] at hclient
    split at hclient
    · cases hclient
      exact (h.started discovery (List.mem_of_getElem? hdiscovery)).created
    · exact h.clients x client (Option.filter_eq_some_iff.mp hclient).1
  | @finds d discovery repository hdiscovery _ =>
    refine (h.advance hdiscovery _).replace (KeyedMap.nodup_set h.nodup) fun x client hclient => ?_
    rw [KeyedMap.get_set] at hclient
    split at hclient
    · cases hclient
      exact (h.started discovery (List.mem_of_getElem? hdiscovery)).created
    · exact h.clients x client hclient

theorem kept_of_run {events : List Event} (hrun : run (step language config) {} events = some s) :
    Kept language config s :=
  invariant (fun _ _ _ h hstep => kept_step h hstep) kept_start hrun

end HomelabApps.KnowledgeBase.GitHub
