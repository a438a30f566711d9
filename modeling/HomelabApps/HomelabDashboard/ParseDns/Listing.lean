import HomelabApps.HomelabDashboard.ParseDns.Reach

namespace HomelabApps.HomelabDashboard

open HomelabApps.Library
open HomelabApps.Library.Utf16
open HomelabApps.Library.Json (isDigit natOf)

variable {runtime : Runtime} {records : List DnsRecord} {anchors : List Anchor} {r : DnsRecord} {settings : Settings}
  {clusterMap : KeyedMap Nat (List Service)} {cfg : AppConfig} {i index : Nat}

def place (runtime : Runtime) (settings : Settings) (tables : Tables) (r : DnsRecord) : Option Nat :=
  if !r.isEnabled || (settings.pattern r.name).isSome || settings.excluded.contains (r.hostname runtime) then none
  else targetIndex runtime tables r

def listing (runtime : Runtime) (settings : Settings) (r : DnsRecord) : Service :=
  service (r.hostname runtime) settings.scheme settings.paths

theorem targetIndex_anchor (h : targetIndex runtime (tables runtime records anchors) r = some index) :
    index ∈ anchors.map (·.index) := by
  rw [targetIndex] at h
  split at h
  · obtain ⟨anchor, hmem, -, rfl⟩ := get_ipToIndex h
    exact List.mem_map_of_mem hmem
  · split at h
    · exact (leads_of_resolveCname h).isAnchor
    · cases h

theorem place_anchor (h : place runtime settings (tables runtime records anchors) r = some index) :
    index ∈ anchors.map (·.index) := by
  rw [place] at h
  split at h
  · cases h
  · exact targetIndex_anchor h

def placed (runtime : Runtime) (settings : Settings) (tables : Tables) (i : Nat) (records : List DnsRecord) :
    List Service :=
  records.filterMap fun r => if place runtime settings tables r = some i then some (listing runtime settings r) else none

theorem assignService_eq (hkeys : ∀ index ∈ anchors.map (·.index), ∃ services, clusterMap.get index = some services) :
    assignService runtime settings (tables runtime records anchors) clusterMap r =
      match place runtime settings (tables runtime records anchors) r with
      | none => clusterMap
      | some index => clusterMap.set index ((clusterMap.get index).getD [] ++ [listing runtime settings r]) := by
  rw [assignService, place]
  cases hskip : !r.isEnabled || (settings.pattern r.name).isSome with
  | true => rfl
  | false =>
    rw [if_neg Bool.false_ne_true, Bool.false_or]
    cases htarget : targetIndex runtime (tables runtime records anchors) r with
    | none => simp
    | some index =>
      obtain ⟨services, hget⟩ := hkeys index (targetIndex_anchor htarget)
      cases hexcluded : settings.excluded.contains (r.hostname runtime) with
      | true => simp [hget]
      | false => simp [hget, listing]

theorem get_assignService (hkeys : ∀ index ∈ anchors.map (·.index), ∃ services, clusterMap.get index = some services) :
    (assignService runtime settings (tables runtime records anchors) clusterMap r).get i =
      (clusterMap.get i).map (· ++ placed runtime settings (tables runtime records anchors) i [r]) := by
  rw [assignService_eq hkeys, placed, List.filterMap_cons, List.filterMap_nil]
  cases hplace : place runtime settings (tables runtime records anchors) r with
  | none => simp
  | some index =>
    obtain ⟨services, hget⟩ := hkeys index (place_anchor hplace)
    dsimp only
    rw [KeyedMap.get_set]
    by_cases heq : index = i
    · rw [if_pos heq, ← heq, hget]
      simp
    · rw [if_neg heq, if_neg fun h => heq (Option.some.inj h)]
      simp

theorem map_assignService (hkeys : ∀ index ∈ anchors.map (·.index), ∃ services, clusterMap.get index = some services) :
    (assignService runtime settings (tables runtime records anchors) clusterMap r).map (·.1) = clusterMap.map (·.1) := by
  rw [assignService_eq hkeys]
  cases hplace : place runtime settings (tables runtime records anchors) r with
  | none => rfl
  | some index =>
    obtain ⟨services, hget⟩ := hkeys index (place_anchor hplace)
    exact KeyedMap.map_set_of_mem (List.mem_map_of_mem (KeyedMap.mem_of_get hget))

theorem foldl_assignService (rest : List DnsRecord)
    (hkeys : ∀ index ∈ anchors.map (·.index), ∃ services, clusterMap.get index = some services) :
    (rest.foldl (assignService runtime settings (tables runtime records anchors)) clusterMap).map (·.1) =
        clusterMap.map (·.1) ∧
      ∀ i, (rest.foldl (assignService runtime settings (tables runtime records anchors)) clusterMap).get i =
        (clusterMap.get i).map (· ++ placed runtime settings (tables runtime records anchors) i rest) := by
  induction rest generalizing clusterMap with
  | nil =>
    refine ⟨rfl, fun i => ?_⟩
    rw [List.foldl_nil, placed, List.filterMap_nil]
    simp
  | cons r rest ih =>
    have hnext : ∀ index ∈ anchors.map (·.index), ∃ services,
        (assignService runtime settings (tables runtime records anchors) clusterMap r).get index = some services := by
      intro index hindex
      obtain ⟨services, hget⟩ := hkeys index hindex
      rw [get_assignService hkeys, hget]
      exact ⟨_, rfl⟩
    obtain ⟨hmap, hget⟩ := ih hnext
    rw [List.foldl_cons]
    refine ⟨hmap.trans (map_assignService hkeys), fun i => ?_⟩
    rw [hget, get_assignService hkeys, Option.map_map]
    congr 1
    funext services
    rw [Function.comp_apply, List.append_assoc, placed, placed, placed, ← List.filterMap_append, List.singleton_append]

theorem get_emptyClusters (h : index ∈ anchors.map (·.index)) : (emptyClusters anchors).get index = some [] := by
  obtain ⟨anchor, hmem, rfl⟩ := List.mem_map.mp h
  obtain ⟨services, hget⟩ := KeyedMap.exists_get_setAll
    (List.mem_map_of_mem (f := fun a : Anchor => (a.index, ([] : List Service)))
      (List.mem_mergeSort.mpr hmem))
  obtain ⟨other, -, heq⟩ := List.mem_map.mp (KeyedMap.mem_of_get_setAll hget)
  rw [emptyClusters, hget, ← (Prod.mk.inj heq).2]

theorem nodup_emptyClusters : ((emptyClusters anchors).map (·.1)).Nodup := KeyedMap.nodup_setAll List.nodup_nil

theorem mem_emptyClusters (h : index ∈ (emptyClusters anchors).map (·.1)) : index ∈ anchors.map (·.index) := by
  obtain ⟨entry, hmem, rfl⟩ := List.mem_map.mp h
  have hget := KeyedMap.get_of_mem nodup_emptyClusters hmem
  obtain ⟨anchor, hanchor, heq⟩ := List.mem_map.mp (KeyedMap.mem_of_get_setAll hget)
  rw [← (Prod.mk.inj heq).1]
  exact List.mem_map_of_mem (List.mem_mergeSort.mp hanchor)

structure Assigned (runtime : Runtime) (settings : Settings) (records : List DnsRecord) (anchors : List Anchor)
    (clusterMap : KeyedMap Nat (List Service)) : Prop where
  nodup : (clusterMap.map (·.1)).Nodup
  keys : ∀ index, index ∈ clusterMap.map (·.1) ↔ index ∈ anchors.map (·.index)
  services : ∀ entry ∈ clusterMap,
    entry.2 = placed runtime settings (tables runtime records anchors) entry.1 records

theorem assigned : Assigned runtime settings records anchors (assignServices runtime settings records anchors) := by
  have hkeys : ∀ index ∈ anchors.map (·.index), ∃ services, (emptyClusters anchors).get index = some services :=
    fun index hindex => ⟨[], get_emptyClusters hindex⟩
  obtain ⟨hmap, hget⟩ : (assignServices runtime settings records anchors).map (·.1) = (emptyClusters anchors).map (·.1) ∧
      ∀ i, (assignServices runtime settings records anchors).get i = ((emptyClusters anchors).get i).map
        (· ++ placed runtime settings (tables runtime records anchors) i records) := foldl_assignService records hkeys
  have hindex : ∀ index, index ∈ (assignServices runtime settings records anchors).map (·.1) ↔
      index ∈ anchors.map (·.index) := by
    intro index
    rw [hmap]
    constructor
    · exact mem_emptyClusters
    · exact fun h => List.mem_map_of_mem (KeyedMap.mem_of_get (get_emptyClusters h))
  have hnodup : ((assignServices runtime settings records anchors).map (·.1)).Nodup := by
    rw [hmap]
    exact nodup_emptyClusters
  refine ⟨hnodup, hindex, fun entry hentry => ?_⟩
  have hsome := hget entry.1
  rw [KeyedMap.get_of_mem hnodup hentry, get_emptyClusters ((hindex _).mp (List.mem_map_of_mem hentry)),
    Option.map_some, List.nil_append] at hsome
  exact Option.some.inj hsome

def listings (runtime : Runtime) (settings : Settings) (tables : Tables) (records : List DnsRecord) :
    List (Nat × Service) :=
  records.filterMap fun r => (place runtime settings tables r).map fun index => (index, listing runtime settings r)

theorem placed_eq (tables : Tables) : (placed runtime settings tables i records).map (fun s => (i, s)) =
    (listings runtime settings tables records).filter fun e => e.1 = i := by
  induction records with
  | nil => rfl
  | cons r records ih =>
    rw [placed, listings, List.filterMap_cons, List.filterMap_cons, ← placed, ← listings]
    cases hplace : place runtime settings tables r with
    | none => exact ih
    | some index =>
      dsimp only [Option.map_some]
      rw [List.filter_cons, ← ih]
      by_cases heq : index = i
      · rw [if_pos (congrArg some heq), if_pos (decide_eq_true heq), heq]
        rfl
      · rw [if_neg fun h => heq (Option.some.inj h), if_neg (by rwa [decide_eq_true_eq])]

theorem Assigned.perm (h : Assigned runtime settings records anchors clusterMap) :
    (clusterMap.flatMap fun e => e.2.map fun s => (e.1, s)).Perm
      (listings runtime settings (tables runtime records anchors) records) := by
  have hgather : (clusterMap.flatMap fun e => e.2.map fun s => (e.1, s)) =
      (clusterMap.map (·.1)).flatMap fun i =>
        (listings runtime settings (tables runtime records anchors) records).filter fun e => e.1 = i := by
    rw [List.flatMap_map]
    apply List.flatMap_congr
    intro entry hentry
    rw [← placed_eq, ← h.services entry hentry]
  rw [hgather]
  apply KeyedMap.flatMap_filter_perm h.nodup
  intro entry hentry
  obtain ⟨r, -, hr⟩ := List.mem_filterMap.mp hentry
  obtain ⟨index, hplace, rfl⟩ := Option.map_eq_some_iff.mp hr
  exact (h.keys index).mpr (place_anchor hplace)

theorem mapM_clusterOf (runtime : Runtime) {anchorByIndex : KeyedMap Nat Anchor} {entries : List (Nat × List Service)}
    (h : ∀ entry ∈ entries, ∃ anchor, anchorByIndex.get entry.1 = some anchor) :
    ∃ clusters, entries.mapM (clusterOf runtime anchorByIndex) = some clusters ∧
      List.Forall₂ (fun entry c => c.index = entry.1 ∧ c.services.Perm entry.2) entries clusters := by
  induction entries with
  | nil => exact ⟨[], rfl, .nil⟩
  | cons entry entries ih =>
    obtain ⟨anchor, hanchor⟩ := h entry List.mem_cons_self
    obtain ⟨clusters, hmap, hall⟩ := ih fun other hother => h other (List.mem_cons_of_mem _ hother)
    rw [List.mapM_cons, hmap, clusterOf, hanchor]
    exact ⟨_, rfl, .cons ⟨rfl, List.mergeSort_perm _ _⟩ hall⟩

theorem shown_perm {entries : List (Nat × List Service)} {clusters : List Cluster}
    (h : List.Forall₂ (fun entry c => c.index = entry.1 ∧ c.services.Perm entry.2) entries clusters) :
    ((clusters.filter fun c => 0 < c.services.length).flatMap fun c => c.services.map fun s => (c.index, s)).Perm
      (entries.flatMap fun e => e.2.map fun s => (e.1, s)) := by
  induction h with
  | nil => exact .nil
  | @cons entry c entries clusters hhead _ ih =>
    obtain ⟨hindex, hperm⟩ := hhead
    rw [List.flatMap_cons, List.filter_cons]
    split
    · rw [List.flatMap_cons, hindex]
      exact (hperm.map _).append ih
    · rename_i hempty
      have hnone : c.services = [] := by simpa using hempty
      rw [hnone] at hperm
      rw [← hperm.nil_eq]
      exact ih

theorem indexes_eq {entries : List (Nat × List Service)} {clusters : List Cluster}
    (h : List.Forall₂ (fun entry c => c.index = entry.1 ∧ c.services.Perm entry.2) entries clusters) :
    clusters.map (·.index) = entries.map (·.1) := by
  induction h with
  | nil => rfl
  | cons hhead _ ih => rw [List.map_cons, List.map_cons, hhead.1, ih]

def listedUnder (runtime : Runtime) (records : List DnsRecord) (cfg : AppConfig) (r : DnsRecord) : Option Nat :=
  place runtime (settingsOf runtime cfg) (tables runtime records (findAnchors runtime records cfg.serverPattern)) r

structure Wanted (runtime : Runtime) (cfg : AppConfig) (r : DnsRecord) : Prop where
  enabled : r.isEnabled = true
  cname : r.isCname = true
  notAnchor : cfg.serverPattern r.name = none
  notExcluded : r.hostname runtime ∉ (cfg.exclude.getD []).map runtime.toLowerCase

structure Lists (runtime : Runtime) (records : List DnsRecord) (cfg : AppConfig) (clusters : List Cluster) : Prop where
  nodup : (clusters.map (·.index)).Nodup
  perm : (clusters.flatMap fun c => c.services.map fun s => (c.index, s)).Perm
    (records.filterMap fun r => (listedUnder runtime records cfg r).map fun index =>
      (index, listing runtime (settingsOf runtime cfg) r))

theorem lists (hanchors : findAnchors runtime records cfg.serverPattern ≠ []) :
    ∃ clusters, parseDnsRecords runtime records cfg = some clusters ∧ Lists runtime records cfg clusters := by
  have hassigned : Assigned runtime (settingsOf runtime cfg) records (findAnchors runtime records cfg.serverPattern)
      (assignServices runtime (settingsOf runtime cfg) records (findAnchors runtime records cfg.serverPattern)) := assigned
  have hanchor : ∀ entry ∈ assignServices runtime (settingsOf runtime cfg) records
      (findAnchors runtime records cfg.serverPattern), ∃ anchor,
      (KeyedMap.setAll [] ((findAnchors runtime records cfg.serverPattern).map fun a => (a.index, a))).get entry.1 =
        some anchor := by
    intro entry hentry
    obtain ⟨anchor, hmem, hindex⟩ := List.mem_map.mp ((hassigned.keys _).mp (List.mem_map_of_mem hentry))
    rw [← hindex]
    exact KeyedMap.exists_get_setAll (List.mem_map_of_mem (f := fun a : Anchor => (a.index, a)) hmem)
  obtain ⟨clusters, hmap, hall⟩ := mapM_clusterOf runtime hanchor
  refine ⟨clusters.filter fun c => 0 < c.services.length, ?_, ?_, ?_⟩
  · rw [parseDnsRecords]
    change (if findAnchors runtime records cfg.serverPattern = [] then _ else _) = _
    rw [if_neg hanchors]
    exact congrArg (Option.map _) hmap
  · have hnodup := hassigned.nodup
    rw [← indexes_eq hall] at hnodup
    exact hnodup.sublist (List.filter_sublist.map _)
  · exact (shown_perm hall).trans hassigned.perm

theorem listedUnder_eq (hr : Wanted runtime cfg r) : listedUnder runtime records cfg r =
    resolveCname runtime r.value (tables runtime records (findAnchors runtime records cfg.serverPattern)) := by
  have hexcluded : (settingsOf runtime cfg).excluded.contains (r.hostname runtime) = false := by
    rw [List.contains_eq_mem, decide_eq_false_iff_not]
    exact hr.notExcluded
  have hpattern : ((settingsOf runtime cfg).pattern r.name).isSome = false := congrArg Option.isSome hr.notAnchor
  have ha : ¬r.isA = true := fun ha => by
    have hcname := hr.cname
    rw [isCname_of_isA ha] at hcname
    cases hcname
  rw [listedUnder, place, hr.enabled, hpattern, hexcluded, Bool.not_true, Bool.false_or, Bool.false_or,
    if_neg Bool.false_ne_true, targetIndex, if_neg ha, if_pos hr.cname]

theorem parseDnsRecords_iff (runtime : Runtime) (records : List DnsRecord) (cfg : AppConfig)
    (hanchors : findAnchors runtime records cfg.serverPattern ≠ []) :
    (∃ clusters, parseDnsRecords runtime records cfg = some clusters ∧ Lists runtime records cfg clusters ∧
      ∀ r ∈ records, Wanted runtime cfg r →
        ((∃ index, listedUnder runtime records cfg r = some index) ↔
          ∃ index, Leads runtime (findAnchors runtime records cfg.serverPattern) (Named runtime records)
            (runtime.toLowerCase r.value) index) ∧
        ∀ index, listedUnder runtime records cfg r = some index →
          Leads runtime (findAnchors runtime records cfg.serverPattern) (Named runtime records)
            (runtime.toLowerCase r.value) index) ↔
    ∀ r ∈ records, Wanted runtime cfg r →
      (∃ index, Leads runtime (findAnchors runtime records cfg.serverPattern) (Named runtime records)
        (runtime.toLowerCase r.value) index) →
      ∃ index, Leads runtime (findAnchors runtime records cfg.serverPattern) (LastNamed runtime records)
        (runtime.toLowerCase r.value) index := by
  have hsound : ∀ r, Wanted runtime cfg r → ∀ index, listedUnder runtime records cfg r = some index →
      Leads runtime (findAnchors runtime records cfg.serverPattern) (Named runtime records)
        (runtime.toLowerCase r.value) index := by
    intro r hr index h
    rw [listedUnder_eq hr] at h
    exact (leads_of_resolveCname h).mono fun _ _ => LastNamed.isNamed
  constructor
  · intro h r hmem hr hleads
    obtain ⟨clusters, -, -, hlisted⟩ := h
    have hsome := (hlisted r hmem hr).1.mpr hleads
    rw [listedUnder_eq hr] at hsome
    exact exists_resolveCname.mp hsome
  · intro h
    obtain ⟨clusters, hparse, hlists⟩ := lists hanchors
    refine ⟨clusters, hparse, hlists, fun r hmem hr => ⟨⟨fun hsome => ?_, fun hleads => ?_⟩, hsound r hr⟩⟩
    · obtain ⟨index, hindex⟩ := hsome
      exact ⟨index, hsound r hr index hindex⟩
    · rw [listedUnder_eq hr]
      exact exists_resolveCname.mpr (h r hmem hr hleads)

def lowerRuntime : Runtime where
  toLowerCase s := s
  parseInt := natOf
  localeCompare a b := if a < b then .lt else if a = b then .eq else .gt

def serverConfig : AppConfig where
  serverPattern key :=
    let index := key.drop 6
    if key.take 6 = utf16 "server" && index ≠ [] && index.all isDigit then some [some index] else none
  scheme := none
  exclude := none
  paths := none

def record (recordType key value : String) : DnsRecord where
  key := some (utf16 key)
  value := utf16 value
  recordType := utf16 recordType
  enabled := none

theorem parseDnsRecords_server :
    ∃ clusters, parseDnsRecords lowerRuntime [record "A" "server1" "10.0.0.1", record "CNAME" "www" "server1"]
      serverConfig = some clusters ∧
      Lists lowerRuntime [record "A" "server1" "10.0.0.1", record "CNAME" "www" "server1"] serverConfig clusters := by
  have hanchors : findAnchors lowerRuntime [record "A" "server1" "10.0.0.1", record "CNAME" "www" "server1"]
      serverConfig.serverPattern = [{ index := 1, ip := utf16 "10.0.0.1", hostname := utf16 "server1" }] := by decide
  have hiff := parseDnsRecords_iff lowerRuntime [record "A" "server1" "10.0.0.1", record "CNAME" "www" "server1"]
    serverConfig (by rw [hanchors]; exact List.cons_ne_nil _ _)
  obtain ⟨clusters, hparse, hlists, -⟩ := hiff.mpr fun r hmem hr _ => by
    cases List.mem_cons.mp hmem with
    | inl heq =>
      have hcname := hr.cname
      rw [heq] at hcname
      exact absurd hcname (by decide)
    | inr hmem =>
      rw [List.mem_singleton.mp hmem, hanchors]
      exact ⟨1, .host List.mem_cons_self⟩
  exact ⟨clusters, hparse, hlists⟩

def twice : List DnsRecord :=
  [record "A" "server1" "10.0.0.1", record "A" "app" "10.0.0.1", record "A" "app" "10.9.9.9", record "CNAME" "www" "app"]

theorem parseDnsRecords_loses :
    ¬ ∀ r ∈ twice, Wanted lowerRuntime serverConfig r →
      ((∃ index, listedUnder lowerRuntime twice serverConfig r = some index) ↔
        ∃ index, Leads lowerRuntime (findAnchors lowerRuntime twice serverConfig.serverPattern)
          (Named lowerRuntime twice) (lowerRuntime.toLowerCase r.value) index) := by
  intro h
  have hwanted : Wanted lowerRuntime serverConfig (record "CNAME" "www" "app") :=
    ⟨by decide, by decide, by decide, List.not_mem_nil⟩
  have hanchors : findAnchors lowerRuntime twice serverConfig.serverPattern =
      [{ index := 1, ip := utf16 "10.0.0.1", hostname := utf16 "server1" }] := by decide
  have hturn : turn lowerRuntime (tables lowerRuntime twice
      [{ index := 1, ip := utf16 "10.0.0.1", hostname := utf16 "server1" }]) (utf16 "app") = .stop none := by decide
  have hleads : Leads lowerRuntime [{ index := 1, ip := utf16 "10.0.0.1", hostname := utf16 "server1" }]
      (Named lowerRuntime twice) (utf16 "app") 1 :=
    .address (r := record "A" "app" "10.0.0.1") ⟨by decide, by decide, by decide⟩ (by decide) List.mem_cons_self rfl
  have hiff := h (record "CNAME" "www" "app") (by decide) hwanted
  rw [hanchors, listedUnder_eq hwanted, hanchors] at hiff
  obtain ⟨index, hindex⟩ := hiff.mpr ⟨1, hleads⟩
  have hnone : resolveCname lowerRuntime (record "CNAME" "www" "app").value (tables lowerRuntime twice
      [{ index := 1, ip := utf16 "10.0.0.1", hostname := utf16 "server1" }]) = none :=
    Links.walk_of_stop List.not_mem_nil hturn
  rw [hnone] at hindex
  cases hindex

end HomelabApps.HomelabDashboard
