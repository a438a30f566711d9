import HomelabApps.HomelabDashboard.ParseDns

namespace HomelabApps.HomelabDashboard

open HomelabApps.Library
open HomelabApps.Library.Utf16

variable {runtime : Runtime} {records : List DnsRecord} {anchors : List Anchor} {r : DnsRecord} {name : JsString}
  {before after : JsString → DnsRecord → Prop} {settings : Settings} {clusterMap : KeyedMap Nat (List Service)}
  {i index : Nat}

inductive Leads (runtime : Runtime) (anchors : List Anchor) (named : JsString → DnsRecord → Prop) : JsString → Nat → Prop
  | host {anchor : Anchor} : anchor ∈ anchors → Leads runtime anchors named anchor.hostname anchor.index
  | address {anchor : Anchor} {name : JsString} {r : DnsRecord} : named name r → r.isA = true → anchor ∈ anchors →
      anchor.ip = r.value → Leads runtime anchors named name anchor.index
  | cname {name : JsString} {r : DnsRecord} {index : Nat} : named name r → r.isCname = true →
      Leads runtime anchors named (runtime.toLowerCase r.value) index → Leads runtime anchors named name index

def Named (runtime : Runtime) (records : List DnsRecord) (name : JsString) (r : DnsRecord) : Prop :=
  r ∈ records ∧ r.isEnabled = true ∧ r.hostname runtime = name

def LastNamed (runtime : Runtime) (records : List DnsRecord) (name : JsString) (r : DnsRecord) : Prop :=
  (records.reverse.find? fun r => r.isEnabled && r.hostname runtime = name) = some r

theorem LastNamed.isNamed (h : LastNamed runtime records name r) : Named runtime records name r := by
  have hmem := List.mem_reverse.mp (List.mem_of_find?_eq_some h)
  have hholds := List.find?_some h
  rw [Bool.and_eq_true, decide_eq_true_eq] at hholds
  exact ⟨hmem, hholds⟩

theorem Leads.mono (h : Leads runtime anchors before name index) (hmono : ∀ name r, before name r → after name r) :
    Leads runtime anchors after name index := by
  induction h with
  | host hmem => exact .host hmem
  | address hnamed ha hmem hip => exact .address (hmono _ _ hnamed) ha hmem hip
  | cname hnamed hcname _ ih => exact .cname (hmono _ _ hnamed) hcname ih

theorem Leads.isAnchor (h : Leads runtime anchors before name index) : index ∈ anchors.map (·.index) := by
  induction h with
  | host hmem => exact List.mem_map_of_mem hmem
  | address _ _ hmem _ => exact List.mem_map_of_mem hmem
  | cname _ _ _ ih => exact ih

theorem get_hostToIndex (h : (tables runtime records anchors).hostToIndex.get name = some index) :
    ∃ anchor ∈ anchors, anchor.hostname = name ∧ anchor.index = index := by
  obtain ⟨anchor, hmem, heq⟩ := List.mem_map.mp (KeyedMap.mem_of_get_setAll h)
  rw [Prod.mk.injEq] at heq
  exact ⟨anchor, hmem, heq⟩

theorem get_ipToIndex {ip : JsString} (h : (tables runtime records anchors).ipToIndex.get ip = some index) :
    ∃ anchor ∈ anchors, anchor.ip = ip ∧ anchor.index = index := by
  obtain ⟨anchor, hmem, heq⟩ := List.mem_map.mp (KeyedMap.mem_of_get_setAll h)
  rw [Prod.mk.injEq] at heq
  exact ⟨anchor, hmem, heq⟩

theorem get_byKey : (tables runtime records anchors).byKey.get name = some r ↔ LastNamed runtime records name r := by
  have hget : (tables runtime records anchors).byKey.get name =
      records.reverse.find? fun r => r.isEnabled && r.hostname runtime = name := by
    rw [tables, KeyedMap.get_setAll, KeyedMap.get_nil, Option.or_none, ← List.map_reverse, ← List.filter_reverse,
      List.find?_map, List.find?_filter, Option.map_map]
    have hrecord : ((fun e : JsString × DnsRecord => e.2) ∘ fun r => (r.hostname runtime, r)) = id := rfl
    rw [hrecord, Option.map_id]
    apply congrArg (List.find? · records.reverse)
    funext r
    simp
  rw [hget, LastNamed]

theorem isCname_of_isA (h : r.isA = true) : r.isCname = false := by
  rw [DnsRecord.isA, decide_eq_true_eq] at h
  rw [DnsRecord.isCname, h]
  decide

theorem turn_eq_go {next : JsString} (h : turn runtime (tables runtime records anchors) name = .go next) :
    ∃ r, LastNamed runtime records name r ∧ r.isCname = true ∧ runtime.toLowerCase r.value = next := by
  rw [turn] at h
  split at h
  · cases h
  · split at h
    · cases h
    · rename_i r hget
      split at h
      · cases h
      · split at h
        · cases h
        · rename_i hcname
          rw [Bool.not_eq_true, Bool.not_eq_false'] at hcname
          exact ⟨r, get_byKey.mp hget, hcname, Turn.go.inj h⟩

theorem turn_eq_stop (h : turn runtime (tables runtime records anchors) name = .stop (some index)) :
    Leads runtime anchors (LastNamed runtime records) name index := by
  rw [turn] at h
  split at h
  · rename_i found hget
    obtain ⟨anchor, hmem, rfl, rfl⟩ := get_hostToIndex hget
    cases h
    exact .host hmem
  · split at h
    · cases h
    · rename_i r hget
      split at h
      · rename_i ha
        obtain ⟨anchor, hmem, hip, rfl⟩ := get_ipToIndex (Turn.stop.inj h)
        exact .address (get_byKey.mp hget) ha hmem hip
      · split at h
        · cases h
        · cases h

theorem leads_of_reachesIn {n : Nat} (h : (chain runtime (tables runtime records anchors)).ReachesIn n name index) :
    Leads runtime anchors (LastNamed runtime records) name index := by
  induction h with
  | stop hturn => exact turn_eq_stop hturn
  | go hturn _ ih =>
    obtain ⟨r, hnamed, hcname, rfl⟩ := turn_eq_go hturn
    exact .cname hnamed hcname ih

theorem reachesIn_of_host (h : (tables runtime records anchors).hostToIndex.get name = some index) :
    (chain runtime (tables runtime records anchors)).ReachesIn 0 name index := by
  apply Links.ReachesIn.stop
  change turn runtime (tables runtime records anchors) name = .stop (some index)
  rw [turn, h]

theorem reachesIn_of_leads (h : Leads runtime anchors (LastNamed runtime records) name index) :
    ∃ n found, (chain runtime (tables runtime records anchors)).ReachesIn n name found := by
  induction h with
  | @host anchor hmem =>
    obtain ⟨found, hget⟩ := KeyedMap.exists_get_setAll (List.mem_map_of_mem (f := fun a => (a.hostname, a.index)) hmem)
    exact ⟨0, found, reachesIn_of_host hget⟩
  | @address anchor name r hnamed ha hmem hip =>
    cases hhost : (tables runtime records anchors).hostToIndex.get name with
    | some found => exact ⟨0, found, reachesIn_of_host hhost⟩
    | none =>
      obtain ⟨found, hget⟩ := KeyedMap.exists_get_setAll (List.mem_map_of_mem (f := fun a => (a.ip, a.index)) hmem)
      refine ⟨0, found, .stop ?_⟩
      change turn runtime (tables runtime records anchors) name = .stop (some found)
      rw [turn, hhost, get_byKey.mpr hnamed]
      dsimp only
      rw [if_pos ha, ← hip]
      exact congrArg Turn.stop hget
  | @cname name r index hnamed hcname _ ih =>
    cases hhost : (tables runtime records anchors).hostToIndex.get name with
    | some found => exact ⟨0, found, reachesIn_of_host hhost⟩
    | none =>
      obtain ⟨n, found, hreaches⟩ := ih
      refine ⟨n + 1, found, .go ?_ hreaches⟩
      have ha : ¬r.isA = true := fun ha => by
        rw [isCname_of_isA ha] at hcname
        cases hcname
      change turn runtime (tables runtime records anchors) name = .go (runtime.toLowerCase r.value)
      rw [turn, hhost, get_byKey.mpr hnamed]
      dsimp only
      rw [if_neg ha, hcname, Bool.not_true, if_neg Bool.false_ne_true]

theorem leads_of_resolveCname {target : JsString}
    (h : resolveCname runtime target (tables runtime records anchors) = some index) :
    Leads runtime anchors (LastNamed runtime records) (runtime.toLowerCase target) index := by
  obtain ⟨n, hreaches⟩ := Links.walk_eq_some.mp h
  exact leads_of_reachesIn hreaches

theorem exists_resolveCname {target : JsString} : (∃ i, resolveCname runtime target (tables runtime records anchors) = some i) ↔
    ∃ i, Leads runtime anchors (LastNamed runtime records) (runtime.toLowerCase target) i := by
  constructor
  · intro h
    obtain ⟨i, hi⟩ := h
    exact ⟨i, leads_of_resolveCname hi⟩
  · intro h
    obtain ⟨i, hi⟩ := h
    obtain ⟨n, found, hreaches⟩ := reachesIn_of_leads hi
    exact ⟨found, Links.walk_eq_some.mpr ⟨n, hreaches⟩⟩

end HomelabApps.HomelabDashboard
