import HomelabApps.Library.Table
import HomelabApps.MiotBridge.PropertyPoller

universe u

namespace HomelabApps.MiotBridge.PropertyPoller

open HomelabApps.Library

variable {Value : Type u}

def addProperty (set : List String) (property : String) : List String :=
  if property ∈ set then set else set ++ [property]

def Poller.addSubscriptions (p : Poller Value) (deviceId : String) (properties : List String) :
    Poller Value :=
  match p.subscriptions.find? (·.deviceId = deviceId) with
  | some _ =>
    { p with
      subscriptions := Table.update (·.deviceId) deviceId
        (fun target => { target with properties := properties.foldl addProperty target.properties })
        p.subscriptions }
  | none =>
    { p with subscriptions := p.subscriptions ++ [⟨deviceId, properties.foldl addProperty []⟩] }

def Poller.removeSubscription (p : Poller Value) (deviceId property : String) : Poller Value :=
  { p with
    subscriptions := p.subscriptions.filterMap fun target =>
      if target.deviceId = deviceId then
        let set := target.properties.filter (· ≠ property)
        if set = [] then none else some { target with properties := set }
      else some target
    lastValues := Function.update p.lastValues (cacheKey deviceId property) none }

/-- The remembered values a bulk removal drops: `startsWith` the device id and a colon. -/
def ofDevice (deviceId cacheKey : String) : Bool := (deviceId ++ ":").toList.isPrefixOf cacheKey.toList

def Poller.removeAllSubscriptions (p : Poller Value) (deviceId : String) : Poller Value :=
  { p with
    subscriptions := p.subscriptions.filter (·.deviceId ≠ deviceId)
    lastValues := fun key => if ofDevice deviceId key then none else p.lastValues key }

def Poller.pairs (p : Poller Value) : List (String × String) :=
  p.subscriptions.flatMap fun target => target.properties.map (target.deviceId, ·)

def Poller.OnePerDevice (p : Poller Value) : Prop := (p.subscriptions.map (·.deviceId)).Nodup

variable {p : Poller Value} {deviceId deviceId' property property' : String}
  {properties set : List String}

theorem mem_addProperty : property' ∈ addProperty set property ↔ property' ∈ set ∨ property' = property := by
  unfold addProperty
  split
  · rename_i h
    refine ⟨.inl, fun h' => ?_⟩
    rcases h' with h' | rfl
    · exact h'
    · exact h
  · simp

theorem mem_foldl_addProperty :
    property ∈ properties.foldl addProperty set ↔ property ∈ set ∨ property ∈ properties := by
  induction properties generalizing set with
  | nil => simp
  | cons q qs ih => rw [List.foldl_cons, ih, mem_addProperty, List.mem_cons, or_assoc]

theorem ofDevice_cacheKey (deviceId property : String) :
    ofDevice deviceId (cacheKey deviceId property) = true := by
  rw [ofDevice, List.isPrefixOf_iff_prefix]
  exact ⟨property.toList, String.toList_append.symm⟩

theorem isSubscribed_iff :
    p.isSubscribed deviceId property = true ↔
      ∃ target, p.subscriptions.find? (·.deviceId = deviceId) = some target ∧
        property ∈ target.properties := by
  unfold Poller.isSubscribed
  cases p.subscriptions.find? (·.deviceId = deviceId) <;> simp

theorem isSubscribed_iff_mem (h : p.OnePerDevice) :
    p.isSubscribed deviceId property = true ↔
      ∃ target ∈ p.subscriptions, target.deviceId = deviceId ∧ property ∈ target.properties := by
  rw [isSubscribed_iff]
  constructor
  · rintro ⟨target, hfind, hmem⟩
    obtain ⟨htarget, hid⟩ := (Table.find?_eq_some_iff h).mp hfind
    exact ⟨target, htarget, hid, hmem⟩
  · rintro ⟨target, htarget, hid, hmem⟩
    exact ⟨target, (Table.find?_eq_some_iff h).mpr ⟨htarget, hid⟩, hmem⟩

theorem mem_pairs (h : p.OnePerDevice) :
    (deviceId, property) ∈ p.pairs ↔ p.isSubscribed deviceId property = true := by
  rw [isSubscribed_iff_mem h, Poller.pairs]
  simp only [List.mem_flatMap, List.mem_map, Prod.mk.injEq, exists_eq_right_right]
  constructor
  · rintro ⟨target, htarget, hproperty, hid⟩
    exact ⟨target, htarget, hid, hproperty⟩
  · rintro ⟨target, htarget, hid, hproperty⟩
    exact ⟨target, htarget, hproperty, hid⟩

theorem OnePerDevice.addSubscriptions (h : p.OnePerDevice) (deviceId : String)
    (properties : List String) : (p.addSubscriptions deviceId properties).OnePerDevice := by
  unfold Poller.addSubscriptions
  split
  · dsimp only [Poller.OnePerDevice]
    rw [Table.map_update]
    · exact h
    · exact fun _ _ _ => rfl
  · rename_i hnone
    refine Table.nodup_append h fun hmem => ?_
    obtain ⟨target, htarget, hid⟩ := List.mem_map.mp hmem
    exact List.find?_eq_none.mp hnone target htarget (decide_eq_true hid)

theorem remove_entry {deviceId property : String} {target kept : PollTarget} :
    (if target.deviceId = deviceId then
      let set := target.properties.filter (· ≠ property)
      if set = [] then none else some { target with properties := set }
    else some target) = some kept ↔
      (if target.deviceId = deviceId then
        kept = ⟨deviceId, target.properties.filter (· ≠ property)⟩ ∧ kept.properties ≠ []
      else kept = target) := by
  split
  · rename_i hid
    dsimp only
    rw [Option.ite_none_left_eq_some, Option.some.injEq, ← hid]
    constructor
    · rintro ⟨hne, rfl⟩
      exact ⟨rfl, hne⟩
    · rintro ⟨rfl, hne⟩
      exact ⟨hne, rfl⟩
  · rw [Option.some.injEq, eq_comm]

theorem OnePerDevice.removeSubscription (h : p.OnePerDevice) (deviceId property : String) :
    (p.removeSubscription deviceId property).OnePerDevice := by
  refine List.Nodup.sublist ?_ h
  unfold Poller.removeSubscription
  induction p.subscriptions with
  | nil => exact .slnil
  | cons target targets ih =>
    rw [List.filterMap_cons]
    split
    · exact ih.cons _
    · rename_i kept hkept
      rw [remove_entry] at hkept
      have hid : kept.deviceId = target.deviceId := by
        split at hkept
        · rename_i hid
          rw [hkept.1, hid]
        · rw [hkept]
      rw [List.map_cons, List.map_cons, hid]
      exact ih.cons_cons _

theorem OnePerDevice.removeAllSubscriptions (h : p.OnePerDevice) (deviceId : String) :
    (p.removeAllSubscriptions deviceId).OnePerDevice :=
  Table.nodup_filter h

theorem isSubscribed_addSubscriptions (h : p.OnePerDevice) :
    (p.addSubscriptions deviceId properties).isSubscribed deviceId' property = true ↔
      p.isSubscribed deviceId' property = true ∨ (deviceId' = deviceId ∧ property ∈ properties) := by
  rw [isSubscribed_iff_mem (OnePerDevice.addSubscriptions h deviceId properties),
    isSubscribed_iff_mem h]
  unfold Poller.addSubscriptions
  split
  · rename_i found hfound
    obtain ⟨hmem, hid⟩ := (Table.find?_eq_some_iff h).mp hfound
    constructor
    · rintro ⟨target, htarget, rfl, hproperty⟩
      rcases Table.mem_update.mp htarget with ⟨old, hold, hkey, rfl⟩ | ⟨hold, -⟩
      · rcases mem_foldl_addProperty.mp hproperty with hproperty | hproperty
        · exact .inl ⟨old, hold, rfl, hproperty⟩
        · exact .inr ⟨hkey, hproperty⟩
      · exact .inl ⟨target, hold, rfl, hproperty⟩
    · rintro (⟨target, htarget, rfl, hproperty⟩ | ⟨rfl, hproperty⟩)
      · by_cases hkey : target.deviceId = deviceId
        · exact ⟨_, Table.mem_update.mpr (.inl ⟨target, htarget, hkey, rfl⟩), rfl,
            mem_foldl_addProperty.mpr (.inl hproperty)⟩
        · exact ⟨target, Table.mem_update.mpr (.inr ⟨htarget, hkey⟩), rfl, hproperty⟩
      · exact ⟨_, Table.mem_update.mpr (.inl ⟨found, hmem, hid, rfl⟩), hid,
          mem_foldl_addProperty.mpr (.inr hproperty)⟩
  · simp only [List.mem_append, List.mem_singleton, or_and_right, exists_or, exists_eq_left,
      mem_foldl_addProperty, List.not_mem_nil, false_or, eq_comm]

theorem isSubscribed_removeSubscription (h : p.OnePerDevice) :
    (p.removeSubscription deviceId property).isSubscribed deviceId' property' = true ↔
      p.isSubscribed deviceId' property' = true ∧ ¬(deviceId' = deviceId ∧ property' = property) := by
  rw [isSubscribed_iff_mem (OnePerDevice.removeSubscription h deviceId property),
    isSubscribed_iff_mem h]
  simp only [Poller.removeSubscription, List.mem_filterMap, remove_entry]
  constructor
  · rintro ⟨kept, ⟨target, htarget, hkept⟩, rfl, hproperty⟩
    split at hkept
    · rename_i hid
      obtain ⟨rfl, -⟩ := hkept
      obtain ⟨hmem, hne⟩ := List.mem_filter.mp hproperty
      exact ⟨⟨target, htarget, hid, hmem⟩, fun hsame => by simp [hsame.2] at hne⟩
    · rename_i hid
      obtain rfl := hkept
      exact ⟨⟨kept, htarget, rfl, hproperty⟩, fun hsame => hid hsame.1⟩
  · rintro ⟨⟨target, htarget, rfl, hproperty⟩, hne⟩
    by_cases hid : target.deviceId = deviceId
    · have hmem : property' ∈ target.properties.filter (· ≠ property) :=
        List.mem_filter.mpr ⟨hproperty, by simpa using fun hsame => hne ⟨hid, hsame⟩⟩
      refine ⟨⟨deviceId, _⟩, ⟨target, htarget, ?_⟩, hid.symm, hmem⟩
      rw [if_pos hid]
      exact ⟨rfl, List.ne_nil_of_mem hmem⟩
    · exact ⟨target, ⟨target, htarget, by rw [if_neg hid]⟩, rfl, hproperty⟩

theorem isSubscribed_removeAllSubscriptions (h : p.OnePerDevice) :
    (p.removeAllSubscriptions deviceId).isSubscribed deviceId' property = true ↔
      p.isSubscribed deviceId' property = true ∧ deviceId' ≠ deviceId := by
  rw [isSubscribed_iff_mem (OnePerDevice.removeAllSubscriptions h deviceId), isSubscribed_iff_mem h]
  simp only [Poller.removeAllSubscriptions, List.mem_filter, decide_eq_true_eq]
  constructor
  · rintro ⟨target, ⟨htarget, hne⟩, rfl, hproperty⟩
    exact ⟨⟨target, htarget, rfl, hproperty⟩, hne⟩
  · rintro ⟨⟨target, htarget, rfl, hproperty⟩, hne⟩
    exact ⟨target, ⟨htarget, hne⟩, rfl, hproperty⟩

end HomelabApps.MiotBridge.PropertyPoller
