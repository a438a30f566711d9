import HomelabApps.KnowledgeBase.OnBehalfOf
import HomelabApps.KnowledgeBase.Store.SearchRepository

namespace HomelabApps.KnowledgeBase

open HomelabApps.Library.Utf16
open HomelabApps.KnowledgeBase.Store (MetadataFilter)

def COMMA : UInt16 := 0x2C

def PAIR_SEPARATOR : UInt16 := 0x3A

def isFilterKey (key : JsString) : Bool :=
  key ≠ [] && key.all fun u => isWordUnit u || u = 0x2E || u = 0x2D

def invalidFilter (pair : JsString) : JsString :=
  utf16 "Invalid filter \"" ++ pair ++ utf16 "\"; expected key:value."

def parsePair (pair : JsString) : Except JsString (JsString × JsString) :=
  match pair.idxOf? PAIR_SEPARATOR with
  | none => .error (invalidFilter pair)
  | some separator =>
    let key := trim (pair.take separator)
    let value := trim (pair.drop (separator + 1))
    if separator = 0 || !isNotEmpty value || !isFilterKey key then .error (invalidFilter pair)
    else .ok (key, value)

def addValue (filter : MetadataFilter) (key value : JsString) : MetadataFilter :=
  if filter.any (·.1 = key) then
    filter.map fun entry => if entry.1 = key then (key, (entry.2 ++ [value]).eraseDups) else entry
  else filter ++ [(key, [value])]

def parseParts : MetadataFilter → List JsString → Except JsString MetadataFilter
  | filter, [] => .ok filter
  | filter, part :: parts =>
    let pair := trim part
    if isNotEmpty pair then
      match parsePair pair with
      | .error message => .error message
      | .ok (key, value) => parseParts (addValue filter key value) parts
    else parseParts filter parts

def parseFilter (raw : Option JsString) : Except JsString MetadataFilter :=
  parseParts [] ((raw.getD []).splitOn COMMA)

def pairs (filter : MetadataFilter) : List (JsString × JsString) :=
  filter.flatMap fun entry => entry.2.map fun value => (entry.1, value)

structure WellFormed (filter : MetadataFilter) : Prop where
  keys : (filter.map (·.1)).Nodup
  isKey : ∀ entry ∈ filter, isFilterKey entry.1
  values : ∀ entry ∈ filter, entry.2 ≠ []

variable {filter filter' : MetadataFilter} {pair key value key' value' : JsString} {parts : List JsString}

theorem isFilterKey_of_parsePair (h : parsePair pair = .ok (key, value)) : isFilterKey key = true := by
  unfold parsePair at h
  split at h
  · cases h
  · dsimp only at h
    split at h
    · cases h
    · rename_i hvalid
      simp only [Bool.or_eq_true, not_or, Bool.not_eq_true, Bool.not_eq_false'] at hvalid
      cases h
      exact hvalid.2

theorem mem_pairs : (key, value) ∈ pairs filter ↔ ∃ accepted, (key, accepted) ∈ filter ∧ value ∈ accepted := by
  simp [pairs]

theorem any_key : filter.any (·.1 = key) = true ↔ key ∈ filter.map (·.1) := by
  simp [List.any_eq_true]

theorem mem_pairs_addValue : (key', value') ∈ pairs (addValue filter key value) ↔
    (key', value') ∈ pairs filter ∨ (key', value') = (key, value) := by
  rw [mem_pairs, mem_pairs, Prod.mk.injEq, addValue]
  by_cases hseen : filter.any (·.1 = key) = true
  · obtain ⟨entry, hentry, hkey⟩ := List.mem_map.mp (any_key.mp hseen)
    rw [if_pos hseen]
    constructor
    · rintro ⟨accepted, hmem, hvalue⟩
      obtain ⟨old, hold, heq⟩ := List.mem_map.mp hmem
      by_cases h : old.1 = key
      · rw [if_pos h, Prod.mk.injEq] at heq
        obtain ⟨rfl, rfl⟩ := heq
        rw [List.mem_eraseDups, List.mem_append, List.mem_singleton] at hvalue
        exact hvalue.imp (fun hvalue => ⟨old.2, h ▸ hold, hvalue⟩) fun hvalue => ⟨rfl, hvalue⟩
      · rw [if_neg h] at heq
        exact .inl ⟨accepted, heq ▸ hold, hvalue⟩
    · rintro (⟨accepted, hmem, hvalue⟩ | ⟨rfl, rfl⟩)
      · by_cases h : key' = key
        · refine ⟨(accepted ++ [value]).eraseDups, List.mem_map.mpr ⟨_, hmem, by simp [h]⟩, ?_⟩
          exact List.mem_eraseDups.mpr (List.mem_append_left _ hvalue)
        · exact ⟨accepted, List.mem_map.mpr ⟨_, hmem, by simp [h]⟩, hvalue⟩
      · refine ⟨(entry.2 ++ [value']).eraseDups, List.mem_map.mpr ⟨_, hentry, by simp [hkey]⟩, ?_⟩
        exact List.mem_eraseDups.mpr (List.mem_append_right _ (List.mem_singleton_self _))
  · rw [if_neg hseen]
    constructor
    · rintro ⟨accepted, hmem, hvalue⟩
      cases List.mem_append.mp hmem with
      | inl hmem => exact .inl ⟨accepted, hmem, hvalue⟩
      | inr hmem =>
        rw [List.mem_singleton, Prod.mk.injEq] at hmem
        rw [hmem.2, List.mem_singleton] at hvalue
        exact .inr ⟨hmem.1, hvalue⟩
    · rintro (⟨accepted, hmem, hvalue⟩ | ⟨rfl, rfl⟩)
      · exact ⟨accepted, List.mem_append_left _ hmem, hvalue⟩
      · exact ⟨[value'], List.mem_append_right _ (List.mem_singleton_self _), List.mem_singleton_self _⟩

theorem map_addValue : (addValue filter key value).map (·.1) =
    if filter.any (·.1 = key) then filter.map (·.1) else filter.map (·.1) ++ [key] := by
  unfold addValue
  split
  · rw [List.map_map]
    apply List.map_congr_left
    intro entry _
    by_cases h : entry.1 = key <;> simp [h]
  · simp

theorem WellFormed.addValue (h : WellFormed filter) (hkey : isFilterKey key = true) :
    WellFormed (addValue filter key value) := by
  have hmem : ∀ entry ∈ KnowledgeBase.addValue filter key value,
      isFilterKey entry.1 = true ∧ entry.2 ≠ [] := by
    unfold KnowledgeBase.addValue
    split
    · intro entry hentry
      obtain ⟨old, hold, rfl⟩ := List.mem_map.mp hentry
      split
      · refine ⟨hkey, fun hnil => ?_⟩
        have hvalue : value ∈ (old.2 ++ [value]).eraseDups := by simp
        rw [show (old.2 ++ [value]).eraseDups = [] from hnil] at hvalue
        exact absurd hvalue List.not_mem_nil
      · exact ⟨h.isKey old hold, h.values old hold⟩
    · intro entry hentry
      cases List.mem_append.mp hentry with
      | inl hold => exact ⟨h.isKey entry hold, h.values entry hold⟩
      | inr hnew => simpa [List.mem_singleton.mp hnew] using hkey
  refine ⟨?_, fun entry hentry => (hmem entry hentry).1, fun entry hentry => (hmem entry hentry).2⟩
  rw [map_addValue]
  split
  · exact h.keys
  · rename_i hnew
    exact h.keys.append (List.nodup_singleton key) (by simpa using fun hk => hnew (any_key.mpr hk))

theorem parseParts_ok (h : parseParts filter parts = .ok filter') (hfilter : WellFormed filter) :
    WellFormed filter' ∧ ∀ key value, (key, value) ∈ pairs filter' ↔ (key, value) ∈ pairs filter ∨
      ∃ part ∈ parts, isNotEmpty (trim part) = true ∧ parsePair (trim part) = .ok (key, value) := by
  induction parts generalizing filter with
  | nil =>
    cases h
    exact ⟨hfilter, by simp⟩
  | cons part parts ih =>
    rw [parseParts] at h
    by_cases hpart : isNotEmpty (trim part) = true
    · rw [if_pos hpart] at h
      cases hpair : parsePair (trim part) with
      | error message =>
        rw [hpair] at h
        cases h
      | ok entry =>
        rw [hpair] at h
        obtain ⟨hwell, hpairs⟩ := ih h (hfilter.addValue (isFilterKey_of_parsePair hpair))
        refine ⟨hwell, fun key value => ?_⟩
        have hone : (isNotEmpty (trim part) = true ∧ parsePair (trim part) = .ok (key, value)) ↔
            (key, value) = (entry.1, entry.2) := by
          rw [hpair, and_iff_right hpart]
          exact ⟨fun h => (Except.ok.inj h).symm, fun h => congrArg Except.ok h.symm⟩
        rw [hpairs, mem_pairs_addValue, List.exists_mem_cons_iff, hone, or_assoc]
    · rw [if_neg hpart] at h
      obtain ⟨hwell, hpairs⟩ := ih h hfilter
      exact ⟨hwell, fun key value => by rw [hpairs, List.exists_mem_cons_iff]; simp [hpart]⟩

theorem parseFilter_ok {raw : Option JsString} (h : parseFilter raw = .ok filter) :
    WellFormed filter ∧ ∀ key value, (key, value) ∈ pairs filter ↔ ∃ part ∈ (raw.getD []).splitOn COMMA,
      isNotEmpty (trim part) = true ∧ parsePair (trim part) = .ok (key, value) := by
  obtain ⟨hwell, hpairs⟩ := parseParts_ok h ⟨List.nodup_nil, List.forall_mem_nil _, List.forall_mem_nil _⟩
  exact ⟨hwell, fun key value => by rw [hpairs]; simp [pairs]⟩

end HomelabApps.KnowledgeBase
