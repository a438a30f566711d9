import HomelabApps.KnowledgeBase.SourceDocument

namespace HomelabApps.KnowledgeBase.KnowledgeBaseAccess

open HomelabApps.Library.Utf16

structure ReadableConfig extends KnowledgeBaseConfig where
  readers : List JsString

inductive AccessError
  | notFound (message : String)
  deriving DecidableEq, Repr

def COMMA : UInt16 := 0x2C

def readable (roles : List JsString) (knowledgeBases : List ReadableConfig) : List ReadableConfig :=
  knowledgeBases.filter fun kb => kb.readers.any roles.contains

def requestedIds (requested : Option JsString) : List JsString :=
  ((((requested.getD []).splitOn COMMA).map trim).filter isNotEmpty).eraseDups

def find (readable : List ReadableConfig) (id : JsString) : Except AccessError ReadableConfig :=
  match readable.find? (utf16 ·.id = id) with
  | some kb => pure kb
  | none => throw (.notFound "Knowledge base not found.")

def resolve (roles : List JsString) (knowledgeBases : List ReadableConfig) (requested : Option JsString) :
    Except AccessError (List ReadableConfig) :=
  let readable := readable roles knowledgeBases
  let ids := requestedIds requested
  if ids.isEmpty then pure readable else ids.mapM (find readable)

variable {roles : List JsString} {knowledgeBases knowledgeBases' kbs : List ReadableConfig}
  {requested : Option JsString} {id : JsString} {kb : ReadableConfig}

theorem find_eq_ok (h : find kbs id = .ok kb) : kb ∈ kbs ∧ utf16 kb.id = id := by
  unfold find at h
  split at h
  · rename_i found hfound
    obtain rfl := Except.ok.inj h
    exact ⟨List.mem_of_find?_eq_some hfound, by simpa using List.find?_some hfound⟩
  · cases h

theorem find_eq_error (h : ∀ kb ∈ kbs, utf16 kb.id ≠ id) :
    find kbs id = .error (.notFound "Knowledge base not found.") := by
  have hnone : kbs.find? (utf16 ·.id = id) = none :=
    List.find?_eq_none.mpr fun kb hkb => by simpa using h kb hkb
  rw [find, hnone]
  rfl

theorem find_cases (kbs : List ReadableConfig) (id : JsString) : (∃ kb, find kbs id = .ok kb) ∨
    find kbs id = .error (.notFound "Knowledge base not found.") := by
  unfold find
  split
  · exact .inl ⟨_, rfl⟩
  · exact .inr rfl

theorem mapM_find_subset {ids : List JsString} {found : List ReadableConfig}
    (h : ids.mapM (find kbs) = .ok found) : found ⊆ kbs := by
  induction ids generalizing found with
  | nil =>
    obtain rfl := Except.ok.inj h
    exact List.nil_subset _
  | cons id ids ih =>
    rw [List.mapM_cons] at h
    cases hfind : find kbs id with
    | error e =>
      rw [hfind] at h
      cases h
    | ok kb =>
      cases hrest : ids.mapM (find kbs) with
      | error e =>
        rw [hfind, hrest] at h
        cases h
      | ok rest =>
        rw [hfind, hrest] at h
        obtain rfl := Except.ok.inj h
        exact List.cons_subset.mpr ⟨(find_eq_ok hfind).1, ih hrest⟩

theorem mapM_find_unreadable {ids : List JsString} (hid : id ∈ ids) (h : ∀ kb ∈ kbs, utf16 kb.id ≠ id) :
    ids.mapM (find kbs) = .error (.notFound "Knowledge base not found.") := by
  induction ids with
  | nil => cases hid
  | cons first ids ih =>
    rw [List.mapM_cons]
    rcases find_cases kbs first with ⟨kb, hfind⟩ | hfind
    · rcases List.mem_cons.mp hid with rfl | hid
      · rw [find_eq_error h]
        rfl
      · rw [hfind, ih hid]
        rfl
    · rw [hfind]
      rfl

theorem resolve_subset (h : resolve roles knowledgeBases requested = .ok kbs) :
    kbs ⊆ readable roles knowledgeBases := by
  simp only [resolve] at h
  split at h
  · obtain rfl := Except.ok.inj h
    exact List.Subset.refl _
  · exact mapM_find_subset h

theorem resolve_unreadable (hid : id ∈ requestedIds requested)
    (h : ∀ kb ∈ readable roles knowledgeBases, utf16 kb.id ≠ id) :
    resolve roles knowledgeBases requested = .error (.notFound "Knowledge base not found.") := by
  have hnonempty : ¬ (requestedIds requested).isEmpty := by
    rw [List.isEmpty_iff]
    exact List.ne_nil_of_mem hid
  simp only [resolve]
  rw [if_neg hnonempty]
  exact mapM_find_unreadable hid h

theorem resolve_congr (h : readable roles knowledgeBases = readable roles knowledgeBases') :
    resolve roles knowledgeBases requested = resolve roles knowledgeBases' requested := by
  simp only [resolve, h]

end HomelabApps.KnowledgeBase.KnowledgeBaseAccess
