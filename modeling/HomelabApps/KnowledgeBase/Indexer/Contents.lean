import HomelabApps.KnowledgeBase.Indexer.Runs

universe u

namespace HomelabApps.KnowledgeBase.Indexer

open HomelabApps.Library
open HomelabApps.Library.Utf16
open HomelabApps.Library.Mirror (keys)
open Store Git

variable {Vector : Type u} {platform : Platform} {kb : KnowledgeBaseConfig} {choose : String → Nat → Nat}
  {repository : Repository} {full : Bool} {answers : Answers} {db db' : Database Vector}
  {commit base head : Sha} {cursor : Option Sha} {x : JsString} {b : BlobRef} {e : Option Entry}

def textAt (kb : KnowledgeBaseConfig) (repository : Repository) (commit : Sha) (x : JsString) :
    Option JsString :=
  ((blobsOf kb.git (repository.tree commit)).find? fun b => b.path.val = x).map fun b => repository.text b.sha

def NulAt (platform : Platform) (kb : KnowledgeBaseConfig) (repository : Repository) (commit : Sha)
    (x : JsString) : Prop :=
  ∃ b ∈ blobsOf kb.git (repository.tree commit), b.path.val = x ∧
    holdsNul (documentOf platform repository commit b) = some true

instance : Decidable (NulAt platform kb repository commit x) :=
  inferInstanceAs (Decidable (∃ b ∈ blobsOf kb.git (repository.tree commit), b.path.val = x ∧
    holdsNul (documentOf platform repository commit b) = some true))

def contents (platform : Platform) (kb : KnowledgeBaseConfig) (repository : Repository) (commit : Sha)
    (db : Database Vector) : Set (JsString × JsString) :=
  { f | ¬NulAt platform kb repository commit f.1 ∧
    ∃ d ∈ db.documents, d.document.kb = kb.id ∧ (d.document.externalId, d.document.content) = f }

def files (platform : Platform) (kb : KnowledgeBaseConfig) (repository : Repository) (commit : Sha) :
    Set (JsString × JsString) :=
  { f | ¬NulAt platform kb repository commit f.1 ∧
    ∃ b ∈ blobsOf kb.git (repository.tree commit), (b.path.val, repository.text b.sha) = f }

def Exact (platform : Platform) (kb : KnowledgeBaseConfig) (repository : Repository) (commit : Sha)
    (db : Database Vector) : Prop :=
  contents platform kb repository commit db = files platform kb repository commit

/-- The store holds exactly the files of its cursor's commit; without a cursor it may hold anything. -/
structure Synced (platform : Platform) (kb : KnowledgeBaseConfig) (repository : Repository)
    (cursor : Option Sha) (db : Database Vector) : Prop where
  start : db.cursors kb.id = cursor.map (·.val)
  exact : ∀ base ∈ cursor, Exact platform kb repository base db

def content (e : Option Entry) : Option JsString := e.map (·.document.content)

theorem textAt_eq_some {t : JsString} : textAt kb repository commit x = some t ↔
    ∃ b ∈ blobsOf kb.git (repository.tree commit), b.path.val = x ∧ repository.text b.sha = t := by
  have hnodup : ((blobsOf kb.git (repository.tree commit)).map (·.path.val)).Nodup := by
    rw [← keys_refs]
    exact nodup_blobsOf
  rw [textAt, Option.map_eq_some_iff]
  simp only [Table.find?_eq_some_iff hnodup, and_assoc]

theorem textAt_of_mem (hb : b ∈ blobsOf kb.git (repository.tree commit)) :
    textAt kb repository commit b.path.val = some (repository.text b.sha) :=
  textAt_eq_some.mpr ⟨b, hb, rfl, rfl⟩

theorem textAt_eq_none : textAt kb repository commit x = none ↔
    x ∉ keys (refs (blobsOf kb.git (repository.tree commit))) := by
  rw [mem_keys_refs, textAt, Option.map_eq_none_iff, List.find?_eq_none]
  simp

theorem textAt_of_ne (hx : toWellFormed x ≠ x) : textAt kb repository commit x = none := by
  rw [textAt_eq_none, mem_keys_refs]
  rintro ⟨b, -, rfl⟩
  exact hx b.path.property.2

theorem content_of_row (h : db.Valid) {kbId : String} {t : JsString} (hx : toWellFormed x = x) :
    content (db.entry kbId x) = some t ↔
      ∃ d ∈ db.documents, d.document.kb = kbId ∧ d.document.externalId = x ∧ d.document.content = t := by
  rw [content, Option.map_eq_some_iff]
  constructor
  · rintro ⟨e, hentry, rfl⟩
    obtain ⟨d, hd, hkey, rfl⟩ := (entry_eq_some h).mp hentry
    rw [DocumentRow.key, hx, Prod.mk.injEq] at hkey
    exact ⟨d, hd, hkey.1, hkey.2, rfl⟩
  · rintro ⟨d, hd, hkb, hid, rfl⟩
    exact ⟨_, entry_of_row _ _ h hd (by rw [DocumentRow.key, hkb, hid, hx]), rfl⟩

theorem exact_iff (h : db.Valid) : Exact platform kb repository commit db ↔
    ∀ x, toWellFormed x = x → ¬NulAt platform kb repository commit x →
      content (db.entry kb.id x) = textAt kb repository commit x := by
  have hcontents : ∀ x t, toWellFormed x = x → ¬NulAt platform kb repository commit x →
      ((x, t) ∈ contents platform kb repository commit db ↔ content (db.entry kb.id x) = some t) := by
    intro x t hx hnul
    rw [content_of_row h hx]
    simp only [contents, Set.mem_ofPred_eq, hnul, not_false_eq_true, true_and, Prod.mk.injEq]
  have hfiles : ∀ x t, ¬NulAt platform kb repository commit x →
      ((x, t) ∈ files platform kb repository commit ↔ textAt kb repository commit x = some t) := by
    intro x t hnul
    rw [textAt_eq_some]
    simp only [files, Set.mem_ofPred_eq, hnul, not_false_eq_true, true_and, Prod.mk.injEq]
  constructor
  · intro hexact x hx hnul
    refine Option.ext fun t => ?_
    rw [← hcontents x t hx hnul, ← hfiles x t hnul, hexact]
  · intro hall
    refine Set.ext fun ⟨x, t⟩ => ?_
    by_cases hnul : NulAt platform kb repository commit x
    · exact ⟨fun hmem => absurd hnul hmem.1, fun hmem => absurd hnul hmem.1⟩
    by_cases hx : toWellFormed x = x
    · rw [hcontents x t hx hnul, hfiles x t hnul, hall x hx hnul]
    · constructor
      · rintro ⟨-, d, hd, -, heq⟩
        obtain rfl : d.document.externalId = x := congrArg Prod.fst heq
        exact absurd (h.kept d hd).externalId hx
      · rintro ⟨-, b, -, heq⟩
        obtain rfl : b.path.val = x := congrArg Prod.fst heq
        exact absurd b.path.property.2 hx

theorem content_upsert {localeCompare : JsString → JsString → Ordering} {document : DocumentDTO}
    {hashes : List JsString} (hcontent : toWellFormed document.content = document.content) :
    (Entry.upsert localeCompare document hashes e).document.content = document.content := by
  cases e with
  | none => exact hcontent
  | some e =>
    rw [Entry.upsert]
    split
    · rename_i hsame
      have := hsame.1
      unfold sameDocument at this
      split at this
      · rename_i hfields
        exact hfields.2.2
      · simp at this
    · exact hcontent

theorem content_putBlob (hnul : holdsNul (documentOf platform repository head b) = some false) :
    content (putBlob platform kb repository head b e) = some (repository.text b.sha) := by
  rw [putBlob, put, if_pos hnul, content, Option.map_some, content_upsert (repository.encoded b.sha)]
  rfl

theorem putBlob_of_ne (hnul : holdsNul (documentOf platform repository head b) ≠ some false) :
    putBlob platform kb repository head b e = e := by
  rw [putBlob, put, if_neg hnul]

theorem holdsNul_of_run {writes : List Write} (hrun : run platform kb choose db writes = some db')
    {document : SourceDocument} (hd : .document document ∈ writes) : (holdsNul document).isSome := by
  induction writes generalizing db with
  | nil => cases hd
  | cons w writes ih =>
    obtain ⟨db₁, hperform, hrun⟩ := Transition.run_cons_eq_some.mp hrun
    rcases List.mem_cons.mp hd with rfl | hd
    · cases hnul : holdsNul document with
      | none => simp [perform, hnul] at hperform
      | some _ => rfl
    · exact ih hrun hd

end HomelabApps.KnowledgeBase.Indexer
