import HomelabApps.KnowledgeBase.Indexer
import HomelabApps.KnowledgeBase.Git.Documents
import HomelabApps.KnowledgeBase.Store.Catalogue
import HomelabApps.Library.Mirror

universe u

namespace HomelabApps.KnowledgeBase.Indexer

open HomelabApps.Library
open HomelabApps.Library.Utf16
open HomelabApps.Library.Mirror (Change entryAt keys Delta)
open Store Git

variable {Vector : Type u} {platform : Platform} {kb : KnowledgeBaseConfig} {choose : String → Nat → Nat}
  {db db' : Database Vector} {x : JsString} {w : Write} {writes : List Write} {document : SourceDocument}
  {e : Option Entry} {change : DocumentChange}

def put (platform : Platform) (kb : KnowledgeBaseConfig) (document : SourceDocument) (e : Option Entry) :
    Option Entry :=
  if holdsNul document = some false then
    some (Entry.upsert platform.localeCompare (sourceToStorage kb document)
      ((chunksOf platform kb document).map (·.hash)) e)
  else e

def Write.changes : Write → List (Change JsString SourceDocument)
  | .document document => [.put (document.externalId, document)]
  | .copyByHash _ => []
  | .delete externalIds => [.drop externalIds]
  | .deleteAllExcept keep => [.keep keep]
  | .setCursor _ => []

def Write.Encoded : Write → Prop
  | .document document => toWellFormed document.externalId = document.externalId
  | .delete externalIds => ∀ id ∈ externalIds, toWellFormed id = id
  | .deleteAllExcept keep => ∀ id ∈ keep, toWellFormed id = id
  | _ => True

theorem perform_upsert (h : db.Valid)
    (hu : Upserted platform.localeCompare db (sourceToStorage kb document) kb.tsConfig
      (chunksOf platform kb document) db' change)
    (hencoded : toWellFormed document.externalId = document.externalId) (hx : toWellFormed x = x)
    (hnul : holdsNul document = some false) :
    db'.entry kb.id x = Change.at (put platform kb) x (db.entry kb.id x) (.put (document.externalId, document)) := by
  have hhash : ∀ c ∈ chunksOf platform kb document, toWellFormed c.hash = c.hash :=
    fun c hc => (ownHash_of_mem_chunksOf hc).encoded
  rw [Change.at]
  split
  · rename_i hid
    subst hid
    rw [put, if_pos hnul]
    exact entry_upserted_self h ord_chunksOf hhash hu
  · rename_i hid
    refine entry_upserted_ne h ?_ hu
    rw [DocumentDTO.key, sourceToStorage, Ne, Prod.mk.injEq, hx, hencoded]
    exact fun heq => hid heq.2.symm

theorem perform_entry (h : db.Valid) (hw : w.Encoded) (hx : toWellFormed x = x)
    (hperform : perform platform kb choose db w = some db') :
    db'.Valid ∧ db'.entry kb.id x = entryAt (put platform kb) x (db.entry kb.id x) w.changes := by
  have hids : ∀ ids : List JsString, (∀ id ∈ ids, toWellFormed id = id) → ids.map toWellFormed = ids :=
    fun ids hids => (List.map_congr_left hids).trans (List.map_id' ids)
  cases w with
  | document document =>
    simp only [perform] at hperform
    split at hperform
    · cases hperform
    · rename_i hnul
      cases hperform
      refine ⟨h, ?_⟩
      simp [Write.changes, entryAt, Change.at, put, hnul]
    · rename_i hnul
      obtain ⟨⟨db₁, change⟩, hupsert, rfl⟩ := Option.map_eq_some_iff.mp hperform
      have hu := upsert_upserted h hupsert
      exact ⟨h.upserted hu, perform_upsert h hu hw hx hnul⟩
  | copyByHash model =>
    cases hperform
    exact ⟨h.copyByHash, entry_insertEmbeddings⟩
  | delete ids =>
    simp only [perform, Database.delete] at hperform
    split at hperform
    · cases hperform
      refine ⟨h.deleteDocuments, ?_⟩
      rw [entry_deleteByIds (r := fun y => (ids.map toWellFormed).contains y) h, hx, hids ids hw]
      simp [Write.changes, entryAt, Change.at]
    · cases hperform
  | deleteAllExcept keep =>
    simp only [perform, Database.deleteAllExcept] at hperform
    split at hperform
    · cases hperform
      refine ⟨h.deleteDocuments, ?_⟩
      rw [entry_deleteByIds (r := fun y => !(keep.map toWellFormed).contains y) h, hx, hids keep hw]
      by_cases hmem : x ∈ keep <;> simp [Write.changes, entryAt, Change.at, hmem]
    · cases hperform
  | setCursor cursor =>
    cases hperform
    exact ⟨{ h with }, rfl⟩

theorem run_entry (h : db.Valid) (hwrites : ∀ w ∈ writes, w.Encoded) (hx : toWellFormed x = x)
    (hrun : run platform kb choose db writes = some db') :
    db'.Valid ∧ db'.entry kb.id x =
      entryAt (put platform kb) x (db.entry kb.id x) (writes.flatMap Write.changes) := by
  induction writes generalizing db with
  | nil =>
    obtain rfl : db = db' := by simpa [run] using hrun
    exact ⟨h, rfl⟩
  | cons w writes ih =>
    obtain ⟨db₁, hperform, hrun⟩ := Transition.run_cons_eq_some.mp hrun
    obtain ⟨hvalid, hentry⟩ := perform_entry h (hwrites w List.mem_cons_self) hx hperform
    rw [List.flatMap_cons, Mirror.entryAt_append, ← hentry]
    exact ih hvalid (fun w hw => hwrites w (List.mem_cons_of_mem _ hw)) hrun

end HomelabApps.KnowledgeBase.Indexer
