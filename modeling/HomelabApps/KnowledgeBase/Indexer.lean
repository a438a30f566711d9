import HomelabApps.KnowledgeBase.Git.SourceAdapter
import HomelabApps.KnowledgeBase.Store.EmbeddingRepository
import HomelabApps.Library.Transition

/-! `IndexerService.index`: the writes of one run over a knowledge base, up to its cursor. -/

universe u

namespace HomelabApps.KnowledgeBase.Indexer

open HomelabApps.Library
open HomelabApps.Library.Utf16
open Store Git

inductive Write
  | document (document : SourceDocument)
  | copyByHash (model : String)
  | delete (externalIds : List JsString)
  | deleteAllExcept (keep : List JsString)
  | setCursor (cursor : JsString)

variable {Vector : Type u} (platform : Platform) (kb : KnowledgeBaseConfig) (choose : String → Nat → Nat)

/-- `none` where the write fails; a document that holds NUL is skipped. -/
def perform (db : Database Vector) : Write → Option (Database Vector)
  | .document document =>
    match holdsNul document with
    | none => none
    | some true => some db
    | some false =>
      (db.upsert platform.localeCompare (sourceToStorage kb document) kb.tsConfig
        (chunksOf platform kb document)).map (·.1)
  | .copyByHash model => some (db.copyByHash (choose model) kb.id model)
  | .delete externalIds => db.delete kb.id externalIds
  | .deleteAllExcept keep => db.deleteAllExcept kb.id keep
  | .setCursor cursor => some { db with cursors := Function.update db.cursors kb.id (some cursor) }

def upsertedIds (changes : SourceChanges) : List JsString := changes.upserts.map (·.externalId)

/-- A path can be both upserted and deleted: a rewritten file that is also the source of a rename. -/
def deletion (changes : SourceChanges) : Write :=
  if changes.complete then .deleteAllExcept (upsertedIds changes)
  else .delete (changes.deletes.filter fun id => !(upsertedIds changes).contains id)

def documentWrites (changes : SourceChanges) : List Write :=
  changes.upserts.map .document ++ kb.models.map .copyByHash ++ [deletion changes]

def run : Database Vector → List Write → Option (Database Vector) :=
  Transition.run (perform platform kb choose)

/-- What a run reads from its source; a full one ignores the cursor. -/
def changes (repository : Repository) (full : Bool) (answers : Answers) (db : Database Vector) :
    Option SourceChanges :=
  read platform kb.git repository (if full then none else db.cursors kb.id) answers

def index (repository : Repository) (full : Bool) (answers : Answers) (db : Database Vector) :
    Option (Database Vector) :=
  (changes platform kb repository full answers db).bind fun changes =>
    run platform kb choose db (documentWrites kb changes ++ [.setCursor changes.cursor])

/-- A run that stops after the first `k` writes, before its cursor. -/
def interrupted (repository : Repository) (full : Bool) (answers : Answers) (k : Nat)
    (db : Database Vector) : Option (Database Vector) :=
  (changes platform kb repository full answers db).bind fun changes =>
    run platform kb choose db ((documentWrites kb changes).take k)

end HomelabApps.KnowledgeBase.Indexer
