import HomelabApps.KnowledgeBase.EmbeddingService
import HomelabApps.KnowledgeBase.SourceDocument
import HomelabApps.Library.Transition

/-! Any number of processes writing documents and vectors to one database, a transaction at a time:
upserts, deletions, copies of vectors, and the batches of `embedPending` between their read and
their insert. -/

universe u

namespace HomelabApps.KnowledgeBase.EmbeddingRun

open HomelabApps.Library
open HomelabApps.Library.Utf16
open Store

structure Models (Vector : Type u) where
  template : String → JsString
  embedder : String → JsString → Vector

structure Batch where
  model : String
  chunks : List PendingChunk

structure State (Vector : Type u) where
  db : Database Vector := {}
  batches : List Batch := []

inductive Event
  | upsert (kb : KnowledgeBaseConfig) (document : SourceDocument)
  | delete (kb : String) (externalIds : List JsString)
  | deleteAllExcept (kb : String) (keep : List JsString)
  | copyByHash (choose : Nat → Nat) (kb model : String)
  | selectPending (kb model : String) (limit : Nat)
  | insert (i : Nat)

variable {Vector : Type u} (platform : Platform) (models : Models Vector)

/-- One statement or transaction; one that fails changes nothing. A batch that is never inserted is
one whose embedding failed or whose process stopped. -/
def step (s : State Vector) : Event → Option (State Vector)
  | .upsert kb document =>
    match s.db.upsert platform.localeCompare (sourceToStorage kb document) kb.tsConfig
        (chunksOf platform kb document) with
    | some (db, _) => some { s with db := db }
    | none => some s
  | .delete kb externalIds => some { s with db := (s.db.delete kb externalIds).getD s.db }
  | .deleteAllExcept kb keep => some { s with db := (s.db.deleteAllExcept kb keep).getD s.db }
  | .copyByHash choose kb model => some { s with db := s.db.copyByHash choose kb model }
  | .selectPending kb model limit =>
    some { s with batches := s.batches ++ [⟨model, s.db.pending kb model limit⟩] }
  | .insert i =>
    match s.batches[i]? with
    | some batch =>
      some
        { db := s.db.insert batch.model
            (embedDocuments models.embedder models.template batch.model batch.chunks)
          batches := s.batches.eraseIdx i }
    | none => none

def run : State Vector → List Event → Option (State Vector) := Transition.run (step platform models)

/-- The vector of a row is that of the text its chunk has now, under the title its document has now. -/
def Current (models : Models Vector) (db : Database Vector) (e : EmbeddingRow Vector) : Prop :=
  (∃ c ∈ db.chunks, c.id = e.chunkId) ∧
    ∀ c ∈ db.chunks, c.id = e.chunkId →
      (∃ d ∈ db.documents, d.id = c.documentId) ∧
        ∀ d ∈ db.documents, d.id = c.documentId →
          e.embedding = models.embedder e.model (documentInput (models.template e.model)
            d.document.title c.chunk.heading c.chunk.body)

end HomelabApps.KnowledgeBase.EmbeddingRun
