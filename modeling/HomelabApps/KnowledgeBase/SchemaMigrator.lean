import HomelabApps.KnowledgeBase.SourceDocument
import HomelabApps.KnowledgeBase.Store.Valid
import HomelabApps.Library.Transition

/-! The boots of the pods, each bringing the knowledge bases to its configuration statement by
statement, beside the documents that running pods write. -/

universe u

namespace HomelabApps.KnowledgeBase.SchemaMigrator

open HomelabApps.Library.Utf16
open Store

structure SchemaTarget where
  knowledgeBases : List KnowledgeBaseConfig
  nodup : (knowledgeBases.map (·.id)).Nodup

/-- Where a pod is. The numbered migrations and the indexes of the models come before the knowledge
bases and change none of their rows; `rewriting` has stored a new configuration. -/
inductive Stage
  | booting
  | ensuring (rest : List KnowledgeBaseConfig)
  | rewriting (kb : KnowledgeBaseConfig) (rest : List KnowledgeBaseConfig)
  | running
  | stopped

structure Pod where
  target : SchemaTarget
  stage : Stage

/-- `tsConfigs` are the configurations stored in the rows of the knowledge bases, `migrating` is the
holder of `LOCK_MIGRATE`, `migrated` the last boot that took it, once it is complete. -/
structure State (Vector : Type u) where
  db : Database Vector := {}
  tsConfigs : String → Option String := fun _ => none
  pods : List Pod := []
  migrating : Option Nat := none
  migrated : Option SchemaTarget := none

/-- `stop` is the end of a pod at any moment, a boot whose statement fails included; an `upsert` is into
the `i`-th knowledge base of the pod's configuration. -/
inductive Event
  | boot (target : SchemaTarget)
  | lock (n : Nat)
  | ensure (n : Nat)
  | rewrite (n : Nat)
  | unlock (n : Nat)
  | stop (n : Nat)
  | upsert (n i : Nat) (document : DocumentDTO) (chunks : List ChunkDTO)
  | delete (kb : String) (externalIds : List JsString)
  | deleteAllExcept (kb : String) (keep : List JsString)

variable {Vector : Type u}

def Stage.rewrites (stage : Stage) (id : String) : Bool :=
  match stage with
  | .rewriting kb _ => kb.id = id
  | _ => false

def State.rewriting (s : State Vector) (id : String) : Bool := s.pods.any (·.stage.rewrites id)

def rewriteChunk (db : Database Vector) (kb tsConfig : String) (c : ChunkRow) : ChunkRow :=
  match db.documents.find? (·.id = c.documentId) with
  | some d =>
    if d.document.kb = kb then
      { c with fts := ⟨tsConfig, d.document.title, c.chunk.heading, c.chunk.body⟩ }
    else c
  | none => c

def rewriteVectors (db : Database Vector) (kb : String) : Option String → Database Vector
  | some tsConfig => { db with chunks := db.chunks.map (rewriteChunk db kb tsConfig) }
  | none => db

def State.put (s : State Vector) (n : Nat) (stage : Stage) : State Vector :=
  { s with pods := s.pods.modify n fun pod => { pod with stage := stage } }

/-- The first statement of `ensureKnowledgeBase`; the second follows when the configuration was
another one. -/
def State.ensure (s : State Vector) (n : Nat) (kb : KnowledgeBaseConfig)
    (rest : List KnowledgeBaseConfig) : State Vector :=
  let previous := s.tsConfigs kb.id
  let s := { s with tsConfigs := Function.update s.tsConfigs kb.id (some kb.tsConfig) }
  if previous.any (· ≠ kb.tsConfig) then s.put n (.rewriting kb rest) else s.put n (.ensuring rest)

variable (localeCompare : JsString → JsString → Ordering)

def State.upsert (s : State Vector) (kb : KnowledgeBaseConfig) (document : DocumentDTO)
    (chunks : List ChunkDTO) : State Vector :=
  if (s.tsConfigs kb.id).isSome then
    match s.db.upsert localeCompare document kb.tsConfig chunks with
    | some (db, _) => { s with db := db }
    | none => s
  else s

def State.step (s : State Vector) : Event → Option (State Vector)
  | .boot target => some { s with pods := s.pods ++ [⟨target, .booting⟩] }
  | .lock n =>
    match s.pods[n]?, s.migrating with
    | some ⟨target, .booting⟩, none =>
      some { s.put n (.ensuring target.knowledgeBases) with migrating := some n, migrated := none }
    | _, _ => none
  | .ensure n =>
    match s.pods[n]? with
    | some ⟨_, .ensuring (kb :: rest)⟩ => some (s.ensure n kb rest)
    | _ => none
  | .rewrite n =>
    match s.pods[n]? with
    | some ⟨_, .rewriting kb rest⟩ =>
      some ({ s with db := rewriteVectors s.db kb.id (s.tsConfigs kb.id) }.put n (.ensuring rest))
    | _ => none
  | .unlock n =>
    match s.pods[n]? with
    | some ⟨target, .ensuring []⟩ =>
      some { s.put n .running with migrating := none, migrated := some target }
    | _ => none
  | .stop n =>
    if n < s.pods.length then
      some { s.put n .stopped with
        migrating := if s.migrating = some n then none else s.migrating }
    else none
  | .upsert n i document chunks =>
    match s.pods[n]? with
    | some ⟨target, .running⟩ =>
      target.knowledgeBases[i]?.bind fun kb =>
        if document.kb = kb.id then some (s.upsert localeCompare kb document chunks) else none
    | _ => none
  | .delete kb externalIds => some { s with db := (s.db.delete kb externalIds).getD s.db }
  | .deleteAllExcept kb keep => some { s with db := (s.db.deleteAllExcept kb keep).getD s.db }

end HomelabApps.KnowledgeBase.SchemaMigrator
