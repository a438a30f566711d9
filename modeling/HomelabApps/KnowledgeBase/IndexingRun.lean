import HomelabApps.KnowledgeBase.IndexingLoop
import HomelabApps.KnowledgeBase.Indexer

/-! One run of `IndexingLoopService.run`, from one await to the next: the lock, the knowledge bases
in turn, the indexing of each, with the signal that a lost lock or a shutdown aborts. -/

universe u

namespace HomelabApps.KnowledgeBase.IndexingRun

open HomelabApps.Library.Utf16
open IndexingLoop (RunRequest)
open Indexer (upsertedIds)
open Store

structure Config where
  knowledgeBases : List KnowledgeBaseConfig
  maxScheduledEmbeddings : Nat
  batchSize : Nat

inductive RunOutcome
  | success | failure | interrupted
  deriving DecidableEq, Repr

inductive Call (Vector : Type u)
  | tryLock
  | getCursor (kb : String)
  | recordRunStart (kb : String)
  | recordRunEnd (kb : String) (outcome : RunOutcome) (error : Option String)
  | changes (kb : String) (cursor : Option JsString)
  | upsert (kb : String) (document : SourceDocument)
  | copyByHash (kb model : String)
  | delete (kb : String) (externalIds : List JsString)
  | deleteAllExcept (kb : String) (keep : List JsString)
  | setCursor (kb : String) (cursor : JsString)
  | countPending (kb model : String)
  | pending (kb model : String) (limit : Nat)
  | embedDocuments (model : String) (chunks : List PendingChunk)
  | insert (model : String) (vectors : List (Nat × Vector))
  | unlock

inductive Answer (Vector : Type u)
  | failed (error : String)
  | done
  | locked (acquired : Bool)
  | cursor (cursor : Option JsString)
  | changes (changes : SourceChanges)
  | count (n : Nat)
  | chunks (chunks : List PendingChunk)
  | vectors (vectors : List Vector)

/-- Where a run waits, with what is left to do after it: the other knowledge bases, the documents
and the models of this one. -/
inductive Stage
  | asking
  | getCursor (kb : KnowledgeBaseConfig) (rest : List KnowledgeBaseConfig)
  | recordRunStart (kb : KnowledgeBaseConfig) (rest : List KnowledgeBaseConfig)
  | readCursor (kb : KnowledgeBaseConfig) (rest : List KnowledgeBaseConfig)
  | changes (kb : KnowledgeBaseConfig) (rest : List KnowledgeBaseConfig)
  | upsert (kb : KnowledgeBaseConfig) (rest : List KnowledgeBaseConfig) (changes : SourceChanges)
    (documents : List SourceDocument)
  | copyByHash (kb : KnowledgeBaseConfig) (rest : List KnowledgeBaseConfig) (changes : SourceChanges)
    (models : List String)
  | delete (kb : KnowledgeBaseConfig) (rest : List KnowledgeBaseConfig) (changes : SourceChanges)
  | setCursor (kb : KnowledgeBaseConfig) (rest : List KnowledgeBaseConfig)
  | countPending (kb : KnowledgeBaseConfig) (rest : List KnowledgeBaseConfig) (model : String)
    (models : List String)
  | pending (kb : KnowledgeBaseConfig) (rest : List KnowledgeBaseConfig) (model : String)
    (models : List String)
  | embed (kb : KnowledgeBaseConfig) (rest : List KnowledgeBaseConfig) (model : String)
    (models : List String) (chunks : List PendingChunk)
  | insert (kb : KnowledgeBaseConfig) (rest : List KnowledgeBaseConfig) (model : String)
    (models : List String)
  | recordRunEnd (kb : KnowledgeBaseConfig) (rest : List KnowledgeBaseConfig) (outcome : RunOutcome)
  | unlock
  | ended

structure Begun (Vector : Type u) where
  call : Call Vector
  aborted : Bool
  lost : Bool

/-- `signal` is the reason the run's signal was aborted with, by whichever came first. -/
structure RunState (Vector : Type u) where
  request : RunRequest
  signal : Option String := none
  lost : Bool := false
  stage : Stage
  begun : List (Begun Vector) := []

variable {Vector : Type u} (c : Config)

def RunState.begin (s : RunState Vector) (call : Call Vector) (stage : Stage) :
    RunState Vector :=
  { s with stage := stage, begun := s.begun ++ [⟨call, s.signal.isSome, s.lost⟩] }

def RunState.finish (s : RunState Vector) : RunState Vector :=
  if s.lost then { s with stage := .ended } else s.begin .unlock .unlock

def RunState.nextKnowledgeBase (s : RunState Vector) :
    List KnowledgeBaseConfig → RunState Vector
  | [] => s.finish
  | kb :: rest =>
    if s.signal.isSome then s.finish
    else if s.request.manual then s.begin (.recordRunStart kb.id) (.recordRunStart kb rest)
    else s.begin (.getCursor kb.id) (.getCursor kb rest)

/-- `index` threw: the run was stopped, or it failed. -/
def RunState.caught (s : RunState Vector) (kb : KnowledgeBaseConfig)
    (rest : List KnowledgeBaseConfig) (error : String) : RunState Vector :=
  match s.signal with
  | some reason =>
    s.begin (.recordRunEnd kb.id .interrupted (some reason)) (.recordRunEnd kb rest .interrupted)
  | none => s.begin (.recordRunEnd kb.id .failure (some error)) (.recordRunEnd kb rest .failure)

def RunState.unlessAborted (s : RunState Vector) (kb : KnowledgeBaseConfig)
    (rest : List KnowledgeBaseConfig) (next : RunState Vector) : RunState Vector :=
  match s.signal with
  | some reason => s.caught kb rest reason
  | none => next

def RunState.deletion (s : RunState Vector) (kb : KnowledgeBaseConfig)
    (rest : List KnowledgeBaseConfig) (changes : SourceChanges) : RunState Vector :=
  s.unlessAborted kb rest
    (if changes.complete then
      s.begin (.deleteAllExcept kb.id (upsertedIds changes)) (.delete kb rest changes)
    else
      s.begin (.delete kb.id (changes.deletes.filter fun id => !(upsertedIds changes).contains id))
        (.delete kb rest changes))

def RunState.nextCopy (s : RunState Vector) (kb : KnowledgeBaseConfig)
    (rest : List KnowledgeBaseConfig) (changes : SourceChanges) : List String → RunState Vector
  | [] => s.deletion kb rest changes
  | model :: models => s.begin (.copyByHash kb.id model) (.copyByHash kb rest changes models)

def RunState.nextDocument (s : RunState Vector) (kb : KnowledgeBaseConfig)
    (rest : List KnowledgeBaseConfig) (changes : SourceChanges) :
    List SourceDocument → RunState Vector
  | [] => s.nextCopy kb rest changes kb.models
  | document :: documents =>
    s.unlessAborted kb rest
      (match holdsNul document with
      | none => s.caught kb rest "Converting circular structure to JSON"
      | some true => s.nextDocument kb rest changes documents
      | some false => s.begin (.upsert kb.id document) (.upsert kb rest changes documents))

def RunState.nextBatch (s : RunState Vector) (kb : KnowledgeBaseConfig)
    (rest : List KnowledgeBaseConfig) (model : String) (models : List String) : RunState Vector :=
  s.unlessAborted kb rest
    (s.begin (.pending kb.id model c.batchSize) (.pending kb rest model models))

def RunState.nextModel (s : RunState Vector) (kb : KnowledgeBaseConfig)
    (rest : List KnowledgeBaseConfig) : List String → RunState Vector
  | [] => s.begin (.recordRunEnd kb.id .success none) (.recordRunEnd kb rest .success)
  | model :: models =>
    if s.request.manual then s.nextBatch c kb rest model models
    else s.begin (.countPending kb.id model) (.countPending kb rest model models)

/-- From an await to the next; `none` when the answer is not one to the call. -/
def RunState.resume (s : RunState Vector) : Stage → Answer Vector → Option (RunState Vector)
  | .asking, .locked true =>
    some (s.nextKnowledgeBase (c.knowledgeBases.filter fun kb => s.request.knowledgeBases.contains kb.id))
  | .asking, .locked false => some { s with stage := .ended }
  | .asking, .failed _ => some { s with stage := .ended }
  | .getCursor _ rest, .cursor none => some (s.nextKnowledgeBase rest)
  | .getCursor kb rest, .cursor (some _) =>
    some (s.begin (.recordRunStart kb.id) (.recordRunStart kb rest))
  | .getCursor _ _, .failed _ => some s.finish
  | .recordRunStart kb rest, .done =>
    some (if s.request.full then s.begin (.changes kb.id none) (.changes kb rest)
      else s.begin (.getCursor kb.id) (.readCursor kb rest))
  | .recordRunStart _ _, .failed _ => some s.finish
  | .readCursor kb rest, .cursor cursor => some (s.begin (.changes kb.id cursor) (.changes kb rest))
  | .readCursor kb rest, .failed error => some (s.caught kb rest error)
  | .changes kb rest, .changes changes => some (s.nextDocument kb rest changes changes.upserts)
  | .changes kb rest, .failed error => some (s.caught kb rest error)
  | .upsert kb rest changes documents, .done => some (s.nextDocument kb rest changes documents)
  | .upsert kb rest _ _, .failed error => some (s.caught kb rest error)
  | .copyByHash kb rest changes models, .done => some (s.nextCopy kb rest changes models)
  | .copyByHash kb rest _ _, .failed error => some (s.caught kb rest error)
  | .delete kb rest changes, .done =>
    some (s.begin (.setCursor kb.id changes.cursor) (.setCursor kb rest))
  | .delete kb rest _, .failed error => some (s.caught kb rest error)
  | .setCursor kb rest, .done => some (s.nextModel c kb rest kb.models)
  | .setCursor kb rest, .failed error => some (s.caught kb rest error)
  | .countPending kb rest model models, .count backlog =>
    some (if c.maxScheduledEmbeddings < backlog then s.nextModel c kb rest models
      else s.nextBatch c kb rest model models)
  | .countPending kb rest _ _, .failed error => some (s.caught kb rest error)
  | .pending kb rest model models, .chunks chunks =>
    some (if chunks = [] then s.nextModel c kb rest models
      else s.begin (.embedDocuments model chunks) (.embed kb rest model models chunks))
  | .pending kb rest _ _, .failed error => some (s.caught kb rest error)
  | .embed kb rest model models chunks, .vectors vectors =>
    some (s.begin (.insert model ((chunks.map (·.id)).zip vectors)) (.insert kb rest model models))
  | .embed kb rest _ models _, .failed _ =>
    some (s.unlessAborted kb rest (s.nextModel c kb rest models))
  | .insert kb rest model models, .count inserted =>
    some (if inserted = 0 then s.nextModel c kb rest models else s.nextBatch c kb rest model models)
  | .insert kb rest _ _, .failed error => some (s.caught kb rest error)
  | .recordRunEnd _ rest .success, .done => some (s.nextKnowledgeBase rest)
  | .recordRunEnd kb rest .success, .failed error => some (s.caught kb rest error)
  | .recordRunEnd _ rest .failure, .done => some (s.nextKnowledgeBase rest)
  | .recordRunEnd _ rest .failure, .failed _ => some (s.nextKnowledgeBase rest)
  | .recordRunEnd _ _ .interrupted, .done => some s.finish
  | .recordRunEnd _ _ .interrupted, .failed _ => some s.finish
  | .unlock, .done => some { s with stage := .ended }
  | .unlock, .failed _ => some { s with stage := .ended }
  | _, _ => none

/-- The knowledge base whose indexing catches what a stage throws, with the others. -/
def Stage.indexing : Stage → Option (KnowledgeBaseConfig × List KnowledgeBaseConfig)
  | .readCursor kb rest => some (kb, rest)
  | .changes kb rest => some (kb, rest)
  | .upsert kb rest _ _ => some (kb, rest)
  | .copyByHash kb rest _ _ => some (kb, rest)
  | .delete kb rest _ => some (kb, rest)
  | .setCursor kb rest => some (kb, rest)
  | .countPending kb rest _ _ => some (kb, rest)
  | .pending kb rest _ _ => some (kb, rest)
  | .insert kb rest _ _ => some (kb, rest)
  | .recordRunEnd kb rest .success => some (kb, rest)
  | _ => none

/-- What an answer leads to, by the stage. -/
inductive Continues (s : RunState Vector) : Stage → Answer Vector → RunState Vector → Prop
  | opened : Continues s .asking (.locked true)
      (s.nextKnowledgeBase (c.knowledgeBases.filter fun kb => s.request.knowledgeBases.contains kb.id))
  | refused (answer : Answer Vector) : Continues s .asking answer { s with stage := .ended }
  | unindexed (kb : KnowledgeBaseConfig) (rest : List KnowledgeBaseConfig) :
    Continues s (.getCursor kb rest) (.cursor none) (s.nextKnowledgeBase rest)
  | indexed (kb : KnowledgeBaseConfig) (rest : List KnowledgeBaseConfig) (cursor : JsString) :
    Continues s (.getCursor kb rest) (.cursor (some cursor))
      (s.begin (.recordRunStart kb.id) (.recordRunStart kb rest))
  | cursorFailed (kb : KnowledgeBaseConfig) (rest : List KnowledgeBaseConfig) (error : String) :
    Continues s (.getCursor kb rest) (.failed error) s.finish
  | started (kb : KnowledgeBaseConfig) (rest : List KnowledgeBaseConfig) :
    Continues s (.recordRunStart kb rest) .done
      (if s.request.full then s.begin (.changes kb.id none) (.changes kb rest)
      else s.begin (.getCursor kb.id) (.readCursor kb rest))
  | startFailed (kb : KnowledgeBaseConfig) (rest : List KnowledgeBaseConfig) (error : String) :
    Continues s (.recordRunStart kb rest) (.failed error) s.finish
  | cursorRead (kb : KnowledgeBaseConfig) (rest : List KnowledgeBaseConfig) (cursor : Option JsString) :
    Continues s (.readCursor kb rest) (.cursor cursor) (s.begin (.changes kb.id cursor) (.changes kb rest))
  | reported (kb : KnowledgeBaseConfig) (rest : List KnowledgeBaseConfig) (changes : SourceChanges) :
    Continues s (.changes kb rest) (.changes changes) (s.nextDocument kb rest changes changes.upserts)
  | upserted (kb : KnowledgeBaseConfig) (rest : List KnowledgeBaseConfig) (changes : SourceChanges)
      (documents : List SourceDocument) :
    Continues s (.upsert kb rest changes documents) .done (s.nextDocument kb rest changes documents)
  | copied (kb : KnowledgeBaseConfig) (rest : List KnowledgeBaseConfig) (changes : SourceChanges)
      (models : List String) :
    Continues s (.copyByHash kb rest changes models) .done (s.nextCopy kb rest changes models)
  | deleted (kb : KnowledgeBaseConfig) (rest : List KnowledgeBaseConfig) (changes : SourceChanges) :
    Continues s (.delete kb rest changes) .done
      (s.begin (.setCursor kb.id changes.cursor) (.setCursor kb rest))
  | cursorSet (kb : KnowledgeBaseConfig) (rest : List KnowledgeBaseConfig) :
    Continues s (.setCursor kb rest) .done (s.nextModel c kb rest kb.models)
  | counted (kb : KnowledgeBaseConfig) (rest : List KnowledgeBaseConfig) (model : String) (models : List String)
      (backlog : Nat) :
    Continues s (.countPending kb rest model models) (.count backlog)
      (if c.maxScheduledEmbeddings < backlog then s.nextModel c kb rest models
      else s.nextBatch c kb rest model models)
  | found (kb : KnowledgeBaseConfig) (rest : List KnowledgeBaseConfig) (model : String) (models : List String)
      (chunks : List PendingChunk) :
    Continues s (.pending kb rest model models) (.chunks chunks)
      (if chunks = [] then s.nextModel c kb rest models
      else s.begin (.embedDocuments model chunks) (.embed kb rest model models chunks))
  | embedded (kb : KnowledgeBaseConfig) (rest : List KnowledgeBaseConfig) (model : String) (models : List String)
      (chunks : List PendingChunk) (vectors : List Vector) :
    Continues s (.embed kb rest model models chunks) (.vectors vectors)
      (s.begin (.insert model ((chunks.map (·.id)).zip vectors)) (.insert kb rest model models))
  | embedFailed (kb : KnowledgeBaseConfig) (rest : List KnowledgeBaseConfig) (model : String) (models : List String)
      (chunks : List PendingChunk) (error : String) :
    Continues s (.embed kb rest model models chunks) (.failed error)
      (s.unlessAborted kb rest (s.nextModel c kb rest models))
  | inserted (kb : KnowledgeBaseConfig) (rest : List KnowledgeBaseConfig) (model : String) (models : List String)
      (inserted : Nat) :
    Continues s (.insert kb rest model models) (.count inserted)
      (if inserted = 0 then s.nextModel c kb rest models else s.nextBatch c kb rest model models)
  | thrown {stage : Stage} {kb : KnowledgeBaseConfig} {rest : List KnowledgeBaseConfig} (error : String)
      (h : stage.indexing = some (kb, rest)) :
    Continues s stage (.failed error) (s.caught kb rest error)
  | recorded (kb : KnowledgeBaseConfig) (rest : List KnowledgeBaseConfig) (outcome : RunOutcome) (answer : Answer Vector) :
    Continues s (.recordRunEnd kb rest outcome) answer (s.nextKnowledgeBase rest)
  | interrupted (kb : KnowledgeBaseConfig) (rest : List KnowledgeBaseConfig) (answer : Answer Vector) :
    Continues s (.recordRunEnd kb rest .interrupted) answer s.finish
  | unlocked (answer : Answer Vector) : Continues s .unlock answer { s with stage := .ended }

theorem continues_of_resume {c : Config} {s t : RunState Vector} {stage : Stage} {answer : Answer Vector}
    (h : s.resume c stage answer = some t) : Continues c s stage answer t := by
  unfold RunState.resume at h
  split at h
  all_goals cases h
  all_goals first | exact .thrown _ rfl | constructor

/-- `lost` is the `error` event of the connection that holds the lock. -/
inductive Event (Vector : Type u)
  | lost (message : String)
  | shutdown
  | answer (answer : Answer Vector)

def RunState.step (s : RunState Vector) : Event Vector → Option (RunState Vector)
  | .lost message =>
    some { s with
      lost := true
      signal := s.signal <|> some ("The Postgres connection was lost: " ++ message) }
  | .shutdown => some { s with signal := s.signal <|> some "The pod is shutting down." }
  | .answer answer => s.resume c s.stage answer

def RunState.start (request : RunRequest) : RunState Vector :=
  { request := request, stage := .asking, begun := [⟨.tryLock, false, false⟩] }

end HomelabApps.KnowledgeBase.IndexingRun
