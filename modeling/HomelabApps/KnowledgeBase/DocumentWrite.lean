import HomelabApps.KnowledgeBase.IndexingLoop

/-! `DocumentWriteService`: the queue of writes of one pod, the source it writes to, and the
commits others make on the same branch meanwhile. -/

namespace HomelabApps.KnowledgeBase.DocumentWrite

open HomelabApps.Library
open HomelabApps.KnowledgeBase.IndexingLoop (RunRequest)

structure SourceFile where
  content : String
  version : String
  deriving DecidableEq, Repr

structure KnowledgeBaseConfig where
  id : String
  source : String
  writable : Bool
  deriving DecidableEq, Repr

inductive Command
  | write (content : String) (version : Option String)
  | delete (version : String)
  deriving DecidableEq, Repr

def Command.version : Command → Option String
  | .write _ version => version
  | .delete version => some version

def REWRITE_ADVICE : String :=
  "Apply your change to the current document and write it with its version."

def DELETE_ADVICE : String :=
  "Show the current document, and delete it with its version only if it should still go."

def MAX_ATTEMPTS : Nat := 2

def CURRENT_ERROR_NAME : String := "CURRENT"

def Command.advice : Command → String
  | .write .. => REWRITE_ADVICE
  | .delete _ => DELETE_ADVICE

/-- What one write left in the source; a delete leaves no version. -/
structure SourceResult where
  version : Option String
  commit : String
  deriving DecidableEq, Repr

def Command.file : Command → String → Option SourceFile
  | .write content _, version => some ⟨content, version⟩
  | .delete _, _ => none

def Command.result : Command → String → String → SourceResult
  | .write .., version, commit => ⟨some version, commit⟩
  | .delete _, _, commit => ⟨none, commit⟩

structure ErrorEntry where
  name : String
  message : String
  content : String
  version : String
  deriving DecidableEq, Repr

/-- `source` is an error of the source other than a refusal, passed on as it is. -/
inductive Failure
  | notImplemented (message : String)
  | notFound (message : String)
  | conflict (message : String) (errors : List ErrorEntry)
  | source (error : String)
  deriving DecidableEq, Repr

def conflict (message : String) (current : SourceFile) : Failure :=
  .conflict message
    [⟨CURRENT_ERROR_NAME, "The document as the source holds it now.", current.content, current.version⟩]

/-- The answer to a refusal, `ok` when the write is worth one more try. -/
def explain (id : String) (version : Option String) (current : Option SourceFile) (attempt : Nat)
    (advice : String) : Except Failure Unit :=
  match version, current with
  | none, some current => .error (conflict (id ++ " already exists. " ++ REWRITE_ADVICE) current)
  | none, none =>
    if attempt < MAX_ATTEMPTS then .ok ()
    else .error (.conflict
      ("The source refused to create " ++ id ++ " twice, though it does not exist. Try again.") [])
  | some _, none => .error (.notFound (id ++ " no longer exists."))
  | some version, some current =>
    if current.version ≠ version ∨ ¬attempt < MAX_ATTEMPTS then
      .error (conflict (id ++ " has changed since version " ++ version ++ ". " ++ advice) current)
    else .ok ()

def writer (kb : KnowledgeBaseConfig) : Except Failure Unit :=
  if kb.writable then .ok ()
  else .error (.notImplemented
    ("Knowledge base " ++ kb.id ++ " has a " ++ kb.source ++ " source, which cannot be written."))

structure Call where
  kb : KnowledgeBaseConfig
  id : String
  command : Command
  message : String
  deriving DecidableEq, Repr

structure Commit where
  author : Option Nat
  kb : String
  id : String
  file : Option SourceFile
  deriving DecidableEq, Repr

/-- A write the source was asked for.  Moments count the commits made before them. -/
inductive Request
  | pending
  | refused (moment : Nat)
  | landed (moment : Nat) (result : SourceResult)
  deriving DecidableEq, Repr

structure Read where
  moment : Nat
  found : Option SourceFile
  deriving DecidableEq, Repr

/-- `waiting` for the queue, `writing` awaits the source's write, `reading` its read after a
refusal, and `explaining` has what that read returned. -/
inductive Stage
  | waiting
  | writing (attempt : Nat)
  | reading (attempt : Nat)
  | explaining (attempt : Nat) (current : Option SourceFile)
  | settled (outcome : Except Failure SourceResult)

structure Entry where
  call : Call
  stage : Stage := .waiting
  writes : List Request := []
  reads : List Read := []

def Entry.succeeded (e : Entry) : Bool :=
  match e.stage with
  | .settled (.ok _) => true
  | _ => false

/-- The calls of the pod in order of arrival, the history of the source, the answers of the calls
that never got into the queue, and the index requests made so far. -/
structure State where
  calls : List Entry := []
  commits : List Commit := []
  thrown : List Failure := []
  indexRequests : List RunRequest := []

abbrev Base := String → String → Option SourceFile

def held (base : Base) (commits : List Commit) (kb id : String) : Option SourceFile :=
  commits.foldl (fun file c => if c.kb = kb ∧ c.id = id then c.file else file) (base kb id)

def index (kb : KnowledgeBaseConfig) : RunRequest := ⟨[kb.id], false, false⟩

/-- `arrive` is a call of `write` or `delete`; `start`, `receive`, `explain` and `fail` are its
continuations; `land`, `refuse` and `serve` are the source's; `foreign` is a commit of others. -/
inductive Event
  | arrive (call : Call)
  | start (i : Nat)
  | land (i : Nat) (version commit : String)
  | refuse (i : Nat)
  | receive (i : Nat)
  | serve (i : Nat)
  | explain (i : Nat)
  | fail (i : Nat) (error : String)
  | foreign (kb id : String) (file : Option SourceFile)

def State.set (s : State) (i : Nat) (e : Entry) : State := { s with calls := s.calls.set i e }

def Entry.ask (e : Entry) (attempt : Nat) : Entry :=
  { e with stage := .writing attempt, writes := e.writes ++ [.pending] }

def Entry.settle (e : Entry) (outcome : Except Failure SourceResult) : Entry :=
  { e with stage := .settled outcome }

def Entry.answer (e : Entry) (r : Request) : Entry :=
  { e with writes := e.writes.dropLast ++ [r] }

/-- The queue the call waits for: the call before it, whatever its outcome. -/
def State.free (s : State) : Nat → Bool
  | 0 => true
  | i + 1 =>
    match s.calls[i]? with
    | some ⟨_, .settled _, _, _⟩ => true
    | _ => false

def State.receive (s : State) (i : Nat) (e : Entry) : Option State :=
  match e.stage, e.writes.getLast? with
  | .writing _, some (.landed _ result) =>
    some { s.set i (e.settle (.ok result)) with
      indexRequests := s.indexRequests ++ [index e.call.kb] }
  | .writing attempt, some (.refused _) => some (s.set i { e with stage := .reading attempt })
  | _, _ => none

def Entry.explain (e : Entry) (attempt : Nat) (current : Option SourceFile) : Entry :=
  match DocumentWrite.explain e.call.id e.call.command.version current attempt e.call.command.advice with
  | .error failure => e.settle (.error failure)
  | .ok () => e.ask (attempt + 1)

def step (base : Base) (s : State) : Event → Option State
  | .arrive call =>
    match writer call.kb with
    | .error failure => some { s with thrown := s.thrown ++ [failure] }
    | .ok () => some { s with calls := s.calls ++ [{ call := call }] }
  | .start i =>
    match s.calls[i]? with
    | some e =>
      match e.stage with
      | .waiting => if s.free i then some (s.set i (e.ask 1)) else none
      | _ => none
    | none => none
  | .land i version commit =>
    match s.calls[i]? with
    | some e =>
      if e.writes.getLast? = some .pending ∧
          (held base s.commits e.call.kb.id e.call.id).map (·.version) = e.call.command.version then
        some { s.set i (e.answer (.landed s.commits.length (e.call.command.result version commit))) with
          commits := s.commits ++
            [⟨some i, e.call.kb.id, e.call.id, e.call.command.file version⟩] }
      else none
    | none => none
  | .refuse i =>
    match s.calls[i]? with
    | some e =>
      if e.writes.getLast? = some .pending then some (s.set i (e.answer (.refused s.commits.length)))
      else none
    | none => none
  | .receive i => s.calls[i]?.bind (s.receive i)
  | .serve i =>
    match s.calls[i]? with
    | some e =>
      match e.stage with
      | .reading attempt =>
        let found := held base s.commits e.call.kb.id e.call.id
        some (s.set i { e with stage := .explaining attempt found, reads := e.reads ++ [⟨s.commits.length, found⟩] })
      | _ => none
    | none => none
  | .explain i =>
    match s.calls[i]? with
    | some e =>
      match e.stage with
      | .explaining attempt current => some (s.set i (e.explain attempt current))
      | _ => none
    | none => none
  | .fail i error =>
    match s.calls[i]? with
    | some e =>
      match e.stage with
      | .writing _ | .reading _ => some (s.set i (e.settle (.error (.source error))))
      | _ => none
    | none => none
  | .foreign kb id file => some { s with commits := s.commits ++ [⟨none, kb, id, file⟩] }

end HomelabApps.KnowledgeBase.DocumentWrite
