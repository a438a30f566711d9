import HomelabApps.Library.Transition

/-! `IndexingLoopService`: the self-rescheduling chain of indexing runs of one pod, with the
cross-pod advisory lock its runs compete for.  Each transition is one stretch of the service
between two of its awaits. -/

namespace HomelabApps.KnowledgeBase.IndexingLoop

open HomelabApps.Library

structure Config where
  enabled : Bool
  knowledgeBases : List String

structure RunRequest where
  knowledgeBases : List String
  full : Bool
  manual : Bool
  deriving DecidableEq, Repr

def RunRequest.Covers (q r : RunRequest) : Prop :=
  r.knowledgeBases ⊆ q.knowledgeBases ∧ (r.full → q.full) ∧ (r.manual → q.manual)

instance (q r : RunRequest) : Decidable (q.Covers r) := by
  unfold RunRequest.Covers; infer_instance

def merge : Option RunRequest → RunRequest → RunRequest
  | none, request => request
  | some queued, request =>
    { knowledgeBases := (queued.knowledgeBases ++ request.knowledgeBases).eraseDups
      full := queued.full || request.full
      manual := queued.manual || request.manual }

/-- Where a run was started: by the armed timer, by `trigger` (the only one with a listener),
or from the pending slot at the end of another run. -/
inductive Origin
  | timer | trigger | followUp
  deriving DecidableEq, Repr

/-- `asking` awaits the answer to `pg_try_advisory_lock`, `locked` is inside `runLocked`, and a
`settled` run has left `run` while `start` has not yet resumed after awaiting it. -/
inductive Phase
  | asking | locked | settled
  deriving DecidableEq, Repr

structure Run where
  id : Nat
  request : RunRequest
  origin : Origin
  phase : Phase
  aborted : Bool
  deriving DecidableEq, Repr

inductive Holder
  | run (id : Nat)
  | otherPod
  deriving DecidableEq, Repr

inductive Note
  | queued (request : RunRequest)
  | started (request : RunRequest)
  | skipped (request : RunRequest)
  | rejected (request : RunRequest)
  | tookLock (request : RunRequest)
  deriving DecidableEq, Repr

/-- The fields of the service (`running` and `abort` name the run whose promise and abort
controller they hold), its runs in flight, and the advisory lock.  `restoring` counts the
`$onReady` calls that await `restoreLastSuccess`, `ready` says the last one has completed;
`awaiting` is what `$onDestroy` awaits, `destroyed` says it has resolved. -/
structure State where
  stopped : Bool := false
  timer : Bool := false
  running : Option Nat := none
  pending : Option RunRequest := none
  abort : Option Nat := none
  runs : List Run := []
  nextId : Nat := 0
  restoring : Nat := 0
  ready : Bool := false
  awaiting : Option (Option Nat) := none
  destroyed : Bool := false
  lock : Option Holder := none
  log : List Note := []
  deriving DecidableEq, Repr

def State.isRunning (s : State) : Bool := s.running.isSome

/-- `start` up to its first await: `run` makes its abort controller and asks for the lock. -/
def State.start (s : State) (request : RunRequest) (origin : Origin) : State :=
  { s with
    runs := s.runs ++ [⟨s.nextId, request, origin, .asking, false⟩]
    running := some s.nextId
    abort := some s.nextId
    nextId := s.nextId + 1 }

def State.schedule (s : State) : State :=
  if s.stopped then s else { s with timer := true }

/-- `clearTimeout`, and what is left of a timer that has fired. -/
def State.disarm (s : State) : State := { s with timer := false }

def State.trigger (s : State) (request : RunRequest) : State :=
  if s.running.isSome then
    { s with pending := some (merge s.pending request), log := s.log ++ [.queued request] }
  else
    s.disarm.start request .trigger

def State.setPhase (s : State) (id : Nat) (phase : Phase) : State :=
  { s with runs := s.runs.map fun r => if r.id = id then { r with phase := phase } else r }

def State.settle (s : State) (id : Nat) : State :=
  { s.setPhase id .settled with abort := if s.abort = some id then none else s.abort }

def State.tell (s : State) (r : Run) (note : RunRequest → Note) : State :=
  { s with log := if r.origin = .trigger then s.log ++ [note r.request] else s.log }

def State.enter (s : State) (r : Run) : State :=
  { s.setPhase r.id .locked with
    lock := some (.run r.id)
    log := s.log ++ [.tookLock r.request] }

def State.askLock (s : State) (r : Run) : State :=
  if s.lock = none then (s.enter r).tell r .started
  else (s.tell r .skipped).settle r.id

def State.finish (s : State) (id : Nat) : State :=
  { s.settle id with lock := if s.lock = some (.run id) then none else s.lock }

/-- `start` after its await: the run is over, whatever its outcome. -/
def State.leave (s : State) (id : Nat) : State :=
  { s with runs := s.runs.filter (·.id ≠ id), running := none }

def State.follow (c : Config) (s : State) : State :=
  if s.stopped then s
  else match s.pending with
    | some next => { s.start next .followUp with pending := none }
    | none => if c.enabled then s.schedule else s

def State.resume (c : Config) (s : State) (id : Nat) : State := (s.leave id).follow c

def State.onDestroy (s : State) : State :=
  { s with
    stopped := true
    timer := false
    runs := s.runs.map fun r => if s.abort = some r.id then { r with aborted := true } else r
    awaiting := some s.running }

def State.restored (s : State) : State :=
  { s with restoring := s.restoring - 1, ready := true }

inductive Event
  | onReady
  | restored
  | fire
  | trigger (request : RunRequest)
  | askLock (id : Nat)
  | lockFails (id : Nat)
  | lockLost (id : Nat)
  | finish (id : Nat)
  | resume (id : Nat)
  | onDestroy
  | destroyed
  | otherPodLocks
  | otherPodUnlocks
  deriving DecidableEq, Repr

def State.at (s : State) (id : Nat) (phase : Phase) : Option Run :=
  s.runs.find? fun r => r.id = id ∧ r.phase = phase

def step (c : Config) (s : State) : Event → Option State
  | .onReady => some { s with stopped := false, restoring := s.restoring + 1, ready := false }
  | .restored =>
    if s.restoring = 0 then none
    else some (if c.enabled then s.restored.schedule else s.restored)
  | .fire =>
    -- No timer fires between a promise's settlement and the microtask that resumes after it.
    if s.timer ∧ ∀ r ∈ s.runs, r.phase ≠ .settled then
      some (s.disarm.start ⟨c.knowledgeBases, false, false⟩ .timer)
    else none
  | .trigger request => some (s.trigger request)
  | .askLock id => (s.at id .asking).map s.askLock
  | .lockFails id => (s.at id .asking).map fun r => (s.tell r .rejected).settle id
  | .lockLost id => if s.lock = some (.run id) then some { s with lock := none } else none
  | .finish id => (s.at id .locked).map fun _ => s.finish id
  | .resume id => (s.at id .settled).map fun _ => s.resume c id
  | .onDestroy => some s.onDestroy
  | .destroyed =>
    match s.awaiting with
    | none => none
    | some run =>
      if ∀ r ∈ s.runs, run ≠ some r.id then some { s with destroyed := true, awaiting := none }
      else none
  | .otherPodLocks => if s.lock = none then some { s with lock := some .otherPod } else none
  | .otherPodUnlocks => if s.lock = some .otherPod then some { s with lock := none } else none

end HomelabApps.KnowledgeBase.IndexingLoop
