import HomelabApps.Library.Transition

/-! `ResiliencePolicy.execute`: its attempts, each held by the breaker and the timeout of cockatiel, the
back-off between them, and the parent signal that cancels the whole call. -/

universe u v

namespace HomelabApps.Resilience

/-- A thrown value, as the policy tells them apart: the cancellation by the caller, any other
`TaskCancelledError`, the refusal of an open breaker, an error of the work. -/
inductive Thrown (E : Type u)
  | parentCancellation
  | taskCancelled
  | brokenCircuit
  | other (error : E)
  deriving DecidableEq, Repr

def Thrown.isParentCancellationError {E : Type u} : Thrown E → Bool
  | .parentCancellation => true
  | _ => false

def Thrown.isTaskCancelledError {E : Type u} : Thrown E → Bool
  | .parentCancellation => true
  | .taskCancelled => true
  | _ => false

abbrev Outcome (E : Type u) (R : Type v) := Except (Thrown E) R

inductive CircuitState
  | closed | opened | halfOpen
  deriving DecidableEq, Repr

structure RetryConfig where
  count : Nat := 0
  backoffMs : Nat := 250

/-- `timeout` and `circuitBreaker` say that the section is there: cockatiel reads what is in it. -/
structure ResilienceConfig where
  timeout : Bool := false
  retry : Option RetryConfig := none
  circuitBreaker : Bool := false

structure ResiliencePolicy (E : Type u) where
  cfg : ResilienceConfig := {}
  predicate : Option (Thrown E → Bool) := none

variable {E : Type u} {R : Type v}

def ResiliencePolicy.shouldHandle (policy : ResiliencePolicy E) (error : Thrown E) : Bool :=
  (policy.predicate.map fun predicate => predicate error).getD true

def ResiliencePolicy.filter (policy : ResiliencePolicy E) (startState : Option CircuitState) (error : Thrown E) : Bool :=
  let isTrial := startState = some .halfOpen
  if error.isParentCancellationError then isTrial
  else if error.isTaskCancelledError && isTrial then true
  else policy.shouldHandle error

/-- The work of one attempt. `held` is not yet called back by cockatiel, `queued` waits for its
microtask, `settled` says whether its await was resumed, `skipped` is never begun. -/
inductive Work (E : Type u) (R : Type v)
  | held
  | queued
  | running
  | settled (outcome : Outcome E R) (resumed : Bool)
  | skipped

/-- One attempt. `inner` is the promise of `executeWithParentCancellation`, `result` that of
`attemptPolicy.execute`. -/
structure Attempt (E : Type u) (R : Type v) where
  startState : Option CircuitState := none
  fn : Work E R := .held
  inner : Option (Outcome E R) := none
  timedOut : Bool := false
  result : Option (Outcome E R) := none

/-- What happens to an attempt. `calledBack` is told the state that the breaker reports. -/
inductive AttemptEvent (E : Type u) (R : Type v)
  | calledBack (state : Option CircuitState)
  | begins
  | fnSettles (outcome : Outcome E R)
  | resumes
  | timesOut
  | concludes

inductive Backoff
  | waiting | fired | rejected
  deriving DecidableEq, Repr

/-- Where `execute` is. `awaiting` awaits the promise of `rejectOnParentAbort`, `retrying` has called
`onRetry`. -/
inductive Stage (E : Type u) (R : Type v)
  | awaiting (guarded : Option (Outcome E R))
  | retrying
  | backoff (timer : Backoff)
  | settled (outcome : Outcome E R)

/-- One call of `execute`. `parentAborted` is `none` for a call without a parent signal. -/
structure Execution (E : Type u) (R : Type v) where
  maxRetries : Nat
  parentAborted : Option Bool
  attempts : List (Attempt E R)
  stage : Stage E R

inductive Event (E : Type u) (R : Type v)
  | abort
  | attempt (k : Nat) (event : AttemptEvent E R)
  | forward
  | resume
  | wait
  | timer
  | next

def Work.isSettled : Work E R → Bool
  | .settled _ _ => true
  | _ => false

def Work.invoked : Work E R → Bool
  | .running => true
  | .settled _ _ => true
  | _ => false

def Work.calledBack : Work E R → Bool
  | .held => false
  | _ => true

def settle (promise : Option (Outcome E R)) (outcome : Outcome E R) : Option (Outcome E R) :=
  match promise with
  | some first => some first
  | none => some outcome

def cancelled : Outcome E R := .error .parentCancellation

def passOn (parentAborted : Option Bool) : Outcome E R → Outcome E R
  | .ok result => .ok result
  | .error error => if parentAborted = some true then cancelled else .error error

def Attempt.onParentAbort (a : Attempt E R) : Attempt E R :=
  if a.fn.calledBack && !a.timedOut then { a with inner := settle a.inner cancelled } else a

/-- What `attemptPolicy.execute` settles with: the refusal of the breaker, the timeout once it has
passed, else what it waits for. -/
def Attempt.conclusion (a : Attempt E R) (cfg : ResilienceConfig) : Option (Outcome E R) :=
  match a.fn with
  | .held => if cfg.circuitBreaker then some (.error .brokenCircuit) else none
  | _ => if a.timedOut then some (.error .taskCancelled) else a.inner

/-- One step of an attempt, `none` when it does not wait for this. A timer fires in a task of its own,
when the microtasks of everything that has settled are over. -/
def Attempt.step (a : Attempt E R) (cfg : ResilienceConfig) (parentAborted : Option Bool) :
    AttemptEvent E R → Option (Attempt E R)
  | .calledBack state =>
    match a.fn, a.result with
    | .held, none =>
      if parentAborted = some true then
        some { a with startState := state, fn := .skipped, inner := settle a.inner cancelled }
      else some { a with startState := state, fn := .queued }
    | _, _ => none
  | .begins =>
    match a.fn with
    | .queued =>
      if parentAborted = some true then some { a with fn := .skipped, inner := settle a.inner cancelled }
      else some { a with fn := .running }
    | _ => none
  | .fnSettles outcome =>
    match a.fn with
    | .running => some { a with fn := .settled outcome false }
    | _ => none
  | .resumes =>
    match a.fn with
    | .settled outcome false =>
      some { a with fn := .settled outcome true, inner := settle a.inner (passOn parentAborted outcome) }
    | _ => none
  | .timesOut =>
    match a.fn, a.inner, a.result with
    | .running, none, none => if cfg.timeout && !a.timedOut then some { a with timedOut := true } else none
    | _, _, _ => none
  | .concludes =>
    match a.result with
    | none => (a.conclusion cfg).map fun outcome => { a with result := some outcome }
    | some _ => none

def Stage.onParentAbort : Stage E R → Stage E R
  | .awaiting guarded => .awaiting (settle guarded cancelled)
  | .backoff .waiting => .backoff .rejected
  | stage => stage

def Execution.aborted (s : Execution E R) : Bool := s.parentAborted = some true

def Execution.loop (s : Execution E R) : Execution E R :=
  if s.aborted then { s with stage := .settled cancelled }
  else { s with attempts := s.attempts ++ [{}], stage := .awaiting none }

def ResiliencePolicy.execute (policy : ResiliencePolicy E) (parentAborted : Option Bool) (retry : Bool) :
    Execution E R :=
  Execution.loop
    { maxRetries := if retry = false then 0 else (policy.cfg.retry.map fun retry => retry.count).getD 0
      parentAborted
      attempts := []
      stage := .backoff .fired }

def Execution.attempt (s : Execution E R) : Nat := s.attempts.length - 1

def ResiliencePolicy.catches (policy : ResiliencePolicy E) (s : Execution E R) (error : Thrown E) : Stage E R :=
  if error.isParentCancellationError || s.aborted then .settled cancelled
  else if s.maxRetries ≤ s.attempt || !policy.shouldHandle error then .settled (.error error)
  else .retrying

def ResiliencePolicy.step (policy : ResiliencePolicy E) (s : Execution E R) : Event E R → Option (Execution E R)
  | .abort =>
    match s.parentAborted with
    | some false => some
        { s with
          parentAborted := some true
          attempts := s.attempts.map Attempt.onParentAbort
          stage := s.stage.onParentAbort }
    | _ => none
  | .attempt k event =>
    match s.attempts[k]? with
    | some a => (a.step policy.cfg s.parentAborted event).map fun a => { s with attempts := s.attempts.set k a }
    | none => none
  | .forward =>
    match s.stage, s.attempts.getLast? with
    | .awaiting none, some a => a.result.map fun outcome => { s with stage := .awaiting (some outcome) }
    | _, _ => none
  | .resume =>
    match s.stage with
    | .awaiting (some (.ok result)) => some { s with stage := .settled (.ok result) }
    | .awaiting (some (.error error)) => some { s with stage := policy.catches s error }
    | _ => none
  | .wait =>
    match s.stage with
    | .retrying => some { s with stage := .backoff (if s.aborted then .rejected else .waiting) }
    | _ => none
  | .timer =>
    match s.stage with
    | .backoff .waiting => some { s with stage := .backoff .fired }
    | _ => none
  | .next =>
    match s.stage with
    | .backoff .fired => some s.loop
    | .backoff .rejected => some { s with stage := .settled cancelled }
    | _ => none

def Execution.invocations (s : Execution E R) : Nat := s.attempts.countP fun a => a.fn.invoked

end HomelabApps.Resilience
