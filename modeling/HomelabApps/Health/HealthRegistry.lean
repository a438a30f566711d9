import HomelabApps.Health.Report
import HomelabApps.Library.Promise
import HomelabApps.Library.SharedFetch

namespace HomelabApps.Health

open HomelabApps.Library
open HomelabApps.Library.Utf16
open HomelabApps.Library.Json (Value)

def MAX_DETAIL_LENGTH : Nat := 120

/-- What is thrown: whether it is an `Error`, and what its `name` is found to be each time it is read,
`none` where asking throws. -/
structure Thrown where
  isError : Option Bool
  name : Nat → Option (Option Value)
  message : JsString

def typeError : Thrown where
  isError := some true
  name _ := some (some (.string (utf16 "TypeError")))
  message := []

/-- What a check resolves with: what each of its properties is found to be each time it is read. Every
reading of `undefined` and `null` throws. -/
structure Resolved where
  status : Except Thrown (Option Value)
  detail : Nat → Except Thrown (Option Value)
  observedValue : Nat → Except Thrown (Option Value)

inductive Settlement
  | resolved (result : Resolved)
  | rejected (error : Thrown)

inductive Behaviour
  | threw (error : Thrown)
  | settled (settlement : Settlement)
  | expired

section

-- Whether the language finds the `length` of an object to be at most `MAX_DETAIL_LENGTH`.
variable (fits : Value → Bool)

def truncate : Option Value → Except Thrown Value
  | none | some .null | some (.bool _) | some (.number _) => .error typeError
  | some (.string text) => .ok (.string (if text.length ≤ MAX_DETAIL_LENGTH then text else text.take MAX_DETAIL_LENGTH))
  | some (.array items) => .ok (.array (if items.length ≤ MAX_DETAIL_LENGTH then items else items.take MAX_DETAIL_LENGTH))
  | some (.object entries) => if fits (.object entries) then .ok (.object entries) else .error typeError
  | some (.ancestor depth) => if fits (.ancestor depth) then .ok (.ancestor depth) else .error typeError

def sanitise (result : Resolved) : Except Thrown HealthCheckResult := do
  let status ← result.status
  let detail ← match ← result.detail 0 with
    | none => pure none
    | some _ => (truncate fits (← result.detail 1)).map some
  let observedValue ← match ← result.observedValue 0 with
    | none => pure none
    | some _ => result.observedValue 1
  return { status := status, detail := detail, observedValue := observedValue }

/-- `name` in `catch`; `none` where it throws once more. -/
def Thrown.nameOf (error : Thrown) : Option (Option Value) :=
  match error.isError with
  | none => none
  | some false => some (some (.string (utf16 "Error")))
  | some true =>
    match error.name 0 with
    | none => none
    | some (some (.string _)) =>
      match error.name 1 with
      | none => none
      | some (some (.string [])) => some (some (.string (utf16 "Error")))
      | some _ => error.name 2
    | some _ => some (some (.string (utf16 "Error")))

def caught (check : HealthCheck) (error : Thrown) : Promise EvaluatedCheck :=
  match error.nameOf.map (truncate fits) with
  | some (.ok detail) => .fulfilled {
      check := check
      result := { status := some (.string HealthStatus.fail.value), detail := some detail, observedValue := none } }
  | _ => .rejected

def timeout : Resolved where
  status := .ok (some (.string HealthStatus.fail.value))
  detail _ := .ok (some (.string (utf16 "timeout")))
  observedValue _ := .ok none

def settle (check : HealthCheck) : Settlement → Promise EvaluatedCheck
  | .resolved result =>
    match sanitise fits result with
    | .ok result => .fulfilled { check := check, result := result }
    | .error error => caught fits check error
  | .rejected error => caught fits check error

def runOne (check : HealthCheck) : Behaviour → Promise EvaluatedCheck
  | .threw error => caught fits check error
  | .settled settlement => settle fits check settlement
  | .expired => settle fits check (.resolved timeout)

/-- A call of `runOne`; `pending` while the promise of the check may settle, `armed` while its timer may fire,
with all that has become of the check. -/
structure Run where
  check : HealthCheck
  pending : Bool
  armed : Bool
  outcome : Promise EvaluatedCheck
  behaviours : List Behaviour

def Run.meet (run : Run) (behaviour : Behaviour) : Run :=
  { run with
    armed := false
    outcome := run.outcome.race (runOne fits run.check behaviour)
    behaviours := run.behaviours ++ [behaviour] }

def Run.start (check : HealthCheck) : Option Thrown → Run
  | none => { check := check, pending := true, armed := true, outcome := .pending, behaviours := [] }
  | some error =>
    Run.meet fits { check := check, pending := false, armed := true, outcome := .pending, behaviours := [] } (.threw error)

def Run.settle (run : Run) (settlement : Settlement) : Option Run :=
  if run.pending then some (Run.meet fits { run with pending := false } (.settled settlement)) else none

def Run.expire (run : Run) : Option Run :=
  if run.armed then some (run.meet fits .expired) else none

end

structure HealthEvaluation where
  ready : Bool
  evaluated : List EvaluatedCheck

def evaluation (evaluated : List EvaluatedCheck) : HealthEvaluation where
  ready := isReady evaluated
  evaluated := evaluated

structure Gathered where
  time : Nat
  evaluated : Promise (List EvaluatedCheck)

/-- A pass goes on to `then` once its checks are gathered, and from there to `finally`, where its promise settles. -/
structure Pass where
  startedAt : Nat
  runs : List Run
  gathered : Option Gathered := none
  storedAt : Option Nat := none
  finished : Bool := false

structure Cached where
  time : Nat
  value : HealthEvaluation
  pass : Nat

abbrev Call := SharedFetch.Call HealthEvaluation

structure State where
  now : Nat := 0
  cached : Option Cached := none
  inFlight : Option Nat := none
  passes : List Pass := []
  calls : List Call := []

structure ResolvedHealthConfig where
  checkTimeoutMs : Nat := 2000
  cacheTtlMs : Nat := 1000
  timeout_bounds : 1 ≤ checkTimeoutMs ∧ checkTimeoutMs ≤ 2147483647 := by decide

structure HealthRegistry where
  checks : List HealthCheck
  config : ResolvedHealthConfig

inductive Event
  | evaluate (throws : Nat → Option Thrown)
  | wait (duration : Nat)
  | settle (pass check : Nat) (settlement : Settlement)
  | expire (pass check : Nat)
  | gather (pass : Nat)
  | store (pass : Nat)
  | finish (pass : Nat)

variable (fits : Value → Bool) (registry : HealthRegistry)

/-- Every check is started; `throws` are those that throw as they are. -/
def HealthRegistry.runAll (throws : Nat → Option Thrown) (now : Nat) : Pass where
  startedAt := now
  runs := registry.checks.mapIdx fun k check => Run.start fits check (throws k)

def State.hit (s : State) : Option Cached :=
  s.cached.filter fun cached => s.now - cached.time < registry.config.cacheTtlMs

def State.evaluate (s : State) (throws : Nat → Option Thrown) : State :=
  match s.hit registry with
  | some cached => { s with calls := s.calls ++ [⟨s.now, cached.pass, some cached.value⟩] }
  | none =>
    match s.inFlight with
    | some pass => { s with calls := s.calls ++ [⟨s.now, pass, none⟩] }
    | none =>
      { s with
        inFlight := some s.passes.length
        passes := s.passes ++ [registry.runAll fits throws s.now]
        calls := s.calls ++ [⟨s.now, s.passes.length, none⟩] }

def State.updateRun (s : State) (i k : Nat) (f : Pass → Run → Option Run) : Option State :=
  s.passes[i]?.bind fun pass => pass.runs[k]?.bind fun run => (f pass run).map fun run =>
    { s with passes := s.passes.set i { pass with runs := pass.runs.set k run } }

def Pass.all (pass : Pass) : Promise (List EvaluatedCheck) := .all (pass.runs.map (·.outcome))

def State.gather (s : State) (i : Nat) : Option State :=
  s.passes[i]?.bind fun pass =>
    match pass.gathered, pass.all with
    | some _, _ | none, .pending => none
    | none, evaluated =>
      some { s with passes := s.passes.set i { pass with gathered := some { time := s.now, evaluated := evaluated } } }

def Gathered.cached (gathered : Gathered) (now i : Nat) (cached : Option Cached) : Option Cached :=
  match gathered.evaluated with
  | .fulfilled evaluated => some { time := now, value := evaluation evaluated, pass := i }
  | _ => cached

def State.store (s : State) (i : Nat) : Option State :=
  s.passes[i]?.bind fun pass =>
    if pass.storedAt.isSome then none
    else pass.gathered.map fun gathered =>
      { s with
        cached := gathered.cached s.now i s.cached
        passes := s.passes.set i { pass with storedAt := some s.now } }

def State.finish (s : State) (i : Nat) : Option State :=
  s.passes[i]?.bind fun pass =>
    if pass.storedAt.isNone || pass.finished then none
    else some { s with inFlight := none, passes := s.passes.set i { pass with finished := true } }

def step (s : State) : Event → Option State
  | .evaluate throws => some (s.evaluate fits registry throws)
  | .wait duration => some { s with now := s.now + duration }
  | .settle i k settlement => s.updateRun i k fun _ run => run.settle fits settlement
  | .expire i k => s.updateRun i k fun pass run =>
    if pass.startedAt + registry.config.checkTimeoutMs ≤ s.now then run.expire fits else none
  | .gather i => s.gather i
  | .store i => s.store i
  | .finish i => s.finish i

def Pass.promise (pass : Pass) : Promise HealthEvaluation :=
  if pass.finished then
    match pass.gathered with
    | some gathered => gathered.evaluated.map evaluation
    | none => .pending
  else .pending

def State.returned (s : State) (call : Call) : Promise HealthEvaluation :=
  match call.cached with
  | some value => .fulfilled value
  | none =>
    match s.passes[call.fetch]? with
    | some pass => pass.promise
    | none => .pending

end HomelabApps.Health
