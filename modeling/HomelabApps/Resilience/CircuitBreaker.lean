import HomelabApps.Resilience.ResiliencePolicy

/-! The calls that go through one policy, with the breaker that they share. -/

universe u v w

namespace HomelabApps.Resilience

/-- What the breaker hears of an attempt: the filter has told the failures that count from the others. -/
inductive Verdict
  | success | unhandled | handled
  deriving DecidableEq, Repr

/-- Cockatiel's breaker at a moment. `enter` lets a call through, or not yet; `leave` takes its result, by
the state that it was let through in. -/
structure CircuitBreaker (B : Type w) where
  state : B → CircuitState
  enter : Nat → B → Option B
  leave : Nat → CircuitState → Verdict → B → B

variable {B : Type w} {E : Type u} {R : Type v}

/-- What the policy relies on: only an open breaker lets a trial through, and is half-open while it runs;
results are counted where their calls were let through. -/
structure CircuitBreaker.Lawful (cb : CircuitBreaker B) : Prop where
  passes : ∀ now b c, cb.enter now b = some c → cb.state b = .closed → c = b
  tries : ∀ now b c, cb.enter now b = some c → cb.state b ≠ .closed →
    cb.state b = .opened ∧ cb.state c = .halfOpen
  uncounted : ∀ now b, cb.leave now .closed .unhandled b = b
  counted : ∀ now verdict b, cb.state (cb.leave now .closed verdict b) = cb.state b ∨
    (cb.state b = .closed ∧ verdict = .handled ∧ cb.state (cb.leave now .closed verdict b) = .opened)
  decided : ∀ now verdict b, cb.state b = .halfOpen →
    cb.state (cb.leave now .halfOpen verdict b) = if verdict = .handled then .opened else .closed

/-- The breaker with the calls made so far, and the state that each attempt was let through in, for an
attempt of a call by their numbers. -/
structure Shared (B : Type w) (E : Type u) (R : Type v) where
  breaker : B
  calls : List (Execution E R) := []
  started : Nat → Nat → Option CircuitState := fun _ _ => none

inductive SharedEvent (E : Type u) (R : Type v)
  | execute (parentAborted : Option Bool) (retry : Bool)
  | enters (n k now : Nat)
  | concludes (n k now : Nat)
  | call (n : Nat) (event : Event E R)

def Event.isBreakers : Event E R → Bool
  | .attempt _ (.calledBack _) => true
  | .attempt _ .concludes => true
  | _ => false

/-- The state that a call which was let through has started in: a breaker that is not closed lets
its trial through. -/
def route : CircuitState → CircuitState
  | .closed => .closed
  | _ => .halfOpen

def ResiliencePolicy.verdict (policy : ResiliencePolicy E) (startState : Option CircuitState) :
    Outcome E R → Verdict
  | .ok _ => .success
  | .error error => if policy.filter startState error then .handled else .unhandled

/-- The breaker after an attempt's result, which it hears of unless it has refused the attempt itself. -/
def ResiliencePolicy.heard (policy : ResiliencePolicy E) (cb : CircuitBreaker B) (now : Nat)
    (started : Option CircuitState) (a : Attempt E R) (b : B) : B :=
  match started, a.conclusion policy.cfg with
  | some state, some outcome => cb.leave now state (policy.verdict a.startState outcome) b
  | _, _ => b

def ResiliencePolicy.stepCall (policy : ResiliencePolicy E) (calls : List (Execution E R)) (n : Nat)
    (event : Event E R) : Option (List (Execution E R)) :=
  calls[n]?.bind fun call => (policy.step call event).map fun call => calls.set n call

def ResiliencePolicy.stepShared (policy : ResiliencePolicy E) (cb : CircuitBreaker B) (s : Shared B E R) :
    SharedEvent E R → Option (Shared B E R)
  | .execute parentAborted retry => some { s with calls := s.calls ++ [policy.execute parentAborted retry] }
  | .enters n k now =>
    (cb.enter now s.breaker).bind fun b =>
      (policy.stepCall s.calls n (.attempt k (.calledBack (some (cb.state b))))).map fun calls =>
        { s with
          breaker := b
          calls := calls
          started := fun m j => if m = n ∧ j = k then some (route (cb.state s.breaker)) else s.started m j }
  | .concludes n k now =>
    (s.calls[n]?.bind fun call => call.attempts[k]?).bind fun a =>
      (policy.stepCall s.calls n (.attempt k .concludes)).map fun calls =>
        { s with
          breaker := policy.heard cb now (s.started n k) a s.breaker
          calls := calls }
  | .call n event =>
    if event.isBreakers then none
    else (policy.stepCall s.calls n event).map fun calls => { s with calls := calls }

end HomelabApps.Resilience
