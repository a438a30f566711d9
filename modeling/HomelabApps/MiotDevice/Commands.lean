import HomelabApps.Library.Transition
import HomelabApps.MiotDevice.DeviceClock
import HomelabApps.MiotDevice.MiotTransport

/-! The commands of a `MiotDevice`, queued one behind the other, with the calls that change its
clock from outside the queue. -/

universe u v w x

namespace HomelabApps.MiotDevice.Commands

open HomelabApps.Library.Utf16
open HomelabApps.MiotDevice

inductive Run
  | cached
  | fresh (retried : Bool)
  deriving DecidableEq, Repr

/-- Where a command waits. `returned` has its packets behind it and is still to go on. -/
inductive Stage (K : Type u) (Payload : Type v) (Response : Type w) (Result : Type x)
  | queued
  | getStamp (deviceId : Nat)
  | handshake (deviceId : Nat) (retried : Bool)
  | sending (deviceId : Nat) (run : Run) (next : Response → Sending Payload Response Result)
    (answer : Option Response)
  | returned (deviceId : Nat) (run : Run) (outcome : Except Failure Result)
  | persisting (state : StampState K) (result : Result)
  | settled (outcome : Except Failure Result)

/-- `behind` is the command whose end this one waits for. -/
structure Command (K : Type u) (Payload : Type v) (Response : Type w) (Result : Type x) where
  method : MiotMethod
  fn : Nat → Sending Payload Response Result
  behind : Option Nat
  stage : Stage K Payload Response Result := .queued

structure DiscoverResult where
  deviceId : Nat
  stamp : Int
  deriving DecidableEq, Repr

inductive Discovery (K : Type u)
  | handshake
  | persisting (state : StampState K) (result : DiscoverResult)
  | settled (outcome : Except Failure DiscoverResult)

inductive Source
  | handshake | stampStore | setStampState
  deriving DecidableEq, Repr

inductive Entry (Payload : Type v)
  | reset
  | supplied (source : Source)
  | next (n deviceId : Nat) (payload : Payload) (stamp : Option Int)
  deriving DecidableEq, Repr

structure Device (K : Type u) (Payload : Type v) (Response : Type w) (Result : Type x) where
  deviceId : Option Nat := none
  stampStore : Bool := false
  clock : DeviceClock K := {}
  queue : Option Nat := none
  commands : List (Command K Payload Response Result) := []
  discoveries : List (Discovery K) := []
  log : List (Entry Payload) := []

inductive Continuation (K : Type u) (Response : Type w)
  | stampRead (stored : Except Failure (Option (StampState K)))
  | handshaken (outcome : Except Failure Int)
  | reply (stamp : Int) (answer : Except Failure Response)
  | fail (failure : Failure)
  | resume
  | stampWritten (outcome : Except Failure Unit)

inductive Event (K : Type u) (Payload : Type v) (Response : Type w) (Result : Type x)
  | runWithStamp (method : MiotMethod) (fn : Nat → Sending Payload Response Result)
  | start (n : Nat)
  | advance (n : Nat) (continuation : Continuation K Response)
  | discover
  | discovered (n : Nat) (outcome : Except Failure DiscoverResult)
  | discoveryWritten (n : Nat) (outcome : Except Failure Unit)
  | setStampState (state : StampState K)

variable {K : Type u} {Payload : Type v} {Response : Type w} {Result : Type x}

def Stage.isQueued : Stage K Payload Response Result → Bool
  | .queued => true
  | _ => false

def Stage.isSettled : Stage K Payload Response Result → Bool
  | .settled _ => true
  | _ => false

def Stage.isSending : Stage K Payload Response Result → Bool
  | .sending _ _ _ _ => true
  | _ => false

def Stage.executing (stage : Stage K Payload Response Result) : Bool :=
  !stage.isQueued && !stage.isSettled

def Device.put (s : Device K Payload Response Result) (n : Nat)
    (stage : Stage K Payload Response Result) : Device K Payload Response Result :=
  { s with commands := s.commands.modify n fun command => { command with stage := stage } }

theorem commands_put (s : Device K Payload Response Result) (n m : Nat)
    (stage : Stage K Payload Response Result) :
    (s.put n stage).commands[m]? =
      s.commands[m]?.map fun command => if n = m then { command with stage := stage } else command := by
  rw [Device.put, List.getElem?_modify]
  split <;> simp

def Device.free (s : Device K Payload Response Result) : Option Nat → Bool
  | none => true
  | some k => s.commands[k]?.any fun command => command.stage.isSettled

def freshFailure (retried : Bool) (method : MiotMethod) (deviceId : Nat) (failure : Failure) : Failure :=
  if retried then .miot (.afterStampRefresh failure method deviceId)
  else
    match failure with
    | .miot error => .miot error
    | .other message => .miot ⟨message, .transportError, method, none, false⟩

def Device.sync (s : Device K Payload Response Result) (m : Moment K) (stamp : Int) :
    Device K Payload Response Result :=
  { s with clock := s.clock.sync m stamp, log := s.log ++ [.supplied .handshake] }

def Device.reset (s : Device K Payload Response Result) : Device K Payload Response Result :=
  { s with clock := s.clock.reset, log := s.log ++ [.reset] }

def Device.toPersist (s : Device K Payload Response Result) : Option (StampState K) :=
  if s.stampStore then s.clock.snapshot else none

variable [Field K] [LinearOrder K] [Library.Rounding K]

def Device.restore (s : Device K Payload Response Result) (m : Moment K) (source : Source)
    (state : StampState K) : Device K Payload Response Result :=
  { s with
    clock := s.clock.restore m state
    log := if state.updatedAt ≤ 0 then s.log else s.log ++ [.supplied source] }

variable [FloorRing K]

def Device.send (s : Device K Payload Response Result) (m : Moment K) (n deviceId : Nat) (run : Run) :
    Sending Payload Response Result → Device K Payload Response Result
  | .resolve result => s.put n (.returned deviceId run (.ok result))
  | .reject failure => s.put n (.returned deviceId run (.error failure))
  | .sendCommand payload next =>
    let stamp := s.clock.next m.performance
    let s := { s with log := s.log ++ [Entry.next n deviceId payload stamp] }
    match stamp with
    | none =>
      s.put n (.returned deviceId run (.error (.other (utf16 "Device clock is not synced. Handshake first."))))
    | some _ => s.put n (.sending deviceId run next none)

def Device.proceed (s : Device K Payload Response Result) (m : Moment K) (n deviceId : Nat)
    (fn : Nat → Sending Payload Response Result) : Device K Payload Response Result :=
  if s.clock.synced then s.send m n deviceId .cached (fn deviceId)
  else s.put n (.handshake deviceId false)

def Device.runWithStampExclusive (s : Device K Payload Response Result) (m : Moment K) (n : Nat)
    (fn : Nat → Sending Payload Response Result) : Device K Payload Response Result :=
  match s.deviceId with
  | none =>
    s.put n (.settled (.error (.other (utf16 "Device not connected. Call connect() or discover() first."))))
  | some deviceId =>
    if s.stampStore && !s.clock.synced then s.put n (.getStamp deviceId)
    else s.proceed m n deviceId fn

def Device.finish (s : Device K Payload Response Result) (n : Nat) (method : MiotMethod)
    (deviceId : Nat) : Run → Except Failure Result → Device K Payload Response Result
  | _, .ok result =>
    match s.toPersist with
    | some state => s.put n (.persisting state result)
    | none => s.put n (.settled (.ok result))
  | .cached, .error _ => s.reset.put n (.handshake deviceId true)
  | .fresh retried, .error failure =>
    s.put n (.settled (.error (freshFailure retried method deviceId failure)))

def Device.advance (s : Device K Payload Response Result) (m : Moment K) (n : Nat)
    (command : Command K Payload Response Result) :
    Continuation K Response → Option (Device K Payload Response Result)
  | .stampRead stored =>
    match command.stage, stored with
    | .getStamp _, .error failure => some (s.put n (.settled (.error failure)))
    | .getStamp deviceId, .ok none => some (s.proceed m n deviceId command.fn)
    | .getStamp deviceId, .ok (some state) =>
      some ((s.restore m .stampStore state).proceed m n deviceId command.fn)
    | _, _ => none
  | .handshaken outcome =>
    match command.stage, outcome with
    | .handshake _ _, .error failure => some (s.put n (.settled (.error failure)))
    | .handshake deviceId retried, .ok stamp =>
      some ((s.sync m stamp).send m n deviceId (.fresh retried) (command.fn deviceId))
    | _, _ => none
  | .reply stamp answer =>
    match command.stage with
    | .sending deviceId run next none =>
      let s := { s with clock := s.clock.observe m stamp }
      match answer with
      | .ok response => some (s.put n (.sending deviceId run next (some response)))
      | .error failure => some (s.put n (.returned deviceId run (.error failure)))
    | _ => none
  | .fail failure =>
    match command.stage with
    | .sending deviceId run _ none => some (s.put n (.returned deviceId run (.error failure)))
    | _ => none
  | .resume =>
    match command.stage with
    | .sending deviceId run next (some response) => some (s.send m n deviceId run (next response))
    | .returned deviceId run outcome => some (s.finish n command.method deviceId run outcome)
    | _ => none
  | .stampWritten _ =>
    match command.stage with
    | .persisting _ result => some (s.put n (.settled (.ok result)))
    | _ => none

def Device.discovered (s : Device K Payload Response Result) (m : Moment K) (n : Nat)
    (result : DiscoverResult) : Device K Payload Response Result :=
  let s := { s with deviceId := some result.deviceId }.sync m result.stamp
  match s.toPersist with
  | some state => { s with discoveries := s.discoveries.set n (.persisting state result) }
  | none => { s with discoveries := s.discoveries.set n (.settled (.ok result)) }

def Device.step (s : Device K Payload Response Result) :
    Moment K × Event K Payload Response Result → Option (Device K Payload Response Result)
  | (_, .runWithStamp method fn) =>
    some { s with
      commands := s.commands ++ [⟨method, fn, s.queue, .queued⟩]
      queue := some s.commands.length }
  | (m, .start n) =>
    s.commands[n]?.bind fun command =>
      if command.stage.isQueued && s.free command.behind then
        some (s.runWithStampExclusive m n command.fn)
      else none
  | (m, .advance n continuation) =>
    s.commands[n]?.bind fun command => s.advance m n command continuation
  | (_, .discover) => some { s with discoveries := s.discoveries ++ [.handshake] }
  | (m, .discovered n outcome) =>
    match s.discoveries[n]?, outcome with
    | some .handshake, .ok result => some (s.discovered m n result)
    | some .handshake, .error failure =>
      some { s with discoveries := s.discoveries.set n (.settled (.error failure)) }
    | _, _ => none
  | (_, .discoveryWritten n outcome) =>
    match s.discoveries[n]? with
    | some (.persisting _ result) =>
      some { s with discoveries := s.discoveries.set n (.settled (outcome.map fun _ => result)) }
    | _ => none
  | (m, .setStampState state) => some (s.restore m .setStampState state)

end HomelabApps.MiotDevice.Commands
