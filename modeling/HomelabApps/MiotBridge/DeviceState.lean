import HomelabApps.Library.Transition
import HomelabApps.MiotBridge.NotificationDispatch
import HomelabApps.MiotBridge.PropertyPoller

universe u

namespace HomelabApps.MiotBridge.DeviceState

open HomelabApps.Library
open HomelabApps.MiotBridge.DeviceCommand
open HomelabApps.MiotBridge.PropertyPoller (Poller PollTarget)
open HomelabApps.MiotBridge.NotificationDispatch (Dispatch)

structure Config (Value : Type u) where
  polling : PropertyPoller.Config
  notifications : NotificationDispatch.Config
  devices : List (Device Value)

inductive Exchange (Value : Type u)
  | poll (device : Device Value) (keys : List String) (asked : List (Nat × Nat))
      (results : List (PropertyResult Value))
  | get (device : Device Value) (command : String) (property : MiotProperty Value)
      (answer : Option (PropertyResult Value))
  | set (device : Device Value) (command : String) (property : MiotProperty Value)
      (value : Option Value) (answer : Option Int)

structure Observation (Value : Type u) where
  read : Bool
  key : Nat × String
  value : Option Value
  deriving DecidableEq

/-- `hardware` is the devices' own state by hardware id, siid and piid; `targets` is what the
current tick has left to poll and `reading` says that a read of it is in flight. -/
structure State (Value : Type u) where
  hardware : Nat → Nat → Nat → Option Value
  poller : Poller Value := {}
  dispatch : Dispatch Value := {}
  targets : List PollTarget := []
  reading : Bool := false
  exchanges : List (Option (Exchange Value)) := []
  observed : List (Observation Value) := []

inductive Event (Value : Type u)
  | change (deviceId siid piid : Nat) (value : Option Value)
  | tick
  | poll
  | command (request : DeviceCommandRequest Value)
  | answer (n : Nat) (code : Option Int)
  | fail (n : Nat)
  | resume (n now : Nat)
  | publish (now : Nat)

variable {Value : Type u}

def Config.getById (c : Config Value) (id : String) : Option (Device Value) :=
  c.devices.find? (·.id = id)

def Config.getByDeviceId (c : Config Value) (deviceId : Nat) : Option (Device Value) :=
  c.devices.find? (·.deviceId = deviceId)

def State.put (s : State Value) (n : Nat) (x : Option (Exchange Value)) : State Value :=
  { s with exchanges := s.exchanges.set n x }

def State.send (s : State Value) (x : Exchange Value) : State Value :=
  { s with exchanges := s.exchanges ++ [some x] }

def State.receive (c : Config Value) (now : Nat) (s : State Value) (deviceId : Nat)
    (property : String) (value : Option Value) : State Value :=
  { s with dispatch := s.dispatch.receive c.notifications now ⟨deviceId, property, value⟩ }

def State.observe (s : State Value) (o : Observation Value) : State Value :=
  { s with observed := s.observed ++ [o] }

/-- The device's part of an exchange: one packet answered, with the value it holds at that moment. -/
def item (s : State Value) (device : Device Value) (siid piid : Nat) (code : Option Int) :
    Option (PropertyResult Value) :=
  code.map fun code =>
    { siid := siid
      piid := piid
      value := if code = 0 then s.hardware device.deviceId siid piid else none
      code := code }

def State.answer (s : State Value) (n : Nat) (code : Option Int) : Exchange Value → Option (State Value)
  | .poll _ _ [] _ => none
  | .poll device keys ((siid, piid) :: asked) results =>
    some (s.put n (some (.poll device keys asked (results ++ (item s device siid piid code).toList))))
  | .get device command property none =>
    some (s.put n (some (.get device command property
      (some ((item s device property.siid property.piid code).getD
        ⟨property.siid, property.piid, none, MIOT_PROPERTY_CODE_MISSING⟩)))))
  | .get _ _ _ (some _) => none
  | .set device command property value none =>
    let code := code.getD MIOT_PROPERTY_CODE_MISSING
    let s' := s.put n (some (.set device command property value (some code)))
    some (if code = 0 then
      { s' with
        hardware := fun deviceId siid piid =>
          if (deviceId, siid, piid) = (device.deviceId, property.siid, property.piid) then value
          else s.hardware deviceId siid piid }
    else s')
  | .set _ _ _ _ (some _) => none

def State.notify (c : Config Value) (now : Nat) (s : State Value) :
    Option (PropertyPoller.PropertyChangeEvent Value) → State Value
  | some event => s.receive c now event.miotDeviceId event.property event.newValue
  | none => s

/-- One turn of the loop of `readDevice`, the event it emits handed to the notifications. -/
def State.readResult [DecidableEq Value] (c : Config Value) (device : Device Value) (now : Nat)
    (s : State Value) (r : KeyedPropertyResult Value) : State Value :=
  let (poller, event) := s.poller.readResult c.polling device.id device.deviceId now r
  let s' := State.notify c now { s with poller := poller } event
  if r.code = 0 ∧ s.poller.isSubscribed device.id r.key then
    s'.observe ⟨true, (device.deviceId, r.key), r.value⟩
  else s'

def State.readDevice [DecidableEq Value] (c : Config Value) (device : Device Value) (now : Nat)
    (s : State Value) (results : List (KeyedPropertyResult Value)) : State Value :=
  let s := if c.polling.enabled then results.foldl (State.readResult c device now) s else s
  { s with poller := s.poller.recover device.id, reading := false }

def State.resume [DecidableEq Value] (c : Config Value) (now : Nat) (s : State Value) :
    Exchange Value → Option (State Value)
  | .poll device keys [] results =>
    some (s.readDevice c device now (keyedResults device.spec keys results))
  | .poll _ _ (_ :: _) _ => none
  | .get _ _ _ none => none
  | .get device command _ (some answer) =>
    -- A refused read throws before anything is handed on.
    some (if answer.code ≠ 0 then s
    else (s.receive c now device.deviceId command answer.value).observe
      ⟨true, (device.deviceId, command), answer.value⟩)
  | .set _ _ _ _ none => none
  | .set device command _ value (some code) =>
    some (if code ≠ 0 then s
    else (s.receive c now device.deviceId command value).observe
      ⟨false, (device.deviceId, command), value⟩)

def State.fail (c : Config Value) (s : State Value) : Exchange Value → State Value
  | .poll device .. => { s with poller := s.poller.fault c.polling device.id, reading := false }
  | _ => s

def State.poll (c : Config Value) (s : State Value) : Option (State Value) :=
  match s.targets with
  | [] => none
  | target :: targets =>
    if s.reading then none
    else
      match c.getById target.deviceId with
      | none =>
        some { s with poller := s.poller.fault c.polling target.deviceId, targets := targets }
      | some device =>
        let asked := (resolvedProperties device.spec target.properties).map fun p =>
          (p.2.siid, p.2.piid)
        some { s.send (.poll device target.properties asked []) with
          targets := targets
          reading := true }

def State.command (c : Config Value) (s : State Value) (request : DeviceCommandRequest Value) :
    State Value :=
  match c.getByDeviceId request.deviceId with
  | none => s
  | some device =>
    match resolveCommand request device.deviceId device.spec with
    | .error _ => s
    | .ok (.getProperty property) => s.send (.get device request.command property none)
    | .ok (.setProperty property) => s.send (.set device request.command property request.value none)
    -- What an action does to the device shows as changes of its own.
    | .ok (.action _) => s

def step [DecidableEq Value] (c : Config Value) (s : State Value) : Event Value → Option (State Value)
  | .change deviceId siid piid value =>
    some { s with
      hardware := fun d i j =>
        if (d, i, j) = (deviceId, siid, piid) then value else s.hardware d i j }
  | .tick =>
    if c.polling.enabled ∧ s.targets = [] ∧ ¬s.reading then
      let (poller, due) := s.poller.dueDevices
      some { s with poller := poller, targets := due }
    else none
  | .poll => s.poll c
  | .command request => some (s.command c request)
  | .answer n code => (s.exchanges[n]?.join).bind (s.answer n code)
  | .fail n => (s.exchanges[n]?.join).map fun x => (s.put n none).fail c x
  | .resume n now => (s.exchanges[n]?.join).bind fun x => (s.put n none).resume c now x
  | .publish now => (s.dispatch.fire c.notifications now).map fun dispatch => { s with dispatch := dispatch }

end HomelabApps.MiotBridge.DeviceState
