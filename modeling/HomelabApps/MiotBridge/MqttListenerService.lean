import HomelabApps.Library.JsonAccess
import HomelabApps.Library.Transition
import HomelabApps.Library.Utf8Decode
import HomelabApps.MiotBridge.DeviceCommand
import HomelabApps.MiotBridge.MqttTopicService

/-! `MqttListenerService`: command messages of any number of devices, each answered on the response topic of its
device, in every order in which the commands come back. -/

namespace HomelabApps.MiotBridge.MqttListener

open HomelabApps.Library
open HomelabApps.Library.Json (Parsed parse)
open HomelabApps.Library.Utf16
open HomelabApps.Library.Utf8 (decode)
open HomelabApps.MiotBridge.DeviceCommand (DeviceCommandOperation)
open HomelabApps.MiotBridge.Topics

structure MqttCommandRequest where
  command : JsString
  operation : DeviceCommandOperation
  value : Option Parsed

def COMMAND : JsString := utf16 "command"

def OPERATION : JsString := utf16 "operation"

def VALUE : JsString := utf16 "value"

def operation? (text : JsString) : Option DeviceCommandOperation :=
  if text = utf16 "GET_PROPERTY" then some .getProperty
  else if text = utf16 "SET_PROPERTY" then some .setProperty
  else if text = utf16 "ACTION" then some .action
  else none

def validate : Parsed → Option MqttCommandRequest
  | .object entries =>
    if entries.all fun e => e.1 = COMMAND || e.1 = OPERATION || e.1 = VALUE then
      match (Parsed.object entries).get COMMAND, (Parsed.object entries).get OPERATION with
      | some (.string command), some (.string operation) =>
        if command = [] then none
        else (operation? operation).map fun operation => ⟨command, operation, (Parsed.object entries).get VALUE⟩
      | _, _ => none
    else none
  | _ => none

/-- What a payload is before anything is awaited: nothing to answer, refused with a result, or a command to execute. -/
inductive Received
  | nothing
  | refused (result : JsString)
  | request (request : MqttCommandRequest)

def INVALID_JSON : JsString := utf16 "error: Invalid JSON."

/-- `handleMessage` up to its await; `issues` is what the schema's error lists of a value. -/
def receive (issues : Parsed → JsString) (payload : List UInt8) : Received :=
  if payload = [] then .nothing
  else
    match parse (decode payload) with
    | none => .refused INVALID_JSON
    | some parsed =>
      match validate parsed with
      | none => .refused (utf16 "error: Validation failed. " ++ issues parsed)
      | some request => .request request

/-- What `DeviceCommandService.execute` comes back with: the value of its response as a text, `none` where there is
none, or the message of its error. -/
abbrev Executed := Except JsString (Option JsString)

def resultOf (request : MqttCommandRequest) : Executed → JsString
  | .ok value => if request.operation = .action then [] else value.getD []
  | .error message => utf16 "error: " ++ message

inductive Stage
  | executing (request : MqttCommandRequest)
  | responding (result : JsString)
  | finished (result : Option JsString)

structure Task where
  deviceId : Nat
  payload : List UInt8
  stage : Stage

structure Publication where
  task : Nat
  topic : JsString
  result : JsString
  deriving DecidableEq

/-- `subscriptions` are the patterns that were subscribed to, `executed` what the command service was asked for and
`published` what the client was handed, in order. -/
structure State where
  subscriptions : List JsString := []
  tasks : List Task := []
  executed : List (Nat × MqttCommandRequest) := []
  published : List Publication := []

inductive Event
  | connect
  | message (topic : JsString) (payload : List UInt8) (retain : Bool)
  | executed (i : Nat) (outcome : Executed)
  | publish (i : Nat)

def State.subscribe (topicPrefix : Option JsString) (s : State) : State :=
  { s with subscriptions := s.subscriptions ++ [getCommandSubscriptionPattern topicPrefix] }

def State.start (topicPrefix : Option JsString) : State := ({} : State).subscribe topicPrefix

def State.onMessage (issues : Parsed → JsString) (s : State) (deviceId : Nat) (payload : List UInt8) : State :=
  match receive issues payload with
  | .nothing => { s with tasks := s.tasks ++ [⟨deviceId, payload, .finished none⟩] }
  | .refused result => { s with tasks := s.tasks ++ [⟨deviceId, payload, .responding result⟩] }
  | .request request =>
    { s with
      tasks := s.tasks ++ [⟨deviceId, payload, .executing request⟩]
      executed := s.executed ++ [(deviceId, request)] }

def commandOf (topicPrefix : Option JsString) (topic : JsString) (retain : Bool) : Option Nat :=
  match extractDeviceIdFromCommandTopic topicPrefix topic with
  | none => none
  | some deviceId => if retain then none else some deviceId

/-- A publication that fails is logged and leaves nothing to do. -/
def step (topicPrefix : Option JsString) (issues : Parsed → JsString) (s : State) : Event → Option State
  | .connect => some (s.subscribe topicPrefix)
  | .message topic payload retain =>
    match commandOf topicPrefix topic retain with
    | none => some s
    | some deviceId => some (s.onMessage issues deviceId payload)
  | .executed i outcome =>
    match s.tasks[i]? with
    | some ⟨deviceId, payload, .executing request⟩ =>
      some { s with tasks := s.tasks.set i ⟨deviceId, payload, .responding (resultOf request outcome)⟩ }
    | _ => none
  | .publish i =>
    match s.tasks[i]? with
    | some ⟨deviceId, payload, .responding result⟩ =>
      some { s with
        tasks := s.tasks.set i ⟨deviceId, payload, .finished (some result)⟩
        published := s.published ++ [⟨i, getResponseTopic topicPrefix deviceId, result⟩] }
    | _ => none

def run (topicPrefix : Option JsString) (issues : Parsed → JsString) : State → List Event → Option State :=
  Transition.run (step topicPrefix issues)

end HomelabApps.MiotBridge.MqttListener
