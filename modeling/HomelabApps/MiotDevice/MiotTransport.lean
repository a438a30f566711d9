import HomelabApps.Library.JsonAccess

universe u v w

namespace HomelabApps.MiotDevice

open HomelabApps.Library.Json
open HomelabApps.Library.Utf16

inductive MiotErrorKind
  | timeout | deviceError | transportError
  deriving DecidableEq, Repr

inductive MiotMethod
  | handshake | getProperties | setProperties | action
  deriving DecidableEq, Repr

structure MiotError where
  message : JsString
  kind : MiotErrorKind
  method : MiotMethod
  code : Option Parsed := none
  stampRefreshed : Bool := false

/-- A thrown value: a `MiotError`, or anything else by its message. -/
inductive Failure
  | miot (error : MiotError)
  | other (message : JsString)

def Failure.reason : Failure → JsString
  | .miot error => error.message
  | .other message => message

def MiotError.afterStampRefresh (value : Failure) (method : MiotMethod) (deviceId : Nat) : MiotError :=
  let message :=
    utf16 "Operation failed after stamp refresh for device " ++ utf16 (toString deviceId) ++ utf16 ": " ++
      value.reason
  match value with
  | .miot error => { error with message := message, stampRefreshed := true }
  | .other _ => ⟨message, .transportError, method, none, true⟩

/-- What a call does with the transport: the packets it sends, each after the answer to the one
before. A packet that fails fails the call. -/
inductive Sending (Payload : Type u) (Response : Type v) (Result : Type w)
  | resolve (result : Result)
  | reject (failure : Failure)
  | sendCommand (payload : Payload) (next : Response → Sending Payload Response Result)

variable {Payload : Type u} {Response : Type v} {Property Item : Type w}

def getProperties (payload : Property → Payload) (items : Response → Except Failure (List Item)) :
    List Property → List Item → Sending Payload Response (List Item)
  | [], results => .resolve results
  | prop :: props, results =>
    .sendCommand (payload prop) fun response =>
      match items response with
      | .error failure => .reject failure
      | .ok more => getProperties payload items props (results ++ more)

end HomelabApps.MiotDevice
