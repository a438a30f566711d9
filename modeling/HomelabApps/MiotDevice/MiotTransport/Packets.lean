import HomelabApps.MiotDevice.MiotTransport

universe u v

namespace HomelabApps.MiotDevice

open HomelabApps.Library.Json
open HomelabApps.Library.Utf16

abbrev Bytes := List UInt8

structure Runtime where
  md5 : Bytes → Bytes
  decipher : Bytes → Bytes → Bytes → Except JsString Bytes
  decode : Bytes → JsString
  syntaxError : JsString → JsString

def HEADER_SIZE : Nat := 32

def MAGIC : Nat := 0x2131

def readUIntBE (msg : Bytes) (offset size : Nat) : Nat :=
  ((msg.drop offset).take size).foldl (fun n b => 0x100 * n + b.toNat) 0

def bytesShown (n : Nat) : JsString := utf16 (toString n) ++ utf16 " bytes"

structure HelloInfo where
  deviceId : Nat
  stamp : Int

def parseHello (msg : Bytes) : Except JsString HelloInfo :=
  if msg.length < HEADER_SIZE then .error (utf16 "Response too short: " ++ bytesShown msg.length)
  else
    let magic := readUIntBE msg 0 2
    if magic ≠ MAGIC then
      .error (utf16 "Invalid magic number: 0x" ++ utf16 (String.ofList (Nat.toDigits 16 magic)))
    else .ok { deviceId := readUIntBE msg 8 4, stamp := readUIntBE msg 12 4 }

structure IncomingPacket where
  header : Bytes
  data : Option Bytes

def IncomingPacket.stamp (packet : IncomingPacket) : Int := readUIntBE packet.header 12 4

def parseAndDecrypt (runtime : Runtime) (token msg : Bytes) : Except JsString IncomingPacket :=
  if token.length ≠ 16 then
    .error (utf16 "Token must be 16 bytes (128-bit), got " ++ utf16 (toString token.length))
  else if msg.length < HEADER_SIZE then .error (utf16 "Packet too short: " ++ bytesShown msg.length)
  else
    let header := msg.take HEADER_SIZE
    let encrypted := msg.drop HEADER_SIZE
    if encrypted = [] then .ok { header, data := none }
    else if header.drop 16 ≠ runtime.md5 (header.take 16 ++ token ++ encrypted) then
      .error (utf16 "Invalid packet checksum — token may be wrong")
    else
      let key := runtime.md5 token
      match runtime.decipher key (runtime.md5 (key ++ token)) encrypted with
      | .ok data => .ok { header, data := some data }
      | .error message => .error message

/-- The payload without the zeros that may trail it, `none` for a packet that carries no data. -/
def IncomingPacket.json (runtime : Runtime) (packet : IncomingPacket) : Except JsString (Option Parsed) :=
  match packet.data with
  | none => .ok none
  | some data =>
    let text := (runtime.decode data).rdropWhile (· = NUL)
    match parse text with
    | some value => .ok (some value)
    | none => .error (runtime.syntaxError text)

/-- The first thing a socket reports, after which it is closed. The port is one that `send` takes, so
that it reports a failure through its callback. -/
inductive SocketEvent
  | timeout
  | message (msg : Bytes)
  | error (cause : JsString)
  | sendFailed (cause : JsString)

def MiotMethod.text : MiotMethod → JsString
  | .handshake => utf16 "handshake"
  | .getProperties => utf16 "get_properties"
  | .setProperties => utf16 "set_properties"
  | .action => utf16 "action"

def transportError (method : MiotMethod) (cause : JsString) : MiotError :=
  { message := cause, kind := .transportError, method }

structure MiotTransport where
  runtime : Runtime
  address : JsString
  token : Bytes

def MiotTransport.handshake (transport : MiotTransport) : SocketEvent → Except MiotError HelloInfo
  | .timeout => .error
      { message := utf16 "Handshake timeout: no response from " ++ transport.address
        kind := .timeout
        method := .handshake }
  | .message msg =>
    match parseHello msg with
    | .ok info => .ok info
    | .error cause => .error (transportError .handshake cause)
  | .error cause => .error (transportError .handshake cause)
  | .sendFailed cause => .error (transportError .handshake cause)

/-- How the answer to a command ends it: with the device's stamp and its answer or refusal, or
without anything of the device. -/
inductive Reply
  | heard (stamp : Int) (answer : Except MiotError Parsed)
  | failed (error : MiotError)

def interpolateOption : Option Parsed → Except TypeError JsString
  | none => .ok (utf16 "undefined")
  | some value => interpolate value

def deviceErrorMessage (error : Parsed) : Except TypeError JsString := do
  let code ← interpolateOption (error.get (utf16 "code"))
  let message ← interpolateOption (error.get (utf16 "message"))
  return utf16 "Device error " ++ code ++ utf16 ": " ++ message

def readBody (method : MiotMethod) (json : Parsed) : Except MiotError Parsed :=
  match json.get (utf16 "error") with
  | none => .ok json
  | some .null => .ok json
  | some error =>
    match deviceErrorMessage error with
    | .ok message => .error { message, kind := .deviceError, method, code := error.get (utf16 "code") }
    | .error typeError => .error (transportError method typeError.message)

def MiotTransport.sendCommand (transport : MiotTransport) (method : MiotMethod) : SocketEvent → Reply
  | .timeout => .failed
      { message := utf16 "Command timeout: no response from " ++ transport.address
        kind := .timeout
        method }
  | .message msg =>
    match parseAndDecrypt transport.runtime transport.token msg with
    | .error cause => .failed (transportError method cause)
    | .ok packet =>
      match packet.json transport.runtime with
      | .error cause => .failed (transportError method cause)
      | .ok none => .failed (transportError method (utf16 "Empty response from device"))
      | .ok (some .null) => .failed (transportError method (utf16 "Empty response from device"))
      | .ok (some json) => .heard packet.stamp (readBody method json)
  | .error cause => .failed (transportError method cause)
  | .sendFailed cause => .failed (transportError method cause)

inductive Params
  | get (did : JsString) (siid piid : Nat)
  | set (did : JsString) (siid piid : Nat) (value : Parsed)
  | action (did : JsString) (siid aiid : Nat) (args : List Parsed)

structure MiotRequestPayload where
  method : MiotMethod
  params : Params

structure GetPropertiesResult where
  siid : Option Parsed
  piid : Option Parsed
  value : Option Parsed
  code : Option Parsed

inductive CallResult
  | value (value : Option Parsed)
  | done
  | action (code result : Option Parsed)
  | items (results : List GetPropertiesResult)

def propertyError (method : MiotMethod) (code : Option Parsed) : Failure :=
  let shown : Except TypeError JsString :=
    match code with
    | none => .ok (utf16 "unknown")
    | some .null => .ok (utf16 "unknown")
    | some code => interpolate code
  match shown with
  | .ok shown =>
    .miot { message := method.text ++ utf16 " failed: code " ++ shown, kind := .deviceError, method, code }
  | .error typeError => .other typeError.message

def readItem (method : MiotMethod) (response : Parsed) : Except Failure Parsed :=
  match (response.get (utf16 "result")).bind Parsed.first? with
  | none => .error (propertyError method none)
  | some .null => .error (propertyError method none)
  | some item =>
    if (item.get (utf16 "code")).any Parsed.isZero then .ok item
    else .error (propertyError method (item.get (utf16 "code")))

def readResult (item : Parsed) : Except Failure GetPropertiesResult :=
  match item with
  | .null => .error (.other (utf16 "Cannot read properties of null (reading 'siid')"))
  | item => .ok
      { siid := item.get (utf16 "siid")
        piid := item.get (utf16 "piid")
        value := item.get (utf16 "value")
        code := item.get (utf16 "code") }

def readItems (response : Parsed) : Except Failure (List GetPropertiesResult) :=
  match response.get (utf16 "result") with
  | none => .ok []
  | some .null => .ok []
  | some raw =>
    match raw.iterate with
    | .ok items => items.mapM readResult
    | .error typeError => .error (.other typeError.message)

def readAction (response : Parsed) : Except Failure CallResult :=
  let result := response.get (utf16 "result")
  let code : Option Parsed :=
    match result.bind (·.get (utf16 "code")) with
    | some (.number token) => some (.number token)
    | _ => none
  match code with
  | none => .ok (.action none result)
  | some code =>
    if code.isZero then .ok (.action (some code) result) else .error (propertyError .action (some code))

section

variable {Payload : Type u} {Response : Type v} {Result Result' : Type u}

def Sending.ofExcept : Except Failure Result → Sending Payload Response Result
  | .ok result => .resolve result
  | .error failure => .reject failure

def Sending.map (f : Result → Result') : Sending Payload Response Result → Sending Payload Response Result'
  | .resolve result => .resolve (f result)
  | .reject failure => .reject failure
  | .sendCommand payload next => .sendCommand payload fun response => (next response).map f

end

inductive Call
  | getProperty (siid piid : Nat)
  | setProperty (siid piid : Nat) (value : Parsed)
  | callAction (siid aiid : Nat) (args : Option Parsed)
  | getProperties (props : List (Nat × Nat))

def didOf (deviceId : Nat) : JsString := utf16 (toString deviceId)

def actionArgs : Option Parsed → List Parsed
  | none => []
  | some (.array args) => args
  | some arg => [arg]

def Call.fn (call : Call) (deviceId : Nat) : Sending MiotRequestPayload Parsed CallResult :=
  match call with
  | .getProperty siid piid =>
    .sendCommand ⟨.getProperties, .get (didOf deviceId) siid piid⟩ fun response =>
      .ofExcept ((readItem .getProperties response).map fun item => .value (item.get (utf16 "value")))
  | .setProperty siid piid value =>
    .sendCommand ⟨.setProperties, .set (didOf deviceId) siid piid value⟩ fun response =>
      .ofExcept ((readItem .setProperties response).map fun _ => .done)
  | .callAction siid aiid args =>
    .sendCommand ⟨.action, .action (didOf deviceId) siid aiid (actionArgs args)⟩ fun response =>
      .ofExcept (readAction response)
  | .getProperties props =>
    (HomelabApps.MiotDevice.getProperties (fun prop => ⟨.getProperties, .get (didOf deviceId) prop.1 prop.2⟩)
      readItems props []).map .items

end HomelabApps.MiotDevice
