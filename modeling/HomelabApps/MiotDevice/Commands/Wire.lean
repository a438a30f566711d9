import HomelabApps.MiotDevice.Commands
import HomelabApps.MiotDevice.MiotTransport.Packets

universe u v w x

namespace HomelabApps.MiotDevice

open HomelabApps.Library.Json
open HomelabApps.Library.Utf16

def Failure.Unmarked : Failure → Prop
  | .miot error => error.stampRefreshed = false
  | .other _ => True

section

variable {Payload : Type u} {Response : Type v} {Result : Type w}

def Sending.Unmarked : Sending Payload Response Result → Prop
  | .resolve _ => True
  | .reject failure => failure.Unmarked
  | .sendCommand _ next => ∀ response, (next response).Unmarked

/-- What `runWithStamp` is given: only `runWithStamp` itself marks a failure. -/
structure CommandFn (Payload : Type u) (Response : Type v) (Result : Type w) where
  fn : Nat → Sending Payload Response Result
  unmarked : ∀ deviceId, (fn deviceId).Unmarked

end

section

variable {Payload : Type u} {Response : Type v} {Result Result' : Type u}

theorem Sending.unmarked_ofExcept {outcome : Except Failure Result}
    (h : ∀ failure, outcome = .error failure → failure.Unmarked) :
    (Sending.ofExcept outcome : Sending Payload Response Result).Unmarked := by
  cases outcome with
  | ok result => trivial
  | error failure => exact h failure rfl

theorem Sending.unmarked_map {f : Result → Result'} {sending : Sending Payload Response Result}
    (h : sending.Unmarked) : (sending.map f).Unmarked := by
  induction sending with
  | resolve result => trivial
  | reject failure => exact h
  | sendCommand payload next ih => exact fun response => ih response (h response)

end

theorem propertyError_unmarked (method : MiotMethod) (code : Option Parsed) : (propertyError method code).Unmarked := by
  unfold propertyError
  dsimp only
  split
  · rfl
  · trivial

theorem readItem_unmarked {method : MiotMethod} {response : Parsed} {failure : Failure}
    (h : readItem method response = .error failure) : failure.Unmarked := by
  rw [readItem] at h
  split at h
  · cases h
    exact propertyError_unmarked _ _
  · cases h
    exact propertyError_unmarked _ _
  · split_ifs at h
    cases h
    exact propertyError_unmarked _ _

theorem readResults_unmarked {items : List Parsed} {failure : Failure} (h : items.mapM readResult = .error failure) :
    failure.Unmarked := by
  induction items with
  | nil => cases h
  | cons item items ih =>
    rw [List.mapM_cons] at h
    cases hitem : readResult item with
    | error cause =>
      rw [hitem] at h
      cases h
      cases item with
      | null =>
        cases hitem
        trivial
      | _ => cases hitem
    | ok result =>
      rw [hitem] at h
      cases hitems : items.mapM readResult with
      | error cause =>
        rw [hitems] at h
        cases h
        exact ih hitems
      | ok results =>
        rw [hitems] at h
        cases h

theorem readItems_unmarked {response : Parsed} {failure : Failure} (h : readItems response = .error failure) :
    failure.Unmarked := by
  rw [readItems] at h
  split at h
  · cases h
  · cases h
  · split at h
    · exact readResults_unmarked h
    · cases h
      trivial

theorem readAction_unmarked {response : Parsed} {failure : Failure} (h : readAction response = .error failure) :
    failure.Unmarked := by
  simp only [readAction] at h
  split at h
  · cases h
  · split_ifs at h
    cases h
    exact propertyError_unmarked _ _

theorem getProperties_unmarked {Payload : Type u} {Response : Type v} {Property Item : Type w}
    {payload : Property → Payload} {items : Response → Except Failure (List Item)}
    (h : ∀ response failure, items response = .error failure → failure.Unmarked) (props : List Property)
    (results : List Item) : (getProperties payload items props results).Unmarked := by
  induction props generalizing results with
  | nil => trivial
  | cons prop props ih =>
    intro response
    cases hitems : items response with
    | error failure =>
      simp only [hitems]
      exact h response failure hitems
    | ok more =>
      simp only [hitems]
      exact ih _

def Call.commandFn (call : Call) : CommandFn MiotRequestPayload Parsed CallResult where
  fn := call.fn
  unmarked deviceId := by
    cases call with
    | getProperty siid piid =>
      intro response
      refine Sending.unmarked_ofExcept fun failure h => ?_
      cases hitem : readItem .getProperties response with
      | ok item =>
        rw [hitem] at h
        cases h
      | error cause =>
        rw [hitem] at h
        cases h
        exact readItem_unmarked hitem
    | setProperty siid piid value =>
      intro response
      refine Sending.unmarked_ofExcept fun failure h => ?_
      cases hitem : readItem .setProperties response with
      | ok item =>
        rw [hitem] at h
        cases h
      | error cause =>
        rw [hitem] at h
        cases h
        exact readItem_unmarked hitem
    | callAction siid aiid args =>
      intro response
      exact Sending.unmarked_ofExcept fun failure h => readAction_unmarked h
    | getProperties props =>
      exact Sending.unmarked_map (getProperties_unmarked (fun _ _ => readItems_unmarked) props [])

namespace Commands

/-- What happens to a device that talks over sockets. A packet's own making can throw as well. -/
inductive WireEvent (K : Type u) (Payload : Type v) (Result : Type w)
  | runWithStamp (method : MiotMethod) (command : CommandFn Payload Parsed Result)
  | start (n : Nat)
  | stampRead (n : Nat) (stored : Option (StampState K))
  | handshake (n : Nat) (event : SocketEvent)
  | packet (n : Nat) (method : MiotMethod) (event : SocketEvent)
  | packetThrows (n : Nat) (cause : JsString)
  | resume (n : Nat)
  | stampWritten (n : Nat) (outcome : Except Failure Unit)
  | discover
  | discovered (n : Nat) (event : SocketEvent)
  | discoveryWritten (n : Nat) (outcome : Except Failure Unit)
  | setStampState (state : StampState K)

variable {K : Type u} {Payload : Type v} {Result : Type w}

def handshaken (outcome : Except MiotError HelloInfo) : Except Failure Int :=
  match outcome with
  | .ok info => .ok info.stamp
  | .error error => .error (.miot error)

def discovery (outcome : Except MiotError HelloInfo) : Except Failure DiscoverResult :=
  match outcome with
  | .ok info => .ok { deviceId := info.deviceId, stamp := info.stamp }
  | .error error => .error (.miot error)

def Reply.continuation : Reply → Continuation K Parsed
  | .heard stamp (.ok response) => .reply stamp (.ok response)
  | .heard stamp (.error error) => .reply stamp (.error (.miot error))
  | .failed error => .fail (.miot error)

def WireEvent.event (transport : MiotTransport) : WireEvent K Payload Result → Event K Payload Parsed Result
  | .runWithStamp method command => .runWithStamp method command.fn
  | .start n => .start n
  | .stampRead n stored => .advance n (.stampRead (.ok stored))
  | .handshake n event => .advance n (.handshaken (handshaken (transport.handshake event)))
  | .packet n method event => .advance n (Reply.continuation (transport.sendCommand method event))
  | .packetThrows n cause => .advance n (.fail (.other cause))
  | .resume n => .advance n .resume
  | .stampWritten n outcome => .advance n (.stampWritten outcome)
  | .discover => .discover
  | .discovered n event => .discovered n (discovery (transport.handshake event))
  | .discoveryWritten n outcome => .discoveryWritten n outcome
  | .setStampState state => .setStampState state

def Continuation.Wired {Response : Type x} : Continuation K Response → Prop
  | .stampRead (.error _) => False
  | .handshaken (.error failure) => ∃ error : MiotError, failure = .miot error ∧ error.stampRefreshed = false
  | .reply _ (.error failure) => failure.Unmarked
  | .fail failure => failure.Unmarked
  | _ => True

def Event.Wired {Response : Type x} : Event K Payload Response Result → Prop
  | .runWithStamp _ fn => ∀ deviceId, (fn deviceId).Unmarked
  | .advance _ continuation => continuation.Wired
  | _ => True

theorem handshake_unmarked {transport : MiotTransport} {event : SocketEvent} {error : MiotError}
    (h : transport.handshake event = .error error) : error.stampRefreshed = false := by
  cases event with
  | message msg =>
    simp only [MiotTransport.handshake] at h
    split at h
    · cases h
    · cases h
      rfl
  | timeout =>
    cases h
    rfl
  | error cause =>
    cases h
    rfl
  | sendFailed cause =>
    cases h
    rfl

theorem readBody_unmarked {method : MiotMethod} {json : Parsed} {error : MiotError}
    (h : readBody method json = .error error) : error.stampRefreshed = false := by
  rw [readBody] at h
  split at h
  · cases h
  · cases h
  · split at h
    · cases h
      rfl
    · cases h
      rfl

theorem sendCommand_wired (transport : MiotTransport) (method : MiotMethod) (event : SocketEvent) :
    (Reply.continuation (K := K) (transport.sendCommand method event)).Wired := by
  cases event with
  | message msg =>
    rw [MiotTransport.sendCommand]
    split
    · rfl
    · split
      · rfl
      · rfl
      · rfl
      · next packet _ _ json _ _ =>
        cases hbody : readBody method json with
        | ok response => trivial
        | error error => exact readBody_unmarked hbody
  | timeout => rfl
  | error cause => rfl
  | sendFailed cause => rfl

theorem wired_event (transport : MiotTransport) (e : WireEvent K Payload Result) : (e.event transport).Wired := by
  cases e with
  | runWithStamp method command => exact command.unmarked
  | handshake n event =>
    simp only [WireEvent.event, Event.Wired]
    cases hshake : transport.handshake event with
    | ok info => trivial
    | error error => exact ⟨error, rfl, handshake_unmarked hshake⟩
  | packet n method event => exact sendCommand_wired transport method event
  | _ => trivial

end Commands

end HomelabApps.MiotDevice
