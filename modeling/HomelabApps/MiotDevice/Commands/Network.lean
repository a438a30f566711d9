import HomelabApps.Library.Datagrams
import HomelabApps.MiotDevice.Commands.Wire

/-! A device behind a network: each packet of a command leaves from a socket of its own, and the first
datagram that arrives there ends the wait for its answer. -/

universe u

namespace HomelabApps.MiotDevice.Commands

open HomelabApps.Library.Datagrams
open HomelabApps.Library.Json
open HomelabApps.Library.Utf16

structure Request where
  command : Nat
  payload : MiotRequestPayload

def Entry.request? : Entry MiotRequestPayload → Option Request
  | .next n _ payload (some _) => some ⟨n, payload⟩
  | _ => none

/-- `heard` tells of each datagram that a socket was closed by, with the socket. -/
structure Network (K : Type u) where
  device : Device K MiotRequestPayload Parsed CallResult
  net : Net Request Bytes := {}
  heard : List (Nat × Datagram Bytes) := []

/-- The port is the one that the system gives a socket opened by what happens. -/
inductive NetworkEvent (K : Type u)
  | device (event : WireEvent K MiotRequestPayload CallResult) (port : Nat)
  | throws (k : Nat) (cause : JsString)
  | timeout (k : Nat)
  | error (k : Nat) (cause : JsString)
  | sendFailed (k : Nat) (cause : JsString)
  | hello (k : Nat) (msg : Bytes)
  | answer (k : Nat) (msg : Bytes)
  | loseRequest (k : Nat)
  | loseAnswer (i : Nat)
  | deliver (i k : Nat)

variable {K : Type u}

def WireEvent.ofSocket : WireEvent K MiotRequestPayload CallResult → Bool
  | .packet _ _ _ => true
  | .packetThrows _ _ => true
  | _ => false

def Device.sent (s t : Device K MiotRequestPayload Parsed CallResult) : Option Request :=
  ((t.log.drop s.log.length).filterMap Entry.request?).head?

def Network.goOn (s : Network K) (device : Device K MiotRequestPayload Parsed CallResult) (port : Nat) :
    Option (Network K) :=
  match s.device.sent device with
  | none => some { s with device := device }
  | some request =>
    if s.net.free port then some { s with device := device, net := s.net.send port request } else none

variable [Field K] [LinearOrder K] [Library.Rounding K] [FloorRing K]

def Network.settle (transport : MiotTransport) (s : Network K) (m : Moment K) (k : Nat)
    (event : Request → WireEvent K MiotRequestPayload CallResult) : Option (Network K) :=
  match s.net.sockets[k]? with
  | none => none
  | some socket =>
    if socket.isOpen then
      (s.device.step (m, (event socket.request).event transport)).map fun device =>
        { s with device := device, net := s.net.close k }
    else none

def Request.reports (event : SocketEvent) (request : Request) : WireEvent K MiotRequestPayload CallResult :=
  .packet request.command request.payload.method event

/-- The answer to a hello carries no body. -/
def Network.step (transport : MiotTransport) (s : Network K) : Moment K × NetworkEvent K → Option (Network K)
  | (m, .device event port) =>
    if event.ofSocket then none
    else (s.device.step (m, event.event transport)).bind fun device => s.goOn device port
  | (m, .throws k cause) => s.settle transport m k fun request => .packetThrows request.command cause
  | (m, .timeout k) => s.settle transport m k (Request.reports .timeout)
  | (m, .error k cause) => s.settle transport m k (Request.reports (.error cause))
  | (m, .sendFailed k cause) => s.settle transport m k (Request.reports (.sendFailed cause))
  | (m, .hello k msg) =>
    if HEADER_SIZE < msg.length then none else s.settle transport m k (Request.reports (.message msg))
  | (_, .answer k msg) => (s.net.answer k msg).map fun net => { s with net := net }
  | (_, .loseRequest k) => some { s with net := s.net.loseRequest k }
  | (_, .loseAnswer i) => some { s with net := s.net.loseAnswer i }
  | (m, .deliver i k) =>
    (s.net.arrival i k).bind fun arrival =>
      (s.settle transport m k (Request.reports (.message arrival.1.msg))).map fun t =>
        { t with heard := (k, arrival.1) :: t.heard }

def Network.QuietPorts (transport : MiotTransport) (s : Network K) : Moment K × NetworkEvent K → Prop
  | (m, .device event port) =>
    (s.device.step (m, event.event transport)).all (fun device => (s.device.sent device).isNone) = true ∨
      s.net.Quiet port
  | _ => True

instance (transport : MiotTransport) (s : Network K) :
    (e : Moment K × NetworkEvent K) → Decidable (s.QuietPorts transport e)
  | (_, .device _ _) => inferInstanceAs (Decidable (_ ∨ _))
  | (_, .throws _ _) => .isTrue trivial
  | (_, .timeout _) => .isTrue trivial
  | (_, .error _ _) => .isTrue trivial
  | (_, .sendFailed _ _) => .isTrue trivial
  | (_, .hello _ _) => .isTrue trivial
  | (_, .answer _ _) => .isTrue trivial
  | (_, .loseRequest _) => .isTrue trivial
  | (_, .loseAnswer _) => .isTrue trivial
  | (_, .deliver _ _) => .isTrue trivial

end HomelabApps.MiotDevice.Commands
