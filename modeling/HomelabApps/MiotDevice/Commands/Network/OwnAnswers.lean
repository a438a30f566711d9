import Mathlib.Data.Rat.Floor
import HomelabApps.MiotDevice.Commands.Network.Exchanges
import HomelabApps.MiotDevice.MiotTransport.OutgoingPacket.RoundTrip

universe u

namespace HomelabApps.MiotDevice

open HomelabApps.Library.Datagrams
open HomelabApps.Library.Json
open HomelabApps.Library.Utf16

namespace Commands

variable {K : Type u} {transport : MiotTransport} {s t : Network K}

structure Network.Own (s : Network K) : Prop where
  apart : s.net.Apart
  own : ∀ x ∈ s.heard, x.2.packet = x.1

def Network.Ported (s : Network K) : Prop :=
  ∀ x ∈ s.heard, ∃ port, s.net.port x.1 = some port ∧ s.net.port x.2.packet = some port

variable [Field K] [LinearOrder K] [Library.Rounding K] [FloorRing K]

theorem ported_step {e : Moment K × NetworkEvent K} (h : s.Ported) (hstep : s.step transport e = some t) :
    t.Ported := by
  obtain ⟨m, event⟩ := e
  have hkeep : ∀ {u : Network K}, u.heard = s.heard →
      (∀ i port, s.net.port i = some port → u.net.port i = some port) → u.Ported := by
    intro u hheard hport x hx
    obtain ⟨port, hsocket, hpacket⟩ := h x (hheard ▸ hx)
    exact ⟨port, hport _ _ hsocket, hport _ _ hpacket⟩
  have hsettle : ∀ {event : Request → WireEvent K MiotRequestPayload CallResult} {k : Nat} {u : Network K},
      s.settle transport m k event = some u → u.heard = s.heard ∧ ∀ i, u.net.port i = s.net.port i := by
    intro event k u hsettle
    obtain ⟨socket, device, -, -, -, rfl⟩ := settle_cases hsettle
    exact ⟨rfl, fun i => port_close⟩
  have hclosed : ∀ {event : Request → WireEvent K MiotRequestPayload CallResult} {k : Nat},
      s.settle transport m k event = some t → t.Ported := by
    intro event k h
    obtain ⟨hheard, hport⟩ := hsettle h
    exact hkeep hheard fun i port hi => (hport i).trans hi
  cases event with
  | device event port =>
    simp only [Network.step] at hstep
    split at hstep
    · cases hstep
    next =>
      obtain ⟨device, -, hgo⟩ := Option.bind_eq_some_iff.mp hstep
      rw [Network.goOn] at hgo
      split at hgo
      next =>
        obtain rfl := Option.some.inj hgo
        exact hkeep rfl fun _ _ hi => hi
      next =>
        obtain ⟨-, heq⟩ := Option.ite_none_right_eq_some.mp hgo
        obtain rfl := Option.some.inj heq
        exact hkeep rfl fun _ _ hi => port_of_send hi
  | throws k cause =>
    simp only [Network.step] at hstep
    exact hclosed hstep
  | timeout k => exact hclosed hstep
  | error k cause => exact hclosed hstep
  | sendFailed k cause => exact hclosed hstep
  | hello k msg =>
    simp only [Network.step] at hstep
    split at hstep
    · cases hstep
    · exact hclosed hstep
  | answer k msg =>
    obtain ⟨net, hanswer, rfl⟩ := Option.map_eq_some_iff.mp hstep
    obtain ⟨-, heq⟩ := Option.ite_none_right_eq_some.mp hanswer
    obtain rfl := Option.some.inj heq
    exact hkeep rfl fun _ _ hi => hi
  | loseRequest k =>
    obtain rfl := Option.some.inj hstep
    exact hkeep rfl fun _ _ hi => hi
  | loseAnswer i =>
    obtain rfl := Option.some.inj hstep
    exact hkeep rfl fun _ _ hi => hi
  | deliver i k =>
    obtain ⟨⟨datagram, socket⟩, harrival, hdeliver⟩ := Option.bind_eq_some_iff.mp hstep
    obtain ⟨u, hu, rfl⟩ := Option.map_eq_some_iff.mp hdeliver
    obtain ⟨hheard, hport⟩ := hsettle hu
    obtain ⟨-, hsocket, -, hpacket⟩ := arrival_eq_some harrival
    intro x hx
    dsimp only at hx ⊢
    rw [hport, hport]
    rcases List.mem_cons.mp hx with rfl | hx
    · exact ⟨socket.port, by rw [Net.port, hsocket, Option.map_some], hpacket⟩
    · exact h x (hheard ▸ hx)

theorem own_step {e : Moment K × NetworkEvent K} (h : s.Own) (hquiet : s.QuietPorts transport e)
    (hstep : s.step transport e = some t) : t.Own := by
  obtain ⟨m, event⟩ := e
  have hclosed : ∀ {event : Request → WireEvent K MiotRequestPayload CallResult} {k : Nat} {u : Network K},
      s.settle transport m k event = some u → u.net.Apart ∧ u.heard = s.heard := by
    intro event k u hsettle
    obtain ⟨socket, device, -, -, -, rfl⟩ := settle_cases hsettle
    exact ⟨h.apart.close, rfl⟩
  have hsilent : ∀ {event : Request → WireEvent K MiotRequestPayload CallResult} {k : Nat},
      s.settle transport m k event = some t → t.Own := by
    intro event k hsettle
    obtain ⟨hapart, hheard⟩ := hclosed hsettle
    exact ⟨hapart, hheard ▸ h.own⟩
  cases event with
  | device event port =>
    simp only [Network.step] at hstep
    split at hstep
    · cases hstep
    next =>
      obtain ⟨device, hdevice, hgo⟩ := Option.bind_eq_some_iff.mp hstep
      rw [Network.goOn] at hgo
      split at hgo
      next =>
        obtain rfl := Option.some.inj hgo
        exact ⟨h.apart, h.own⟩
      next request hsent =>
        obtain ⟨hfree, heq⟩ := Option.ite_none_right_eq_some.mp hgo
        obtain rfl := Option.some.inj heq
        have hport : s.net.Quiet port := by
          refine hquiet.resolve_left fun hnone => ?_
          rw [hdevice, Option.all_some, hsent] at hnone
          cases hnone
        exact ⟨h.apart.send hfree hport, h.own⟩
  | throws k cause =>
    simp only [Network.step] at hstep
    exact hsilent hstep
  | timeout k => exact hsilent hstep
  | error k cause => exact hsilent hstep
  | sendFailed k cause => exact hsilent hstep
  | hello k msg =>
    simp only [Network.step] at hstep
    split at hstep
    · cases hstep
    · exact hsilent hstep
  | answer k msg =>
    obtain ⟨net, hanswer, rfl⟩ := Option.map_eq_some_iff.mp hstep
    exact ⟨h.apart.answer hanswer, h.own⟩
  | loseRequest k =>
    obtain rfl := Option.some.inj hstep
    exact ⟨h.apart.loseRequest, h.own⟩
  | loseAnswer i =>
    obtain rfl := Option.some.inj hstep
    exact ⟨h.apart.loseAnswer, h.own⟩
  | deliver i k =>
    obtain ⟨⟨datagram, socket⟩, harrival, hdeliver⟩ := Option.bind_eq_some_iff.mp hstep
    obtain ⟨u, hu, rfl⟩ := Option.map_eq_some_iff.mp hdeliver
    obtain ⟨hapart, hheard⟩ := hclosed hu
    refine ⟨hapart, fun x hx => ?_⟩
    rcases List.mem_cons.mp hx with rfl | hx
    · exact h.apart.arrival harrival
    · exact h.own x (hheard ▸ hx)

theorem settled_by_own_answers (transport : MiotTransport) {deviceId : Option Nat} {stampStore : Bool}
    {events : List (Moment K × NetworkEvent K)}
    (hrun : Library.Transition.run (Network.step transport)
      { device := { deviceId := deviceId, stampStore := stampStore } } events = some s) :
    (∀ x ∈ s.heard, ∃ port, s.net.port x.1 = some port ∧ s.net.port x.2.packet = some port) ∧
      (Library.Transition.Along (Network.step transport) (Network.QuietPorts transport)
          { device := { deviceId := deviceId, stampStore := stampStore } } events →
        (∀ x ∈ s.heard, x.2.packet = x.1) ∧
        ∀ (n : Nat) command, s.device.commands[n]? = some command →
          (∀ result, command.stage = .settled (.ok result) →
            ∃ deviceId, s.Earned transport n (command.fn deviceId) (.ok result)) ∧
          ∀ failure, command.stage = .settled (.error failure) → failure.Refusal →
            ∃ deviceId retried cause, failure = freshFailure retried command.method deviceId cause ∧
              cause.Refusal ∧ s.Earned transport n (command.fn deviceId) (.error cause)) := by
  set start : Network K := { device := { deviceId := deviceId, stampStore := stampStore } } with hstart
  have hsound : start.Sound transport := by
    constructor
    · rintro n command ⟨⟩
    · rintro k socket ⟨⟩
  have hported : start.Ported := by
    rintro x ⟨⟩
  have hown : start.Own := by
    refine ⟨⟨?_, ?_⟩, by rintro x ⟨⟩⟩
    · rintro k (⟨⟨⟩⟩ | ⟨datagram, ⟨⟩, -⟩)
    · rintro k socket ⟨⟩
  refine ⟨Library.Transition.invariant (fun _ _ _ h hstep => ported_step h hstep) hported hrun, fun hquiet => ?_⟩
  have hend := (Library.Transition.always_of_along (fun _ _ _ h hq hstep => own_step h hq hstep) hown hquiet).last hrun
  refine ⟨hend.own, fun n command hcommand => ?_⟩
  have hexplains := (Library.Transition.invariant (fun _ _ _ h hstep => network_sound_step h hstep) hsound
    hrun).explains n command hcommand
  constructor
  · intro result hstage
    rw [hstage] at hexplains
    exact hexplains
  · intro failure hstage
    rw [hstage] at hexplains
    exact hexplains

section Sample

def capturedEncrypted : Bytes :=
  [0x4A, 0x0C, 0xF9, 0x72, 0x98, 0x14, 0xB7, 0xE6, 0xED, 0x0B, 0x51, 0x78, 0x56, 0x97, 0x67, 0xF4,
   0x97, 0x58, 0xA6, 0x25, 0x84, 0x42, 0xE1, 0x3A, 0xCF, 0xDD, 0xA1, 0x26, 0x39, 0x98, 0xC1, 0x1F,
   0x62, 0x89, 0xB4, 0xA6, 0x72, 0x69, 0x3F, 0x4C, 0xCA, 0xDD, 0x6E, 0x0D, 0x90, 0xAF, 0x7D, 0xB1,
   0x7F, 0xF6, 0x0C, 0xBD, 0x01, 0x2D, 0x98, 0xE5, 0x86, 0x7F, 0xE5, 0xA3, 0xFE, 0xDF, 0xB9, 0x52,
   0xCD, 0xBE, 0x70, 0xF6, 0x95, 0xB2, 0xE8, 0xE1, 0x8F, 0xA0, 0xB7, 0x03, 0x98, 0xFE, 0xD5, 0xB7,
   0xC4, 0x50, 0x33, 0xA5, 0xD6, 0xA1, 0x02, 0xE6, 0x5F, 0x2B, 0x2D, 0xDA, 0xCD, 0x58, 0x62, 0xB6]

def capturedDigest : Bytes :=
  [0x59, 0x47, 0xAB, 0xB4, 0x7B, 0x05, 0xCF, 0x55, 0x7C, 0x9C, 0x9A, 0x52, 0xFF, 0x72, 0xF5, 0xAF]

def capturedHeader : Bytes :=
  [0x21, 0x31, 0x00, 0x80, 0x00, 0x00, 0x00, 0x00, 0x00, 0x00, 0x04, 0xD2, 0x00, 0x00, 0xCC, 0xED]

def capturedAnswer : Bytes := capturedHeader ++ capturedDigest ++ capturedEncrypted

def capturedPlaintext : Bytes :=
  (utf16 ("\x7b\"id\":1700000000,\"result\":[\x7b\"did\":\"1234\",\"siid\":2,\"piid\":1," ++
    "\"value\":26,\"code\":0\x7d]\x7d")).map UInt16.toUInt8

def capturedRuntime : Runtime where
  md5 data :=
    if data = sampleToken then sampleKey
    else if data = sampleKey ++ sampleToken then sampleIV
    else if data = capturedHeader ++ sampleToken ++ capturedEncrypted then capturedDigest
    else List.replicate 16 0
  decipher key iv data :=
    if key = sampleKey ∧ iv = sampleIV ∧ data = capturedEncrypted then .ok capturedPlaintext
    else .error (utf16 "bad decrypt")
  decode data := data.map UInt8.toUInt16
  syntaxError _ := utf16 "Unexpected token"

def capturedTransport : MiotTransport where
  runtime := capturedRuntime
  address := utf16 "192.168.1.20:54321"
  token := sampleToken

def capturedHello : Bytes :=
  [0x21, 0x31, 0x00, 0x20, 0x00, 0x00, 0x00, 0x00, 0x00, 0x00, 0x04, 0xD2, 0x00, 0x00, 0xCC, 0xEC] ++
    List.replicate 16 0xFF

def answeredEvents : List (Moment Rat × NetworkEvent Rat) :=
  [(⟨0, 0⟩, .device (.runWithStamp .getProperties (Call.getProperty 2 1).commandFn) 0),
    (⟨0, 0⟩, .device (.start 0) 0), (⟨10, 10⟩, .device (.handshake 0 (.message capturedHello)) 40000),
    (⟨20, 20⟩, .answer 0 capturedAnswer), (⟨30, 30⟩, .deliver 0 0), (⟨30, 30⟩, .device (.resume 0) 0),
    (⟨30, 30⟩, .device (.resume 0) 0)]

def Stage.number? : Stage Rat MiotRequestPayload Parsed CallResult → Option JsString
  | .settled (.ok (.value (some (.number token)))) => some token
  | _ => none

theorem settled_by_own_answers_read : ∃ s : Network Rat, ∃ command deviceId result,
    s.device.commands[0]? = some command ∧ command.stage.number? = some (utf16 "26") ∧
      s.Earned capturedTransport 0 (command.fn deviceId) (.ok result) ∧
      s.heard.map (·.1) = [0] ∧ ∀ x ∈ s.heard, x.2.packet = x.1 := by
  have hresult : ((Library.Transition.run (Network.step capturedTransport) { device := { deviceId := some 1234 } }
      answeredEvents).bind fun s => s.device.commands[0]?.map fun command =>
        (command.stage.number?, s.heard.map (·.1))) = some (some (utf16 "26"), [0]) := by
    decide +kernel
  have hquiet : Library.Transition.Along (Network.step capturedTransport) (Network.QuietPorts capturedTransport)
      { device := { deviceId := some 1234 } } answeredEvents := by
    decide +kernel
  obtain ⟨s, hs, hmap⟩ := Option.bind_eq_some_iff.mp hresult
  obtain ⟨command, hcommand, heq⟩ := Option.map_eq_some_iff.mp hmap
  obtain ⟨hnumber, hheard⟩ := Prod.mk.inj heq
  obtain ⟨hown, hsettled⟩ := (settled_by_own_answers capturedTransport hs).2 hquiet
  have hstage : ∃ result, command.stage = .settled (.ok result) := by
    cases hstage : command.stage with
    | settled outcome =>
      rw [hstage] at hnumber
      cases outcome with
      | ok result => exact ⟨result, rfl⟩
      | error failure => cases hnumber
    | _ =>
      rw [hstage] at hnumber
      cases hnumber
  obtain ⟨result, hstage⟩ := hstage
  obtain ⟨deviceId, hearned⟩ := (hsettled 0 command hcommand).1 result hstage
  exact ⟨s, command, deviceId, result, hcommand, hnumber, hearned, hheard, hown⟩

def lateEvents : List (Moment Rat × NetworkEvent Rat) :=
  [(⟨0, 0⟩, .device (.runWithStamp .getProperties (Call.getProperty 2 1).commandFn) 0),
    (⟨0, 0⟩, .device (.start 0) 0), (⟨10, 10⟩, .device (.handshake 0 (.message capturedHello)) 40000),
    (⟨9000, 9000⟩, .answer 0 capturedAnswer), (⟨10010, 10010⟩, .timeout 0), (⟨10010, 10010⟩, .device (.resume 0) 0),
    (⟨10020, 10020⟩, .device (.runWithStamp .setProperties (Call.setProperty 2 1 (.number [0x35])).commandFn) 0),
    (⟨10020, 10020⟩, .device (.start 1) 40000), (⟨10030, 10030⟩, .deliver 0 1),
    (⟨10030, 10030⟩, .device (.resume 1) 0), (⟨10030, 10030⟩, .device (.resume 1) 0)]

def Stage.isDone : Stage Rat MiotRequestPayload Parsed CallResult → Bool
  | .settled (.ok .done) => true
  | _ => false

theorem set_done_by_read : ¬ ∀ (events : List (Moment Rat × NetworkEvent Rat)) (s : Network Rat),
    Library.Transition.run (Network.step capturedTransport) { device := { deviceId := some 1234 } } events = some s →
      ∀ (n : Nat) command, s.device.commands[n]? = some command → command.stage.isDone = true →
        ∀ x ∈ s.heard, x.1 ∈ s.packetsOf n → x.2.packet = x.1 := by
  intro hclaim
  have hresult : ((Library.Transition.run (Network.step capturedTransport) { device := { deviceId := some 1234 } }
      lateEvents).map fun s => (s.device.commands[1]?.any (·.stage.isDone), s.heard.map (fun x => (x.1, x.2.packet)),
        s.packetsOf 1)) = some (true, [(1, 0)], [1]) := by
    decide +kernel
  obtain ⟨s, hs, hmap⟩ := Option.map_eq_some_iff.mp hresult
  obtain ⟨hdone, hrest⟩ := Prod.mk.inj hmap
  obtain ⟨hheard, hpackets⟩ := Prod.mk.inj hrest
  obtain ⟨command, hcommand, hdone⟩ := (Option.any_eq_true _ _).mp hdone
  obtain ⟨x, hx, heq⟩ := List.map_eq_singleton_iff.mp hheard
  obtain ⟨hsocket, hpacket⟩ := Prod.mk.inj heq
  have hown := hclaim lateEvents s hs 1 command hcommand hdone x (by rw [hx]; exact List.mem_singleton_self x)
    (by rw [hpackets, hsocket]; exact List.mem_singleton_self 1)
  rw [hsocket, hpacket] at hown
  cases hown

end Sample

end Commands

end HomelabApps.MiotDevice
