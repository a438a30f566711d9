import HomelabApps.MiotDevice.Commands.Network

universe u

namespace HomelabApps.MiotDevice

open HomelabApps.Library.Json
open HomelabApps.Library.Utf16

def Failure.Refusal (failure : Failure) : Prop := ∃ error, failure = .miot error ∧ error.kind = .deviceError

namespace Commands

variable {K : Type u}

inductive Sent (n deviceId : Nat) (run : Run) :
    Sending MiotRequestPayload Parsed CallResult → Stage K MiotRequestPayload Parsed CallResult → Option Request → Prop
  | resolve {result} : Sent n deviceId run (.resolve result) (.returned deviceId run (.ok result)) none
  | reject {failure} : Sent n deviceId run (.reject failure) (.returned deviceId run (.error failure)) none
  | unsynced {payload next message} : Sent n deviceId run (.sendCommand payload next)
      (.returned deviceId run (.error (.other message))) none
  | sent {payload next} : Sent n deviceId run (.sendCommand payload next) (.sending deviceId run next none)
      (some ⟨n, payload⟩)

def Stage.waits : Stage K MiotRequestPayload Parsed CallResult → Bool
  | .sending _ _ _ none => true
  | _ => false

inductive Forward (n : Nat) (method : MiotMethod) (fn : Nat → Sending MiotRequestPayload Parsed CallResult) :
    Stage K MiotRequestPayload Parsed CallResult → Stage K MiotRequestPayload Parsed CallResult →
      Option Request → Prop
  | asks {before deviceId} : before.waits = false → Forward n method fn before (.getStamp deviceId) none
  | greets {before deviceId retried} : before.waits = false →
      Forward n method fn before (.handshake deviceId retried) none
  | gives {before failure} : before.waits = false → ¬ failure.Refusal →
      Forward n method fn before (.settled (.error failure)) none
  | begins {before after deviceId run request} : before.waits = false → Sent n deviceId run (fn deviceId) after request →
      Forward n method fn before after request
  | resumes {after deviceId run next response request} : Sent n deviceId run (next response) after request →
      Forward n method fn (.sending deviceId run next (some response)) after request
  | persists {deviceId run result state} :
      Forward n method fn (.returned deviceId run (.ok result)) (.persisting state result) none
  | succeeds {deviceId run result} :
      Forward n method fn (.returned deviceId run (.ok result)) (.settled (.ok result)) none
  | fails {deviceId retried failure} : Forward n method fn (.returned deviceId (.fresh retried) (.error failure))
      (.settled (.error (freshFailure retried method deviceId failure))) none
  | written {state result} : Forward n method fn (.persisting state result) (.settled (.ok result)) none

structure Comes (s t : Device K MiotRequestPayload Parsed CallResult) (n : Nat)
    (after : Stage K MiotRequestPayload Parsed CallResult) (request : Option Request) : Prop where
  commands : t.commands = (s.put n after).commands
  log : ∃ entries, t.log = s.log ++ entries ∧ entries.filterMap Entry.request? = request.toList

variable {s t u : Device K MiotRequestPayload Parsed CallResult} {n deviceId : Nat} {run : Run}
  {after : Stage K MiotRequestPayload Parsed CallResult} {request : Option Request}

theorem comes_put : Comes s (s.put n after) n after none := ⟨rfl, [], (List.append_nil _).symm, rfl⟩

theorem Comes.sent (h : Comes s t n after request) : s.sent t = request := by
  obtain ⟨entries, hlog, hentries⟩ := h.log
  rw [Device.sent, hlog, List.drop_left, hentries]
  cases request with
  | none => rfl
  | some request => rfl

theorem Comes.since (h : Comes s t n after request) (hcommands : s.commands = u.commands)
    (hlog : ∃ entries, s.log = u.log ++ entries ∧ entries.filterMap Entry.request? = []) :
    Comes u t n after request := by
  obtain ⟨later, hlater, hrequest⟩ := h.log
  obtain ⟨entries, hentries, hnone⟩ := hlog
  refine ⟨?_, entries ++ later, by rw [hlater, hentries, List.append_assoc], ?_⟩
  · rw [h.commands, Device.put, Device.put, hcommands]
  · rw [List.filterMap_append, hnone, List.nil_append, hrequest]

variable {method : MiotMethod} {fn : Nat → Sending MiotRequestPayload Parsed CallResult}
  {before : Stage K MiotRequestPayload Parsed CallResult}

theorem comes_finish (outcome : Except Failure CallResult) : ∃ after,
    Comes s (s.finish n method deviceId run outcome) n after none ∧
      Forward n method fn (.returned deviceId run outcome) after none := by
  cases outcome with
  | ok result =>
    rw [Device.finish]
    cases s.toPersist with
    | none => exact ⟨_, comes_put, .succeeds⟩
    | some state => exact ⟨_, comes_put, .persists⟩
  | error failure =>
    cases run with
    | cached => exact ⟨_, ⟨rfl, [.reset], rfl, rfl⟩, .greets rfl⟩
    | fresh retried => exact ⟨_, comes_put, .fails⟩

variable [Field K] [LinearOrder K] [Library.Rounding K] [FloorRing K] {m : Moment K}

theorem forward_send {sending : Sending MiotRequestPayload Parsed CallResult}
    (h : ∀ after request, Sent n deviceId run sending after request → Forward n method fn before after request) :
    ∃ after request, Comes s (s.send m n deviceId run sending) n after request ∧
      Forward n method fn before after request := by
  cases sending with
  | resolve result => exact ⟨_, _, comes_put, h _ _ .resolve⟩
  | reject failure => exact ⟨_, _, comes_put, h _ _ .reject⟩
  | sendCommand payload next =>
    unfold Device.send
    dsimp only
    split
    next hstamp =>
      exact ⟨_, _, ⟨rfl, [.next n deviceId payload none], by rw [hstamp]; rfl, rfl⟩, h _ _ .unsynced⟩
    next stamp hstamp =>
      exact ⟨_, _, ⟨rfl, [.next n deviceId payload (some stamp)], by rw [hstamp]; rfl, rfl⟩, h _ _ .sent⟩

theorem comes_proceed (hbefore : before.waits = false) : ∃ after request, Comes s (s.proceed m n deviceId fn) n after request ∧
    Forward n method fn before after request := by
  rw [Device.proceed]
  split
  · exact forward_send fun _ _ hsent => .begins hbefore hsent
  · exact ⟨_, _, comes_put, .greets hbefore⟩

theorem not_refusal_other {message : JsString} : ¬ (Failure.other message).Refusal := by
  rintro ⟨error, h, -⟩
  cases h

theorem comes_runWithStampExclusive (hbefore : before.waits = false) :
    ∃ after request, Comes s (s.runWithStampExclusive m n fn) n after request ∧
    Forward n method fn before after request := by
  rw [Device.runWithStampExclusive]
  split
  · exact ⟨_, _, comes_put, .gives hbefore not_refusal_other⟩
  · split
    · exact ⟨_, _, comes_put, .asks hbefore⟩
    · exact comes_proceed hbefore

omit [Field K] [LinearOrder K] [Library.Rounding K] [FloorRing K] in
theorem forward_since (h : ∃ after request, Comes s t n after request ∧ Forward n method fn before after request)
    (hcommands : s.commands = u.commands)
    (hlog : ∃ entries, s.log = u.log ++ entries ∧ entries.filterMap Entry.request? = []) :
    ∃ after request, Comes u t n after request ∧ Forward n method fn before after request := by
  obtain ⟨after, request, hcomes, hforward⟩ := h
  exact ⟨after, request, hcomes.since hcommands hlog, hforward⟩

omit [FloorRing K] in
theorem log_of_restore (source : Source) (state : StampState K) :
    ∃ entries, (s.restore m source state).log = s.log ++ entries ∧ entries.filterMap Entry.request? = [] := by
  rw [Device.restore]
  dsimp only
  split
  · exact ⟨[], (List.append_nil _).symm, rfl⟩
  · exact ⟨[.supplied source], rfl, rfl⟩

theorem handshake_not_refusal {transport : MiotTransport} {event : SocketEvent} {error : MiotError}
    (h : transport.handshake event = .error error) : error.kind ≠ .deviceError := by
  cases event with
  | message msg =>
    simp only [MiotTransport.handshake] at h
    split at h
    · cases h
    · cases h
      rintro ⟨⟩
  | timeout =>
    cases h
    rintro ⟨⟩
  | error cause =>
    cases h
    rintro ⟨⟩
  | sendFailed cause =>
    cases h
    rintro ⟨⟩

theorem forward_advance (transport : MiotTransport) {command : Command K MiotRequestPayload Parsed CallResult}
    {event : WireEvent K MiotRequestPayload CallResult} {continuation : Continuation K Parsed}
    (hsocket : event.ofSocket = false) (hevent : event.event transport = .advance n continuation)
    (h : s.advance m n command continuation = some t) : ∃ after request, Comes s t n after request ∧
      Forward n command.method command.fn command.stage after request := by
  cases event with
  | stampRead n stored =>
    cases hevent
    simp only [Device.advance] at h
    split at h
    next heq => cases heq
    next hstage _ =>
      cases h
      rw [hstage]
      exact comes_proceed rfl
    next hstage _ =>
      cases h
      rw [hstage]
      exact forward_since (comes_proceed rfl) rfl (log_of_restore _ _)
    next => cases h
  | handshake n event =>
    cases hevent
    simp only [Device.advance] at h
    split at h
    next hstage heq =>
      cases h
      refine ⟨_, _, comes_put, .gives (by rw [hstage]; rfl) ?_⟩
      rintro ⟨error, rfl, hkind⟩
      cases houtcome : transport.handshake event with
      | ok info =>
        rw [houtcome] at heq
        cases heq
      | error cause =>
        rw [houtcome] at heq
        cases heq
        exact handshake_not_refusal houtcome hkind
    next hstage heq =>
      cases h
      exact forward_since (forward_send fun _ _ hsent => .begins (by rw [hstage]; rfl) hsent) rfl
          ⟨[.supplied .handshake], rfl, rfl⟩
    next => cases h
  | resume n =>
    cases hevent
    simp only [Device.advance] at h
    split at h
    next hstage =>
      cases h
      rw [hstage]
      exact forward_send fun _ _ hsent => .resumes hsent
    next hstage =>
      cases h
      rw [hstage]
      obtain ⟨after, hcomes, hforward⟩ := comes_finish _
      exact ⟨after, none, hcomes, hforward⟩
    next => cases h
  | stampWritten n outcome =>
    cases hevent
    simp only [Device.advance] at h
    split at h
    next hstage =>
      cases h
      rw [hstage]
      exact ⟨_, _, comes_put, .written⟩
    next => cases h
  | packet n method event => cases hsocket
  | packetThrows n cause => cases hsocket
  | _ => cases hevent

theorem step_forward {transport : MiotTransport} {event : WireEvent K MiotRequestPayload CallResult}
    (hsocket : event.ofSocket = false) (h : s.step (m, event.event transport) = some t) :
    (∃ more, t.commands = s.commands ++ more ∧ (∀ command ∈ more, command.stage = .queued) ∧
      s.sent t = none) ∨
    ∃ n command after request, s.commands[n]? = some command ∧ Comes s t n after request ∧
      Forward n command.method command.fn command.stage after request := by
  have hkept : ∀ entries : List (Entry MiotRequestPayload), t.commands = s.commands →
      t.log = s.log ++ entries → entries.filterMap Entry.request? = [] →
      ∃ more, t.commands = s.commands ++ more ∧ (∀ command ∈ more, command.stage = .queued) ∧
        s.sent t = none := by
    intro entries hcommands hlog hentries
    refine ⟨[], by rw [hcommands, List.append_nil], by simp, ?_⟩
    rw [Device.sent, hlog, List.drop_left, hentries]
    rfl
  have hadvance : ∀ n continuation, event.event transport = .advance n continuation →
      ∃ n command after request, s.commands[n]? = some command ∧ Comes s t n after request ∧
        Forward n command.method command.fn command.stage after request := by
    intro n continuation hevent
    rw [hevent] at h
    obtain ⟨command, hcommand, hadvance⟩ := Option.bind_eq_some_iff.mp h
    obtain ⟨after, request, hforward⟩ := forward_advance transport hsocket hevent hadvance
    exact ⟨n, command, after, request, hcommand, hforward⟩
  cases event with
  | runWithStamp method command =>
    obtain rfl := Option.some.inj h
    refine .inl ⟨[⟨method, command.fn, s.queue, .queued⟩], rfl, ?_, ?_⟩
    · intro command hcommand
      rw [List.mem_singleton.mp hcommand]
    · rw [Device.sent, List.drop_length]
      rfl
  | start n =>
    obtain ⟨command, hcommand, hstart⟩ := Option.bind_eq_some_iff.mp h
    obtain ⟨hfree, heq⟩ := Option.ite_none_right_eq_some.mp hstart
    obtain rfl := Option.some.inj heq
    have hqueued : command.stage.waits = false := by
      rw [Bool.and_eq_true] at hfree
      cases hstage : command.stage with
      | queued => rfl
      | _ =>
        rw [hstage] at hfree
        cases hfree.1
    obtain ⟨after, request, hcomes, hforward⟩ := @comes_runWithStampExclusive K s n command.method command.fn
      command.stage _ _ _ _ m hqueued
    exact .inr ⟨n, command, after, request, hcommand, hcomes, hforward⟩
  | stampRead n stored => exact .inr (hadvance n _ rfl)
  | handshake n event => exact .inr (hadvance n _ rfl)
  | resume n => exact .inr (hadvance n _ rfl)
  | stampWritten n outcome => exact .inr (hadvance n _ rfl)
  | discover =>
    obtain rfl := Option.some.inj h
    exact .inl (hkept [] rfl (List.append_nil _).symm rfl)
  | discovered n event =>
    simp only [WireEvent.event, Device.step] at h
    split at h
    next =>
      obtain rfl := Option.some.inj h
      refine .inl (hkept [.supplied .handshake] ?_ ?_ rfl)
      · unfold Device.discovered
        dsimp only
        split
        · rfl
        · rfl
      · unfold Device.discovered
        dsimp only
        split
        · rfl
        · rfl
    next =>
      obtain rfl := Option.some.inj h
      exact .inl (hkept [] rfl (List.append_nil _).symm rfl)
    next => cases h
  | discoveryWritten n outcome =>
    simp only [WireEvent.event, Device.step] at h
    split at h
    next =>
      obtain rfl := Option.some.inj h
      exact .inl (hkept [] rfl (List.append_nil _).symm rfl)
    next => cases h
  | setStampState state =>
    obtain rfl := Option.some.inj h
    obtain ⟨entries, hlog, hentries⟩ := @log_of_restore K s _ _ _ m .setStampState state
    exact .inl (hkept entries rfl hlog hentries)
  | packet n method event => cases hsocket
  | packetThrows n cause => cases hsocket

inductive Closed (reply : Reply) (deviceId : Nat) (run : Run) (next : Parsed → Sending MiotRequestPayload Parsed CallResult) :
    Stage K MiotRequestPayload Parsed CallResult → Prop
  | heard {stamp response} : reply = .heard stamp (.ok response) →
      Closed reply deviceId run next (.sending deviceId run next (some response))
  | refused {stamp error} : reply = .heard stamp (.error error) →
      Closed reply deviceId run next (.returned deviceId run (.error (.miot error)))
  | failed {failure} : ¬ failure.Refusal → Closed reply deviceId run next (.returned deviceId run (.error failure))

omit [Field K] [LinearOrder K] [Library.Rounding K] [FloorRing K] in
theorem transportError_not_refusal {method : MiotMethod} {cause : JsString} :
    ¬ (Failure.miot (transportError method cause)).Refusal := by
  rintro ⟨error, heq, hkind⟩
  cases heq
  cases hkind

omit [Field K] [LinearOrder K] [Library.Rounding K] [FloorRing K] in
theorem failed_not_refusal {transport : MiotTransport} {method : MiotMethod} {event : SocketEvent} {error : MiotError}
    (h : transport.sendCommand method event = .failed error) : ¬ (Failure.miot error).Refusal := by
  cases event with
  | message msg =>
    rw [MiotTransport.sendCommand] at h
    split at h
    · cases h
      exact transportError_not_refusal
    · split at h
      · cases h
        exact transportError_not_refusal
      · cases h
        exact transportError_not_refusal
      · cases h
        exact transportError_not_refusal
      · cases h
  | timeout =>
    cases h
    rintro ⟨error, heq, hkind⟩
    cases heq
    cases hkind
  | error cause =>
    cases h
    exact transportError_not_refusal
  | sendFailed cause =>
    cases h
    exact transportError_not_refusal

omit [Field K] [LinearOrder K] [Library.Rounding K] [FloorRing K] in
theorem body_of_heard {transport : MiotTransport} {method : MiotMethod} {event : SocketEvent} {stamp : Int}
    {answer : Except MiotError Parsed} (h : transport.sendCommand method event = .heard stamp answer) :
    ∃ msg, event = .message msg ∧ HEADER_SIZE < msg.length := by
  cases event with
  | message msg =>
    refine ⟨msg, rfl, Nat.lt_of_not_le fun hle => ?_⟩
    have hbody : msg.drop HEADER_SIZE = [] := List.drop_of_length_le hle
    rw [MiotTransport.sendCommand] at h
    split at h
    · cases h
    next packet hparse =>
      rw [parseAndDecrypt] at hparse
      split at hparse
      · cases hparse
      split at hparse
      · cases hparse
      dsimp only at hparse
      rw [if_pos hbody] at hparse
      cases hparse
      cases h
  | timeout => cases h
  | error cause => cases h
  | sendFailed cause => cases h

theorem step_reports {transport : MiotTransport} {request : Request} {event : SocketEvent}
    (h : s.step (m, (request.reports event).event transport) = some t) :
    ∃ command deviceId run next after, s.commands[request.command]? = some command ∧
      command.stage = .sending deviceId run next none ∧ t.commands = (s.put request.command after).commands ∧
      Closed (transport.sendCommand request.payload.method event) deviceId run next after := by
  obtain ⟨command, hcommand, hadvance⟩ := Option.bind_eq_some_iff.mp h
  cases hreply : transport.sendCommand request.payload.method event with
  | heard stamp answer =>
    rw [hreply] at hadvance
    cases answer with
    | ok response =>
      simp only [Reply.continuation, Device.advance] at hadvance
      split at hadvance
      next deviceId run next hstage =>
        cases hadvance
        exact ⟨command, deviceId, run, next, _, hcommand, hstage, rfl, .heard rfl⟩
      · cases hadvance
    | error error =>
      simp only [Reply.continuation, Device.advance] at hadvance
      split at hadvance
      next deviceId run next hstage =>
        cases hadvance
        exact ⟨command, deviceId, run, next, _, hcommand, hstage, rfl, .refused rfl⟩
      · cases hadvance
  | failed error =>
    rw [hreply] at hadvance
    simp only [Reply.continuation, Device.advance] at hadvance
    split at hadvance
    next deviceId run next hstage =>
      cases hadvance
      exact ⟨command, deviceId, run, next, _, hcommand, hstage, rfl, .failed (failed_not_refusal hreply)⟩
    · cases hadvance

theorem step_throws {transport : MiotTransport} {request : Request} {cause : JsString}
    (h : s.step (m, (WireEvent.packetThrows request.command cause).event transport) = some t) :
    ∃ command deviceId run next, s.commands[request.command]? = some command ∧
      command.stage = .sending deviceId run next none ∧
      t.commands = (s.put request.command (.returned deviceId run (.error (.other cause)))).commands := by
  obtain ⟨command, hcommand, hadvance⟩ := Option.bind_eq_some_iff.mp h
  simp only [Device.advance] at hadvance
  split at hadvance
  next deviceId run next hstage =>
    cases hadvance
    exact ⟨command, deviceId, run, next, hcommand, hstage, rfl⟩
  · cases hadvance

end Commands

end HomelabApps.MiotDevice
