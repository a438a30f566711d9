import HomelabApps.Library.Transition
import HomelabApps.MiotDevice.Commands.Network.Steps

universe u

namespace HomelabApps.MiotDevice

open HomelabApps.Library.Datagrams
open HomelabApps.Library.Json
open HomelabApps.Library.Utf16

namespace Commands

variable {K : Type u}

def Network.packetsOf (s : Network K) (n : Nat) : List Nat :=
  (List.range s.net.sockets.length).filter fun k =>
    s.net.sockets[k]?.any fun socket => socket.request.command = n

def Network.Hears (transport : MiotTransport) (s : Network K) (n k : Nat) (payload : MiotRequestPayload)
    (answer : Except MiotError Parsed) : Prop :=
  ∃ datagram socket stamp, (k, datagram) ∈ s.heard ∧ s.net.sockets[k]? = some socket ∧
    socket.request = ⟨n, payload⟩ ∧
    transport.sendCommand payload.method (.message datagram.msg) = .heard stamp answer

inductive Follows (hears : Nat → MiotRequestPayload → Except MiotError Parsed → Prop)
    (start : Sending MiotRequestPayload Parsed CallResult) :
    List Nat → Sending MiotRequestPayload Parsed CallResult → Prop
  | start : Follows hears start [] start
  | answered {ks k payload next response} : Follows hears start ks (.sendCommand payload next) →
      hears k payload (.ok response) → Follows hears start (ks ++ [k]) (next response)

/-- The command's last packets were answered, each in its turn, and this is what the answers come to. A
failure that is no refusal need not come of an answer. -/
def Network.Earned (transport : MiotTransport) (s : Network K) (n : Nat)
    (start : Sending MiotRequestPayload Parsed CallResult) : Except Failure CallResult → Prop
  | .ok result => ∃ ks, ks <:+ s.packetsOf n ∧ Follows (s.Hears transport n) start ks (.resolve result)
  | .error failure => failure.Refusal → ∃ ks, ks <:+ s.packetsOf n ∧
      (Follows (s.Hears transport n) start ks (.reject failure) ∨
        ∃ earlier k payload next error, ks = earlier ++ [k] ∧
          Follows (s.Hears transport n) start earlier (.sendCommand payload next) ∧
          s.Hears transport n k payload (.error error) ∧ failure = .miot error)

def Network.Awaits (transport : MiotTransport) (s : Network K) (n : Nat)
    (start : Sending MiotRequestPayload Parsed CallResult) (next : Parsed → Sending MiotRequestPayload Parsed CallResult)
    (answer : Option Parsed) : Prop :=
  ∃ ks k payload, ks ++ [k] <:+ s.packetsOf n ∧
    Follows (s.Hears transport n) start ks (.sendCommand payload next) ∧
    match answer with
    | none => ∃ socket, s.net.sockets[k]? = some socket ∧ socket.request = ⟨n, payload⟩
    | some response => s.Hears transport n k payload (.ok response)

def Network.Explains (transport : MiotTransport) (s : Network K) (n : Nat) (method : MiotMethod)
    (fn : Nat → Sending MiotRequestPayload Parsed CallResult) : Stage K MiotRequestPayload Parsed CallResult → Prop
  | .sending deviceId _ next answer => s.Awaits transport n (fn deviceId) next answer
  | .returned deviceId _ outcome => s.Earned transport n (fn deviceId) outcome
  | .persisting _ result => ∃ deviceId, s.Earned transport n (fn deviceId) (.ok result)
  | .settled (.ok result) => ∃ deviceId, s.Earned transport n (fn deviceId) (.ok result)
  | .settled (.error failure) => failure.Refusal → ∃ deviceId retried cause,
      failure = freshFailure retried method deviceId cause ∧ cause.Refusal ∧
        s.Earned transport n (fn deviceId) (.error cause)
  | _ => True

structure Network.Sound (transport : MiotTransport) (s : Network K) : Prop where
  explains : ∀ (n : Nat) command, s.device.commands[n]? = some command →
    s.Explains transport n command.method command.fn command.stage
  waits : ∀ (k : Nat) socket, s.net.sockets[k]? = some socket → socket.isOpen = true →
    (s.packetsOf socket.request.command).getLast? = some k ∧
      ∃ command deviceId run next, s.device.commands[socket.request.command]? = some command ∧
        command.stage = .sending deviceId run next none

variable {transport : MiotTransport} {s t : Network K} {n k : Nat} {payload : MiotRequestPayload}
  {answer : Except MiotError Parsed} {start sending : Sending MiotRequestPayload Parsed CallResult}
  {method : MiotMethod} {fn : Nat → Sending MiotRequestPayload Parsed CallResult} {ks : List Nat}
  {stage : Stage K MiotRequestPayload Parsed CallResult} {request : Option Request}

structure Network.Grows (s t : Network K) : Prop where
  heard : ∀ x ∈ s.heard, x ∈ t.heard
  sockets : ∀ (k : Nat) socket, s.net.sockets[k]? = some socket →
    ∃ later, t.net.sockets[k]? = some later ∧ later.request = socket.request

theorem Network.Hears.mono (h : s.Hears transport n k payload answer) (hgrows : s.Grows t) :
    t.Hears transport n k payload answer := by
  obtain ⟨datagram, socket, stamp, hheard, hsocket, hrequest, hreply⟩ := h
  obtain ⟨later, hlater, heq⟩ := hgrows.sockets k socket hsocket
  exact ⟨datagram, later, stamp, hgrows.heard _ hheard, hlater, heq.trans hrequest, hreply⟩

theorem Follows.mono (h : Follows (s.Hears transport n) start ks sending) (hgrows : s.Grows t) :
    Follows (t.Hears transport n) start ks sending := by
  induction h with
  | start => exact .start
  | answered _ hears ih => exact .answered ih (hears.mono hgrows)

theorem Network.Earned.mono {outcome : Except Failure CallResult} (h : s.Earned transport n start outcome)
    (hgrows : s.Grows t) (hpackets : t.packetsOf n = s.packetsOf n) : t.Earned transport n start outcome := by
  cases outcome with
  | ok result =>
    obtain ⟨ks, hks, hfollows⟩ := h
    exact ⟨ks, hpackets ▸ hks, hfollows.mono hgrows⟩
  | error failure =>
    intro hrefusal
    obtain ⟨ks, hks, hend⟩ := h hrefusal
    refine ⟨ks, hpackets ▸ hks, ?_⟩
    rcases hend with hfollows | ⟨earlier, k, payload, next, error, hlast, hfollows, hears, heq⟩
    · exact .inl (hfollows.mono hgrows)
    · exact .inr ⟨earlier, k, payload, next, error, hlast, hfollows.mono hgrows, hears.mono hgrows, heq⟩

theorem Network.Awaits.mono {next : Parsed → Sending MiotRequestPayload Parsed CallResult} {answer : Option Parsed}
    (h : s.Awaits transport n start next answer) (hgrows : s.Grows t) (hpackets : t.packetsOf n = s.packetsOf n) :
    t.Awaits transport n start next answer := by
  obtain ⟨ks, k, payload, hks, hfollows, hanswer⟩ := h
  refine ⟨ks, k, payload, hpackets ▸ hks, hfollows.mono hgrows, ?_⟩
  cases answer with
  | none =>
    obtain ⟨socket, hsocket, hrequest⟩ := hanswer
    obtain ⟨later, hlater, heq⟩ := hgrows.sockets k socket hsocket
    exact ⟨later, hlater, heq.trans hrequest⟩
  | some response => exact Network.Hears.mono hanswer hgrows

theorem Network.Explains.mono (h : s.Explains transport n method fn stage) (hgrows : s.Grows t)
    (hpackets : t.packetsOf n = s.packetsOf n) : t.Explains transport n method fn stage := by
  cases stage with
  | queued => trivial
  | getStamp deviceId => trivial
  | handshake deviceId retried => trivial
  | sending deviceId run next answer => exact Network.Awaits.mono h hgrows hpackets
  | returned deviceId run outcome => exact Network.Earned.mono h hgrows hpackets
  | persisting state result =>
    obtain ⟨deviceId, hearned⟩ := h
    exact ⟨deviceId, hearned.mono hgrows hpackets⟩
  | settled outcome =>
    cases outcome with
    | ok result =>
      obtain ⟨deviceId, hearned⟩ := h
      exact ⟨deviceId, hearned.mono hgrows hpackets⟩
    | error failure =>
      intro hrefusal
      obtain ⟨deviceId, retried, cause, heq, hcause, hearned⟩ := h hrefusal
      exact ⟨deviceId, retried, cause, heq, hcause, hearned.mono hgrows hpackets⟩

structure Network.Opens (s t : Network K) (n : Nat) (request : Option Request) : Prop where
  grows : s.Grows t
  kept : request = none → t.packetsOf n = s.packetsOf n
  opened : ∀ r, request = some r → ∃ k socket, t.packetsOf n = s.packetsOf n ++ [k] ∧
    t.net.sockets[k]? = some socket ∧ socket.request = r

theorem freshFailure_refusal {retried : Bool} {deviceId : Nat} {failure : Failure}
    (h : (freshFailure retried method deviceId failure).Refusal) : failure.Refusal := by
  obtain ⟨error, heq, hkind⟩ := h
  cases failure with
  | miot cause =>
    refine ⟨cause, rfl, ?_⟩
    cases retried with
    | false =>
      cases heq
      exact hkind
    | true =>
      cases heq
      exact hkind
  | other message =>
    cases retried with
    | false =>
      cases heq
      cases hkind
    | true =>
      cases heq
      cases hkind

theorem explains_sent {deviceId : Nat} {run : Run} {after : Stage K MiotRequestPayload Parsed CallResult}
    (hsent : Sent n deviceId run sending after request) (hks : ks <:+ s.packetsOf n)
    (hfollows : Follows (s.Hears transport n) (fn deviceId) ks sending) (hopens : s.Opens t n request) :
    t.Explains transport n method fn after := by
  cases hsent with
  | resolve =>
    exact ⟨ks, (hopens.kept rfl).symm ▸ hks, hfollows.mono hopens.grows⟩
  | reject =>
    exact fun _ => ⟨ks, (hopens.kept rfl).symm ▸ hks, .inl (hfollows.mono hopens.grows)⟩
  | unsynced => exact fun hrefusal => absurd hrefusal not_refusal_other
  | sent =>
    obtain ⟨k, socket, hpackets, hsocket, hrequest⟩ := hopens.opened _ rfl
    refine ⟨ks, k, _, ?_, hfollows.mono hopens.grows, socket, hsocket, hrequest⟩
    rw [hpackets, List.suffix_append_inj_of_length_eq rfl]
    exact ⟨hks, rfl⟩

theorem explains_forward {before after : Stage K MiotRequestPayload Parsed CallResult}
    (hforward : Forward n method fn before after request) (h : s.Explains transport n method fn before)
    (hopens : s.Opens t n request) : t.Explains transport n method fn after := by
  cases hforward with
  | asks _ => trivial
  | greets _ => trivial
  | gives _ hfailure => exact fun hrefusal => absurd hrefusal hfailure
  | begins _ hsent => exact explains_sent hsent List.nil_suffix .start hopens
  | resumes hsent =>
    obtain ⟨ks, k, payload, hks, hfollows, hanswer⟩ := h
    exact explains_sent hsent hks (.answered hfollows hanswer) hopens
  | persists => exact ⟨_, Network.Earned.mono h hopens.grows (hopens.kept rfl)⟩
  | succeeds => exact ⟨_, Network.Earned.mono h hopens.grows (hopens.kept rfl)⟩
  | fails =>
    intro hrefusal
    have hcause := freshFailure_refusal hrefusal
    exact ⟨_, _, _, rfl, hcause, Network.Earned.mono h hopens.grows (hopens.kept rfl)⟩
  | written => exact Network.Explains.mono h hopens.grows (hopens.kept rfl)

section Packets

variable {device : Device K MiotRequestPayload Parsed CallResult} {heard : List (Nat × Datagram Bytes)} {port : Nat}
  {asked : Request}

theorem packetsOf_close : Network.packetsOf { device := device, net := s.net.close k, heard := heard } n =
    s.packetsOf n := by
  rw [Network.packetsOf, Network.packetsOf]
  dsimp only
  rw [show (s.net.close k).sockets.length = s.net.sockets.length from List.length_modify ..]
  apply List.filter_congr
  intro i _
  rw [getElem?_close]
  cases s.net.sockets[i]? with
  | none => rfl
  | some socket =>
    by_cases hi : k = i
    · simp [hi]
    · simp [hi]

theorem packetsOf_send : Network.packetsOf { device := device, net := s.net.send port asked, heard := heard } n =
    s.packetsOf n ++ if asked.command = n then [s.net.sockets.length] else [] := by
  rw [Network.packetsOf, Network.packetsOf, Net.send]
  dsimp only
  rw [List.length_append, List.length_singleton, List.range_succ, List.filter_append]
  congr 1
  · apply List.filter_congr
    intro i hi
    rw [List.getElem?_append_left (List.mem_range.mp hi)]
  · rw [List.filter_singleton, List.getElem?_concat_length, Option.any_some]
    split
    · simp_all
    · simp_all

theorem grows_close (hheard : ∀ x ∈ s.heard, x ∈ heard) :
    s.Grows { device := device, net := s.net.close k, heard := heard } := by
  refine ⟨hheard, fun i socket hsocket => ?_⟩
  refine ⟨if k = i then { socket with isOpen := false } else socket, ?_, ?_⟩
  · rw [getElem?_close, hsocket, Option.map_some]
  · split
    · rfl
    · rfl

theorem grows_send : s.Grows { s with device := device, net := s.net.send port asked } := by
  refine ⟨fun _ h => h, fun i socket hsocket => ⟨socket, ?_, rfl⟩⟩
  obtain ⟨hi, -⟩ := List.getElem?_eq_some_iff.mp hsocket
  rw [Net.send, List.getElem?_append_left hi, hsocket]

theorem grows_device : s.Grows { s with device := device } :=
  ⟨fun _ h => h, fun _ socket hsocket => ⟨socket, hsocket, rfl⟩⟩

theorem explains_closed {reply : Reply} {deviceId : Nat} {run : Run}
    {next : Parsed → Sending MiotRequestPayload Parsed CallResult} (hclosed : Closed reply deviceId run next stage)
    (h : s.Explains transport n method fn (.sending deviceId run next none)) (hgrows : s.Grows t)
    (hpackets : t.packetsOf n = s.packetsOf n) (hlast : (s.packetsOf n).getLast? = some k)
    (hhears : ∀ stamp answer payload socket, reply = .heard stamp answer → s.net.sockets[k]? = some socket →
      socket.request = ⟨n, payload⟩ → t.Hears transport n k payload answer) :
    t.Explains transport n method fn stage := by
  obtain ⟨ks, j, payload, hks, hfollows, socket, hsocket, hrequest⟩ := h
  have hj : j = k := by
    obtain ⟨earlier, hearlier⟩ := hks
    rw [← hearlier, ← List.append_assoc, List.getLast?_concat] at hlast
    exact Option.some.inj hlast
  subst hj
  cases hclosed with
  | heard hreply =>
    exact ⟨ks, j, payload, hpackets ▸ hks, hfollows.mono hgrows, hhears _ _ _ socket hreply hsocket hrequest⟩
  | refused hreply =>
    exact fun _ => ⟨ks ++ [j], hpackets ▸ hks, .inr ⟨ks, j, payload, next, _, rfl, hfollows.mono hgrows,
      hhears _ _ _ socket hreply hsocket hrequest, rfl⟩⟩
  | failed hfailure => exact fun hrefusal => absurd hrefusal hfailure

theorem Network.Sound.close {socket : Socket Request} {command : Command K MiotRequestPayload Parsed CallResult}
    {reply : Reply} {deviceId : Nat} {run : Run} {next : Parsed → Sending MiotRequestPayload Parsed CallResult}
    (h : s.Sound transport) (hsocket : s.net.sockets[k]? = some socket) (hopen : socket.isOpen = true)
    (hcommand : s.device.commands[socket.request.command]? = some command)
    (hstage : command.stage = .sending deviceId run next none)
    (hcommands : device.commands = (s.device.put socket.request.command stage).commands)
    (hclosed : Closed reply deviceId run next stage) (hheard : ∀ x ∈ s.heard, x ∈ heard)
    (hhears : ∀ stamp answer, reply = .heard stamp answer →
      Network.Hears transport { device := device, net := s.net.close k, heard := heard } socket.request.command k
        socket.request.payload answer) :
    Network.Sound transport { device := device, net := s.net.close k, heard := heard } := by
  obtain ⟨hlast, -⟩ := h.waits k socket hsocket hopen
  constructor
  · intro n after hafter
    dsimp only at hafter
    rw [hcommands, commands_put] at hafter
    obtain ⟨before, hbefore, rfl⟩ := Option.map_eq_some_iff.mp hafter
    by_cases hn : socket.request.command = n
    · subst hn
      obtain rfl := Option.some.inj (hcommand.symm.trans hbefore)
      rw [if_pos rfl]
      have hexplains := h.explains _ _ hcommand
      rw [hstage] at hexplains
      refine explains_closed hclosed hexplains (grows_close hheard) packetsOf_close hlast ?_
      intro stamp answer payload same hreply hsame hrequest
      obtain rfl := Option.some.inj (hsocket.symm.trans hsame)
      have hhear := hhears stamp answer hreply
      rw [hrequest] at hhear
      rw [hrequest]
      exact hhear
    · rw [if_neg hn]
      exact (h.explains n before hbefore).mono (grows_close hheard) packetsOf_close
  · intro i other hother hotherOpen
    dsimp only at hother ⊢
    rw [getElem?_close] at hother
    obtain ⟨before, hbefore, rfl⟩ := Option.map_eq_some_iff.mp hother
    split at hotherOpen
    · cases hotherOpen
    next hi =>
      rw [if_neg hi]
      obtain ⟨hotherLast, waiting, deviceId, run, next, hwaiting, hwaits⟩ := h.waits i before hbefore hotherOpen
      have hn : socket.request.command ≠ before.request.command := by
        intro heq
        rw [← heq, hlast] at hotherLast
        exact hi (Option.some.inj hotherLast)
      refine ⟨by rw [packetsOf_close]; exact hotherLast, waiting, deviceId, run, next, ?_, hwaits⟩
      rw [hcommands, commands_put, hwaiting, Option.map_some, if_neg hn]

theorem waits_of_forward {before after : Stage K MiotRequestPayload Parsed CallResult}
    (hforward : Forward n method fn before after request) : before.waits = false ∧
      ∀ asked, request = some asked → asked.command = n ∧ ∃ deviceId run next, after = .sending deviceId run next none := by
  have hsent : ∀ {deviceId run sending}, Sent n deviceId run sending after request → ∀ asked, request = some asked →
      asked.command = n ∧ ∃ deviceId run next, after = .sending deviceId run next none := by
    intro deviceId run sending hsent asked hasked
    cases hsent with
    | resolve => cases hasked
    | reject => cases hasked
    | unsynced => cases hasked
    | sent =>
      cases hasked
      exact ⟨rfl, _, _, _, rfl⟩
  cases hforward with
  | asks hbefore => exact ⟨hbefore, by rintro asked ⟨⟩⟩
  | greets hbefore => exact ⟨hbefore, by rintro asked ⟨⟩⟩
  | gives hbefore _ => exact ⟨hbefore, by rintro asked ⟨⟩⟩
  | begins hbefore hbegins => exact ⟨hbefore, hsent hbegins⟩
  | resumes hresumes => exact ⟨rfl, hsent hresumes⟩
  | persists => exact ⟨rfl, by rintro asked ⟨⟩⟩
  | succeeds => exact ⟨rfl, by rintro asked ⟨⟩⟩
  | fails => exact ⟨rfl, by rintro asked ⟨⟩⟩
  | written => exact ⟨rfl, by rintro asked ⟨⟩⟩

theorem Network.Sound.forward {command : Command K MiotRequestPayload Parsed CallResult} (h : s.Sound transport)
    (hcommand : s.device.commands[n]? = some command)
    (hforward : Forward n command.method command.fn command.stage stage request)
    (hcommands : t.device.commands = (s.device.put n stage).commands) (hopens : s.Opens t n request)
    (hothers : ∀ m ≠ n, t.packetsOf m = s.packetsOf m)
    (hsockets : ∀ (k : Nat) socket, t.net.sockets[k]? = some socket → s.net.sockets[k]? = some socket ∨
      ∃ asked, request = some asked ∧ socket.request = asked ∧ t.packetsOf n = s.packetsOf n ++ [k]) :
    t.Sound transport := by
  obtain ⟨hbefore, hasked⟩ := waits_of_forward hforward
  constructor
  · intro m after hafter
    rw [hcommands, commands_put] at hafter
    obtain ⟨before, hcommandm, rfl⟩ := Option.map_eq_some_iff.mp hafter
    by_cases hm : n = m
    · subst hm
      obtain rfl := Option.some.inj (hcommand.symm.trans hcommandm)
      rw [if_pos rfl]
      exact explains_forward hforward (h.explains _ _ hcommand) hopens
    · rw [if_neg hm]
      exact (h.explains m before hcommandm).mono hopens.grows (hothers m (Ne.symm hm))
  · intro k socket hsocket hopen
    rcases hsockets k socket hsocket with hold | ⟨asked, heq, hrequest, hpackets⟩
    · obtain ⟨hlast, waiting, deviceId, run, next, hwaiting, hwaits⟩ := h.waits k socket hold hopen
      have hne : socket.request.command ≠ n := by
        intro heq
        rw [heq, hcommand] at hwaiting
        obtain rfl := Option.some.inj hwaiting
        rw [hwaits] at hbefore
        cases hbefore
      refine ⟨by rw [hothers _ hne]; exact hlast, waiting, deviceId, run, next, ?_, hwaits⟩
      rw [hcommands, commands_put, hwaiting, Option.map_some, if_neg (Ne.symm hne)]
    · obtain ⟨hn, deviceId, run, next, hafter⟩ := hasked asked heq
      rw [hrequest, hn]
      refine ⟨by rw [hpackets, List.getLast?_concat], { command with stage := stage }, deviceId, run, next, ?_, hafter⟩
      rw [hcommands, commands_put, hcommand, Option.map_some, if_pos rfl]

end Packets

variable [Field K] [LinearOrder K] [Library.Rounding K] [FloorRing K] {m : Moment K}
  {device : Device K MiotRequestPayload Parsed CallResult}

theorem Network.Sound.goOn {event : WireEvent K MiotRequestPayload CallResult} {port : Nat} (h : s.Sound transport)
    (hsocket : event.ofSocket = false) (hstep : s.device.step (m, event.event transport) = some device)
    (hgo : s.goOn device port = some t) : t.Sound transport := by
  rcases step_forward hsocket hstep with ⟨more, hcommands, hqueued, hsent⟩ |
    ⟨n, command, after, request, hcommand, hcomes, hforward⟩
  · rw [Network.goOn, hsent] at hgo
    obtain rfl := Option.some.inj hgo
    constructor
    · intro n command hcommand
      dsimp only at hcommand
      rw [hcommands] at hcommand
      by_cases hn : n < s.device.commands.length
      · rw [List.getElem?_append_left hn] at hcommand
        exact (h.explains n command hcommand).mono grows_device rfl
      · rw [List.getElem?_append_right (Nat.le_of_not_lt hn)] at hcommand
        rw [hqueued command (List.mem_of_getElem? hcommand)]
        trivial
    · intro k socket hk hopen
      obtain ⟨hlast, waiting, deviceId, run, next, hwaiting, hwaits⟩ := h.waits k socket hk hopen
      refine ⟨hlast, waiting, deviceId, run, next, ?_, hwaits⟩
      dsimp only
      rw [hcommands, List.getElem?_append_left (List.getElem?_eq_some_iff.mp hwaiting).1, hwaiting]
  · rw [Network.goOn, hcomes.sent] at hgo
    cases request with
    | none =>
      obtain rfl := Option.some.inj hgo
      refine h.forward hcommand hforward hcomes.commands ⟨grows_device, fun _ => rfl, ?_⟩ (fun _ _ => rfl)
        fun k socket hk => .inl hk
      rintro r ⟨⟩
    | some request =>
      obtain ⟨-, heq⟩ := Option.ite_none_right_eq_some.mp hgo
      obtain rfl := Option.some.inj heq
      have hn := ((waits_of_forward hforward).2 request rfl).1
      have hpackets : ∀ m, Network.packetsOf { s with device := device, net := s.net.send port request } m =
          s.packetsOf m ++ if request.command = m then [s.net.sockets.length] else [] := fun m => packetsOf_send
      refine h.forward hcommand hforward hcomes.commands ⟨grows_send, ?_, ?_⟩ ?_ ?_
      · rintro ⟨⟩
      · rintro r ⟨⟩
        refine ⟨s.net.sockets.length, ⟨port, request, true⟩, by rw [hpackets, if_pos hn], ?_, rfl⟩
        rw [Net.send, List.getElem?_concat_length]
      · intro m hm
        rw [hpackets, if_neg (fun heq => hm (heq.symm.trans hn)), List.append_nil]
      · intro k socket hk
        dsimp only at hk
        rw [Net.send] at hk
        by_cases hlt : k < s.net.sockets.length
        · rw [List.getElem?_append_left hlt] at hk
          exact .inl hk
        · have hlast : k = s.net.sockets.length := by
            have hle := (List.getElem?_eq_some_iff.mp hk).1
            rw [List.length_append, List.length_singleton] at hle
            omega
          subst hlast
          rw [List.getElem?_concat_length] at hk
          cases hk
          exact .inr ⟨request, rfl, rfl, by rw [hpackets, if_pos hn]⟩

theorem settle_cases {event : Request → WireEvent K MiotRequestPayload CallResult}
    (h : s.settle transport m k event = some t) : ∃ socket device, s.net.sockets[k]? = some socket ∧
      socket.isOpen = true ∧ s.device.step (m, (event socket.request).event transport) = some device ∧
      t = { s with device := device, net := s.net.close k } := by
  rw [Network.settle] at h
  split at h
  · cases h
  next socket hsocket =>
    split at h
    next hopen =>
      obtain ⟨device, hstep, rfl⟩ := Option.map_eq_some_iff.mp h
      exact ⟨socket, device, hsocket, hopen, hstep, rfl⟩
    · cases h

theorem Network.Sound.reports {event : SocketEvent} {heard : List (Nat × Datagram Bytes)} (h : s.Sound transport)
    (hsettle : s.settle transport m k (Request.reports event) = some t) (hheard : ∀ x ∈ s.heard, x ∈ heard)
    (htold : ∀ msg, event = .message msg → HEADER_SIZE < msg.length → ∃ datagram, (k, datagram) ∈ heard ∧
      datagram.msg = msg) : Network.Sound transport { t with heard := heard } := by
  obtain ⟨socket, device, hsocket, hopen, hstep, rfl⟩ := settle_cases hsettle
  obtain ⟨command, deviceId, run, next, after, hcommand, hstage, hcommands, hclosed⟩ := step_reports hstep
  refine h.close hsocket hopen hcommand hstage hcommands hclosed hheard ?_
  intro stamp answer hreply
  obtain ⟨msg, rfl, hbody⟩ := body_of_heard hreply
  obtain ⟨datagram, hmem, hmsg⟩ := htold msg rfl hbody
  have hgrows : s.Grows { device := device, net := s.net.close k, heard := heard } := grows_close hheard
  obtain ⟨later, hlater, hrequest⟩ := hgrows.sockets k socket hsocket
  exact ⟨datagram, later, stamp, hmem, hlater, hrequest, hmsg ▸ hreply⟩

theorem network_sound_step {e : Moment K × NetworkEvent K} (h : s.Sound transport) (hstep : s.step transport e = some t) :
    t.Sound transport := by
  obtain ⟨m, event⟩ := e
  have hsame : ∀ {u : Network K}, u.device = s.device → u.heard = s.heard → u.net.sockets = s.net.sockets →
      u.Sound transport := by
    intro u hdevice hheard hsockets
    have hpackets : ∀ n, u.packetsOf n = s.packetsOf n := by
      intro n
      rw [Network.packetsOf, Network.packetsOf, hsockets]
    have hgrows : s.Grows u :=
      ⟨fun x hx => hheard ▸ hx, fun k socket hsocket => ⟨socket, hsockets ▸ hsocket, rfl⟩⟩
    constructor
    · intro n command hcommand
      exact (h.explains n command (hdevice ▸ hcommand)).mono hgrows (hpackets n)
    · intro k socket hsocket hopen
      rw [hpackets, hdevice]
      exact h.waits k socket (hsockets ▸ hsocket) hopen
  have hsilent : ∀ {event : SocketEvent} {k : Nat}, (∀ msg, event = .message msg → ¬ HEADER_SIZE < msg.length) →
      s.settle transport m k (Request.reports event) = some t → t.Sound transport := by
    intro event k hevent hsettle
    obtain ⟨socket, device, -, -, -, rfl⟩ := settle_cases hsettle
    exact h.reports hsettle (fun _ hx => hx) fun msg hmsg hbody => absurd hbody (hevent msg hmsg)
  cases event with
  | device event port =>
    simp only [Network.step] at hstep
    split at hstep
    · cases hstep
    next hsocket =>
      obtain ⟨device, hdevice, hgo⟩ := Option.bind_eq_some_iff.mp hstep
      exact h.goOn (by simpa using hsocket) hdevice hgo
  | throws k cause =>
    simp only [Network.step] at hstep
    obtain ⟨socket, device, hsocket, hopen, hdevice, rfl⟩ := settle_cases hstep
    obtain ⟨command, deviceId, run, next, hcommand, hstage, hcommands⟩ := step_throws hdevice
    have hclosed : Closed (K := K) (.failed (transportError .handshake cause)) deviceId run next
        (.returned deviceId run (.error (.other cause))) := .failed not_refusal_other
    refine h.close hsocket hopen hcommand hstage hcommands hclosed (fun _ hx => hx) ?_
    rintro stamp answer ⟨⟩
  | timeout k => exact hsilent (by rintro msg ⟨⟩) hstep
  | error k cause => exact hsilent (by rintro msg ⟨⟩) hstep
  | sendFailed k cause => exact hsilent (by rintro msg ⟨⟩) hstep
  | hello k msg =>
    simp only [Network.step] at hstep
    split at hstep
    · cases hstep
    next hshort =>
      refine hsilent ?_ hstep
      rintro msg ⟨⟩
      exact hshort
  | answer k msg =>
    obtain ⟨net, hanswer, rfl⟩ := Option.map_eq_some_iff.mp hstep
    obtain ⟨-, heq⟩ := Option.ite_none_right_eq_some.mp hanswer
    obtain rfl := Option.some.inj heq
    exact hsame rfl rfl rfl
  | loseRequest k =>
    obtain rfl := Option.some.inj hstep
    exact hsame rfl rfl rfl
  | loseAnswer i =>
    obtain rfl := Option.some.inj hstep
    exact hsame rfl rfl rfl
  | deliver i k =>
    obtain ⟨⟨datagram, socket⟩, harrival, hdeliver⟩ := Option.bind_eq_some_iff.mp hstep
    obtain ⟨u, hsettle, rfl⟩ := Option.map_eq_some_iff.mp hdeliver
    obtain ⟨-, device, -, -, -, rfl⟩ := settle_cases hsettle
    refine h.reports hsettle (fun x hx => List.mem_cons_of_mem _ hx) ?_
    rintro msg ⟨⟩ -
    exact ⟨datagram, List.mem_cons_self, rfl⟩

end Commands

end HomelabApps.MiotDevice
