import HomelabApps.Library.Lists
import HomelabApps.MiotDevice.Commands
import Mathlib.Data.Rat.Floor

universe u v w x

namespace HomelabApps.MiotDevice.Commands

open HomelabApps.Library.Transition
open HomelabApps.Library.Utf16

variable {K : Type u} {Payload : Type v} {Response : Type w} {Result : Type x}

def follow : Bool → List (Entry Payload) → Option Bool
  | synced, [] => some synced
  | _, .reset :: log => follow false log
  | _, .supplied _ :: log => follow true log
  | synced, .next _ _ _ stamp :: log => if synced && stamp.isSome then follow true log else none

def previous : Nat → Option Nat
  | 0 => none
  | n + 1 => some n

structure Device.Serialised [Field K] [LinearOrder K] [Library.Rounding K] [FloorRing K]
    (s : Device K Payload Response Result) : Prop where
  one : ∀ (n m : Nat) c d, s.commands[n]? = some c → s.commands[m]? = some d →
    c.stage.executing = true → d.stage.executing = true → n = m
  order : ∀ (n m : Nat) c d, n < m → s.commands[n]? = some c → s.commands[m]? = some d →
    d.stage.isQueued = false → c.stage.isSettled = true
  unblocked : ∀ (n : Nat) d, s.commands[n]? = some d → d.stage.isQueued = true →
    (∀ k c, previous n = some k → s.commands[k]? = some c → c.stage.isSettled = true) →
      ∀ m, (s.step (m, .start n)).isSome = true

structure Device.Supplied (s : Device K Payload Response Result) : Prop where
  held : ∀ n deviceId payload stamp, .next n deviceId payload stamp ∈ s.log → stamp.isSome = true
  afterReset : ∀ before between after n deviceId payload stamp,
    s.log = before ++ .reset :: between ++ .next n deviceId payload stamp :: after →
      ∃ source, .supplied source ∈ between
  first : ∀ before after n deviceId payload stamp,
    s.log = before ++ .next n deviceId payload stamp :: after → ∃ source, .supplied source ∈ before

structure Device.Ordered (s : Device K Payload Response Result) : Prop where
  queue : s.queue = previous s.commands.length
  behind : ∀ (n : Nat) c, s.commands[n]? = some c → c.behind = previous n
  order : ∀ (n : Nat) c d, s.commands[n]? = some c → s.commands[n + 1]? = some d →
    d.stage.isQueued = false → c.stage.isSettled = true

def Device.Holding (s : Device K Payload Response Result) : Prop :=
  ∀ (n : Nat) c, s.commands[n]? = some c → c.stage.isSending = true → s.clock.synced = true

structure Moved (s t : Device K Payload Response Result) (n : Nat)
    (command : Command K Payload Response Result) (stage : Stage K Payload Response Result) : Prop where
  before : s.commands[n]? = some command
  free : command.stage.isQueued = true → s.free command.behind = true
  unsettled : command.stage.isSettled = false
  begun : stage.isQueued = false
  commands : t.commands = (s.put n stage).commands
  queue : t.queue = s.queue
  holds : stage.isSending = true → t.clock.synced = true
  log : ∃ entries, t.log = s.log ++ entries ∧ follow s.clock.synced entries = some t.clock.synced

inductive Step (s : Device K Payload Response Result) : Device K Payload Response Result → Prop
  | call (method : MiotMethod) (fn : Nat → Sending Payload Response Result) :
    Step s { s with
      commands := s.commands ++ [⟨method, fn, s.queue, .queued⟩]
      queue := some s.commands.length }
  | outside {t : Device K Payload Response Result} {entries : List (Entry Payload)} :
    t.commands = s.commands → t.queue = s.queue → t.log = s.log ++ entries →
    follow s.clock.synced entries = some t.clock.synced →
    (s.clock.synced = true → t.clock.synced = true) → Step s t
  | moved {t : Device K Payload Response Result} {n : Nat} {command : Command K Payload Response Result}
      {stage : Stage K Payload Response Result} : Moved s t n command stage → Step s t

theorem follow_append (synced : Bool) (log entries : List (Entry Payload)) :
    follow synced (log ++ entries) = (follow synced log).bind (follow · entries) := by
  induction log generalizing synced with
  | nil => rfl
  | cons entry log ih =>
    cases entry with
    | reset => exact ih false
    | supplied source => exact ih true
    | next n deviceId payload stamp =>
      rw [List.cons_append, follow, follow, ih]
      split <;> rfl

theorem supplied_of_follow {log : List (Entry Payload)} (h : follow false log = some true) :
    ∃ source, .supplied source ∈ log := by
  induction log with
  | nil => cases h
  | cons entry log ih =>
    cases entry with
    | reset =>
      obtain ⟨source, hsource⟩ := ih h
      exact ⟨source, List.mem_cons_of_mem _ hsource⟩
    | supplied source => exact ⟨source, List.mem_cons_self⟩
    | next n deviceId payload stamp =>
      rw [follow, Bool.false_and] at h
      cases h

theorem follow_next {synced : Bool} {log : List (Entry Payload)} {n deviceId : Nat} {payload : Payload}
    {stamp : Option Int} {last : Bool}
    (h : follow synced (.next n deviceId payload stamp :: log) = some last) :
    synced = true ∧ stamp.isSome = true := by
  rw [follow] at h
  split at h
  · rename_i hboth
    exact (Bool.and_eq_true _ _).mp hboth
  · cases h

variable {s t : Device K Payload Response Result} {n : Nat}
  {command : Command K Payload Response Result} {stage : Stage K Payload Response Result}

theorem supplied_of_log {last : Bool} (h : follow false s.log = some last) : s.Supplied := by
  have hsplit : ∀ {before after : List (Entry Payload)} {n deviceId : Nat} {payload : Payload}
      {stamp : Option Int}, s.log = before ++ .next n deviceId payload stamp :: after →
      follow false before = some true ∧ stamp.isSome = true := by
    intro before after n deviceId payload stamp hlog
    rw [hlog, follow_append] at h
    obtain ⟨synced, hbefore, hnext⟩ := Option.bind_eq_some_iff.mp h
    obtain ⟨rfl, hstamp⟩ := follow_next hnext
    exact ⟨hbefore, hstamp⟩
  refine ⟨fun n deviceId payload stamp hmem => ?_, ?_, ?_⟩
  · obtain ⟨before, after, hlog⟩ := List.append_of_mem hmem
    exact (hsplit hlog).2
  · intro before between after n deviceId payload stamp hlog
    have hbefore := (hsplit hlog).1
    rw [follow_append] at hbefore
    obtain ⟨synced, -, hreset⟩ := Option.bind_eq_some_iff.mp hbefore
    exact supplied_of_follow hreset
  · exact fun before after n deviceId payload stamp hlog => supplied_of_follow (hsplit hlog).1

theorem queued_of_not_settled {stage : Stage K Payload Response Result} (h : stage.isSettled = true) :
    stage.isQueued = false := by
  cases stage with
  | settled outcome => rfl
  | _ => cases h

theorem Device.Ordered.settled (h : s.Ordered) {m : Nat} {c d : Command K Payload Response Result}
    (hlt : m < n) (hc : s.commands[m]? = some c) (hd : s.commands[n]? = some d)
    (hbegun : d.stage.isQueued = false) : c.stage.isSettled = true := by
  induction n generalizing d with
  | zero => exact absurd hlt (Nat.not_lt_zero m)
  | succ n ih =>
    have hlen : n < s.commands.length := by
      have := (List.getElem?_eq_some_iff.mp hd).1
      omega
    have hstep := h.order n s.commands[n] d (List.getElem?_eq_getElem hlen) hd hbegun
    rcases Nat.lt_succ_iff_lt_or_eq.mp hlt with hlt | rfl
    · exact ih hlt (List.getElem?_eq_getElem hlen) (queued_of_not_settled hstep)
    · rw [List.getElem?_eq_getElem hlen] at hc
      exact Option.some.inj hc ▸ hstep

theorem free_iff {k : Option Nat} :
    s.free k = true ↔ ∀ j, k = some j → ∃ c, s.commands[j]? = some c ∧ c.stage.isSettled = true := by
  cases k with
  | none => simp [Device.free]
  | some k =>
    simp only [Device.free, Option.some.injEq, forall_eq']
    cases s.commands[k]? with
    | none => simp
    | some c => simp

theorem Moved.alone {m : Nat} {d : Command K Payload Response Result} (hmoved : Moved s t n command stage)
    (h : s.Ordered) (hd : s.commands[m]? = some d) (hexecuting : d.stage.executing = true) : m = n := by
  obtain ⟨hbegun, hopen⟩ := (Bool.and_eq_true _ _).mp hexecuting
  rw [Bool.not_eq_true'] at hbegun hopen
  rcases Nat.lt_trichotomy m n with hlt | heq | hlt
  · have hsettled : d.stage.isSettled = true := by
      cases hqueued : command.stage.isQueued with
      | false => exact h.settled hlt hd hmoved.before hqueued
      | true =>
        cases n with
        | zero => exact absurd hlt (Nat.not_lt_zero m)
        | succ k =>
          have hfree := free_iff.mp (hmoved.free hqueued) k (h.behind _ _ hmoved.before)
          obtain ⟨c, hc, hsettled⟩ := hfree
          rcases Nat.lt_succ_iff_lt_or_eq.mp hlt with hlt | rfl
          · exact h.settled hlt hd hc (queued_of_not_settled hsettled)
          · rw [hd] at hc
            exact Option.some.inj hc ▸ hsettled
    rw [hopen] at hsettled
    cases hsettled
  · exact heq
  · have hsettled := h.settled hlt hmoved.before hd hbegun
    rw [hmoved.unsettled] at hsettled
    cases hsettled

theorem Moved.stages (hmoved : Moved s t n command stage) {m : Nat}
    {d : Command K Payload Response Result} (hd : t.commands[m]? = some d) :
    (m = n ∧ d = { command with stage := stage }) ∨ (m ≠ n ∧ s.commands[m]? = some d) := by
  rw [hmoved.commands, commands_put] at hd
  obtain ⟨c, hc, rfl⟩ := Option.map_eq_some_iff.mp hd
  by_cases hnm : n = m
  · subst hnm
    rw [hmoved.before] at hc
    obtain rfl := Option.some.inj hc
    exact .inl ⟨rfl, if_pos rfl⟩
  · rw [if_neg hnm]
    exact .inr ⟨fun heq => hnm heq.symm, hc⟩

theorem Moved.ordered (hmoved : Moved s t n command stage) (h : s.Ordered) : t.Ordered := by
  refine ⟨?_, ?_, ?_⟩
  · rw [hmoved.queue, h.queue, hmoved.commands, Device.put, List.length_modify]
  · intro m d hd
    rcases hmoved.stages hd with ⟨rfl, rfl⟩ | ⟨-, hd⟩
    · exact h.behind m command hmoved.before
    · exact h.behind m d hd
  · intro m c d hc hd hbegun
    rcases hmoved.stages hc with ⟨rfl, rfl⟩ | ⟨-, hc⟩
    · rcases hmoved.stages hd with ⟨heq, -⟩ | ⟨-, hd⟩
      · omega
      · have hsettled := h.order m command d hmoved.before hd hbegun
        rw [hmoved.unsettled] at hsettled
        cases hsettled
    · rcases hmoved.stages hd with ⟨rfl, rfl⟩ | ⟨-, hd⟩
      · cases hqueued : command.stage.isQueued with
        | false => exact h.order m c command hc hmoved.before hqueued
        | true =>
          obtain ⟨c', hc', hsettled⟩ := free_iff.mp (hmoved.free hqueued) m (h.behind _ _ hmoved.before)
          rw [hc] at hc'
          exact Option.some.inj hc' ▸ hsettled
      · exact h.order m c d hc hd hbegun

theorem Moved.holding (hmoved : Moved s t n command stage) (h : s.Ordered) : t.Holding := by
  intro m d hd hsending
  rcases hmoved.stages hd with ⟨rfl, rfl⟩ | ⟨hne, hd⟩
  · exact hmoved.holds hsending
  · have hexecuting : d.stage.executing = true := by
      cases hstage : d.stage with
      | sending deviceId run next answer => rfl
      | _ =>
        rw [hstage] at hsending
        cases hsending
    exact absurd (hmoved.alone h hd hexecuting) hne

theorem ordered_call (h : s.Ordered) (method : MiotMethod)
    (fn : Nat → Sending Payload Response Result) :
    Device.Ordered { s with
      commands := s.commands ++ [⟨method, fn, s.queue, .queued⟩]
      queue := some s.commands.length } := by
  refine ⟨?_, ?_, ?_⟩
  · rw [List.length_append, List.length_singleton, previous]
  · intro m d hd
    rcases Library.getElem?_concat_cases hd with hd | ⟨rfl, rfl⟩
    · exact h.behind m d hd
    · exact h.queue
  · intro m c d hc hd hbegun
    rcases Library.getElem?_concat_cases hd with hd | ⟨-, rfl⟩
    · have hlen := (List.getElem?_eq_some_iff.mp hd).1
      rcases Library.getElem?_concat_cases hc with hc | ⟨heq, -⟩
      · exact h.order m c d hc hd hbegun
      · omega
    · cases hbegun

structure Puts (s : Device K Payload Response Result) (n : Nat) (t : Device K Payload Response Result)
    (stage : Stage K Payload Response Result) (entries : List (Entry Payload)) : Prop where
  begun : stage.isQueued = false
  holds : stage.isSending = true → s.clock.synced = true
  log : follow s.clock.synced entries = some s.clock.synced
  result : t = ({ s with log := s.log ++ entries }).put n stage

theorem puts_put (hbegun : stage.isQueued = false)
    (hholds : stage.isSending = true → s.clock.synced = true) : Puts s n (s.put n stage) stage [] :=
  ⟨hbegun, hholds, rfl, by rw [List.append_nil]⟩

theorem Puts.moved {r : Device K Payload Response Result} {entries rest : List (Entry Payload)}
    (h : Puts r n t stage rest) (hbefore : s.commands[n]? = some command)
    (hfree : command.stage.isQueued = true → s.free command.behind = true)
    (hunsettled : command.stage.isSettled = false) (hcommands : r.commands = s.commands)
    (hqueue : r.queue = s.queue) (hlog : r.log = s.log ++ entries)
    (hfollow : follow s.clock.synced entries = some r.clock.synced) : Moved s t n command stage := by
  obtain ⟨hbegun, hholds, hrest, rfl⟩ := h
  refine ⟨hbefore, hfree, hunsettled, hbegun, ?_, hqueue, hholds, entries ++ rest, ?_, ?_⟩
  · simp only [Device.put, hcommands]
  · simp only [Device.put, hlog, List.append_assoc]
  · rw [follow_append, hfollow]
    exact hrest

theorem moved_finish {deviceId : Nat} {run : Run} {outcome : Except Failure Result}
    (hbefore : s.commands[n]? = some command)
    (hfree : command.stage.isQueued = true → s.free command.behind = true)
    (hunsettled : command.stage.isSettled = false) (method : MiotMethod) :
    ∃ stage, Moved s (s.finish n method deviceId run outcome) n command stage := by
  have hput : ∀ stage : Stage K Payload Response Result, stage.isQueued = false →
      stage.isSending = false → Moved s (s.put n stage) n command stage := by
    intro stage hbegun hsending
    refine (puts_put hbegun fun h => ?_).moved hbefore hfree hunsettled rfl rfl (List.append_nil _).symm rfl
    rw [hsending] at h
    cases h
  unfold Device.finish
  split
  · split
    · exact ⟨_, hput _ rfl rfl⟩
    · exact ⟨_, hput _ rfl rfl⟩
  · have hreset : Puts s.reset n (s.reset.put n (.handshake deviceId true)) (.handshake deviceId true) [] :=
      puts_put rfl (by rintro ⟨⟩)
    exact ⟨_, hreset.moved hbefore hfree hunsettled rfl rfl rfl rfl⟩
  · exact ⟨_, hput _ rfl rfl⟩

variable [Field K] [LinearOrder K] [Library.Rounding K]

theorem log_restore (s : Device K Payload Response Result) (m : Moment K) (source : Source)
    (state : StampState K) :
    ∃ entries, (s.restore m source state).log = s.log ++ entries ∧
      follow s.clock.synced entries = some (s.restore m source state).clock.synced := by
  unfold Device.restore
  rw [DeviceClock.synced_restore]
  by_cases h : state.updatedAt ≤ 0
  · refine ⟨[], ?_, ?_⟩
    · rw [if_pos h, List.append_nil]
    · rw [decide_eq_false h.not_gt, Bool.or_false, follow]
  · refine ⟨[.supplied source], ?_, ?_⟩
    · rw [if_neg h]
    · rw [decide_eq_true (not_le.mp h), Bool.or_true, follow, follow]

variable [FloorRing K]

theorem puts_send (h : s.clock.synced = true) (m : Moment K) (deviceId : Nat) (run : Run)
    (program : Sending Payload Response Result) :
    ∃ stage entries, Puts s n (s.send m n deviceId run program) stage entries := by
  cases program with
  | resolve result => exact ⟨_, _, puts_put rfl fun _ => h⟩
  | reject failure => exact ⟨_, _, puts_put rfl fun _ => h⟩
  | sendCommand payload next =>
    obtain ⟨reading, hreading⟩ := Option.isSome_iff_exists.mp h
    have hnext : s.clock.next m.performance = some (reading.next m.performance) := by
      rw [DeviceClock.next, hreading, Option.map_some]
    refine ⟨.sending deviceId run next none,
      [.next n deviceId payload (some (reading.next m.performance))], rfl, fun _ => h, ?_, ?_⟩
    · rw [follow, h, Option.isSome_some, Bool.and_self, if_pos rfl, follow]
    · simp only [Device.send, hnext]

theorem puts_proceed (m : Moment K) (deviceId : Nat) (fn : Nat → Sending Payload Response Result) :
    ∃ stage entries, Puts s n (s.proceed m n deviceId fn) stage entries := by
  unfold Device.proceed
  split
  · rename_i h
    exact puts_send h m deviceId .cached (fn deviceId)
  · exact ⟨_, _, puts_put rfl (by rintro ⟨⟩)⟩

theorem puts_runWithStampExclusive (m : Moment K) (fn : Nat → Sending Payload Response Result) :
    ∃ stage entries, Puts s n (s.runWithStampExclusive m n fn) stage entries := by
  unfold Device.runWithStampExclusive
  split
  · exact ⟨_, _, puts_put rfl (by rintro ⟨⟩)⟩
  · split
    · exact ⟨_, _, puts_put rfl (by rintro ⟨⟩)⟩
    · exact puts_proceed m _ fn

theorem moved_advance {m : Moment K} {continuation : Continuation K Response} (hholding : s.Holding)
    (hbefore : s.commands[n]? = some command)
    (h : s.advance m n command continuation = some t) : ∃ stage, Moved s t n command stage := by
  have hput : ∀ {r : Device K Payload Response Result} {entries rest : List (Entry Payload)}
      {stage : Stage K Payload Response Result}, Puts r n t stage rest →
      command.stage.isQueued = false → command.stage.isSettled = false → r.commands = s.commands →
      r.queue = s.queue → r.log = s.log ++ entries →
      follow s.clock.synced entries = some r.clock.synced → ∃ stage, Moved s t n command stage := by
    intro r entries rest stage hputs hqueued hunsettled hcommands hqueue hlog hfollow
    refine ⟨stage, hputs.moved hbefore (fun h => ?_) hunsettled hcommands hqueue hlog hfollow⟩
    rw [hqueued] at h
    cases h
  have hnil : s.log = s.log ++ [] := (List.append_nil _).symm
  cases continuation with
  | stampRead stored =>
    simp only [Device.advance] at h
    split at h
    · rename_i hstage
      cases h
      exact hput (puts_put rfl (by rintro ⟨⟩)) (by rw [hstage]; rfl) (by rw [hstage]; rfl) rfl rfl hnil rfl
    · rename_i deviceId hstage
      cases h
      obtain ⟨stage, entries, hputs⟩ := @puts_proceed _ _ _ _ s n _ _ _ _ m deviceId command.fn
      exact hput hputs (by rw [hstage]; rfl) (by rw [hstage]; rfl) rfl rfl hnil rfl
    · rename_i deviceId state hstage
      cases h
      obtain ⟨stage, entries, hputs⟩ :=
        @puts_proceed _ _ _ _ (s.restore m .stampStore state) n _ _ _ _ m deviceId command.fn
      obtain ⟨supplied, hlog, hfollow⟩ := log_restore s m .stampStore state
      exact hput hputs (by rw [hstage]; rfl) (by rw [hstage]; rfl) rfl rfl hlog hfollow
    · cases h
  | handshaken outcome =>
    simp only [Device.advance] at h
    split at h
    · rename_i hstage
      cases h
      exact hput (puts_put rfl (by rintro ⟨⟩)) (by rw [hstage]; rfl) (by rw [hstage]; rfl) rfl rfl hnil rfl
    · rename_i deviceId retried stamp hstage
      cases h
      have hsynced : (s.sync m stamp).clock.synced = true := rfl
      obtain ⟨stage, entries, hputs⟩ :=
        @puts_send _ _ _ _ _ n _ _ _ _ hsynced m deviceId (.fresh retried) (command.fn deviceId)
      exact hput hputs (by rw [hstage]; rfl) (by rw [hstage]; rfl) rfl rfl rfl rfl
    · cases h
  | reply stamp answer =>
    simp only [Device.advance] at h
    split at h
    · rename_i deviceId run next hstage
      have hsynced : (s.clock.observe m stamp).synced = s.clock.synced := DeviceClock.synced_observe ..
      have hheld := hholding n command hbefore (by rw [hstage]; rfl)
      have hobserved : ∀ stage : Stage K Payload Response Result, stage.isQueued = false →
          Puts { s with clock := s.clock.observe m stamp } n
            (Device.put { s with clock := s.clock.observe m stamp } n stage) stage [] :=
        fun stage hbegun => puts_put hbegun fun _ => hsynced.trans hheld
      cases answer with
      | ok response =>
        cases h
        exact hput (hobserved _ rfl) (by rw [hstage]; rfl) (by rw [hstage]; rfl) rfl rfl hnil
          (congrArg some hsynced.symm)
      | error failure =>
        cases h
        exact hput (hobserved _ rfl) (by rw [hstage]; rfl) (by rw [hstage]; rfl) rfl rfl hnil
          (congrArg some hsynced.symm)
    · cases h
  | fail failure =>
    simp only [Device.advance] at h
    split at h
    · rename_i hstage
      cases h
      exact hput (puts_put rfl (by rintro ⟨⟩)) (by rw [hstage]; rfl) (by rw [hstage]; rfl) rfl rfl hnil rfl
    · cases h
  | resume =>
    simp only [Device.advance] at h
    split at h
    · rename_i deviceId run next response hstage
      cases h
      have hheld := hholding n command hbefore (by rw [hstage]; rfl)
      obtain ⟨stage, entries, hputs⟩ := @puts_send _ _ _ _ _ n _ _ _ _ hheld m deviceId run (next response)
      exact hput hputs (by rw [hstage]; rfl) (by rw [hstage]; rfl) rfl rfl hnil rfl
    · rename_i deviceId run outcome hstage
      cases h
      exact moved_finish hbefore (by rw [hstage]; rintro ⟨⟩) (by rw [hstage]; rfl) command.method
    · cases h
  | stampWritten outcome =>
    simp only [Device.advance] at h
    split at h
    · rename_i hstage
      cases h
      exact hput (puts_put rfl (by rintro ⟨⟩)) (by rw [hstage]; rfl) (by rw [hstage]; rfl) rfl rfl hnil rfl
    · cases h

theorem step_cases {e : Moment K × Event K Payload Response Result} (hholding : s.Holding)
    (h : s.step e = some t) : Step s t := by
  have hnil : s.log = s.log ++ [] := (List.append_nil _).symm
  obtain ⟨m, e⟩ := e
  cases e with
  | runWithStamp method fn =>
    cases h
    exact .call method fn
  | start n =>
    obtain ⟨command, hcommand, h⟩ := Option.bind_eq_some_iff.mp h
    obtain ⟨hguard, h⟩ := Option.ite_none_right_eq_some.mp h
    obtain ⟨hqueued, hfree⟩ := (Bool.and_eq_true _ _).mp hguard
    obtain rfl := Option.some.inj h
    obtain ⟨stage, entries, hputs⟩ := @puts_runWithStampExclusive _ _ _ _ s n _ _ _ _ m command.fn
    have hunsettled : command.stage.isSettled = false := by
      cases hstage : command.stage with
      | settled outcome =>
        rw [hstage] at hqueued
        cases hqueued
      | _ => rfl
    exact .moved (hputs.moved hcommand (fun _ => hfree) hunsettled rfl rfl hnil rfl)
  | advance n continuation =>
    obtain ⟨command, hcommand, h⟩ := Option.bind_eq_some_iff.mp h
    obtain ⟨stage, hmoved⟩ := moved_advance hholding hcommand h
    exact .moved hmoved
  | discover =>
    cases h
    exact .outside rfl rfl hnil rfl id
  | discovered n outcome =>
    simp only [Device.step] at h
    split at h
    · rename_i result hdiscovery
      obtain rfl := Option.some.inj h
      unfold Device.discovered
      dsimp only
      split
      · exact @Step.outside _ _ _ _ s _ [.supplied .handshake] rfl rfl rfl rfl fun _ => rfl
      · exact @Step.outside _ _ _ _ s _ [.supplied .handshake] rfl rfl rfl rfl fun _ => rfl
    · cases h
      exact .outside rfl rfl hnil rfl id
    · cases h
  | discoveryWritten n outcome =>
    simp only [Device.step] at h
    split at h
    · cases h
      exact .outside rfl rfl hnil rfl id
    · cases h
  | setStampState state =>
    cases h
    obtain ⟨entries, hlog, hfollow⟩ := log_restore s m .setStampState state
    refine .outside rfl rfl hlog hfollow fun hsynced => ?_
    exact (DeviceClock.synced_restore ..).trans (by rw [hsynced, Bool.true_or])

structure Device.Sound (s : Device K Payload Response Result) : Prop where
  ordered : s.Ordered
  holding : s.Holding
  log : follow false s.log = some s.clock.synced

theorem sound_step {e : Moment K × Event K Payload Response Result} (h : s.Sound)
    (hstep : s.step e = some t) : t.Sound := by
  have hlog : ∀ {entries : List (Entry Payload)}, t.log = s.log ++ entries →
      follow s.clock.synced entries = some t.clock.synced → follow false t.log = some t.clock.synced := by
    intro entries hlog hfollow
    rw [hlog, follow_append, h.log]
    exact hfollow
  cases step_cases h.holding hstep with
  | call method fn =>
    refine ⟨ordered_call h.ordered method fn, ?_, h.log⟩
    intro m d hd hsending
    rcases Library.getElem?_concat_cases hd with hd | ⟨-, rfl⟩
    · exact h.holding m d hd hsending
    · cases hsending
  | outside hcommands hqueue hentries hfollow hsynced =>
    refine ⟨⟨?_, ?_, ?_⟩, ?_, hlog hentries hfollow⟩
    · rw [hqueue, hcommands, h.ordered.queue]
    · exact hcommands ▸ h.ordered.behind
    · exact hcommands ▸ h.ordered.order
    · exact fun m d hd hsending => hsynced (h.holding m d (hcommands ▸ hd) hsending)
  | moved hmoved =>
    obtain ⟨entries, hentries, hfollow⟩ := hmoved.log
    exact ⟨hmoved.ordered h.ordered, hmoved.holding h.ordered, hlog hentries hfollow⟩

theorem Device.Sound.serialised (h : s.Sound) : s.Serialised := by
  refine ⟨?_, ?_, ?_⟩
  · intro n m c d hc hd hcexec hdexec
    obtain ⟨hcbegun, hcopen⟩ := (Bool.and_eq_true _ _).mp hcexec
    obtain ⟨hdbegun, hdopen⟩ := (Bool.and_eq_true _ _).mp hdexec
    rw [Bool.not_eq_true'] at hcbegun hcopen hdbegun hdopen
    rcases Nat.lt_trichotomy n m with hlt | heq | hlt
    · have hsettled := h.ordered.settled hlt hc hd hdbegun
      rw [hcopen] at hsettled
      cases hsettled
    · exact heq
    · have hsettled := h.ordered.settled hlt hd hc hcbegun
      rw [hdopen] at hsettled
      cases hsettled
  · exact fun n m c d hlt hc hd hbegun => h.ordered.settled hlt hc hd hbegun
  · intro n d hd hqueued hsettled m
    have hfree : s.free d.behind = true := by
      refine free_iff.mpr fun k hk => ?_
      rw [h.ordered.behind n d hd] at hk
      have hlen : k < s.commands.length := by
        cases n with
        | zero => cases hk
        | succ n =>
          cases hk
          have := (List.getElem?_eq_some_iff.mp hd).1
          omega
      exact ⟨_, List.getElem?_eq_getElem hlen, hsettled k _ hk (List.getElem?_eq_getElem hlen)⟩
    simp [Device.step, hd, hqueued, hfree]

theorem commands_serialised {deviceId : Option Nat} {stampStore : Bool}
    {events : List (Moment K × Event K Payload Response Result)}
    (h : run Device.step { deviceId := deviceId, stampStore := stampStore } events = some s) :
    s.Serialised ∧ s.Supplied := by
  have hstart : Device.Sound
      ({ deviceId := deviceId, stampStore := stampStore } : Device K Payload Response Result) := by
    refine ⟨⟨rfl, ?_, ?_⟩, ?_, rfl⟩
    · rintro n c ⟨⟩
    · rintro n c d ⟨⟩
    · rintro n c ⟨⟩
  have hsound := invariant (fun _ _ _ => sound_step) hstart h
  exact ⟨hsound.serialised, supplied_of_log hsound.log⟩

def readAll (props : List Nat) (_deviceId : Nat) : Sending Nat Nat (List Nat) :=
  getProperties id (fun value => .ok [value]) props []

def retriedEvents : List (Moment Rat × Event Rat Nat Nat (List Nat)) :=
  [(⟨0, 0⟩, .runWithStamp .getProperties (readAll [1])),
    (⟨0, 0⟩, .runWithStamp .getProperties (readAll [1, 2])),
    (⟨0, 0⟩, .start 0), (⟨0, 0⟩, .advance 0 (.handshaken (.ok 100))),
    (⟨0, 0⟩, .advance 0 (.fail (.other (utf16 "timeout")))), (⟨0, 0⟩, .advance 0 .resume),
    (⟨2000, 2000⟩, .start 1), (⟨2000, 2000⟩, .advance 1 (.fail (.other (utf16 "timeout")))),
    (⟨2000, 2000⟩, .advance 1 .resume), (⟨3000, 3000⟩, .advance 1 (.handshaken (.ok 7))),
    (⟨3000, 3000⟩, .advance 1 (.reply 7 (.ok 5))), (⟨4000, 4000⟩, .advance 1 .resume),
    (⟨4000, 4000⟩, .advance 1 (.reply 8 (.ok 6))), (⟨4000, 4000⟩, .advance 1 .resume)]

theorem commands_serialised_retried :
    ∃ s : Device Rat Nat Nat (List Nat),
      s.log = [.supplied .handshake, .next 0 42 1 (some 101), .next 1 42 1 (some 103), .reset,
        .supplied .handshake, .next 1 42 1 (some 8), .next 1 42 2 (some 9)] ∧
      s.Serialised ∧ s.Supplied := by
  have hlog : (run Device.step { deviceId := some 42, stampStore := false } retriedEvents).map (·.log) =
      some [.supplied .handshake, .next 0 42 1 (some 101), .next 1 42 1 (some 103), .reset,
        .supplied .handshake, .next 1 42 1 (some 8), .next 1 42 2 (some 9)] := by
    decide +kernel
  obtain ⟨s, hs, hmap⟩ := Option.map_eq_some_iff.mp hlog
  exact ⟨s, hmap, commands_serialised hs⟩

end HomelabApps.MiotDevice.Commands
