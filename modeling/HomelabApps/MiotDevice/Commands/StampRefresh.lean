import HomelabApps.Library.Lists
import HomelabApps.Library.Transition
import HomelabApps.MiotDevice.Commands.Wire
import Mathlib.Data.Rat.Floor

universe u v w x

namespace HomelabApps.MiotDevice.Commands

open HomelabApps.Library.Json

variable {K : Type u} {Payload : Type v} {Response : Type w} {Result : Type x}

inductive Note (Result : Type x)
  | handshake
  | refused (failure : Failure)
  | run (run : Run)
  | ended (outcome : Except Failure Result)

def Stage.notes : Stage K Payload Response Result → Stage K Payload Response Result → List (Note Result)
  | .queued, .handshake _ _ => [.handshake]
  | .getStamp _, .handshake _ _ => [.handshake]
  | .queued, .sending _ run _ _ => [.run run]
  | .queued, .returned _ run _ => [.run run]
  | .getStamp _, .sending _ run _ _ => [.run run]
  | .getStamp _, .returned _ run _ => [.run run]
  | .handshake _ _, .settled (.error failure) => [.refused failure]
  | .handshake _ _, .sending _ run _ _ => [.run run]
  | .handshake _ _, .returned _ run _ => [.run run]
  | .returned _ _ outcome, .handshake _ _ => [.ended outcome, .handshake]
  | .returned _ _ outcome, .persisting _ _ => [.ended outcome]
  | .returned _ _ outcome, .settled _ => [.ended outcome]
  | _, _ => []

def Device.stageAt (s : Device K Payload Response Result) (n : Nat) : Option (Stage K Payload Response Result) :=
  s.commands[n]?.map (·.stage)

def notesBetween : Option (Stage K Payload Response Result) → Option (Stage K Payload Response Result) →
    List (Note Result)
  | some before, some after => before.notes after
  | _, _ => []

section

variable [Field K] [LinearOrder K] [Library.Rounding K] [FloorRing K]

def history (n : Nat) (s : Device K Payload Response Result) :
    List (Moment K × Event K Payload Response Result) → List (Note Result)
  | [] => []
  | e :: es =>
    match s.step e with
    | none => []
    | some t => notesBetween (s.stageAt n) (t.stageAt n) ++ history n t es

end

def Outcome.Unmarked (outcome : Except Failure Result) : Prop := ∀ failure, outcome = .error failure → failure.Unmarked

inductive Stage.Ran (run : Run) : Stage K Payload Response Result → Prop
  | sending : (∀ response, (next response).Unmarked) → Ran run (.sending deviceId run next answer)
  | returned : Outcome.Unmarked outcome → Ran run (.returned deviceId run outcome)

inductive Stage.Waiting : Stage K Payload Response Result → Prop
  | queued : Waiting .queued
  | getStamp : Waiting (.getStamp deviceId)

inductive Edge (method : MiotMethod) : Stage K Payload Response Result → Stage K Payload Response Result → Prop
  | asked : Edge method .queued (.getStamp deviceId)
  | cached : before.Waiting → after.Ran .cached → Edge method before after
  | greeted : before.Waiting → Edge method before (.handshake deviceId false)
  | refused {error : MiotError} : error.stampRefreshed = false →
      Edge method (.handshake deviceId retried) (.settled (.error (.miot error)))
  | fresh : after.Ran (.fresh retried) → Edge method (.handshake deviceId retried) after
  | packet : after.Ran run → Edge method (.sending deviceId run next answer) after
  | persisted : Edge method (.returned deviceId run (.ok result)) (.persisting state result)
  | succeeded : Edge method (.returned deviceId run (.ok result)) (.settled (.ok result))
  | retried {failure : Failure} :
      Edge method (.returned deviceId .cached (.error failure)) (.handshake deviceId true)
  | failed {failure : Failure} : Edge method (.returned deviceId (.fresh retried) (.error failure))
      (.settled (.error (freshFailure retried method deviceId failure)))
  | written : Edge method (.persisting state result) (.settled (.ok result))

inductive Greeting : List (Note Result) → Bool → Prop
  | first : Greeting [.handshake] false
  | again {failure : Failure} : failure.Unmarked → Greeting [.run .cached, .ended (.error failure), .handshake] true

inductive Opening : List (Note Result) → Run → Prop
  | cached : Opening [.run .cached] .cached
  | fresh : Greeting notes retried → Opening (notes ++ [.run (.fresh retried)]) (.fresh retried)

inductive Lived (method : MiotMethod) : List (Note Result) → Stage K Payload Response Result → Prop
  | waiting : stage.Waiting → Lived method [] stage
  | handshake : Greeting notes retried → Lived method notes (.handshake deviceId retried)
  | running : Opening notes run → stage.Ran run → Lived method notes stage
  | persisting : Opening notes run → Lived method (notes ++ [.ended (.ok result)]) (.persisting state result)
  | succeeded : Opening notes run → Lived method (notes ++ [.ended (.ok result)]) (.settled (.ok result))
  | refused {error : MiotError} : Greeting notes retried → error.stampRefreshed = false →
      Lived method (notes ++ [.refused (.miot error)]) (.settled (.error (.miot error)))
  | failed {failure : Failure} : Opening notes (.fresh retried) → failure.Unmarked →
      Lived method (notes ++ [.ended (.error failure)])
        (.settled (.error (freshFailure retried method deviceId failure)))

variable {method : MiotMethod} {notes : List (Note Result)} {stage before after : Stage K Payload Response Result}
  {run : Run}

theorem notes_self : stage.notes stage = [] := by
  cases stage <;> rfl

theorem Stage.Waiting.notes_ran (h : before.Waiting) (hran : after.Ran run) : before.notes after = [.run run] := by
  cases h <;> cases hran <;> rfl

theorem Stage.Ran.notes_handshake {deviceId : Nat} {retried : Bool} (h : after.Ran run) :
    Stage.notes (.handshake deviceId retried) after = [.run run] := by
  cases h <;> rfl

theorem Stage.Ran.notes_sending {deviceId : Nat} {next : Response → Sending Payload Response Result}
    {answer : Option Response} (h : after.Ran run) : Stage.notes (.sending deviceId run next answer) after = [] := by
  cases h <;> rfl

theorem notes_written {state : StampState K} {result : Result} {outcome : Except Failure Result} :
    Stage.notes (.persisting state result : Stage K Payload Response Result) (.settled outcome) = [] := rfl

theorem Stage.Waiting.lived (h : stage.Waiting) (hlived : Lived method notes stage) : notes = [] := by
  cases h <;> cases hlived with
  | waiting _ => rfl
  | running _ hran => cases hran

theorem Lived.edge (h : Lived method notes before) (hedge : Edge method before after) :
    Lived method (notes ++ before.notes after) after := by
  cases hedge with
  | asked =>
    obtain rfl := Stage.Waiting.queued.lived h
    exact .waiting .getStamp
  | cached hwaiting hran =>
    obtain rfl := hwaiting.lived h
    rw [hwaiting.notes_ran hran]
    exact .running .cached hran
  | @greeted _ deviceId hwaiting =>
    obtain rfl := hwaiting.lived h
    have hnotes : before.notes (.handshake deviceId false) = [.handshake] := by cases hwaiting <;> rfl
    rw [hnotes]
    exact .handshake .first
  | refused hunmarked =>
    cases h with
    | waiting hwaiting => cases hwaiting
    | handshake hgreeting => exact .refused hgreeting hunmarked
    | running _ hran => cases hran
  | fresh hran =>
    cases h with
    | waiting hwaiting => cases hwaiting
    | handshake hgreeting =>
      rw [hran.notes_handshake]
      exact .running (.fresh hgreeting) hran
    | running _ hran => cases hran
  | packet hran =>
    cases h with
    | waiting hwaiting => cases hwaiting
    | running hopening hbefore =>
      cases hbefore
      rw [hran.notes_sending, List.append_nil]
      exact .running hopening hran
  | persisted =>
    cases h with
    | waiting hwaiting => cases hwaiting
    | running hopening hbefore =>
      cases hbefore
      exact .persisting hopening
  | succeeded =>
    cases h with
    | waiting hwaiting => cases hwaiting
    | running hopening hbefore =>
      cases hbefore
      exact .succeeded hopening
  | retried =>
    cases h with
    | waiting hwaiting => cases hwaiting
    | running hopening hbefore =>
      cases hbefore with
      | returned hunmarked =>
        cases hopening
        exact .handshake (.again (hunmarked _ rfl))
  | failed =>
    cases h with
    | waiting hwaiting => cases hwaiting
    | running hopening hbefore =>
      cases hbefore with
      | returned hunmarked => exact .failed hopening (hunmarked _ rfl)
  | written =>
    cases h with
    | waiting hwaiting => cases hwaiting
    | running _ hran => cases hran
    | persisting hopening =>
      rw [notes_written, List.append_nil]
      exact .succeeded hopening

structure Goes (s : Device K Payload Response Result) (n : Nat) (method : MiotMethod)
    (before : Stage K Payload Response Result) (t : Device K Payload Response Result) : Prop where
  identified : s.deviceId.isSome = true → t.deviceId.isSome = true
  edge : ∃ after, t.commands = (s.put n after).commands ∧ Edge method before after

variable {s t : Device K Payload Response Result} {n deviceId : Nat}

theorem goes_put (hedge : Edge method before after) : Goes s n method before (s.put n after) :=
  ⟨id, after, rfl, hedge⟩

theorem goes_finish (outcome : Except Failure Result) :
    Goes s n method (.returned deviceId run outcome) (s.finish n method deviceId run outcome) := by
  cases outcome with
  | ok result =>
    rw [Device.finish]
    cases s.toPersist with
    | none => exact goes_put .succeeded
    | some state => exact goes_put .persisted
  | error failure =>
    cases run with
    | cached => exact ⟨id, _, rfl, .retried⟩
    | fresh retried => exact goes_put .failed

structure Device.Telling (s : Device K Payload Response Result) (past : Nat → List (Note Result)) : Prop where
  identified : s.deviceId.isSome = true
  unmarked : ∀ (n : Nat) command, s.commands[n]? = some command → ∀ deviceId, (command.fn deviceId).Unmarked
  lived : ∀ (n : Nat) command, s.commands[n]? = some command → Lived command.method (past n) command.stage
  unborn : ∀ n : Nat, s.commands[n]? = none → past n = []

variable {past : Nat → List (Note Result)}

theorem stageAt_eq {n : Nat} {command : Command K Payload Response Result} (h : s.commands[n]? = some command) :
    s.stageAt n = some command.stage := by
  rw [Device.stageAt, h, Option.map_some]

theorem notesBetween_kept {before after : Option (Stage K Payload Response Result)}
    (h : ∀ stage, before = some stage → after = before) : notesBetween before after = [] := by
  cases before with
  | none => rfl
  | some stage =>
    rw [h stage rfl]
    exact notes_self

theorem Device.Telling.kept (h : s.Telling past) (hid : s.deviceId.isSome = true → t.deviceId.isSome = true)
    (hcommands : t.commands = s.commands) :
    t.Telling fun n => past n ++ notesBetween (s.stageAt n) (t.stageAt n) := by
  have hpast : (fun n => past n ++ notesBetween (s.stageAt n) (t.stageAt n)) = past := by
    funext n
    rw [notesBetween_kept fun _ _ => by rw [Device.stageAt, Device.stageAt, hcommands], List.append_nil]
  rw [hpast]
  refine ⟨hid h.identified, ?_, ?_, ?_⟩
  · rw [hcommands]
    exact h.unmarked
  · rw [hcommands]
    exact h.lived
  · rw [hcommands]
    exact h.unborn

theorem Device.Telling.goes {command : Command K Payload Response Result} (h : s.Telling past)
    (hbefore : s.commands[n]? = some command) (hgoes : Goes s n command.method command.stage t) :
    t.Telling fun k => past k ++ notesBetween (s.stageAt k) (t.stageAt k) := by
  obtain ⟨hid, after, hcommands, hedge⟩ := hgoes
  have hat : ∀ k : Nat, t.commands[k]? =
      s.commands[k]?.map fun command => if n = k then { command with stage := after } else command := by
    intro k
    rw [hcommands, commands_put]
  refine ⟨hid h.identified, ?_, ?_, ?_⟩
  · intro k c hc
    rw [hat] at hc
    obtain ⟨d, hd, rfl⟩ := Option.map_eq_some_iff.mp hc
    have hunmarked := h.unmarked k d hd
    by_cases hk : n = k
    · rw [if_pos hk]
      exact hunmarked
    · rw [if_neg hk]
      exact hunmarked
  · intro k c hc
    rw [stageAt_eq hc]
    rw [hat] at hc
    obtain ⟨d, hd, rfl⟩ := Option.map_eq_some_iff.mp hc
    have hlived := h.lived k d hd
    rw [stageAt_eq hd]
    by_cases hk : n = k
    · subst hk
      rw [hbefore] at hd
      obtain rfl := Option.some.inj hd
      rw [if_pos rfl]
      exact hlived.edge hedge
    · rw [if_neg hk]
      rw [notesBetween, notes_self, List.append_nil]
      exact hlived
  · intro k hk
    rw [hat, Option.map_eq_none_iff] at hk
    rw [h.unborn k hk, Device.stageAt, hk]
    rfl

theorem Device.Telling.call (h : s.Telling past) (method : MiotMethod)
    {fn : Nat → Sending Payload Response Result} (hfn : ∀ deviceId, (fn deviceId).Unmarked)
    (hcommands : t.commands = s.commands ++ [⟨method, fn, s.queue, .queued⟩]) (hid : t.deviceId = s.deviceId) :
    t.Telling fun n => past n ++ notesBetween (s.stageAt n) (t.stageAt n) := by
  have hpast : (fun n => past n ++ notesBetween (s.stageAt n) (t.stageAt n)) = past := by
    funext n
    rw [notesBetween_kept, List.append_nil]
    intro stage hstage
    obtain ⟨c, hc, -⟩ := Option.map_eq_some_iff.mp hstage
    rw [Device.stageAt, Device.stageAt, hcommands, List.getElem?_append_left (List.getElem?_eq_some_iff.mp hc).1]
  rw [hpast]
  have hat : ∀ (n : Nat) c, t.commands[n]? = some c →
      s.commands[n]? = some c ∨ (s.commands[n]? = none ∧ c = ⟨method, fn, s.queue, .queued⟩) := by
    intro n c hc
    rw [hcommands] at hc
    rcases Library.getElem?_concat_cases hc with hc | ⟨rfl, rfl⟩
    · exact .inl hc
    · exact .inr ⟨List.getElem?_eq_none (Nat.le_refl _), rfl⟩
  refine ⟨hid ▸ h.identified, ?_, ?_, ?_⟩
  · intro n c hc
    rcases hat n c hc with hc | ⟨-, rfl⟩
    · exact h.unmarked n c hc
    · exact hfn
  · intro n c hc
    rcases hat n c hc with hc | ⟨hnone, rfl⟩
    · exact h.lived n c hc
    · rw [h.unborn n hnone]
      exact .waiting .queued
  · intro n hn
    rw [hcommands, List.getElem?_append, List.getElem?_singleton] at hn
    split at hn
    · exact h.unborn n hn
    · next hle => exact h.unborn n (List.getElem?_eq_none (Nat.not_lt.mp hle))

theorem Lived.next {stage : Stage K Payload Response Result} {method : MiotMethod} {notes : List (Note Result)}
    (h : Lived method notes stage) {deviceId : Nat} {run : Run} {next : Response → Sending Payload Response Result}
    {answer : Option Response} (hstage : stage = .sending deviceId run next answer) (response : Response) :
    (next response).Unmarked := by
  subst hstage
  cases h with
  | waiting hwaiting => cases hwaiting
  | running _ hran =>
    cases hran with
    | sending hnext => exact hnext response

section

variable [Field K] [LinearOrder K] [Library.Rounding K] [FloorRing K] {m : Moment K}
  {fn : Nat → Sending Payload Response Result}

theorem goes_send {sending : Sending Payload Response Result} (h : sending.Unmarked)
    (hedge : ∀ after : Stage K Payload Response Result, after.Ran run → Edge method before after) :
    Goes s n method before (s.send m n deviceId run sending) := by
  cases sending with
  | resolve result =>
    refine goes_put (hedge _ (.returned ?_))
    rintro failure ⟨⟩
  | reject cause =>
    refine goes_put (hedge _ (.returned ?_))
    rintro failure ⟨⟩
    exact h
  | sendCommand payload next =>
    unfold Device.send
    dsimp only
    split
    · refine ⟨id, _, rfl, hedge _ (.returned ?_)⟩
      rintro failure ⟨⟩
      trivial
    · exact ⟨id, _, rfl, hedge _ (.sending h)⟩

theorem goes_proceed (h : (fn deviceId).Unmarked) (hwaiting : before.Waiting) :
    Goes s n method before (s.proceed m n deviceId fn) := by
  unfold Device.proceed
  split
  · exact goes_send h fun _ hran => .cached hwaiting hran
  · exact goes_put (.greeted hwaiting)

theorem goes_runWithStampExclusive (h : ∀ deviceId, (fn deviceId).Unmarked) (hid : s.deviceId.isSome = true) :
    Goes s n method .queued (s.runWithStampExclusive m n fn) := by
  unfold Device.runWithStampExclusive
  split
  · next hnone =>
    rw [hnone] at hid
    cases hid
  · split
    · exact goes_put .asked
    · exact goes_proceed (h _) .queued

theorem goes_advance {command : Command K Payload Response Result} {continuation : Continuation K Response}
    (hfn : ∀ deviceId, (command.fn deviceId).Unmarked)
    (hnext : ∀ deviceId run next answer, command.stage = .sending deviceId run next answer →
      ∀ response, (next response).Unmarked)
    (hwired : continuation.Wired) (h : s.advance m n command continuation = some t) :
    Goes s n command.method command.stage t := by
  cases continuation with
  | stampRead stored =>
    simp only [Device.advance] at h
    split at h
    · exact absurd hwired id
    · next hstage =>
      cases h
      rw [hstage]
      exact goes_proceed (hfn _) .getStamp
    · next hstage =>
      cases h
      rw [hstage]
      obtain ⟨hid, after, hcommands, hedge⟩ :=
        goes_proceed (s := s.restore m .stampStore _) (n := n) (m := m) (hfn _) .getStamp
      exact ⟨hid, after, hcommands, hedge⟩
    · cases h
  | handshaken outcome =>
    simp only [Device.advance] at h
    split at h
    · next hstage =>
      cases h
      obtain ⟨error, rfl, hunmarked⟩ := hwired
      rw [hstage]
      exact goes_put (.refused hunmarked)
    · next hstage =>
      cases h
      rw [hstage]
      obtain ⟨hid, after, hcommands, hedge⟩ :=
        goes_send (s := s.sync m _) (n := n) (m := m) (hfn _) fun _ hran => .fresh hran
      exact ⟨hid, after, hcommands, hedge⟩
    · cases h
  | reply stamp answer =>
    simp only [Device.advance] at h
    split at h
    · next hstage =>
      rw [hstage]
      cases answer with
      | ok response =>
        cases h
        exact ⟨id, _, rfl, .packet (.sending (hnext _ _ _ _ hstage))⟩
      | error failure =>
        cases h
        refine ⟨id, _, rfl, .packet (.returned ?_)⟩
        rintro cause ⟨⟩
        exact hwired
    · cases h
  | fail failure =>
    simp only [Device.advance] at h
    split at h
    · next hstage =>
      cases h
      rw [hstage]
      refine goes_put (.packet (.returned ?_))
      rintro cause ⟨⟩
      exact hwired
    · cases h
  | resume =>
    simp only [Device.advance] at h
    split at h
    · next hstage =>
      cases h
      rw [hstage]
      exact goes_send (hnext _ _ _ _ hstage _) fun _ hran => .packet hran
    · next hstage =>
      cases h
      rw [hstage]
      exact goes_finish _
    · cases h
  | stampWritten outcome =>
    simp only [Device.advance] at h
    split at h
    · next hstage =>
      cases h
      rw [hstage]
      exact goes_put .written
    · cases h

theorem Device.Telling.step (h : s.Telling past) {e : Moment K × Event K Payload Response Result}
    (hwired : e.2.Wired) (hstep : s.step e = some t) :
    t.Telling fun n => past n ++ notesBetween (s.stageAt n) (t.stageAt n) := by
  obtain ⟨m, event⟩ := e
  cases event with
  | runWithStamp method fn =>
    obtain rfl := Option.some.inj hstep
    exact h.call method hwired rfl rfl
  | start n =>
    obtain ⟨command, hcommand, hstart⟩ := Option.bind_eq_some_iff.mp hstep
    obtain ⟨hfree, heq⟩ := Option.ite_none_right_eq_some.mp hstart
    obtain rfl := Option.some.inj heq
    have hqueued : command.stage = .queued := by
      rw [Bool.and_eq_true] at hfree
      cases hstage : command.stage with
      | queued => rfl
      | _ =>
        rw [hstage] at hfree
        cases hfree.1
    refine h.goes hcommand ?_
    rw [hqueued]
    exact goes_runWithStampExclusive (h.unmarked n command hcommand) h.identified
  | advance n continuation =>
    obtain ⟨command, hcommand, hadvance⟩ := Option.bind_eq_some_iff.mp hstep
    refine h.goes hcommand (goes_advance (h.unmarked n command hcommand) ?_ hwired hadvance)
    intro deviceId run next answer hstage
    exact (h.lived n command hcommand).next hstage
  | discover =>
    obtain rfl := Option.some.inj hstep
    exact h.kept id rfl
  | discovered n outcome =>
    simp only [Device.step] at hstep
    split at hstep
    · obtain rfl := Option.some.inj hstep
      refine h.kept (fun _ => ?_) ?_
      · unfold Device.discovered
        dsimp only
        split <;> rfl
      · unfold Device.discovered
        dsimp only
        split <;> rfl
    · obtain rfl := Option.some.inj hstep
      exact h.kept id rfl
    · cases hstep
  | discoveryWritten n outcome =>
    simp only [Device.step] at hstep
    split at hstep
    · obtain rfl := Option.some.inj hstep
      exact h.kept id rfl
    · cases hstep
  | setStampState state =>
    obtain rfl := Option.some.inj hstep
    exact h.kept id rfl

theorem telling_run {events : List (Moment K × Event K Payload Response Result)} (h : s.Telling past)
    (hwired : ∀ e ∈ events, e.2.Wired) (hrun : Library.Transition.run Device.step s events = some t) :
    t.Telling fun n => past n ++ history n s events := by
  induction events generalizing s past with
  | nil =>
    obtain rfl := Option.some.inj hrun
    have hpast : (fun n => past n ++ history n s []) = past := by
      funext n
      exact List.append_nil _
    rw [hpast]
    exact h
  | cons e es ih =>
    obtain ⟨u, hstep, hrest⟩ := Library.Transition.run_cons_eq_some.mp hrun
    have hlater := ih (h.step (hwired e List.mem_cons_self) hstep)
      (fun e he => hwired e (List.mem_cons_of_mem _ he)) hrest
    have hpast : (fun n => past n ++ history n s (e :: es)) =
        fun n => past n ++ notesBetween (s.stageAt n) (u.stageAt n) ++ history n u es := by
      funext n
      rw [history, hstep, List.append_assoc]
    rw [hpast]
    exact hlater

end

def Note.isRun : Note Result → Bool
  | .run _ => true
  | _ => false

def Note.isHandshake : Note Result → Bool
  | .handshake => true
  | _ => false

def Keeps (error : MiotError) (method : MiotMethod) : Failure → Prop
  | .miot cause => error.kind = cause.kind ∧ error.code = cause.code ∧ error.method = cause.method
  | .other _ => error.kind = .transportError ∧ error.code = none ∧ error.method = method

structure Bounded (notes : List (Note Result)) : Prop where
  runs : notes.countP Note.isRun ≤ 2
  handshakes : notes.countP Note.isHandshake ≤ 1
  again : notes.countP Note.isRun = 2 →
    ∃ failure rest, notes = .run .cached :: .ended (.error failure) :: .handshake :: rest

structure Honest (method : MiotMethod) (notes : List (Note Result)) (stage : Stage K Payload Response Result) :
    Prop extends Bounded notes where
  succeeded : ∀ result, .ended (.ok result) ∈ notes →
    (∃ before, notes = before ++ [.ended (.ok result)] ∧ ∀ result, .ended (.ok result) ∉ before) ∧
      ((∃ state, stage = .persisting state result) ∨ stage = .settled (.ok result))
  rejected : ∀ failure, stage = .settled (.error failure) → ∃ error cause, failure = .miot error ∧
    Keeps error method cause ∧
    (notes.getLast? = some (.refused cause) ∨ notes.getLast? = some (.ended (.error cause))) ∧
    (error.stampRefreshed = true ↔
      notes.getLast? = some (.ended (.error cause)) ∧ notes.countP Note.isRun = 2)

theorem Bounded.snoc {note : Note Result} (h : Bounded notes) (hrun : note.isRun = false)
    (hhandshake : note.isHandshake = false) : Bounded (notes ++ [note]) := by
  have hruns : (notes ++ [note]).countP Note.isRun = notes.countP Note.isRun := by
    rw [List.countP_append, List.countP_singleton, hrun]
    rfl
  have hhandshakes : (notes ++ [note]).countP Note.isHandshake = notes.countP Note.isHandshake := by
    rw [List.countP_append, List.countP_singleton, hhandshake]
    rfl
  refine ⟨hruns ▸ h.runs, hhandshakes ▸ h.handshakes, fun htwo => ?_⟩
  obtain ⟨failure, rest, rfl⟩ := h.again (hruns ▸ htwo)
  exact ⟨failure, rest ++ [note], rfl⟩

theorem Greeting.runs {retried : Bool} (h : Greeting notes retried) :
    notes.countP Note.isRun = if retried then 1 else 0 := by
  cases h <;> rfl

theorem Greeting.bounded {retried : Bool} (h : Greeting notes retried) : Bounded notes := by
  refine ⟨?_, ?_, ?_⟩
  · rw [h.runs]
    split <;> omega
  · cases h <;> exact Nat.le_refl 1
  · intro htwo
    rw [h.runs] at htwo
    split at htwo <;> cases htwo

theorem Greeting.noSuccess {retried : Bool} (h : Greeting notes retried) (result : Result) :
    .ended (.ok result) ∉ notes := by
  cases h <;> simp

theorem Opening.runs (h : Opening notes run) : notes.countP Note.isRun = if run = .fresh true then 2 else 1 := by
  cases h with
  | cached => rfl
  | @fresh before retried hgreeting =>
    rw [List.countP_append, hgreeting.runs]
    cases retried <;> rfl

theorem Opening.bounded (h : Opening notes run) : Bounded notes := by
  cases h with
  | cached => exact ⟨Nat.le_succ 1, Nat.zero_le 1, by rintro ⟨⟩⟩
  | fresh hgreeting =>
    cases hgreeting with
    | first => exact ⟨Nat.le_succ 1, Nat.le_refl 1, by rintro ⟨⟩⟩
    | @again failure _ => exact ⟨Nat.le_refl 2, Nat.le_refl 1, fun _ => ⟨failure, _, rfl⟩⟩

theorem Opening.noSuccess (h : Opening notes run) (result : Result) : .ended (.ok result) ∉ notes := by
  cases h with
  | cached => simp
  | fresh hgreeting => simp [hgreeting.noSuccess result]

theorem keeps_freshFailure {retried : Bool} {deviceId : Nat} {cause : Failure} (h : cause.Unmarked) :
    ∃ error, freshFailure retried method deviceId cause = .miot error ∧ Keeps error method cause ∧
      error.stampRefreshed = retried := by
  cases retried with
  | false =>
    cases cause with
    | miot error => exact ⟨error, rfl, ⟨rfl, rfl, rfl⟩, h⟩
    | other message => exact ⟨_, rfl, ⟨rfl, rfl, rfl⟩, rfl⟩
  | true =>
    cases cause with
    | miot error => exact ⟨_, rfl, ⟨rfl, rfl, rfl⟩, rfl⟩
    | other message => exact ⟨_, rfl, ⟨rfl, rfl, rfl⟩, rfl⟩

theorem honest_of_open (hbounded : Bounded notes) (hopen : ∀ result, .ended (.ok result) ∉ notes)
    (hunsettled : stage.isSettled = false) : Honest method notes stage := by
  refine ⟨hbounded, fun result hresult => absurd hresult (hopen result), ?_⟩
  rintro failure rfl
  cases hunsettled

theorem honest_of_success {result : Result} (hopening : Opening notes run)
    (hstage : (∃ state, stage = .persisting state result) ∨ stage = .settled (.ok result)) :
    Honest method (notes ++ [.ended (.ok result)]) stage := by
  refine ⟨hopening.bounded.snoc rfl rfl, fun final hfinal => ?_, ?_⟩
  · rcases List.mem_append.mp hfinal with hfinal | hfinal
    · exact absurd hfinal (hopening.noSuccess final)
    · cases List.mem_singleton.mp hfinal
      exact ⟨⟨notes, rfl, hopening.noSuccess⟩, hstage⟩
  · rintro failure rfl
    rcases hstage with ⟨state, hstage⟩ | hstage
    · cases hstage
    · cases hstage

theorem Lived.honest (h : Lived method notes stage) : Honest method notes stage := by
  cases h with
  | waiting hwaiting =>
    refine honest_of_open ⟨Nat.zero_le 2, Nat.zero_le 1, by rintro ⟨⟩⟩ (fun _ => List.not_mem_nil) ?_
    cases hwaiting <;> rfl
  | handshake hgreeting => exact honest_of_open hgreeting.bounded hgreeting.noSuccess rfl
  | running hopening hran =>
    refine honest_of_open hopening.bounded hopening.noSuccess ?_
    cases hran <;> rfl
  | @persisting _ _ result state hopening => exact honest_of_success hopening (.inl ⟨_, rfl⟩)
  | succeeded hopening => exact honest_of_success hopening (.inr rfl)
  | refused hgreeting hunmarked =>
    refine ⟨hgreeting.bounded.snoc rfl rfl, fun result hresult => ?_, ?_⟩
    · simp [hgreeting.noSuccess result] at hresult
    · rintro failure ⟨⟩
      refine ⟨_, .miot _, rfl, ⟨rfl, rfl, rfl⟩, .inl List.getLast?_concat, ?_⟩
      rw [hunmarked, List.getLast?_concat]
      simp
  | failed hopening hcause =>
    refine ⟨hopening.bounded.snoc rfl rfl, fun result hresult => ?_, ?_⟩
    · simp [hopening.noSuccess result] at hresult
    · rintro failure ⟨⟩
      obtain ⟨error, herror, hkeeps, hmark⟩ := keeps_freshFailure hcause
      refine ⟨error, _, herror, hkeeps, .inr List.getLast?_concat, ?_⟩
      rw [hmark, List.getLast?_concat, List.countP_append, hopening.runs]
      simp [Note.isRun]

section

variable [Field K] [LinearOrder K] [Library.Rounding K] [FloorRing K] {Payload : Type v} {Result : Type w}

theorem stamp_refresh (transport : MiotTransport) {deviceId : Nat} {stampStore : Bool}
    {events : List (Moment K × WireEvent K Payload Result)} {s : Device K Payload Parsed Result}
    (h : Library.Transition.run Device.step { deviceId := some deviceId, stampStore := stampStore }
      (events.map fun e => (e.1, e.2.event transport)) = some s) {n : Nat}
    {command : Command K Payload Parsed Result} (hcommand : s.commands[n]? = some command) :
    Honest command.method
      (history n { deviceId := some deviceId, stampStore := stampStore }
        (events.map fun e => (e.1, e.2.event transport)))
      command.stage := by
  have hstart : Device.Telling
      ({ deviceId := some deviceId, stampStore := stampStore } : Device K Payload Parsed Result)
      fun _ => [] := by
    refine ⟨rfl, ?_, ?_, fun _ _ => rfl⟩
    · rintro n c ⟨⟩
    · rintro n c ⟨⟩
  have hwired : ∀ e ∈ events.map fun e => (e.1, e.2.event transport), e.2.Wired := by
    intro e he
    obtain ⟨e, -, rfl⟩ := List.mem_map.mp he
    exact wired_event transport e.2
  exact ((telling_run hstart hwired h).lived n command hcommand).honest

end

def plainRuntime : Runtime where
  md5 bytes := bytes.take 16
  decipher _ _ data := .ok data
  decode data := data.map UInt8.toUInt16
  syntaxError text := text

def plainTransport : MiotTransport where
  runtime := plainRuntime
  address := [0x61]
  token := List.replicate 16 0

def malformed : Bytes := List.replicate 32 0 ++ [0x37]

def hello : Bytes := [0x21, 0x31] ++ List.replicate 30 0

def refreshedEvents : List (Moment Rat × WireEvent Rat MiotRequestPayload CallResult) :=
  [(⟨0, 0⟩, .setStampState { stamp := 100, updatedAt := 1 }),
    (⟨0, 0⟩, .runWithStamp .getProperties (Call.getProperty 2 1).commandFn), (⟨0, 0⟩, .start 0),
    (⟨0, 0⟩, .packet 0 .getProperties (.message malformed)), (⟨0, 0⟩, .resume 0), (⟨0, 0⟩, .resume 0),
    (⟨0, 0⟩, .handshake 0 (.message hello)), (⟨0, 0⟩, .packet 0 .getProperties .timeout), (⟨0, 0⟩, .resume 0)]

def Stage.rejection : Stage K Payload Response Result → Option (MiotErrorKind × MiotMethod × Bool)
  | .settled (.error (.miot error)) => some (error.kind, error.method, error.stampRefreshed)
  | _ => none

theorem stamp_refresh_malformed :
    ∃ command : Command Rat MiotRequestPayload Parsed CallResult,
      command.stage.rejection = some (.timeout, .getProperties, true) ∧
      Honest command.method
        (history 0 { deviceId := some 42, stampStore := true }
          (refreshedEvents.map fun e => (e.1, e.2.event plainTransport)))
        command.stage := by
  have hrejection : ((Library.Transition.run Device.step { deviceId := some 42, stampStore := true }
      (refreshedEvents.map fun e => (e.1, e.2.event plainTransport))).bind fun s => s.commands[0]?.bind fun command =>
        command.stage.rejection) = some (.timeout, .getProperties, true) := by
    decide +kernel
  obtain ⟨s, hs, hmap⟩ := Option.bind_eq_some_iff.mp hrejection
  obtain ⟨command, hcommand, hrejected⟩ := Option.bind_eq_some_iff.mp hmap
  exact ⟨command, hrejected, stamp_refresh plainTransport hs hcommand⟩

end HomelabApps.MiotDevice.Commands
