import HomelabApps.Health.Report
import HomelabApps.Library.Transition

namespace HomelabApps.Health.Shutdown

open HomelabApps.Library.Transition

inductive Effect
  | draining | beginDrain | stopping | stop | stopped | onStopped
  deriving DecidableEq, Repr

def DEFAULT_DRAIN_DELAY_MS : Nat := 5000

def DEFAULT_HARD_DEADLINE_MS : Nat := 0

def TIMEOUT_MAX : Nat := 2 ^ 31 - 1

/-- What a timer waits for a positive delay: Node sets one that is too long to a millisecond. -/
def timeout (delayMs : Nat) : Nat := if delayMs ≤ TIMEOUT_MAX then delayMs else 1

structure ShutdownHandlerOptions where
  drainDelayMs : Nat := DEFAULT_DRAIN_DELAY_MS
  hardDeadlineMs : Nat := DEFAULT_HARD_DEADLINE_MS
  onStopped : Bool := false

variable {E : Type}

/-- What the handler's one shutdown waits for: the drain's delay up to its time, `platform.stop()`, `onStopped()`. -/
inductive Stage (E : Type)
  | idle
  | delay (due : Nat)
  | stopping
  | flushing
  | settled (outcome : Except E Unit)

/-- A request of `/health/ready`, which awaits `evaluate()` while it has no answer. `calls` is how much the shutdown had
called when it began. -/
structure Probe (E : Type) where
  calls : Nat
  checks : Option (Except E (List EvaluatedCheck)) := none
  answer : Option (Except E (Nat × HealthStatus)) := none

/-- `draining` is that of `ShutdownState`, `deadline` the time of a timer that is set, `elapsed` what `onHardDeadline`
was called with. -/
structure State (E : Type) where
  now : Nat := 0
  shuttingDown : Bool := false
  draining : Bool := false
  startedAt : Nat := 0
  deadline : Option Nat := none
  elapsed : List Nat := []
  stage : Stage E := .idle
  trace : List (Nat × Effect) := []
  probes : List (Probe E) := []

structure Thrown (E : Type) where
  draining : Option E := none
  inject : Option E := none
  stopping : Option E := none
  stopped : Option E := none

inductive Event (E : Type)
  | signal (thrown : Thrown E)
  | pass (duration : Nat)
  | delayed (thrown : Thrown E)
  | stopped (result : Except E Unit) (thrown : Thrown E)
  | flushed (result : Except E Unit)
  | hardDeadline
  | ready
  | evaluated (i : Nat) (checks : Except E (List EvaluatedCheck))

def State.record (s : State E) (effect : Effect) : State E := { s with trace := s.trace ++ [(s.now, effect)] }

def State.settle (s : State E) (outcome : Except E Unit) : State E :=
  { s with stage := .settled outcome, deadline := none }

def State.stop (s : State E) (thrown : Thrown E) : State E :=
  let s := s.record .stopping
  match thrown.stopping with
  | some error => s.settle (.error error)
  | none => { s.record .stop with stage := .stopping }

def State.drain (options : ShutdownHandlerOptions) (s : State E) (thrown : Thrown E) : State E :=
  match thrown.inject with
  | some error => s.settle (.error error)
  | none =>
    let s := { s.record .beginDrain with draining := true }
    if 0 < options.drainDelayMs then { s with stage := .delay (s.now + timeout options.drainDelayMs) }
    else s.stop thrown

def State.signal (options : ShutdownHandlerOptions) (s : State E) (thrown : Thrown E) : State E :=
  if s.shuttingDown then s
  else
    let s := { s with
      shuttingDown := true
      startedAt := s.now
      deadline := if 0 < options.hardDeadlineMs then some (s.now + timeout options.hardDeadlineMs) else none }
    let s := s.record .draining
    match thrown.draining with
    | some error => s.settle (.error error)
    | none => s.drain options thrown

def State.stopped (options : ShutdownHandlerOptions) (s : State E) (result : Except E Unit) (thrown : Thrown E) :
    State E :=
  match result with
  | .error error => s.settle (.error error)
  | .ok _ =>
    let s := s.record .stopped
    match thrown.stopped with
    | some error => s.settle (.error error)
    | none => if options.onStopped then { s.record .onStopped with stage := .flushing } else s.settle (.ok ())

def State.ready (s : State E) : Probe E :=
  { calls := s.trace.length, answer := if s.draining then some (.ok (503, .fail)) else none }

def verdict (evaluated : List EvaluatedCheck) : Nat × HealthStatus :=
  (if isReady evaluated then 200 else 503, rollUp evaluated)

/-- What follows `evaluate()`, which does not look at `draining` again. -/
def Probe.evaluated (probe : Probe E) (checks : Except E (List EvaluatedCheck)) : Probe E :=
  { probe with checks := some checks, answer := some (checks.map verdict) }

def step (options : ShutdownHandlerOptions) (s : State E) : Event E → Option (State E)
  | .signal thrown => some (s.signal options thrown)
  | .pass duration => some { s with now := s.now + duration }
  | .delayed thrown =>
    match s.stage with
    | .delay due => if due ≤ s.now then some (s.stop thrown) else none
    | _ => none
  | .stopped result thrown =>
    match s.stage with
    | .stopping => some (s.stopped options result thrown)
    | _ => none
  | .flushed result =>
    match s.stage with
    | .flushing => some (s.settle result)
    | _ => none
  | .hardDeadline =>
    match s.deadline with
    | some due =>
      if due ≤ s.now then some { s with deadline := none, elapsed := s.elapsed ++ [s.now - s.startedAt] } else none
    | none => none
  | .ready => some { s with probes := s.probes ++ [s.ready] }
  | .evaluated i checks =>
    match s.probes[i]? with
    | some probe =>
      match probe.answer with
      | none => some { s with probes := s.probes.set i (probe.evaluated checks) }
      | some _ => none
    | none => none

def ShutdownHandlerOptions.script (options : ShutdownHandlerOptions) : List Effect :=
  [.draining, .beginDrain, .stopping, .stop, .stopped] ++ if options.onStopped then [.onStopped] else []

def ShutdownHandlerOptions.drainWait (options : ShutdownHandlerOptions) : Nat :=
  if 0 < options.drainDelayMs then timeout options.drainDelayMs else 0

def State.effects (s : State E) : List Effect := s.trace.map (·.2)

def Stage.Reached (options : ShutdownHandlerOptions) : Stage E → List Effect → Prop
  | .idle, effects => effects = []
  | .delay _, effects => effects = [.draining, .beginDrain]
  | .stopping, effects => effects = [.draining, .beginDrain, .stopping, .stop]
  | .flushing, effects => effects = options.script
  | .settled (.ok _), effects => effects = options.script
  | .settled (.error _), effects => effects <+: options.script

/-- The answer to a probe: the drain's when it had begun, else that of the checks, whatever has begun meanwhile. -/
structure Probe.Answered (effects : List Effect) (probe : Probe E) : Prop where
  calls : probe.calls ≤ effects.length
  drained : .beginDrain ∈ effects.take probe.calls → probe.answer = some (.ok (503, .fail)) ∧ probe.checks = none
  checked : .beginDrain ∉ effects.take probe.calls →
    probe.answer = probe.checks.map fun checks => checks.map verdict

structure State.Begun (options : ShutdownHandlerOptions) (s : State E) : Prop where
  started : s.shuttingDown = true
  draining : s.draining = true ↔ .beginDrain ∈ s.effects
  past : ∀ entry ∈ s.trace, entry.1 ≤ s.now
  wait : ∀ t t', (t, .beginDrain) ∈ s.trace → (t', .stop) ∈ s.trace → t + options.drainWait ≤ t'
  armed : ∀ due, s.deadline = some due → due = s.startedAt + timeout options.hardDeadlineMs ∧
    0 < options.hardDeadlineMs ∧ s.elapsed = []
  elapsed : s.elapsed.length ≤ 1 ∧
    ∀ elapsed ∈ s.elapsed, 0 < options.hardDeadlineMs ∧ timeout options.hardDeadlineMs ≤ elapsed
  probes : ∀ probe ∈ s.probes, probe.Answered s.effects

structure State.Awaits (options : ShutdownHandlerOptions) (s : State E) : Prop extends s.Begun options where
  reached : s.stage.Reached options s.effects
  delayed : ∀ due, s.stage = .delay due → ∀ t, (t, .beginDrain) ∈ s.trace → t + options.drainWait ≤ due
  cleared : ∀ outcome, s.stage = .settled outcome → s.deadline = none

structure State.Fresh (s : State E) : Prop where
  started : s.shuttingDown = false
  draining : s.draining = false
  deadline : s.deadline = none
  elapsed : s.elapsed = []
  stage : s.stage = .idle
  trace : s.trace = []
  probes : ∀ probe ∈ s.probes, probe.Answered s.effects

variable {options : ShutdownHandlerOptions} {s t : State E} {event : Event E} {events : List (Event E)}
  {thrown : Thrown E} {outcome : Except E Unit} {effect : Effect} {probe : Probe E}

@[simp] theorem effects_record (s : State E) (effect : Effect) : (s.record effect).effects = s.effects ++ [effect] := by
  simp [State.effects, State.record]

@[simp] theorem effects_settle (s : State E) (outcome : Except E Unit) : (s.settle outcome).effects = s.effects := rfl

theorem timeout_eq {delayMs : Nat} (h : delayMs ≤ TIMEOUT_MAX) : timeout delayMs = delayMs := if_pos h

theorem drainWait_eq (h : options.drainDelayMs ≤ TIMEOUT_MAX) : options.drainWait = options.drainDelayMs := by
  rw [ShutdownHandlerOptions.drainWait, timeout_eq h]
  split_ifs with hpositive
  · rfl
  · omega

theorem Probe.Answered.append {effects : List Effect} (h : probe.Answered effects) (later : List Effect) :
    probe.Answered (effects ++ later) where
  calls := by
    rw [List.length_append]
    exact Nat.le_add_right_of_le h.calls
  drained := by
    rw [List.take_append_of_le_length h.calls]
    exact h.drained
  checked := by
    rw [List.take_append_of_le_length h.calls]
    exact h.checked

theorem Probe.Answered.evaluated {effects : List Effect} (h : probe.Answered effects) (hwaits : probe.answer = none)
    (checks : Except E (List EvaluatedCheck)) : (probe.evaluated checks).Answered effects where
  calls := h.calls
  drained hdrained := by
    cases hwaits.symm.trans (h.drained hdrained).1
  checked _ := rfl

theorem ready_answered (hdraining : s.draining = true ↔ .beginDrain ∈ s.effects) : s.ready.Answered s.effects := by
  have hall : s.effects.take s.ready.calls = s.effects := by simp [State.ready, State.effects]
  constructor
  case calls => simp [State.ready, State.effects]
  case drained =>
    rw [hall, ← hdraining]
    intro h
    simp [State.ready, h]
  case checked =>
    rw [hall, ← hdraining]
    intro h
    simp [State.ready, h]

theorem State.Begun.probes_record (h : s.Begun options) :
    ∀ probe ∈ s.probes, probe.Answered (s.record effect).effects := by
  intro probe hprobe
  rw [effects_record]
  exact (h.probes probe hprobe).append [effect]

theorem State.Begun.past_record (h : s.Begun options) : ∀ entry ∈ (s.record effect).trace, entry.1 ≤ s.now := by
  intro entry hentry
  obtain hentry | hentry := List.mem_append.mp hentry
  · exact h.past entry hentry
  · obtain rfl := List.mem_singleton.mp hentry
    exact Nat.le_refl _

theorem State.Begun.record (h : s.Begun options) (hdrain : effect ≠ .beginDrain) (hstop : effect ≠ .stop) :
    (s.record effect).Begun options where
  started := h.started
  draining := by
    rw [effects_record, List.mem_append, List.mem_singleton, or_iff_left hdrain.symm]
    exact h.draining
  past := h.past_record
  wait t t' ht ht' := by
    simp only [State.record, List.mem_append, List.mem_singleton, Prod.mk.injEq, hdrain.symm, hstop.symm, and_false,
      or_false] at ht ht'
    exact h.wait t t' ht ht'
  armed := h.armed
  elapsed := h.elapsed
  probes := h.probes_record

theorem State.Begun.beginDrain (h : s.Begun options) (hnone : .stop ∉ s.effects) :
    { s.record .beginDrain with draining := true }.Begun options where
  started := h.started
  draining := by simp [State.effects, State.record]
  past := h.past_record
  wait t t' _ ht' := by
    obtain ht' | ht' := List.mem_append.mp ht'
    · exact absurd (List.mem_map.mpr ⟨_, ht', rfl⟩) hnone
    · cases List.mem_singleton.mp ht'
  armed := h.armed
  elapsed := h.elapsed
  probes := h.probes_record

theorem State.Begun.stop (h : s.Begun options)
    (hdelay : ∀ t, (t, .beginDrain) ∈ s.trace → t + options.drainWait ≤ s.now) (hnone : .stop ∉ s.effects) :
    (s.record .stop).Begun options where
  started := h.started
  draining := by
    rw [effects_record, List.mem_append, List.mem_singleton, or_iff_left (by decide)]
    exact h.draining
  past := h.past_record
  wait t t' ht ht' := by
    obtain ht | ht := List.mem_append.mp ht
    · obtain ht' | ht' := List.mem_append.mp ht'
      · exact absurd (List.mem_map.mpr ⟨_, ht', rfl⟩) hnone
      · cases List.mem_singleton.mp ht'
        exact hdelay t ht
    · cases List.mem_singleton.mp ht
  armed := h.armed
  elapsed := h.elapsed
  probes := h.probes_record

theorem State.Begun.settle (h : s.Begun options) (hreached : (Stage.settled outcome).Reached options s.effects) :
    (s.settle outcome).Awaits options where
  started := h.started
  draining := h.draining
  past := h.past
  wait := h.wait
  armed _ hdue := by cases hdue
  elapsed := h.elapsed
  probes := h.probes
  reached := hreached
  delayed _ hstage := by cases hstage
  cleared _ _ := rfl

theorem State.Begun.await (h : s.Begun options) {stage : Stage E} (hreached : stage.Reached options s.effects)
    (hdelayed : ∀ due, stage = .delay due → ∀ t, (t, .beginDrain) ∈ s.trace → t + options.drainWait ≤ due)
    (hwaits : ∀ outcome, stage ≠ .settled outcome) : { s with stage }.Awaits options where
  started := h.started
  draining := h.draining
  past := h.past
  wait := h.wait
  armed := h.armed
  elapsed := h.elapsed
  probes := h.probes
  reached := hreached
  delayed := hdelayed
  cleared outcome hstage := absurd hstage (hwaits outcome)

theorem script_prefix {first : List Effect} (rest : List Effect)
    (h : [.draining, .beginDrain, .stopping, .stop, .stopped] = first ++ rest) : first <+: options.script := by
  rw [ShutdownHandlerOptions.script, h, List.append_assoc]
  exact List.prefix_append _ _

theorem stop_awaits (h : s.Begun options) (heffects : s.effects = [.draining, .beginDrain])
    (hdelay : ∀ t, (t, .beginDrain) ∈ s.trace → t + options.drainWait ≤ s.now) :
    (s.stop thrown).Awaits options := by
  have hstopping : (s.record .stopping).Begun options := h.record (by decide) (by decide)
  have hcalled : (s.record .stopping).effects = [.draining, .beginDrain, .stopping] := by simp [heffects]
  have hdelay' : ∀ t, (t, Effect.beginDrain) ∈ (s.record .stopping).trace → t + options.drainWait ≤ s.now := by
    intro t ht
    obtain ht | ht := List.mem_append.mp ht
    · exact hdelay t ht
    · cases List.mem_singleton.mp ht
  rw [State.stop]
  split
  · apply hstopping.settle
    rw [Stage.Reached, hcalled]
    exact script_prefix [.stop, .stopped] rfl
  · apply (hstopping.stop hdelay' (by simp [hcalled])).await
    · simp [Stage.Reached, hcalled]
    · intro due hstage
      cases hstage
    · intro outcome hstage
      cases hstage

theorem drain_awaits (h : s.Begun options) (heffects : s.effects = [.draining]) :
    (s.drain options thrown).Awaits options := by
  rw [State.drain]
  split
  · apply h.settle
    rw [Stage.Reached, heffects]
    exact script_prefix [.beginDrain, .stopping, .stop, .stopped] rfl
  · have hdrain := h.beginDrain (by simp [heffects])
    have hcalled : ({ s.record .beginDrain with draining := true } : State E).effects = [.draining, .beginDrain] :=
      (effects_record s .beginDrain).trans (by rw [heffects]; rfl)
    have hpast : ∀ t, (t, Effect.beginDrain) ∈ (s.record .beginDrain).trace → t ≤ s.now :=
      fun t ht => h.past_record (t, .beginDrain) ht
    dsimp only
    split_ifs with hdelay
    · apply hdrain.await
      · exact hcalled
      · rintro due ⟨⟩ t ht
        rw [ShutdownHandlerOptions.drainWait, if_pos hdelay]
        exact Nat.add_le_add_right (hpast t ht) _
      · intro outcome hstage
        cases hstage
    · apply stop_awaits hdrain hcalled
      intro t ht
      rw [ShutdownHandlerOptions.drainWait, if_neg hdelay]
      exact hpast t ht

theorem State.Fresh.signal (h : s.Fresh) : (s.signal options thrown).Awaits options := by
  rw [State.signal, h.started, if_neg Bool.false_ne_true]
  have hbegun : (({ s with
      shuttingDown := true
      startedAt := s.now
      deadline := if 0 < options.hardDeadlineMs then some (s.now + timeout options.hardDeadlineMs) else none } :
        State E).record .draining).Begun options := by
    constructor
    case started => rfl
    case draining => simp [State.record, State.effects, h.trace, h.draining]
    case past => simp [State.record, h.trace]
    case wait => simp [State.record, h.trace]
    case armed =>
      intro due hdue
      simp only [State.record] at hdue
      split_ifs at hdue with hdeadline
      cases hdue
      exact ⟨rfl, hdeadline, h.elapsed⟩
    case elapsed => simp [State.record, h.elapsed]
    case probes =>
      intro probe hprobe
      rw [effects_record]
      exact (h.probes probe hprobe).append [.draining]
  dsimp only
  split
  · apply hbegun.settle
    rw [Stage.Reached, effects_record, State.effects, h.trace]
    exact script_prefix [.beginDrain, .stopping, .stop, .stopped] rfl
  · apply drain_awaits hbegun
    rw [effects_record, State.effects, h.trace]
    rfl

theorem stopped_awaits (h : s.Awaits options) (hstage : s.stage = .stopping) (result : Except E Unit) :
    (s.stopped options result thrown).Awaits options := by
  have heffects : s.effects = [.draining, .beginDrain, .stopping, .stop] := by
    have hreached := h.reached
    rwa [hstage] at hreached
  cases result with
  | error error =>
    apply h.toBegun.settle
    rw [Stage.Reached, heffects]
    exact script_prefix [.stopped] rfl
  | ok _ =>
    have hstopped : (s.record .stopped).Begun options := h.toBegun.record (by decide) (by decide)
    have hcalled : (s.record .stopped).effects = [.draining, .beginDrain, .stopping, .stop, .stopped] := by
      simp [heffects]
    simp only [State.stopped]
    split
    · apply hstopped.settle
      rw [Stage.Reached, hcalled]
      exact script_prefix [] rfl
    · split_ifs with hgiven
      · apply (hstopped.record (by decide) (by decide)).await
        · simp [Stage.Reached, hcalled, ShutdownHandlerOptions.script, hgiven]
        · intro due hflushing
          cases hflushing
        · intro outcome hflushing
          cases hflushing
      · apply hstopped.settle
        simp [Stage.Reached, hcalled, ShutdownHandlerOptions.script, hgiven]

theorem State.Awaits.pass (h : s.Awaits options) (duration : Nat) :
    { s with now := s.now + duration }.Awaits options :=
  { h with past := fun entry hentry => Nat.le_trans (h.past entry hentry) (Nat.le_add_right _ _) }

theorem State.Awaits.hardDeadline (h : s.Awaits options) {due : Nat} (hdeadline : s.deadline = some due)
    (hdue : due ≤ s.now) :
    { s with deadline := none, elapsed := s.elapsed ++ [s.now - s.startedAt] }.Awaits options := by
  obtain ⟨rfl, hpositive, hnone⟩ := h.armed due hdeadline
  have hlate : timeout options.hardDeadlineMs ≤ s.now - s.startedAt := by omega
  refine { h with armed := fun _ hnew => (by cases hnew), elapsed := ?_, cleared := fun _ _ => rfl }
  simp only [hnone]
  exact ⟨Nat.le_refl 1, fun elapsed hmem => ⟨hpositive, List.mem_singleton.mp hmem ▸ hlate⟩⟩

theorem State.Awaits.withProbes (h : s.Awaits options) {probes : List (Probe E)}
    (hprobes : ∀ probe ∈ probes, probe.Answered s.effects) : { s with probes }.Awaits options :=
  { h with probes := hprobes }

def State.Sound (options : ShutdownHandlerOptions) (s : State E) : Prop := s.Fresh ∨ s.Awaits options

theorem State.Sound.draining (h : s.Sound options) : s.draining = true ↔ .beginDrain ∈ s.effects := by
  obtain hfresh | hawaits := h
  · simp [hfresh.draining, State.effects, hfresh.trace]
  · exact hawaits.draining

theorem State.Sound.probes (h : s.Sound options) : ∀ probe ∈ s.probes, probe.Answered s.effects := by
  obtain hfresh | hawaits := h
  · exact hfresh.probes
  · exact hawaits.probes

theorem State.Sound.withProbes (h : s.Sound options) {probes : List (Probe E)}
    (hprobes : ∀ probe ∈ probes, probe.Answered s.effects) : { s with probes }.Sound options := by
  obtain hfresh | hawaits := h
  · exact .inl { hfresh with probes := hprobes }
  · exact .inr (hawaits.withProbes hprobes)

theorem sound_step (h : s.Sound options) (hstep : step options s event = some t) : t.Sound options := by
  cases event with
  | signal thrown =>
    obtain rfl := Option.some.inj hstep
    obtain hfresh | hawaits := h
    · exact .inr hfresh.signal
    · rw [State.signal, hawaits.started, if_pos rfl]
      exact .inr hawaits
  | pass duration =>
    obtain rfl := Option.some.inj hstep
    obtain hfresh | hawaits := h
    · exact .inl { hfresh with }
    · exact .inr (hawaits.pass duration)
  | delayed thrown =>
    simp only [step] at hstep
    split at hstep
    · next due hstage =>
      split_ifs at hstep with hdue
      obtain rfl := Option.some.inj hstep
      obtain hfresh | hawaits := h
      · cases hfresh.stage.symm.trans hstage
      · have hreached := hawaits.reached
        rw [hstage] at hreached
        exact .inr (stop_awaits hawaits.toBegun hreached fun t ht =>
          Nat.le_trans (hawaits.delayed due hstage t ht) hdue)
    · cases hstep
  | stopped result thrown =>
    simp only [step] at hstep
    split at hstep
    · next hstage =>
      obtain rfl := Option.some.inj hstep
      obtain hfresh | hawaits := h
      · cases hfresh.stage.symm.trans hstage
      · exact .inr (stopped_awaits hawaits hstage result)
    · cases hstep
  | flushed result =>
    simp only [step] at hstep
    split at hstep
    · next hstage =>
      obtain rfl := Option.some.inj hstep
      obtain hfresh | hawaits := h
      · cases hfresh.stage.symm.trans hstage
      · have hreached := hawaits.reached
        rw [hstage] at hreached
        refine .inr (hawaits.toBegun.settle ?_)
        cases result with
        | error error => exact hreached ▸ List.prefix_rfl
        | ok _ => exact hreached
    · cases hstep
  | hardDeadline =>
    simp only [step] at hstep
    split at hstep
    · next due hdeadline =>
      split_ifs at hstep with hdue
      obtain rfl := Option.some.inj hstep
      obtain hfresh | hawaits := h
      · cases hfresh.deadline.symm.trans hdeadline
      · exact .inr (hawaits.hardDeadline hdeadline hdue)
    · cases hstep
  | ready =>
    obtain rfl := Option.some.inj hstep
    apply h.withProbes
    intro probe hprobe
    obtain hprobe | hprobe := List.mem_append.mp hprobe
    · exact h.probes probe hprobe
    · obtain rfl := List.mem_singleton.mp hprobe
      exact ready_answered h.draining
  | evaluated i checks =>
    simp only [step] at hstep
    split at hstep
    · next probe hprobe =>
      split at hstep
      · next hwaits =>
        obtain rfl := Option.some.inj hstep
        apply h.withProbes
        intro other hother
        obtain hother | rfl := List.mem_or_eq_of_mem_set hother
        · exact h.probes other hother
        · exact (h.probes probe (List.mem_of_getElem? hprobe)).evaluated hwaits checks
      · cases hstep
    · cases hstep

theorem sound_run (hrun : run (step options) {} events = some s) : s.Sound options :=
  invariant (fun _ _ _ h hstep => sound_step h hstep)
    (.inl ⟨rfl, rfl, rfl, rfl, rfl, rfl, fun _ hprobe => absurd hprobe List.not_mem_nil⟩) hrun

theorem settled_step (h : s.Awaits options) (hsettled : s.stage = .settled outcome)
    (hstep : step options s event = some t) : t.effects = s.effects ∧ t.elapsed = s.elapsed ∧ t.stage = s.stage := by
  cases event with
  | signal thrown =>
    obtain rfl := Option.some.inj hstep
    rw [State.signal, h.started, if_pos rfl]
    exact ⟨rfl, rfl, rfl⟩
  | pass duration =>
    obtain rfl := Option.some.inj hstep
    exact ⟨rfl, rfl, rfl⟩
  | hardDeadline =>
    rw [step, h.cleared outcome hsettled] at hstep
    cases hstep
  | ready =>
    obtain rfl := Option.some.inj hstep
    exact ⟨rfl, rfl, rfl⟩
  | evaluated i checks =>
    simp only [step] at hstep
    split at hstep
    · split at hstep
      · obtain rfl := Option.some.inj hstep
        exact ⟨rfl, rfl, rfl⟩
      · cases hstep
    · cases hstep
  | _ =>
    simp only [step, hsettled] at hstep
    cases hstep

theorem settled_run (h : s.Awaits options) (hsettled : s.stage = .settled outcome)
    (hrun : run (step options) s events = some t) :
    t.effects = s.effects ∧ t.elapsed = s.elapsed ∧ t.stage = s.stage := by
  have hinvariant : t.Awaits options ∧ t.effects = s.effects ∧ t.elapsed = s.elapsed ∧ t.stage = s.stage := by
    apply invariant (fun u e v hu hstep => _) _ hrun
    · intro u e v hu hstep
      obtain ⟨hawaits, heffects, helapsed, hstage⟩ := hu
      obtain ⟨heffects', helapsed', hstage'⟩ := settled_step hawaits (hstage.trans hsettled) hstep
      obtain hfresh | hawaits' := sound_step (.inr hawaits) hstep
      · cases hfresh.stage.symm.trans (hstage'.trans (hstage.trans hsettled))
      · exact ⟨hawaits', heffects'.trans heffects, helapsed'.trans helapsed, hstage'.trans hstage⟩
    · exact ⟨h, rfl, rfl, rfl⟩
  exact hinvariant.2

theorem Stage.Reached.isPrefix {stage : Stage E} {effects : List Effect} (h : stage.Reached options effects) :
    effects <+: options.script := by
  cases stage with
  | idle => exact h ▸ List.nil_prefix
  | delay due => exact h ▸ script_prefix [.stopping, .stop, .stopped] rfl
  | stopping => exact h ▸ script_prefix [.stopped] rfl
  | flushing => exact h ▸ List.prefix_rfl
  | settled outcome =>
    cases outcome with
    | error error => exact h
    | ok _ => exact h ▸ List.prefix_rfl

structure State.Orderly (options : ShutdownHandlerOptions) (s : State E) : Prop where
  script : s.effects <+: options.script
  wait : options.drainDelayMs ≤ TIMEOUT_MAX →
    ∀ t t', (t, .beginDrain) ∈ s.trace → (t', .stop) ∈ s.trace → t + options.drainDelayMs ≤ t'
  probes : ∀ probe ∈ s.probes, probe.Answered s.effects
  deadline : s.elapsed.length ≤ 1 ∧ ∀ elapsed ∈ s.elapsed, 0 < options.hardDeadlineMs ∧
    (options.hardDeadlineMs ≤ TIMEOUT_MAX → options.hardDeadlineMs ≤ elapsed)
  completes : s.stage = .settled (.ok ()) → s.effects = options.script
  settled : ∀ outcome, s.stage = .settled outcome → ∀ later t, run (step options) s later = some t →
    t.effects = s.effects ∧ t.elapsed = s.elapsed ∧ t.stage = s.stage

theorem State.Sound.orderly (h : s.Sound options) : s.Orderly options := by
  obtain hfresh | hawaits := h
  · constructor
    case script => simp [State.effects, hfresh.trace]
    case wait => simp [hfresh.trace]
    case probes => exact hfresh.probes
    case deadline => simp [hfresh.elapsed]
    case completes => exact fun hsettled => by cases hfresh.stage.symm.trans hsettled
    case settled => exact fun _ hsettled => by cases hfresh.stage.symm.trans hsettled
  · constructor
    case script => exact hawaits.reached.isPrefix
    case wait => exact fun hshort => drainWait_eq hshort ▸ hawaits.wait
    case probes => exact hawaits.probes
    case deadline =>
      refine ⟨hawaits.elapsed.1, fun elapsed helapsed => ?_⟩
      obtain ⟨hpositive, hlate⟩ := hawaits.elapsed.2 elapsed helapsed
      exact ⟨hpositive, fun hshort => timeout_eq hshort ▸ hlate⟩
    case completes =>
      intro hsettled
      have hreached := hawaits.reached
      rwa [hsettled] at hreached
    case settled => exact fun outcome hsettled later t hrun => settled_run hawaits hsettled hrun

theorem orderly_run (hrun : run (step options) {} events = some s) : s.Orderly options := (sound_run hrun).orderly

def overrun : List (Event Nat) :=
  [.pass 3, .ready, .signal {}, .pass 2, .signal {}, .ready, .evaluated 0 (.ok []), .pass 3, .delayed {}, .pass 5,
    .hardDeadline, .signal {}, .stopped (.ok ()) {}, .flushed (.ok ()), .signal {}]

theorem orderly_overrun :
    ∃ s, run (step ⟨5, 10, true⟩) {} overrun = some s ∧ s.Orderly ⟨5, 10, true⟩ ∧
      s.trace = [(3, .draining), (3, .beginDrain), (8, .stopping), (8, .stop), (13, .stopped), (13, .onStopped)] ∧
      s.elapsed = [10] ∧
      s.probes.map (fun probe => probe.answer) = [some (.ok (200, .pass)), some (.ok (503, .fail))] := by
  obtain ⟨s, hrun, hshape⟩ : ∃ s, run (step ⟨5, 10, true⟩) {} overrun = some s ∧
      s.trace = [(3, .draining), (3, .beginDrain), (8, .stopping), (8, .stop), (13, .stopped), (13, .onStopped)] ∧
      s.elapsed = [10] ∧
      s.probes.map (fun probe => probe.answer) = [some (.ok (200, .pass)), some (.ok (503, .fail))] :=
    ⟨_, rfl, rfl, rfl, rfl⟩
  exact ⟨s, hrun, orderly_run hrun, hshape⟩

end HomelabApps.Health.Shutdown
