import HomelabApps.Library.Transition

/-! `useApiStatus` with online awareness: reports, the browser's offline and online events, and recovery probes, between
which the component renders whenever it comes to it. -/

namespace HomelabApps.UiRuntime

inductive ApiStatus
  | ok | degraded | unreachable | unauthenticated
  deriving DecidableEq, Repr

inductive RequestOutcome
  | success
  | serverError (status : Nat)
  | clientError (status : Nat)
  | unauthorized (status : Nat)
  | network
  deriving DecidableEq, Repr

def statusForOutcome : RequestOutcome → ApiStatus
  | .success | .clientError _ => .ok
  | .unauthorized _ => .unauthenticated
  | .serverError _ => .degraded
  | .network => .unreachable

structure RecoveryProbeOptions where
  initialDelayMs : Option Nat
  maxDelayMs : Option Nat
  deriving DecidableEq

def DEFAULT_INITIAL_DELAY_MS : Nat := 2000

def DEFAULT_MAX_DELAY_MS : Nat := 60000

/-- Where the attempts of one run of the probe effect are: a timer is set, a probe is awaited, or they are over. A probe
that is not there any more answers no. -/
inductive Attempt
  | scheduled
  | probing (asked : Bool)
  | over
  deriving DecidableEq

structure ProbeEffect where
  cancelled : Bool
  delay : Nat
  maxDelayMs : Nat
  attempt : Attempt
  deriving DecidableEq

/-- `status` is what was rendered last, `pending` what has been set since. `effectStatus` is the status that the probe
effect last ran for. -/
structure Hook where
  status : ApiStatus
  pending : Option ApiStatus
  offlineRef : Option ApiStatus
  statusRef : ApiStatus
  probeRef : Option RecoveryProbeOptions
  effects : List ProbeEffect
  effectStatus : ApiStatus
  deriving DecidableEq

def Hook.mount (recoveryProbe : Option RecoveryProbeOptions) : Hook where
  status := .ok
  pending := none
  offlineRef := none
  statusRef := .ok
  probeRef := recoveryProbe
  effects := []
  effectStatus := .ok

def Hook.setStatus (hook : Hook) (status : ApiStatus) : Hook := { hook with pending := some status }

def Hook.shown (hook : Hook) : ApiStatus := hook.pending.getD hook.status

def Hook.report (hook : Hook) (outcome : RequestOutcome) : Hook :=
  { hook with offlineRef := none }.setStatus (statusForOutcome outcome)

def Hook.goOffline (hook : Hook) : Hook :=
  { hook with offlineRef := hook.offlineRef.or (some hook.statusRef) }.setStatus .unreachable

def Hook.goOnline (hook : Hook) : Hook :=
  match hook.offlineRef with
  | some saved => { hook.setStatus saved with offlineRef := none }
  | none => hook

def ProbeEffect.start (options : RecoveryProbeOptions) : ProbeEffect where
  cancelled := false
  delay := options.initialDelayMs.getD DEFAULT_INITIAL_DELAY_MS
  maxDelayMs := options.maxDelayMs.getD DEFAULT_MAX_DELAY_MS
  attempt := .scheduled

def Hook.flushEffects (hook : Hook) : Hook :=
  if hook.effectStatus = hook.status then hook
  else
    let cancelled := hook.effects.map fun effect => { effect with cancelled := true }
    let started := if hook.status = .ok then [] else hook.probeRef.toList.map ProbeEffect.start
    { hook with effects := cancelled ++ started, effectStatus := hook.status }

def Hook.render (hook : Hook) (recoveryProbe : Option RecoveryProbeOptions) : Hook :=
  let hook := hook.flushEffects
  { hook with
    status := hook.shown
    pending := none
    statusRef := hook.shown
    probeRef := recoveryProbe }

def Hook.setEffect (hook : Hook) (i : Nat) (effect : ProbeEffect) : Hook :=
  { hook with effects := hook.effects.set i effect }

/-- A timer fires, unless it was cleared; a hidden tab only sets it again. -/
def Hook.timer (hook : Hook) (i : Nat) (hidden : Bool) : Option Hook :=
  match hook.effects[i]? with
  | none => none
  | some effect =>
    if effect.cancelled || effect.attempt ≠ .scheduled then none
    else if hidden then some hook
    else some (hook.setEffect i { effect with attempt := .probing hook.probeRef.isSome })

/-- A probe answers; one that fails answers no. -/
def Hook.settle (hook : Hook) (i : Nat) (recovered : Bool) : Option Hook :=
  match hook.effects[i]? with
  | none => none
  | some effect =>
    match effect.attempt with
    | .scheduled | .over => none
    | .probing asked =>
      if recovered && !asked then none
      else if effect.cancelled then some (hook.setEffect i { effect with attempt := .over })
      else if recovered then some ((hook.setEffect i { effect with attempt := .over }).setStatus .ok)
      else
        let delay := Nat.min (effect.delay * 2) effect.maxDelayMs
        some (hook.setEffect i { effect with delay := delay, attempt := .scheduled })

inductive Event
  | report (outcome : RequestOutcome)
  | offline
  | online
  | render (recoveryProbe : Option RecoveryProbeOptions)
  | flush
  | timer (i : Nat) (hidden : Bool)
  | settle (i : Nat) (recovered : Bool)
  deriving DecidableEq

structure World where
  hook : Hook
  evidence : ApiStatus
  away : Bool
  deriving DecidableEq

def World.start (recoveryProbe : Option RecoveryProbeOptions) : World where
  hook := Hook.mount recoveryProbe
  evidence := .ok
  away := false

/-- A probe that was cancelled is no evidence. -/
def Hook.isCancelled (hook : Hook) (i : Nat) : Bool := (hook.effects[i]?).any (·.cancelled)

def step (world : World) : Event → Option World
  | .report outcome =>
    some { world with hook := world.hook.report outcome, evidence := statusForOutcome outcome }
  | .offline => some { world with hook := world.hook.goOffline, away := true }
  | .online => some { world with hook := world.hook.goOnline, away := false }
  | .render recoveryProbe => some { world with hook := world.hook.render recoveryProbe }
  | .flush => some { world with hook := world.hook.flushEffects }
  | .timer i hidden => (world.hook.timer i hidden).map fun hook => { world with hook := hook }
  | .settle i recovered => (world.hook.settle i recovered).map fun hook => {
      world with
      hook := hook
      evidence := if recovered && !world.hook.isCancelled i then .ok else world.evidence }

end HomelabApps.UiRuntime
