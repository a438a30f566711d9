import HomelabApps.Library.Transition
import HomelabApps.MiotBridge.PropertyPoller.Subscriptions

universe u

namespace HomelabApps.MiotBridge.PropertyPoller

open HomelabApps.Library HomelabApps.Library.Transition
open HomelabApps.MiotBridge.DeviceCommand (KeyedPropertyResult)

variable {Value : Type u}

inductive Outcome
  | success | failure | skipped
  deriving DecidableEq, Repr

inductive Startup
  | created | loading | started
  deriving DecidableEq, Repr

structure Tick where
  targets : List PollTarget
  reading : Option PollTarget := none
  deriving DecidableEq, Repr

def Tick.pending (t : Tick) : List String := (t.reading.toList ++ t.targets).map (·.deviceId)

/-- `armed` are the timers that will fire, `timer` is the handle the poller keeps of the last one;
`seen` counts the ticks that found a device subscribed, and `log` is what became of it in them. -/
structure Scheduler (Value : Type u) where
  poller : Poller Value := {}
  startup : Startup := .created
  armed : List Nat := []
  timer : Option Nat := none
  handles : Nat := 0
  ticking : Bool := false
  ticks : List Tick := []
  seen : String → Nat := fun _ => 0
  log : String → List Outcome := fun _ => []

inductive SchedulerEvent (Value : Type u)
  | init
  | loaded (stored : List (String × String))
  | add (deviceId : String) (properties : List String)
  | remove (deviceId property : String)
  | removeAll (deviceId : String)
  | fire (handle : Nat)
  | poll (tick : Nat)
  | answer (tick miotDeviceId now : Nat) (results : List (KeyedPropertyResult Value))
  | fail (tick miotDeviceId now : Nat) (results : List (KeyedPropertyResult Value))
  | finish (tick : Nat)
  | destroy

def Scheduler.scheduleNext (s : Scheduler Value) : Scheduler Value :=
  { s with
    armed := s.armed ++ [s.handles]
    timer := some s.handles
    handles := s.handles + 1 }

def Scheduler.stop (s : Scheduler Value) : Scheduler Value :=
  match s.timer with
  | some handle => { s with armed := s.armed.filter (· ≠ handle), timer := none }
  | none => s

def Scheduler.record (s : Scheduler Value) (deviceId : String) (outcome : Outcome) : Scheduler Value :=
  { s with log := Function.update s.log deviceId (s.log deviceId ++ [outcome]) }

def Scheduler.tick (s : Scheduler Value) : Scheduler Value :=
  if s.ticking then s
  else
    let (poller, due) := s.poller.dueDevices
    let isSubscribed deviceId := s.poller.subscriptions.any (·.deviceId = deviceId)
    { s with
      poller := poller
      ticking := true
      ticks := s.ticks ++ [{ targets := due }]
      seen := fun deviceId => if isSubscribed deviceId then s.seen deviceId + 1 else s.seen deviceId
      log := fun deviceId =>
        if isSubscribed deviceId ∧ s.poller.skipCycles deviceId ≠ 0 then s.log deviceId ++ [.skipped]
        else s.log deviceId }

def Scheduler.finish (s : Scheduler Value) (tick : Nat) : Scheduler Value :=
  let s := { s with ticking := false, ticks := s.ticks.eraseIdx tick }
  if s.timer.isSome then s.scheduleNext else s

def Poller.readResults [DecidableEq Value] (c : Config) (deviceId : String) (miotDeviceId now : Nat)
    (p : Poller Value) (results : List (KeyedPropertyResult Value)) : Poller Value :=
  results.foldl (fun p r => (p.readResult c deviceId miotDeviceId now r).1) p

def Poller.loadSubscriptions (p : Poller Value) (stored : List (String × String)) : Poller Value :=
  stored.foldl (fun p n => p.addSubscriptions n.1 [n.2]) p

def Scheduler.step [DecidableEq Value] (c : Config) (s : Scheduler Value) :
    SchedulerEvent Value → Option (Scheduler Value)
  | .init =>
    if s.startup = .created then some { s with startup := if c.enabled then .loading else .started }
    else none
  | .loaded stored =>
    if s.startup = .loading then
      some { s with poller := s.poller.loadSubscriptions stored, startup := .started }.scheduleNext
    else none
  | .add deviceId properties => some { s with poller := s.poller.addSubscriptions deviceId properties }
  | .remove deviceId property => some { s with poller := s.poller.removeSubscription deviceId property }
  | .removeAll deviceId => some { s with poller := s.poller.removeAllSubscriptions deviceId }
  | .fire handle =>
    if handle ∈ s.armed then some { s with armed := s.armed.erase handle }.tick else none
  | .poll tick =>
    match s.ticks[tick]? with
    | some ⟨target :: targets, none⟩ => some { s with ticks := s.ticks.set tick ⟨targets, some target⟩ }
    | _ => none
  | .answer tick miotDeviceId now results =>
    match s.ticks[tick]? with
    | some ⟨targets, some target⟩ =>
      let poller :=
        if c.enabled then
          (s.poller.readResults c target.deviceId miotDeviceId now results).recover target.deviceId
        else s.poller
      some ({ s with poller := poller, ticks := s.ticks.set tick ⟨targets, none⟩ }.record
        target.deviceId .success)
    | _ => none
  -- the read throws, or a listener does after some of its results
  | .fail tick miotDeviceId now results =>
    match s.ticks[tick]? with
    | some ⟨targets, some target⟩ =>
      let poller := (s.poller.readResults c target.deviceId miotDeviceId now results).fault c target.deviceId
      some ({ s with poller := poller, ticks := s.ticks.set tick ⟨targets, none⟩ }.record
        target.deviceId .failure)
    | _ => none
  | .finish tick =>
    match s.ticks[tick]? with
    | some ⟨[], none⟩ => some (s.finish tick)
    | _ => none
  | .destroy => some s.stop

/-- Whole rounds of a device: a read that succeeds after too few failures for a pause, or as many
failures as it takes and then the pause. -/
inductive Rounds (c : Config) : List Outcome → Prop
  | nil : Rounds c []
  | success : Rounds c log → n < c.maxErrorCount →
      Rounds c (log ++ List.replicate n .failure ++ [.success])
  | pause : Rounds c log →
      Rounds c (log ++ List.replicate c.maxErrorCount .failure ++ List.replicate c.errorSkipCycles .skipped)

inductive Paced (c : Config) (errors skips : Nat) : List Outcome → Prop
  | failing : Rounds c log → errors < c.maxErrorCount → skips = 0 →
      Paced c errors skips (log ++ List.replicate errors .failure)
  | paused : Rounds c log → errors = 0 → n + skips = c.errorSkipCycles →
      Paced c errors skips (log ++ List.replicate c.maxErrorCount .failure ++ List.replicate n .skipped)

variable {c : Config} {errors skips : Nat} {log : List Outcome}

theorem Paced.due (hmax : 0 < c.maxErrorCount) (h : Paced c errors 0 log) :
    ∃ rounds, Rounds c rounds ∧ errors < c.maxErrorCount ∧ log = rounds ++ List.replicate errors .failure := by
  cases h with
  | failing hrounds herrors hskips => exact ⟨_, hrounds, herrors, rfl⟩
  | paused hrounds herrors hskips =>
    rw [Nat.add_zero] at hskips
    refine ⟨_, hrounds.pause, by omega, ?_⟩
    rw [herrors, hskips, List.replicate_zero, List.append_nil]

theorem Paced.success (hmax : 0 < c.maxErrorCount) (h : Paced c errors 0 log) :
    Paced c 0 0 (log ++ [.success]) := by
  obtain ⟨rounds, hrounds, herrors, rfl⟩ := h.due hmax
  have hpaced := Paced.failing (hrounds.success herrors) hmax rfl
  rwa [List.replicate_zero, List.append_nil] at hpaced

theorem Paced.failure (hmax : 0 < c.maxErrorCount) (h : Paced c errors 0 log)
    (hfew : errors + 1 < c.maxErrorCount) : Paced c (errors + 1) 0 (log ++ [.failure]) := by
  obtain ⟨rounds, hrounds, herrors, rfl⟩ := h.due hmax
  rw [List.append_assoc, ← List.replicate_succ']
  exact .failing hrounds hfew rfl

theorem Paced.pause (hmax : 0 < c.maxErrorCount) (h : Paced c errors 0 log)
    (hmany : c.maxErrorCount ≤ errors + 1) : Paced c 0 c.errorSkipCycles (log ++ [.failure]) := by
  obtain ⟨rounds, hrounds, herrors, rfl⟩ := h.due hmax
  have hpaced := Paced.paused (n := 0) hrounds rfl (Nat.zero_add c.errorSkipCycles)
  rwa [List.replicate_zero, List.append_nil, show c.maxErrorCount = errors + 1 by omega,
    List.replicate_succ', ← List.append_assoc] at hpaced

theorem Paced.skip (h : Paced c errors skips log) (hskips : skips ≠ 0) :
    Paced c errors (skips - 1) (log ++ [.skipped]) := by
  cases h with
  | failing hrounds herrors hzero => exact absurd hzero hskips
  | paused hrounds herrors hsum =>
    rw [List.append_assoc, ← List.replicate_succ']
    exact .paused hrounds herrors (by omega)

theorem Paced.errors_lt (hmax : 0 < c.maxErrorCount) (h : Paced c errors skips log) :
    errors < c.maxErrorCount := by
  cases h with
  | failing hrounds herrors hskips => exact herrors
  | paused hrounds herrors hskips => omega

theorem Paced.errors_of_success (h : Paced c errors skips log) (hlast : log.getLast? = some .success) :
    errors = 0 := by
  cases h with
  | failing hrounds herrors hskips =>
    cases errors with
    | zero => rfl
    | succ n =>
      rw [List.replicate_succ', ← List.append_assoc, List.getLast?_concat] at hlast
      cases hlast
  | paused hrounds herrors hskips => exact herrors

theorem Paced.errors_of_skips (h : Paced c errors skips log) (hskips : skips ≠ 0) : errors = 0 := by
  cases h with
  | failing hrounds herrors hzero => exact absurd hzero hskips
  | paused hrounds herrors hsum => exact herrors

structure Scheduler.Good (c : Config) (s : Scheduler Value) : Prop where
  onePerDevice : s.poller.OnePerDevice
  timers : (s.ticks = [] ∧ s.ticking = false ∧ s.armed = s.timer.toList) ∨
    ∃ t, s.ticks = [t] ∧ s.ticking = true ∧ s.armed = []
  starting : s.startup ≠ .started → s.timer = none ∧ s.ticks = []
  enabled : s.startup = .loading ∨ s.timer ≠ none ∨ s.ticks ≠ [] → c.enabled = true
  once : ∀ t ∈ s.ticks, t.pending.Nodup
  due : ∀ t ∈ s.ticks, ∀ deviceId ∈ t.pending, s.poller.skipCycles deviceId = 0
  paced : ∀ deviceId,
    Paced c (s.poller.errorCounts deviceId) (s.poller.skipCycles deviceId) (s.log deviceId)
  counted : ∀ deviceId,
    (s.log deviceId).length + (s.ticks.flatMap Tick.pending).count deviceId = s.seen deviceId

section Counters

variable {p : Poller Value} {deviceId property : String} {properties : List String}

theorem counters_addSubscriptions :
    (p.addSubscriptions deviceId properties).errorCounts = p.errorCounts ∧
      (p.addSubscriptions deviceId properties).skipCycles = p.skipCycles := by
  unfold Poller.addSubscriptions
  split <;> exact ⟨rfl, rfl⟩

theorem counters_readResults [DecidableEq Value] {miotDeviceId now : Nat}
    {results : List (KeyedPropertyResult Value)} :
    (p.readResults c deviceId miotDeviceId now results).errorCounts = p.errorCounts ∧
      (p.readResults c deviceId miotDeviceId now results).skipCycles = p.skipCycles ∧
      (p.readResults c deviceId miotDeviceId now results).subscriptions = p.subscriptions := by
  induction results generalizing p with
  | nil => exact ⟨rfl, rfl, rfl⟩
  | cons r results ih =>
    rw [Poller.readResults, List.foldl_cons, ← Poller.readResults]
    have hcases := readResult_cases c deviceId miotDeviceId now p r
    generalize p.readResult c deviceId miotDeviceId now r = after at hcases ⊢
    cases hcases with
    | skipped => exact ih
    | unchanged => exact ih
    | emitted => exact ih

theorem loaded_subscriptions {stored : List (String × String)} (h : p.OnePerDevice) :
    (p.loadSubscriptions stored).OnePerDevice ∧
      (p.loadSubscriptions stored).errorCounts = p.errorCounts ∧
      (p.loadSubscriptions stored).skipCycles = p.skipCycles := by
  induction stored generalizing p with
  | nil => exact ⟨h, rfl, rfl⟩
  | cons n stored ih =>
    obtain ⟨hone, herrors, hskips⟩ := ih (OnePerDevice.addSubscriptions h n.1 [n.2])
    exact ⟨hone, herrors.trans counters_addSubscriptions.1, hskips.trans counters_addSubscriptions.2⟩

end Counters

variable {s : Scheduler Value}

theorem Scheduler.good_start (hmax : 0 < c.maxErrorCount) : Scheduler.Good c ({} : Scheduler Value) where
  onePerDevice := List.nodup_nil
  timers := .inl ⟨rfl, rfl, rfl⟩
  starting _ := ⟨rfl, rfl⟩
  enabled h := by simp at h
  once _ h := absurd h List.not_mem_nil
  due _ h := absurd h List.not_mem_nil
  paced _ := .failing .nil hmax rfl
  counted _ := rfl

theorem Scheduler.Good.subscribe {p : Poller Value} (h : s.Good c) (hone : p.OnePerDevice)
    (herrors : p.errorCounts = s.poller.errorCounts) (hskips : p.skipCycles = s.poller.skipCycles) :
    Scheduler.Good c { s with poller := p } where
  onePerDevice := hone
  timers := h.timers
  starting := h.starting
  enabled := h.enabled
  once := h.once
  due t ht deviceId hd := hskips ▸ h.due t ht deviceId hd
  paced deviceId := herrors ▸ hskips ▸ h.paced deviceId
  counted := h.counted

theorem Scheduler.Good.scheduleNext (h : s.Good c) (hstarted : s.startup = .started) (hticks : s.ticks = [])
    (hticking : s.ticking = false) (harmed : s.armed = []) (henabled : c.enabled = true) :
    s.scheduleNext.Good c where
  onePerDevice := h.onePerDevice
  timers := .inl ⟨hticks, hticking, by simp [Scheduler.scheduleNext, harmed]⟩
  starting hne := absurd hstarted hne
  enabled _ := henabled
  once := h.once
  due := h.due
  paced := h.paced
  counted := h.counted

theorem Scheduler.good_loaded {stored : List (String × String)} (h : s.Good c) (hloading : s.startup = .loading) :
    Scheduler.Good c
      { s with poller := s.poller.loadSubscriptions stored, startup := .started }.scheduleNext := by
  obtain ⟨htimer, hticks⟩ := h.starting (by simp [hloading])
  obtain ⟨hone, herrors, hskips⟩ := @loaded_subscriptions _ s.poller stored h.onePerDevice
  have hsub := h.subscribe hone herrors hskips
  have henabled := h.enabled (.inl hloading)
  obtain ⟨-, hticking, harmed⟩ := h.timers.resolve_right (by simp [hticks])
  have hstarted : Scheduler.Good c
      { s with poller := s.poller.loadSubscriptions stored, startup := .started } :=
    { hsub with
      starting := absurd rfl
      enabled := fun _ => henabled }
  exact hstarted.scheduleNext rfl hticks hticking (by rw [harmed, htimer]; rfl) henabled

theorem Scheduler.good_stop (h : s.Good c) : s.stop.Good c := by
  unfold Scheduler.stop
  split
  · rename_i handle htimer
    refine
      { h with
        timers := ?_
        starting := fun hne => ⟨rfl, (h.starting hne).2⟩
        enabled := fun hsome => h.enabled (hsome.imp_right fun hsome => .inr (hsome.resolve_left (absurd rfl))) }
    rcases h.timers with ⟨hticks, hticking, harmed⟩ | ⟨t, hticks, hticking, harmed⟩
    · exact .inl ⟨hticks, hticking, by simp [harmed, htimer]⟩
    · exact .inr ⟨t, hticks, hticking, by simp [harmed]⟩
  · exact h

theorem mem_dueDevices {p : Poller Value} {deviceId : String} :
    deviceId ∈ p.dueDevices.2.map (·.deviceId) ↔
      p.subscriptions.any (·.deviceId = deviceId) = true ∧ p.skipCycles deviceId = 0 := by
  simp only [Poller.dueDevices, List.mem_map, List.mem_filter, List.any_eq_true, decide_eq_true_eq]
  constructor
  · rintro ⟨target, ⟨hmem, hskips⟩, rfl⟩
    exact ⟨⟨target, hmem, rfl⟩, hskips⟩
  · rintro ⟨⟨target, hmem, rfl⟩, hskips⟩
    exact ⟨target, ⟨hmem, hskips⟩, rfl⟩

theorem Scheduler.good_tick (h : s.Good c) (hticks : s.ticks = []) (hticking : s.ticking = false)
    (htimer : s.timer ≠ none) : (Scheduler.tick { s with armed := [] }).Good c := by
  have hdue : (s.poller.dueDevices.2.map (·.deviceId)).Nodup :=
    List.Nodup.sublist (List.filter_sublist.map _) h.onePerDevice
  have hpending : Tick.pending { targets := s.poller.dueDevices.2 } = s.poller.dueDevices.2.map (·.deviceId) := rfl
  have hstarted : s.startup = .started := by
    by_contra hne
    exact htimer (h.starting hne).1
  unfold Scheduler.tick
  rw [hticking, if_neg Bool.false_ne_true, hticks]
  dsimp only [List.nil_append]
  refine ⟨h.onePerDevice, .inr ⟨_, rfl, rfl, rfl⟩, absurd hstarted, fun _ => h.enabled (.inr (.inl htimer)),
    ?_, ?_, ?_, ?_⟩
  · simpa [hpending] using hdue
  · intro t ht deviceId hd
    obtain rfl := List.mem_singleton.mp ht
    obtain ⟨hsub, hskips⟩ := mem_dueDevices.mp (hpending ▸ hd)
    simp [Poller.dueDevices, hskips]
  · intro deviceId
    have hpaced := h.paced deviceId
    dsimp only [Poller.dueDevices]
    by_cases hsub : s.poller.subscriptions.any (·.deviceId = deviceId) = true
    · rw [if_pos hsub]
      by_cases hskips : s.poller.skipCycles deviceId = 0
      · rw [if_neg (by simp [hskips])]
        rwa [hskips] at hpaced ⊢
      · rw [if_pos ⟨hsub, hskips⟩]
        exact hpaced.skip hskips
    · rw [if_neg hsub, if_neg (by simp [hsub])]
      exact hpaced
  · intro deviceId
    have hcounted := h.counted deviceId
    rw [hticks] at hcounted
    rw [List.flatMap_singleton, hpending]
    by_cases hsub : s.poller.subscriptions.any (·.deviceId = deviceId) = true
    · by_cases hskips : s.poller.skipCycles deviceId = 0
      · rw [List.count_eq_one_of_mem hdue (mem_dueDevices.mpr ⟨hsub, hskips⟩)]
        simpa [hsub, hskips] using hcounted
      · rw [List.count_eq_zero_of_not_mem fun hmem => hskips (mem_dueDevices.mp hmem).2]
        simpa [hsub, hskips] using hcounted
    · rw [List.count_eq_zero_of_not_mem fun hmem => hsub (mem_dueDevices.mp hmem).1]
      simpa [hsub] using hcounted

theorem Scheduler.good_fire {handle : Nat} (h : s.Good c) (hmem : handle ∈ s.armed) :
    (Scheduler.tick { s with armed := s.armed.erase handle }).Good c := by
  rcases h.timers with ⟨hticks, hticking, harmed⟩ | ⟨t, hticks, hticking, harmed⟩
  · rw [harmed, Option.mem_toList] at hmem
    have htimer : s.timer = some handle := hmem
    have hnone : s.armed.erase handle = [] := by simp [harmed, htimer]
    rw [hnone]
    exact Scheduler.good_tick h hticks hticking (by simp [htimer])
  · simp [harmed] at hmem

theorem Scheduler.Good.tick_eq {i : Nat} {t : Tick} (h : s.Good c) (ht : s.ticks[i]? = some t) :
    i = 0 ∧ s.ticks = [t] ∧ s.ticking = true ∧ s.armed = [] := by
  rcases h.timers with ⟨hticks, -⟩ | ⟨t', hticks, hticking, harmed⟩
  · simp [hticks] at ht
  · rw [hticks, List.getElem?_singleton] at ht
    split at ht
    · rename_i hi
      obtain rfl := Option.some.inj ht
      exact ⟨hi, hticks, hticking, harmed⟩
    · cases ht

theorem Scheduler.good_poll {i : Nat} {target : PollTarget} {targets : List PollTarget} (h : s.Good c)
    (ht : s.ticks[i]? = some ⟨target :: targets, none⟩) :
    Scheduler.Good c { s with ticks := s.ticks.set i ⟨targets, some target⟩ } := by
  obtain ⟨rfl, hticks, hticking, harmed⟩ := h.tick_eq ht
  have hsame : Tick.pending ⟨targets, some target⟩ = Tick.pending ⟨target :: targets, none⟩ := rfl
  have hset : s.ticks.set 0 ⟨targets, some target⟩ = [⟨targets, some target⟩] := by rw [hticks]; rfl
  rw [hset]
  refine ⟨h.onePerDevice, .inr ⟨_, rfl, hticking, harmed⟩, ?_, ?_, ?_, ?_, h.paced, ?_⟩
  · intro hne
    simp [(h.starting hne).2] at hticks
  · exact fun _ => h.enabled (.inr (.inr (by simp [hticks])))
  · simpa [hticks, hsame] using h.once
  · simpa [hticks, hsame] using h.due
  · simpa [hticks, hsame] using h.counted

theorem Scheduler.Good.read {i : Nat} {target : PollTarget} {targets : List PollTarget} {p : Poller Value}
    {outcome : Outcome} (h : s.Good c) (ht : s.ticks[i]? = some ⟨targets, some target⟩)
    (hsubs : p.subscriptions = s.poller.subscriptions)
    (herrors : ∀ d, d ≠ target.deviceId → p.errorCounts d = s.poller.errorCounts d)
    (hskips : ∀ d, d ≠ target.deviceId → p.skipCycles d = s.poller.skipCycles d)
    (hpaced : s.poller.skipCycles target.deviceId = 0 →
      Paced c (p.errorCounts target.deviceId) (p.skipCycles target.deviceId)
        (s.log target.deviceId ++ [outcome])) :
    (Scheduler.record { s with poller := p, ticks := s.ticks.set i ⟨targets, none⟩ }
      target.deviceId outcome).Good c := by
  obtain ⟨rfl, hticks, hticking, harmed⟩ := h.tick_eq ht
  have hpending : Tick.pending ⟨targets, some target⟩ = target.deviceId :: Tick.pending ⟨targets, none⟩ := rfl
  have hset : s.ticks.set 0 ⟨targets, none⟩ = [⟨targets, none⟩] := by rw [hticks]; rfl
  have honce := h.once _ (hticks ▸ List.mem_singleton_self _)
  rw [hpending, List.nodup_cons] at honce
  have hdue := h.due _ (hticks ▸ List.mem_singleton_self _)
  rw [hpending] at hdue
  rw [hset]
  refine ⟨?_, .inr ⟨_, rfl, hticking, harmed⟩, ?_, ?_, ?_, ?_, ?_, ?_⟩
  · exact (congrArg (fun l => (l.map PollTarget.deviceId).Nodup) hsubs).mpr h.onePerDevice
  · intro hne
    simp [(h.starting hne).2] at hticks
  · exact fun _ => h.enabled (.inr (.inr (by simp [hticks])))
  · simpa [Scheduler.record] using honce.2
  · intro t ht deviceId hd
    obtain rfl := List.mem_singleton.mp ht
    rw [show (Scheduler.record _ target.deviceId outcome).poller = p from rfl,
      hskips deviceId fun heq => honce.1 (heq ▸ hd)]
    exact hdue deviceId (List.mem_cons_of_mem _ hd)
  · intro deviceId
    dsimp only [Scheduler.record]
    by_cases hd : deviceId = target.deviceId
    · rw [hd, Function.update_self]
      exact hpaced (hdue _ List.mem_cons_self)
    · rw [Function.update_of_ne hd, herrors _ hd, hskips _ hd]
      exact h.paced deviceId
  · intro deviceId
    have hcounted := h.counted deviceId
    rw [hticks, List.flatMap_singleton, hpending, List.count_cons] at hcounted
    dsimp only [Scheduler.record]
    rw [List.flatMap_singleton, ← hcounted]
    by_cases hd : deviceId = target.deviceId
    · rw [hd, Function.update_self, List.length_append, List.length_singleton, if_pos (by simp)]
      omega
    · rw [Function.update_of_ne hd, if_neg (by simpa using Ne.symm hd), Nat.add_zero]

theorem Scheduler.good_finish {i : Nat} (h : s.Good c) (ht : s.ticks[i]? = some ⟨[], none⟩) :
    (s.finish i).Good c := by
  obtain ⟨rfl, hticks, hticking, harmed⟩ := h.tick_eq ht
  have henabled := h.enabled (.inr (.inr (by simp [hticks])))
  have hstarted : s.startup = .started := by
    by_contra hne
    simp [(h.starting hne).2] at hticks
  have hnone : s.ticks.eraseIdx 0 = [] := by rw [hticks]; rfl
  have hcounted := h.counted
  rw [hticks] at hcounted
  unfold Scheduler.finish
  rw [hnone]
  dsimp only
  split
  · rename_i htimer
    refine ⟨h.onePerDevice, .inl ⟨rfl, rfl, ?_⟩, absurd hstarted, fun _ => henabled, by simp [Scheduler.scheduleNext],
      by simp [Scheduler.scheduleNext], h.paced, hcounted⟩
    simp [Scheduler.scheduleNext, harmed]
  · rename_i htimer
    refine ⟨h.onePerDevice, .inl ⟨rfl, rfl, ?_⟩, absurd hstarted, fun _ => henabled, by simp, by simp, h.paced, hcounted⟩
    simpa [harmed] using htimer

variable [DecidableEq Value]

theorem Scheduler.good_answer {i miotDeviceId now : Nat} {results : List (KeyedPropertyResult Value)}
    {target : PollTarget} {targets : List PollTarget} (hmax : 0 < c.maxErrorCount) (h : s.Good c)
    (ht : s.ticks[i]? = some ⟨targets, some target⟩) :
    (Scheduler.record
      { s with
        poller :=
          if c.enabled then
            (s.poller.readResults c target.deviceId miotDeviceId now results).recover target.deviceId
          else s.poller
        ticks := s.ticks.set i ⟨targets, none⟩ }
      target.deviceId .success).Good c := by
  obtain ⟨-, hticks, -⟩ := h.tick_eq ht
  have henabled := h.enabled (.inr (.inr (by simp [hticks])))
  obtain ⟨herrors, hskips, hsubs⟩ :=
    @counters_readResults _ c s.poller target.deviceId _ miotDeviceId now results
  rw [if_pos henabled]
  apply h.read ht
  · exact hsubs
  · intro d hd
    dsimp only [Poller.recover]
    rw [Function.update_of_ne hd, herrors]
  · intro d hd
    dsimp only [Poller.recover]
    rw [hskips]
  · intro hzero
    have hpaced := h.paced target.deviceId
    rw [hzero] at hpaced
    dsimp only [Poller.recover]
    rw [Function.update_self, hskips, hzero]
    exact hpaced.success hmax

theorem Scheduler.good_fail {i miotDeviceId now : Nat} {results : List (KeyedPropertyResult Value)}
    {target : PollTarget} {targets : List PollTarget} (hmax : 0 < c.maxErrorCount) (h : s.Good c)
    (ht : s.ticks[i]? = some ⟨targets, some target⟩) :
    (Scheduler.record
      { s with
        poller := (s.poller.readResults c target.deviceId miotDeviceId now results).fault c target.deviceId
        ticks := s.ticks.set i ⟨targets, none⟩ }
      target.deviceId .failure).Good c := by
  obtain ⟨herrors, hskips, hsubs⟩ :=
    @counters_readResults _ c s.poller target.deviceId _ miotDeviceId now results
  have hpaced := h.paced target.deviceId
  unfold Poller.fault
  rw [herrors, hskips]
  dsimp only
  split
  · rename_i hmany
    apply h.read ht
    · exact hsubs
    · exact fun d hd => Function.update_of_ne hd ..
    · exact fun d hd => Function.update_of_ne hd ..
    · intro hzero
      rw [hzero] at hpaced
      dsimp only
      rw [Function.update_self, Function.update_self]
      exact hpaced.pause hmax hmany
  · rename_i hfew
    apply h.read ht
    · exact hsubs
    · exact fun d hd => Function.update_of_ne hd ..
    · exact fun _ _ => rfl
    · intro hzero
      rw [hzero] at hpaced
      dsimp only
      rw [Function.update_self, hzero]
      exact hpaced.failure hmax (Nat.not_le.mp hfew)

theorem Scheduler.good_step (hmax : 0 < c.maxErrorCount) (s : Scheduler Value) (e : SchedulerEvent Value)
    (t : Scheduler Value) (h : s.Good c) (hstep : s.step c e = some t) : t.Good c := by
  cases e with
  | init =>
    obtain ⟨hcreated, hinit⟩ := Option.ite_none_right_eq_some.mp hstep
    cases hinit
    obtain ⟨htimer, hticks⟩ := h.starting (by simp [hcreated])
    refine { h with starting := fun _ => ⟨htimer, hticks⟩, enabled := ?_ }
    rintro (hloading | hsome | hne)
    · by_contra hdisabled
      simp [hdisabled] at hloading
    · exact absurd htimer hsome
    · exact absurd hticks hne
  | loaded stored =>
    obtain ⟨hloading, hloaded⟩ := Option.ite_none_right_eq_some.mp hstep
    cases hloaded
    exact good_loaded h hloading
  | add deviceId properties =>
    cases hstep
    exact h.subscribe (OnePerDevice.addSubscriptions h.onePerDevice _ _) counters_addSubscriptions.1
      counters_addSubscriptions.2
  | remove deviceId property =>
    cases hstep
    exact h.subscribe (OnePerDevice.removeSubscription h.onePerDevice _ _) rfl rfl
  | removeAll deviceId =>
    cases hstep
    exact h.subscribe (OnePerDevice.removeAllSubscriptions h.onePerDevice _) rfl rfl
  | fire handle =>
    obtain ⟨hmem, hfire⟩ := Option.ite_none_right_eq_some.mp hstep
    cases hfire
    exact good_fire h hmem
  | poll i =>
    simp only [Scheduler.step] at hstep
    split at hstep
    · rename_i ht
      cases hstep
      exact good_poll h ht
    · cases hstep
  | answer i miotDeviceId now results =>
    simp only [Scheduler.step] at hstep
    split at hstep
    · rename_i ht
      cases hstep
      exact good_answer hmax h ht
    · cases hstep
  | fail i miotDeviceId now results =>
    simp only [Scheduler.step] at hstep
    split at hstep
    · rename_i ht
      cases hstep
      exact good_fail hmax h ht
    · cases hstep
  | finish i =>
    simp only [Scheduler.step] at hstep
    split at hstep
    · rename_i ht
      cases hstep
      exact good_finish h ht
    · cases hstep
  | destroy =>
    cases hstep
    exact good_stop h

structure Scheduler.BacksOff (c : Config) (s : Scheduler Value) : Prop where
  timer : s.armed.length ≤ 1
  tick : s.ticks.length ≤ 1 ∧ (s.ticks ≠ [] → s.armed = [])
  counted : ∀ deviceId,
    (s.log deviceId).length + (s.ticks.flatMap Tick.pending).count deviceId = s.seen deviceId
  errors : ∀ deviceId, s.poller.errorCounts deviceId < c.maxErrorCount
  success : ∀ deviceId, (s.log deviceId).getLast? = some .success → s.poller.errorCounts deviceId = 0
  pause : ∀ deviceId, s.poller.skipCycles deviceId ≠ 0 → s.poller.errorCounts deviceId = 0
  paced : ∀ deviceId,
    Paced c (s.poller.errorCounts deviceId) (s.poller.skipCycles deviceId) (s.log deviceId)

theorem backs_off {events : List (SchedulerEvent Value)} (hmax : 0 < c.maxErrorCount)
    (h : run (Scheduler.step c) {} events = some s) : s.BacksOff c := by
  have hgood := invariant (Scheduler.good_step hmax) (Scheduler.good_start hmax) h
  refine ⟨?_, ?_, hgood.counted, fun d => ?_, fun d hlast => ?_, fun d hskips => ?_, hgood.paced⟩
  · rcases hgood.timers with ⟨-, -, harmed⟩ | ⟨t, -, -, harmed⟩
    · rw [harmed]
      cases s.timer <;> simp
    · simp [harmed]
  · rcases hgood.timers with ⟨hticks, -⟩ | ⟨t, hticks, -, harmed⟩
    · simp [hticks]
    · simp [hticks, harmed]
  · exact (hgood.paced d).errors_lt hmax
  · exact (hgood.paced d).errors_of_success hlast
  · exact (hgood.paced d).errors_of_skips hskips

def backOffConfig : Config := ⟨true, true, 2, 1⟩

def backOffEvents : List (SchedulerEvent Nat) :=
  [.init, .loaded [("a", "vacuum:mode")], .fire 0, .poll 0, .fail 0 0 0 [], .finish 0, .fire 1, .poll 0,
    .fail 0 0 0 [], .finish 0, .add "b" ["fan:level"], .fire 2, .poll 0, .answer 0 7 1 [], .finish 0, .fire 3,
    .poll 0, .answer 0 1 2 [], .poll 0, .answer 0 7 3 [], .finish 0]

theorem backs_off_twice :
    ∃ s : Scheduler Nat, s.log "a" = [.failure, .failure, .skipped, .success] ∧
      s.log "b" = [.success, .success] ∧ s.BacksOff backOffConfig := by
  have hlogs : (run (Scheduler.step backOffConfig) {} backOffEvents).map (fun s => (s.log "a", s.log "b")) =
      some ([.failure, .failure, .skipped, .success], [.success, .success]) := by
    decide +kernel
  obtain ⟨s, hs, hlog⟩ := Option.map_eq_some_iff.mp hlogs
  obtain ⟨ha, hb⟩ := Prod.mk.inj hlog
  exact ⟨s, ha, hb, backs_off (by decide) hs⟩

/-- With `maxErrorCount: 0` no counter is below it, not even before the first tick. -/
theorem errors_not_below_zero :
    ∃ s : Scheduler Nat, run (Scheduler.step ⟨true, true, 0, 1⟩) {} [.init, .loaded [("a", "vacuum:mode")]] =
      some s ∧ s.armed = [0] ∧ ¬s.poller.errorCounts "a" < 0 := by
  refine ⟨_, rfl, rfl, ?_⟩
  decide +kernel

end HomelabApps.MiotBridge.PropertyPoller
