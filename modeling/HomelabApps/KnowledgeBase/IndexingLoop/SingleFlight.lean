import HomelabApps.KnowledgeBase.IndexingLoop.Steps

namespace HomelabApps.KnowledgeBase.IndexingLoop

open HomelabApps.Library

variable {c : Config} {s t : State} {e : Event} {es : List Event} {r : Run}

/-- While a run is in flight (until `start` resumes after it) it is the only one and the fields
of the service are its own, so that requests queue behind it and `$onDestroy` stops it. -/
structure SingleFlight (s : State) : Prop where
  atMostOne : s.runs.length ≤ 1
  running : ∀ r ∈ s.runs, s.running = some r.id
  abort : ∀ r ∈ s.runs, r.phase ≠ .settled → s.abort = some r.id
  isRunning : s.runs ≠ [] → s.isRunning = true
  queues : s.runs ≠ [] → ∀ request, (s.trigger request).log = s.log ++ [.queued request]
  awaits : ∀ r ∈ s.runs, s.onDestroy.awaiting = some (some r.id)
  aborts : ∀ r ∈ s.runs, r.phase ≠ .settled → { r with aborted := true } ∈ s.onDestroy.runs

inductive Flight (s : State) : Prop
  | idle : s.runs = [] → s.running = none → Flight s
  | one (r : Run) : s.runs = [r] → s.running = some r.id →
      (r.phase ≠ .settled → s.abort = some r.id) → Flight s

theorem Flight.singleFlight (h : Flight s) : SingleFlight s := by
  cases h with
  | idle hr hn => constructor <;> simp [hr]
  | one r hr hrun ha =>
    constructor <;> simp [hr, hrun, State.isRunning, State.trigger, State.onDestroy]
    · exact ha
    · intro hp
      simp [ha hp]

theorem Flight.congr (h : Flight s) (hr : t.runs = s.runs) (hn : t.running = s.running)
    (ha : t.abort = s.abort) : Flight t := by
  cases h with
  | idle h1 h2 => exact .idle (hr.trans h1) (hn.trans h2)
  | one r h1 h2 h3 => exact .one r (hr.trans h1) (hn.trans h2) fun hp => ha.trans (h3 hp)

theorem Flight.start (h : s.runs = []) (request : RunRequest) (o : Origin) :
    Flight (s.start request o) :=
  .one _ (by simp [State.start, h]; rfl) rfl fun _ => rfl

theorem Flight.of_mem (h : Flight s) (hr : r ∈ s.runs) :
    s.runs = [r] ∧ s.running = some r.id ∧ (r.phase ≠ .settled → s.abort = some r.id) := by
  cases h with
  | idle h _ => simp [h] at hr
  | one r' h1 h2 h3 =>
    obtain rfl : r = r' := by simpa [h1] using hr
    exact ⟨h1, h2, h3⟩

theorem Flight.settle (h : Flight s) (hr : r ∈ s.runs) : Flight (s.settle r.id) := by
  obtain ⟨hruns, hrunning, -⟩ := h.of_mem hr
  exact .one { r with phase := .settled } (by simp [State.settle, State.setPhase, hruns])
    hrunning (by simp)

theorem Flight.leave (h : Flight s) (hr : r ∈ s.runs) : (s.leave r.id).runs = [] := by
  simp [State.leave, (h.of_mem hr).1]

theorem Flight.step (h : Flight s) (hfire : e = .fire → s.runs = [])
    (hstep : step c s e = some t) : Flight t := by
  cases step_cases hstep with
  | onReady => exact h.congr rfl rfl rfl
  | arm => exact h.congr rfl rfl rfl
  | stayIdle => exact h.congr rfl rfl rfl
  | fire => exact .start (s := s.disarm) (hfire rfl) _ _
  | queue => exact h.congr rfl rfl rfl
  | begin request hn =>
    cases h with
    | idle hr _ => exact .start (s := s.disarm) hr _ _
    | one r _ hr _ => simp [hr] at hn
  | takeLock r hr hp =>
    obtain ⟨hruns, hrunning, habort⟩ := h.of_mem hr
    exact .one { r with phase := .locked }
      (by simp [State.tell, State.enter, State.setPhase, hruns]) hrunning
      fun _ => habort (by simp [hp])
  | skip r hr => exact (h.congr rfl rfl rfl : Flight (s.tell r .skipped)).settle hr
  | lockFails r hr => exact (h.congr rfl rfl rfl : Flight (s.tell r .rejected)).settle hr
  | lockLost => exact h.congr rfl rfl rfl
  | finish r hr => exact (h.settle hr).congr rfl rfl rfl
  | retire r hr => exact .idle (h.leave hr) rfl
  | follow r next hr =>
    exact (Flight.start (h.leave hr) next .followUp).congr rfl rfl rfl
  | rearm r hr => exact .idle (h.leave hr) rfl
  | rest r hr => exact .idle (h.leave hr) rfl
  | onDestroy =>
    cases h with
    | idle hr hn => exact .idle (by simp [State.onDestroy, hr]) hn
    | one r hr hn ha =>
      refine .one (if s.abort = some r.id then { r with aborted := true } else r)
        (by simp [State.onDestroy, hr]) ?_ ?_
      · split <;> exact hn
      · split <;> exact ha
  | destroyed => exact h.congr rfl rfl rfl
  | otherPodLocks => exact h.congr rfl rfl rfl
  | otherPodUnlocks => exact h.congr rfl rfl rfl

/-- The end of `$onReady`, where it arms the timer, finds no run in flight. -/
def NoLateArm (c : Config) (s : State) : Event → Prop
  | .restored => c.enabled = true → s.stopped = false → s.runs = []
  | _ => True

instance (c : Config) (s : State) (e : Event) : Decidable (NoLateArm c s e) := by
  unfold NoLateArm
  split <;> infer_instance

theorem flight_no_late_arm (h : Flight s ∧ (s.timer → s.runs = [])) (hlate : NoLateArm c s e)
    (hstep : step c s e = some t) : Flight t ∧ (t.timer → t.runs = []) := by
  refine ⟨h.1.step ?_ hstep, ?_⟩
  · rintro rfl
    cases step_cases hstep with
    | fire ht => exact h.2 ht
  · cases step_cases hstep with
    | arm _ hen hstop => exact fun _ => hlate hen (by simpa using hstop)
    | fire => simp [State.start, State.disarm]
    | begin => simp [State.start, State.disarm]
    | takeLock r hr => exact fun ht => by simp [h.2 ht] at hr
    | skip r hr => exact fun ht => by simp [h.2 ht] at hr
    | lockFails r hr => exact fun ht => by simp [h.2 ht] at hr
    | finish r hr => exact fun ht => by simp [h.2 ht] at hr
    | follow r next hr => exact fun ht => by simp [h.2 ht] at hr
    | retire r hr => exact fun _ => h.1.leave hr
    | rearm r hr => exact fun _ => h.1.leave hr
    | rest r hr => exact fun _ => h.1.leave hr
    | onDestroy => simp [State.onDestroy]
    | _ => exact h.2

theorem singleFlight_of_no_late_arm (h : Transition.Along (step c) (NoLateArm c) {} es) :
    Transition.Always (step c) SingleFlight {} es := by
  have hflight := Transition.always_of_along (I := fun s => Flight s ∧ (s.timer → s.runs = []))
    (fun _ _ _ => flight_no_late_arm) ⟨.idle rfl rfl, by simp⟩ h
  exact hflight.mono fun _ hs => hs.1.singleFlight

def busyEvents : List Event :=
  [.onReady, .restored, .fire, .askLock 0, .trigger ⟨["kb"], true, true⟩, .finish 0, .resume 0, .askLock 1, .finish 1,
    .resume 1, .trigger ⟨["kb"], false, true⟩, .askLock 2, .onDestroy, .finish 2, .resume 2, .destroyed]

theorem singleFlight_of_no_late_arm_busy :
    (Transition.run (step ⟨true, ["kb"]⟩) {} busyEvents).isSome ∧
      Transition.Always (step ⟨true, ["kb"]⟩) SingleFlight {} busyEvents :=
  ⟨by decide, singleFlight_of_no_late_arm (by decide)⟩

/-- A request that arrives while `$onReady` restores starts a run; the timer `$onReady` then
arms starts a second one beside it, and takes the handles of the first. -/
theorem second_run_beside_the_first : ∃ t,
    Transition.run (step ⟨true, ["kb"]⟩) {}
      [.onReady, .trigger ⟨["kb"], false, true⟩, .askLock 0, .restored, .fire] = some t ∧
    ¬SingleFlight t :=
  ⟨_, rfl, fun h => absurd h.atMostOne (by decide)⟩

end HomelabApps.KnowledgeBase.IndexingLoop
