import HomelabApps.KnowledgeBase.IndexingLoop.Steps

namespace HomelabApps.KnowledgeBase.IndexingLoop

open HomelabApps.Library

variable {c : Config} {s t : State} {e : Event} {es : List Event}

structure Alive (c : Config) (s : State) : Prop where
  running : ∀ id, s.running = some id → id ∈ s.ids
  pending : ¬s.stopped → s.pending ≠ none → s.running ≠ none
  chain : c.enabled → s.ready → ¬s.stopped → s.ids ≠ [] ∨ s.timer

theorem Alive.start (s : State) (request : RunRequest) (o : Origin) :
    Alive c (s.start request o) where
  running id h := by
    obtain rfl : s.nextId = id := by simpa [State.start] using h
    simp
  pending _ _ := by simp [State.start]
  chain _ _ _ := by simp

theorem Alive.congr (h : Alive c s) (hi : t.ids = s.ids) (hr : t.running = s.running)
    (hp : t.pending = s.pending) (hs : t.stopped = s.stopped) (hd : t.ready = s.ready)
    (ht : t.timer = s.timer) : Alive c t where
  running id h' := hi ▸ h.running id (hr ▸ h')
  pending := by rw [hs, hp, hr]; exact h.pending
  chain := by rw [hd, hs, hi, ht]; exact h.chain

/-- One life of the service: `$onReady` is not called on it again once it was stopped. -/
def OneLife (s : State) : Event → Prop
  | .onReady => ¬s.stopped
  | _ => True

instance (s : State) (e : Event) : Decidable (OneLife s e) := by
  cases e <;> dsimp only [OneLife] <;> infer_instance

theorem Alive.step (h : Alive c s) (hlife : OneLife s e)
    (hstep : step c s e = some t) : Alive c t := by
  cases step_cases hstep with
  | onReady => exact ⟨h.running, fun _ => h.pending hlife, fun _ hd => by simp at hd⟩
  | arm => exact ⟨h.running, h.pending, fun _ _ _ => .inr rfl⟩
  | stayIdle _ hs =>
    exact ⟨h.running, h.pending, fun hen _ hn => absurd (hs hen) hn⟩
  | fire => exact .start _ _ _
  | queue request hr => exact ⟨h.running, fun _ _ => hr, h.chain⟩
  | begin => exact .start _ _ _
  | takeLock r => exact h.congr (ids_setPhase s r.id .locked) rfl rfl rfl rfl rfl
  | skip r => exact h.congr (ids_settle (s.tell r .skipped) r.id) rfl rfl rfl rfl rfl
  | lockFails r => exact h.congr (ids_settle (s.tell r .rejected) r.id) rfl rfl rfl rfl rfl
  | lockLost => exact h.congr rfl rfl rfl rfl rfl rfl
  | finish r => exact h.congr (ids_settle s r.id) rfl rfl rfl rfl rfl
  | retire r _ _ hs =>
    exact ⟨fun _ h => by simp [State.leave] at h, fun hn => absurd hs hn,
      fun _ _ hn => absurd hs hn⟩
  | follow r next =>
    have hstart := Alive.start (c := c) (s.leave r.id) next .followUp
    exact ⟨hstart.running, fun _ hp => by simp at hp, hstart.chain⟩
  | rearm r _ _ _ hp =>
    exact ⟨fun _ h => by simp [State.leave] at h, fun _ h => absurd hp h, fun _ _ _ => .inr rfl⟩
  | rest r _ _ _ hp hen =>
    exact ⟨fun _ h => by simp [State.leave] at h, fun _ h => absurd hp h,
      fun h => absurd h hen⟩
  | onDestroy =>
    exact ⟨fun id hr => by simpa using h.running id hr, fun hn => by simp [State.onDestroy] at hn,
      fun _ _ hn => by simp [State.onDestroy] at hn⟩
  | destroyed => exact h.congr rfl rfl rfl rfl rfl rfl
  | otherPodLocks => exact h.congr rfl rfl rfl rfl rfl rfl
  | otherPodUnlocks => exact h.congr rfl rfl rfl rfl rfl rfl

theorem alive_of_run (h : Transition.run (step c) {} es = some t)
    (hlife : Transition.Along (step c) OneLife {} es) : Alive c t := by
  have hinit : Alive c {} := ⟨by simp, by simp, by simp⟩
  exact (Transition.always_of_along (fun s e t hs hc hstep => hs.step hc hstep) hinit hlife).last h

theorem chain_never_dies (h : Transition.run (step c) {} es = some t)
    (hlife : Transition.Along (step c) OneLife {} es) (hen : c.enabled) (hready : t.ready)
    (hstop : ¬t.stopped) : (t.runs ≠ [] ∨ t.timer) ∧ (t.pending ≠ none → t.runs ≠ []) := by
  have halive := alive_of_run h hlife
  constructor
  · exact (halive.chain hen hready hstop).imp_left fun h => mt ids_eq_nil.mpr h
  · intro hp hr
    obtain ⟨id, hid⟩ := Option.ne_none_iff_exists'.mp (halive.pending hstop hp)
    have hmem := halive.running id hid
    rw [ids_eq_nil.mpr hr] at hmem
    simp at hmem

/-- The run of the timer is refused its lock while a request waits behind it, and another one waits
behind the run that follows. -/
theorem chain_never_dies_queued_again :
    ∃ t : State, Transition.run (step ⟨true, ["kb"]⟩) {}
      [.onReady, .restored, .fire, .trigger ⟨["kb"], true, true⟩, .otherPodLocks, .askLock 0, .resume 0,
        .trigger ⟨["kb"], false, false⟩] = some t ∧ t.pending = some ⟨["kb"], false, false⟩ ∧
      (t.runs ≠ [] ∨ t.timer) ∧ t.runs ≠ [] := by
  refine ⟨_, rfl, rfl, ?_⟩
  have h := @chain_never_dies ⟨true, ["kb"]⟩ _
    [.onReady, .restored, .fire, .trigger ⟨["kb"], true, true⟩, .otherPodLocks, .askLock 0, .resume 0,
      .trigger ⟨["kb"], false, false⟩] rfl (by decide) rfl rfl (by decide)
  exact ⟨h.1, h.2 (by decide)⟩

end HomelabApps.KnowledgeBase.IndexingLoop
