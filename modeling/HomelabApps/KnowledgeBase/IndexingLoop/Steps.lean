import HomelabApps.KnowledgeBase.IndexingLoop

namespace HomelabApps.KnowledgeBase.IndexingLoop

variable {c : Config} {s t : State} {e : Event} {r : Run} {id : Nat} {p : Phase}

theorem State.at_eq_some (h : s.at id p = some r) : r ∈ s.runs ∧ r.id = id ∧ r.phase = p := by
  have hr := List.find?_some h
  exact ⟨List.mem_of_find?_eq_some h, by simpa using hr⟩

inductive Step (c : Config) (s : State) : Event → State → Prop
  | onReady :
    Step c s .onReady { s with stopped := false, restoring := s.restoring + 1, ready := false }
  | arm : s.restoring ≠ 0 → c.enabled → ¬s.stopped →
    Step c s .restored { s.restored with timer := true }
  | stayIdle : s.restoring ≠ 0 → (c.enabled → s.stopped) → Step c s .restored s.restored
  | fire : s.timer → (∀ r ∈ s.runs, r.phase ≠ .settled) →
    Step c s .fire (s.disarm.start ⟨c.knowledgeBases, false, false⟩ .timer)
  | queue (request : RunRequest) : s.running ≠ none → Step c s (.trigger request)
      { s with pending := some (merge s.pending request), log := s.log ++ [.queued request] }
  | begin (request : RunRequest) : s.running = none →
    Step c s (.trigger request) (s.disarm.start request .trigger)
  | takeLock (r : Run) : r ∈ s.runs → r.phase = .asking → s.lock = none →
    Step c s (.askLock r.id) ((s.enter r).tell r .started)
  | skip (r : Run) : r ∈ s.runs → r.phase = .asking → s.lock ≠ none →
    Step c s (.askLock r.id) ((s.tell r .skipped).settle r.id)
  | lockFails (r : Run) : r ∈ s.runs → r.phase = .asking →
    Step c s (.lockFails r.id) ((s.tell r .rejected).settle r.id)
  | lockLost (id : Nat) : s.lock = some (.run id) → Step c s (.lockLost id) { s with lock := none }
  | finish (r : Run) : r ∈ s.runs → r.phase = .locked → Step c s (.finish r.id) (s.finish r.id)
  | retire (r : Run) : r ∈ s.runs → r.phase = .settled → s.stopped →
    Step c s (.resume r.id) (s.leave r.id)
  | follow (r : Run) (next : RunRequest) : r ∈ s.runs → r.phase = .settled → ¬s.stopped → s.pending = some next →
    Step c s (.resume r.id) { (s.leave r.id).start next .followUp with pending := none }
  | rearm (r : Run) : r ∈ s.runs → r.phase = .settled → ¬s.stopped → s.pending = none → c.enabled →
    Step c s (.resume r.id) { s.leave r.id with timer := true }
  | rest (r : Run) : r ∈ s.runs → r.phase = .settled → ¬s.stopped → s.pending = none → ¬c.enabled →
    Step c s (.resume r.id) (s.leave r.id)
  | onDestroy : Step c s .onDestroy s.onDestroy
  | destroyed (run : Option Nat) : s.awaiting = some run → (∀ r ∈ s.runs, run ≠ some r.id) →
    Step c s .destroyed { s with destroyed := true, awaiting := none }
  | otherPodLocks : s.lock = none → Step c s .otherPodLocks { s with lock := some .otherPod }
  | otherPodUnlocks : s.lock = some .otherPod → Step c s .otherPodUnlocks { s with lock := none }

theorem resume_step (hr : r ∈ s.runs) (hp : r.phase = .settled) :
    Step c s (.resume r.id) (s.resume c r.id) := by
  simp only [State.resume, State.follow]
  split
  · rename_i hstop
    exact .retire r hr hp hstop
  · rename_i hstop
    split
    · rename_i next hnext
      exact .follow r next hr hp hstop hnext
    · rename_i hnone
      split
      · rename_i hen
        rw [State.schedule, if_neg hstop]
        exact .rearm r hr hp hstop hnone hen
      · rename_i hen
        exact .rest r hr hp hstop hnone hen

theorem step_cases (h : step c s e = some t) : Step c s e t := by
  cases e with
  | onReady => cases h; exact .onReady
  | restored =>
    simp only [step] at h
    split at h
    · cases h
    · rename_i hr
      cases h
      split
      · rename_i hen
        unfold State.schedule
        split
        · rename_i hstop
          exact .stayIdle hr fun _ => hstop
        · rename_i hstop
          exact .arm hr hen hstop
      · rename_i hen
        exact .stayIdle hr fun h => absurd h hen
  | fire =>
    simp only [step] at h
    split at h
    · rename_i hf
      cases h
      exact .fire hf.1 hf.2
    · cases h
  | trigger request =>
    cases h
    unfold State.trigger
    split
    · rename_i hs
      exact .queue request (by intro hn; simp [hn] at hs)
    · rename_i hs
      exact .begin request (by simpa using hs)
  | askLock id =>
    obtain ⟨r, hr, rfl⟩ := Option.map_eq_some_iff.mp h
    obtain ⟨hmem, rfl, hp⟩ := State.at_eq_some hr
    unfold State.askLock
    split
    · rename_i hl
      exact .takeLock r hmem hp hl
    · rename_i hl
      exact .skip r hmem hp hl
  | lockFails id =>
    obtain ⟨r, hr, rfl⟩ := Option.map_eq_some_iff.mp h
    obtain ⟨hmem, rfl, hp⟩ := State.at_eq_some hr
    exact .lockFails r hmem hp
  | lockLost id =>
    simp only [step] at h
    split at h
    · rename_i hl; cases h; exact .lockLost id hl
    · cases h
  | finish id =>
    obtain ⟨r, hr, rfl⟩ := Option.map_eq_some_iff.mp h
    obtain ⟨hmem, rfl, hp⟩ := State.at_eq_some hr
    exact .finish r hmem hp
  | resume id =>
    obtain ⟨r, hr, rfl⟩ := Option.map_eq_some_iff.mp h
    obtain ⟨hmem, rfl, hp⟩ := State.at_eq_some hr
    exact resume_step hmem hp
  | onDestroy => cases h; exact .onDestroy
  | destroyed =>
    simp only [step] at h
    split at h
    · cases h
    · rename_i run hrun
      split at h
      · rename_i hd; cases h; exact .destroyed run hrun hd
      · cases h
  | otherPodLocks =>
    simp only [step] at h
    split at h
    · rename_i hl; cases h; exact .otherPodLocks hl
    · cases h
  | otherPodUnlocks =>
    simp only [step] at h
    split at h
    · rename_i hl; cases h; exact .otherPodUnlocks hl
    · cases h

def State.ids (s : State) : List Nat := s.runs.map (·.id)

@[simp] theorem ids_setPhase (s : State) (id : Nat) (p : Phase) : (s.setPhase id p).ids = s.ids := by
  simp only [State.ids, State.setPhase, List.map_map]
  apply List.map_congr_left
  intro r _
  simp only [Function.comp]
  split <;> rfl

@[simp] theorem ids_settle (s : State) (id : Nat) : (s.settle id).ids = s.ids :=
  ids_setPhase s id .settled

@[simp] theorem ids_onDestroy (s : State) : s.onDestroy.ids = s.ids := by
  simp only [State.ids, State.onDestroy, List.map_map]
  apply List.map_congr_left
  intro r _
  simp only [Function.comp]
  split <;> rfl

@[simp] theorem ids_start (s : State) (request : RunRequest) (o : Origin) :
    (s.start request o).ids = s.ids ++ [s.nextId] := by
  simp [State.ids, State.start]

@[simp] theorem ids_leave (s : State) (id : Nat) : (s.leave id).ids = s.ids.filter (· ≠ id) := by
  simp only [State.ids, State.leave, List.filter_map]
  rfl

theorem ids_eq_nil : s.ids = [] ↔ s.runs = [] := by simp [State.ids]

end HomelabApps.KnowledgeBase.IndexingLoop
