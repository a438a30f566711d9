import HomelabApps.KnowledgeBase.IndexingLoop.Chain
import HomelabApps.KnowledgeBase.IndexingLoop.SingleFlight

namespace HomelabApps.KnowledgeBase.IndexingLoop

open HomelabApps.Library

variable {c : Config} {s t : State} {e : Event} {es : List Event}

def QuietStop (s : State) : Event → Prop
  | .onReady => ¬s.stopped
  | .fire => s.runs = []
  | .trigger _ => s.running = none → ¬s.stopped
  | _ => True

instance (s : State) : ∀ e, Decidable (QuietStop s e)
  | .onReady => inferInstanceAs (Decidable (¬s.stopped))
  | .fire => inferInstanceAs (Decidable (s.runs = []))
  | .trigger _ => inferInstanceAs (Decidable (s.running = none → ¬s.stopped))
  | .restored | .askLock _ | .lockFails _ | .lockLost _ | .finish _ | .resume _ | .onDestroy | .destroyed |
    .otherPodLocks | .otherPodUnlocks => .isTrue trivial

structure Stopping (s : State) : Prop where
  flight : Flight s
  timer : s.stopped → ¬s.timer
  awaiting : ∀ run, s.awaiting = some run → s.stopped ∧ ∀ r ∈ s.runs, run = some r.id
  destroyed : s.destroyed → s.stopped ∧ s.runs = []

theorem Stopping.shrink (h : Stopping s) (hf : Flight t) (hstop : t.stopped = s.stopped)
    (htimer : t.timer → s.timer) (hids : t.ids ⊆ s.ids) (hawait : t.awaiting = s.awaiting)
    (hdest : t.destroyed = s.destroyed) : Stopping t where
  flight := hf
  timer hs ht := h.timer (hstop ▸ hs) (htimer ht)
  awaiting run hr := by
    obtain ⟨hs, hall⟩ := h.awaiting run (hawait ▸ hr)
    refine ⟨hstop ▸ hs, fun r hmem => ?_⟩
    obtain ⟨r', hmem', hid⟩ := List.mem_map.mp (hids (List.mem_map.mpr ⟨r, hmem, rfl⟩))
    exact hid ▸ hall r' hmem'
  destroyed hd := by
    obtain ⟨hs, hnil⟩ := h.destroyed (hdest ▸ hd)
    have hids' : t.ids = [] := List.subset_nil.mp (ids_eq_nil.mpr hnil ▸ hids)
    exact ⟨hstop ▸ hs, ids_eq_nil.mp hids'⟩

theorem Stopping.of_not_stopped (h : Stopping s) (hf : Flight t) (hs : ¬s.stopped)
    (hstop : t.stopped = s.stopped) (hawait : t.awaiting = s.awaiting)
    (hdest : t.destroyed = s.destroyed) : Stopping t where
  flight := hf
  timer ht := absurd (hstop ▸ ht) hs
  awaiting run hr := absurd (h.awaiting run (hawait ▸ hr)).1 hs
  destroyed hd := absurd (h.destroyed (hdest ▸ hd)).1 hs

theorem Stopping.step (h : Stopping s) (hq : QuietStop s e) (hstep : step c s e = some t) :
    Stopping t := by
  have hf := h.flight.step (by rintro rfl; exact hq) hstep
  cases step_cases hstep with
  | onReady =>
    have hs : ¬s.stopped := hq
    exact ⟨hf, fun h => by simp at h, fun run hr => absurd (h.awaiting run hr).1 hs,
      fun hd => absurd (h.destroyed hd).1 hs⟩
  | arm _ _ hs => exact h.of_not_stopped hf hs rfl rfl rfl
  | stayIdle => exact h.shrink hf rfl id (List.Subset.refl _) rfl rfl
  | fire ht => exact h.of_not_stopped hf (fun hs => h.timer hs ht) rfl rfl rfl
  | queue => exact h.shrink hf rfl id (List.Subset.refl _) rfl rfl
  | begin request hr => exact h.of_not_stopped hf (hq hr) rfl rfl rfl
  | takeLock r =>
    exact h.shrink hf rfl id (ids_setPhase s r.id .locked ▸ List.Subset.refl _) rfl rfl
  | skip r => exact h.shrink hf rfl id (ids_settle (s.tell r .skipped) r.id ▸ List.Subset.refl _) rfl rfl
  | lockFails r =>
    exact h.shrink hf rfl id (ids_settle (s.tell r .rejected) r.id ▸ List.Subset.refl _) rfl rfl
  | lockLost => exact h.shrink hf rfl id (List.Subset.refl _) rfl rfl
  | finish r => exact h.shrink hf rfl id (ids_settle s r.id ▸ List.Subset.refl _) rfl rfl
  | retire r => exact h.shrink hf rfl id (by simp) rfl rfl
  | follow r next _ _ hs => exact h.of_not_stopped hf hs rfl rfl rfl
  | rearm r _ _ hs => exact h.of_not_stopped hf hs rfl rfl rfl
  | rest r _ _ hs => exact h.of_not_stopped hf hs rfl rfl rfl
  | onDestroy =>
    refine ⟨hf, fun _ => by simp [State.onDestroy], fun run hr => ⟨rfl, fun r hmem => ?_⟩,
      fun hd => ⟨rfl, ids_eq_nil.mp ?_⟩⟩
    · obtain rfl : s.running = run := by simpa [State.onDestroy] using hr
      exact (hf.of_mem hmem).2.1
    · rw [ids_onDestroy, ids_eq_nil]
      exact (h.destroyed hd).2
  | destroyed run hr hgone =>
    obtain ⟨hs, hall⟩ := h.awaiting run hr
    refine ⟨hf, h.timer, fun _ hr => by simp at hr, fun _ => ⟨hs, ?_⟩⟩
    exact List.eq_nil_iff_forall_not_mem.mpr fun r hmem => hgone r hmem (hall r hmem)
  | otherPodLocks => exact h.shrink hf rfl id (List.Subset.refl _) rfl rfl
  | otherPodUnlocks => exact h.shrink hf rfl id (List.Subset.refl _) rfl rfl

theorem nothing_runs_after_destroy (hq : Transition.Along (step c) QuietStop {} es) :
    Transition.Always (step c) (fun s => s.destroyed → s.runs = []) {} es := by
  have hinit : Stopping {} := ⟨.idle rfl rfl, by simp, by simp, by simp⟩
  have hall := Transition.always_of_along (fun s e t hs hc hstep => hs.step hc hstep) hinit hq
  exact hall.mono fun s hs hd => (hs.destroyed hd).2

theorem nothing_runs_after_destroying_a_run :
    Transition.Always (step ⟨true, ["kb"]⟩) (fun s => s.destroyed → s.runs = []) {}
      [.onReady, .restored, .fire, .askLock 0, .onDestroy, .finish 0, .resume 0, .destroyed] :=
  nothing_runs_after_destroy (by decide)

/-- A trigger that reaches the service after `$onDestroy` has resolved, such as the one a write
that was still draining makes, starts a run. -/
theorem trigger_after_destroy_starts_run : ∃ t,
    Transition.run (step ⟨true, ["kb"]⟩) {}
      [.onReady, .restored, .onDestroy, .destroyed, .trigger ⟨["kb"], false, false⟩] = some t ∧
    t.destroyed ∧ t.runs ≠ [] :=
  ⟨_, rfl, by decide⟩

end HomelabApps.KnowledgeBase.IndexingLoop
