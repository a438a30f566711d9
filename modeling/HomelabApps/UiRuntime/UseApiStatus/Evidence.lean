import HomelabApps.UiRuntime.UseApiStatus

namespace HomelabApps.UiRuntime

open HomelabApps.Library.Transition

variable {hook : Hook} {world world' : World} {event : Event} {events : List Event}
  {recoveryProbe : Option RecoveryProbeOptions} {status : ApiStatus} {i : Nat} {recovered hidden : Bool}

/-- An offline event replaces the status that the next render would have shown; a probe that is not cancelled succeeds
only where no status but `ok` waits for the browser to come back. -/
def Meets (world : World) : Event → Prop
  | .offline => world.hook.offlineRef = none → world.hook.shown = world.hook.status
  | .settle i recovered => recovered = true → world.hook.isCancelled i = false →
    world.hook.offlineRef = none ∨ world.hook.offlineRef = some .ok
  | _ => True

instance : ∀ event, Decidable (Meets world event)
  | .offline => inferInstanceAs (Decidable (_ → _))
  | .settle _ _ => inferInstanceAs (Decidable (_ → _ → _))
  | .report _ | .online | .render _ | .flush | .timer _ _ => .isTrue trivial

structure World.Follows (world : World) : Prop where
  here : world.away = false → world.hook.pending = none → world.hook.status = world.evidence
  back : ∀ recoveryProbe after, run step world [.online, .render recoveryProbe] = some after →
    after.hook.status = after.evidence

def Hook.restored (hook : Hook) : ApiStatus := hook.offlineRef.getD hook.shown

theorem Hook.shown_goOnline : hook.goOnline.shown = hook.restored := by
  rw [Hook.goOnline, Hook.restored]
  cases hook.offlineRef with
  | none => rfl
  | some saved => rfl

@[simp] theorem Hook.shown_setStatus : (hook.setStatus status).shown = status := rfl

theorem Hook.flushEffects_eq : ∃ effects effectStatus,
    hook.flushEffects = { hook with effects := effects, effectStatus := effectStatus } := by
  rw [Hook.flushEffects]
  split
  · exact ⟨hook.effects, hook.effectStatus, rfl⟩
  · exact ⟨_, _, rfl⟩

theorem Hook.render_eq (hook : Hook) (recoveryProbe : Option RecoveryProbeOptions) :
    ∃ effects effectStatus, hook.render recoveryProbe = {
    hook with
    status := hook.shown
    pending := none
    statusRef := hook.shown
    probeRef := recoveryProbe
    effects := effects
    effectStatus := effectStatus } := by
  obtain ⟨effects, effectStatus, hflush⟩ := hook.flushEffects_eq
  rw [Hook.render, hflush]
  exact ⟨effects, effectStatus, rfl⟩

theorem Hook.timer_eq {hook' : Hook} (h : hook.timer i hidden = some hook') :
    ∃ effects, hook' = { hook with effects := effects } := by
  rw [Hook.timer] at h
  split at h
  · cases h
  · split at h
    · cases h
    · split at h
      · exact ⟨hook.effects, (Option.some.inj h).symm⟩
      · exact ⟨_, (Option.some.inj h).symm⟩

theorem Hook.settle_eq {hook' : Hook} (h : hook.settle i recovered = some hook') :
    ∃ effects, hook' = if recovered && !hook.isCancelled i then { hook with effects := effects }.setStatus .ok
      else { hook with effects := effects } := by
  rw [Hook.settle] at h
  cases heffect : hook.effects[i]? with
  | none =>
    rw [heffect] at h
    cases h
  | some effect =>
    have hcancelled : hook.isCancelled i = effect.cancelled := by rw [Hook.isCancelled, heffect]; rfl
    rw [hcancelled]
    rw [heffect] at h
    dsimp only at h
    split at h
    · cases h
    · cases h
    · split at h
      · cases h
      · split at h
        · rename_i hyes
          rw [hyes, Bool.not_true, Bool.and_false]
          exact ⟨_, (Option.some.inj h).symm⟩
        · rename_i hno
          rw [Bool.not_eq_true] at hno
          split at h
          · rename_i hrecovered
            rw [hrecovered, hno, Bool.not_false, Bool.and_true]
            exact ⟨_, (Option.some.inj h).symm⟩
          · rename_i hfailed
            rw [Bool.not_eq_true] at hfailed
            rw [hfailed, Bool.false_and]
            exact ⟨_, (Option.some.inj h).symm⟩

theorem back_iff : (∀ recoveryProbe after, run step world [.online, .render recoveryProbe] = some after →
    after.hook.status = after.evidence) ↔ world.hook.restored = world.evidence := by
  have hrun : ∀ recoveryProbe, run step world [.online, .render recoveryProbe] =
      some { hook := world.hook.goOnline.render recoveryProbe, evidence := world.evidence, away := false } :=
    fun _ => rfl
  have hstatus : ∀ recoveryProbe, (world.hook.goOnline.render recoveryProbe).status = world.hook.restored := by
    intro recoveryProbe
    obtain ⟨effects, effectStatus, hrender⟩ := world.hook.goOnline.render_eq recoveryProbe
    rw [hrender, ← Hook.shown_goOnline]
  constructor
  · intro h
    rw [← hstatus none]
    exact h none _ (hrun none)
  · intro h recoveryProbe after hafter
    rw [hrun] at hafter
    cases hafter
    exact (hstatus recoveryProbe).trans h

structure World.Kept (world : World) : Prop where
  statusRef : world.hook.statusRef = world.hook.status
  away : world.away = false → world.hook.offlineRef = none

theorem Hook.offlineRef_goOnline : hook.goOnline.offlineRef = none := by
  rw [Hook.goOnline]
  cases h : hook.offlineRef with
  | none => exact h
  | some saved => rfl

theorem Hook.statusRef_goOnline : hook.goOnline.statusRef = hook.statusRef ∧ hook.goOnline.status = hook.status := by
  rw [Hook.goOnline]
  cases hook.offlineRef with
  | none => exact ⟨rfl, rfl⟩
  | some saved => exact ⟨rfl, rfl⟩

theorem kept_start : (World.start recoveryProbe).Kept where
  statusRef := rfl
  away _ := rfl

theorem kept_step (h : world.Kept) (hstep : step world event = some world') : world'.Kept := by
  cases event with
  | report outcome =>
    cases hstep
    exact ⟨h.statusRef, fun _ => rfl⟩
  | offline =>
    cases hstep
    exact ⟨h.statusRef, fun haway => by cases haway⟩
  | online =>
    cases hstep
    exact ⟨Hook.statusRef_goOnline.1.trans (h.statusRef.trans Hook.statusRef_goOnline.2.symm),
      fun _ => Hook.offlineRef_goOnline⟩
  | render recoveryProbe =>
    obtain ⟨effects, effectStatus, hrender⟩ := world.hook.render_eq recoveryProbe
    rw [step, hrender] at hstep
    cases hstep
    exact ⟨rfl, h.away⟩
  | flush =>
    obtain ⟨effects, effectStatus, hflush⟩ := world.hook.flushEffects_eq
    rw [step, hflush] at hstep
    cases hstep
    exact ⟨h.statusRef, h.away⟩
  | timer i hidden =>
    obtain ⟨hook, htimer, rfl⟩ := Option.map_eq_some_iff.mp hstep
    obtain ⟨effects, rfl⟩ := Hook.timer_eq htimer
    exact ⟨h.statusRef, h.away⟩
  | settle i recovered =>
    obtain ⟨hook, hsettle, rfl⟩ := Option.map_eq_some_iff.mp hstep
    obtain ⟨effects, rfl⟩ := Hook.settle_eq hsettle
    constructor
    · dsimp only
      split
      · exact h.statusRef
      · exact h.statusRef
    · dsimp only
      split
      · exact h.away
      · exact h.away

theorem restored_step (hkept : world.Kept) (h : world.hook.restored = world.evidence)
    (hstep : step world event = some world') : Meets world event ↔ world'.hook.restored = world'.evidence := by
  cases event with
  | report outcome =>
    cases hstep
    exact iff_of_true trivial rfl
  | offline =>
    cases hstep
    rw [Meets, Hook.restored, Hook.goOffline, hkept.statusRef, ← h, Hook.restored]
    cases world.hook.offlineRef with
    | none =>
      exact ⟨fun hshown => (hshown rfl).symm, fun hstatus _ => hstatus.symm⟩
    | some saved => exact iff_of_true (fun hnone => by cases hnone) rfl
  | online =>
    cases hstep
    rw [Hook.restored, Hook.offlineRef_goOnline, Option.getD_none, Hook.shown_goOnline]
    exact iff_of_true trivial h
  | render recoveryProbe =>
    obtain ⟨effects, effectStatus, hrender⟩ := world.hook.render_eq recoveryProbe
    rw [step, hrender] at hstep
    cases hstep
    exact iff_of_true trivial h
  | flush =>
    obtain ⟨effects, effectStatus, hflush⟩ := world.hook.flushEffects_eq
    rw [step, hflush] at hstep
    cases hstep
    exact iff_of_true trivial h
  | timer i hidden =>
    obtain ⟨hook, htimer, rfl⟩ := Option.map_eq_some_iff.mp hstep
    obtain ⟨effects, rfl⟩ := Hook.timer_eq htimer
    exact iff_of_true trivial h
  | settle i recovered =>
    obtain ⟨hook, hsettle, rfl⟩ := Option.map_eq_some_iff.mp hstep
    obtain ⟨effects, rfl⟩ := Hook.settle_eq hsettle
    rw [Meets]
    cases recovered with
    | false => exact iff_of_true (fun hfalse => by cases hfalse) h
    | true =>
      cases hcancelled : world.hook.isCancelled i with
      | true => exact iff_of_true (fun _ hfalse => by cases hfalse) h
      | false =>
        have hrestored : Hook.restored ({ world.hook with effects := effects }.setStatus .ok) =
            world.hook.offlineRef.getD .ok := rfl
        simp only [Bool.not_false, Bool.and_true, if_true, hrestored, forall_const]
        cases world.hook.offlineRef with
        | none => exact iff_of_true (.inl rfl) rfl
        | some saved => simp

theorem follows_of_restored (hkept : world.Kept) (h : world.hook.restored = world.evidence) : world.Follows where
  here haway hpending := by
    rw [← h, Hook.restored, hkept.away haway, Option.getD_none, Hook.shown, hpending, Option.getD_none]
  back := back_iff.mpr h

theorem status_follows_evidence (recoveryProbe : Option RecoveryProbeOptions) (events : List Event) (world : World)
    (hrun : run step (World.start recoveryProbe) events = some world) :
    Always step World.Follows (World.start recoveryProbe) events ↔ Along step Meets (World.start recoveryProbe) events := by
  have hkept : Always step World.Kept (World.start recoveryProbe) events :=
    always_of_along (fun _ _ _ h _ hstep => kept_step h hstep) kept_start along_true
  constructor
  · intro h
    refine along_of_always (fun world event world' hboth hstep hboth' => ?_) (h.and hkept) hrun
    exact (restored_step hboth.2 (back_iff.mp hboth.1.back) hstep).mpr (back_iff.mp hboth'.1.back)
  · intro h
    have hsound : Always step (fun world => world.Kept ∧ world.hook.restored = world.evidence)
        (World.start recoveryProbe) events := by
      refine always_of_along (fun world event world' hboth hmeets hstep => ?_) ⟨kept_start, rfl⟩ h
      exact ⟨kept_step hboth.1 hstep, (restored_step hboth.1 hboth.2 hstep).mp hmeets⟩
    exact hsound.mono fun world hboth => follows_of_restored hboth.1 hboth.2

theorem status_follows_evidence_report : Always step World.Follows (World.start (some ⟨none, none⟩))
    [.offline, .render (some ⟨none, none⟩), .report (.serverError 503), .render (some ⟨none, none⟩), .online, .flush,
      .timer 1 false, .settle 1 true, .render (some ⟨none, none⟩)] :=
  (status_follows_evidence (some ⟨none, none⟩) _ _ rfl).mpr (by decide)

/-- A probe that succeeds while the browser is away is forgotten once it is back. -/
theorem status_forgets_probe : ∃ world, run step (World.start (some ⟨none, none⟩))
    [.report (.serverError 503), .render (some ⟨none, none⟩), .flush, .offline, .render (some ⟨none, none⟩), .flush,
      .timer 1 false, .settle 1 true, .render (some ⟨none, none⟩), .online, .render (some ⟨none, none⟩)] = some world ∧
    world.away = false ∧ world.hook.pending = none ∧ world.hook.status = .degraded ∧ world.evidence = .ok :=
  ⟨_, rfl, rfl, rfl, rfl, rfl⟩

end HomelabApps.UiRuntime
