import HomelabApps.KnowledgeBase.IndexingLoop.Chain
import Mathlib.Data.List.Nodup

namespace HomelabApps.KnowledgeBase.IndexingLoop

open HomelabApps.Library

variable {c : Config} {s t : State} {e : Event} {es : List Event} {r : Run} {id : Nat} {p : Phase}

def Covered (log : List Note) : Prop :=
  ∀ pre request post, log = pre ++ .queued request :: post →
    ∃ q, .tookLock q ∈ post ∧ q.Covers request

def owe (owed : List RunRequest) : Note → List RunRequest
  | .queued request => owed ++ [request]
  | .tookLock q => owed.filter (¬q.Covers ·)
  | _ => owed

def owed (log : List Note) : List RunRequest := log.foldl owe []

@[simp] theorem owed_append (log : List Note) (n : Note) : owed (log ++ [n]) = owe (owed log) n := by
  simp [owed]

theorem mem_foldl_owe {request : RunRequest} {acc : List RunRequest} {log : List Note}
    (hmem : request ∈ acc) (h : ∀ q, .tookLock q ∈ log → ¬q.Covers request) :
    request ∈ log.foldl owe acc := by
  induction log generalizing acc with
  | nil => exact hmem
  | cons n log ih =>
    refine ih ?_ fun q hq => h q (List.mem_cons_of_mem _ hq)
    cases n with
    | tookLock q => exact List.mem_filter.mpr ⟨hmem, by simpa using h q List.mem_cons_self⟩
    | queued => exact List.mem_append_left _ hmem
    | _ => exact hmem

theorem mem_owed {request : RunRequest} {pre post : List Note}
    (h : ∀ q, .tookLock q ∈ post → ¬q.Covers request) :
    request ∈ owed (pre ++ .queued request :: post) := by
  rw [owed, List.foldl_append, List.foldl_cons]
  exact mem_foldl_owe (List.mem_append_right _ (List.mem_singleton.mpr rfl)) h

theorem RunRequest.Covers.trans {a b d : RunRequest} (h : a.Covers b) (h' : b.Covers d) :
    a.Covers d :=
  ⟨List.Subset.trans h'.1 h.1, fun hd => h.2.1 (h'.2.1 hd), fun hd => h.2.2 (h'.2.2 hd)⟩

theorem RunRequest.Covers.refl (a : RunRequest) : a.Covers a :=
  ⟨List.Subset.refl _, id, id⟩

theorem merge_covers (queued : Option RunRequest) (request : RunRequest) :
    (merge queued request).Covers request := by
  cases queued with
  | none => exact .refl request
  | some q =>
    refine ⟨fun kb hkb => ?_, ?_, ?_⟩
    · simp [merge, hkb]
    · intro h
      simp [merge, h]
    · intro h
      simp [merge, h]

theorem merge_covers_queued (q request : RunRequest) : (merge (some q) request).Covers q := by
  refine ⟨fun kb hkb => ?_, ?_, ?_⟩
  · simp [merge, hkb]
  · intro h
    simp [merge, h]
  · intro h
    simp [merge, h]

inductive Carries (s : State) (request : RunRequest) : Prop
  | pending (q) : s.pending = some q → q.Covers request → Carries s request
  | followUp (f) : f ∈ s.runs → f.origin = .followUp → f.phase = .asking →
      f.request.Covers request → Carries s request

def FollowUpsLock (s : State) : Event → Prop
  | .askLock id => ∀ f ∈ s.runs, f.id = id → f.origin = .followUp → s.lock = none
  | .lockFails id => ∀ f ∈ s.runs, f.id = id → f.origin ≠ .followUp
  | .onDestroy => False
  | _ => True

instance (s : State) : ∀ e, Decidable (FollowUpsLock s e)
  | .askLock id =>
    inferInstanceAs (Decidable (∀ f ∈ s.runs, f.id = id → f.origin = .followUp → s.lock = none))
  | .lockFails id => inferInstanceAs (Decidable (∀ f ∈ s.runs, f.id = id → f.origin ≠ .followUp))
  | .onDestroy => .isFalse False.elim
  | .onReady | .restored | .fire | .trigger _ | .lockLost _ | .finish _ | .resume _ | .destroyed |
    .otherPodLocks | .otherPodUnlocks => .isTrue trivial

structure Named (s : State) : Prop where
  fresh : ∀ id ∈ s.ids, id < s.nextId
  nodup : s.ids.Nodup

theorem Named.eq_of_id (h : Named s) {f : Run} (hf : f ∈ s.runs) (hr : r ∈ s.runs)
    (hid : f.id = r.id) : f = r :=
  List.inj_on_of_nodup_map h.nodup hf hr hid

theorem Named.congr (h : Named s) (hi : t.ids = s.ids) (hn : t.nextId = s.nextId) : Named t where
  fresh := by rw [hi, hn]; exact h.fresh
  nodup := hi ▸ h.nodup

theorem Named.start (h : Named s) (request : RunRequest) (o : Origin) :
    Named (s.start request o) where
  fresh id hid := by
    rw [ids_start, List.mem_append, List.mem_singleton] at hid
    change id < s.nextId + 1
    rcases hid with hid | rfl
    · exact Nat.lt_succ_of_lt (h.fresh id hid)
    · exact Nat.lt_succ_self _
  nodup := by
    rw [ids_start]
    refine List.nodup_append.mpr ⟨h.nodup, List.nodup_singleton _, ?_⟩
    intro a ha b hb
    rw [List.mem_singleton.mp hb]
    exact Nat.ne_of_lt (h.fresh a ha)

theorem Named.leave (h : Named s) (id : Nat) : Named (s.leave id) where
  fresh i hi := by
    rw [ids_leave] at hi
    exact h.fresh i (List.mem_of_mem_filter hi)
  nodup := by
    rw [ids_leave]
    exact h.nodup.filter _

theorem named_step (h : Named s) (hstep : step c s e = some t) : Named t := by
  cases step_cases hstep with
  | fire => exact (h.congr rfl rfl : Named s.disarm).start _ _
  | begin => exact (h.congr rfl rfl : Named s.disarm).start _ _
  | takeLock r => exact h.congr (ids_setPhase s r.id .locked) rfl
  | skip r => exact h.congr (ids_settle (s.tell r .skipped) r.id) rfl
  | lockFails r => exact h.congr (ids_settle (s.tell r .rejected) r.id) rfl
  | finish r => exact h.congr (ids_settle s r.id) rfl
  | retire r => exact h.leave r.id
  | follow r next => exact ((h.leave r.id).start next .followUp).congr rfl rfl
  | rearm r => exact (h.leave r.id).congr rfl rfl
  | rest r => exact h.leave r.id
  | onDestroy => exact h.congr (ids_onDestroy s) rfl
  | _ => exact h.congr rfl rfl

theorem Carries.congr {request : RunRequest} (h : Carries s request) (hp : t.pending = s.pending)
    (hr : s.runs ⊆ t.runs) : Carries t request := by
  cases h with
  | pending q hq hcov => exact .pending q (hp.trans hq) hcov
  | followUp f hf ho hph hcov => exact .followUp f (hr hf) ho hph hcov

theorem Carries.of_other {request : RunRequest} (h : Carries s request)
    (hp : t.pending = s.pending) (hruns : ∀ f ∈ s.runs, f.id ≠ id → f ∈ t.runs)
    (hother : ∀ f ∈ s.runs, f.origin = .followUp → f.phase = .asking →
      f.request.Covers request → f.id ≠ id) : Carries t request := by
  cases h with
  | pending q hq hcov => exact .pending q (hp.trans hq) hcov
  | followUp f hf ho hph hcov =>
    exact .followUp f (hruns f hf (hother f hf ho hph hcov)) ho hph hcov

theorem mem_setPhase_of_ne {f : Run} (hf : f ∈ s.runs) (hid : f.id ≠ id) :
    f ∈ (s.setPhase id p).runs :=
  List.mem_map.mpr ⟨f, hf, by simp [hid]⟩

theorem mem_leave_of_ne {f : Run} (hf : f ∈ s.runs) (hid : f.id ≠ id) : f ∈ (s.leave id).runs :=
  List.mem_filter.mpr ⟨hf, by simpa using hid⟩

theorem owed_tell (s : State) (r : Run) (note : RunRequest → Note)
    (h : ∀ acc request, owe acc (note request) = acc) :
    owed (s.tell r note).log = owed s.log := by
  simp only [State.tell]
  split
  · rw [owed_append, h]
  · rfl

structure Keeping (c : Config) (s : State) : Prop where
  alive : Alive c s
  named : Named s
  stopped : ¬s.stopped
  carries : ∀ request ∈ owed s.log, Carries s request

theorem Keeping.stays_started (h : Keeping c s) (hl : FollowUpsLock s e)
    (hstep : step c s e = some t) : ¬t.stopped := by
  cases step_cases hstep with
  | onReady => simp
  | onDestroy => exact hl.elim
  | _ => exact h.stopped

theorem Keeping.step_carries (h : Keeping c s) (hl : FollowUpsLock s e)
    (hstep : step c s e = some t) : ∀ request ∈ owed t.log, Carries t request := by
  intro request hreq
  cases step_cases hstep with
  | fire => exact (h.carries request hreq).congr rfl (List.subset_append_left _ _)
  | queue q =>
    rw [owed_append] at hreq
    rcases List.mem_append.mp hreq with hreq | hreq
    · cases h.carries request hreq with
      | pending q' hq' hcov =>
        exact .pending _ rfl (hq' ▸ (merge_covers_queued q' q).trans hcov)
      | followUp f hf ho hph hcov => exact .followUp f hf ho hph hcov
    · rw [List.mem_singleton.mp hreq]
      exact .pending _ rfl (merge_covers s.pending q)
  | begin => exact (h.carries request hreq).congr rfl (List.subset_append_left _ _)
  | takeLock r hr =>
    rw [owed_tell _ _ _ fun _ _ => rfl] at hreq
    change request ∈ owed (s.log ++ [.tookLock r.request]) at hreq
    rw [owed_append, owe, List.mem_filter] at hreq
    -- A run that carries the request is not the one that took the lock: that one covers nothing owed.
    refine (h.carries request hreq.1).of_other rfl
      (fun f hf hid => mem_setPhase_of_ne hf hid) fun f hf _ _ hcov hid => ?_
    obtain rfl := h.named.eq_of_id hf hr hid
    simp [hcov] at hreq
  | skip r hr hp hlock =>
    change request ∈ owed (s.tell r .skipped).log at hreq
    rw [owed_tell _ _ _ fun _ _ => rfl] at hreq
    exact (h.carries request hreq).of_other rfl (fun f hf hid => mem_setPhase_of_ne hf hid)
      fun f hf ho _ _ hid => hlock (hl f hf hid ho)
  | lockFails r hr hp =>
    change request ∈ owed (s.tell r .rejected).log at hreq
    rw [owed_tell _ _ _ fun _ _ => rfl] at hreq
    exact (h.carries request hreq).of_other rfl (fun f hf hid => mem_setPhase_of_ne hf hid)
      fun f hf ho _ _ hid => hl f hf hid ho
  | finish r hr hp =>
    refine (h.carries request hreq).of_other rfl (fun f hf hid => mem_setPhase_of_ne hf hid)
      fun f hf _ hph _ hid => ?_
    rw [h.named.eq_of_id hf hr hid, hp] at hph
    cases hph
  | follow r next hr hp _ hnext =>
    cases h.carries request hreq with
    | pending q hq hcov =>
      obtain rfl : next = q := by simpa [hnext] using hq
      exact .followUp _ (List.mem_append_right _ (List.mem_singleton.mpr rfl)) rfl rfl hcov
    | followUp f hf ho hph hcov =>
      refine .followUp f (List.mem_append_left _ (mem_leave_of_ne hf fun hid => ?_)) ho hph hcov
      rw [h.named.eq_of_id hf hr hid, hp] at hph
      cases hph
  | retire r hr hp hs => exact absurd hs h.stopped
  | rearm r hr hp =>
    refine (h.carries request hreq).of_other rfl (fun f hf hid => mem_leave_of_ne hf hid)
      fun f hf _ hph _ hid => ?_
    rw [h.named.eq_of_id hf hr hid, hp] at hph
    cases hph
  | rest r hr hp =>
    refine (h.carries request hreq).of_other rfl (fun f hf hid => mem_leave_of_ne hf hid)
      fun f hf _ hph _ hid => ?_
    rw [h.named.eq_of_id hf hr hid, hp] at hph
    cases hph
  | onDestroy => exact hl.elim
  | _ => exact (h.carries request hreq).congr rfl (List.Subset.refl _)

theorem keeping_step (h : Keeping c s) (hl : FollowUpsLock s e) (hstep : step c s e = some t) :
    Keeping c t where
  alive := h.alive.step (by cases e <;> first | exact h.stopped | trivial) hstep
  named := named_step h.named hstep
  stopped := h.stays_started hl hstep
  carries := h.step_carries hl hstep

structure NoneLost (s : State) : Prop where
  kept : ∀ pre request post, s.log = pre ++ .queued request :: post →
    (∃ q, .tookLock q ∈ post ∧ q.Covers request) ∨ Carries s request
  covered : s.runs = [] → Covered s.log

theorem Keeping.noneLost (h : Keeping c s) : NoneLost s := by
  have hkept : ∀ pre request post, s.log = pre ++ .queued request :: post →
      (∃ q, .tookLock q ∈ post ∧ q.Covers request) ∨ Carries s request := by
    intro pre request post hlog
    by_cases hcov : ∃ q, .tookLock q ∈ post ∧ q.Covers request
    · exact .inl hcov
    · refine .inr (h.carries request (hlog ▸ mem_owed fun q hq hc => hcov ⟨q, hq, hc⟩))
  refine ⟨hkept, fun hnil pre request post hlog => (hkept pre request post hlog).resolve_right ?_⟩
  intro hcar
  cases hcar with
  | pending q hq =>
    obtain ⟨id, hid⟩ := Option.ne_none_iff_exists'.mp (h.alive.pending h.stopped (by simp [hq]))
    have hmem := h.alive.running id hid
    rw [ids_eq_nil.mpr hnil] at hmem
    cases hmem
  | followUp f hf => simp [hnil] at hf

theorem queued_requests_kept (hl : Transition.Along (step c) FollowUpsLock {} es) :
    Transition.Always (step c) NoneLost {} es := by
  have hinit : Keeping c {} :=
    ⟨⟨by simp, by simp, by simp⟩, ⟨by simp [State.ids], by simp [State.ids]⟩, by simp,
      by simp [owed]⟩
  exact (Transition.always_of_along (fun _ _ _ => keeping_step) hinit hl).mono
    fun _ hs => hs.noneLost

theorem queued_request_kept :
    Transition.Always (step ⟨true, ["kb"]⟩) NoneLost {}
      [.onReady, .restored, .fire, .askLock 0, .trigger ⟨["kb"], true, true⟩, .finish 0, .resume 0,
        .askLock 1, .finish 1, .resume 1] :=
  queued_requests_kept (by decide)

def NoTrigger (_ : State) : Event → Prop
  | .trigger _ => False
  | _ => True

structure Scheduled (s : State) : Prop where
  pending : s.pending = none
  runs : ∀ r ∈ s.runs, r.request.manual = false
  log : ∀ q, .tookLock q ∈ s.log → q.manual = false

theorem Scheduled.setPhase (h : Scheduled s) (id : Nat) (p : Phase) :
    ∀ r ∈ (s.setPhase id p).runs, r.request.manual = false := by
  intro r hr
  obtain ⟨r', hr', rfl⟩ := List.mem_map.mp hr
  split <;> exact h.runs r' hr'

theorem tookLock_mem_tell {note : RunRequest → Note} {q : RunRequest}
    (h : .tookLock q ∈ (s.tell r note).log) (hn : ∀ request, note request ≠ .tookLock q) :
    .tookLock q ∈ s.log := by
  simp only [State.tell] at h
  split at h
  · rcases List.mem_append.mp h with h | h
    · exact h
    · exact absurd (List.mem_singleton.mp h).symm (hn _)
  · exact h

theorem scheduled_step (h : Scheduled s) (hn : NoTrigger s e) (hstep : step c s e = some t) :
    Scheduled t := by
  cases step_cases hstep with
  | fire =>
    refine ⟨h.pending, fun r hr => ?_, h.log⟩
    rcases List.mem_append.mp hr with hr | hr
    · exact h.runs r hr
    · rw [List.mem_singleton.mp hr]
  | queue => exact hn.elim
  | begin => exact hn.elim
  | takeLock r hr =>
    refine ⟨h.pending, h.setPhase r.id .locked, fun q hq => ?_⟩
    rcases List.mem_append.mp (tookLock_mem_tell hq fun _ => by simp) with hq | hq
    · exact h.log q hq
    · obtain rfl : q = r.request := by simpa using hq
      exact h.runs r hr
  | skip r =>
    exact ⟨h.pending, h.setPhase r.id .settled, fun q hq =>
      h.log q (@tookLock_mem_tell _ _ .skipped _ hq fun _ => by simp)⟩
  | lockFails r =>
    exact ⟨h.pending, h.setPhase r.id .settled, fun q hq =>
      h.log q (@tookLock_mem_tell _ _ .rejected _ hq fun _ => by simp)⟩
  | finish r => exact ⟨h.pending, h.setPhase r.id .settled, h.log⟩
  | follow r next _ _ _ hnext => simp [h.pending] at hnext
  | retire r => exact ⟨h.pending, fun r hr => h.runs r (List.mem_of_mem_filter hr), h.log⟩
  | rearm r => exact ⟨h.pending, fun r hr => h.runs r (List.mem_of_mem_filter hr), h.log⟩
  | rest r => exact ⟨h.pending, fun r hr => h.runs r (List.mem_of_mem_filter hr), h.log⟩
  | onDestroy =>
    refine ⟨h.pending, fun r hr => ?_, h.log⟩
    obtain ⟨r', hr', rfl⟩ := List.mem_map.mp hr
    split <;> exact h.runs r' hr'
  | _ => exact ⟨h.pending, h.runs, h.log⟩

theorem log_prefix_step (hstep : step c s e = some t) : s.log <+: t.log := by
  have htell : ∀ (s : State) (r : Run) (note : RunRequest → Note), s.log <+: (s.tell r note).log := by
    intro s r note
    simp only [State.tell]
    split
    · exact List.prefix_append _ _
    · exact List.prefix_refl _
  cases step_cases hstep with
  | queue => exact List.prefix_append _ _
  | takeLock r => exact (List.prefix_append _ _).trans (htell (s.enter r) r .started)
  | skip r => exact htell s r .skipped
  | lockFails r => exact htell s r .rejected
  | _ => exact List.prefix_refl _

/-- `POST /reindex` asks for a full run while one is in flight and is told it is queued; another
pod takes the index lock between the two runs, and the request is gone: unless someone asks
again, no later run of this pod ever covers it. -/
theorem queued_reindex_lost : ∃ t,
    Transition.run (step ⟨true, ["kb"]⟩) {}
      [.onReady, .restored, .fire, .askLock 0, .trigger ⟨["kb"], true, true⟩, .finish 0,
        .otherPodLocks, .resume 0, .askLock 1, .resume 1] = some t ∧
    t.runs = [] ∧ ¬t.stopped ∧
    ∀ es u, Transition.Along (step ⟨true, ["kb"]⟩) NoTrigger t es →
      Transition.run (step ⟨true, ["kb"]⟩) t es = some u → ¬Covered u.log := by
  let lost : State :=
    { timer := true
      nextId := 2
      ready := true
      lock := some .otherPod
      log := [.tookLock ⟨["kb"], false, false⟩, .queued ⟨["kb"], true, true⟩] }
  refine ⟨lost, by decide, rfl, by decide, fun es u hn hrun hcov => ?_⟩
  have hsched := (Transition.always_of_along (fun _ _ _ => scheduled_step)
    ⟨rfl, by simp [lost], by simp [lost]⟩ hn).last hrun
  have hprefix : lost.log <+: u.log :=
    Transition.invariant (I := fun s => lost.log <+: s.log)
      (fun _ _ _ h hstep => List.IsPrefix.trans h (log_prefix_step hstep)) (List.prefix_refl _) hrun
  obtain ⟨post, hlog⟩ := hprefix
  obtain ⟨q, hq, hcovers⟩ := hcov [.tookLock ⟨["kb"], false, false⟩] _ post hlog.symm
  have hmanual : q.manual = false :=
    hsched.log q (hlog ▸ List.mem_append_right _ hq)
  exact absurd (hcovers.2.2 rfl) (by simp [hmanual])

end HomelabApps.KnowledgeBase.IndexingLoop
