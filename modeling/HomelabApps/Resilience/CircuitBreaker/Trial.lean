import HomelabApps.Resilience.CircuitBreaker
import HomelabApps.Resilience.ResiliencePolicy.Cancellation

universe u v w

namespace HomelabApps.Resilience

open HomelabApps.Library.Transition

variable {B : Type w} {E : Type u} {R : Type v}

def Shared.attempt (s : Shared B E R) (n k : Nat) : Option (Attempt E R) :=
  s.calls[n]?.bind fun call => call.attempts[k]?

def Attempt.entry (a : Attempt E R) : Option (Option CircuitState × Bool) :=
  if a.fn.calledBack then some (a.startState, a.result.isSome) else none

def Shared.entry (s : Shared B E R) (n k : Nat) : Option (Option CircuitState × Bool) :=
  (s.attempt n k).bind Attempt.entry

def Shared.Trial (s : Shared B E R) (n k : Nat) : Prop :=
  s.entry n k = some (some .halfOpen, false)

structure Shared.Routed (policy : ResiliencePolicy E) (cb : CircuitBreaker B) (s : Shared B E R) : Prop where
  sound : ∀ x ∈ s.calls, Execution.Sound policy x
  record : ∀ n k, s.started n k = (s.entry n k).bind fun entry => entry.1
  reported : ∀ n k entry, s.entry n k = some entry → entry.1 = some .closed ∨ entry.1 = some .halfOpen
  trial : ∀ n k, s.Trial n k → cb.state s.breaker = .halfOpen
  one : ∀ n k m j, s.Trial n k → s.Trial m j → m = n ∧ j = k

def Attempt.Owns (a : Attempt E R) (outcome : Outcome E R) : Prop :=
  (a.timedOut = true ∧ outcome = .error .taskCancelled) ∨
    (a.timedOut = false ∧ a.inner = some outcome ∧ a.fn = .settled outcome true)

structure Shared.Decides (policy : ResiliencePolicy E) (cb : CircuitBreaker B) (s : Shared B E R)
    (event : SharedEvent E R) (t : Shared B E R) : Prop where
  closed : cb.state s.breaker = .closed → t.breaker ≠ s.breaker →
    ∃ n k now a outcome, event = .concludes n k now ∧ s.attempt n k = some a ∧
      a.conclusion policy.cfg = some outcome ∧ outcome ≠ cancelled ∧ a.Owns outcome
  uncounted : ∀ n k now a, event = .concludes n k now → s.attempt n k = some a →
    a.startState = some .closed → a.conclusion policy.cfg = some cancelled → t.breaker = s.breaker
  aborts : ∀ n, event = .call n .abort → t.breaker = s.breaker ∧
    ∀ k a, s.attempt n k = some a → a.fn.calledBack = true → a.conclusion policy.cfg = none →
      ∃ b, t.attempt n k = some b ∧ b.conclusion policy.cfg = some cancelled
  closes : cb.state s.breaker = .halfOpen → cb.state t.breaker = .closed →
    ∃ n k now a outcome, event = .concludes n k now ∧ s.attempt n k = some a ∧ s.Trial n k ∧
      (∀ m j, s.Trial m j → m = n ∧ j = k) ∧ a.timedOut = false ∧ a.inner = some outcome ∧
      a.fn = .settled outcome true ∧
      ∀ error, outcome = .error error → error.isTaskCancelledError = false ∧ policy.shouldHandle error = false
  decides : cb.state s.breaker = .halfOpen → cb.state t.breaker ≠ .halfOpen →
    ∃ n k now, event = .concludes n k now ∧ s.Trial n k
  stale : ∀ n k now a, event = .concludes n k now → s.attempt n k = some a → a.startState = some .closed →
    cb.state s.breaker = .halfOpen → cb.state t.breaker = .halfOpen

variable {policy : ResiliencePolicy E} {cb : CircuitBreaker B} {s t : Shared B E R}
  {x y : Execution E R} {a b : Attempt E R} {parentAborted : Option Bool}

theorem entry_onParentAbort (a : Attempt E R) : a.onParentAbort.entry = a.entry := by
  unfold Attempt.onParentAbort
  split <;> rfl

theorem stepCall_eq_some {calls after : List (Execution E R)} {n : Nat} {event : Event E R} :
    policy.stepCall calls n event = some after ↔
      ∃ x y, calls[n]? = some x ∧ policy.step x event = some y ∧ after = calls.set n y := by
  unfold ResiliencePolicy.stepCall
  constructor
  · intro h
    obtain ⟨x, hx, hmap⟩ := Option.bind_eq_some_iff.mp h
    obtain ⟨y, hy, rfl⟩ := Option.map_eq_some_iff.mp hmap
    exact ⟨x, y, hx, hy, rfl⟩
  · rintro ⟨x, y, hx, hy, rfl⟩
    rw [hx, Option.bind_some, hy]
    rfl

theorem entry_work {fn : Work E R} {inner : Option (Outcome E R)} (hbefore : a.fn.calledBack = true)
    (hafter : fn.calledBack = true) : Attempt.entry { a with fn := fn, inner := inner } = a.entry := by
  rw [Attempt.entry, Attempt.entry, if_pos hbefore, if_pos hafter]

theorem entry_step {cfg : ResilienceConfig} {event : AttemptEvent E R} {k : Nat}
    (hother : (Event.attempt k event).isBreakers = false) (h : a.step cfg parentAborted event = some b) :
    b.entry = a.entry := by
  cases event with
  | calledBack state => cases hother
  | begins =>
    simp only [Attempt.step] at h
    split at h
    · next hfn =>
      split at h
      · cases h
        exact entry_work (by rw [hfn]; rfl) rfl
      · cases h
        exact entry_work (by rw [hfn]; rfl) rfl
    · cases h
  | fnSettles outcome =>
    simp only [Attempt.step] at h
    split at h
    · next hfn =>
      cases h
      exact entry_work (by rw [hfn]; rfl) rfl
    · cases h
  | resumes =>
    simp only [Attempt.step] at h
    split at h
    · next hfn =>
      cases h
      exact entry_work (by rw [hfn]; rfl) rfl
    · cases h
  | timesOut =>
    simp only [Attempt.step] at h
    split at h
    · split at h
      · cases h
        rfl
      · cases h
    · cases h
  | concludes => cases hother

def Execution.entry (x : Execution E R) (k : Nat) : Option (Option CircuitState × Bool) :=
  x.attempts[k]?.bind Attempt.entry

theorem entry_set {l : List (Attempt E R)} {k : Nat} (ha : l[k]? = some a) (h : b.entry = a.entry) (j : Nat) :
    (l.set k b)[j]?.bind Attempt.entry = l[j]?.bind Attempt.entry := by
  rw [List.getElem?_set]
  split
  · next hk =>
    subst hk
    rw [ha, if_pos (List.getElem?_eq_some_iff.mp ha).1]
    exact h
  · rfl

theorem entry_loop (x : Execution E R) (k : Nat) : x.loop.entry k = x.entry k := by
  unfold Execution.loop
  split
  · rfl
  · rw [Execution.entry, Execution.entry, List.getElem?_append]
    split
    · rfl
    · next hk =>
      rw [List.getElem?_eq_none (Nat.le_of_not_lt hk), List.getElem?_singleton]
      split <;> rfl

theorem entry_stepExecution {event : Event E R} (hother : event.isBreakers = false)
    (h : policy.step x event = some y) (k : Nat) : y.entry k = x.entry k := by
  cases event with
  | abort =>
    simp only [ResiliencePolicy.step] at h
    split at h
    · cases h
      rw [Execution.entry, Execution.entry, List.getElem?_map, Option.bind_map]
      congr 1
      funext a
      exact entry_onParentAbort a
    · cases h
  | attempt j event =>
    simp only [ResiliencePolicy.step] at h
    split at h
    · next hat =>
      obtain ⟨b, hb, rfl⟩ := Option.map_eq_some_iff.mp h
      exact entry_set hat (entry_step hother hb) k
    · cases h
  | forward =>
    simp only [ResiliencePolicy.step] at h
    split at h
    · obtain ⟨outcome, -, rfl⟩ := Option.map_eq_some_iff.mp h
      rfl
    · cases h
  | resume =>
    simp only [ResiliencePolicy.step] at h
    split at h
    · cases h
      rfl
    · cases h
      rfl
    · cases h
  | wait =>
    simp only [ResiliencePolicy.step] at h
    split at h
    · cases h
      rfl
    · cases h
  | timer =>
    simp only [ResiliencePolicy.step] at h
    split at h
    · cases h
      rfl
    · cases h
  | next =>
    simp only [ResiliencePolicy.step] at h
    split at h
    · cases h
      exact entry_loop x k
    · cases h
      rfl
    · cases h

theorem entry_calls (s : Shared B E R) (n k : Nat) : s.entry n k = s.calls[n]?.bind fun x => x.entry k := by
  rw [Shared.entry, Shared.attempt, Option.bind_assoc]
  rfl

theorem entry_setCall {calls : List (Execution E R)} {n : Nat} (hx : calls[n]? = some x) (m k : Nat) :
    ((calls.set n y)[m]?.bind fun x => x.entry k) =
      if n = m then y.entry k else calls[m]?.bind fun x => x.entry k := by
  rw [List.getElem?_set]
  split
  · next hm =>
    subst hm
    rw [if_pos (List.getElem?_eq_some_iff.mp hx).1]
    rfl
  · rfl

theorem Shared.Routed.kept (h : s.Routed policy cb) (hsound : ∀ x ∈ t.calls, Execution.Sound policy x)
    (hentry : ∀ n k, t.entry n k = s.entry n k) (hstarted : t.started = s.started)
    (hbreaker : t.breaker = s.breaker) : t.Routed policy cb := by
  have htrial : ∀ n k, t.Trial n k → s.Trial n k := by
    intro n k htrial
    rw [Shared.Trial, ← hentry]
    exact htrial
  refine ⟨hsound, ?_, ?_, ?_, ?_⟩
  · intro n k
    rw [hstarted, hentry]
    exact h.record n k
  · intro n k entry hentered
    rw [hentry] at hentered
    exact h.reported n k entry hentered
  · intro n k ht
    rw [hbreaker]
    exact h.trial n k (htrial n k ht)
  · exact fun n k m j hn hm => h.one n k m j (htrial n k hn) (htrial m j hm)

theorem sound_set {calls : List (Execution E R)} {n : Nat} {event : Event E R}
    (h : ∀ x ∈ calls, Execution.Sound policy x) (hx : calls[n]? = some x) (hstep : policy.step x event = some y) :
    ∀ x ∈ calls.set n y, Execution.Sound policy x := by
  intro z hz
  rcases List.mem_or_eq_of_mem_set hz with hz | rfl
  · exact h z hz
  · exact (h x (List.mem_of_getElem? hx)).moves (step_cases hstep)

theorem entry_execute (policy : ResiliencePolicy E) (parentAborted : Option Bool) (retry : Bool) (k : Nat) :
    (policy.execute parentAborted retry : Execution E R).entry k = none :=
  entry_loop _ k

theorem Shared.Routed.execute (h : s.Routed policy cb) (parentAborted : Option Bool) (retry : Bool) :
    Shared.Routed policy cb { s with calls := s.calls ++ [policy.execute parentAborted retry] } := by
  refine h.kept ?_ ?_ rfl rfl
  · intro x hx
    rcases List.mem_append.mp hx with hx | hx
    · exact h.sound x hx
    · rw [List.mem_singleton.mp hx]
      exact sound_execute policy parentAborted retry
  · intro n k
    rw [entry_calls, entry_calls, List.getElem?_append]
    split
    · rfl
    · next hn =>
      rw [List.getElem?_eq_none (Nat.le_of_not_lt hn), List.getElem?_singleton]
      split
      · exact entry_execute policy parentAborted retry k
      · rfl

theorem Shared.Routed.call (h : s.Routed policy cb) {n : Nat} {event : Event E R}
    (hother : event.isBreakers = false) (hx : s.calls[n]? = some x) (hstep : policy.step x event = some y) :
    Shared.Routed policy cb { s with calls := s.calls.set n y } := by
  refine h.kept (sound_set h.sound hx hstep) (fun m k => ?_) rfl rfl
  rw [entry_calls, entry_calls, entry_setCall hx]
  split
  · next hm =>
    subst hm
    rw [hx]
    exact entry_stepExecution hother hstep k
  · rfl

theorem entry_calledBack {k : Nat} {state : Option CircuitState}
    (hstep : policy.step x (.attempt k (.calledBack state)) = some y) (j : Nat) :
    x.entry k = none ∧ y.entry j = if j = k then some (state, false) else x.entry j := by
  simp only [ResiliencePolicy.step] at hstep
  split at hstep
  · next hat =>
    obtain ⟨b, hb, rfl⟩ := Option.map_eq_some_iff.mp hstep
    simp only [Attempt.step] at hb
    split at hb
    · next hfn hresult =>
      have hentry : b.entry = some (state, false) := by
        split at hb
        · cases hb
          simp [Attempt.entry, Work.calledBack, hresult]
        · cases hb
          simp [Attempt.entry, Work.calledBack, hresult]
      refine ⟨?_, ?_⟩
      · rw [Execution.entry, hat]
        simp [Attempt.entry, hfn, Work.calledBack]
      · rw [Execution.entry, Execution.entry, List.getElem?_set]
        by_cases hj : j = k
        · subst hj
          rw [if_pos rfl, if_pos rfl, if_pos (List.getElem?_eq_some_iff.mp hat).1]
          exact hentry
        · rw [if_neg (Ne.symm hj), if_neg hj]
    · cases hb
  · cases hstep

theorem entry_concludes {k : Nat} (hat : x.attempts[k]? = some a)
    (hstep : policy.step x (.attempt k .concludes) = some y) :
    a.result = none ∧ (∃ outcome, a.conclusion policy.cfg = some outcome) ∧
      ∀ j, y.entry j = if j = k then (x.entry k).map (fun entry => (entry.1, true)) else x.entry j := by
  simp only [ResiliencePolicy.step, hat] at hstep
  obtain ⟨b, hb, rfl⟩ := Option.map_eq_some_iff.mp hstep
  simp only [Attempt.step] at hb
  split at hb
  · next hresult =>
    obtain ⟨outcome, houtcome, rfl⟩ := Option.map_eq_some_iff.mp hb
    refine ⟨hresult, ⟨outcome, houtcome⟩, fun j => ?_⟩
    rw [Execution.entry, Execution.entry, Execution.entry, List.getElem?_set, hat]
    by_cases hj : j = k
    · subst hj
      rw [if_pos rfl, if_pos rfl, if_pos (List.getElem?_eq_some_iff.mp hat).1]
      simp only [Option.bind_some, Attempt.entry]
      split <;> rfl
    · rw [if_neg (Ne.symm hj), if_neg hj]
  · cases hb

theorem Shared.Routed.enters (h : s.Routed policy cb) (hcb : cb.Lawful) {n k now : Nat} {c : B}
    (henter : cb.enter now s.breaker = some c) (hx : s.calls[n]? = some x)
    (hstep : policy.step x (.attempt k (.calledBack (some (cb.state c)))) = some y) :
    Shared.Routed policy cb
      { s with
        breaker := c
        calls := s.calls.set n y
        started := fun m j => if m = n ∧ j = k then some (route (cb.state s.breaker)) else s.started m j } := by
  have hroute : route (cb.state s.breaker) = cb.state c ∧
      (cb.state c = .closed ∨ cb.state s.breaker = .opened) ∧ (cb.state c = .closed ∨ cb.state c = .halfOpen) := by
    by_cases hclosed : cb.state s.breaker = .closed
    · obtain rfl := hcb.passes now s.breaker c henter hclosed
      rw [hclosed]
      exact ⟨rfl, .inl rfl, .inl rfl⟩
    · obtain ⟨hopened, hhalf⟩ := hcb.tries now s.breaker c henter hclosed
      rw [hopened, hhalf]
      exact ⟨rfl, .inr rfl, .inr rfl⟩
  obtain ⟨hsame, hwas, hreports⟩ := hroute
  have hentry : ∀ m j, Shared.entry
      { s with
        breaker := c
        calls := s.calls.set n y
        started := fun m j => if m = n ∧ j = k then some (route (cb.state s.breaker)) else s.started m j } m j =
      if m = n ∧ j = k then some (some (cb.state c), false) else s.entry m j := by
    intro m j
    rw [entry_calls, entry_setCall hx, entry_calls]
    by_cases hm : m = n
    · subst hm
      rw [if_pos rfl, hx, (entry_calledBack hstep j).2]
      by_cases hj : j = k
      · rw [if_pos hj, if_pos ⟨rfl, hj⟩]
      · rw [if_neg hj, if_neg fun hboth => hj hboth.2]
        rfl
    · rw [if_neg (Ne.symm hm), if_neg fun hboth => hm hboth.1]
  -- a breaker that was not half-open had no trial
  have htrial : ∀ m j, s.Trial m j → False := by
    intro m j ht
    have hhalf := h.trial m j ht
    rcases hwas with hclosed | hopened
    · rw [hhalf] at hsame
      rw [hclosed] at hsame
      cases hsame
    · rw [hhalf] at hopened
      cases hopened
  refine ⟨sound_set h.sound hx hstep, ?_, ?_, ?_, ?_⟩
  · intro m j
    rw [hentry]
    dsimp only
    split
    · rw [hsame]
      rfl
    · exact h.record m j
  · intro m j entry hentered
    rw [hentry] at hentered
    split at hentered
    · obtain rfl := Option.some.inj hentered
      rcases hreports with hclosed | hhalf
      · exact .inl (congrArg some hclosed)
      · exact .inr (congrArg some hhalf)
    · exact h.reported m j entry hentered
  · intro m j ht
    rw [Shared.Trial, hentry] at ht
    split at ht
    · exact Option.some.inj (congrArg Prod.fst (Option.some.inj ht))
    · exact absurd ht (htrial m j)
  · intro m j m' j' hm hj
    rw [Shared.Trial, hentry] at hm hj
    split at hm
    · next hfirst =>
      split at hj
      · next hsecond => exact ⟨hsecond.1.trans hfirst.1.symm, hsecond.2.trans hfirst.2.symm⟩
      · exact absurd hj (htrial m' j')
    · exact absurd hm (htrial m j)

theorem Shared.Routed.started (h : s.Routed policy cb) {n k : Nat} (ha : s.attempt n k = some a) :
    s.started n k = if a.fn.calledBack then a.startState else none := by
  rw [h.record n k, Shared.entry, ha, Option.bind_some, Attempt.entry]
  split <;> rfl

theorem trial_iff {n k : Nat} (ha : s.attempt n k = some a) :
    s.Trial n k ↔ a.fn.calledBack = true ∧ a.startState = some .halfOpen ∧ a.result = none := by
  rw [Shared.Trial, Shared.entry, ha, Option.bind_some, Attempt.entry]
  split
  · next hcalled => simp [hcalled]
  · next hcalled => simp [hcalled]

theorem Shared.Routed.heard (h : s.Routed policy cb) (now : Nat) {n k : Nat} {outcome : Outcome E R}
    (ha : s.attempt n k = some a) (hresult : a.result = none) (houtcome : a.conclusion policy.cfg = some outcome) :
    (a.fn = .held ∧ policy.heard cb now (s.started n k) a s.breaker = s.breaker) ∨
      (a.fn ≠ .held ∧ a.startState = some .closed ∧ policy.heard cb now (s.started n k) a s.breaker =
        cb.leave now .closed (policy.verdict (some .closed) outcome) s.breaker) ∨
      (a.fn ≠ .held ∧ a.startState = some .halfOpen ∧ s.Trial n k ∧
        policy.heard cb now (s.started n k) a s.breaker =
          cb.leave now .halfOpen (policy.verdict (some .halfOpen) outcome) s.breaker) := by
  have hstarted := h.started ha
  by_cases hheld : a.fn = .held
  · refine .inl ⟨hheld, ?_⟩
    rw [hstarted, hheld]
    rfl
  · have hcalled : a.fn.calledBack = true := by
      cases hfn : a.fn with
      | held => exact absurd hfn hheld
      | _ => rfl
    rw [if_pos hcalled] at hstarted
    have hentry : s.entry n k = some (a.startState, false) := by
      rw [Shared.entry, ha, Option.bind_some, Attempt.entry, if_pos hcalled, hresult]
      rfl
    have hheard : ∀ state, policy.heard cb now (some state) a s.breaker =
        cb.leave now state (policy.verdict a.startState outcome) s.breaker := by
      intro state
      simp only [ResiliencePolicy.heard, houtcome]
    rw [hstarted]
    rcases h.reported n k _ hentry with hclosed | hhalf
    · have hstate : a.startState = some .closed := hclosed
      refine .inr (.inl ⟨hheld, hstate, ?_⟩)
      rw [hstate, hheard, hstate]
    · have hstate : a.startState = some .halfOpen := hhalf
      refine .inr (.inr ⟨hheld, hstate, (trial_iff ha).mpr ⟨hcalled, hstate, hresult⟩, ?_⟩)
      rw [hstate, hheard, hstate]

theorem attempt_eq_some {n k : Nat} (hx : s.calls[n]? = some x) : s.attempt n k = x.attempts[k]? := by
  rw [Shared.attempt, hx]
  rfl

theorem Shared.Routed.concludes (h : s.Routed policy cb) (hcb : cb.Lawful) {n k now : Nat}
    (hx : s.calls[n]? = some x) (hat : x.attempts[k]? = some a)
    (hstep : policy.step x (.attempt k .concludes) = some y) :
    Shared.Routed policy cb
      { s with
        breaker := policy.heard cb now (s.started n k) a s.breaker
        calls := s.calls.set n y } := by
  have ha : s.attempt n k = some a := (attempt_eq_some hx).trans hat
  obtain ⟨hresult, ⟨outcome, houtcome⟩, hentries⟩ := entry_concludes hat hstep
  have hentry : ∀ m j, Shared.entry
      { s with
        breaker := policy.heard cb now (s.started n k) a s.breaker
        calls := s.calls.set n y } m j =
      if m = n ∧ j = k then (s.entry n k).map (fun entry => (entry.1, true)) else s.entry m j := by
    intro m j
    rw [entry_calls, entry_setCall hx, entry_calls, entry_calls]
    by_cases hm : m = n
    · subst hm
      rw [if_pos rfl, hx, hentries j]
      by_cases hj : j = k
      · rw [if_pos hj, if_pos ⟨rfl, hj⟩]
        rfl
      · rw [if_neg hj, if_neg fun hboth => hj hboth.2]
        rfl
    · rw [if_neg (Ne.symm hm), if_neg fun hboth => hm hboth.1]
  have htrial : ∀ m j, (if m = n ∧ j = k then (s.entry n k).map (fun entry => (entry.1, true)) else s.entry m j) =
      some (some CircuitState.halfOpen, false) → ¬(m = n ∧ j = k) ∧ s.Trial m j := by
    intro m j ht
    split at ht
    · obtain ⟨entry, -, hpair⟩ := Option.map_eq_some_iff.mp ht
      cases congrArg Prod.snd hpair
    · next hother => exact ⟨hother, ht⟩
  refine ⟨sound_set h.sound hx hstep, ?_, ?_, ?_, ?_⟩
  · intro m j
    rw [hentry]
    dsimp only
    split
    · next hboth =>
      obtain ⟨rfl, rfl⟩ := hboth
      rw [h.record m j]
      cases s.entry m j <;> rfl
    · exact h.record m j
  · intro m j entry hentered
    rw [hentry] at hentered
    split at hentered
    · obtain ⟨before, hbefore, rfl⟩ := Option.map_eq_some_iff.mp hentered
      exact h.reported n k before hbefore
    · exact h.reported m j entry hentered
  · intro m j ht
    rw [Shared.Trial, hentry] at ht
    obtain ⟨hother, ht⟩ := htrial m j ht
    have hhalf := h.trial m j ht
    dsimp only
    rcases h.heard now ha hresult houtcome with ⟨-, hsame⟩ | ⟨-, -, hleave⟩ | ⟨-, -, hn, -⟩
    · rw [hsame]
      exact hhalf
    · rw [hleave]
      rcases hcb.counted now (policy.verdict (some .closed) outcome) s.breaker with hsame | ⟨hclosed, -⟩
      · exact hsame.trans hhalf
      · rw [hhalf] at hclosed
        cases hclosed
    · exact absurd (h.one n k m j hn ht) hother
  · intro m j m' j' hm hj
    rw [Shared.Trial, hentry] at hm hj
    exact h.one m j m' j' (htrial m j hm).2 (htrial m' j' hj).2

inductive Shared.Moves (policy : ResiliencePolicy E) (cb : CircuitBreaker B) (s : Shared B E R) :
    SharedEvent E R → Shared B E R → Prop
  | execute (parentAborted : Option Bool) (retry : Bool) :
    Moves policy cb s (.execute parentAborted retry)
      { s with calls := s.calls ++ [policy.execute parentAborted retry] }
  | enters {n k now : Nat} {c : B} {x y : Execution E R} : cb.enter now s.breaker = some c →
    s.calls[n]? = some x → policy.step x (.attempt k (.calledBack (some (cb.state c)))) = some y →
    Moves policy cb s (.enters n k now)
      { s with
        breaker := c
        calls := s.calls.set n y
        started := fun m j => if m = n ∧ j = k then some (route (cb.state s.breaker)) else s.started m j }
  | concludes {n k now : Nat} {x y : Execution E R} {a : Attempt E R} : s.calls[n]? = some x →
    x.attempts[k]? = some a → policy.step x (.attempt k .concludes) = some y →
    Moves policy cb s (.concludes n k now)
      { s with
        breaker := policy.heard cb now (s.started n k) a s.breaker
        calls := s.calls.set n y }
  | call {n : Nat} {event : Event E R} {x y : Execution E R} : event.isBreakers = false →
    s.calls[n]? = some x → policy.step x event = some y →
    Moves policy cb s (.call n event) { s with calls := s.calls.set n y }

theorem stepShared_cases {event : SharedEvent E R} (h : policy.stepShared cb s event = some t) :
    s.Moves policy cb event t := by
  cases event with
  | execute parentAborted retry =>
    obtain rfl := Option.some.inj h
    exact .execute parentAborted retry
  | enters n k now =>
    obtain ⟨c, henter, hcalls⟩ := Option.bind_eq_some_iff.mp h
    obtain ⟨calls, hstep, rfl⟩ := Option.map_eq_some_iff.mp hcalls
    obtain ⟨x, y, hx, hy, rfl⟩ := stepCall_eq_some.mp hstep
    exact .enters henter hx hy
  | concludes n k now =>
    obtain ⟨a, ha, hcalls⟩ := Option.bind_eq_some_iff.mp h
    obtain ⟨calls, hstep, rfl⟩ := Option.map_eq_some_iff.mp hcalls
    obtain ⟨x, y, hx, hy, rfl⟩ := stepCall_eq_some.mp hstep
    rw [hx] at ha
    exact .concludes hx ha hy
  | call n event =>
    simp only [ResiliencePolicy.stepShared] at h
    split at h
    · cases h
    · next hother =>
      obtain ⟨calls, hstep, rfl⟩ := Option.map_eq_some_iff.mp h
      obtain ⟨x, y, hx, hy, rfl⟩ := stepCall_eq_some.mp hstep
      exact .call (Bool.eq_false_iff.mpr hother) hx hy

theorem Shared.Routed.moves {event : SharedEvent E R} (h : s.Routed policy cb) (hcb : cb.Lawful)
    (hmoves : s.Moves policy cb event t) : t.Routed policy cb := by
  cases hmoves with
  | execute parentAborted retry => exact h.execute parentAborted retry
  | enters henter hx hstep => exact h.enters hcb henter hx hstep
  | concludes hx hat hstep => exact h.concludes hcb hx hat hstep
  | call hother hx hstep => exact h.call hother hx hstep

theorem routed_start (policy : ResiliencePolicy E) (cb : CircuitBreaker B) (b : B) :
    Shared.Routed policy cb ({ breaker := b } : Shared B E R) where
  sound := by simp
  record _ _ := rfl
  reported := by rintro n k entry ⟨⟩
  trial := by rintro n k ⟨⟩
  one := by rintro n k m j ⟨⟩

theorem owns_of_conclusion {outcome : Outcome E R} (h : a.Sound) (hheld : a.fn ≠ .held)
    (houtcome : a.conclusion policy.cfg = some outcome) (hkept : outcome ≠ cancelled) : a.Owns outcome := by
  rcases conclusion_cases houtcome with ⟨hfn, -⟩ | ⟨-, htimed, hlate⟩ | ⟨-, htimed, hinner⟩
  · exact absurd hfn hheld
  · exact .inl ⟨htimed, hlate⟩
  · exact .inr ⟨htimed, hinner, (h.inner outcome hinner).resolve_left hkept⟩

theorem Shared.Routed.sound_attempt (h : s.Routed policy cb) {n : Nat} (hx : s.calls[n]? = some x) {k : Nat}
    (hat : x.attempts[k]? = some a) : a.Sound :=
  (h.sound x (List.mem_of_getElem? hx)).attempts a (List.mem_of_getElem? hat)

theorem verdict_closed (policy : ResiliencePolicy E) :
    policy.verdict (some .closed) (cancelled : Outcome E R) = .unhandled := rfl

theorem verdict_halfOpen {outcome : Outcome E R} (h : policy.verdict (some .halfOpen) outcome ≠ .handled)
    {error : Thrown E} (herror : outcome = .error error) :
    error.isTaskCancelledError = false ∧ policy.shouldHandle error = false := by
  subst herror
  have hrejected : ∀ error : Thrown E, policy.filter (some .halfOpen) error = policy.shouldHandle error →
      policy.verdict (some .halfOpen) (.error error : Outcome E R) ≠ .handled → policy.shouldHandle error = false := by
    intro error hfilter hverdict
    cases hhandle : policy.shouldHandle error with
    | false => rfl
    | true => exact absurd (if_pos (hfilter.trans hhandle)) hverdict
  cases error with
  | parentCancellation => exact absurd rfl h
  | taskCancelled => exact absurd rfl h
  | brokenCircuit => exact ⟨rfl, hrejected _ rfl h⟩
  | other error => exact ⟨rfl, hrejected _ rfl h⟩

theorem breaker_kept {event : SharedEvent E R} (hcb : cb.Lawful) (hmoves : s.Moves policy cb event t)
    (hstate : cb.state s.breaker = .closed ∨ cb.state s.breaker = .halfOpen) (hmoved : t.breaker ≠ s.breaker) :
    ∃ n k now x y a, event = .concludes n k now ∧ s.calls[n]? = some x ∧ x.attempts[k]? = some a ∧
      policy.step x (.attempt k .concludes) = some y ∧
      t.breaker = policy.heard cb now (s.started n k) a s.breaker := by
  cases hmoves with
  | execute _ _ => exact absurd rfl hmoved
  | @enters n k now c x y henter _ _ =>
    rcases hstate with hclosed | hhalf
    · exact absurd (hcb.passes now s.breaker c henter hclosed) hmoved
    · have hopened := (hcb.tries now s.breaker c henter (by rw [hhalf]; rintro ⟨⟩)).1
      rw [hhalf] at hopened
      cases hopened
  | concludes hx hat hstep => exact ⟨_, _, _, _, _, _, rfl, hx, hat, hstep, rfl⟩
  | call _ _ _ => exact absurd rfl hmoved

theorem Shared.Routed.closed {event : SharedEvent E R} (h : s.Routed policy cb) (hcb : cb.Lawful)
    (hmoves : s.Moves policy cb event t) (hclosed : cb.state s.breaker = .closed) (hmoved : t.breaker ≠ s.breaker) :
    ∃ n k now a outcome, event = .concludes n k now ∧ s.attempt n k = some a ∧
      a.conclusion policy.cfg = some outcome ∧ outcome ≠ cancelled ∧ a.Owns outcome := by
  obtain ⟨n, k, now, x, y, a, rfl, hx, hat, hstep, hbreaker⟩ := breaker_kept hcb hmoves (.inl hclosed) hmoved
  have ha : s.attempt n k = some a := (attempt_eq_some hx).trans hat
  obtain ⟨hresult, ⟨outcome, houtcome⟩, -⟩ := entry_concludes hat hstep
  rw [hbreaker] at hmoved
  rcases h.heard now ha hresult houtcome with ⟨-, hsame⟩ | ⟨hheld, -, hleave⟩ | ⟨-, -, htrial, -⟩
  · exact absurd hsame hmoved
  · have hkept : outcome ≠ cancelled := by
      rintro rfl
      rw [hleave, verdict_closed, hcb.uncounted] at hmoved
      exact hmoved rfl
    exact ⟨n, k, now, a, outcome, rfl, ha, houtcome, hkept,
      owns_of_conclusion (h.sound_attempt hx hat) hheld houtcome hkept⟩
  · rw [h.trial n k htrial] at hclosed
    cases hclosed

theorem Shared.Routed.closes {event : SharedEvent E R} (h : s.Routed policy cb) (hcb : cb.Lawful)
    (hmoves : s.Moves policy cb event t) (hhalf : cb.state s.breaker = .halfOpen)
    (hmoved : cb.state t.breaker ≠ .halfOpen) :
    ∃ n k now a outcome, event = .concludes n k now ∧ s.attempt n k = some a ∧ s.Trial n k ∧
      a.conclusion policy.cfg = some outcome ∧ a.fn ≠ .held ∧ a.Sound ∧
      cb.state t.breaker = if policy.verdict (some .halfOpen) outcome = .handled then .opened else .closed := by
  have hchanged : t.breaker ≠ s.breaker := by
    intro hsame
    rw [hsame] at hmoved
    exact hmoved hhalf
  obtain ⟨n, k, now, x, y, a, rfl, hx, hat, hstep, hbreaker⟩ := breaker_kept hcb hmoves (.inr hhalf) hchanged
  have ha : s.attempt n k = some a := (attempt_eq_some hx).trans hat
  obtain ⟨hresult, ⟨outcome, houtcome⟩, -⟩ := entry_concludes hat hstep
  rcases h.heard now ha hresult houtcome with ⟨-, hsame⟩ | ⟨-, -, hleave⟩ | ⟨hheld, -, htrial, hleave⟩
  · exact absurd (hbreaker.trans hsame) hchanged
  · rw [hbreaker, hleave] at hmoved
    rcases hcb.counted now (policy.verdict (some .closed) outcome) s.breaker with hsame | ⟨hclosed, -⟩
    · exact absurd (hsame.trans hhalf) hmoved
    · rw [hhalf] at hclosed
      cases hclosed
  · refine ⟨n, k, now, a, outcome, rfl, ha, htrial, houtcome, hheld, h.sound_attempt hx hat, ?_⟩
    rw [hbreaker, hleave, hcb.decided now _ s.breaker hhalf]

theorem conclusion_onParentAbort {cfg : ResilienceConfig} (hcalled : a.fn.calledBack = true)
    (hopen : a.conclusion cfg = none) : a.onParentAbort.conclusion cfg = some cancelled := by
  unfold Attempt.conclusion at hopen
  split at hopen
  · next hheld =>
    rw [hheld] at hcalled
    cases hcalled
  · next hheld =>
    split at hopen
    · cases hopen
    · next htimed =>
      have hlistens : (a.fn.calledBack && !a.timedOut) = true := by
        rw [hcalled, Bool.eq_false_iff.mpr htimed]
        rfl
      rw [Attempt.onParentAbort, if_pos hlistens, hopen, Attempt.conclusion]
      split
      · next hfn => exact absurd hfn hheld
      · exact if_neg htimed

theorem Shared.Routed.decides {event : SharedEvent E R} (h : s.Routed policy cb) (hcb : cb.Lawful)
    (hmoves : s.Moves policy cb event t) : s.Decides policy cb event t := by
  refine ⟨h.closed hcb hmoves, ?_, ?_, ?_, ?_, ?_⟩
  · rintro n k now a rfl ha hclosed houtcome
    cases hmoves with
    | @concludes _ _ _ x y b hx hat hstep =>
      rw [attempt_eq_some hx, hat] at ha
      obtain rfl := Option.some.inj ha
      have hb : s.attempt n k = some b := (attempt_eq_some hx).trans hat
      rcases h.heard now hb (entry_concludes hat hstep).1 houtcome with ⟨-, hsame⟩ | ⟨-, -, hleave⟩ | ⟨-, hhalf, -⟩
      · exact hsame
      · dsimp only
        rw [hleave, verdict_closed, hcb.uncounted]
      · rw [hclosed] at hhalf
        cases hhalf
  · rintro n rfl
    cases hmoves with
    | @call _ _ x y _ hx hstep =>
      refine ⟨rfl, fun k a ha hcalled hopen => ?_⟩
      rw [attempt_eq_some hx] at ha
      refine ⟨a.onParentAbort, ?_, conclusion_onParentAbort hcalled hopen⟩
      have hy : (s.calls.set n y)[n]? = some y := by
        rw [List.getElem?_set, if_pos rfl, if_pos (List.getElem?_eq_some_iff.mp hx).1]
      rw [abort_eq hstep] at hy
      rw [abort_eq hstep, Shared.attempt, hy]
      dsimp only [Option.bind_some]
      rw [List.getElem?_map, ha]
      rfl
  · intro hhalf hclosed
    obtain ⟨n, k, now, a, outcome, rfl, ha, htrial, houtcome, hheld, hsound, hstate⟩ :=
      h.closes hcb hmoves hhalf (by rw [hclosed]; rintro ⟨⟩)
    have hverdict : policy.verdict (some .halfOpen) outcome ≠ .handled := by
      intro hhandled
      rw [hstate, if_pos hhandled] at hclosed
      cases hclosed
    have hkept : outcome ≠ cancelled := by
      rintro rfl
      exact hverdict rfl
    rcases owns_of_conclusion hsound hheld houtcome hkept with ⟨-, rfl⟩ | ⟨htimed, hinner, hfn⟩
    · exact absurd rfl hverdict
    · exact ⟨n, k, now, a, outcome, rfl, ha, htrial, fun m j hm => h.one n k m j htrial hm, htimed, hinner, hfn,
        fun error herror => verdict_halfOpen hverdict herror⟩
  · intro hhalf hmoved
    obtain ⟨n, k, now, a, outcome, hevent, -, htrial, -⟩ := h.closes hcb hmoves hhalf hmoved
    exact ⟨n, k, now, hevent, htrial⟩
  · rintro n k now a rfl ha hclosed hhalf
    by_contra hmoved
    obtain ⟨m, j, later, b, outcome, hevent, -, htrial, -⟩ := h.closes hcb hmoves hhalf hmoved
    cases hevent
    have hstate := ((trial_iff ha).mp htrial).2.1
    rw [hclosed] at hstate
    cases hstate

theorem trial_decides (hcb : cb.Lawful) {b : B} {events : List (SharedEvent E R)} {event : SharedEvent E R}
    (hrun : run (policy.stepShared cb) { breaker := b } events = some s)
    (hstep : policy.stepShared cb s event = some t) : s.Decides policy cb event t := by
  have hrouted : s.Routed policy cb :=
    invariant (fun _ _ _ h hstep => Shared.Routed.moves h hcb (stepShared_cases hstep)) (routed_start policy cb b) hrun
  exact hrouted.decides hcb (stepShared_cases hstep)

def strict : CircuitBreaker CircuitState where
  state b := b
  enter
    | _, .closed => some .closed
    | _, .opened => some .halfOpen
    | _, .halfOpen => none
  leave
    | _, .closed, .handled, .closed => .opened
    | _, .halfOpen, .handled, .halfOpen => .opened
    | _, .halfOpen, _, .halfOpen => .closed
    | _, _, _, b => b

theorem strict_lawful : strict.Lawful where
  passes := by
    rintro now b c henter hclosed
    cases b with
    | closed => exact (Option.some.inj henter).symm
    | _ => cases hclosed
  tries := by
    rintro now b c henter hopened
    cases b with
    | closed => exact absurd rfl hopened
    | opened => exact ⟨rfl, congrArg strict.state (Option.some.inj henter).symm⟩
    | halfOpen => cases henter
  uncounted := by
    rintro now b
    cases b <;> rfl
  counted := by
    rintro now verdict b
    cases b <;> cases verdict <;> simp [strict]
  decided := by
    rintro now verdict b hhalf
    cases b with
    | halfOpen => cases verdict <;> rfl
    | _ => cases hhalf

def cancelledTrial : List (SharedEvent Nat Nat) :=
  [.execute none false, .enters 0 0 0, .call 0 (.attempt 0 .begins),
    .call 0 (.attempt 0 (.fnSettles (.error (.other 503)))), .call 0 (.attempt 0 .resumes), .concludes 0 0 0,
    .execute (some false) false, .enters 1 0 0, .call 1 (.attempt 0 .begins), .call 1 .abort]

theorem trial_decides_cancelled :
    ∃ s t : Shared CircuitState Nat Nat, s.breaker = .halfOpen ∧ t.breaker = .opened ∧
      s.Decides { cfg := { circuitBreaker := true } } strict (.concludes 1 0 0) t := by
  have hstates : ((run (ResiliencePolicy.stepShared { cfg := { circuitBreaker := true } } strict)
      { breaker := .closed } cancelledTrial).bind fun s =>
        (ResiliencePolicy.stepShared { cfg := { circuitBreaker := true } } strict s (.concludes 1 0 0)).map fun t =>
          (s.breaker, t.breaker)) = some (.halfOpen, .opened) := by
    decide
  obtain ⟨s, hs, hmap⟩ := Option.bind_eq_some_iff.mp hstates
  obtain ⟨t, ht, hpair⟩ := Option.map_eq_some_iff.mp hmap
  exact ⟨s, t, congrArg Prod.fst hpair, congrArg Prod.snd hpair, trial_decides strict_lawful hs ht⟩

end HomelabApps.Resilience
