import HomelabApps.Resilience.ResiliencePolicy.Attempts
import Mathlib.Algebra.Ring.Nat

universe u v

namespace HomelabApps.Resilience

open HomelabApps.Library.Transition

variable {E : Type u} {R : Type v}

def Stage.Cancels : Stage E R → Prop
  | .awaiting (some (.error _)) => True
  | .awaiting _ => False
  | .backoff .waiting => False
  | .settled outcome => outcome = cancelled
  | _ => True

structure Execution.Cancelling (s : Execution E R) : Prop where
  aborted : s.parentAborted = some true
  stage : s.stage.Cancels

def Event.own : Event E R → Bool
  | .resume => true
  | .wait => true
  | .next => true
  | _ => false

/-- The outcome ends the call, however many retries are left: a success, or a failure that a closed
breaker does not count. -/
def ResiliencePolicy.ends (policy : ResiliencePolicy E) : Outcome E R → Bool
  | .ok _ => true
  | .error error => !policy.filter (some .closed) error

def Execution.outcomes (s : Execution E R) : List (Outcome E R) := s.attempts.filterMap fun a => a.result

def ResiliencePolicy.Retried (policy : ResiliencePolicy E) (a : Attempt E R) : Prop :=
  ∃ outcome, a.result = some outcome ∧ policy.ends outcome = false

def ResiliencePolicy.At (policy : ResiliencePolicy E) (maxRetries n : Nat) (last : Attempt E R) : Stage E R → Prop
  | .awaiting none => True
  | .awaiting (some outcome) => last.result = some outcome
  | .settled outcome => last.result = some outcome ∧ (policy.ends outcome = true ∨ n = maxRetries)
  | .backoff .rejected => False
  | _ => policy.Retried last ∧ n < maxRetries

structure Execution.Counted (policy : ResiliencePolicy E) (s : Execution E R) (earlier : List (Attempt E R))
    (last : Attempt E R) : Prop where
  attempts : s.attempts = earlier ++ [last]
  retried : ∀ a ∈ earlier, policy.Retried a
  few : earlier.length ≤ s.maxRetries
  stage : policy.At s.maxRetries earlier.length last s.stage
  alive : ∀ a ∈ s.attempts, a.Alive

def Stage.between : Stage E R → Bool
  | .retrying => true
  | .backoff _ => true
  | _ => false

structure Execution.Sound (policy : ResiliencePolicy E) (s : Execution E R) : Prop where
  attempts : ∀ a ∈ s.attempts, a.Sound
  length : s.attempts.length ≤ s.maxRetries + 1
  room : s.stage.between = true → s.attempts.length ≤ s.maxRetries
  counted : s.parentAborted ≠ some true → ∃ earlier last, s.Counted policy earlier last

variable {policy : ResiliencePolicy E} {s t : Execution E R}

theorem filter_closed (policy : ResiliencePolicy E) (error : Thrown E) :
    policy.filter (some .closed) error = (!error.isParentCancellationError && policy.shouldHandle error) := by
  cases error <;> rfl

inductive Execution.Moves (policy : ResiliencePolicy E) (s : Execution E R) : Execution E R → Prop
  | abort : s.parentAborted = some false → Moves policy s
      { s with
        parentAborted := some true
        attempts := s.attempts.map Attempt.onParentAbort
        stage := s.stage.onParentAbort }
  | attempt {k : Nat} {a b : Attempt E R} : s.attempts[k]? = some a → a.Moves s.parentAborted b →
      Moves policy s { s with attempts := s.attempts.set k b }
  | forward {a : Attempt E R} {outcome : Outcome E R} : s.stage = .awaiting none → s.attempts.getLast? = some a →
      a.result = some outcome → Moves policy s { s with stage := .awaiting (some outcome) }
  | resolved {result : R} : s.stage = .awaiting (some (.ok result)) →
      Moves policy s { s with stage := .settled (.ok result) }
  | caught {error : Thrown E} : s.stage = .awaiting (some (.error error)) →
      Moves policy s { s with stage := policy.catches s error }
  | wait : s.stage = .retrying →
      Moves policy s { s with stage := .backoff (if s.aborted then .rejected else .waiting) }
  | timer : s.stage = .backoff .waiting → Moves policy s { s with stage := .backoff .fired }
  | next : s.stage = .backoff .fired → Moves policy s s.loop
  | rejected : s.stage = .backoff .rejected → Moves policy s { s with stage := .settled cancelled }

theorem step_cases {event : Event E R} (h : policy.step s event = some t) : s.Moves policy t := by
  cases event with
  | abort =>
    simp only [ResiliencePolicy.step] at h
    split at h
    · next hparent =>
      cases h
      exact .abort hparent
    · cases h
  | attempt k event =>
    simp only [ResiliencePolicy.step] at h
    split at h
    · next hat =>
      obtain ⟨b, hb, rfl⟩ := Option.map_eq_some_iff.mp h
      exact .attempt hat (Attempt.step_cases hb)
    · cases h
  | forward =>
    simp only [ResiliencePolicy.step] at h
    split at h
    · next hstage hlast =>
      obtain ⟨outcome, hresult, rfl⟩ := Option.map_eq_some_iff.mp h
      exact .forward hstage hlast hresult
    · cases h
  | resume =>
    simp only [ResiliencePolicy.step] at h
    split at h
    · next hstage =>
      cases h
      exact .resolved hstage
    · next hstage =>
      cases h
      exact .caught hstage
    · cases h
  | wait =>
    simp only [ResiliencePolicy.step] at h
    split at h
    · next hstage =>
      cases h
      exact .wait hstage
    · cases h
  | timer =>
    simp only [ResiliencePolicy.step] at h
    split at h
    · next hstage =>
      cases h
      exact .timer hstage
    · cases h
  | next =>
    simp only [ResiliencePolicy.step] at h
    split at h
    · next hstage =>
      cases h
      exact .next hstage
    · next hstage =>
      cases h
      exact .rejected hstage
    · cases h

theorem mem_set {l : List (Attempt E R)} {P : Attempt E R → Prop} {k : Nat} {b : Attempt E R}
    (h : ∀ a ∈ l, P a) (hb : P b) : ∀ a ∈ l.set k b, P a := by
  intro a ha
  rcases List.mem_or_eq_of_mem_set ha with ha | rfl
  · exact h a ha
  · exact hb

theorem countP_set {l : List (Attempt E R)} {k : Nat} {a b : Attempt E R} (ha : l[k]? = some a)
    (h : b.fn.invoked = a.fn.invoked) :
    (l.set k b).countP (fun a => a.fn.invoked) = l.countP fun a => a.fn.invoked := by
  obtain ⟨hk, rfl⟩ := List.getElem?_eq_some_iff.mp ha
  rw [List.countP_set hk, h]
  split
  · have hpos : 0 < l.countP fun a => a.fn.invoked := List.countP_pos_iff.mpr ⟨l[k], List.getElem_mem hk, ‹_›⟩
    omega
  · rfl

theorem loop_aborted (h : s.parentAborted = some true) : s.loop = { s with stage := .settled cancelled } := by
  rw [Execution.loop, Execution.aborted, h]
  rfl

theorem aborted_moves (h : s.parentAborted = some true) (hmoves : s.Moves policy t) :
    t.parentAborted = some true ∧ t.invocations = s.invocations := by
  cases hmoves with
  | abort hparent =>
    rw [h] at hparent
    cases hparent
  | attempt hat hmoves =>
    rw [h] at hmoves
    exact ⟨h, countP_set hat hmoves.invoked⟩
  | next _ =>
    rw [loop_aborted h]
    exact ⟨h, rfl⟩
  | _ => exact ⟨h, rfl⟩

theorem aborted_run {events : List (Event E R)} (h : s.parentAborted = some true)
    (hrun : run policy.step s events = some t) : t.parentAborted = some true ∧ t.invocations = s.invocations := by
  induction events generalizing s with
  | nil =>
    obtain rfl := Option.some.inj hrun
    exact ⟨h, rfl⟩
  | cons event events ih =>
    obtain ⟨u, hstep, hrest⟩ := run_cons_eq_some.mp hrun
    obtain ⟨hu, hkept⟩ := aborted_moves h (step_cases hstep)
    obtain ⟨ht, hlater⟩ := ih hu hrest
    exact ⟨ht, hlater.trans hkept⟩

theorem catches_aborted (h : s.parentAborted = some true) (error : Thrown E) :
    policy.catches s error = .settled cancelled := by
  rw [ResiliencePolicy.catches, Execution.aborted, h]
  simp

theorem Execution.Cancelling.moves (h : s.Cancelling) (hmoves : s.Moves policy t) : t.Cancelling := by
  refine ⟨(aborted_moves h.aborted hmoves).1, ?_⟩
  obtain ⟨haborted, hstage⟩ := h
  cases hmoves with
  | abort hparent =>
    rw [haborted] at hparent
    cases hparent
  | attempt _ _ => exact hstage
  | forward hawaiting _ _ =>
    rw [hawaiting] at hstage
    cases hstage
  | resolved hawaiting =>
    rw [hawaiting] at hstage
    cases hstage
  | caught _ =>
    dsimp only
    rw [catches_aborted haborted]
    rfl
  | wait _ =>
    rw [Execution.aborted, haborted]
    trivial
  | timer hbackoff =>
    rw [hbackoff] at hstage
    cases hstage
  | next _ =>
    rw [loop_aborted haborted]
    rfl
  | rejected _ => rfl

theorem cancelling_run {events : List (Event E R)} (h : s.Cancelling) (hrun : run policy.step s events = some t) :
    t.Cancelling :=
  invariant (fun _ _ _ hcancelling hstep => Execution.Cancelling.moves hcancelling (step_cases hstep)) h hrun

theorem Execution.Cancelling.rejects (h : s.Cancelling) :
    ∃ events : List (Event E R), events.length ≤ 2 ∧ (∀ event ∈ events, event.own = true) ∧
      ∃ t, run policy.step s events = some t ∧ t.stage = .settled cancelled := by
  obtain ⟨haborted, hcancels⟩ := h
  cases hstage : s.stage with
  | awaiting guarded =>
    rw [hstage] at hcancels
    match guarded, hcancels, hstage with
    | some (.error error), _, hstage =>
      refine ⟨[.resume], by simp, by simp [Event.own], { s with stage := policy.catches s error }, ?_,
        catches_aborted haborted error⟩
      rw [run_cons, ResiliencePolicy.step, hstage]
      rfl
  | retrying =>
    refine ⟨[.wait, .next], by simp, by simp [Event.own], { s with stage := .settled cancelled }, ?_, rfl⟩
    rw [run_cons, ResiliencePolicy.step, hstage, Execution.aborted, haborted]
    rfl
  | backoff timer =>
    rw [hstage] at hcancels
    refine ⟨[.next], by simp, by simp [Event.own], { s with stage := .settled cancelled }, ?_, rfl⟩
    rw [run_cons, ResiliencePolicy.step, hstage]
    cases timer with
    | waiting => cases hcancels
    | fired => exact congrArg some (loop_aborted haborted)
    | rejected => rfl
  | settled outcome =>
    rw [hstage] at hcancels
    cases hcancels
    exact ⟨[], by simp, by simp, s, rfl, hstage⟩

theorem abort_eq (hstep : policy.step s .abort = some t) :
    t = { s with
      parentAborted := some true
      attempts := s.attempts.map Attempt.onParentAbort
      stage := s.stage.onParentAbort } := by
  simp only [ResiliencePolicy.step] at hstep
  split at hstep
  · exact (Option.some.inj hstep).symm
  · cases hstep

theorem invocations_abort (hstep : policy.step s .abort = some t) : t.invocations = s.invocations := by
  rw [abort_eq hstep, Execution.invocations, Execution.invocations, List.countP_map]
  refine List.countP_congr fun a _ => ?_
  rw [Function.comp_apply, fn_onParentAbort]

theorem cancelling_of_abort (hopen : ∀ outcome, s.stage ≠ .settled outcome)
    (hpending : ∀ result, s.stage ≠ .awaiting (some (.ok result))) (hstep : policy.step s .abort = some t) :
    t.Cancelling := by
  rw [abort_eq hstep]
  refine ⟨rfl, ?_⟩
  cases hstage : s.stage with
  | awaiting guarded =>
    cases guarded with
    | none => trivial
    | some outcome =>
      cases outcome with
      | ok result => exact absurd hstage (hpending result)
      | error error => trivial
  | retrying => trivial
  | backoff timer => cases timer <;> trivial
  | settled outcome => exact absurd hstage (hopen outcome)

theorem Attempt.Moves.result {a b : Attempt E R} {parentAborted : Option Bool} {outcome : Outcome E R}
    (hmoves : a.Moves parentAborted b) (h : a.result = some outcome) : b.result = some outcome := by
  cases hmoves with
  | concluded hresult _ =>
    rw [h] at hresult
    cases hresult
  | _ => exact h

theorem ResiliencePolicy.Retried.moves {a b : Attempt E R} {parentAborted : Option Bool}
    (h : policy.Retried a) (hmoves : a.Moves parentAborted b) : policy.Retried b := by
  obtain ⟨outcome, hresult, hends⟩ := h
  exact ⟨outcome, hmoves.result hresult, hends⟩

theorem ResiliencePolicy.At.moves {maxRetries n : Nat} {a b : Attempt E R} {parentAborted : Option Bool}
    {stage : Stage E R} (h : policy.At maxRetries n a stage) (hmoves : a.Moves parentAborted b) :
    policy.At maxRetries n b stage := by
  cases stage with
  | awaiting guarded =>
    cases guarded with
    | none => trivial
    | some outcome => exact hmoves.result h
  | retrying => exact ⟨h.1.moves hmoves, h.2⟩
  | backoff timer =>
    cases timer with
    | waiting => exact ⟨h.1.moves hmoves, h.2⟩
    | fired => exact ⟨h.1.moves hmoves, h.2⟩
    | rejected => cases h
  | settled outcome => exact ⟨hmoves.result h.1, h.2⟩

theorem Execution.Counted.attempt {earlier : List (Attempt E R)} {last a b : Attempt E R} {k : Nat}
    (h : s.Counted policy earlier last) (hat : s.attempts[k]? = some a) (hmoves : a.Moves s.parentAborted b)
    (hparent : s.parentAborted ≠ some true) :
    ∃ earlier last, Execution.Counted policy { s with attempts := s.attempts.set k b } earlier last := by
  have halive : ∀ c ∈ s.attempts.set k b, c.Alive :=
    mem_set h.alive ((h.alive a (List.mem_of_getElem? hat)).moves hmoves hparent)
  by_cases hk : k < earlier.length
  · have hearlier : earlier[k]? = some a := by
      rw [h.attempts, List.getElem?_append_left hk] at hat
      exact hat
    refine ⟨earlier.set k b, last, ?_, ?_, ?_, ?_, halive⟩
    · dsimp only
      rw [h.attempts, List.set_append_left _ _ hk]
    · exact mem_set h.retried ((h.retried a (List.mem_of_getElem? hearlier)).moves hmoves)
    · rw [List.length_set]
      exact h.few
    · rw [List.length_set]
      exact h.stage
  · rw [h.attempts, List.getElem?_append_right (Nat.le_of_not_lt hk), List.getElem?_singleton] at hat
    obtain ⟨hzero, hlast⟩ := Option.ite_none_right_eq_some.mp hat
    obtain rfl := Option.some.inj hlast
    refine ⟨earlier, b, ?_, h.retried, h.few, h.stage.moves hmoves, halive⟩
    dsimp only
    rw [h.attempts, List.set_append_right _ _ (Nat.le_of_not_lt hk), hzero]
    rfl

theorem Execution.Counted.caught {earlier : List (Attempt E R)} {last : Attempt E R} {error : Thrown E}
    (h : s.Counted policy earlier last) (hparent : s.parentAborted ≠ some true)
    (hstage : s.stage = .awaiting (some (.error error))) :
    policy.At s.maxRetries earlier.length last (policy.catches s error) := by
  have hresult : last.result = some (.error error) := by
    have := h.stage
    rw [hstage] at this
    exact this
  have hattempt : s.attempt = earlier.length := by
    rw [Execution.attempt, h.attempts, List.length_append]
    rfl
  have haborted : s.aborted = false := decide_eq_false hparent
  rw [ResiliencePolicy.catches, haborted, Bool.or_false, hattempt]
  have hends : policy.ends (.error error : Outcome E R) =
      (error.isParentCancellationError || !policy.shouldHandle error) := by
    rw [ResiliencePolicy.ends, filter_closed]
    simp
  cases hcancelled : error.isParentCancellationError with
  | true =>
    cases error with
    | parentCancellation => exact ⟨hresult, .inl (hends.trans rfl)⟩
    | _ => cases hcancelled
  | false =>
    rw [hcancelled, Bool.false_or] at hends
    rw [if_neg (by simp)]
    split
    · next hstop =>
      refine ⟨hresult, ?_⟩
      rw [hends]
      rcases (Bool.or_eq_true _ _).mp hstop with hmax | hhandle
      · exact .inr (Nat.le_antisymm h.few (of_decide_eq_true hmax))
      · exact .inl hhandle
    · next hgo =>
      rw [Bool.or_eq_true, not_or] at hgo
      refine ⟨⟨_, hresult, ?_⟩, ?_⟩
      · rw [hends]
        exact Bool.eq_false_iff.mpr hgo.2
      · exact Nat.lt_of_not_le fun hle => hgo.1 (decide_eq_true hle)

theorem Execution.Sound.stage {stage : Stage E R} (h : s.Sound policy)
    (hroom : stage.between = true → s.attempts.length ≤ s.maxRetries)
    (hat : s.parentAborted ≠ some true → ∀ earlier last, s.Counted policy earlier last →
      policy.At s.maxRetries earlier.length last stage) :
    Execution.Sound policy { s with stage := stage } := by
  refine ⟨h.attempts, h.length, hroom, fun hparent => ?_⟩
  obtain ⟨earlier, last, hcounted⟩ := h.counted hparent
  exact ⟨earlier, last, hcounted.attempts, hcounted.retried, hcounted.few,
    hat hparent earlier last hcounted, hcounted.alive⟩

theorem Execution.Counted.at {earlier : List (Attempt E R)} {last : Attempt E R} {stage : Stage E R}
    (h : s.Counted policy earlier last) (hstage : s.stage = stage) :
    policy.At s.maxRetries earlier.length last stage := hstage ▸ h.stage

theorem Execution.Sound.between (h : s.Sound policy) {stage : Stage E R} (hstage : s.stage = stage)
    (hbetween : stage.between = true) : s.attempts.length ≤ s.maxRetries :=
  h.room (hstage ▸ hbetween)

theorem forall_concat {l : List (Attempt E R)} {P : Attempt E R → Prop} {b : Attempt E R} (h : ∀ a ∈ l, P a)
    (hb : P b) : ∀ a ∈ l ++ [b], P a := by
  intro a ha
  rcases List.mem_append.mp ha with ha | ha
  · exact h a ha
  · rw [List.mem_singleton.mp ha]
    exact hb

theorem Execution.Sound.loop (h : s.Sound policy) (hstage : s.stage = .backoff .fired) : s.loop.Sound policy := by
  unfold Execution.loop
  split
  · next haborted =>
    refine h.stage (by rintro ⟨⟩) fun hparent => ?_
    exact absurd (of_decide_eq_true haborted) hparent
  · refine ⟨forall_concat h.attempts sound_new, ?_, (by rintro ⟨⟩), fun hparent => ?_⟩
    · rw [List.length_append, List.length_singleton]
      exact Nat.succ_le_succ (h.between hstage rfl)
    · obtain ⟨earlier, last, hcounted⟩ := h.counted hparent
      obtain ⟨hretried, hlt⟩ := hcounted.at hstage
      refine ⟨earlier ++ [last], {}, by rw [hcounted.attempts], forall_concat hcounted.retried hretried, ?_, trivial,
        forall_concat hcounted.alive alive_new⟩
      rw [List.length_append, List.length_singleton]
      exact hlt

theorem Execution.Sound.moves (h : s.Sound policy) (hmoves : s.Moves policy t) : t.Sound policy := by
  cases hmoves with
  | abort _ =>
    refine ⟨?_, ?_, ?_, fun hparent => absurd rfl hparent⟩
    · intro b hb
      obtain ⟨a, ha, rfl⟩ := List.mem_map.mp hb
      exact (h.attempts a ha).onParentAbort
    · rw [List.length_map]
      exact h.length
    · intro hbetween
      rw [List.length_map]
      refine h.room ?_
      cases hstage : s.stage with
      | retrying => rfl
      | backoff timer => rfl
      | _ =>
        rw [hstage] at hbetween
        cases hbetween
  | attempt hat hmoves =>
    refine ⟨mem_set h.attempts ((h.attempts _ (List.mem_of_getElem? hat)).moves hmoves), ?_, ?_, ?_⟩
    · rw [List.length_set]
      exact h.length
    · rw [List.length_set]
      exact h.room
    · intro hparent
      obtain ⟨earlier, last, hcounted⟩ := h.counted hparent
      exact hcounted.attempt hat hmoves hparent
  | forward _ hlast hresult =>
    refine h.stage (by rintro ⟨⟩) fun hparent earlier last hcounted => ?_
    rw [hcounted.attempts, List.getLast?_concat] at hlast
    obtain rfl := Option.some.inj hlast
    exact hresult
  | resolved hstage =>
    refine h.stage (by rintro ⟨⟩) fun hparent earlier last hcounted => ?_
    exact ⟨hcounted.at hstage, .inl rfl⟩
  | caught hstage =>
    refine h.stage (fun hbetween => ?_) fun hparent earlier last hcounted => hcounted.caught hparent hstage
    unfold ResiliencePolicy.catches at hbetween
    split at hbetween
    · cases hbetween
    · split at hbetween
      · cases hbetween
      · next hgo =>
        rw [Bool.or_eq_true, not_or, decide_eq_true_eq, Execution.attempt] at hgo
        omega
  | wait hstage =>
    refine h.stage (fun _ => h.between hstage rfl) fun hparent earlier last hcounted => ?_
    rw [if_neg (by simpa [Execution.aborted] using hparent)]
    have hlast := hcounted.at hstage
    exact hlast
  | timer hstage =>
    refine h.stage (fun _ => h.between hstage rfl) fun hparent earlier last hcounted => ?_
    have hlast := hcounted.at hstage
    exact hlast
  | next hstage => exact h.loop hstage
  | rejected hstage =>
    refine h.stage (by rintro ⟨⟩) fun hparent earlier last hcounted => ?_
    exact absurd (hcounted.at hstage) id

theorem sound_first (policy : ResiliencePolicy E) (maxRetries : Nat) (parentAborted : Option Bool) :
    (Execution.loop ⟨maxRetries, parentAborted, [], .backoff .fired⟩ : Execution E R).Sound policy := by
  unfold Execution.loop
  split
  · next haborted =>
    refine ⟨by simp, Nat.zero_le _, (by rintro ⟨⟩), fun hparent => ?_⟩
    exact absurd (of_decide_eq_true haborted) hparent
  · refine ⟨forall_concat (by simp) sound_new, Nat.le_add_left 1 maxRetries, (by rintro ⟨⟩), fun _ => ?_⟩
    exact ⟨[], {}, rfl, by simp, Nat.zero_le _, trivial, forall_concat (by simp) alive_new⟩

theorem sound_execute (policy : ResiliencePolicy E) (parentAborted : Option Bool) (retry : Bool) :
    (policy.execute parentAborted retry : Execution E R).Sound policy := sound_first policy _ parentAborted

theorem sound_run {parentAborted : Option Bool} {retry : Bool} {events : List (Event E R)}
    (h : run policy.step (policy.execute parentAborted retry) events = some s) : s.Sound policy :=
  invariant (fun _ _ _ hsound hstep => Execution.Sound.moves hsound (step_cases hstep))
    (sound_execute policy parentAborted retry) h

def Attempt.verdict (a : Attempt E R) : Option (Outcome E R) :=
  if a.timedOut then some (.error .taskCancelled)
  else
    match a.fn with
    | .settled outcome _ => some outcome
    | _ => none

def Execution.Unrefused (s : Execution E R) : Prop := ∀ a ∈ s.attempts, a.result.isSome = true → a.fn ≠ .held

theorem Attempt.Alive.verdict {a : Attempt E R} {outcome : Outcome E R} (h : a.Alive) (hsound : a.Sound)
    (hresult : a.result = some outcome) (hheld : a.fn ≠ .held) :
    a.verdict = some outcome ∧ a.fn.invoked = true := by
  cases htimed : a.timedOut with
  | true =>
    rw [hsound.late hheld htimed outcome hresult]
    exact ⟨if_pos htimed, hsound.timedOut htimed⟩
  | false =>
    have hfn := h.inner outcome (hsound.result hheld htimed outcome hresult)
    rw [Attempt.verdict, htimed, hfn]
    exact ⟨rfl, rfl⟩

theorem outcomes_eq_map {l : List (Attempt E R)} (h : ∀ a ∈ l, a.result.isSome = true) :
    (l.filterMap fun a => a.result).length = l.length := by
  induction l with
  | nil => rfl
  | cons a l ih =>
    obtain ⟨outcome, houtcome⟩ := Option.isSome_iff_exists.mp (h a List.mem_cons_self)
    rw [List.filterMap_cons_some houtcome, List.length_cons, List.length_cons,
      ih fun b hb => h b (List.mem_cons_of_mem _ hb)]

theorem Execution.Counted.settled {earlier : List (Attempt E R)} {last : Attempt E R} {outcome : Outcome E R}
    (h : s.Counted policy earlier last) (hsound : s.Sound policy) (hstage : s.stage = .settled outcome)
    (hunrefused : s.Unrefused) :
    s.invocations = min (1 + s.maxRetries) (s.outcomes.findIdx policy.ends + 1) ∧
      s.outcomes.length = s.invocations ∧ s.outcomes.getLast? = some outcome := by
  obtain ⟨hresult, hlast⟩ := h.at hstage
  have hended : ∀ a ∈ s.attempts, a.result.isSome = true := by
    rw [h.attempts]
    refine forall_concat (fun a ha => ?_) (by rw [hresult]; rfl)
    obtain ⟨outcome, houtcome, -⟩ := h.retried a ha
    rw [houtcome]
    rfl
  have hinvocations : s.invocations = s.attempts.length := by
    rw [Execution.invocations, List.countP_eq_length]
    intro a ha
    obtain ⟨outcome, houtcome⟩ := Option.isSome_iff_exists.mp (hended a ha)
    exact ((h.alive a ha).verdict (hsound.attempts a ha) houtcome (hunrefused a ha (hended a ha))).2
  have houtcomes : s.outcomes = (earlier.filterMap fun a => a.result) ++ [outcome] := by
    rw [Execution.outcomes, h.attempts, List.filterMap_append, List.filterMap_cons_some hresult, List.filterMap_nil]
  have hcount : (earlier.filterMap fun a => a.result).length = earlier.length := by
    refine outcomes_eq_map fun a ha => hended a ?_
    rw [h.attempts]
    exact List.mem_append_left _ ha
  have hlength : s.attempts.length = earlier.length + 1 := by
    rw [h.attempts, List.length_append, List.length_singleton]
  refine ⟨?_, ?_, by rw [houtcomes, List.getLast?_concat]⟩
  · have hretried : ¬ (earlier.filterMap fun a => a.result).findIdx policy.ends <
        (earlier.filterMap fun a => a.result).length := by
      rw [List.findIdx_lt_length]
      rintro ⟨x, hx, hends⟩
      obtain ⟨a, ha, hax⟩ := List.mem_filterMap.mp hx
      obtain ⟨y, hy, hopen⟩ := h.retried a ha
      rw [hax] at hy
      rw [Option.some.inj hy, hopen] at hends
      cases hends
    rw [hinvocations, hlength, houtcomes, List.findIdx_append, if_neg hretried, hcount, List.findIdx_singleton]
    have hfew := h.few
    rcases hlast with hends | hmax
    · rw [if_pos hends]
      omega
    · split <;> omega
  · rw [hinvocations, hlength, houtcomes, List.length_append, hcount, List.length_singleton]

def Stage.rank : Stage E R → Nat
  | .awaiting none => 6
  | .awaiting (some _) => 5
  | .retrying => 4
  | .backoff .waiting => 3
  | .backoff .fired => 2
  | .backoff .rejected => 1
  | .settled _ => 0

def parentRank : Option Bool → Nat
  | some false => 1
  | _ => 0

def Execution.rank (s : Execution E R) : Nat :=
  12 * (s.maxRetries + 1 - s.attempts.length) + (s.attempts.map Attempt.rank).sum + s.stage.rank +
    parentRank s.parentAborted

theorem sum_set {l : List (Attempt E R)} {k : Nat} {a b : Attempt E R} (ha : l[k]? = some a)
    (h : b.rank < a.rank) : ((l.set k b).map Attempt.rank).sum < (l.map Attempt.rank).sum := by
  induction l generalizing k with
  | nil => cases ha
  | cons c l ih =>
    cases k with
    | zero =>
      obtain rfl := Option.some.inj ha
      simp only [List.set_cons_zero, List.map_cons, List.sum_cons]
      omega
    | succ k =>
      have := ih ha
      simp only [List.set_cons_succ, List.map_cons, List.sum_cons]
      omega

theorem rank_onParentAbort_le (stage : Stage E R) : stage.onParentAbort.rank ≤ stage.rank := by
  cases stage with
  | awaiting guarded => cases guarded <;> simp [Stage.onParentAbort, Stage.rank, settle]
  | backoff timer => cases timer <;> simp [Stage.onParentAbort, Stage.rank]
  | _ => exact Nat.le_refl _

theorem rank_catches (policy : ResiliencePolicy E) (s : Execution E R) (error : Thrown E) :
    (policy.catches s error).rank ≤ 4 := by
  unfold ResiliencePolicy.catches
  split
  · exact Nat.zero_le 4
  · split
    · exact Nat.zero_le 4
    · exact Nat.le_refl 4

theorem rank_stage {stage : Stage E R} (h : stage.rank < s.stage.rank) :
    Execution.rank { s with stage := stage } < s.rank := by
  simp only [Execution.rank]
  omega

theorem Execution.Sound.rank (h : s.Sound policy) (hmoves : s.Moves policy t) : t.rank < s.rank := by
  cases hmoves with
  | abort hparent =>
    have hstage := rank_onParentAbort_le s.stage
    have hranks : (s.attempts.map Attempt.onParentAbort).map Attempt.rank = s.attempts.map Attempt.rank := by
      rw [List.map_map]
      exact List.map_congr_left fun a _ => rank_onParentAbort a
    simp only [Execution.rank, hparent, hranks, List.length_map, parentRank]
    omega
  | attempt hat hmoves =>
    have hsum := sum_set hat hmoves.rank
    simp only [Execution.rank, List.length_set]
    omega
  | forward hstage _ _ =>
    apply rank_stage
    rw [hstage]
    exact Nat.lt_succ_self 5
  | resolved hstage =>
    apply rank_stage
    rw [hstage]
    exact Nat.zero_lt_succ 4
  | caught hstage =>
    apply rank_stage
    rw [hstage]
    exact Nat.lt_succ_of_le (rank_catches policy s _)
  | wait hstage =>
    apply rank_stage
    rw [hstage]
    split
    · exact Nat.le_add_left 2 2
    · exact Nat.lt_succ_self 3
  | timer hstage =>
    apply rank_stage
    rw [hstage]
    exact Nat.lt_succ_self 2
  | next hstage =>
    have hlength := h.between hstage rfl
    unfold Execution.loop
    split
    · apply rank_stage
      rw [hstage]
      exact Nat.zero_lt_succ 1
    · have hnew : Attempt.rank ({} : Attempt E R) = 6 := rfl
      simp only [Execution.rank, hstage, List.length_append, List.length_singleton, List.map_append, List.map_cons,
        List.map_nil, List.sum_append, List.sum_singleton, hnew, Stage.rank]
      omega
  | rejected hstage =>
    apply rank_stage
    rw [hstage]
    exact Nat.zero_lt_succ 0

theorem Execution.Sound.waits (h : s.Sound policy) (hparent : s.parentAborted ≠ some true)
    (hopen : ∀ outcome, s.stage ≠ .settled outcome) :
    ∃ event, event ≠ .abort ∧ (policy.step s event).isSome = true := by
  obtain ⟨earlier, last, hcounted⟩ := h.counted hparent
  cases hstage : s.stage with
  | awaiting guarded =>
    cases guarded with
    | none =>
      have hmem : last ∈ s.attempts := by
        rw [hcounted.attempts]
        exact List.mem_append_right _ (List.mem_singleton_self last)
      cases hresult : last.result with
      | none =>
        obtain ⟨event, hevent⟩ := (h.attempts last hmem).waits hresult policy.cfg s.parentAborted
        refine ⟨.attempt earlier.length event, by rintro ⟨⟩, ?_⟩
        rw [ResiliencePolicy.step, hcounted.attempts, List.getElem?_append_right (Nat.le_refl _), Nat.sub_self]
        rw [List.getElem?_cons_zero]
        dsimp only
        rw [Option.isSome_map]
        exact hevent
      | some outcome =>
        refine ⟨.forward, by rintro ⟨⟩, ?_⟩
        rw [ResiliencePolicy.step, hstage, hcounted.attempts, List.getLast?_concat]
        dsimp only
        rw [hresult]
        rfl
    | some outcome =>
      refine ⟨.resume, by rintro ⟨⟩, ?_⟩
      rw [ResiliencePolicy.step, hstage]
      cases outcome <;> rfl
  | retrying =>
    refine ⟨.wait, by rintro ⟨⟩, ?_⟩
    rw [ResiliencePolicy.step, hstage]
    rfl
  | backoff timer =>
    cases timer with
    | waiting =>
      refine ⟨.timer, by rintro ⟨⟩, ?_⟩
      rw [ResiliencePolicy.step, hstage]
      rfl
    | fired =>
      refine ⟨.next, by rintro ⟨⟩, ?_⟩
      rw [ResiliencePolicy.step, hstage]
      rfl
    | rejected => exact absurd (hcounted.at hstage) id
  | settled outcome => exact absurd hstage (hopen outcome)

/-- The `fn` of the last attempt has settled: no attempt would follow it. -/
def Execution.LastSettled (policy : ResiliencePolicy E) (s : Execution E R) : Prop :=
  ∃ a outcome, s.attempts.getLast? = some a ∧ a.fn.isSettled = true ∧ a.verdict = some outcome ∧
    (policy.ends outcome = true ∨ s.maxRetries ≤ s.attempt)

/-- An abort at this moment invokes nothing more and rejects the call, unless the last `fn` has settled.
A call that is over before its last `fn` was over was refused, or is cancelled by its timeout. -/
structure Execution.Cancellable (policy : ResiliencePolicy E) (s : Execution E R) : Prop where
  invocations : ∀ t u later, policy.step s .abort = some t → run policy.step t later = some u →
    u.invocations = s.invocations
  rejects : ∀ t u later, policy.step s .abort = some t → run policy.step t later = some u →
    (∀ outcome, s.stage ≠ .settled outcome) → ¬ s.LastSettled policy →
      (∀ outcome, u.stage = .settled outcome → outcome = cancelled) ∧
      ∃ own : List (Event E R), own.length ≤ 2 ∧ (∀ event ∈ own, event.own = true) ∧
        ∃ v, run policy.step u own = some v ∧ v.stage = .settled cancelled
  ended : s.parentAborted ≠ some true → ∀ outcome, s.stage = .settled outcome →
    s.LastSettled policy ∨ outcome = .error .taskCancelled ∨ outcome = .error .brokenCircuit

/-- Without an abort and without a refusal the call invokes `fn` as often as its outcomes ask for, and
settles with the last of them. It is never stuck, and no run of it is longer than its rank. -/
structure Execution.Counts (policy : ResiliencePolicy E) (s : Execution E R) : Prop where
  settled : s.parentAborted ≠ some true → s.Unrefused → ∀ outcome, s.stage = .settled outcome →
    s.invocations = min (1 + s.maxRetries) (s.outcomes.findIdx policy.ends + 1) ∧
      s.outcomes.length = s.invocations ∧ s.outcomes.getLast? = some outcome
  verdicts : s.parentAborted ≠ some true → s.Unrefused → ∀ a ∈ s.attempts, ∀ outcome,
    a.result = some outcome → a.verdict = some outcome
  waits : s.parentAborted ≠ some true → (∀ outcome, s.stage ≠ .settled outcome) →
    ∃ event, event ≠ .abort ∧ (policy.step s event).isSome = true
  nearer : ∀ event t, policy.step s event = some t → t.rank < s.rank

theorem parentAborted_of_abort (hstep : policy.step s .abort = some t) : s.parentAborted = some false := by
  simp only [ResiliencePolicy.step] at hstep
  split at hstep
  · assumption
  · cases hstep

theorem Execution.Counted.decided {earlier : List (Attempt E R)} {last : Attempt E R} {outcome : Outcome E R}
    (h : s.Counted policy earlier last) (hsound : s.Sound policy) (hresult : last.result = some outcome)
    (hends : policy.ends outcome = true ∨ s.maxRetries ≤ s.attempt) :
    s.LastSettled policy ∨ outcome = .error .taskCancelled ∨ outcome = .error .brokenCircuit := by
  have hmem : last ∈ s.attempts := by
    rw [h.attempts]
    exact List.mem_append_right _ (List.mem_singleton_self last)
  have hlast := hsound.attempts last hmem
  by_cases hheld : last.fn = .held
  · exact .inr (.inr (hlast.refused hheld outcome hresult))
  · cases htimed : last.timedOut with
    | true => exact .inr (.inl (hlast.late hheld htimed outcome hresult))
    | false =>
      have hfn := (h.alive last hmem).inner outcome (hlast.result hheld htimed outcome hresult)
      refine .inl ⟨last, outcome, by rw [h.attempts, List.getLast?_concat], by rw [hfn]; rfl, ?_, hends⟩
      exact ((h.alive last hmem).verdict hlast hresult hheld).1

theorem Execution.Sound.cancellable (h : s.Sound policy) : s.Cancellable policy := by
  refine ⟨?_, ?_, ?_⟩
  · intro t u later hstep hrun
    have haborted : t.parentAborted = some true := by rw [abort_eq hstep]
    exact (aborted_run haborted hrun).2.trans (invocations_abort hstep)
  · intro t u later hstep hrun hopen hlast
    have hparent : s.parentAborted ≠ some true := by
      rw [parentAborted_of_abort hstep]
      rintro ⟨⟩
    obtain ⟨earlier, last, hcounted⟩ := h.counted hparent
    have hpending : ∀ result, s.stage ≠ .awaiting (some (.ok result)) := by
      intro result hstage
      rcases hcounted.decided h (hcounted.at hstage) (.inl rfl) with hsettled | htimed | hrefused
      · exact hlast hsettled
      · cases htimed
      · cases hrefused
    have hcancelling := cancelling_run (cancelling_of_abort hopen hpending hstep) hrun
    refine ⟨fun outcome hstage => ?_, hcancelling.rejects⟩
    have hcancels := hcancelling.stage
    rw [hstage] at hcancels
    exact hcancels
  · intro hparent outcome hstage
    obtain ⟨earlier, last, hcounted⟩ := h.counted hparent
    obtain ⟨hresult, hends⟩ := hcounted.at hstage
    refine hcounted.decided h hresult (hends.imp_right fun hmax => ?_)
    rw [Execution.attempt, hcounted.attempts, List.length_append, List.length_singleton, hmax]
    exact Nat.le_refl _

theorem Execution.Sound.counts (h : s.Sound policy) : s.Counts policy := by
  refine ⟨?_, ?_, h.waits, fun event t hstep => h.rank (step_cases hstep)⟩
  · intro hparent hunrefused outcome hstage
    obtain ⟨earlier, last, hcounted⟩ := h.counted hparent
    exact hcounted.settled h hstage hunrefused
  · intro hparent hunrefused a ha outcome hresult
    obtain ⟨earlier, last, hcounted⟩ := h.counted hparent
    have hheld := hunrefused a ha (by rw [hresult]; rfl)
    exact ((hcounted.alive a ha).verdict (h.attempts a ha) hresult hheld).1

theorem maxRetries_moves (hmoves : s.Moves policy t) : t.maxRetries = s.maxRetries := by
  cases hmoves with
  | next _ =>
    unfold Execution.loop
    split <;> rfl
  | _ => rfl

theorem maxRetries_run {events : List (Event E R)} (hrun : run policy.step s events = some t) :
    t.maxRetries = s.maxRetries :=
  invariant (I := fun u => u.maxRetries = s.maxRetries)
    (fun _ _ _ hkept hstep => (maxRetries_moves (step_cases hstep)).trans hkept) rfl hrun

theorem maxRetries_execute (policy : ResiliencePolicy E) (parentAborted : Option Bool) (retry : Bool) :
    (policy.execute parentAborted retry : Execution E R).maxRetries =
      if retry = false then 0 else (policy.cfg.retry.map fun retry => retry.count).getD 0 := by
  unfold ResiliencePolicy.execute Execution.loop
  cases (Execution.aborted _) <;> rfl

theorem abort_wins {parentAborted : Option Bool} {retry : Bool} {events : List (Event E R)}
    (h : run policy.step (policy.execute parentAborted retry) events = some s) :
    (parentAborted = some true →
      (policy.execute parentAborted retry : Execution E R).stage = .settled cancelled ∧ s.invocations = 0) ∧
    (s.maxRetries = if retry = false then 0 else (policy.cfg.retry.map fun retry => retry.count).getD 0) ∧
    s.Cancellable policy ∧ s.Counts policy := by
  refine ⟨?_, (maxRetries_run h).trans (maxRetries_execute policy parentAborted retry), (sound_run h).cancellable,
    (sound_run h).counts⟩
  rintro rfl
  exact ⟨rfl, (aborted_run rfl h).2⟩

def retriedPolicy : ResiliencePolicy Nat where
  cfg := { timeout := true, retry := some { count := 2, backoffMs := 10 }, circuitBreaker := true }
  predicate := some fun error => error != .other 400

def retriedEvents : List (Event Nat Nat) :=
  [.attempt 0 (.calledBack (some .closed)), .attempt 0 .begins, .attempt 0 (.fnSettles (.error (.other 503))),
    .attempt 0 .resumes, .attempt 0 .concludes, .forward, .resume, .wait, .timer, .next,
    .attempt 1 (.calledBack (some .closed)), .attempt 1 .begins, .attempt 1 .timesOut]

theorem abort_wins_retried :
    ∃ s : Execution Nat Nat, s.invocations = 2 ∧ s.Cancellable retriedPolicy ∧ s.Counts retriedPolicy := by
  have hinvocations : (run retriedPolicy.step (retriedPolicy.execute (some false) true) retriedEvents).map
      (fun s => s.invocations) = some 2 := by
    decide
  obtain ⟨s, hs, htwo⟩ := Option.map_eq_some_iff.mp hinvocations
  obtain ⟨-, -, hcancellable, hcounts⟩ := abort_wins hs
  exact ⟨s, htwo, hcancellable, hcounts⟩

end HomelabApps.Resilience
