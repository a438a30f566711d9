import HomelabApps.Resilience.ResiliencePolicy

universe u v

namespace HomelabApps.Resilience

variable {E : Type u} {R : Type v}

structure Attempt.Sound (a : Attempt E R) : Prop where
  held : a.fn = .held → a.inner = none
  skipped : a.fn = .skipped → a.inner = some cancelled
  resumed : ∀ outcome, a.fn = .settled outcome true → a.inner.isSome = true
  inner : ∀ outcome, a.inner = some outcome → outcome = cancelled ∨ a.fn = .settled outcome true
  timedOut : a.timedOut = true → a.fn.invoked = true
  refused : a.fn = .held → ∀ outcome, a.result = some outcome → outcome = .error .brokenCircuit
  late : a.fn ≠ .held → a.timedOut = true → ∀ outcome, a.result = some outcome → outcome = .error .taskCancelled
  result : a.fn ≠ .held → a.timedOut = false → ∀ outcome, a.result = some outcome → a.inner = some outcome

structure Attempt.Alive (a : Attempt E R) : Prop where
  begun : a.fn ≠ .skipped
  inner : ∀ outcome, a.inner = some outcome → a.fn = .settled outcome true

theorem sound_new : ({} : Attempt E R).Sound where
  held _ := rfl
  skipped := by rintro ⟨⟩
  resumed := by rintro outcome ⟨⟩
  inner := by rintro outcome ⟨⟩
  timedOut := by rintro ⟨⟩
  refused := by rintro - outcome ⟨⟩
  late := by rintro - ⟨⟩
  result := by rintro - - outcome ⟨⟩

theorem alive_new : ({} : Attempt E R).Alive where
  begun := by rintro ⟨⟩
  inner := by rintro outcome ⟨⟩

theorem settle_some {promise : Option (Outcome E R)} {outcome last : Outcome E R}
    (h : settle promise outcome = some last) : promise = some last ∨ (promise = none ∧ last = outcome) := by
  cases promise with
  | none => exact .inr ⟨rfl, (Option.some.inj h).symm⟩
  | some first => exact .inl h

theorem settle_isSome (promise : Option (Outcome E R)) (outcome : Outcome E R) :
    (settle promise outcome).isSome = true := by
  cases promise <;> rfl

inductive Attempt.Moves (a : Attempt E R) (parentAborted : Option Bool) : Attempt E R → Prop
  | skipped (state : Option CircuitState) : parentAborted = some true → a.fn = .held → a.result = none →
    Moves a parentAborted { a with startState := state, fn := .skipped, inner := settle a.inner cancelled }
  | queued (state : Option CircuitState) : parentAborted ≠ some true → a.fn = .held → a.result = none →
    Moves a parentAborted { a with startState := state, fn := .queued }
  | tooLate : parentAborted = some true → a.fn = .queued →
    Moves a parentAborted { a with fn := .skipped, inner := settle a.inner cancelled }
  | begun : parentAborted ≠ some true → a.fn = .queued → Moves a parentAborted { a with fn := .running }
  | settled (outcome : Outcome E R) : a.fn = .running →
    Moves a parentAborted { a with fn := .settled outcome false }
  | resumed {outcome : Outcome E R} : a.fn = .settled outcome false →
    Moves a parentAborted
      { a with fn := .settled outcome true, inner := settle a.inner (passOn parentAborted outcome) }
  | timedOut : a.fn = .running → a.inner = none → a.result = none → a.timedOut = false →
    Moves a parentAborted { a with timedOut := true }
  | concluded {cfg : ResilienceConfig} {outcome : Outcome E R} : a.result = none →
    a.conclusion cfg = some outcome → Moves a parentAborted { a with result := some outcome }

theorem Attempt.step_cases {a b : Attempt E R} {cfg : ResilienceConfig} {parentAborted : Option Bool}
    {event : AttemptEvent E R} (h : a.step cfg parentAborted event = some b) : a.Moves parentAborted b := by
  cases event with
  | calledBack state =>
    simp only [Attempt.step] at h
    split at h
    · next hfn hresult =>
      split at h
      · next haborted =>
        cases h
        exact .skipped state haborted hfn hresult
      · next haborted =>
        cases h
        exact .queued state haborted hfn hresult
    · cases h
  | begins =>
    simp only [Attempt.step] at h
    split at h
    · next hfn =>
      split at h
      · next haborted =>
        cases h
        exact .tooLate haborted hfn
      · next haborted =>
        cases h
        exact .begun haborted hfn
    · cases h
  | fnSettles outcome =>
    simp only [Attempt.step] at h
    split at h
    · next hfn =>
      cases h
      exact .settled outcome hfn
    · cases h
  | resumes =>
    simp only [Attempt.step] at h
    split at h
    · next hfn =>
      cases h
      exact .resumed hfn
    · cases h
  | timesOut =>
    simp only [Attempt.step] at h
    split at h
    · next hfn hinner hresult =>
      split at h
      · next hon =>
        cases h
        rw [Bool.and_eq_true, Bool.not_eq_true'] at hon
        exact .timedOut hfn hinner hresult hon.2
      · cases h
    · cases h
  | concludes =>
    simp only [Attempt.step] at h
    split at h
    · next hresult =>
      obtain ⟨outcome, hconclusion, rfl⟩ := Option.map_eq_some_iff.mp h
      exact .concluded hresult hconclusion
    · cases h

theorem conclusion_cases {a : Attempt E R} {cfg : ResilienceConfig} {outcome : Outcome E R}
    (h : a.conclusion cfg = some outcome) :
    (a.fn = .held ∧ outcome = .error .brokenCircuit) ∨
      (a.fn ≠ .held ∧ a.timedOut = true ∧ outcome = .error .taskCancelled) ∨
      (a.fn ≠ .held ∧ a.timedOut = false ∧ a.inner = some outcome) := by
  unfold Attempt.conclusion at h
  split at h
  · next hfn =>
    split at h
    · exact .inl ⟨hfn, (Option.some.inj h).symm⟩
    · cases h
  · next hfn =>
    split at h
    · next htimed => exact .inr (.inl ⟨hfn, htimed, (Option.some.inj h).symm⟩)
    · next htimed => exact .inr (.inr ⟨hfn, Bool.not_eq_true _ ▸ htimed, h⟩)

variable {a b : Attempt E R} {parentAborted : Option Bool}

theorem settle_keeps {promise : Option (Outcome E R)} {first outcome : Outcome E R} (h : promise = some first) :
    settle promise outcome = some first := by
  rw [h]
  rfl

theorem Attempt.Sound.onwards (h : a.Sound) {fn : Work E R} {inner : Option (Outcome E R)} (hbefore : a.fn ≠ .held)
    (hafter : fn ≠ .held) (hkeeps : ∀ outcome, a.inner = some outcome → inner = some outcome)
    (hskipped : fn = .skipped → inner = some cancelled)
    (hresumed : ∀ outcome, fn = .settled outcome true → inner.isSome = true)
    (hinner : ∀ outcome, inner = some outcome → outcome = cancelled ∨ fn = .settled outcome true)
    (htimed : a.timedOut = true → fn.invoked = true) :
    Attempt.Sound { a with fn := fn, inner := inner } where
  held hfn := absurd hfn hafter
  skipped := hskipped
  resumed := hresumed
  inner := hinner
  timedOut := htimed
  refused hfn := absurd hfn hafter
  late _ hlate := h.late hbefore hlate
  result _ hlate outcome houtcome := hkeeps outcome (h.result hbefore hlate outcome houtcome)

theorem sound_of_pending (hresult : a.result = none) (hheld : a.fn ≠ .held)
    (hskipped : a.fn = .skipped → a.inner = some cancelled)
    (hresumed : ∀ outcome, a.fn = .settled outcome true → a.inner.isSome = true)
    (hinner : ∀ outcome, a.inner = some outcome → outcome = cancelled ∨ a.fn = .settled outcome true)
    (htimed : a.timedOut = true → a.fn.invoked = true) : a.Sound where
  held hfn := absurd hfn hheld
  skipped := hskipped
  resumed := hresumed
  inner := hinner
  timedOut := htimed
  refused hfn := absurd hfn hheld
  late _ _ outcome houtcome := by
    rw [hresult] at houtcome
    cases houtcome
  result _ _ outcome houtcome := by
    rw [hresult] at houtcome
    cases houtcome

theorem Attempt.Sound.inner_unresumed (h : a.Sound) (hfn : ∀ outcome, a.fn ≠ .settled outcome true)
    {outcome : Outcome E R} (hinner : a.inner = some outcome) : outcome = cancelled :=
  (h.inner outcome hinner).resolve_right (hfn outcome)

theorem Attempt.Sound.notTimedOut (h : a.Sound) (hfn : a.fn.invoked = false) : a.timedOut ≠ true := by
  intro htimed
  rw [h.timedOut htimed] at hfn
  cases hfn

theorem Attempt.Sound.moves (h : a.Sound) (hmoves : a.Moves parentAborted b) : b.Sound := by
  cases hmoves with
  | skipped state haborted hfn hresult =>
    have hinner : settle a.inner cancelled = some cancelled := by
      rw [h.held hfn]
      rfl
    refine sound_of_pending hresult (by rintro ⟨⟩) (fun _ => hinner) (by rintro outcome ⟨⟩) ?_ ?_
    · intro outcome houtcome
      rw [hinner] at houtcome
      exact .inl (Option.some.inj houtcome).symm
    · exact fun htimed => absurd htimed (h.notTimedOut (by rw [hfn]; rfl))
  | queued state haborted hfn hresult =>
    refine sound_of_pending hresult (by rintro ⟨⟩) (by rintro ⟨⟩) (by rintro outcome ⟨⟩) ?_ ?_
    · intro outcome houtcome
      rw [h.held hfn] at houtcome
      cases houtcome
    · exact fun htimed => absurd htimed (h.notTimedOut (by rw [hfn]; rfl))
  | tooLate haborted hfn =>
    have hunresumed : ∀ outcome, a.fn ≠ .settled outcome true := by
      intro outcome hsettled
      rw [hfn] at hsettled
      cases hsettled
    have hinner : ∀ outcome, settle a.inner cancelled = some outcome → outcome = cancelled := by
      intro outcome houtcome
      rcases settle_some houtcome with hfirst | ⟨-, hlast⟩
      · exact h.inner_unresumed hunresumed hfirst
      · exact hlast
    refine h.onwards (by rw [hfn]; rintro ⟨⟩) (by rintro ⟨⟩) (fun _ => settle_keeps) ?_ (by rintro outcome ⟨⟩)
      (fun outcome houtcome => .inl (hinner outcome houtcome)) ?_
    · intro _
      obtain ⟨outcome, houtcome⟩ := Option.isSome_iff_exists.mp (settle_isSome a.inner cancelled)
      rw [houtcome, hinner outcome houtcome]
    · exact fun htimed => absurd htimed (h.notTimedOut (by rw [hfn]; rfl))
  | begun haborted hfn =>
    refine h.onwards (by rw [hfn]; rintro ⟨⟩) (by rintro ⟨⟩) (fun _ => id) (by rintro ⟨⟩) (by rintro outcome ⟨⟩) ?_
      (fun _ => rfl)
    intro outcome houtcome
    refine .inl (h.inner_unresumed (fun last hsettled => ?_) houtcome)
    rw [hfn] at hsettled
    cases hsettled
  | settled outcome hfn =>
    refine h.onwards (by rw [hfn]; rintro ⟨⟩) (by rintro ⟨⟩) (fun _ => id) (by rintro ⟨⟩) (by rintro last ⟨⟩) ?_
      (fun _ => rfl)
    intro first hfirst
    refine .inl (h.inner_unresumed (fun last hsettled => ?_) hfirst)
    rw [hfn] at hsettled
    cases hsettled
  | @resumed outcome hfn =>
    refine h.onwards (by rw [hfn]; rintro ⟨⟩) (by rintro ⟨⟩) (fun _ => settle_keeps) (by rintro ⟨⟩)
      (fun _ _ => settle_isSome _ _) ?_ (fun _ => rfl)
    intro last hlast
    rcases settle_some hlast with hfirst | ⟨-, rfl⟩
    · refine .inl (h.inner_unresumed (fun outcome hsettled => ?_) hfirst)
      rw [hfn] at hsettled
      cases hsettled
    · cases outcome with
      | ok result => exact .inr rfl
      | error error =>
        rw [passOn]
        split
        · exact .inl rfl
        · exact .inr rfl
  | timedOut hfn hinner hresult hon =>
    refine sound_of_pending hresult (by rw [hfn]; rintro ⟨⟩) h.skipped h.resumed h.inner fun _ => ?_
    rw [hfn]
    rfl
  | concluded hresult hconclusion =>
    refine ⟨h.held, h.skipped, h.resumed, h.inner, h.timedOut, ?_, ?_, ?_⟩
    · intro hfn last hlast
      rcases conclusion_cases hconclusion with ⟨-, rfl⟩ | ⟨hheld, -⟩ | ⟨hheld, -⟩
      · exact (Option.some.inj hlast).symm
      · exact absurd hfn hheld
      · exact absurd hfn hheld
    · intro hfn htimed last hlast
      rcases conclusion_cases hconclusion with ⟨hheld, -⟩ | ⟨-, -, rfl⟩ | ⟨-, hfalse, -⟩
      · exact absurd hheld hfn
      · exact (Option.some.inj hlast).symm
      · rw [hfalse] at htimed
        cases htimed
    · intro hfn htimed last hlast
      obtain rfl := Option.some.inj hlast
      rcases conclusion_cases hconclusion with ⟨hheld, -⟩ | ⟨-, htrue, -⟩ | ⟨-, -, hinner⟩
      · exact absurd hheld hfn
      · rw [htrue] at htimed
        cases htimed
      · exact hinner

theorem Attempt.Sound.onParentAbort (h : a.Sound) : a.onParentAbort.Sound := by
  unfold Attempt.onParentAbort
  split
  · next hlistening =>
    have hcalled : a.fn ≠ .held := by
      intro hfn
      rw [hfn] at hlistening
      cases hlistening
    refine h.onwards hcalled hcalled (fun _ => settle_keeps) (fun hfn => settle_keeps (h.skipped hfn))
      (fun _ _ => settle_isSome _ _) ?_ h.timedOut
    intro outcome houtcome
    rcases settle_some houtcome with hfirst | ⟨-, rfl⟩
    · exact h.inner outcome hfirst
    · exact .inl rfl
  · exact h

theorem Attempt.Alive.moves (h : a.Alive) (hmoves : a.Moves parentAborted b) (hparent : parentAborted ≠ some true) :
    b.Alive := by
  have hunsettled : ∀ {fn : Work E R}, a.fn = fn → (∀ outcome, fn ≠ .settled outcome true) → a.inner = none := by
    intro fn hfn hnot
    cases hinner : a.inner with
    | none => rfl
    | some outcome => exact absurd (hfn ▸ h.inner outcome hinner) (hnot outcome)
  cases hmoves with
  | skipped state haborted _ _ => exact absurd haborted hparent
  | queued state _ hfn _ =>
    refine ⟨by rintro ⟨⟩, fun outcome houtcome => ?_⟩
    rw [hunsettled hfn (by rintro outcome ⟨⟩)] at houtcome
    cases houtcome
  | tooLate haborted _ => exact absurd haborted hparent
  | begun _ hfn =>
    refine ⟨by rintro ⟨⟩, fun outcome houtcome => ?_⟩
    rw [hunsettled hfn (by rintro outcome ⟨⟩)] at houtcome
    cases houtcome
  | settled last hfn =>
    refine ⟨by rintro ⟨⟩, fun outcome houtcome => ?_⟩
    rw [hunsettled hfn (by rintro outcome ⟨⟩)] at houtcome
    cases houtcome
  | @resumed outcome hfn =>
    have hpass : passOn parentAborted outcome = outcome := by
      cases outcome with
      | ok result => rfl
      | error error => exact if_neg hparent
    refine ⟨by rintro ⟨⟩, fun last hlast => ?_⟩
    rw [hunsettled hfn (by rintro outcome ⟨⟩), hpass] at hlast
    obtain rfl := Option.some.inj hlast
    rfl
  | timedOut _ _ _ _ => exact ⟨h.begun, h.inner⟩
  | concluded _ _ => exact ⟨h.begun, h.inner⟩

theorem Attempt.Moves.invoked (hmoves : a.Moves (some true) b) : b.fn.invoked = a.fn.invoked := by
  cases hmoves with
  | skipped state _ hfn _ =>
    rw [hfn]
    rfl
  | queued state hparent _ _ => exact absurd rfl hparent
  | tooLate _ hfn =>
    rw [hfn]
    rfl
  | begun hparent _ => exact absurd rfl hparent
  | settled outcome hfn =>
    rw [hfn]
    rfl
  | resumed hfn =>
    rw [hfn]
    rfl
  | timedOut _ _ _ _ => rfl
  | concluded _ _ => rfl

theorem fn_onParentAbort (a : Attempt E R) : a.onParentAbort.fn = a.fn := by
  unfold Attempt.onParentAbort
  split <;> rfl

def Work.rank : Work E R → Nat
  | .held => 4
  | .queued => 3
  | .running => 2
  | .settled _ false => 1
  | .settled _ true => 0
  | .skipped => 0

def Attempt.rank (a : Attempt E R) : Nat :=
  a.fn.rank + (if a.timedOut then 0 else 1) + if a.result.isNone then 1 else 0

theorem rank_onParentAbort (a : Attempt E R) : a.onParentAbort.rank = a.rank := by
  unfold Attempt.onParentAbort
  split <;> rfl

theorem Attempt.Moves.rank (hmoves : a.Moves parentAborted b) : b.rank < a.rank := by
  cases hmoves with
  | skipped state _ hfn _ =>
    simp only [Attempt.rank, hfn, Work.rank]
    omega
  | queued state _ hfn _ =>
    simp only [Attempt.rank, hfn, Work.rank]
    omega
  | tooLate _ hfn =>
    simp only [Attempt.rank, hfn, Work.rank]
    omega
  | begun _ hfn =>
    simp only [Attempt.rank, hfn, Work.rank]
    omega
  | settled outcome hfn =>
    simp only [Attempt.rank, hfn, Work.rank]
    omega
  | resumed hfn =>
    simp only [Attempt.rank, hfn, Work.rank]
    omega
  | timedOut _ _ _ hon =>
    simp only [Attempt.rank, hon]
    simp
  | concluded hresult _ =>
    simp only [Attempt.rank, hresult]
    simp

theorem concludes_of_inner {cfg : ResilienceConfig} (hresult : a.result = none) (hfn : a.fn ≠ .held)
    (hinner : a.inner.isSome = true) : (a.step cfg parentAborted .concludes).isSome = true := by
  have hconclusion : (a.conclusion cfg).isSome = true := by
    unfold Attempt.conclusion
    split
    · next hheld => exact absurd hheld hfn
    · split
      · rfl
      · exact hinner
  rw [Attempt.step, hresult, Option.isSome_map]
  exact hconclusion

theorem Attempt.Sound.waits (h : a.Sound) (hresult : a.result = none) (cfg : ResilienceConfig)
    (parentAborted : Option Bool) : ∃ event, (a.step cfg parentAborted event).isSome = true := by
  cases hfn : a.fn with
  | held =>
    refine ⟨.calledBack none, ?_⟩
    rw [Attempt.step, hfn, hresult]
    dsimp only
    split <;> rfl
  | queued =>
    refine ⟨.begins, ?_⟩
    rw [Attempt.step, hfn]
    dsimp only
    split <;> rfl
  | running =>
    refine ⟨.fnSettles cancelled, ?_⟩
    rw [Attempt.step, hfn]
    rfl
  | settled outcome resumed =>
    cases resumed with
    | false =>
      refine ⟨.resumes, ?_⟩
      rw [Attempt.step, hfn]
      rfl
    | true =>
      exact ⟨.concludes, concludes_of_inner hresult (by rw [hfn]; rintro ⟨⟩) (h.resumed outcome hfn)⟩
  | skipped =>
    refine ⟨.concludes, concludes_of_inner hresult (by rw [hfn]; rintro ⟨⟩) ?_⟩
    rw [h.skipped hfn]
    rfl

end HomelabApps.Resilience
