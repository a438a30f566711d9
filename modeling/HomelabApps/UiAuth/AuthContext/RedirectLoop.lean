import HomelabApps.UiAuth.AuthContext

namespace HomelabApps.UiAuth

open HomelabApps.Library.Transition

variable {tab tab' : Tab} {page : Page} {event : Event} {events : List Event} {faults : Faults}
  {storage : SessionStorage} {now : Int} {handling redirectFails : Bool}

def SessionStorage.attempts (storage : SessionStorage) : Nat := storage.renewAttempts.getD 0

/-- Neither guard is lost: a renewal that is counted is written down, and an answer with neither a code nor an error
does not find the mark of this probe gone. -/
def Guarded (tab : Tab) : Event → Prop
  | .returned handling faults _ =>
    handling = true ∨ ssoAlreadyAttempted tab.storage faults = true ∨ tab.probes = 0
  | .effect now faults =>
    (tab.page.delay now).any (· ≤ 0) = true → futileRenewals tab.storage faults < MAX_FUTILE_RENEWALS →
      faults.write = false
  | _ => True

instance : ∀ event, Decidable (Guarded tab event)
  | .returned _ _ _ => inferInstanceAs (Decidable (_ ∨ _ ∨ _))
  | .effect _ _ => inferInstanceAs (Decidable (_ → _ → _))
  | .opened _ _ _ | .userLoaded _ _ | .userUnloaded | .navigated _ | .resolveAnonymous | .timer _ | .login _ _
  | .logout _ _ => .isTrue trivial

def Page.awaited (page : Page) : Prop := page.callback = true ∧ page.exchanged = false

def Page.unseen (page : Page) : Prop := page.effect = true ∧ page.user.isSome = true

structure Covered (tab : Tab) : Prop where
  probes : tab.probes ≤ 1
  renewals : tab.renewals ≤ MAX_FUTILE_RENEWALS
  leaving : tab.page.leaving = true → tab.renewals ≤ tab.storage.attempts
  awaited : tab.page.awaited → tab.renewals ≤ tab.storage.attempts ∧
    (tab.page.leaving = true → tab.renewals = 0) ∧ tab.page.user = none ∧ tab.page.timer = none
  unseen : tab.page.unseen → tab.renewals ≤ tab.storage.attempts ∧
    (tab.page.leaving = true → tab.renewals = 0) ∧ tab.page.timer = none
  now : tab.page.timer = some .now →
    tab.renewals + 1 ≤ tab.storage.attempts ∧ tab.renewals + 1 ≤ MAX_FUTILE_RENEWALS
  later : tab.page.timer = some .later → tab.renewals = 0

theorem Covered.le (h : Covered tab) : tab.probes + tab.renewals ≤ 1 + MAX_FUTILE_RENEWALS :=
  Nat.add_le_add h.probes h.renewals

@[simp] theorem attempts_rememberSsoAttempt {value : Bool} :
    (rememberSsoAttempt storage faults value).attempts = storage.attempts := by
  rw [rememberSsoAttempt]
  split
  · rfl
  · rfl

theorem Covered.idle (hprobes : tab.probes ≤ 1) (hrenewals : tab.renewals ≤ MAX_FUTILE_RENEWALS)
    (hleaving : tab.page.leaving = true → tab.renewals ≤ tab.storage.attempts) (hawaited : ¬tab.page.awaited)
    (hunseen : ¬tab.page.unseen) (htimer : tab.page.timer = none) : Covered tab where
  probes := hprobes
  renewals := hrenewals
  leaving := hleaving
  awaited h := absurd h hawaited
  unseen h := absurd h hunseen
  now h := by
    rw [htimer] at h
    cases h
  later h := by
    rw [htimer] at h
    cases h

theorem not_awaited (h : page.callback = false) : ¬page.awaited := fun hawaited => by
  rw [Page.awaited, h] at hawaited
  cases hawaited.1

theorem not_unseen (h : page.user = none) : ¬page.unseen := fun hunseen => by
  rw [Page.unseen, h] at hunseen
  cases hunseen.2

theorem recover_load {started : Tab} (hpage : started.page = .load handling) (hprobes : started.probes ≤ 1)
    (hrenewals : started.renewals ≤ MAX_FUTILE_RENEWALS) (hattempts : started.renewals ≤ started.storage.attempts)
    (hguard : handling = true ∨ ssoAlreadyAttempted started.storage faults = true ∨ started.probes = 0) :
    Covered (recover started none faults redirectFails) := by
  obtain ⟨storage, page, probes, renewals⟩ := started
  obtain rfl : page = .load handling := hpage
  cases handling with
  | true =>
    have hrecover : recover ⟨storage, .load true, probes, renewals⟩ none faults redirectFails =
      ⟨storage, .load true, probes, renewals⟩ := rfl
    rw [hrecover]
    exact {
      probes := hprobes
      renewals := hrenewals
      leaving := fun _ => hattempts
      awaited := fun _ => ⟨hattempts, Bool.noConfusion, rfl, rfl⟩
      unseen := fun h => absurd h (not_unseen rfl)
      now := fun h => by cases h
      later := fun h => by cases h }
  | false =>
    have hrecover : recover ⟨storage, .load false, probes, renewals⟩ none faults redirectFails =
        if (!ssoAlreadyAttempted storage faults) = true then
          ⟨rememberSsoAttempt storage faults true,
            if redirectFails then (Page.load false).adopt none else (Page.load false).redirect false, probes + 1, renewals⟩
        else ⟨storage, (Page.load false).adopt none, probes, renewals⟩ := rfl
    rw [hrecover]
    split
    · rename_i hunmarked
      rw [Bool.not_eq_true'] at hunmarked
      have hnone : probes = 0 := (hguard.resolve_left Bool.false_ne_true).resolve_left (by simp [hunmarked])
      apply Covered.idle
      · exact Nat.le_of_eq (congrArg (· + 1) hnone)
      · exact hrenewals
      · intro _
        rw [attempts_rememberSsoAttempt]
        exact hattempts
      · cases redirectFails <;> exact not_awaited rfl
      · cases redirectFails <;> exact not_unseen rfl
      · cases redirectFails <;> rfl
    · apply Covered.idle
      · exact hprobes
      · exact hrenewals
      · exact fun _ => hattempts
      · exact not_awaited rfl
      · exact not_unseen rfl
      · rfl

theorem Covered.withoutUser (h : Covered tab) {state : AuthState} :
    Covered { tab with page := { tab.page with user := none, state := state, effect := true } } where
  probes := h.probes
  renewals := h.renewals
  leaving := h.leaving
  awaited hawaited :=
    have hbefore := h.awaited hawaited
    ⟨hbefore.1, hbefore.2.1, rfl, hbefore.2.2.2⟩
  unseen hunseen := absurd hunseen (not_unseen rfl)
  now := h.now
  later := h.later

theorem Covered.gesture (h : Covered tab) {value : Bool} : Covered {
    storage := rememberSsoAttempt tab.storage faults value
    page := tab.page.redirect redirectFails
    probes := 0
    renewals := 0 } where
  probes := Nat.zero_le 1
  renewals := Nat.zero_le _
  leaving _ := Nat.zero_le _
  awaited hawaited := ⟨Nat.zero_le _, fun _ => rfl, (h.awaited hawaited).2.2⟩
  unseen hunseen := ⟨Nat.zero_le _, fun _ => rfl, (h.unseen hunseen).2.2⟩
  now hnow := by
    have hbefore := h.now hnow
    have hone : 0 + 1 ≤ tab.renewals + 1 := Nat.succ_le_succ (Nat.zero_le _)
    rw [attempts_rememberSsoAttempt]
    exact ⟨Nat.le_trans hone hbefore.1, Nat.le_trans hone hbefore.2⟩
  later _ := rfl

theorem Covered.userLoaded (h : Covered tab) (hawaited : tab.page.awaited) {user : User} : Covered { tab with
    storage := rememberSsoAttempt tab.storage faults false
    page := { tab.page.adopt (some user) with exchanged := true } } := by
  obtain ⟨hattempts, hleaving, -, htimer⟩ := h.awaited hawaited
  exact {
    probes := h.probes
    renewals := h.renewals
    leaving := fun _ => by
      rw [attempts_rememberSsoAttempt]
      exact hattempts
    awaited := fun hagain => by cases hagain.2
    unseen := fun _ => by
      rw [attempts_rememberSsoAttempt]
      exact ⟨hattempts, hleaving, htimer⟩
    now := fun hnow => by
      rw [show tab.page.timer = some .now from hnow] at htimer
      cases htimer
    later := fun hlater => by
      rw [show tab.page.timer = some .later from hlater] at htimer
      cases htimer }

theorem Covered.timer (h : Covered tab) {timer : RenewalTimer} (htimer : tab.page.timer = some timer) :
    Covered { tab with
      page := { tab.page.redirect redirectFails with timer := none }
      renewals := if timer = .now then tab.renewals + 1 else tab.renewals } := by
  have hawaited : ¬tab.page.awaited := fun hawaited => by
    rw [(h.awaited hawaited).2.2.2] at htimer
    cases htimer
  have hunseen : ¬tab.page.unseen := fun hunseen => by
    rw [(h.unseen hunseen).2.2] at htimer
    cases htimer
  cases timer with
  | now =>
    obtain ⟨hattempts, hmax⟩ := h.now htimer
    exact .idle h.probes hmax (fun _ => hattempts) hawaited hunseen rfl
  | later =>
    have hzero := h.later htimer
    refine .idle h.probes h.renewals (fun _ => ?_) hawaited hunseen rfl
    rw [if_neg RenewalTimer.noConfusion, hzero]
    exact Nat.zero_le _

theorem attempts_recordFutileRenewal {count : Nat} (h : faults.write = false) :
    (recordFutileRenewal storage faults count).attempts = count := by
  rw [recordFutileRenewal, if_neg (by simp [h])]
  split
  · rename_i hzero
    rw [hzero]
    rfl
  · rfl

theorem futileRenewals_of_lt (h : futileRenewals storage faults < MAX_FUTILE_RENEWALS) :
    futileRenewals storage faults = storage.attempts := by
  rw [futileRenewals] at h ⊢
  split at h
  · exact absurd h (Nat.lt_irrefl _)
  · rename_i hread
    rw [if_neg hread, SessionStorage.attempts]

theorem user_of_delay {delay : Int} (h : page.delay now = some delay) : page.user.isSome = true := by
  rw [Page.delay] at h
  split at h
  · cases h
  · cases huser : page.user with
    | none =>
      rw [huser] at h
      cases h
    | some user => rfl

theorem Covered.not_awaited_of_user (h : Covered tab) (huser : tab.page.user.isSome = true) : ¬tab.page.awaited := by
  intro hawaited
  rw [(h.awaited hawaited).2.2.1] at huser
  cases huser

theorem Covered.effect (h : Covered tab) (heffect : tab.page.effect = true) (hguard : Guarded tab (.effect now faults)) :
    Covered (renewalEffect tab now faults) := by
  rw [renewalEffect]
  dsimp only
  split
  · exact {
      probes := h.probes
      renewals := h.renewals
      leaving := h.leaving
      awaited := fun hawaited =>
        have hbefore := h.awaited hawaited
        ⟨hbefore.1, hbefore.2.1, hbefore.2.2.1, rfl⟩
      unseen := fun hunseen => by cases hunseen.1
      now := fun hnow => by cases hnow
      later := fun hlater => by cases hlater }
  · rename_i delay hdelay
    have huser := user_of_delay hdelay
    have hawaited := h.not_awaited_of_user huser
    obtain ⟨hattempts, hleaving, -⟩ := h.unseen ⟨heffect, huser⟩
    split
    · rename_i hdue
      split
      · -- given up: nothing is left that could start another renewal
        refine .idle h.probes h.renewals (fun hleft => ?_) hawaited (not_unseen rfl) rfl
        rw [hleaving hleft]
        exact Nat.zero_le _
      · rename_i hlt
        rw [ge_iff_le, Nat.not_le] at hlt
        have hwrite := hguard (by simpa [hdelay] using hdue) hlt
        have hcount := futileRenewals_of_lt hlt
        have hstored := @attempts_recordFutileRenewal faults tab.storage (futileRenewals tab.storage faults + 1) hwrite
        exact {
          probes := h.probes
          renewals := h.renewals
          leaving := fun _ => by
            rw [hstored, hcount]
            exact Nat.le_succ_of_le hattempts
          awaited := fun hagain => absurd hagain hawaited
          unseen := fun hunseen => by cases hunseen.1
          now := fun _ => by
            rw [hstored]
            have hnext : tab.renewals + 1 ≤ futileRenewals tab.storage faults + 1 := by
              rw [hcount]
              exact Nat.succ_le_succ hattempts
            exact ⟨hnext, Nat.le_trans hnext hlt⟩
          later := fun hlater => by cases hlater }
    · exact {
        probes := Nat.zero_le 1
        renewals := Nat.zero_le _
        leaving := fun _ => Nat.zero_le _
        awaited := fun hagain => absurd hagain hawaited
        unseen := fun hunseen => by cases hunseen.1
        now := fun hnow => by cases hnow
        later := fun _ => rfl }

theorem Covered.navigated (h : Covered tab) : Covered { tab with page := { tab.page with handling := handling } } where
  probes := h.probes
  renewals := h.renewals
  leaving := h.leaving
  awaited := h.awaited
  unseen := h.unseen
  now := h.now
  later := h.later

theorem covered_step (h : Covered tab) (hguard : Guarded tab event) (hstep : step tab event = some tab') :
    Covered tab' := by
  cases event with
  | opened handling faults redirectFails =>
    obtain rfl := Option.some.inj hstep
    exact recover_load rfl (Nat.zero_le 1) (Nat.zero_le _) (Nat.zero_le _) (.inr (.inr rfl))
  | returned handling faults redirectFails =>
    rw [step, Option.ite_none_right_eq_some] at hstep
    obtain ⟨hleaving, hnext⟩ := hstep
    obtain rfl := Option.some.inj hnext
    exact recover_load rfl h.probes h.renewals (h.leaving hleaving) hguard
  | userLoaded user faults =>
    rw [step, Option.ite_none_right_eq_some, Bool.and_eq_true, Bool.not_eq_true'] at hstep
    obtain ⟨hawaited, hnext⟩ := hstep
    obtain rfl := Option.some.inj hnext
    exact h.userLoaded hawaited
  | userUnloaded =>
    obtain rfl := Option.some.inj hstep
    exact h.withoutUser
  | navigated handling =>
    obtain rfl := Option.some.inj hstep
    exact h.navigated
  | resolveAnonymous =>
    obtain rfl := Option.some.inj hstep
    exact h.withoutUser
  | effect now faults =>
    rw [step, Option.ite_none_right_eq_some] at hstep
    obtain ⟨heffect, hnext⟩ := hstep
    obtain rfl := Option.some.inj hnext
    exact h.effect heffect hguard
  | timer redirectFails =>
    cases htimer : tab.page.timer with
    | none =>
      rw [step, htimer] at hstep
      cases hstep
    | some timer =>
      rw [step, htimer] at hstep
      obtain rfl := Option.some.inj hstep
      exact h.timer htimer
  | login faults redirectFails =>
    obtain rfl := Option.some.inj hstep
    exact h.gesture
  | logout faults redirectFails =>
    obtain rfl := Option.some.inj hstep
    exact h.gesture

def Tab.start (storage : SessionStorage) : Tab where
  storage := storage
  page := { Page.load false with state := .anonymous }
  probes := 0
  renewals := 0

theorem covered_start (storage : SessionStorage) : Covered (.start storage) :=
  .idle (Nat.zero_le 1) (Nat.zero_le _) (fun _ => Nat.zero_le _) (not_awaited rfl) (not_unseen rfl) rfl

/-- The storage keeps the mark of a probe that it did not have, and a page that has exchanged a response is
answered with a code or an error. -/
def Marked (tab : Tab) : Event → Prop
  | .opened handling faults _ =>
    handling = true ∨ ssoAlreadyAttempted tab.storage faults = true ∨ faults.write = false
  | .returned handling faults _ =>
    handling = true ∨ (tab.page.exchanged = false ∨ tab.probes = 0) ∧
      (ssoAlreadyAttempted tab.storage faults = true ∨ faults.write = false)
  | .effect now faults => Guarded tab (.effect now faults)
  | _ => True

instance : ∀ event, Decidable (Marked tab event)
  | .opened _ _ _ => inferInstanceAs (Decidable (_ ∨ _ ∨ _))
  | .returned _ _ _ => inferInstanceAs (Decidable (_ ∨ (_ ∨ _) ∧ (_ ∨ _)))
  | .effect now faults => inferInstanceAs (Decidable (Guarded tab (.effect now faults)))
  | .userLoaded _ _ | .userUnloaded | .navigated _ | .resolveAnonymous | .timer _ | .login _ _ | .logout _ _ =>
    .isTrue trivial

/-- After a probe the mark is there, or the page has its response, or waits for it. -/
def Tab.Marks (tab : Tab) : Prop :=
  tab.probes ≠ 0 → tab.storage.ssoAttempted = true ∨ tab.page.exchanged = true ∨
    tab.page.callback = true ∧ tab.page.leaving = false

structure Tab.Remembers (tab : Tab) : Prop where
  covered : Covered tab
  mark : tab.Marks

theorem ssoAttempted_rememberSsoAttempt (h : faults.write = false) :
    (rememberSsoAttempt storage faults true).ssoAttempted = true := by
  rw [rememberSsoAttempt, if_neg (by simp [h])]

theorem ssoAttempted_recordFutileRenewal {count : Nat} :
    (recordFutileRenewal storage faults count).ssoAttempted = storage.ssoAttempted := by
  rw [recordFutileRenewal]
  split
  · rfl
  · split
    · rfl
    · rfl

theorem marks_recover {started : Tab} (hpage : started.page = .load handling)
    (hmarked : handling = true ∨ (ssoAlreadyAttempted started.storage faults = true ∨ faults.write = false) ∧
      (started.probes ≠ 0 → started.storage.ssoAttempted = true)) :
    (recover started none faults redirectFails).Marks := by
  obtain ⟨storage, page, probes, renewals⟩ := started
  obtain rfl : page = .load handling := hpage
  cases handling with
  | true => exact fun _ => .inr (.inr ⟨rfl, rfl⟩)
  | false =>
    obtain ⟨hwrite, hprobes⟩ := hmarked.resolve_left Bool.false_ne_true
    have hrecover : recover ⟨storage, .load false, probes, renewals⟩ none faults redirectFails =
        if (!ssoAlreadyAttempted storage faults) = true then
          ⟨rememberSsoAttempt storage faults true,
            if redirectFails then (Page.load false).adopt none else (Page.load false).redirect false, probes + 1, renewals⟩
        else ⟨storage, (Page.load false).adopt none, probes, renewals⟩ := rfl
    rw [hrecover]
    split
    · rename_i hunmarked
      refine fun _ => .inl (ssoAttempted_rememberSsoAttempt (hwrite.resolve_left fun hmark => ?_))
      rw [hmark] at hunmarked
      cases hunmarked
    · exact fun h => .inl (hprobes h)

theorem guarded_of_marked (h : tab.Remembers) (hmarked : Marked tab event) (hstep : step tab event = some tab') :
    Guarded tab event := by
  cases event with
  | returned handling faults redirectFails =>
    rw [step, Option.ite_none_right_eq_some] at hstep
    rcases hmarked with hhandling | ⟨hanswered, -⟩
    · exact .inl hhandling
    · refine .inr (or_iff_not_imp_right.mpr fun hprobes => ?_)
      rcases h.mark hprobes with hmark | hexchanged | ⟨-, hleaving⟩
      · rw [ssoAlreadyAttempted, hmark, Bool.or_true]
      · rw [hexchanged] at hanswered
        exact absurd (hanswered.resolve_left Bool.noConfusion) hprobes
      · rw [hstep.1] at hleaving
        cases hleaving
  | effect now faults => exact hmarked
  | _ => trivial

theorem remembers_step (h : tab.Remembers) (hmarked : Marked tab event) (hstep : step tab event = some tab') :
    tab'.Remembers := by
  have hguarded := guarded_of_marked h hmarked hstep
  refine ⟨covered_step h.covered hguarded hstep, ?_⟩
  cases event with
  | opened handling faults redirectFails =>
    obtain rfl := Option.some.inj hstep
    exact marks_recover rfl (hmarked.imp_right fun hwrite => ⟨hwrite, fun hprobes => absurd rfl hprobes⟩)
  | returned handling faults redirectFails =>
    rw [step, Option.ite_none_right_eq_some] at hstep
    obtain ⟨hleaving, hnext⟩ := hstep
    obtain rfl := Option.some.inj hnext
    refine marks_recover rfl (hmarked.imp_right fun hmarked => ⟨hmarked.2, fun hprobes => ?_⟩)
    rcases h.mark hprobes with hmark | hexchanged | ⟨-, hstays⟩
    · exact hmark
    · rw [hexchanged] at hmarked
      exact absurd (hmarked.1.resolve_left Bool.noConfusion) hprobes
    · rw [hleaving] at hstays
      cases hstays
  | userLoaded user faults =>
    rw [step, Option.ite_none_right_eq_some] at hstep
    obtain ⟨-, hnext⟩ := hstep
    obtain rfl := Option.some.inj hnext
    exact fun _ => .inr (.inl rfl)
  | userUnloaded =>
    obtain rfl := Option.some.inj hstep
    exact h.mark
  | navigated handling =>
    obtain rfl := Option.some.inj hstep
    exact h.mark
  | resolveAnonymous =>
    obtain rfl := Option.some.inj hstep
    exact h.mark
  | effect now faults =>
    rw [step, Option.ite_none_right_eq_some] at hstep
    obtain ⟨-, hnext⟩ := hstep
    obtain rfl := Option.some.inj hnext
    rw [renewalEffect]
    dsimp only
    split
    · exact h.mark
    · split
      · split
        · exact fun hprobes => (h.mark hprobes).imp_left ssoAttempted_recordFutileRenewal.trans
        · exact fun hprobes => (h.mark hprobes).imp_left ssoAttempted_recordFutileRenewal.trans
      · exact fun hprobes => absurd rfl hprobes
  | timer redirectFails =>
    cases htimer : tab.page.timer with
    | none =>
      rw [step, htimer] at hstep
      cases hstep
    | some timer =>
      rw [step, htimer] at hstep
      obtain rfl := Option.some.inj hstep
      intro hprobes
      rcases h.mark hprobes with hmark | hexchanged | ⟨hcallback, -⟩
      · exact .inl hmark
      · exact .inr (.inl hexchanged)
      · refine .inr (.inl (by_contra fun hexchanged => ?_))
        rw [(h.covered.awaited ⟨hcallback, Bool.not_eq_true _ ▸ hexchanged⟩).2.2.2] at htimer
        cases htimer
  | login faults redirectFails =>
    obtain rfl := Option.some.inj hstep
    exact fun hprobes => absurd rfl hprobes
  | logout faults redirectFails =>
    obtain rfl := Option.some.inj hstep
    exact fun hprobes => absurd rfl hprobes

theorem redirects_bounded (storage : SessionStorage) (events : List Event) :
    (Along step Guarded (.start storage) events →
      Always step (fun tab => tab.probes + tab.renewals ≤ 1 + MAX_FUTILE_RENEWALS) (.start storage) events) ∧
    (Along step Marked (.start storage) events →
      Always step (fun tab => tab.probes + tab.renewals ≤ 1 + MAX_FUTILE_RENEWALS) (.start storage) events) := by
  constructor
  · exact fun h => (always_of_along (fun _ _ _ => covered_step) (covered_start storage) h).mono fun _ => Covered.le
  · have hstart : (Tab.start storage).Remembers := ⟨covered_start storage, fun hprobes => absurd rfl hprobes⟩
    exact fun h => (always_of_along (fun _ _ _ => remembers_step) hstart h).mono fun _ hkept => hkept.covered.le

def working : Faults := ⟨false, false⟩

def newTab : Tab := .start ⟨false, none⟩

def staleAnswer (faults : Faults) : List Event :=
  [.returned true working false, .userLoaded ⟨some 1000, true⟩ working, .navigated false, .effect 2000000 faults,
    .timer false]

def staleRun (faults : Faults) (answers : Nat) : List Event :=
  .opened false working false :: (List.replicate answers (staleAnswer faults)).flatten

/-- The probe is answered with neither a code nor an error, and its mark is found. -/
def bareAnswer : List Event := [.opened false working false, .returned false working false]

theorem redirects_bounded_stale :
    ((run step newTab (staleRun working 2)).map fun tab => (tab.probes, tab.renewals)) = some (1, 2) ∧
      Always step (fun tab => tab.probes + tab.renewals ≤ 1 + MAX_FUTILE_RENEWALS) newTab (staleRun working 2) ∧
      ((run step newTab bareAnswer).map fun tab => (tab.probes, tab.renewals)) = some (1, 0) ∧
      Always step (fun tab => tab.probes + tab.renewals ≤ 1 + MAX_FUTILE_RENEWALS) newTab bareAnswer :=
  ⟨by decide, (redirects_bounded ⟨false, none⟩ (staleRun working 2)).1 (by decide), by decide,
    (redirects_bounded ⟨false, none⟩ bareAnswer).2 (by decide)⟩

/-- The counter cannot be written but can be read: one renewal follows another. -/
theorem redirects_unbounded :
    ((run step newTab (staleRun ⟨false, true⟩ 3)).map fun tab => tab.probes + tab.renewals) = some 4 ∧
      -- answers with neither a code nor an error, after a user that was loaded has cleared the mark
      ((run step newTab (staleRun working 1 ++ [.returned false working false] ++ staleAnswer working ++
        [.returned false working false])).map fun tab => tab.probes + tab.renewals) = some 5 :=
  ⟨by decide, by decide⟩

end HomelabApps.UiAuth
