import HomelabApps.KnowledgeBase.PostgresService
import HomelabApps.Library.Lists

namespace HomelabApps.KnowledgeBase.PostgresService

open HomelabApps.Library
open HomelabApps.Library.DatabaseSession
open HomelabApps.Library.Transition (Along Always run)

variable {W α ε : Type}

def visible (committed : List (Nat × W)) (k : Nat) : List W :=
  committed.filterMap fun e => if e.1 = k then some e.2 else none

structure Clean (s : State W α ε) : Prop where
  reused : ∀ session ∈ s.idle, session.Clean
  visible : ∀ (k : Nat) (call : Call W α ε) outcome, s.calls[k]? = some call → call.kind = .transaction →
    call.stage = .done outcome → call.lostInCommit = false →
    visible s.committed k = match outcome with
      | .ok _ => call.writes
      | .error _ => []
  locked : ∀ (k : Nat) (call : Call W α ε) client phase lock, s.calls[k]? = some call →
    call.stage = .holding client phase → lock ∈ client.session.locks →
    call.kind = .withTryAdvisoryLock lock ∧ (phase = .guarding lock ∨ ∃ outcome, phase = .unlocking lock outcome)
  error : ∀ (k : Nat) (call : Call W α ε) outcome e, s.calls[k]? = some call → call.stage = .done outcome →
    call.fnEnded = some (.error e) → outcome = .error e

/-- A query that fails where nothing makes up for it: the rollback of a transaction that stays, a lock
that is taken nevertheless, an unlock that is without effect or hides the error of `fn`. -/
def Phase.Orderly (client : Client W) (failure : ε) (effective : Bool) : Phase α ε → Prop
  | .rollingBack _ => client.lost = true ∨ effective = true ∨ client.session.transaction = none
  | .locking _ => client.lost = true ∨ effective = false
  | .unlocking _ outcome => (client.lost = true ∨ effective = true) ∧ ∀ e, outcome = .error e → e = failure
  | _ => True

def Orderly (s : State W α ε) : Event W α ε → Prop
  | .answer k (.failed failure effective) => ∀ (call : Call W α ε) client phase, s.calls[k]? = some call →
    call.stage = .holding client phase → phase.Orderly client failure effective
  | .fnEnds k (.ok _) => ∀ (call : Call W α ε) client transaction, s.calls[k]? = some call →
    call.stage = .holding client .running → client.session.transaction = some transaction →
    transaction.aborted = true → call.writes = []
  | _ => True

def Call.shown (call : Call W α ε) : List W :=
  match call.stage with
  | .holding _ (.releasing (.ok _)) => call.writes
  | .done (.ok _) => call.writes
  | _ => []

def entries (k : Nat) (writes : List W) : List (Nat × W) := writes.map (k, ·)

structure Client.Within (k : Nat) (call : Call W α ε) (client : Client W) : Prop where
  locks : client.session.locks = []
  transaction : client.lost = false →
    ∃ transaction, client.session.transaction = some transaction ∧ transaction.writes = entries k call.writes

structure Client.Guards (lock : AdvisoryLock) (call : Call W α ε) (client : Client W) : Prop where
  kind : call.kind = .withTryAdvisoryLock lock
  transaction : client.session.transaction = none
  locks : client.session.locks = if client.lost then [] else [lock]
  writes : call.writes = []

def Phase.Fits (k : Nat) (call : Call W α ε) (client : Client W) : Phase α ε → Prop
  | .beginning => call.kind = .transaction ∧ client.session.Clean ∧ call.fnEnded = none ∧ call.writes = []
  | .running => call.kind = .transaction ∧ client.Within k call ∧ call.fnEnded = none
  | .committing result =>
    call.kind = .transaction ∧ client.Within k call ∧ call.fnEnded = some (.ok result) ∧
      ∀ transaction, client.session.transaction = some transaction → transaction.aborted = true → call.writes = []
  | .rollingBack error => client.session.locks = [] ∧ ∀ e, call.fnEnded = some (.error e) → error = e
  | .locking lock =>
    call.kind = .withTryAdvisoryLock lock ∧ client.session.Clean ∧ call.fnEnded = none ∧ call.writes = []
  | .guarding lock => client.Guards lock call ∧ call.fnEnded = none
  | .unlocking lock outcome => client.Guards lock call ∧ call.fnEnded = some outcome
  | .releasing outcome => client.session.Clean ∧ ∀ e, call.fnEnded = some (.error e) → outcome = .error e

structure Client.Inv (k : Nat) (call : Call W α ε) (client : Client W) (phase : Phase α ε) : Prop where
  failure : client.failure = client.lost
  lost : client.lost = true → client.session.Clean
  lostInCommit : call.lostInCommit = true → client.lost = true
  fits : phase.Fits k call client

structure Call.Inv (committed : List (Nat × W)) (k : Nat) (call : Call W α ε) : Prop where
  connecting : call.stage = .connecting → call.writes = [] ∧ call.fnEnded = none ∧ call.lostInCommit = false
  holding : ∀ client phase, call.stage = .holding client phase → client.Inv k call phase
  done : ∀ outcome, call.stage = .done outcome → ∀ e, call.fnEnded = some (.error e) → outcome = .error e
  visible : call.lostInCommit = false → visible committed k = call.shown

structure State.Inv (s : State W α ε) : Prop where
  idle : ∀ session ∈ s.idle, session.Clean
  calls : ∀ (k : Nat) (call : Call W α ε), s.calls[k]? = some call → call.Inv s.committed k
  committed : ∀ e ∈ s.committed, e.1 < s.calls.length

variable {s t : State W α ε} {call call' : Call W α ε} {client client' : Client W} {phase : Phase α ε}
  {k j : Nat} {added committed : List (Nat × W)} {writes : List W}

theorem Client.Guards.eq_of_mem {lock l : AdvisoryLock} (h : client.Guards l call) (hlock : lock ∈ client.session.locks) :
    lock = l := by
  rw [h.locks] at hlock
  split_ifs at hlock
  · cases hlock
  · exact List.mem_singleton.mp hlock

theorem visible_append (committed added : List (Nat × W)) (k : Nat) :
    visible (committed ++ added) k = visible committed k ++ visible added k :=
  List.filterMap_append

theorem visible_of_ne (h : ∀ e ∈ added, e.1 ≠ k) : visible added k = [] :=
  List.filterMap_eq_nil_iff.mpr fun e he => if_neg (h e he)

@[simp] theorem visible_entries (k : Nat) (writes : List W) : visible (entries k writes) k = writes := by
  simp [visible, entries, List.filterMap_map]

theorem fst_of_mem_entries {e : Nat × W} (h : e ∈ entries k writes) : e.1 = k := by
  obtain ⟨w, _, rfl⟩ := List.mem_map.mp h
  rfl

theorem State.Inv.put (h : s.Inv) {idle : List (DbSession W)} (hcall : s.calls[k]? = some call)
    (hadded : ∀ e ∈ added, e.1 = k) (hinv : call'.Inv (s.committed ++ added) k)
    (hidle : ∀ session ∈ idle, session.Clean) : State.Inv { s.put k call' added with idle := idle } := by
  have hk : k < s.calls.length := (List.getElem?_eq_some_iff.mp hcall).1
  refine ⟨hidle, fun j c hj => ?_, fun e he => ?_⟩
  · by_cases hjk : k = j
    · subst hjk
      obtain rfl : call' = c := by simpa [State.put, hk] using hj
      exact hinv
    · have hc : s.calls[j]? = some c := by simpa [State.put, List.getElem?_set_ne hjk] using hj
      obtain ⟨hconnecting, hholding, hdone, hvisible⟩ := h.calls j c hc
      refine ⟨hconnecting, hholding, hdone, fun hlost => ?_⟩
      have hother : visible added j = [] := visible_of_ne fun e he heq => hjk ((hadded e he).symm.trans heq)
      simp only [State.put, visible_append, hother, List.append_nil]
      exact hvisible hlost
  · simp only [State.put, List.length_set]
    obtain he | he := List.mem_append.mp he
    · exact h.committed e he
    · exact hadded e he ▸ hk

theorem Client.Inv.lose (h : client.Inv k call phase) :
    client.lose.Inv k { call with stage := .holding client.lose phase, lostInCommit := phase.isCommitting } phase where
  failure := rfl
  lost _ := clean_default
  lostInCommit _ := rfl
  fits := by
    cases phase with
    | beginning => exact ⟨h.fits.1, clean_default, h.fits.2.2⟩
    | running => exact ⟨h.fits.1, ⟨rfl, fun hlost => by cases hlost⟩, h.fits.2.2⟩
    | committing result =>
      exact ⟨h.fits.1, ⟨rfl, fun hlost => by cases hlost⟩, h.fits.2.2.1, fun _ htransaction => by cases htransaction⟩
    | rollingBack error => exact ⟨rfl, h.fits.2⟩
    | locking lock => exact ⟨h.fits.1, clean_default, h.fits.2.2⟩
    | guarding lock => exact ⟨⟨h.fits.1.kind, rfl, rfl, h.fits.1.writes⟩, h.fits.2⟩
    | unlocking lock outcome => exact ⟨⟨h.fits.1.kind, rfl, rfl, h.fits.1.writes⟩, h.fits.2⟩
    | releasing outcome => exact ⟨clean_default, h.fits.2⟩

theorem fail_of_lost {query : Statement (Nat × W) AdvisoryLock} {effective : Bool} (h : client.lost = true) :
    client.fail query effective = client := if_pos h

theorem fail_of_not_lost {query : Statement (Nat × W) AdvisoryLock} {effective : Bool} (h : client.lost = false) :
    client.fail query effective = { client with session := client.session.fail query effective } :=
  if_neg (by simp [h])

theorem Client.Inv.fail {next : Phase α ε} {query : Statement (Nat × W) AdvisoryLock} {effective : Bool}
    (h : client.Inv k call phase)
    (hlost : client.lost = true → next.Fits k { call with stage := .holding client next } client)
    (hfail : client.lost = false →
      next.Fits k { call with stage := .holding (client.fail query effective) next }
        { client with session := client.session.fail query effective }) :
    (client.fail query effective).Inv k { call with stage := .holding (client.fail query effective) next } next := by
  cases hclient : client.lost with
  | true =>
    rw [fail_of_lost hclient]
    exact ⟨h.failure, h.lost, h.lostInCommit, hlost hclient⟩
  | false =>
    have hfits := hfail hclient
    rw [fail_of_not_lost hclient] at hfits ⊢
    exact ⟨h.failure, fun hl => by simp [hclient] at hl, h.lostInCommit, hfits⟩

theorem Client.Inv.catch {failure : ε} {effective : Bool} {query : Statement (Nat × W) AdvisoryLock}
    (h : client.Inv k call phase) (hquery : phase.query = some query)
    (horderly : phase.Orderly client failure effective) :
    (client.fail query effective).Inv k
      { call with stage := .holding (client.fail query effective) (phase.catch failure) } (phase.catch failure) := by
  have hfits := h.fits
  cases phase with
  | beginning =>
    obtain rfl := Option.some.inj hquery
    obtain ⟨_, hclean, hended, _⟩ := hfits
    refine h.fail (fun _ => ⟨hclean.locks, fun e he => ?_⟩) fun _ => ⟨?_, fun e he => ?_⟩
    · simp [hended] at he
    · cases effective <;> exact hclean.locks
    · simp [hended] at he
  | committing result =>
    obtain rfl := Option.some.inj hquery
    obtain ⟨_, hwithin, hended, _⟩ := hfits
    refine h.fail (fun _ => ⟨hwithin.locks, fun e he => ?_⟩) fun _ => ⟨?_, fun e he => ?_⟩
    · simp [hended] at he
    · cases effective <;> exact hwithin.locks
    · simp [hended] at he
  | rollingBack error =>
    obtain rfl := Option.some.inj hquery
    obtain ⟨hlocks, hended⟩ := hfits
    have herror : ∀ e, call.fnEnded = some (.error e) → (.error error : Except ε (LockedResult α)) = .error e :=
      fun e he => by rw [hended e he]
    refine h.fail (fun hlost => ⟨h.lost hlost, herror⟩) fun hlost => ⟨?_, herror⟩
    obtain hl | heffective | hnone := horderly
    · simp [hlost] at hl
    · subst heffective
      exact ⟨rfl, hlocks⟩
    · cases effective
      · exact ⟨by simp [Session.fail, Session.abort, hnone], hlocks⟩
      · exact ⟨rfl, hlocks⟩
  | locking lock =>
    obtain rfl := Option.some.inj hquery
    obtain ⟨_, hclean, hended, _⟩ := hfits
    have herror : ∀ e, call.fnEnded = some (.error e) → (.error failure : Except ε (LockedResult α)) = .error e :=
      fun e he => by simp [hended] at he
    refine h.fail (fun hlost => ⟨h.lost hlost, herror⟩) fun hlost => ⟨?_, herror⟩
    obtain hl | rfl := horderly
    · simp [hlost] at hl
    · exact ⟨by simp [Session.fail, Session.abort, hclean.transaction], hclean.locks⟩
  | unlocking lock outcome =>
    obtain rfl := Option.some.inj hquery
    obtain ⟨hguards, hended⟩ := hfits
    have herror : ∀ e, call.fnEnded = some (.error e) → (.error failure : Except ε (LockedResult α)) = .error e := by
      intro e he
      rw [hended] at he
      rw [horderly.2 e (Option.some.inj he)]
    refine h.fail (fun hlost => ⟨h.lost hlost, herror⟩) fun hlost => ⟨?_, herror⟩
    obtain hl | rfl := horderly.1
    · simp [hlost] at hl
    · exact ⟨by simp [Session.fail, Session.abort, hguards.transaction], by simp [Session.fail, hguards.locks, hlost]⟩
  | running => cases hquery
  | guarding lock => cases hquery
  | releasing outcome => cases hquery

theorem succeed_some {query : Statement (Nat × W) AdvisoryLock} (h : client.succeed query = some (client', added)) :
    client.lost = false ∧ ∃ session, client.session.succeed query = some (session, added) ∧
      client' = { client with session } := by
  rw [Client.succeed] at h
  split_ifs at h with hlost
  obtain ⟨⟨session, writes⟩, hsucceed, heq⟩ := Option.map_eq_some_iff.mp h
  cases heq
  exact ⟨by simpa using hlost, session, hsucceed, rfl⟩

theorem Client.Inv.succeed {query : Statement (Nat × W) AdvisoryLock} (h : client.Inv k call phase)
    (hquery : phase.query = some query) (hsucceed : client.succeed query = some (client', added)) :
    client'.Inv k { call with stage := .holding client' phase.next } phase.next ∧ (∀ e ∈ added, e.1 = k) ∧
      visible added k = Call.shown { call with stage := .holding client' phase.next } := by
  obtain ⟨hlost, session, hsession, rfl⟩ := succeed_some hsucceed
  have hfits := h.fits
  have hinv : ∀ next : Phase α ε,
      next.Fits k { call with stage := .holding { client with session } next } { client with session } →
      Client.Inv k { call with stage := .holding { client with session } next } { client with session } next :=
    fun next hnext => ⟨h.failure, fun hl => by simp [hlost] at hl, h.lostInCommit, hnext⟩
  cases phase with
  | beginning =>
    obtain rfl := Option.some.inj hquery
    obtain ⟨hkind, hclean, hended, hwrites⟩ := hfits
    simp only [Session.succeed, hclean.transaction, Option.some.injEq, Prod.mk.injEq] at hsession
    obtain ⟨rfl, rfl⟩ := hsession
    refine ⟨hinv _ ⟨hkind, ⟨hclean.locks, fun _ => ⟨{}, rfl, ?_⟩⟩, hended⟩, List.forall_mem_nil _, rfl⟩
    simp [hwrites, entries]
  | committing result =>
    obtain rfl := Option.some.inj hquery
    obtain ⟨_, hwithin, hended, haborted⟩ := hfits
    obtain ⟨transaction, htransaction, hentries⟩ := hwithin.transaction hlost
    simp only [Session.succeed, htransaction, Option.some.injEq, Prod.mk.injEq] at hsession
    obtain ⟨rfl, rfl⟩ := hsession
    refine ⟨hinv _ ⟨⟨rfl, hwithin.locks⟩, fun e he => by simp [hended] at he⟩, ?_, ?_⟩
    · split_ifs
      · intro e he
        cases he
      · rw [hentries]
        exact fun e he => fst_of_mem_entries he
    · split_ifs with habort
      · exact (haborted transaction htransaction habort).symm
      · rw [hentries, visible_entries]
        rfl
  | rollingBack error =>
    obtain rfl := Option.some.inj hquery
    simp only [Session.succeed, Option.some.injEq, Prod.mk.injEq] at hsession
    obtain ⟨rfl, rfl⟩ := hsession
    exact ⟨hinv _ ⟨⟨rfl, hfits.1⟩, fun e he => by rw [hfits.2 e he]⟩, List.forall_mem_nil _, rfl⟩
  | locking lock =>
    obtain rfl := Option.some.inj hquery
    obtain ⟨hkind, hclean, hended, hwrites⟩ := hfits
    simp only [Session.succeed, Option.some.injEq, Prod.mk.injEq] at hsession
    obtain ⟨rfl, rfl⟩ := hsession
    refine ⟨hinv _ ⟨⟨hkind, hclean.transaction, ?_, hwrites⟩, hended⟩, List.forall_mem_nil _, rfl⟩
    simp [hclean.locks, hlost]
  | unlocking lock outcome =>
    obtain rfl := Option.some.inj hquery
    obtain ⟨hguards, hended⟩ := hfits
    simp only [Session.succeed, Option.some.injEq, Prod.mk.injEq] at hsession
    obtain ⟨rfl, rfl⟩ := hsession
    refine ⟨hinv _ ⟨⟨hguards.transaction, ?_⟩, fun e he => ?_⟩, List.forall_mem_nil _, ?_⟩
    · simp [hguards.locks, hlost]
    · rw [hended] at he
      obtain rfl := Option.some.inj he
      rfl
    · cases outcome with
      | ok result => exact hguards.writes.symm
      | error e => rfl
  | running => cases hquery
  | guarding lock => cases hquery
  | releasing outcome => cases hquery

theorem Call.Inv.answered {reply : Reply ε} (h : call.Inv committed k) (hstage : call.stage = .holding client phase)
    (hanswer : call.answered client phase reply = some (call', added))
    (horderly : ∀ failure effective, reply = .failed failure effective → phase.Orderly client failure effective) :
    call'.Inv (committed ++ added) k ∧ ∀ e ∈ added, e.1 = k := by
  have hclient : client.Inv k call phase := h.holding client phase hstage
  obtain ⟨query, hquery, hanswer⟩ := Option.bind_eq_some_iff.mp hanswer
  have hshown : call.shown = [] := by
    rw [Call.shown, hstage]
    cases phase <;> first | rfl | cases hquery
  cases reply with
  | ok =>
    obtain ⟨⟨client', writes⟩, hsucceed, heq⟩ := Option.map_eq_some_iff.mp hanswer
    cases heq
    obtain ⟨hinv, hadded, hvisible⟩ := hclient.succeed hquery hsucceed
    refine ⟨⟨(fun hs => by cases hs), ?_, (fun outcome hs => by cases hs), fun hlost => ?_⟩, hadded⟩
    · rintro c p ⟨⟩
      exact hinv
    · rw [visible_append, h.visible hlost, hshown, List.nil_append]
      exact hvisible
  | refused =>
    cases phase with
    | locking lock =>
      dsimp only at hanswer
      split_ifs at hanswer
      cases hanswer
      have hfits := hclient.fits
      refine ⟨⟨(fun hs => by cases hs), ?_, (fun outcome hs => by cases hs), fun hlost => ?_⟩, List.forall_mem_nil _⟩
      · rintro c p ⟨⟩
        exact ⟨hclient.failure, hclient.lost, hclient.lostInCommit, hfits.2.1, fun e he => by simp [hfits.2.2.1] at he⟩
      · rw [List.append_nil, h.visible hlost, hshown]
        exact hfits.2.2.2.symm
    | _ => cases hanswer
  | failed failure effective =>
    cases hanswer
    have hinv := hclient.catch hquery (horderly failure effective rfl)
    refine ⟨⟨(fun hs => by cases hs), ?_, (fun outcome hs => by cases hs), fun hlost => ?_⟩, List.forall_mem_nil _⟩
    · rintro c p ⟨⟩
      exact hinv
    · rw [List.append_nil, h.visible hlost, hshown]
      cases phase <;> first | rfl | cases hquery

theorem Call.Inv.goOn (h : call.Inv committed k) {client' : Client W} {next : Phase α ε}
    (hinv : client'.Inv k call' next) (hstage : call'.stage = .holding client' next)
    (hlost : call'.lostInCommit = call.lostInCommit) (hshown : call'.shown = call.shown) :
    call'.Inv (committed ++ []) k where
  connecting hs := by simp [hstage] at hs
  holding c p hs := by
    rw [hstage] at hs
    cases hs
    exact hinv
  done outcome hs := by simp [hstage] at hs
  visible hl := by
    rw [List.append_nil, hshown]
    exact h.visible (hlost ▸ hl)

theorem Call.Inv.executed {write : Option W} {reply : Reply ε} (h : call.Inv committed k)
    (hstage : call.stage = .holding client .running)
    (hexecute : call.executed k client write reply = some (call', added)) :
    call'.Inv (committed ++ added) k ∧ ∀ e ∈ added, e.1 = k := by
  have hclient : client.Inv k call .running := h.holding client .running hstage
  obtain ⟨hkind, hwithin, hended⟩ := hclient.fits
  have hshown : call.shown = [] := by rw [Call.shown, hstage]
  cases reply with
  | ok =>
    obtain ⟨⟨client', writes⟩, hsucceed, heq⟩ := Option.map_eq_some_iff.mp hexecute
    cases heq
    obtain ⟨hlost, session, hsession, rfl⟩ := succeed_some hsucceed
    obtain ⟨transaction, htransaction, hentries⟩ := hwithin.transaction hlost
    simp only [Session.succeed, htransaction] at hsession
    split_ifs at hsession
    cases hsession
    refine ⟨h.goOn (?_ : Client.Inv k _ _ .running) rfl rfl hshown.symm, List.forall_mem_nil _⟩
    refine ⟨hclient.failure, fun hl => by simp [hlost] at hl, hclient.lostInCommit, hkind,
      ⟨hwithin.locks, fun _ => ⟨_, rfl, ?_⟩⟩, hended⟩
    cases write <;> simp [hentries, entries]
  | refused => cases hexecute
  | failed error effective =>
    cases hexecute
    refine ⟨h.goOn (hclient.fail (fun _ => ⟨hkind, ⟨hwithin.locks, hwithin.transaction⟩, hended⟩) fun hlost => ?_) rfl
      rfl hshown.symm, List.forall_mem_nil _⟩
    obtain ⟨transaction, htransaction, hentries⟩ := hwithin.transaction hlost
    refine ⟨hkind, ⟨?_, fun _ => ⟨{ transaction with aborted := true }, ?_, hentries⟩⟩, hended⟩
    · cases effective <;> exact hwithin.locks
    · cases effective <;> simp [Session.fail, Session.abort, htransaction]

theorem Call.Inv.fnEnds {outcome : Except ε α} {next : Phase α ε} (h : call.Inv committed k)
    (hstage : call.stage = .holding client phase) (hnext : phase.fnEnded client.failure outcome = some next)
    (horderly : ∀ result, outcome = .ok result → phase = .running → ∀ transaction,
      client.session.transaction = some transaction → transaction.aborted = true → call.writes = []) :
    Call.Inv (committed ++ []) k { call with stage := .holding client next, fnEnded := some outcome } := by
  have hclient : client.Inv k call phase := h.holding client phase hstage
  have hfits := hclient.fits
  have hinv : ∀ next : Phase α ε,
      next.Fits k { call with stage := .holding client next, fnEnded := some outcome } client →
      client.Inv k { call with stage := .holding client next, fnEnded := some outcome } next :=
    fun next hn => ⟨hclient.failure, hclient.lost, hclient.lostInCommit, hn⟩
  have hshown : call.shown = [] := by
    rw [Call.shown, hstage]
    cases phase <;> first | rfl | cases hnext
  cases phase with
  | running =>
    obtain ⟨hkind, hwithin, _⟩ := hfits
    cases outcome with
    | ok result =>
      obtain rfl := Option.some.inj hnext
      exact h.goOn (hinv _ ⟨hkind, ⟨hwithin.locks, hwithin.transaction⟩, rfl, horderly result rfl rfl⟩) rfl rfl
        hshown.symm
    | error error =>
      obtain rfl := Option.some.inj hnext
      refine h.goOn (hinv _ ⟨hwithin.locks, fun e he => ?_⟩) rfl rfl hshown.symm
      cases he
      rfl
  | guarding lock =>
    obtain ⟨hguards, _⟩ := hfits
    obtain rfl := Option.some.inj hnext
    split_ifs with hfailure
    · refine h.goOn (hinv _ ⟨hclient.lost (hclient.failure ▸ hfailure), fun e he => ?_⟩) rfl rfl ?_
      · cases he
        rfl
      · rw [hshown]
        cases outcome with
        | ok result => exact hguards.writes
        | error e => rfl
    · exact h.goOn (hinv _ ⟨⟨hguards.kind, hguards.transaction, hguards.locks, hguards.writes⟩, rfl⟩) rfl rfl
        hshown.symm
  | _ => cases hnext

theorem Call.Inv.lose {effective : Bool} (h : call.Inv committed k) (hstage : call.stage = .holding client phase)
    (hlost : client.lost = false) :
    Call.Inv (committed ++ client.committed phase effective) k
        { call with stage := .holding client.lose phase, lostInCommit := phase.isCommitting } ∧
      ∀ e ∈ client.committed phase effective, e.1 = k := by
  have hclient : client.Inv k call phase := h.holding client phase hstage
  have hbefore : call.lostInCommit = false :=
    Bool.eq_false_iff.mpr fun hl => by simp [hclient.lostInCommit hl] at hlost
  refine ⟨⟨(fun hs => by cases hs), ?_, (fun outcome hs => by cases hs), fun hl => ?_⟩, ?_⟩
  · rintro c p ⟨⟩
    exact hclient.lose
  · have hnone : client.committed phase effective = [] := by
      cases phase <;> first | rfl | cases hl
    rw [hnone, List.append_nil, h.visible hbefore, Call.shown, hstage, Call.shown]
    cases phase with
    | releasing outcome => cases outcome <;> rfl
    | _ => rfl
  · cases phase with
    | committing result =>
      obtain ⟨_, hwithin, _⟩ := hclient.fits
      obtain ⟨transaction, htransaction, hentries⟩ := hwithin.transaction hlost
      simp only [Client.committed, Session.succeed, htransaction, Option.map_some, Option.getD_some]
      split_ifs
      · exact List.forall_mem_nil _
      · rw [hentries]
        exact fun e he => fst_of_mem_entries he
      · exact List.forall_mem_nil _
    | _ => exact List.forall_mem_nil _

theorem Call.Inv.release {outcome : Except ε (LockedResult α)} (h : call.Inv committed k)
    (hstage : call.stage = .holding client (.releasing outcome)) :
    Call.Inv (committed ++ []) k { call with stage := .done outcome } := by
  refine ⟨(fun hs => by cases hs), (fun c p hs => by cases hs), ?_, fun hlost => ?_⟩
  · rintro o ⟨⟩
    exact (h.holding client _ hstage).fits.2
  · rw [List.append_nil, h.visible hlost, Call.shown, hstage]
    cases outcome <;> rfl

theorem Call.Inv.connect {session : DbSession W} (h : call.Inv committed k) (hstage : call.stage = .connecting)
    (hclean : session.Clean) :
    Call.Inv (committed ++ []) k { call with stage := .holding { session } call.kind.start } := by
  obtain ⟨hwrites, hended, hlost⟩ := h.connecting hstage
  have hfits : (call.kind.start : Phase α ε).Fits k { call with stage := .holding { session } call.kind.start }
      { session } := by
    cases call.kind with
    | transaction => exact ⟨rfl, hclean, hended, hwrites⟩
    | withTryAdvisoryLock lock => exact ⟨rfl, hclean, hended, hwrites⟩
  refine h.goOn ⟨rfl, (fun hl => by cases hl), fun hl => by simp [hlost] at hl, hfits⟩ rfl rfl ?_
  rw [Call.shown, Call.shown, hstage]
  cases call.kind <;> rfl

theorem Call.Inv.connectFails {error : ε} (h : call.Inv committed k) (hstage : call.stage = .connecting) :
    Call.Inv (committed ++ []) k { call with stage := .done (.error error) } := by
  obtain ⟨_, hended, _⟩ := h.connecting hstage
  refine ⟨(fun hs => by cases hs), (fun c p hs => by cases hs), fun o _ e he => ?_, fun hlost => ?_⟩
  · simp [hended] at he
  · rw [List.append_nil, h.visible hlost, Call.shown, hstage, Call.shown]

theorem inv_step {e : Event W α ε} (h : s.Inv) (horderly : Orderly s e) (hstep : step s e = some t) : t.Inv := by
  cases e with
  | call kind =>
    obtain rfl := Option.some.inj hstep
    refine ⟨h.idle, fun j c hj => ?_, fun e he => ?_⟩
    · obtain hj | ⟨rfl, rfl⟩ := getElem?_concat_cases hj
      · exact h.calls j c hj
      · refine ⟨fun _ => ⟨rfl, rfl, rfl⟩, (fun client phase hs => by cases hs), (fun outcome hs => by cases hs), fun _ => ?_⟩
        exact visible_of_ne fun e he heq => absurd (h.committed e he) (heq ▸ Nat.lt_irrefl _)
    · rw [List.length_append]
      exact Nat.lt_add_right _ (h.committed e he)
  | connect k idle =>
    obtain ⟨call, session, hcall, hstage, hsession, rest, hrest, rfl⟩ := connect_some hstep
    have hclean : session.Clean := by
      obtain rfl | hmem := hsession
      · exact clean_default
      · exact h.idle session hmem
    exact h.put hcall (List.forall_mem_nil _) ((h.calls k call hcall).connect hstage hclean)
      fun x hx => h.idle x (hrest x hx)
  | connectFails k error =>
    obtain ⟨call, hcall, hstage, rfl⟩ := connectFails_some hstep
    exact h.put hcall (List.forall_mem_nil _) ((h.calls k call hcall).connectFails hstage) h.idle
  | answer k reply =>
    obtain ⟨call, client, phase, call', added, hcall, hstage, hanswer, rfl⟩ := answer_some hstep
    obtain ⟨hinv, hadded⟩ := (h.calls k call hcall).answered hstage hanswer (by
      rintro failure effective rfl
      exact horderly call client phase hcall hstage)
    exact h.put hcall hadded hinv h.idle
  | execute k write reply =>
    obtain ⟨call, client, call', added, hcall, hstage, hexecute, rfl⟩ := execute_some hstep
    obtain ⟨hinv, hadded⟩ := (h.calls k call hcall).executed hstage hexecute
    exact h.put hcall hadded hinv h.idle
  | fnEnds k outcome =>
    obtain ⟨call, client, phase, next, hcall, hstage, hnext, rfl⟩ := fnEnds_some hstep
    refine h.put hcall (List.forall_mem_nil _) ((h.calls k call hcall).fnEnds hstage hnext ?_) h.idle
    rintro result rfl rfl transaction
    exact horderly call client transaction hcall hstage
  | lose k effective =>
    obtain ⟨call, client, phase, hcall, hstage, hlost, rfl⟩ := lose_some hstep
    obtain ⟨hinv, hadded⟩ := (h.calls k call hcall).lose hstage hlost
    exact h.put hcall hadded hinv h.idle
  | loseIdle i =>
    simp only [step] at hstep
    split_ifs at hstep
    obtain rfl := Option.some.inj hstep
    exact ⟨fun x hx => h.idle x (List.mem_of_mem_eraseIdx hx), h.calls, h.committed⟩
  | release k =>
    obtain ⟨call, client, outcome, hcall, hstage, rfl⟩ := release_some hstep
    refine h.put hcall (List.forall_mem_nil _) ((h.calls k call hcall).release hstage) ?_
    split_ifs
    · exact h.idle
    · intro x hx
      obtain hx | hx := List.mem_append.mp hx
      · exact h.idle x hx
      · obtain rfl := List.mem_singleton.mp hx
        exact ((h.calls k call hcall).holding client _ hstage).fits.1

theorem State.Inv.clean (h : s.Inv) : Clean s where
  reused := h.idle
  visible k call outcome hcall _ hstage hlost := by
    rw [(h.calls k call hcall).visible hlost, Call.shown, hstage]
    cases outcome <;> rfl
  locked k call client phase lock hcall hstage hlock := by
    have hfits := ((h.calls k call hcall).holding client phase hstage).fits
    cases phase with
    | guarding l =>
      obtain ⟨hguards, _⟩ := hfits
      obtain rfl := hguards.eq_of_mem hlock
      exact ⟨hguards.kind, .inl rfl⟩
    | unlocking l outcome =>
      obtain ⟨hguards, _⟩ := hfits
      obtain rfl := hguards.eq_of_mem hlock
      exact ⟨hguards.kind, .inr ⟨outcome, rfl⟩⟩
    | beginning => simp [hfits.2.1.locks] at hlock
    | running => simp [hfits.2.1.locks] at hlock
    | committing result => simp [hfits.2.1.locks] at hlock
    | rollingBack error => simp [hfits.1] at hlock
    | locking l => simp [hfits.2.1.locks] at hlock
    | releasing outcome => simp [hfits.1.locks] at hlock
  error k call outcome e hcall hstage hended := (h.calls k call hcall).done outcome hstage e hended

theorem inv_start : State.Inv ({} : State W α ε) := by
  constructor <;> intros <;> simp_all

theorem clean_run {events : List (Event W α ε)} (h : Along step Orderly ({} : State W α ε) events) :
    Always step Clean ({} : State W α ε) events :=
  (Transition.always_of_along (fun _ _ _ hs he hstep => inv_step hs he hstep) inv_start h).mono fun _ => State.Inv.clean

theorem inv_run {events : List (Event W α ε)} (hrun : run step ({} : State W α ε) events = some s)
    (h : Along step Orderly ({} : State W α ε) events) : s.Inv :=
  (Transition.always_of_along (fun _ _ _ hs he hstep => inv_step hs he hstep) inv_start h).last hrun

theorem release_holding {outcome : Except ε (LockedResult α)} (hcall : s.calls[k]? = some call)
    (hstage : call.stage = .holding client (.releasing outcome)) :
    step s (.release k) = some { s.put k { call with stage := .done outcome } [] with
      idle := if client.failure then s.idle else s.idle ++ [client.session] } := by
  simp only [step, hcall, hstage]

theorem answer_holding {reply : Reply ε} (hcall : s.calls[k]? = some call)
    (hstage : call.stage = .holding client phase) (hanswer : call.answered client phase reply = some (call', added)) :
    step s (.answer k reply) = some (s.put k call' added) := by
  simp only [step, hcall, hstage, hanswer, Option.map_some]

theorem getElem?_put (call' : Call W α ε) (added : List (Nat × W)) (hcall : s.calls[k]? = some call) :
    (s.put k call' added).calls[k]? = some call' := by
  have hk : k < s.calls.length := (List.getElem?_eq_some_iff.mp hcall).1
  simp [State.put, hk]

theorem unclean_of_release {outcome : Except ε (LockedResult α)} (hcall : s.calls[k]? = some call)
    (hstage : call.stage = .holding client (.releasing outcome)) (hfailure : client.failure = false)
    (hunclean : ¬client.session.Clean) : ∃ later u, run step s later = some u ∧ ¬Clean u := by
  refine ⟨[.release k], _, Transition.run_cons_eq_some.mpr ⟨_, release_holding hcall hstage, Transition.run_nil⟩,
    fun hclean => hunclean ?_⟩
  exact hclean.reused _ (by simp [hfailure])

theorem unclean_of_not_orderly {e : Event W α ε} (h : s.Inv) (hstep : step s e = some t) (he : ¬Orderly s e) :
    ∃ later u, run step t later = some u ∧ ¬Clean u := by
  cases e with
  | answer k reply =>
    cases reply with
    | failed failure effective =>
      obtain ⟨call, client, phase, call', added, hcall, hstage, hanswer, rfl⟩ := answer_some hstep
      have hdisorderly : ¬phase.Orderly client failure effective := by
        refine fun hphase => he fun c cl p hc hs => ?_
        obtain rfl := Option.some.inj (hcall.symm.trans hc)
        rw [hstage] at hs
        cases hs
        exact hphase
      have hclient : client.Inv k call phase := (h.calls k call hcall).holding client phase hstage
      have hfits := hclient.fits
      have hput : (s.put k call' added).calls[k]? = some call' := getElem?_put call' added hcall
      cases phase with
      | rollingBack error =>
        cases hanswer
        obtain ⟨hlost, heffective, htransaction⟩ :
            client.lost = false ∧ effective = false ∧ client.session.transaction ≠ none := by
          simpa [Phase.Orderly] using hdisorderly
        subst heffective
        refine unclean_of_release hput rfl ?_ fun hclean => htransaction ?_
        · rw [fail_of_not_lost hlost]
          exact hclient.failure.trans hlost
        · simpa [fail_of_not_lost hlost, Session.fail, Session.abort] using hclean.transaction
      | locking lock =>
        cases hanswer
        obtain ⟨hlost, heffective⟩ : client.lost = false ∧ effective = true := by
          simpa [Phase.Orderly] using hdisorderly
        subst heffective
        refine unclean_of_release hput rfl ?_ fun hclean => ?_
        · rw [fail_of_not_lost hlost]
          exact hclient.failure.trans hlost
        · simpa [fail_of_not_lost hlost, Session.fail] using hclean.locks
      | unlocking lock outcome =>
        cases hanswer
        obtain ⟨hguards, hended⟩ := hfits
        by_cases hgone : client.lost = true ∨ effective = true
        · obtain ⟨e, rfl, hne⟩ : ∃ e, outcome = .error e ∧ e ≠ failure := by
            simpa [Phase.Orderly, hgone] using hdisorderly
          refine ⟨[.release k], _, Transition.run_cons_eq_some.mpr ⟨_, release_holding hput rfl, Transition.run_nil⟩,
            fun hclean => hne ?_⟩
          have hsame := hclean.error k _ _ e (getElem?_put _ [] hput) rfl hended
          exact (Except.error.inj hsame).symm
        · obtain ⟨hlost, heffective⟩ : client.lost = false ∧ effective = false := by simpa using hgone
          subst heffective
          refine unclean_of_release hput rfl ?_ fun hclean => ?_
          · rw [fail_of_not_lost hlost]
            exact hclient.failure.trans hlost
          · have hlocks := hclean.locks
            simp [fail_of_not_lost hlost, Session.fail, hguards.locks, hlost] at hlocks
      | _ => exact absurd trivial hdisorderly
    | _ => exact absurd trivial he
  | fnEnds k outcome =>
    cases outcome with
    | ok result =>
      obtain ⟨call, client, phase, next, hcall, hstage, hnext, rfl⟩ := fnEnds_some hstep
      simp only [Orderly, not_forall] at he
      obtain ⟨c, cl, transaction, hc, hs, htransaction, haborted, hwrites⟩ := he
      obtain rfl := Option.some.inj (hcall.symm.trans hc)
      rw [hstage] at hs
      cases hs
      obtain rfl := Option.some.inj hnext
      have hclient : client.Inv k call .running := (h.calls k call hcall).holding client .running hstage
      have hlost : client.lost = false :=
        Bool.eq_false_iff.mpr fun hl => by simp [(hclient.lost hl).transaction] at htransaction
      have hbefore : call.lostInCommit = false :=
        Bool.eq_false_iff.mpr fun hl => by simp [hclient.lostInCommit hl] at hlost
      have hvisible : visible s.committed k = [] := by
        rw [(h.calls k call hcall).visible hbefore, Call.shown, hstage]
      -- The `COMMIT` of an aborted transaction succeeds and commits nothing.
      have hanswer : Call.answered
          { call with stage := .holding client (.committing result), fnEnded := some (.ok result) } client
            (.committing result) (.ok : Reply ε) =
          some ({ call with
            stage := .holding { client with session := { client.session with transaction := none } }
              (.releasing (.ok (some result)))
            fnEnded := some (.ok result) }, []) := by
        simp [Call.answered, Phase.query, Client.succeed, hlost, Session.succeed, htransaction, haborted, Phase.next]
      have hput := getElem?_put
        { call with stage := .holding client (.committing result), fnEnded := some (.ok result) } [] hcall
      have hreleasing := getElem?_put { call with
        stage := .holding { client with session := { client.session with transaction := none } }
          (.releasing (.ok (some result)))
        fnEnded := some (.ok result) } [] hput
      have hrun := Transition.run_cons_eq_some.mpr
        ⟨_, answer_holding hput rfl hanswer,
          Transition.run_cons_eq_some.mpr ⟨_, release_holding hreleasing rfl, Transition.run_nil⟩⟩
      refine ⟨[.answer k .ok, .release k], _, hrun, fun hclean => hwrites ?_⟩
      have hsame := hclean.visible k _ _ (getElem?_put _ [] hreleasing) hclient.fits.1 rfl hbefore
      simpa [State.put, hvisible] using hsame.symm
    | error error => exact absurd trivial he
  | _ => exact absurd trivial he

theorem connections_clean {events : List (Event W α ε)} (hrun : run step ({} : State W α ε) events = some s) :
    (Along step Orderly ({} : State W α ε) events → Always step Clean ({} : State W α ε) events) ∧
      ∀ e t, Along step Orderly ({} : State W α ε) events → step s e = some t → ¬Orderly s e →
        ∃ later u, run step t later = some u ∧ ¬Clean u :=
  ⟨clean_run, fun _ _ halong hstep he => unclean_of_not_orderly (inv_run hrun halong) hstep he⟩

def LOCK_INDEX : AdvisoryLock := ⟨0x6b62, 2⟩

def recovered : List (Event Nat Unit Nat) :=
  [.call .transaction, .connect 0 none, .answer 0 .ok, .execute 0 (some 7) .ok, .execute 0 none (.failed 1 false),
    .fnEnds 0 (.error 1), .answer 0 .ok, .release 0, .call (.withTryAdvisoryLock LOCK_INDEX), .connect 1 (some 0),
    .answer 1 .ok, .lose 1 false, .fnEnds 1 (.error 2), .release 1]

theorem connections_clean_recovered : Always step Clean ({} : State Nat Unit Nat) recovered :=
  (connections_clean (rfl : run step ({} : State Nat Unit Nat) recovered = some _)).1 <|
    .cons rfl trivial <| .cons rfl trivial <| .cons rfl trivial <| .cons rfl trivial <| .cons rfl trivial <|
    .cons rfl trivial <| .cons rfl trivial <| .cons rfl trivial <| .cons rfl trivial <| .cons rfl trivial <|
    .cons rfl trivial <| .cons rfl trivial <| .cons rfl trivial <| .cons rfl trivial trivial

def rollbackFails : List (Event Nat Unit Nat) :=
  [.call .transaction, .connect 0 none, .answer 0 .ok, .execute 0 (some 7) .ok, .fnEnds 0 (.error 1),
    .answer 0 (.failed 2 false), .release 0]

def unlockFails : List (Event Nat Unit Nat) :=
  [.call (.withTryAdvisoryLock LOCK_INDEX), .connect 0 none, .answer 0 .ok, .fnEnds 0 (.error 1),
    .answer 0 (.failed 2 false), .release 0]

def failureSwallowed : List (Event Nat Unit Nat) :=
  [.call .transaction, .connect 0 none, .answer 0 .ok, .execute 0 (some 7) .ok, .execute 0 none (.failed 1 false),
    .fnEnds 0 (.ok ()), .answer 0 .ok, .release 0]

/-- A transaction that stays open in the pool, a lock that stays held there and its error that the caller
gets in place of `fn`'s own, and a call that resolves and has written nothing. -/
theorem not_clean :
    (∃ s session, run step ({} : State Nat Unit Nat) rollbackFails = some s ∧ session ∈ s.idle ∧
      session.transaction ≠ none) ∧
    (∃ s session call, run step ({} : State Nat Unit Nat) unlockFails = some s ∧ session ∈ s.idle ∧
      session.locks = [LOCK_INDEX] ∧ s.calls[0]? = some call ∧ call.fnEnded = some (.error 1) ∧
      call.stage = .done (.error 2)) ∧
    ∃ s call, run step ({} : State Nat Unit Nat) failureSwallowed = some s ∧ s.calls[0]? = some call ∧
      call.stage = .done (.ok (some ())) ∧ call.writes = [7] ∧ visible s.committed 0 = [] := by
  refine ⟨⟨_, _, rfl, List.mem_singleton_self _, ?_⟩, ⟨_, _, _, rfl, List.mem_singleton_self _, rfl, rfl, rfl, rfl⟩,
    _, _, rfl, rfl, rfl, rfl, rfl⟩
  rintro ⟨⟩

end HomelabApps.KnowledgeBase.PostgresService
