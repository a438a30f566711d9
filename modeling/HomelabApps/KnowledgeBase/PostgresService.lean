import HomelabApps.Library.DatabaseSession
import HomelabApps.Library.Transition

/-! The calls that run on a connection of the pool, each statement of theirs answered on its own. -/

namespace HomelabApps.KnowledgeBase.PostgresService

open HomelabApps.Library
open HomelabApps.Library.DatabaseSession

structure AdvisoryLock where
  «namespace» : Int
  key : Int
  deriving DecidableEq

abbrev LockedResult (α : Type) := Option α

variable {W α ε : Type}

abbrev DbSession (W : Type) := Session (Nat × W) AdvisoryLock

/-- A connection in use; `failure` is what the `error` listener keeps, and aborts `lost` with. -/
structure Client (W : Type) where
  session : DbSession W
  lost : Bool := false
  failure : Bool := false

inductive Kind
  | transaction
  | withTryAdvisoryLock (lock : AdvisoryLock)

inductive Phase (α ε : Type)
  | beginning
  | running
  | committing (result : α)
  | rollingBack (error : ε)
  | locking (lock : AdvisoryLock)
  | guarding (lock : AdvisoryLock)
  | unlocking (lock : AdvisoryLock) (outcome : Except ε α)
  | releasing (outcome : Except ε (LockedResult α))

inductive Stage (W α ε : Type)
  | connecting
  | holding (client : Client W) (phase : Phase α ε)
  | done (outcome : Except ε (LockedResult α))

/-- A call, with what its `fn` has written and ended with, and whether the connection was lost during
its `COMMIT`. -/
structure Call (W α ε : Type) where
  kind : Kind
  stage : Stage W α ε := .connecting
  writes : List W := []
  fnEnded : Option (Except ε α) := none
  lostInCommit : Bool := false

structure State (W α ε : Type) where
  idle : List (DbSession W) := []
  committed : List (Nat × W) := []
  calls : List (Call W α ε) := []

/-- The answer to a statement; `refused` is that of a lock that another session holds. -/
inductive Reply (ε : Type)
  | ok
  | refused
  | failed (error : ε) (effective : Bool)

inductive Event (W α ε : Type)
  | call (kind : Kind)
  | connect (call : Nat) (idle : Option Nat)
  | connectFails (call : Nat) (error : ε)
  | answer (call : Nat) (reply : Reply ε)
  | execute (call : Nat) (write : Option W) (reply : Reply ε)
  | fnEnds (call : Nat) (outcome : Except ε α)
  | lose (call : Nat) (effective : Bool)
  | loseIdle (idle : Nat)
  | release (call : Nat)

def Kind.start : Kind → Phase α ε
  | .transaction => .beginning
  | .withTryAdvisoryLock lock => .locking lock

def Phase.query : Phase α ε → Option (Statement (Nat × W) AdvisoryLock)
  | .beginning => some .begin
  | .committing _ => some .commit
  | .rollingBack _ => some .rollback
  | .locking lock => some (.lock lock)
  | .unlocking lock _ => some (.unlock lock)
  | _ => none

def Phase.next : Phase α ε → Phase α ε
  | .beginning => .running
  | .committing result => .releasing (.ok (some result))
  | .rollingBack error => .releasing (.error error)
  | .locking lock => .guarding lock
  | .unlocking _ outcome => .releasing (outcome.map some)
  | phase => phase

/-- Where a call goes on when its query has rejected: a transaction rolls back, and the error of the
rollback is dropped; that of an unlock takes the place of the outcome. -/
def Phase.catch (phase : Phase α ε) (failure : ε) : Phase α ε :=
  match phase with
  | .beginning => .rollingBack failure
  | .committing _ => .rollingBack failure
  | .rollingBack error => .releasing (.error error)
  | .locking _ => .releasing (.error failure)
  | .unlocking _ _ => .releasing (.error failure)
  | phase => phase

/-- Where a call goes on when its `fn` has ended; a lock is not released on a connection that is lost. -/
def Phase.fnEnded (phase : Phase α ε) (aborted : Bool) (outcome : Except ε α) : Option (Phase α ε) :=
  match phase with
  | .running =>
    match outcome with
    | .ok result => some (.committing result)
    | .error error => some (.rollingBack error)
  | .guarding lock => some (if aborted then .releasing (outcome.map some) else .unlocking lock outcome)
  | _ => none

def Client.succeed (client : Client W) (query : Statement (Nat × W) AdvisoryLock) :
    Option (Client W × List (Nat × W)) :=
  if client.lost then none
  else (client.session.succeed query).map fun (session, writes) => ({ client with session }, writes)

def Client.fail (client : Client W) (query : Statement (Nat × W) AdvisoryLock) (effective : Bool) : Client W :=
  if client.lost then client else { client with session := client.session.fail query effective }

def Client.lose (_ : Client W) : Client W := { session := {}, lost := true, failure := true }

/-- What is committed if the connection is lost and a `COMMIT` in flight had been carried out. -/
def Client.committed (client : Client W) (phase : Phase α ε) (effective : Bool) : List (Nat × W) :=
  match phase with
  | .committing _ => if effective then ((client.session.succeed .commit).map (·.2)).getD [] else []
  | _ => []

def Phase.isCommitting : Phase α ε → Bool
  | .committing _ => true
  | _ => false

def State.put (s : State W α ε) (k : Nat) (call : Call W α ε) (committed : List (Nat × W)) : State W α ε :=
  { s with calls := s.calls.set k call, committed := s.committed ++ committed }

def Call.answered (call : Call W α ε) (client : Client W) (phase : Phase α ε) (reply : Reply ε) :
    Option (Call W α ε × List (Nat × W)) :=
  phase.query.bind fun query =>
    match reply with
    | .ok =>
      (client.succeed query).map fun (client, writes) => ({ call with stage := .holding client phase.next }, writes)
    | .refused =>
      match phase with
      | .locking _ =>
        if client.lost then none else some ({ call with stage := .holding client (.releasing (.ok none)) }, [])
      | _ => none
    | .failed error effective =>
      some ({ call with stage := .holding (client.fail query effective) (phase.catch error) }, [])

def Call.executed (call : Call W α ε) (k : Nat) (client : Client W) (write : Option W) (reply : Reply ε) :
    Option (Call W α ε × List (Nat × W)) :=
  let query := .execute (write.map (k, ·))
  match reply with
  | .ok =>
    (client.succeed query).map fun (client, writes) =>
      ({ call with stage := .holding client .running, writes := call.writes ++ write.toList }, writes)
  | .refused => none
  | .failed _ effective => some ({ call with stage := .holding (client.fail query effective) .running }, [])

def step (s : State W α ε) : Event W α ε → Option (State W α ε)
  | .call kind => some { s with calls := s.calls ++ [{ kind }] }
  | .connect k idle =>
    match s.calls[k]? with
    | some call =>
      match call.stage with
      | .connecting =>
        match idle with
        | none => some (s.put k { call with stage := .holding { session := {} } call.kind.start } [])
        | some i =>
          s.idle[i]?.map fun session =>
            { s.put k { call with stage := .holding { session } call.kind.start } [] with idle := s.idle.eraseIdx i }
      | _ => none
    | none => none
  | .connectFails k error =>
    match s.calls[k]? with
    | some call =>
      match call.stage with
      | .connecting => some (s.put k { call with stage := .done (.error error) } [])
      | _ => none
    | none => none
  | .answer k reply =>
    match s.calls[k]? with
    | some call =>
      match call.stage with
      | .holding client phase => (call.answered client phase reply).map fun (call, writes) => s.put k call writes
      | _ => none
    | none => none
  | .execute k write reply =>
    match s.calls[k]? with
    | some call =>
      match call.stage with
      | .holding client .running => (call.executed k client write reply).map fun (call, writes) => s.put k call writes
      | _ => none
    | none => none
  | .fnEnds k outcome =>
    match s.calls[k]? with
    | some call =>
      match call.stage with
      | .holding client phase =>
        (phase.fnEnded client.failure outcome).map fun phase =>
          s.put k { call with stage := .holding client phase, fnEnded := some outcome } []
      | _ => none
    | none => none
  | .lose k effective =>
    match s.calls[k]? with
    | some call =>
      match call.stage with
      | .holding client phase =>
        if client.lost then none
        else
          some (s.put k { call with stage := .holding client.lose phase, lostInCommit := phase.isCommitting }
            (client.committed phase effective))
      | _ => none
    | none => none
  | .loseIdle i => if i < s.idle.length then some { s with idle := s.idle.eraseIdx i } else none
  | .release k =>
    match s.calls[k]? with
    | some call =>
      match call.stage with
      | .holding client (.releasing outcome) =>
        some { s.put k { call with stage := .done outcome } [] with
          idle := if client.failure then s.idle else s.idle ++ [client.session] }
      | _ => none
    | none => none

variable {s t : State W α ε} {call call' : Call W α ε} {client client' : Client W} {phase : Phase α ε}
  {k : Nat} {added : List (Nat × W)}

theorem connect_some {idle : Option Nat} (h : step s (.connect k idle) = some t) :
    ∃ call session, s.calls[k]? = some call ∧ call.stage = .connecting ∧ (session = {} ∨ session ∈ s.idle) ∧
      ∃ rest, (∀ x ∈ rest, x ∈ s.idle) ∧
        t = { s.put k { call with stage := .holding { session } call.kind.start } [] with idle := rest } := by
  simp only [step] at h
  split at h
  · rename_i call hcall
    split at h
    · rename_i hstage
      split at h
      · obtain rfl := Option.some.inj h
        exact ⟨call, {}, hcall, hstage, .inl rfl, s.idle, fun _ hx => hx, rfl⟩
      · obtain ⟨session, hsession, rfl⟩ := Option.map_eq_some_iff.mp h
        exact ⟨call, session, hcall, hstage, .inr (List.mem_of_getElem? hsession), _,
          fun _ hx => List.mem_of_mem_eraseIdx hx, rfl⟩
    · cases h
  · cases h

theorem connectFails_some {error : ε} (h : step s (.connectFails k error) = some t) :
    ∃ call, s.calls[k]? = some call ∧ call.stage = .connecting ∧
      t = s.put k { call with stage := .done (.error error) } [] := by
  simp only [step] at h
  split at h
  · rename_i call hcall
    split at h
    · rename_i hstage
      exact ⟨call, hcall, hstage, (Option.some.inj h).symm⟩
    · cases h
  · cases h

theorem answer_some {reply : Reply ε} (h : step s (.answer k reply) = some t) :
    ∃ call client phase call' added, s.calls[k]? = some call ∧ call.stage = .holding client phase ∧
      call.answered client phase reply = some (call', added) ∧ t = s.put k call' added := by
  simp only [step] at h
  split at h
  · rename_i call hcall
    split at h
    · rename_i client phase hstage
      obtain ⟨⟨call', added⟩, hanswer, rfl⟩ := Option.map_eq_some_iff.mp h
      exact ⟨call, client, phase, call', added, hcall, hstage, hanswer, rfl⟩
    · cases h
  · cases h

theorem execute_some {write : Option W} {reply : Reply ε} (h : step s (.execute k write reply) = some t) :
    ∃ call client call' added, s.calls[k]? = some call ∧ call.stage = .holding client .running ∧
      call.executed k client write reply = some (call', added) ∧ t = s.put k call' added := by
  simp only [step] at h
  split at h
  · rename_i call hcall
    split at h
    · rename_i client hstage
      obtain ⟨⟨call', added⟩, hexecute, rfl⟩ := Option.map_eq_some_iff.mp h
      exact ⟨call, client, call', added, hcall, hstage, hexecute, rfl⟩
    · cases h
  · cases h

theorem fnEnds_some {outcome : Except ε α} (h : step s (.fnEnds k outcome) = some t) :
    ∃ call client phase next, s.calls[k]? = some call ∧ call.stage = .holding client phase ∧
      phase.fnEnded client.failure outcome = some next ∧
      t = s.put k { call with stage := .holding client next, fnEnded := some outcome } [] := by
  simp only [step] at h
  split at h
  · rename_i call hcall
    split at h
    · rename_i client phase hstage
      obtain ⟨next, hnext, rfl⟩ := Option.map_eq_some_iff.mp h
      exact ⟨call, client, phase, next, hcall, hstage, hnext, rfl⟩
    · cases h
  · cases h

theorem lose_some {effective : Bool} (h : step s (.lose k effective) = some t) :
    ∃ call client phase, s.calls[k]? = some call ∧ call.stage = .holding client phase ∧ client.lost = false ∧
      t = s.put k { call with stage := .holding client.lose phase, lostInCommit := phase.isCommitting }
        (client.committed phase effective) := by
  simp only [step] at h
  split at h
  · rename_i call hcall
    split at h
    · rename_i client phase hstage
      split_ifs at h with hlost
      exact ⟨call, client, phase, hcall, hstage, by simpa using hlost, (Option.some.inj h).symm⟩
    · cases h
  · cases h

theorem release_some (h : step s (.release k) = some t) :
    ∃ call client outcome, s.calls[k]? = some call ∧ call.stage = .holding client (.releasing outcome) ∧
      t = { s.put k { call with stage := .done outcome } [] with
        idle := if client.failure then s.idle else s.idle ++ [client.session] } := by
  simp only [step] at h
  split at h
  · rename_i call hcall
    split at h
    · rename_i client outcome hstage
      exact ⟨call, client, outcome, hcall, hstage, (Option.some.inj h).symm⟩
    · cases h
  · cases h

end HomelabApps.KnowledgeBase.PostgresService
