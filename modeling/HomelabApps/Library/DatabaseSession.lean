import Mathlib.Data.List.Basic

/-! One session of a database server: its transaction, and the locks it holds until they are
released or the session ends. -/

universe u v

namespace HomelabApps.Library.DatabaseSession

structure Transaction (W : Type u) where
  writes : List W := []
  aborted : Bool := false

structure Session (W : Type u) (L : Type v) where
  transaction : Option (Transaction W) := none
  locks : List L := []

inductive Statement (W : Type u) (L : Type v)
  | begin
  | commit
  | rollback
  | execute (write : Option W)
  | lock (l : L)
  | unlock (l : L)

structure Session.Clean (s : Session W L) : Prop where
  transaction : s.transaction = none
  locks : s.locks = []

def Session.abort (s : Session W L) : Session W L :=
  { s with transaction := s.transaction.map fun t => { t with aborted := true } }

@[simp] theorem Session.abort_locks (s : Session W L) : s.abort.locks = s.locks := rfl

theorem clean_default : ({} : Session W L).Clean := ⟨rfl, rfl⟩

variable [DecidableEq L]

/-- What a statement that succeeds does, and what it commits; `none` where the server refuses it. In an
open transaction another one is not begun, and an aborted one takes no statement but its end, which
commits nothing. -/
def Session.succeed (s : Session W L) : Statement W L → Option (Session W L × List W)
  | .begin =>
    match s.transaction with
    | none => some ({ s with transaction := some {} }, [])
    | some t => if t.aborted then none else some (s, [])
  | .commit =>
    match s.transaction with
    | none => some (s, [])
    | some t => some ({ s with transaction := none }, if t.aborted then [] else t.writes)
  | .rollback => some ({ s with transaction := none }, [])
  | .execute write =>
    match s.transaction with
    | none => some (s, write.toList)
    | some t =>
      if t.aborted then none
      else some ({ s with transaction := some { t with writes := t.writes ++ write.toList } }, [])
  | .lock l => some ({ s with locks := l :: s.locks }, [])
  | .unlock l => some ({ s with locks := s.locks.erase l }, [])

/-- What a statement that fails leaves behind. The end of a transaction may have ended it nevertheless,
without committing, and what a statement did to the locks stays done. -/
def Session.fail (s : Session W L) (statement : Statement W L) (effective : Bool) : Session W L :=
  if effective then
    match statement with
    | .commit | .rollback => { s with transaction := none }
    | .lock l => { s.abort with locks := l :: s.locks }
    | .unlock l => { s.abort with locks := s.locks.erase l }
    | _ => s.abort
  else s.abort

end HomelabApps.Library.DatabaseSession
