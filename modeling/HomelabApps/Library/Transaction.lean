import Mathlib.Data.Option.Basic

/-! Programs of statements inside one transaction: a statement may be refused or fail, and a failed
program rolls back. -/

universe u

namespace HomelabApps.Library.Transaction

structure Session (σ : Type u) where
  committed : σ
  working : σ
  statements : Nat

structure Tx (σ : Type u) (α : Type) where
  run : Session σ → Option α × Session σ

variable {σ : Type u} {α β : Type}

instance : Monad (Tx σ) where
  pure a := ⟨fun s => (some a, s)⟩
  bind x k := ⟨fun s =>
    match x.run s with
    | (some a, s') => (k a).run s'
    | (none, s') => (none, s')⟩

def Tx.ofOption (a : Option α) : Tx σ α := ⟨fun s => (a, s)⟩

def Session.next (s : Session σ) : Session σ := { s with statements := s.statements + 1 }

section Statements

-- which statements fail for a reason of their own
variable (fails : Nat → Bool)

/-- `f` is `none` where the statement is refused. -/
def statement (f : σ → Option (α × σ)) : Tx σ α where
  run s :=
    if fails s.statements then (none, s.next)
    else
      match f s.working with
      | none => (none, s.next)
      | some (a, t) => (some a, { s.next with working := t })

def begin : Tx σ Unit where
  run s := if fails s.statements then (none, s.next) else (some (), { s.next with working := s.committed })

def commit : Tx σ Unit where
  run s := if fails s.statements then (none, s.next) else (some (), { s.next with committed := s.working })

def transacted (fn : Tx σ α) : Tx σ α := do
  begin fails
  let a ← fn
  commit fails
  pure a

/-- What the transaction ends with and what is committed then: whether the rollback of a program that
throws fails or not, its changes are gone. -/
def transaction (fn : Tx σ α) (t : σ) : Option α × σ :=
  let (result, s) := (transacted fails fn).run ⟨t, t, 0⟩
  (result, s.committed)

end Statements

/-- The program commits nothing by itself, and when it ends it has done what `f` says; it does end
where `f` does, unless a statement fails. -/
structure Refines (fails : Nat → Bool) (x : Tx σ α) (f : σ → Option (α × σ)) : Prop where
  committed : ∀ s, (x.run s).2.committed = s.committed
  sound : ∀ s a, (x.run s).1 = some a → f s.working = some (a, (x.run s).2.working)
  complete : (∀ n, fails n = false) → ∀ s a t, f s.working = some (a, t) → (x.run s).1 = some a

variable {fails : Nat → Bool} {x : Tx σ α} {k : α → Tx σ β} {f : σ → Option (α × σ)}
  {g : α → σ → Option (β × σ)} {a : α} {s s' : Session σ} {t t' : σ}

theorem bind_of_some (h : x.run s = (some a, s')) : (x >>= k).run s = (k a).run s' := by
  simp only [Bind.bind, h]

theorem bind_of_none (h : x.run s = (none, s')) : (x >>= k).run s = (none, s') := by
  simp only [Bind.bind, h]

theorem Refines.pure : Refines fails (Pure.pure a : Tx σ α) fun t => some (a, t) where
  committed _ := rfl
  sound _ _ h := congrArg some (Prod.ext (Option.some.inj h) rfl)
  complete _ _ _ _ h := congrArg some (Prod.mk.inj (Option.some.inj h)).1

theorem Refines.ofOption {o : Option α} : Refines fails (Tx.ofOption o : Tx σ α) fun t => o.map (·, t) where
  committed _ := rfl
  sound _ _ h := congrArg (Option.map _) h
  complete _ _ _ _ h := by
    obtain ⟨_, ho, heq⟩ := Option.map_eq_some_iff.mp h
    exact ho.trans (congrArg some (Prod.mk.inj heq).1)

theorem Refines.statement : Refines fails (statement fails f) f where
  committed s := by
    unfold Transaction.statement
    simp only
    split
    · rfl
    · split <;> rfl
  sound s a h := by
    unfold Transaction.statement at h ⊢
    simp only at h ⊢
    split at h
    · cases h
    · rename_i hfails
      rw [if_neg hfails]
      split at h
      · cases h
      · rename_i b t hf
        simp only [hf]
        rw [← Option.some.inj h]
  complete hfails s a t h := by
    simp only [Transaction.statement, hfails, h, Bool.false_eq_true, if_false]

theorem Refines.bind (hx : Refines fails x f) (hk : ∀ a, Refines fails (k a) (g a)) :
    Refines fails (x >>= k) fun t => (f t).bind fun r => g r.1 r.2 where
  committed s := by
    have hcommitted := hx.committed s
    cases h : x.run s with
    | mk result s' =>
      rw [h] at hcommitted
      cases result with
      | none => rw [bind_of_none h, hcommitted]
      | some a => rw [bind_of_some h, (hk a).committed, hcommitted]
  sound s b hb := by
    have hsound := hx.sound s
    cases h : x.run s with
    | mk result s' =>
      rw [h] at hsound
      cases result with
      | none =>
        rw [bind_of_none h] at hb
        cases hb
      | some a =>
        rw [bind_of_some h] at hb ⊢
        rw [hsound a rfl, Option.bind_some]
        exact (hk a).sound s' b hb
  complete hfails s b t h := by
    obtain ⟨⟨a, t'⟩, hf, hg⟩ := Option.bind_eq_some_iff.mp h
    have hresult := hx.complete hfails s a t' hf
    have hsound := hx.sound s a hresult
    cases hrun : x.run s with
    | mk result s' =>
      rw [hrun] at hresult hsound
      obtain rfl : result = some a := hresult
      rw [hf] at hsound
      obtain rfl : t' = s'.working := (Prod.mk.inj (Option.some.inj hsound)).2
      rw [bind_of_some hrun]
      exact (hk a).complete hfails s' b t hg

theorem Refines.congr {f' : σ → Option (α × σ)} (h : Refines fails x f) (heq : ∀ t, f t = f' t) :
    Refines fails x f' := funext heq ▸ h

theorem transaction_eq : transaction fails x t =
    if fails 0 then (none, t)
    else
      match x.run ⟨t, t, 1⟩ with
      | (none, s) => (none, s.committed)
      | (some a, s) => if fails s.statements then (none, s.committed) else (some a, s.working) := by
  unfold transaction transacted
  by_cases hbegin : fails 0 = true
  · have hrun : (begin fails).run ⟨t, t, 0⟩ = (none, (⟨t, t, 1⟩ : Session σ)) := by
      simp [begin, hbegin, Session.next]
    rw [bind_of_none hrun, if_pos hbegin]
  · have hrun : (begin fails).run ⟨t, t, 0⟩ = (some (), (⟨t, t, 1⟩ : Session σ)) := by
      simp [begin, hbegin, Session.next]
    rw [bind_of_some hrun, if_neg hbegin]
    cases hx : x.run ⟨t, t, 1⟩ with
    | mk result s =>
      cases result with
      | none => rw [bind_of_none hx]
      | some a =>
        rw [bind_of_some hx]
        by_cases hcommit : fails s.statements = true
        · have hrun : (commit fails).run s = (none, s.next) := by simp [commit, hcommit]
          simp [bind_of_none hrun, hcommit, Session.next]
        · have hrun : (commit fails).run s = (some (), { s.next with committed := s.working }) := by
            simp [commit, hcommit]
          simp [bind_of_some hrun, hcommit, Pure.pure]

theorem transaction_none (h : Refines fails x f) (hnone : (transaction fails x t).1 = none) :
    (transaction fails x t).2 = t := by
  have hcommitted := h.committed ⟨t, t, 1⟩
  rw [transaction_eq] at hnone ⊢
  split
  · rfl
  · rename_i hbegin
    rw [if_neg hbegin] at hnone
    cases hx : x.run ⟨t, t, 1⟩ with
    | mk result s =>
      rw [hx] at hcommitted hnone
      cases result with
      | none => exact hcommitted
      | some a =>
        simp only at hnone ⊢
        split at hnone
        · rename_i hcommit
          rw [if_pos hcommit]
          exact hcommitted
        · cases hnone

theorem transaction_some (h : Refines fails x f) (hsome : (transaction fails x t).1 = some a) :
    f t = some (a, (transaction fails x t).2) := by
  have hsound := h.sound ⟨t, t, 1⟩ a
  rw [transaction_eq] at hsome ⊢
  split at hsome
  · cases hsome
  · rename_i hbegin
    rw [if_neg hbegin]
    cases hx : x.run ⟨t, t, 1⟩ with
    | mk result s =>
      rw [hx] at hsound hsome
      cases result with
      | none => cases hsome
      | some b =>
        simp only at hsome ⊢
        split at hsome
        · cases hsome
        · rename_i hcommit
          rw [if_neg hcommit]
          exact hsound hsome

theorem transaction_complete (h : Refines fails x f) (hfails : ∀ n, fails n = false)
    (hf : f t = some (a, t')) : transaction fails x t = (some a, t') := by
  have hresult := h.complete hfails ⟨t, t, 1⟩ a t' hf
  have hsome : (transaction fails x t).1 = some a := by
    rw [transaction_eq, hfails]
    cases hx : x.run ⟨t, t, 1⟩ with
    | mk result s =>
      rw [hx] at hresult
      obtain rfl : result = some a := hresult
      simp [hfails]
  have hstate := transaction_some h hsome
  rw [hf] at hstate
  exact Prod.ext hsome (Prod.mk.inj (Option.some.inj hstate)).2.symm

end HomelabApps.Library.Transaction
