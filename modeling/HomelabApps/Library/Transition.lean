import Mathlib.Data.List.Basic

/-! Partial deterministic transition systems driven by a list of labels: runs,
conditions on every step of a run, and the invariant rules. -/

universe u v

namespace HomelabApps.Library.Transition

variable {σ : Type u} {ε : Type v}

/-- What a list of labels does from a state, `none` when one of them is not enabled. -/
def run (step : σ → ε → Option σ) : σ → List ε → Option σ
  | s, [] => some s
  | s, e :: es => (step s e).bind fun t => run step t es

/-- `C` holds at every step of the run, of the state before it and its label. -/
def Along (step : σ → ε → Option σ) (C : σ → ε → Prop) : σ → List ε → Prop
  | _, [] => True
  | s, e :: es => C s e ∧ ∀ t, step s e = some t → Along step C t es

def Always (step : σ → ε → Option σ) (P : σ → Prop) : σ → List ε → Prop
  | s, [] => P s
  | s, e :: es => P s ∧ ∀ t, step s e = some t → Always step P t es

instance Along.decidable (step : σ → ε → Option σ) (C : σ → ε → Prop)
    [∀ s e, Decidable (C s e)] : ∀ s es, Decidable (Along step C s es)
  | _, [] => .isTrue trivial
  | s, e :: es =>
    match h : step s e with
    | none => decidable_of_iff (C s e) (by simp [Along, h])
    | some t =>
      have := Along.decidable step C t es
      decidable_of_iff (C s e ∧ Along step C t es) (by simp [Along, h])

variable {step : σ → ε → Option σ} {C : σ → ε → Prop} {P I : σ → Prop}
  {s t u : σ} {e : ε} {es fs : List ε}

@[simp] theorem run_nil : run step s [] = some s := rfl

theorem run_cons : run step s (e :: es) = (step s e).bind fun t => run step t es := rfl

theorem run_cons_eq_some :
    run step s (e :: es) = some u ↔ ∃ t, step s e = some t ∧ run step t es = some u := by
  simp [run_cons, Option.bind_eq_some_iff]

theorem run_append_eq_some :
    run step s (es ++ fs) = some u ↔ ∃ t, run step s es = some t ∧ run step t fs = some u := by
  induction es generalizing s with
  | nil => simp
  | cons e es ih =>
    simp only [List.cons_append, run_cons_eq_some, ih]
    constructor
    · rintro ⟨m, hm, t, ht, hu⟩
      exact ⟨t, ⟨m, hm, ht⟩, hu⟩
    · rintro ⟨t, ⟨m, hm, ht⟩, hu⟩
      exact ⟨m, hm, t, ht, hu⟩

theorem Always.first (h : Always step P s es) : P s := by
  cases es with
  | nil => exact h
  | cons e es => exact h.1

theorem Always.last (h : Always step P s es) (hrun : run step s es = some t) : P t := by
  induction es generalizing s with
  | nil =>
    obtain rfl : s = t := by simpa using hrun
    exact h
  | cons e es ih =>
    obtain ⟨m, hm, hrun⟩ := run_cons_eq_some.mp hrun
    exact ih (h.2 m hm) hrun

/-- Invariant rule for runs all of whose steps meet a condition. -/
theorem always_of_along (hstep : ∀ s e t, I s → C s e → step s e = some t → I t)
    (hI : I s) (hC : Along step C s es) : Always step I s es := by
  induction es generalizing s with
  | nil => exact hI
  | cons e es ih => exact ⟨hI, fun t ht => ih (hstep s e t hI hC.1 ht) (hC.2 t ht)⟩

theorem along_of_always (hstep : ∀ s e t, P s → step s e = some t → P t → C s e)
    (h : Always step P s es) (hrun : run step s es = some u) : Along step C s es := by
  induction es generalizing s with
  | nil => trivial
  | cons e es ih =>
    obtain ⟨m, hm, hrun⟩ := run_cons_eq_some.mp hrun
    refine ⟨hstep s e m h.1 hm (h.2 m hm).first, fun t ht => ?_⟩
    obtain rfl : m = t := by simpa [hm] using ht
    exact ih (h.2 m hm) hrun

theorem Always.mono (himp : ∀ s, I s → P s) (h : Always step I s es) : Always step P s es := by
  induction es generalizing s with
  | nil => exact himp s h
  | cons e es ih => exact ⟨himp s h.1, fun t ht => ih (h.2 t ht)⟩

theorem Always.and {Q : σ → Prop} (hP : Always step P s es) (hQ : Always step Q s es) :
    Always step (fun s => P s ∧ Q s) s es := by
  induction es generalizing s with
  | nil => exact ⟨hP, hQ⟩
  | cons e es ih => exact ⟨⟨hP.1, hQ.1⟩, fun t ht => ih (hP.2 t ht) (hQ.2 t ht)⟩

theorem Along.cons (hstep : step s e = some t) (he : C s e) (h : Along step C t es) : Along step C s (e :: es) := by
  refine ⟨he, fun u hu => ?_⟩
  obtain rfl : t = u := by simpa [hstep] using hu
  exact h

theorem along_true : Along step (fun _ _ => True) s es := by
  induction es generalizing s with
  | nil => trivial
  | cons e es ih => exact ⟨trivial, fun t _ => ih⟩

/-- Invariant rule for arbitrary runs. -/
theorem invariant (hstep : ∀ s e t, I s → step s e = some t → I t)
    (hI : I s) (hrun : run step s es = some t) : I t :=
  (always_of_along (fun s e t hs _ => hstep s e t hs) hI along_true).last hrun

end HomelabApps.Library.Transition
