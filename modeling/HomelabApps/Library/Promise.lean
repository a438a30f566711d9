import Mathlib.Data.List.Forall2

universe u

namespace HomelabApps.Library

/-- How far a promise has come; what it is rejected with is not kept. -/
inductive Promise (α : Type u)
  | pending
  | fulfilled (value : α)
  | rejected
  deriving DecidableEq

namespace Promise

variable {α : Type u} {p q : Promise α} {ps qs : List (Promise α)} {values : List α}

/-- The promise of the one that settles first, where `q` settles after `p`. -/
def race : Promise α → Promise α → Promise α
  | pending, q => q
  | fulfilled a, _ => fulfilled a
  | rejected, _ => rejected

def map {β : Type u} (f : α → β) : Promise α → Promise β
  | pending => pending
  | fulfilled a => fulfilled (f a)
  | rejected => rejected

def all : List (Promise α) → Promise (List α)
  | [] => fulfilled []
  | pending :: ps =>
    match all ps with
    | rejected => rejected
    | _ => pending
  | fulfilled a :: ps =>
    match all ps with
    | pending => pending
    | fulfilled as => fulfilled (a :: as)
    | rejected => rejected
  | rejected :: _ => rejected

def Extends (p q : Promise α) : Prop := p ≠ pending → q = p

@[simp] theorem pending_race : race pending p = p := rfl

theorem race_of_settled (h : p ≠ pending) : p.race q = p := by
  cases p with
  | pending => exact absurd rfl h
  | fulfilled a => rfl
  | rejected => rfl

theorem Extends.refl (p : Promise α) : p.Extends p := fun _ => rfl

theorem extends_race (p q : Promise α) : p.Extends (p.race q) := race_of_settled

theorem all_eq_rejected : all ps = rejected ↔ rejected ∈ ps := by
  induction ps with
  | nil => simp [all]
  | cons p ps ih =>
    cases p with
    | pending =>
      rw [List.mem_cons, ← ih, all]
      cases all ps <;> simp
    | fulfilled a =>
      rw [List.mem_cons, ← ih, all]
      cases all ps <;> simp
    | rejected => simp [all]

theorem all_eq_fulfilled : all ps = fulfilled values ↔ ps = values.map fulfilled := by
  induction ps generalizing values with
  | nil => cases values <;> simp [all]
  | cons p ps ih =>
    cases p with
    | pending =>
      rw [all]
      cases values <;> cases all ps <;> simp
    | fulfilled a =>
      rw [all]
      cases values with
      | nil => cases all ps <;> simp
      | cons b bs =>
        rw [List.map_cons, List.cons.injEq, ← ih]
        cases all ps <;> simp
    | rejected => cases values <;> simp [all]

theorem all_eq_pending (h : rejected ∉ ps) : all ps = pending ↔ pending ∈ ps := by
  constructor
  · intro hall
    by_contra hpending
    obtain ⟨values, hvalues⟩ : ∃ values : List α, ps = values.map fulfilled := by
      clear hall
      induction ps with
      | nil => exact ⟨[], rfl⟩
      | cons p ps ih =>
        rw [List.mem_cons, not_or] at h hpending
        obtain ⟨values, rfl⟩ := ih h.2 hpending.2
        cases p with
        | pending => exact absurd rfl hpending.1
        | fulfilled a => exact ⟨a :: values, rfl⟩
        | rejected => exact absurd rfl h.1
    rw [all_eq_fulfilled.mpr hvalues] at hall
    cases hall
  · intro hpending
    cases hall : all ps with
    | pending => rfl
    | fulfilled values =>
      rw [all_eq_fulfilled.mp hall, List.mem_map] at hpending
      obtain ⟨a, _, ha⟩ := hpending
      cases ha
    | rejected => exact absurd (all_eq_rejected.mp hall) h

theorem all_extends (h : List.Forall₂ Extends ps qs) : (all ps).Extends (all qs) := by
  induction h with
  | nil => exact Extends.refl _
  | @cons p q ps qs hpq _ ih =>
    intro hsettled
    cases p with
    | pending =>
      -- Settled all the same: another one of them is rejected.
      have hrejected : all ps = rejected := by
        rw [all] at hsettled
        cases hall : all ps <;> simp_all
      have hps : rejected ∈ qs := all_eq_rejected.mp ((ih (hrejected ▸ nofun)).trans hrejected)
      rw [all_eq_rejected.mpr (List.mem_cons_of_mem q hps)]
      rw [all_eq_rejected.mpr (List.mem_cons_of_mem pending (all_eq_rejected.mp hrejected))]
    | fulfilled a =>
      have hq : q = fulfilled a := hpq nofun
      have hps : all ps ≠ pending := by
        intro hall
        rw [all, hall] at hsettled
        exact hsettled rfl
      rw [hq, all, all, ih hps]
    | rejected =>
      have hq : q = rejected := hpq nofun
      rw [hq, all, all]

end Promise

end HomelabApps.Library
