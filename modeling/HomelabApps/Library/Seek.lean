import Mathlib.Data.List.Nodup
import Mathlib.Data.List.Perm.Subperm
import Mathlib.Data.List.Range
import Mathlib.Logic.Function.Iterate

universe u

namespace HomelabApps.Library

variable {κ : Type u} {isTaken : κ → Bool} {next : κ → κ} {size : κ → Nat} {taken : List κ} {turns : Nat} {key found : κ}

def seek (isTaken : κ → Bool) (next : κ → κ) : Nat → κ → Option κ
  | 0, _ => none
  | turns + 1, key => if isTaken key then seek isTaken next turns (next key) else some key

theorem seek_eq_some : seek isTaken next turns key = some found →
    isTaken found = false ∧ ∃ n, found = next^[n] key ∧ ∀ m < n, isTaken (next^[m] key) = true := by
  induction turns generalizing key with
  | zero =>
    intro h
    cases h
  | succ turns ih =>
    intro h
    rw [seek] at h
    split at h
    · rename_i htaken
      obtain ⟨hfree, n, hfound, hbefore⟩ := ih h
      refine ⟨hfree, n + 1, hfound, fun m hm => ?_⟩
      cases m with
      | zero => exact htaken
      | succ m => exact hbefore m (Nat.lt_of_succ_lt_succ hm)
    · rename_i hfree
      cases h
      exact ⟨Bool.not_eq_true _ ▸ hfree, 0, rfl, fun m hm => absurd hm (Nat.not_lt_zero m)⟩

theorem seek_eq_none : seek isTaken next turns key = none → ∀ m < turns, isTaken (next^[m] key) = true := by
  induction turns generalizing key with
  | zero => exact fun _ m hm => absurd hm (Nat.not_lt_zero m)
  | succ turns ih =>
    intro h m hm
    rw [seek] at h
    split at h
    · rename_i htaken
      cases m with
      | zero => exact htaken
      | succ m => exact ih h m (Nat.lt_of_succ_lt_succ hm)
    · cases h

theorem size_iterate (hsize : ∀ key, size key < size (next key)) {m n : Nat} (h : m < n) :
    size (next^[m] key) < size (next^[n] key) := by
  induction h with
  | refl =>
    rw [Function.iterate_succ_apply']
    exact hsize _
  | step _ ih =>
    rw [Function.iterate_succ_apply']
    exact Nat.lt_trans ih (hsize _)

theorem exists_seek (hsize : ∀ key, size key < size (next key)) (htaken : ∀ key, isTaken key = true → key ∈ taken)
    (hturns : taken.length < turns) : ∃ found, seek isTaken next turns key = some found := by
  cases h : seek isTaken next turns key with
  | some found => exact ⟨found, rfl⟩
  | none =>
    have hall := seek_eq_none h
    have hnodup : ((List.range turns).map fun m => next^[m] key).Nodup := by
      apply List.Nodup.map _ List.nodup_range
      intro m n heq
      by_contra hne
      have heq : size (next^[m] key) = size (next^[n] key) := congrArg size heq
      cases Nat.lt_or_gt_of_ne hne with
      | inl hlt => exact absurd heq (Nat.ne_of_lt (size_iterate hsize hlt))
      | inr hgt => exact absurd heq.symm (Nat.ne_of_lt (size_iterate hsize hgt))
    have hsubset : (List.range turns).map (fun m => next^[m] key) ⊆ taken := by
      intro candidate hmem
      obtain ⟨m, hm, rfl⟩ := List.mem_map.mp hmem
      exact htaken _ (hall m (List.mem_range.mp hm))
    have hlength := (hnodup.subperm hsubset).length_le
    rw [List.length_map, List.length_range] at hlength
    exact absurd hlength (Nat.not_le_of_lt hturns)

end HomelabApps.Library
