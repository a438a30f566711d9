import Mathlib.Data.List.Induction
import Mathlib.Data.List.Nodup

/-! The distinct elements of a list, in the order of their first appearance. -/

universe u v

namespace HomelabApps.Library.Distinct

variable {α : Type u} {β : Type v} [DecidableEq α] {x y : α} {l as bs : List α} {start : Nat}

theorem eraseDups_concat :
    (l ++ [x]).eraseDups = if x ∈ l then l.eraseDups else l.eraseDups ++ [x] := by
  rw [List.eraseDups_append, List.removeAll]
  by_cases h : x ∈ l <;> simp [h, List.eraseDups_cons]

theorem nodup_eraseDups (l : List α) : l.eraseDups.Nodup := by
  induction l using List.reverseRecOn with
  | nil => exact List.nodup_nil
  | append_singleton l x ih =>
    rw [eraseDups_concat]
    split
    · exact ih
    · rename_i hx
      exact ih.append (List.nodup_singleton x) (by simpa using hx)

theorem eraseDups_of_nodup (h : l.Nodup) : l.eraseDups = l := by
  induction l using List.reverseRecOn with
  | nil => rfl
  | append_singleton l x ih =>
    have hparts := List.nodup_append.mp h
    have hx : x ∉ l := fun hx => hparts.2.2 x hx x List.mem_cons_self rfl
    rw [eraseDups_concat, if_neg hx, ih hparts.1]

theorem eraseDups_append_left : (as.eraseDups ++ bs).eraseDups = (as ++ bs).eraseDups := by
  induction bs using List.reverseRecOn with
  | nil => rw [List.append_nil, List.append_nil, eraseDups_of_nodup (nodup_eraseDups as)]
  | append_singleton bs x ih =>
    rw [← List.append_assoc, ← List.append_assoc, eraseDups_concat, eraseDups_concat, ih]
    simp

theorem eraseDups_append_right : (as ++ bs.eraseDups).eraseDups = (as ++ bs).eraseDups := by
  induction bs using List.reverseRecOn with
  | nil => rfl
  | append_singleton bs x ih =>
    rw [eraseDups_concat, ← List.append_assoc, eraseDups_concat (l := as ++ bs)]
    by_cases h : x ∈ bs
    · simp [h, ih]
    · rw [if_neg h, ← List.append_assoc, eraseDups_concat, ih]
      simp

theorem eraseDups_flatMap {f : β → List α} (l : List β) :
    (l.flatMap fun b => (f b).eraseDups).eraseDups = (l.flatMap f).eraseDups := by
  induction l with
  | nil => rfl
  | cons b l ih =>
    rw [List.flatMap_cons, List.flatMap_cons, eraseDups_append_left, ← eraseDups_append_right, ih,
      eraseDups_append_right]

theorem filter_zipIdx (h : l.Nodup) : (l.zipIdx start).filter (·.1 = x) =
    if x ∈ l then [(x, start + l.idxOf x)] else [] := by
  induction l generalizing start with
  | nil => rfl
  | cons y l ih =>
    obtain ⟨hy, hl⟩ := List.nodup_cons.mp h
    rw [List.zipIdx_cons, List.filter_cons, ih hl]
    by_cases hxy : y = x
    · subst hxy
      simp [hy]
    · by_cases hx : x ∈ l
      · simp [hxy, hx, List.idxOf_cons_ne l hxy]
        omega
      · simp [hxy, hx, Ne.symm hxy]

end HomelabApps.Library.Distinct
