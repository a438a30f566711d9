import Mathlib.Data.List.Basic

namespace HomelabApps.Library

variable {α : Type*} {l part : List α} {a b : α} {i j : Nat} {p : α → Bool}

theorem getElem?_set_cases (h : (l.set i a)[j]? = some b) : (j = i ∧ b = a) ∨ (j ≠ i ∧ l[j]? = some b) := by
  rw [List.getElem?_set] at h
  split at h
  · rename_i hij
    split at h
    · exact .inl ⟨hij.symm, (Option.some.inj h).symm⟩
    · cases h
  · rename_i hij
    exact .inr ⟨fun hji => hij hji.symm, h⟩

theorem getElem?_concat_cases (h : (l ++ [a])[i]? = some b) : l[i]? = some b ∨ i = l.length ∧ b = a := by
  rw [List.getElem?_append] at h
  split at h
  · exact .inl h
  · have hb : b = a := List.mem_singleton.mp (List.mem_of_getElem? h)
    have hi := (List.getElem?_eq_some_iff.mp h).1
    rw [List.length_singleton] at hi
    exact .inr ⟨by omega, hb⟩

theorem eq_false_of_mem_splitOnP (hpart : part ∈ l.splitOnP p) (ha : a ∈ part) : p a = false := by
  induction l generalizing part with
  | nil =>
    obtain rfl := List.mem_singleton.mp hpart
    cases ha
  | cons b l ih =>
    rw [List.splitOnP_cons_eq_if_modifyHead] at hpart
    split at hpart
    · obtain rfl | hpart := List.mem_cons.mp hpart
      · cases ha
      · exact ih hpart ha
    · next hb =>
      cases hparts : l.splitOnP p with
      | nil => exact absurd hparts (List.splitOnP_ne_nil p l)
      | cons first parts =>
        rw [hparts] at hpart ih
        obtain rfl | hpart := List.mem_cons.mp hpart
        · obtain rfl | ha := List.mem_cons.mp ha
          · exact Bool.eq_false_iff.mpr hb
          · exact ih List.mem_cons_self ha
        · exact ih (List.mem_cons_of_mem first hpart) ha
end HomelabApps.Library
