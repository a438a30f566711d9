import Mathlib.Data.List.Nodup

universe u v

namespace HomelabApps.Library

abbrev KeyedMap (κ : Type u) (σ : Type v) := List (κ × σ)

namespace KeyedMap

variable {κ : Type u} {σ : Type v} [DecidableEq κ] {m entries : KeyedMap κ σ} {k x : κ} {s : σ}

def get : KeyedMap κ σ → κ → Option σ
  | [], _ => none
  | (k, s) :: m, x => if k = x then some s else get m x

/-- A key that is set again keeps its place. -/
def set : KeyedMap κ σ → κ → σ → KeyedMap κ σ
  | [], x, s => [(x, s)]
  | (k, t) :: m, x, s => if k = x then (x, s) :: m else (k, t) :: set m x s

def setAll (m : KeyedMap κ σ) (entries : List (κ × σ)) : KeyedMap κ σ :=
  entries.foldl (fun m e => m.set e.1 e.2) m

def delete (m : KeyedMap κ σ) (x : κ) : KeyedMap κ σ := m.filter fun e => e.1 ≠ x

@[simp] theorem get_nil : get ([] : KeyedMap κ σ) x = none := rfl

@[simp] theorem get_set_self : (m.set x s).get x = some s := by
  induction m with
  | nil => simp [set, get]
  | cons e m ih =>
    rw [set]
    split
    · rw [get, if_pos rfl]
    · rename_i h
      rw [get, if_neg h, ih]

theorem get_set_ne (h : k ≠ x) : (m.set k s).get x = m.get x := by
  induction m with
  | nil => simp [set, get, h]
  | cons e m ih =>
    rw [set]
    split
    · rename_i hk
      rw [get, if_neg h, get, if_neg (hk ▸ h)]
    · rw [get, get, ih]

theorem get_set : (m.set k s).get x = if k = x then some s else m.get x := by
  split
  · rename_i h
    rw [← h, get_set_self]
  · rename_i h
    exact get_set_ne h

theorem set_of_notMem (h : x ∉ m.map (·.1)) : m.set x s = m ++ [(x, s)] := by
  induction m with
  | nil => rfl
  | cons e m ih =>
    rw [List.map_cons, List.mem_cons, not_or] at h
    rw [set, if_neg (Ne.symm h.1), ih h.2, List.cons_append]

theorem setAll_of_nodup (h : ((m ++ entries).map (·.1)).Nodup) : m.setAll entries = m ++ entries := by
  induction entries generalizing m with
  | nil => exact (List.append_nil m).symm
  | cons e entries ih =>
    have hnew : e.1 ∉ m.map (·.1) := by
      rw [List.map_append, List.map_cons, List.nodup_append] at h
      exact fun he => h.2.2 e.1 he e.1 List.mem_cons_self rfl
    rw [setAll, List.foldl_cons, set_of_notMem hnew, ← setAll, ih]
    · rw [List.append_assoc, List.singleton_append]
    · rwa [List.append_assoc, List.singleton_append]

theorem mem_of_get (h : m.get x = some s) : (x, s) ∈ m := by
  induction m with
  | nil => cases h
  | cons e m ih =>
    rw [get] at h
    split at h
    · rename_i hk
      cases h
      exact hk ▸ List.mem_cons_self
    · exact List.mem_cons_of_mem e (ih h)

theorem map_set_of_mem (h : x ∈ m.map (·.1)) : (m.set x s).map (·.1) = m.map (·.1) := by
  induction m with
  | nil => cases h
  | cons e m ih =>
    rw [set]
    split
    · rename_i hk
      rw [List.map_cons, List.map_cons, hk]
    · rename_i hk
      rw [List.map_cons, List.mem_cons] at h
      rw [List.map_cons, List.map_cons, ih (h.resolve_left (Ne.symm hk))]

theorem get_setAll : (m.setAll entries).get x =
    ((entries.reverse.find? fun e => e.1 = x).map (·.2)).or (m.get x) := by
  induction entries generalizing m with
  | nil => rfl
  | cons e entries ih =>
    rw [setAll, List.foldl_cons, ← setAll, ih, get_set, List.reverse_cons, List.find?_append]
    cases entries.reverse.find? fun e => e.1 = x with
    | some found => rfl
    | none =>
      by_cases hk : e.1 = x
      · simp [hk]
      · simp [hk]

theorem mem_of_get_setAll (h : (setAll [] entries).get x = some s) : (x, s) ∈ entries := by
  rw [get_setAll, get_nil, Option.or_none, Option.map_eq_some_iff] at h
  obtain ⟨e, hfound, hvalue⟩ := h
  have hkey : e.1 = x := by simpa using List.find?_some hfound
  rw [← hkey, ← hvalue]
  exact List.mem_reverse.mp (List.mem_of_find?_eq_some hfound)

theorem exists_get_setAll (h : (x, s) ∈ entries) : ∃ t, (setAll [] entries).get x = some t := by
  rw [get_setAll, get_nil, Option.or_none]
  cases hfound : entries.reverse.find? fun e => e.1 = x with
  | some e => exact ⟨e.2, rfl⟩
  | none =>
    have hnone := List.find?_eq_none.mp hfound (x, s) (List.mem_reverse.mpr h)
    exact absurd (decide_eq_true rfl) hnone

theorem nodup_set (h : (m.map (·.1)).Nodup) : ((m.set x s).map (·.1)).Nodup := by
  by_cases hmem : x ∈ m.map (·.1)
  · rwa [map_set_of_mem hmem]
  · rw [set_of_notMem hmem, List.map_append]
    refine List.nodup_append.mpr ⟨h, List.nodup_singleton _, fun y hy z hz heq => hmem ?_⟩
    rwa [heq, List.mem_singleton.mp hz] at hy

theorem nodup_setAll (h : (m.map (·.1)).Nodup) : ((m.setAll entries).map (·.1)).Nodup := by
  induction entries generalizing m with
  | nil => exact h
  | cons e entries ih => exact ih (nodup_set h)

theorem get_of_mem (h : (m.map (·.1)).Nodup) (hmem : (x, s) ∈ m) : m.get x = some s := by
  induction m with
  | nil => cases hmem
  | cons e m ih =>
    rw [List.map_cons, List.nodup_cons] at h
    rw [get]
    cases List.mem_cons.mp hmem with
    | inl heq => rw [← heq, if_pos rfl]
    | inr hmem =>
      have hne : e.1 ≠ x := fun heq => h.1 (heq ▸ List.mem_map_of_mem hmem)
      rw [if_neg hne, ih h.2 hmem]

theorem flatMap_filter_perm {keys : List κ} (h : keys.Nodup) (hkeys : ∀ e ∈ entries, e.1 ∈ keys) :
    (keys.flatMap fun k => entries.filter fun e => e.1 = k).Perm entries := by
  induction keys generalizing entries with
  | nil =>
    cases entries with
    | nil => exact .nil
    | cons e entries => cases hkeys e List.mem_cons_self
  | cons k keys ih =>
    rw [List.nodup_cons] at h
    have hrest : (keys.flatMap fun x => entries.filter fun e => e.1 = x) =
        keys.flatMap fun x => (entries.filter fun e => !(e.1 = k : Bool)).filter fun e => e.1 = x := by
      apply List.flatMap_congr
      intro x hx
      rw [List.filter_filter]
      apply List.filter_congr
      intro e _
      by_cases heq : e.1 = x
      · have hne : ¬x = k := fun hk => h.1 (hk ▸ hx)
        simp [heq, hne]
      · simp [heq]
    rw [List.flatMap_cons, hrest]
    refine List.Perm.trans (List.Perm.append_left _ (ih h.2 ?_)) (List.filter_append_perm _ _)
    intro e he
    obtain ⟨hmem, hother⟩ := List.mem_filter.mp he
    rw [Bool.not_eq_true', decide_eq_false_iff_not] at hother
    exact (List.mem_cons.mp (hkeys e hmem)).resolve_left hother

def counts (keys : List κ) : KeyedMap κ Nat :=
  keys.foldl (fun m k => m.set k ((m.get k).getD 0 + 1)) []

theorem getD_counts [BEq κ] [LawfulBEq κ] (keys : List κ) : ((counts keys).get x).getD 0 = keys.count x := by
  have hfold : ∀ m : KeyedMap κ Nat,
      ((keys.foldl (fun m k => m.set k ((m.get k).getD 0 + 1)) m).get x).getD 0 = (m.get x).getD 0 + keys.count x := by
    induction keys with
    | nil => exact fun m => rfl
    | cons k keys ih =>
      intro m
      rw [List.foldl_cons, ih, get_set, List.count_cons]
      by_cases h : k = x
      · simp [h]
        omega
      · simp [h]
  rw [counts, hfold, get_nil, Option.getD_none, Nat.zero_add]

theorem get_eq_none (h : x ∉ m.map (·.1)) : m.get x = none := by
  cases hget : m.get x with
  | none => rfl
  | some s => exact absurd (List.mem_map_of_mem (mem_of_get hget)) h

theorem get_setAll_of_nodup (h : (entries.map (·.1)).Nodup) :
    (m.setAll entries).get x = (get entries x).or (m.get x) := by
  induction entries generalizing m with
  | nil => rfl
  | cons e entries ih =>
    rw [List.map_cons, List.nodup_cons] at h
    rw [setAll, List.foldl_cons, ← setAll, ih h.2, get_set, get]
    by_cases hk : e.1 = x
    · rw [if_pos hk, if_pos hk, get_eq_none (hk ▸ h.1)]
      rfl
    · rw [if_neg hk, if_neg hk]

omit [DecidableEq κ] in
theorem nodup_filter (p : κ × σ → Bool) (h : (m.map (·.1)).Nodup) : ((m.filter p).map (·.1)).Nodup :=
  h.sublist (List.filter_sublist.map _)

theorem get_filter (p : κ × σ → Bool) (h : (m.map (·.1)).Nodup) :
    get (m.filter p) x = (m.get x).filter fun s => p (x, s) := by
  induction m with
  | nil => rfl
  | cons e m ih =>
    rw [List.map_cons, List.nodup_cons] at h
    obtain ⟨k, s⟩ := e
    rw [List.filter_cons, get]
    by_cases hk : k = x
    · subst hk
      have hrest : get (m.filter p) k = none := by
        rw [ih h.2, get_eq_none h.1]
        rfl
      by_cases hp : p (k, s) = true
      · simp [hp, get, Option.filter]
      · simp [hp, hrest, Option.filter]
    · rw [if_neg hk, ← ih h.2]
      split
      · rw [get, if_neg hk]
      · rfl

theorem get_delete : (m.delete k).get x = if k = x then none else m.get x := by
  induction m with
  | nil => simp [delete]
  | cons e m ih =>
    rw [delete] at ih
    rw [delete, List.filter_cons]
    by_cases he : e.1 = k
    · simp only [he, ne_eq, not_true_eq_false, decide_false, Bool.false_eq_true, if_false, ih]
      split
      · rfl
      · rename_i hk
        rw [get, he, if_neg hk]
    · simp only [ne_eq, he, not_false_eq_true, decide_true, if_true]
      rw [get, get, ih]
      split
      · rename_i hk
        rw [if_neg (fun h => he (hk.trans h.symm))]
      · rfl

end KeyedMap

end HomelabApps.Library
