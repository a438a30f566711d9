import Mathlib.Data.List.Nodup
import Mathlib.Data.List.Perm.Basic

universe u v

namespace HomelabApps.Library.Table

variable {α : Type u} {κ : Type v} {key : α → κ} {k : κ} {f : α → α} {x y : α}
  {rows : List α} {p q : α → Bool}

theorem eq_of_key (h : (rows.map key).Nodup) (hx : x ∈ rows) (hy : y ∈ rows) (hk : key x = key y) :
    x = y :=
  List.inj_on_of_nodup_map h hx hy hk

theorem nodup_append (h : (rows.map key).Nodup) (hx : key x ∉ rows.map key) :
    ((rows ++ [x]).map key).Nodup := by
  rw [List.map_append, List.map_singleton]
  exact h.append (List.nodup_singleton _) (by simpa using hx)

theorem nodup_filter (h : (rows.map key).Nodup) : ((rows.filter p).map key).Nodup :=
  h.sublist (List.filter_sublist.map key)

variable [DecidableEq κ]

def update (key : α → κ) (k : κ) (f : α → α) (rows : List α) : List α :=
  rows.map fun x => if key x = k then f x else x

theorem mem_update : y ∈ update key k f rows ↔
    (∃ x ∈ rows, key x = k ∧ y = f x) ∨ (y ∈ rows ∧ key y ≠ k) := by
  simp only [update, List.mem_map]
  constructor
  · rintro ⟨x, hx, rfl⟩
    by_cases h : key x = k
    · exact .inl ⟨x, hx, h, by simp [h]⟩
    · exact .inr (by simp [h, hx])
  · rintro (⟨x, hx, h, rfl⟩ | ⟨hy, h⟩)
    · exact ⟨x, hx, by simp [h]⟩
    · exact ⟨y, hy, by simp [h]⟩

theorem map_update {β : Type*} {g : α → β} (h : ∀ x ∈ rows, key x = k → g (f x) = g x) :
    (update key k f rows).map g = rows.map g := by
  rw [update, List.map_map]
  refine List.map_congr_left fun x hx => ?_
  by_cases hk : key x = k
  · simp [hk, h x hx hk]
  · simp [hk]

theorem find?_eq_some_iff (h : (rows.map key).Nodup) :
    rows.find? (fun x => key x = k) = some x ↔ x ∈ rows ∧ key x = k := by
  constructor
  · intro hx
    exact ⟨List.mem_of_find?_eq_some hx, by simpa using List.find?_some hx⟩
  · rintro ⟨hx, hk⟩
    cases hfind : rows.find? fun x => key x = k with
    | none => simpa [hk] using List.find?_eq_none.mp hfind x hx
    | some y =>
      have hy := List.find?_some hfind
      simp only [decide_eq_true_eq] at hy
      rw [eq_of_key h (List.mem_of_find?_eq_some hfind) hx (hy.trans hk.symm)]

theorem find?_perm {rows' : List α} (h : (rows.map key).Nodup) (hperm : rows.Perm rows') :
    rows.find? (fun x => key x = k) = rows'.find? (fun x => key x = k) := by
  refine Option.ext fun x => ?_
  rw [find?_eq_some_iff h, find?_eq_some_iff ((hperm.map key).nodup_iff.mp h), hperm.mem_iff]

theorem filter_update (h : ∀ x ∈ rows, key x = k → p (f x) = false ∧ p x = false) :
    (update key k f rows).filter p = rows.filter p := by
  induction rows with
  | nil => rfl
  | cons y rows ih =>
    have ih := ih fun x hx => h x (List.mem_cons_of_mem _ hx)
    by_cases hk : key y = k
    · obtain ⟨hf, hy⟩ := h y List.mem_cons_self hk
      rw [List.filter_cons_of_neg (by simp [hy]), update, List.map_cons, if_pos hk,
        List.filter_cons_of_neg (by simp [hf])]
      exact ih
    · rw [update, List.map_cons, if_neg hk, List.filter_cons, List.filter_cons]
      unfold update at ih
      rw [ih]

theorem filter_update_perm (h : (rows.map key).Nodup) (hx : x ∈ rows) (hk : key x = k)
    (hp : p x = false) (hq : q (f x)) (hpq : ∀ y ∈ rows, key y ≠ k → q y = p y) :
    ((update key k f rows).filter q).Perm (rows.filter p ++ [f x]) := by
  obtain ⟨before, after, rfl⟩ := List.append_of_mem hx
  have hne : ∀ y, y ∈ before ∨ y ∈ after → key y ≠ k := by
    intro y hy hky
    rw [List.map_append, List.map_cons, List.nodup_middle, List.nodup_cons, ← List.map_append] at h
    exact h.1 (List.mem_map.mpr ⟨y, List.mem_append.mpr hy, hky.trans hk.symm⟩)
  have hside : ∀ l : List α, (∀ y ∈ l, key y ≠ k) → (∀ y ∈ l, q y = p y) →
      (update key k f l).filter q = l.filter p := by
    intro l hl hpq
    have hmap : update key k f l = l :=
      (List.map_congr_left fun y hy => if_neg (hl y hy)).trans (List.map_id l)
    rw [hmap]
    exact List.filter_congr hpq
  have hbefore := hside before (fun y hy => hne y (.inl hy)) fun y hy =>
    hpq y (by simp [hy]) (hne y (.inl hy))
  have hafter := hside after (fun y hy => hne y (.inr hy)) fun y hy =>
    hpq y (by simp [hy]) (hne y (.inr hy))
  unfold update at hbefore hafter ⊢
  rw [List.map_append, List.map_cons, if_pos hk, List.filter_append, List.filter_cons_of_pos hq, hbefore,
    hafter, List.filter_append, List.filter_cons_of_neg (by simp [hp]), List.append_assoc]
  exact (@List.perm_append_comm _ [f x] _).append_left _

end HomelabApps.Library.Table
