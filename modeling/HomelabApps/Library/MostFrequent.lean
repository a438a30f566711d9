import Mathlib.Data.Finset.Max
import Mathlib.Data.List.Count

universe u

namespace HomelabApps.Library

variable {α : Type u} [DecidableEq α] {l : List α} {b c d : α}

structure MostFrequent (l : List α) (c : α) : Prop where
  mem : c ∈ l
  count_le : ∀ d, l.count d ≤ l.count c

structure FirstSeen (l : List α) (c : α) : Prop where
  frequent : MostFrequent l c
  first : ∀ d, MostFrequent l d → l.idxOf c ≤ l.idxOf d

def age (l : List α) (c : α) : Nat := l.reverse.idxOf c

structure FirstDone (l : List α) (c : α) : Prop where
  frequent : MostFrequent l c
  first : ∀ d, MostFrequent l d → age l d ≤ age l c

theorem age_concat : age (l ++ [d]) c = if d = c then 0 else age l c + 1 := by
  rw [age, List.reverse_append, List.reverse_singleton, List.singleton_append, List.idxOf_cons, age]
  by_cases h : d = c
  · simp [h]
  · rw [beq_eq_false_iff_ne.mpr h, if_neg h]
    rfl

theorem count_concat : (l ++ [d]).count c = l.count c + if d = c then 1 else 0 := by
  rw [List.count_append, List.count_singleton]
  simp only [beq_iff_eq]

theorem firstDone_concat (h : ∀ d, d ≠ c → l.count d ≤ l.count c) : FirstDone (l ++ [c]) c := by
  have hcount : ∀ d, d ≠ c → (l ++ [c]).count d < (l ++ [c]).count c := by
    intro d hd
    rw [count_concat, count_concat, if_neg (Ne.symm hd), if_pos rfl]
    exact Nat.lt_succ_of_le (h d hd)
  constructor
  · refine ⟨List.mem_append_right _ List.mem_cons_self, fun d => ?_⟩
    by_cases hd : d = c
    · rw [hd]
    · exact Nat.le_of_lt (hcount d hd)
  · intro d hd
    by_cases hdc : d = c
    · rw [hdc]
    · exact absurd (hd.count_le c) (Nat.not_le_of_lt (hcount d hdc))

theorem FirstDone.concat (h : FirstDone l b) (hne : d ≠ b) (hcount : l.count d + 1 ≤ l.count b) :
    FirstDone (l ++ [d]) b := by
  have hb : (l ++ [d]).count b = l.count b := by rw [count_concat, if_neg hne, Nat.add_zero]
  constructor
  · refine ⟨List.mem_append_left _ h.frequent.mem, fun c => ?_⟩
    rw [hb, count_concat]
    split
    · rename_i hc
      exact hc ▸ hcount
    · exact h.frequent.count_le c
  · intro c hc
    rw [age_concat, age_concat, if_neg hne]
    split
    · exact Nat.zero_le _
    · rename_i hdc
      apply Nat.succ_le_succ
      apply h.first c
      have hlast : ∀ e, (l ++ [d]).count e ≤ l.count c := by
        intro e
        have := hc.count_le e
        rwa [count_concat (c := c), if_neg hdc, Nat.add_zero] at this
      refine ⟨?_, fun e => Nat.le_trans ?_ (hlast e)⟩
      · cases List.mem_append.mp hc.mem with
        | inl hmem => exact hmem
        | inr hmem => exact absurd (List.mem_singleton.mp hmem).symm hdc
      · rw [List.count_append]
        exact Nat.le_add_right _ _

theorem FirstSeen.unique (hc : FirstSeen l c) (hd : FirstSeen l d) : c = d :=
  (List.idxOf_inj hc.frequent.mem).mp (Nat.le_antisymm (hc.first d hd.frequent) (hd.first c hc.frequent))

theorem FirstDone.unique (hc : FirstDone l c) (hd : FirstDone l d) : c = d :=
  (List.idxOf_inj (List.mem_reverse.mpr hc.frequent.mem)).mp
    (Nat.le_antisymm (hd.first c hc.frequent) (hc.first d hd.frequent))

theorem exists_firstSeen (hne : l ≠ []) : ∃ c, FirstSeen l c := by
  have hsome : l.toFinset.Nonempty := List.toFinset_nonempty_iff l |>.mpr hne
  obtain ⟨b, hb, hmax⟩ := l.toFinset.exists_max_image l.count hsome
  have hfrequent : MostFrequent l b := by
    refine ⟨List.mem_toFinset.mp hb, fun d => ?_⟩
    by_cases hd : d ∈ l
    · exact hmax d (List.mem_toFinset.mpr hd)
    · rw [List.count_eq_zero_of_not_mem hd]
      exact Nat.zero_le _
  obtain ⟨c, hc, hmin⟩ := (l.toFinset.filter fun c => l.count c = l.count b).exists_min_image l.idxOf
    ⟨b, Finset.mem_filter.mpr ⟨hb, rfl⟩⟩
  obtain ⟨hmem, hcount⟩ := Finset.mem_filter.mp hc
  refine ⟨c, ⟨List.mem_toFinset.mp hmem, fun d => hcount ▸ hfrequent.count_le d⟩, fun d hd => ?_⟩
  exact hmin d (Finset.mem_filter.mpr ⟨List.mem_toFinset.mpr hd.mem,
    Nat.le_antisymm (hfrequent.count_le d) (hd.count_le b)⟩)

theorem FirstDone.firstSeen_iff (h : FirstDone l c) : FirstSeen l c ↔ ∀ d, FirstSeen l d → FirstDone l d := by
  constructor
  · intro hc d hd
    rw [← hc.unique hd]
    exact h
  · intro hall
    obtain ⟨d, hd⟩ := exists_firstSeen (List.ne_nil_of_mem h.frequent.mem)
    rw [h.unique (hall d hd)]
    exact hd

end HomelabApps.Library
