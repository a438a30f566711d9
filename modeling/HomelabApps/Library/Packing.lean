import Mathlib.Data.List.Basic

/-! Greedy packing: items put into bins in their order, a new bin begun when an item does not fit, with
some items of the full bin carried over into it. -/

namespace HomelabApps.Library.Packing

/-- A bin: what it carries over from the bin before it, and the items put into it first. -/
structure Bin (α : Type*) where
  carried : List α
  own : List α

def Bin.items (bin : Bin α) : List α := bin.carried ++ bin.own

section Greedy

variable (fits : List α → α → Prop) (carry : List α → α → List α)

/-- How a bin was filled after one that holds the items `previous`: it begins with an item that did not
fit before, and takes the items `rest` that fit one after the other. -/
structure Filled (previous : List α) (bin : Bin α) (item : α) (rest : List α) : Prop where
  own : bin.own = item :: rest
  carried : bin.carried = if previous = [] then [] else carry previous item
  full : previous ≠ [] → ¬ fits previous item
  taken : ∀ before next after, rest = before ++ next :: after → fits (bin.carried ++ item :: before) next

inductive Packed : List α → List (Bin α) → Prop
  | nil : Packed previous []
  | cons : Filled fits carry previous bin item rest → Packed bin.items bins → Packed previous (bin :: bins)

variable {fits carry} {previous : List α} {bins : List (Bin α)}

theorem Packed.filled (h : Packed fits carry previous bins) :
    ∀ bin ∈ bins, ∃ previous item rest, Filled fits carry previous bin item rest := by
  induction h with
  | nil => simp
  | cons hfilled hpacked ih =>
    rintro bin hbin
    rcases List.mem_cons.mp hbin with rfl | hbin
    · exact ⟨_, _, _, hfilled⟩
    · exact ih bin hbin

theorem Packed.own_ne_nil (h : Packed fits carry previous bins) : ∀ bin ∈ bins, bin.own ≠ [] := by
  rintro bin hbin
  obtain ⟨previous, item, rest, hfilled⟩ := h.filled bin hbin
  simp [hfilled.own]

structure Bins (α : Type*) where
  done : List (List α) := []
  current : List α := []

variable (fits carry) [∀ bin item, Decidable (fits bin item)]

def Bins.add (s : Bins α) (item : α) : Bins α :=
  if s.current ≠ [] ∧ ¬ fits s.current item then
    { done := s.done ++ [s.current]
      current := carry s.current item ++ [item] }
  else { s with current := s.current ++ [item] }

def Bins.all (s : Bins α) : List (List α) :=
  if s.current = [] then s.done else s.done ++ [s.current]

variable {fits carry} {items : List α}

theorem foldl_add (done : List (List α)) (carried : List α) (item : α) (own : List α)
    (hown : ∀ before next after, own = before ++ next :: after →
      fits (carried ++ item :: before) next) :
    ∃ rest bins,
      (items.foldl (Bins.add fits carry) ⟨done, carried ++ item :: own⟩).all =
        done ++ (⟨carried, item :: rest⟩ :: bins : List (Bin α)).map Bin.items ∧
      (∀ before next after, rest = before ++ next :: after → fits (carried ++ item :: before) next) ∧
      Packed fits carry (carried ++ item :: rest) bins ∧
      item :: rest ++ bins.flatMap Bin.own = item :: own ++ items := by
  induction items generalizing done carried item own with
  | nil =>
    refine ⟨own, [], ?_, hown, .nil, rfl⟩
    simp [Bins.all, Bin.items]
  | cons next items ih =>
    rw [List.foldl_cons]
    by_cases hfit : fits (carried ++ item :: own) next
    · have hadd : Bins.add fits carry ⟨done, carried ++ item :: own⟩ next =
          ⟨done, carried ++ item :: (own ++ [next])⟩ := by
        simp [Bins.add, hfit]
      have hown' : ∀ before last after, own ++ [next] = before ++ last :: after →
          fits (carried ++ item :: before) last := by
        intro before last after h
        rcases List.eq_nil_or_concat after with rfl | ⟨after, final, rfl⟩
        · obtain ⟨rfl, hlast⟩ := List.append_inj' h rfl
          obtain rfl := List.singleton_inj.mp hlast
          exact hfit
        · rw [List.concat_eq_append, ← List.cons_append, ← List.append_assoc] at h
          exact hown before last after (List.append_inj' h rfl).1
      rw [hadd]
      obtain ⟨rest, bins, hbins, hrest, hpacked, hitems⟩ := ih done carried item (own ++ [next]) hown'
      exact ⟨rest, bins, hbins, hrest, hpacked, by simpa using hitems⟩
    · have hadd : Bins.add fits carry ⟨done, carried ++ item :: own⟩ next =
          ⟨done ++ [carried ++ item :: own], carry (carried ++ item :: own) next ++ [next]⟩ := by
        simp [Bins.add, hfit]
      rw [hadd]
      obtain ⟨rest, bins, hbins, hrest, hpacked, hitems⟩ :=
        ih (done ++ [carried ++ item :: own]) (carry (carried ++ item :: own) next) next [] (by simp)
      refine ⟨own, ⟨carry (carried ++ item :: own) next, next :: rest⟩ :: bins, ?_, hown, ?_, ?_⟩
      · simpa [Bin.items] using hbins
      · exact .cons ⟨rfl, by simp, fun _ => hfit, hrest⟩ hpacked
      · simpa using hitems

theorem packed_foldl :
    ∃ bins : List (Bin α), (items.foldl (Bins.add fits carry) {}).all = bins.map Bin.items ∧
      Packed fits carry [] bins ∧ bins.flatMap Bin.own = items := by
  cases items with
  | nil => exact ⟨[], rfl, .nil, rfl⟩
  | cons item items =>
    have hadd : Bins.add fits carry {} item = ⟨[], [] ++ item :: []⟩ := by simp [Bins.add]
    rw [List.foldl_cons, hadd]
    obtain ⟨rest, bins, hbins, hrest, hpacked, hitems⟩ :=
      @foldl_add α fits carry _ items [] [] item [] (by simp)
    refine ⟨⟨[], item :: rest⟩ :: bins, hbins, ?_, by simpa using hitems⟩
    exact .cons ⟨rfl, rfl, absurd rfl, hrest⟩ hpacked

end Greedy

end HomelabApps.Library.Packing
