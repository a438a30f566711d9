import HomelabApps.Library.Table
import Mathlib.Algebra.Order.Field.Rat
import Mathlib.Data.List.Sort

universe u

namespace HomelabApps.KnowledgeBase.RankFusion

open HomelabApps.Library

structure Ranking (Id : Type u) where
  ids : List Id
  weight : ℚ

structure FusedHit (Id : Type u) where
  id : Id
  score : ℚ

structure Tally (Id : Type u) where
  id : Id
  score : ℚ
  bestRank : Nat
  firstSeen : Nat

variable {Id : Type u} [DecidableEq Id] (round : ℚ → ℚ) (k : ℚ)

/-- `round` is the rounding of the runtime's numbers. -/
def contribution (weight : ℚ) (rank : Nat) : ℚ := round (weight / (k + rank))

def count (weight : ℚ) (hits : List (Tally Id)) (entry : Id × Nat) : List (Tally Id) :=
  let rank := entry.2 + 1
  let contribution := contribution round k weight rank
  if hits.any (·.id = entry.1) then
    Table.update Tally.id entry.1
      (fun hit =>
        { hit with
          score := round (hit.score + contribution)
          bestRank := min hit.bestRank rank })
      hits
  else
    hits ++ [{
      id := entry.1
      score := contribution
      bestRank := rank
      firstSeen := hits.length }]

/-- A list naming one id twice counts it once, at its better rank. -/
def countAll (hits : List (Tally Id)) (ranking : Ranking Id) : List (Tally Id) :=
  if ranking.weight ≤ 0 then hits
  else ranking.ids.eraseDups.zipIdx.foldl (count round k ranking.weight) hits

/-- By score, then by the best rank in any list, then by first appearance. -/
def Tally.before (a b : Tally Id) : Bool :=
  b.score < a.score || a.score = b.score &&
    (a.bestRank < b.bestRank || a.bestRank = b.bestRank && a.firstSeen ≤ b.firstSeen)

def fuse (rankings : List (Ranking Id)) : List (FusedHit Id) :=
  ((rankings.foldl (countAll round k) []).insertionSort fun a b => a.before b).map fun hit =>
    ⟨hit.id, hit.score⟩

variable {round : ℚ → ℚ} {k : ℚ} {weight : ℚ} {hits : List (Tally Id)} {entry : Id × Nat}
  {entries : List (Id × Nat)} {rankings : List (Ranking Id)} {ranking : Ranking Id} {id : Id}

theorem map_count : (count round k weight hits entry).map (·.id) =
    if entry.1 ∈ hits.map (·.id) then hits.map (·.id) else hits.map (·.id) ++ [entry.1] := by
  have hany : hits.any (·.id = entry.1) = true ↔ entry.1 ∈ hits.map (·.id) := by
    simp only [List.any_eq_true, decide_eq_true_eq, List.mem_map]
  unfold count
  by_cases h : entry.1 ∈ hits.map (·.id)
  · rw [if_pos (hany.mpr h), if_pos h]
    exact Table.map_update fun _ _ _ => rfl
  · rw [if_neg (fun hseen => h (hany.mp hseen)), if_neg h, List.map_append]
    rfl

theorem mem_count :
    id ∈ (count round k weight hits entry).map (·.id) ↔ id ∈ hits.map (·.id) ∨ id = entry.1 := by
  rw [map_count]
  split
  · rename_i h
    exact ⟨.inl, fun hid => hid.elim (fun hid => hid) fun hid => hid ▸ h⟩
  · rw [List.mem_append, List.mem_singleton]

theorem mem_foldl_count : id ∈ (entries.foldl (count round k weight) hits).map (·.id) ↔
    id ∈ hits.map (·.id) ∨ id ∈ entries.map (·.1) := by
  induction entries generalizing hits with
  | nil => simp
  | cons entry entries ih => rw [List.foldl_cons, ih, mem_count, List.map_cons, List.mem_cons, or_assoc]

theorem mem_countAll : id ∈ (countAll round k hits ranking).map (·.id) ↔
    id ∈ hits.map (·.id) ∨ 0 < ranking.weight ∧ id ∈ ranking.ids := by
  unfold countAll
  split
  · rename_i hweight
    exact ⟨.inl, fun h => h.elim (fun h => h) fun h => absurd h.1 (not_lt_of_ge hweight)⟩
  · rename_i hweight
    rw [mem_foldl_count, List.zipIdx_map_fst, List.mem_eraseDups,
      and_iff_right (lt_of_not_ge hweight)]

theorem mem_foldl_countAll : id ∈ (rankings.foldl (countAll round k) hits).map (·.id) ↔
    id ∈ hits.map (·.id) ∨ ∃ ranking ∈ rankings, 0 < ranking.weight ∧ id ∈ ranking.ids := by
  induction rankings generalizing hits with
  | nil => simp
  | cons ranking rankings ih =>
    rw [List.foldl_cons, ih, mem_countAll, or_assoc, List.exists_mem_cons_iff]

theorem nodup_count (h : (hits.map (·.id)).Nodup) :
    ((count round k weight hits entry).map (·.id)).Nodup := by
  rw [map_count]
  split
  · exact h
  · rename_i hnew
    exact h.append (List.nodup_singleton _) (by simpa using hnew)

theorem nodup_foldl_count (h : (hits.map (·.id)).Nodup) :
    ((entries.foldl (count round k weight) hits).map (·.id)).Nodup := by
  induction entries generalizing hits with
  | nil => exact h
  | cons entry entries ih => exact ih (nodup_count h)

theorem nodup_foldl_countAll (h : (hits.map (·.id)).Nodup) :
    ((rankings.foldl (countAll round k) hits).map (·.id)).Nodup := by
  induction rankings generalizing hits with
  | nil => exact h
  | cons ranking rankings ih =>
    refine ih ?_
    unfold countAll
    split
    · exact h
    · exact nodup_foldl_count h

theorem map_fuse_perm : ((fuse round k rankings).map (·.id)).Perm
    ((rankings.foldl (countAll round k) []).map (·.id)) := by
  rw [fuse, List.map_map]
  exact (List.perm_insertionSort _ _).map Tally.id

theorem mem_fuse : id ∈ (fuse round k rankings).map (·.id) ↔
    ∃ ranking ∈ rankings, 0 < ranking.weight ∧ id ∈ ranking.ids := by
  rw [map_fuse_perm.mem_iff, mem_foldl_countAll]
  exact or_iff_right List.not_mem_nil

theorem nodup_fuse : ((fuse round k rankings).map (·.id)).Nodup :=
  map_fuse_perm.nodup_iff.mpr (nodup_foldl_countAll List.nodup_nil)

end HomelabApps.KnowledgeBase.RankFusion
