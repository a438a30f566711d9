import HomelabApps.KnowledgeBase.RankFusion
import HomelabApps.Library.Distinct
import Mathlib.Algebra.BigOperators.Ring.List
import Mathlib.Tactic.Linarith

universe u

namespace HomelabApps.KnowledgeBase.RankFusion

open HomelabApps.Library

variable {Id : Type u}

theorem before_iff {x y : Tally Id} : x.before y = true ↔ y.score < x.score ∨ x.score = y.score ∧
    (x.bestRank < y.bestRank ∨ x.bestRank = y.bestRank ∧ x.firstSeen ≤ y.firstSeen) := by
  simp [Tally.before]

instance : Std.Total fun x y : Tally Id => x.before y = true where
  total x y := by
    rw [before_iff, before_iff]
    grind

instance : IsTrans (Tally Id) fun x y => x.before y = true where
  trans x y z hxy hyz := by
    rw [before_iff] at hxy hyz ⊢
    grind

variable [DecidableEq Id]

def counted (rankings : List (Ranking Id)) : List (Ranking Id) := rankings.filter fun ranking => 0 < ranking.weight

def Ranking.rank (ranking : Ranking Id) (id : Id) : Nat := ranking.ids.eraseDups.idxOf id + 1

def holding (rankings : List (Ranking Id)) (id : Id) : List (Ranking Id) :=
  (counted rankings).filter fun ranking => ranking.ids.contains id

def totalScore (k : ℚ) (rankings : List (Ranking Id)) (id : Id) : ℚ :=
  ((holding rankings id).map fun ranking => ranking.weight / (k + ranking.rank id)).sum

def bestRank (rankings : List (Ranking Id)) (id : Id) : Nat :=
  ((holding rankings id).map fun ranking => ranking.rank id).min?.getD 0

def appearances (rankings : List (Ranking Id)) : List Id := ((counted rankings).flatMap (·.ids)).eraseDups

def Precedes (k : ℚ) (rankings : List (Ranking Id)) (a b : Id) : Prop :=
  totalScore k rankings b < totalScore k rankings a ∨
    totalScore k rankings a = totalScore k rankings b ∧
      (bestRank rankings a < bestRank rankings b ∨
        bestRank rankings a = bestRank rankings b ∧
          (appearances rankings).idxOf a < (appearances rankings).idxOf b)

abbrev Mention (Id : Type u) := ℚ × Id × Nat

def mentions (rankings : List (Ranking Id)) : List (Mention Id) :=
  (counted rankings).flatMap fun ranking => ranking.ids.eraseDups.zipIdx.map fun entry => (ranking.weight, entry)

def Mention.contribution (k : ℚ) (m : Mention Id) : ℚ := RankFusion.contribution id k m.1 (m.2.2 + 1)

def tallyOf (k : ℚ) (ms : List (Mention Id)) (entry : Id × Nat) : Tally Id where
  id := entry.1
  score := ((ms.filter (·.2.1 = entry.1)).map (Mention.contribution k)).sum
  bestRank := ((ms.filter (·.2.1 = entry.1)).map (·.2.2 + 1)).min?.getD 0
  firstSeen := entry.2

def tallies (k : ℚ) (ms : List (Mention Id)) : List (Tally Id) :=
  (ms.map (·.2.1)).eraseDups.zipIdx.map (tallyOf k ms)

variable {k : ℚ} {rankings : List (Ranking Id)} {ms : List (Mention Id)} {m : Mention Id} {a b : Id}
  {hits : List (Tally Id)} {entry : Id × Nat}

theorem min?_concat {l : List Nat} {n : Nat} (h : l ≠ []) : (l ++ [n]).min?.getD 0 = min (l.min?.getD 0) n := by
  cases l with
  | nil => exact absurd rfl h
  | cons x l =>
    rw [List.cons_append, List.min?_cons', List.min?_cons', List.foldl_append]
    rfl

theorem mentions_cons {ranking : Ranking Id} : mentions (ranking :: rankings) =
    (if 0 < ranking.weight then ranking.ids.eraseDups.zipIdx.map fun entry => (ranking.weight, entry) else []) ++
      mentions rankings := by
  unfold mentions counted
  rw [List.filter_cons]
  by_cases h : 0 < ranking.weight <;> simp [h]

theorem foldl_countAll : rankings.foldl (countAll id k) hits =
    (mentions rankings).foldl (fun hits m => count id k m.1 hits m.2) hits := by
  induction rankings generalizing hits with
  | nil => rfl
  | cons ranking rankings ih =>
    rw [List.foldl_cons, ih, mentions_cons, List.foldl_append, countAll]
    by_cases h : 0 < ranking.weight
    · rw [if_pos h, if_neg (not_le.mpr h), List.foldl_map]
    · rw [if_neg h, if_pos (not_lt.mp h), List.foldl_nil]

@[simp] theorem tallyOf_id : (tallyOf k ms entry).id = entry.1 := rfl

theorem tallyOf_other (h : m.2.1 ≠ entry.1) : tallyOf k (ms ++ [m]) entry = tallyOf k ms entry := by
  simp [tallyOf, List.filter_append, h]

theorem tallyOf_again (h : m.2.1 = entry.1) (hseen : entry.1 ∈ ms.map (·.2.1)) :
    tallyOf k (ms ++ [m]) entry =
      { tallyOf k ms entry with
        score := (tallyOf k ms entry).score + m.contribution k
        bestRank := min (tallyOf k ms entry).bestRank (m.2.2 + 1) } := by
  have hne : (ms.filter (·.2.1 = entry.1)).map (·.2.2 + 1) ≠ [] := by
    obtain ⟨m', hm', hid⟩ := List.mem_map.mp hseen
    rw [Ne, List.map_eq_nil_iff, List.filter_eq_nil_iff]
    exact fun hnone => hnone m' hm' (by simpa using hid)
  have hfilter : (ms ++ [m]).filter (·.2.1 = entry.1) = ms.filter (·.2.1 = entry.1) ++ [m] := by
    simp [List.filter_append, h]
  rw [tallyOf, hfilter, List.map_append, List.map_append, List.map_singleton, List.map_singleton, List.sum_append,
    min?_concat hne]
  simp [tallyOf]

theorem tallyOf_first (hseen : m.2.1 ∉ ms.map (·.2.1)) (n : Nat) : tallyOf k (ms ++ [m]) (m.2.1, n) =
    { id := m.2.1, score := m.contribution k, bestRank := m.2.2 + 1, firstSeen := n } := by
  have hnone : ms.filter (·.2.1 = m.2.1) = [] := by
    rw [List.filter_eq_nil_iff]
    intro m' hm' hid
    exact hseen (List.mem_map.mpr ⟨m', hm', by simpa using hid⟩)
  simp [tallyOf, List.filter_append, hnone]

theorem map_tallies : (tallies k ms).map (·.id) = (ms.map (·.2.1)).eraseDups := by
  rw [tallies, List.map_map]
  exact List.zipIdx_map_fst ..

theorem count_tallies : count id k m.1 (tallies k ms) m.2 = tallies k (ms ++ [m]) := by
  have hany : (tallies k ms).any (·.id = m.2.1) = true ↔ m.2.1 ∈ ms.map (·.2.1) := by
    rw [← List.mem_eraseDups, ← map_tallies (k := k), List.any_eq_true, List.mem_map]
    simp
  by_cases hseen : m.2.1 ∈ ms.map (·.2.1)
  · rw [count, if_pos (hany.mpr hseen), Table.update, tallies, tallies, List.map_append, List.map_singleton,
      Distinct.eraseDups_concat, if_pos hseen, List.map_map]
    refine List.map_congr_left fun entry hentry => ?_
    by_cases hid : m.2.1 = entry.1
    · rw [tallyOf_again hid (hid ▸ hseen), Function.comp_apply, tallyOf_id, if_pos hid.symm]
      rfl
    · rw [tallyOf_other hid, Function.comp_apply, tallyOf_id, if_neg (Ne.symm hid)]
  · rw [count, if_neg (fun h => hseen (hany.mp h)), tallies, tallies, List.map_append, List.map_singleton,
      Distinct.eraseDups_concat, if_neg hseen, List.zipIdx_append, List.map_append]
    congr 1
    · refine List.map_congr_left fun entry hentry => ?_
      have hid : m.2.1 ≠ entry.1 := by
        intro hid
        exact hseen (hid ▸ List.mem_eraseDups.mp (List.fst_mem_of_mem_zipIdx hentry))
      rw [tallyOf_other hid]
    · rw [List.zipIdx_singleton, List.map_singleton, tallyOf_first hseen]
      simp [Mention.contribution]

theorem foldl_count : ms.foldl (fun hits m => count id k m.1 hits m.2) [] = tallies k ms := by
  induction ms using List.reverseRecOn with
  | nil => rfl
  | append_singleton ms m ih => rw [List.foldl_append, ih, List.foldl_cons, List.foldl_nil, count_tallies]

theorem filter_mentions : (mentions rankings).filter (·.2.1 = a) =
    (holding rankings a).map fun ranking => (ranking.weight, a, ranking.ids.eraseDups.idxOf a) := by
  unfold mentions holding
  induction counted rankings with
  | nil => rfl
  | cons ranking rest ih =>
    have hone : (ranking.ids.eraseDups.zipIdx.map fun entry => (ranking.weight, entry)).filter (·.2.1 = a) =
        if a ∈ ranking.ids then [(ranking.weight, a, ranking.ids.eraseDups.idxOf a)] else [] := by
      have hplace := @Distinct.filter_zipIdx Id _ a ranking.ids.eraseDups 0 (Distinct.nodup_eraseDups ranking.ids)
      rw [List.filter_map, Function.comp_def, hplace]
      by_cases h : a ∈ ranking.ids <;> simp [h]
    rw [List.flatMap_cons, List.filter_append, hone, ih, List.filter_cons]
    by_cases h : a ∈ ranking.ids <;> simp [h]

theorem map_mentions : ((mentions rankings).map (·.2.1)).eraseDups = appearances rankings := by
  refine Eq.trans (congrArg List.eraseDups ?_) (Distinct.eraseDups_flatMap (counted rankings))
  rw [mentions, List.map_flatMap]
  refine List.flatMap_congr fun ranking _ => ?_
  rw [List.map_map]
  exact List.zipIdx_map_fst ..

theorem tallyOf_mentions : tallyOf k (mentions rankings) entry =
    { id := entry.1, score := totalScore k rankings entry.1, bestRank := bestRank rankings entry.1,
      firstSeen := entry.2 } := by
  rw [tallyOf, filter_mentions, List.map_map, List.map_map]
  rfl

theorem foldl_countAll_eq : rankings.foldl (countAll id k) [] = (appearances rankings).zipIdx.map fun entry =>
    { id := entry.1, score := totalScore k rankings entry.1, bestRank := bestRank rankings entry.1,
      firstSeen := entry.2 } := by
  rw [foldl_countAll, foldl_count, tallies, map_mentions]
  exact List.map_congr_left fun entry _ => tallyOf_mentions

theorem tally_of_mem {hit : Tally Id} (h : hit ∈ rankings.foldl (countAll id k) []) :
    hit.score = totalScore k rankings hit.id ∧ hit.bestRank = bestRank rankings hit.id ∧
      hit.firstSeen = (appearances rankings).idxOf hit.id ∧ hit.id ∈ appearances rankings := by
  rw [foldl_countAll_eq] at h
  obtain ⟨entry, hentry, rfl⟩ := List.mem_map.mp h
  obtain ⟨hlt, hget⟩ := List.getElem?_eq_some_iff.mp (List.mem_zipIdx_iff_getElem?.mp hentry)
  have hnodup : (appearances rankings).Nodup := Distinct.nodup_eraseDups _
  refine ⟨rfl, rfl, ?_, hget ▸ List.getElem_mem hlt⟩
  dsimp only
  rw [← hget, hnodup.idxOf_getElem]

theorem precedes_asymm (h : Precedes k rankings a b) : ¬ Precedes k rankings b a := by
  unfold Precedes at h ⊢
  grind

theorem fuse_pairwise : ((fuse id k rankings).map (·.id)).Pairwise (Precedes k rankings) := by
  have hnodup : ((fuse id k rankings).map (·.id)).Nodup := nodup_fuse
  rw [fuse, List.map_map] at hnodup ⊢
  have hsorted := List.pairwise_insertionSort (fun x y : Tally Id => x.before y = true)
    (rankings.foldl (countAll id k) [])
  rw [List.pairwise_map]
  refine (hsorted.and (List.pairwise_map.mp hnodup)).imp_of_mem fun {x y} hx hy h => ?_
  obtain ⟨hbefore, hne⟩ := h
  obtain ⟨hxs, hxb, hxf, hxmem⟩ := tally_of_mem ((List.mem_insertionSort _).mp hx)
  obtain ⟨hys, hyb, hyf, hymem⟩ := tally_of_mem ((List.mem_insertionSort _).mp hy)
  rw [before_iff, hxs, hys, hxb, hyb, hxf, hyf] at hbefore
  have hplace : (appearances rankings).idxOf x.id ≠ (appearances rankings).idxOf y.id := fun heq =>
    hne ((List.idxOf_inj hxmem).mp heq)
  refine hbefore.imp_right fun htie => ⟨htie.1, htie.2.imp_right fun hbest => ⟨hbest.1, ?_⟩⟩
  exact Nat.lt_of_le_of_ne hbest.2 hplace

theorem score_of_mem {hit : FusedHit Id} (h : hit ∈ fuse id k rankings) :
    hit.score = totalScore k rankings hit.id := by
  obtain ⟨tally, htally, rfl⟩ := List.mem_map.mp h
  exact (tally_of_mem ((List.mem_insertionSort _).mp htally)).1

def Ranking.scale (c : ℚ) (ranking : Ranking Id) : Ranking Id := { ranking with weight := c * ranking.weight }

omit [DecidableEq Id] in
theorem counted_scale {c : ℚ} (hc : 0 < c) :
    counted (rankings.map (Ranking.scale c)) = (counted rankings).map (Ranking.scale c) := by
  rw [counted, counted, List.filter_map]
  congr 1
  apply List.filter_congr
  intro ranking _
  simp [Ranking.scale, hc]

theorem holding_scale {c : ℚ} (hc : 0 < c) :
    holding (rankings.map (Ranking.scale c)) a = (holding rankings a).map (Ranking.scale c) := by
  rw [holding, holding, counted_scale hc, List.filter_map]
  rfl

theorem totalScore_scale {c : ℚ} (hc : 0 < c) :
    totalScore k (rankings.map (Ranking.scale c)) a = c * totalScore k rankings a := by
  rw [totalScore, totalScore, holding_scale hc, List.map_map, ← List.sum_map_mul_left]
  congr 1
  apply List.map_congr_left
  intro ranking _
  exact mul_div_assoc c ranking.weight _

theorem bestRank_scale {c : ℚ} (hc : 0 < c) : bestRank (rankings.map (Ranking.scale c)) a = bestRank rankings a := by
  rw [bestRank, bestRank, holding_scale hc, List.map_map]
  rfl

theorem appearances_scale {c : ℚ} (hc : 0 < c) :
    appearances (rankings.map (Ranking.scale c)) = appearances rankings := by
  rw [appearances, appearances, counted_scale hc, List.flatMap_map]
  rfl

theorem precedes_scale {c : ℚ} (hc : 0 < c) :
    Precedes k (rankings.map (Ranking.scale c)) a b ↔ Precedes k rankings a b := by
  rw [Precedes, Precedes, totalScore_scale hc, totalScore_scale hc, bestRank_scale hc, bestRank_scale hc,
    appearances_scale hc, mul_lt_mul_iff_right₀ hc, mul_right_inj' hc.ne']

theorem fuse_scale {c : ℚ} (hc : 0 < c) :
    (fuse id k (rankings.map (Ranking.scale c))).map (·.id) = (fuse id k rankings).map (·.id) := by
  have hscaled : ((fuse id k (rankings.map (Ranking.scale c))).map (·.id)).Pairwise (Precedes k rankings) := by
    apply fuse_pairwise.imp
    intro a b h
    exact (precedes_scale hc).mp h
  refine @List.Perm.eq_of_pairwise _ (Precedes k rankings) _ _ ?_ hscaled fuse_pairwise ?_
  · exact fun a b _ _ hab hba => absurd hba (precedes_asymm hab)
  rw [List.perm_ext_iff_of_nodup nodup_fuse nodup_fuse]
  intro a
  rw [mem_fuse, mem_fuse]
  constructor
  · rintro ⟨_, hmem, hweight, ha⟩
    obtain ⟨ranking, hranking, rfl⟩ := List.mem_map.mp hmem
    exact ⟨ranking, hranking, by simpa [Ranking.scale, hc] using hweight, ha⟩
  · rintro ⟨ranking, hranking, hweight, ha⟩
    exact ⟨ranking.scale c, List.mem_map_of_mem hranking, mul_pos hc hweight, ha⟩

theorem holding_disjoint {ranking : Ranking Id}
    (h : (counted rankings).Pairwise fun r s => r.ids.Disjoint s.ids) (hranking : ranking ∈ counted rankings)
    (ha : a ∈ ranking.ids) : holding rankings a = [ranking] := by
  obtain ⟨pre, post, heq⟩ := List.append_of_mem hranking
  rw [heq, List.pairwise_append, List.pairwise_cons] at h
  have hpre : pre.filter (fun r => r.ids.contains a) = [] := by
    rw [List.filter_eq_nil_iff]
    exact fun r hr hmem => h.2.2 r hr ranking List.mem_cons_self (List.contains_iff_mem.mp hmem) ha
  have hpost : post.filter (fun r => r.ids.contains a) = [] := by
    rw [List.filter_eq_nil_iff]
    exact fun r hr hmem => h.2.1.1 r hr ha (List.contains_iff_mem.mp hmem)
  rw [holding, heq, List.filter_append, List.filter_cons, if_pos (List.contains_iff_mem.mpr ha), hpre, hpost]
  rfl

theorem pairwise_idxOf {l : List Id} (h : l.Nodup) : l.Pairwise fun a b => l.idxOf a < l.idxOf b := by
  rw [List.pairwise_iff_getElem]
  intro i j hi hj hij
  rwa [h.idxOf_getElem, h.idxOf_getElem]

theorem sublist_fuse {ranking : Ranking Id} (hk : 1 ≤ k)
    (h : (counted rankings).Pairwise fun r s => r.ids.Disjoint s.ids) (hranking : ranking ∈ counted rankings) :
    ranking.ids.eraseDups.Sublist ((fuse id k rankings).map (·.id)) := by
  have hweight : 0 < ranking.weight := by simpa using (List.mem_filter.mp hranking).2
  have hscore (a) (ha : a ∈ ranking.ids) : totalScore k rankings a = ranking.weight / (k + ranking.rank a) := by
    rw [totalScore, holding_disjoint h hranking ha]
    exact List.sum_singleton
  have hsorted : ranking.ids.eraseDups.Pairwise (Precedes k rankings) := by
    refine (pairwise_idxOf (Distinct.nodup_eraseDups _)).imp_of_mem fun {a b} ha hb hab => .inl ?_
    rw [hscore a (List.mem_eraseDups.mp ha), hscore b (List.mem_eraseDups.mp hb)]
    have hrank : (ranking.rank a : ℚ) < ranking.rank b := by
      rw [Nat.cast_lt]
      exact Nat.succ_lt_succ hab
    have hpos : (0 : ℚ) ≤ ranking.rank a := Nat.cast_nonneg _
    exact div_lt_div_of_pos_left hweight (by linarith) (by linarith)
  have hsubset : ranking.ids.eraseDups ⊆ (fuse id k rankings).map (·.id) := by
    intro a ha
    exact mem_fuse.mpr ⟨ranking, (List.mem_filter.mp hranking).1, hweight, List.mem_eraseDups.mp ha⟩
  have hanti : Std.Antisymm (Precedes k rankings) := ⟨fun a b hab hba => absurd hba (precedes_asymm hab)⟩
  exact List.sublist_of_subperm_of_pairwise (List.subperm_of_subset (Distinct.nodup_eraseDups _) hsubset) hsorted
    fuse_pairwise

theorem fuse_exact (k : ℚ) (rankings : List (Ranking Id)) (hk : 1 ≤ k) :
    ((fuse id k rankings).map (·.id)).Nodup ∧
    (∀ a, a ∈ (fuse id k rankings).map (·.id) ↔ ∃ ranking ∈ rankings, 0 < ranking.weight ∧ a ∈ ranking.ids) ∧
    (∀ hit ∈ fuse id k rankings, hit.score = totalScore k rankings hit.id) ∧
    ((fuse id k rankings).map (·.id)).Pairwise (Precedes k rankings) ∧
    (∀ c : ℚ, 0 < c →
      (fuse id k (rankings.map (Ranking.scale c))).map (·.id) = (fuse id k rankings).map (·.id)) ∧
    ((counted rankings).Pairwise (fun r s => r.ids.Disjoint s.ids) →
      ∀ ranking ∈ counted rankings, ranking.ids.eraseDups.Sublist ((fuse id k rankings).map (·.id))) :=
  ⟨nodup_fuse, fun _ => mem_fuse, fun _ => score_of_mem, fuse_pairwise, fun _ => fuse_scale,
    fun h _ => sublist_fuse hk h⟩

theorem fuse_exact_tie : (fuse id 60 ([⟨[0, 1, 0], 1⟩, ⟨[1, 0], 1⟩].map (Ranking.scale 3))).map (·.id) =
    (fuse id 60 [⟨[0, 1, 0], 1⟩, ⟨[1, 0], 1⟩]).map (·.id) :=
  (fuse_exact 60 [⟨[0, 1, 0], 1⟩, ⟨[1, 0], 1⟩] (by norm_num)).2.2.2.2.1 3 (by norm_num)

end HomelabApps.KnowledgeBase.RankFusion
