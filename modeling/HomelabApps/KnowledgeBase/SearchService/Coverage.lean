import HomelabApps.KnowledgeBase.SearchService

universe u v w

namespace HomelabApps.KnowledgeBase.SearchService

open HomelabApps.Library
open HomelabApps.Library.Utf16
open RankFusion (Ranking FusedHit fuse mem_fuse)
open Store

variable {Vector : Type u} {s : Services Vector} {query : SearchQuery} {gathered gathered' : Gathered}
  {leg : Leg} {ids : List Nat} {weight : ℚ} {name id : String} {group kbs : List String}

structure StablePartition {α : Type v} (p : α → Bool) (before after : List α) : Prop where
  perm : after.Perm before
  within : ∀ b : Bool, after.filter (fun x => p x = b) = before.filter (fun x => p x = b)
  last : after.Pairwise fun x y => p x = true → p y = true

def Gathered.Reaches (s : Services Vector) (gathered : Gathered) (id : String) : Prop :=
  ∀ c ∈ s.db.val.chunks, s.db.val.inKb id c = true →
    ∃ leg ∈ gathered.asked, leg.ranges s.db.val c = true

structure Gathered.Sound (s : Services Vector) (query : SearchQuery) (gathered : Gathered) : Prop where
  searched : ∀ leg ∈ gathered.asked, leg.knowledgeBases ⊆ query.ids
  asked : ∀ r ∈ gathered.rankings, r.leg ∈ gathered.asked
  answered : ∀ leg ∈ gathered.asked, leg.isVector = true → ∃ r ∈ gathered.rankings, r.leg = leg
  weight : ∀ r ∈ gathered.rankings, 0 < r.weight
  found : ∀ r ∈ gathered.rankings, ∀ id ∈ r.ids, ∃ c ∈ s.db.val.chunks, c.id = id ∧
    r.leg.ranges s.db.val c = true
  models : gathered.models = [] ↔ ∀ r ∈ gathered.rankings, r.leg.isVector = false
  texts : gathered.fullTextAnswered = false ↔ ∀ r ∈ gathered.rankings, r.leg.isVector = true
  covered : ∀ id ∈ gathered.covered, ∃ r ∈ gathered.rankings, id ∈ r.leg.knowledgeBases

theorem bind_eq_ok {ε : Type u} {α β : Type v} {x : Except ε α} {f : α → Except ε β} {b : β} :
    (x >>= f) = .ok b ↔ ∃ a, x = .ok a ∧ f a = .ok b := by
  cases x with
  | ok a =>
    constructor
    · exact fun h => ⟨a, rfl, h⟩
    · rintro ⟨_, heq, h⟩
      obtain rfl := Except.ok.inj heq
      exact h
  | error e =>
    constructor
    · exact fun h => by cases h
    · rintro ⟨_, heq, -⟩
      cases heq

theorem orDatabase_eq_ok {α : Type v} {x : Option α} {a : α} : orDatabase x = .ok a ↔ x = some a := by
  cases x with
  | none => exact ⟨fun h => (by cases h), fun h => (by cases h)⟩
  | some b => exact ⟨fun h => congrArg some (Except.ok.inj h), fun h => congrArg Except.ok (Option.some.inj h)⟩

theorem sound_empty : ({} : Gathered).Sound s query where
  searched _ h := by cases h
  asked _ h := by cases h
  answered _ h := by cases h
  weight _ h := by cases h
  found _ h := by cases h
  models := ⟨fun _ _ h => (by cases h), fun _ => rfl⟩
  texts := ⟨fun _ _ h => (by cases h), fun _ => rfl⟩
  covered _ h := by cases h

namespace Gathered.Sound

theorem ask (h : gathered.Sound s query) (hleg : leg.knowledgeBases ⊆ query.ids)
    (htext : leg.isVector = false) : (gathered.ask leg).Sound s query where
  searched := List.forall_mem_append.mpr ⟨h.searched, by simpa using hleg⟩
  asked r hr := List.mem_append_left _ (h.asked r hr)
  answered := List.forall_mem_append.mpr ⟨h.answered, by simp [htext]⟩
  weight := h.weight
  found := h.found
  models := h.models
  texts := h.texts
  covered := h.covered

theorem pushText (h : gathered.Sound s query) (hleg : leg ∈ gathered.asked)
    (htext : leg.isVector = false) (hweight : 0 < weight)
    (hids : ∀ id ∈ ids, ∃ c ∈ s.db.val.chunks, c.id = id ∧ leg.ranges s.db.val c = true) :
    (gathered.pushText leg ids weight).Sound s query where
  searched := h.searched
  asked := List.forall_mem_append.mpr ⟨h.asked, by
    simpa [Gathered.pushText, Gathered.push] using hleg⟩
  answered other hother hvector := by
    obtain ⟨r, hr, hsame⟩ := h.answered other hother hvector
    exact ⟨r, List.mem_append_left _ hr, hsame⟩
  weight := List.forall_mem_append.mpr ⟨h.weight, by simpa using hweight⟩
  found := List.forall_mem_append.mpr ⟨h.found, by simpa using hids⟩
  models := by
    refine h.models.trans (Iff.trans ?_ List.forall_mem_append.symm)
    simp [htext]
  texts := by
    refine ⟨fun hanswered => (by cases hanswered), fun hall => ?_⟩
    have hlast := (List.forall_mem_append.mp hall).2 _ (List.mem_singleton_self _)
    rw [htext] at hlast
    cases hlast
  covered id hid := by
    obtain ⟨r, hr, hmem⟩ := h.covered id hid
    exact ⟨r, List.mem_append_left _ hr, hmem⟩

theorem pushVector (h : gathered.Sound s query) (hgroup : group ⊆ query.ids) (hweight : 0 < weight)
    (hids : ∀ id ∈ ids, ∃ c ∈ s.db.val.chunks, c.id = id ∧
      (Leg.vector group name).ranges s.db.val c = true) :
    (gathered.pushVector name group ids weight).Sound s query where
  searched := List.forall_mem_append.mpr ⟨h.searched, by simpa [Leg.knowledgeBases] using hgroup⟩
  asked := List.forall_mem_append.mpr ⟨fun r hr => List.mem_append_left _ (h.asked r hr),
    by simp [Gathered.pushVector, Gathered.push, Gathered.ask]⟩
  answered := by
    refine List.forall_mem_append.mpr ⟨fun leg hleg hvector => ?_, ?_⟩
    · obtain ⟨r, hr, hsame⟩ := h.answered leg hleg hvector
      exact ⟨r, List.mem_append_left _ hr, hsame⟩
    · rintro leg hleg -
      exact ⟨_, List.mem_append_right _ (List.mem_singleton_self _), (List.mem_singleton.mp hleg).symm⟩
  weight := List.forall_mem_append.mpr ⟨h.weight, by simpa using hweight⟩
  found := List.forall_mem_append.mpr ⟨h.found, by simpa using hids⟩
  models := by
    refine ⟨fun hmodels => absurd hmodels (by simp [Gathered.pushVector]), fun hall => ?_⟩
    have hlast := (List.forall_mem_append.mp hall).2 _ (List.mem_singleton_self _)
    cases hlast
  texts := by
    refine h.texts.trans (Iff.trans ?_ List.forall_mem_append.symm)
    simp [Leg.isVector, Gathered.ask]
  covered id hid := by
    rcases List.mem_append.mp hid with hid | hid
    · obtain ⟨r, hr, hmem⟩ := h.covered id hid
      exact ⟨r, List.mem_append_left _ hr, hmem⟩
    · exact ⟨_, List.mem_append_right _ (List.mem_singleton_self _), hid⟩

end Gathered.Sound

theorem ranges_of_fullTextIds {withoutVectorFor : Option String}
    (h : fullTextIds s query kbs withoutVectorFor = .ok ids) : ∀ id ∈ ids,
      ∃ c ∈ s.db.val.chunks, c.id = id ∧ (Leg.fullText kbs withoutVectorFor).ranges s.db.val c = true :=
  fun _ hid => ranges_of_mem_fullText (orDatabase_eq_ok.mp h) hid

theorem fallback_pos : 0 < FALLBACK_WEIGHT := one_pos

theorem unembeddedLeg_sound (h : gathered.Sound s query) (hgroup : group ⊆ query.ids)
    (hleg : unembeddedLeg s query name group gathered = .ok gathered') : gathered'.Sound s query := by
  obtain ⟨unembedded, hunembedded, hleg⟩ := bind_eq_ok.mp hleg
  have hask : (gathered.ask (.fullText group (some name))).Sound s query := h.ask hgroup rfl
  simp only [] at hleg
  split at hleg
  · obtain rfl := Except.ok.inj hleg
    exact hask
  · obtain rfl := Except.ok.inj hleg
    exact hask.pushText (List.mem_append_right _ (List.mem_singleton_self _)) rfl fallback_pos
      (ranges_of_fullTextIds hunembedded)

theorem unembeddedLeg_asked (hleg : unembeddedLeg s query name group gathered = .ok gathered') :
    gathered'.asked = gathered.asked ++ [.fullText group (some name)] ∧
      gathered'.covered = gathered.covered := by
  obtain ⟨unembedded, -, hleg⟩ := bind_eq_ok.mp hleg
  simp only [] at hleg
  split at hleg
  · obtain rfl := Except.ok.inj hleg
    exact ⟨rfl, rfl⟩
  · obtain rfl := Except.ok.inj hleg
    exact ⟨rfl, rfl⟩

theorem vectorLeg_cases (h : vectorLeg s query gathered name group = .ok gathered') :
    gathered' = gathered ∨ ∃ ids, (∀ id ∈ ids, ∃ c ∈ s.db.val.chunks, c.id = id ∧
        (Leg.vector group name).ranges s.db.val c = true) ∧
      (0 < (weights s query).fullText.val ∧
          gathered' = gathered.pushVector name group ids (weights s query).vector ∨
        unembeddedLeg s query name group
          (gathered.pushVector name group ids (weights s query).vector) = .ok gathered') := by
  unfold vectorLeg at h
  split at h
  · exact .inl (Except.ok.inj h).symm
  · obtain ⟨ids, hids, h⟩ := bind_eq_ok.mp h
    refine .inr ⟨ids, fun id hid => ranges_of_mem_vector (orDatabase_eq_ok.mp hids) hid, ?_⟩
    simp only [] at h
    split at h
    · exact .inr h
    · rename_i hweight
      exact .inl ⟨lt_of_not_ge hweight, (Except.ok.inj h).symm⟩

theorem vectorLeg_sound (h : gathered.Sound s query) (hgroup : group ⊆ query.ids)
    (hweight : 0 < (weights s query).vector.val)
    (hleg : vectorLeg s query gathered name group = .ok gathered') : gathered'.Sound s query := by
  rcases vectorLeg_cases hleg with rfl | ⟨ids, hids, ⟨-, rfl⟩ | hunembedded⟩
  · exact h
  · exact h.pushVector hgroup hweight hids
  · exact unembeddedLeg_sound (h.pushVector hgroup hweight hids) hgroup hunembedded

theorem vectorLeg_reaches (hweight : (weights s query).fullText.val ≤ 0)
    (hleg : vectorLeg s query gathered name group = .ok gathered') :
    gathered.asked ⊆ gathered'.asked ∧
      ∀ id ∈ gathered'.covered, id ∈ gathered.covered ∨ gathered'.Reaches s id := by
  rcases vectorLeg_cases hleg with rfl | ⟨ids, -, ⟨hfullText, -⟩ | hunembedded⟩
  · exact ⟨List.Subset.refl _, fun id hid => .inl hid⟩
  · exact absurd hfullText (not_lt_of_ge hweight)
  · obtain ⟨hasked, hcovered⟩ := unembeddedLeg_asked hunembedded
    refine ⟨hasked ▸ fun leg hleg => List.mem_append_left _ (List.mem_append_left _ hleg),
      fun id hid => ?_⟩
    rw [hcovered] at hid
    refine (List.mem_append.mp hid).imp_right fun hgroup c _ hkb => ?_
    have hin : group.any (s.db.val.inKb · c) = true := List.any_eq_true.mpr ⟨id, hgroup, hkb⟩
    rw [hasked]
    cases hembedded : s.db.val.embedded c.id name with
    | true =>
      refine ⟨.vector group name, List.mem_append_left _ (List.mem_append_right _ (List.mem_singleton_self _)), ?_⟩
      exact Bool.and_eq_true_iff.mpr ⟨hin, hembedded⟩
    | false =>
      refine ⟨.fullText group (some name), List.mem_append_right _ (List.mem_singleton_self _), ?_⟩
      exact Bool.and_eq_true_iff.mpr ⟨hin, by simp [hembedded]⟩

theorem Gathered.Reaches.mono (h : gathered.Reaches s id) (hasked : gathered.asked ⊆ gathered'.asked) :
    gathered'.Reaches s id := by
  intro c hc hkb
  obtain ⟨leg, hleg, hranges⟩ := h c hc hkb
  exact ⟨leg, hasked hleg, hranges⟩

variable {groups : List (String × List String)}

theorem vectorLegs_sound (h : gathered.Sound s query) (hgroups : ∀ g ∈ groups, g.2 ⊆ query.ids)
    (hweight : 0 < (weights s query).vector.val)
    (hlegs : vectorLegs s query gathered groups = .ok gathered') : gathered'.Sound s query := by
  induction groups generalizing gathered with
  | nil => exact Except.ok.inj hlegs ▸ h
  | cons g groups ih =>
    obtain ⟨next, hnext, hlegs⟩ := bind_eq_ok.mp hlegs
    refine ih (vectorLeg_sound h ?_ hweight hnext) ?_ hlegs
    · exact hgroups g List.mem_cons_self
    · exact fun g hg => hgroups g (List.mem_cons_of_mem _ hg)

theorem vectorLegs_reaches (hweight : (weights s query).fullText.val ≤ 0)
    (h : ∀ id ∈ gathered.covered, gathered.Reaches s id)
    (hlegs : vectorLegs s query gathered groups = .ok gathered') :
    ∀ id ∈ gathered'.covered, gathered'.Reaches s id := by
  induction groups generalizing gathered with
  | nil => exact Except.ok.inj hlegs ▸ h
  | cons g groups ih =>
    obtain ⟨next, hnext, hlegs⟩ := bind_eq_ok.mp hlegs
    obtain ⟨hasked, hcovered⟩ := vectorLeg_reaches hweight hnext
    refine ih (fun id hid => ?_) hlegs
    rcases hcovered id hid with hid | hreaches
    · exact (h id hid).mono hasked
    · exact hreaches

theorem addToGroup_subset {searched : List String} (hid : id ∈ searched)
    (h : ∀ g ∈ groups, g.2 ⊆ searched) : ∀ g ∈ addToGroup name id groups, g.2 ⊆ searched := by
  induction groups with
  | nil => simpa [addToGroup] using hid
  | cons first groups ih =>
    obtain ⟨hfirst, hrest⟩ := List.forall_mem_cons.mp h
    unfold addToGroup
    split
    · refine List.forall_mem_cons.mpr ⟨List.append_subset.mpr ⟨hfirst, ?_⟩, hrest⟩
      simpa using hid
    · exact List.forall_mem_cons.mpr ⟨hfirst, ih hrest⟩

theorem byModel_subset (h : byModel query = .ok groups) : ∀ g ∈ groups, g.2 ⊆ query.ids := by
  unfold byModel at h
  split at h
  · cases h
  · obtain rfl := Except.ok.inj h
    refine List.foldlRecOn query.knowledgeBases _
      (motive := fun groups : List (String × List String) => ∀ g ∈ groups, g.2 ⊆ query.ids)
      (fun g hg => by cases hg) fun groups hgroups kb hkb => ?_
    split
    · exact addToGroup_subset (List.mem_map_of_mem hkb) hgroups
    · exact hgroups

theorem fullTextLeg_cases (h : fullTextLeg s query gathered = .ok gathered') :
    ∃ kbs, kbs ⊆ query.ids ∧
      (∀ id ∈ query.ids, id ∈ kbs ∨ (weights s query).fullText.val ≤ 0 ∧ id ∈ gathered.covered) ∧
      (kbs = [] ∧ gathered' = gathered ∨ ∃ ids weight, 0 < weight ∧
        fullTextIds s query kbs none = .ok ids ∧
        gathered' = (gathered.ask (.fullText kbs none)).pushText (.fullText kbs none) ids weight) := by
  unfold fullTextLeg at h
  by_cases hweight : 0 < (weights s query).fullText.val
  · simp only [hweight, decide_true, if_true] at h
    refine ⟨query.ids, List.Subset.refl _, fun id hid => .inl hid, ?_⟩
    split at h
    · rename_i hempty
      exact .inl ⟨List.isEmpty_iff.mp hempty, (Except.ok.inj h).symm⟩
    · obtain ⟨ids, hids, h⟩ := bind_eq_ok.mp h
      exact .inr ⟨ids, _, hweight, hids, (Except.ok.inj h).symm⟩
  · simp only [hweight, decide_false, Bool.false_eq_true, if_false] at h
    refine ⟨query.ids.filter fun id => !gathered.covered.contains id, List.filter_sublist.subset,
      fun id hid => ?_, ?_⟩
    · by_cases hcovered : id ∈ gathered.covered
      · exact .inr ⟨le_of_not_gt hweight, hcovered⟩
      · exact .inl (List.mem_filter.mpr ⟨hid, by simpa using hcovered⟩)
    · split at h
      · rename_i hempty
        exact .inl ⟨List.isEmpty_iff.mp hempty, (Except.ok.inj h).symm⟩
      · obtain ⟨ids, hids, h⟩ := bind_eq_ok.mp h
        exact .inr ⟨ids, _, fallback_pos, hids, (Except.ok.inj h).symm⟩

theorem fullTextLeg_sound (h : gathered.Sound s query)
    (hleg : fullTextLeg s query gathered = .ok gathered') : gathered'.Sound s query := by
  obtain ⟨kbs, hkbs, -, ⟨-, rfl⟩ | ⟨ids, weight, hweight, hids, rfl⟩⟩ := fullTextLeg_cases hleg
  · exact h
  · have hask : (gathered.ask (.fullText kbs none)).Sound s query := h.ask hkbs rfl
    exact hask.pushText (List.mem_append_right _ (List.mem_singleton_self _)) rfl hweight
      (ranges_of_fullTextIds hids)

theorem fullTextLeg_covers (h : gathered.Sound s query)
    (hreaches : (weights s query).fullText.val ≤ 0 → ∀ id ∈ gathered.covered, gathered.Reaches s id)
    (hleg : fullTextLeg s query gathered = .ok gathered') (hid : id ∈ query.ids) :
    (∃ r ∈ gathered'.rankings, id ∈ r.leg.knowledgeBases) ∧ gathered'.Reaches s id := by
  obtain ⟨kbs, -, hall, hcases⟩ := fullTextLeg_cases hleg
  rcases hall id hid with hkbs | ⟨hweight, hcovered⟩
  · rcases hcases with ⟨rfl, -⟩ | ⟨ids, weight, -, -, rfl⟩
    · cases hkbs
    · refine ⟨⟨_, List.mem_append_right _ (List.mem_singleton_self _), hkbs⟩, fun c _ hkb => ?_⟩
      refine ⟨.fullText kbs none, List.mem_append_right _ (List.mem_singleton_self _), ?_⟩
      exact Bool.and_eq_true_iff.mpr ⟨List.any_eq_true.mpr ⟨id, hkbs, hkb⟩, rfl⟩
  · obtain ⟨r, hr, hmem⟩ := h.covered id hcovered
    have hbefore := hreaches hweight id hcovered
    rcases hcases with ⟨-, rfl⟩ | ⟨ids, weight, -, -, rfl⟩
    · exact ⟨⟨r, hr, hmem⟩, hbefore⟩
    · exact ⟨⟨r, List.mem_append_left _ hr, hmem⟩,
        hbefore.mono fun leg hleg => List.mem_append_left _ hleg⟩

theorem gather_sound (h : gather s query = .ok gathered) : gathered.Sound s query ∧
    ∀ id ∈ query.ids, (∃ r ∈ gathered.rankings, id ∈ r.leg.knowledgeBases) ∧ gathered.Reaches s id := by
  obtain ⟨groups, hgroups, h⟩ := bind_eq_ok.mp h
  obtain ⟨vectors, hvectors, h⟩ := bind_eq_ok.mp h
  have hsound : vectors.Sound s query := by
    unfold vectorGroups at hgroups
    split at hgroups
    · rename_i hweight
      exact vectorLegs_sound sound_empty (byModel_subset hgroups) hweight hvectors
    · obtain rfl := Except.ok.inj hgroups
      exact Except.ok.inj hvectors ▸ sound_empty
  refine ⟨fullTextLeg_sound hsound h, fun id hid => fullTextLeg_covers hsound (fun hweight => ?_) h hid⟩
  exact vectorLegs_reaches hweight (fun id hid => by cases hid) hvectors

theorem Gathered.Sound.mode_eq_fullText (h : gathered.Sound s query) :
    gathered.mode = .fullText ↔ ∀ leg ∈ gathered.asked, leg.isVector = false := by
  have hmode : gathered.mode = .fullText ↔ gathered.models = [] := by
    rw [Gathered.mode, ← List.isEmpty_iff]
    cases gathered.models.isEmpty <;> cases gathered.fullTextAnswered <;> simp
  rw [hmode, h.models]
  constructor
  · intro hall leg hleg
    refine Bool.eq_false_iff.mpr fun hvector => ?_
    obtain ⟨r, hr, rfl⟩ := h.answered leg hleg hvector
    exact Bool.false_ne_true ((hall r hr).symm.trans hvector)
  · exact fun hall r hr => hall r.leg (h.asked r hr)

theorem Gathered.Sound.mode_eq_vector (h : gathered.Sound s query) : gathered.mode = .vector ↔
    (∃ leg ∈ gathered.asked, leg.isVector = true) ∧
      ∀ r ∈ gathered.rankings, r.leg.isVector = true := by
  have hmode : gathered.mode = .vector ↔
      gathered.mode ≠ .fullText ∧ gathered.fullTextAnswered = false := by
    rw [Gathered.mode]
    cases gathered.models.isEmpty <;> cases gathered.fullTextAnswered <;> simp
  rw [hmode, Ne, h.mode_eq_fullText, h.texts]
  simp only [not_forall, Bool.not_eq_false, exists_prop]

theorem inKb_of_ranges {db : Database Vector} {c : ChunkRow} (h : leg.ranges db c = true) :
    ∃ kb ∈ leg.knowledgeBases, db.inKb kb c = true := by
  cases leg with
  | vector kbs model => exact List.any_eq_true.mp (Bool.and_eq_true_iff.mp h).1
  | fullText kbs withoutVectorFor => exact List.any_eq_true.mp (Bool.and_eq_true_iff.mp h).1

theorem inKb_unique {db : Database Vector} {c : ChunkRow} {kb kb' : String} (hvalid : db.Valid)
    (h : db.inKb kb c = true) (h' : db.inKb kb' c = true) : kb = kb' := by
  simp only [Database.inKb, List.any_eq_true, Bool.and_eq_true, decide_eq_true_eq] at h h'
  obtain ⟨d, hd, hid, rfl⟩ := h
  obtain ⟨d', hd', hid', rfl⟩ := h'
  rw [Table.eq_of_key hvalid.documentIds.nodup hd hd' (hid.trans hid'.symm)]

theorem Gathered.Sound.of_fused {round : ℚ → ℚ} {rrfK : Nat} {fused : FusedHit Nat} (h : gathered.Sound s query)
    (hfused : fused ∈ fuse round rrfK (gathered.rankings.map (·.toRanking))) :
    ∃ c ∈ s.db.val.chunks, c.id = fused.id ∧ ∃ kb ∈ query.ids, s.db.val.inKb kb c = true := by
  obtain ⟨ranking, hranking, -, hmem⟩ := mem_fuse.mp (List.mem_map_of_mem (f := FusedHit.id) hfused)
  obtain ⟨r, hr, rfl⟩ := List.mem_map.mp hranking
  obtain ⟨c, hc, hchunk, hranges⟩ := h.found r hr fused.id hmem
  obtain ⟨kb, hkb, hin⟩ := inKb_of_ranges hranges
  exact ⟨c, hc, hchunk, kb, h.searched r.leg (h.asked r hr) hkb, hin⟩

theorem rank_searched {ranked : List ScoredHit} (h : gathered.Sound s query)
    (hrank : rank s query gathered = .ok ranked) : ∀ scored ∈ ranked, scored.hit.kb ∈ query.ids := by
  obtain ⟨hits, hhits, hrank⟩ := bind_eq_ok.mp hrank
  obtain rfl := Except.ok.inj hrank
  intro scored hscored
  obtain ⟨fused, hfused, hscored⟩ := List.mem_filterMap.mp hscored
  obtain ⟨hit, hhit, rfl⟩ := Option.map_eq_some_iff.mp hscored
  have hid : hit.id = fused.id := by simpa using List.find?_some hhit
  obtain ⟨c, hc, hchunk, hkb⟩ := mem_details (orDatabase_eq_ok.mp hhits) (List.mem_of_find?_eq_some hhit)
  obtain ⟨c', hc', hchunk', kb, hmem, hkb'⟩ := h.of_fused (List.take_subset _ _ hfused)
  obtain rfl : c = c' := Table.eq_of_key s.db.property.chunkIds.nodup hc hc'
    (hchunk.trans (hid.trans hchunk'.symm))
  exact inKb_unique s.db.property hkb' hkb ▸ hmem

theorem stablePartition_filter {α : Type v} (p : α → Bool) (xs : List α) :
    StablePartition p xs (xs.filter (fun x => !p x) ++ xs.filter p) where
  perm := List.perm_append_comm.trans (List.filter_append_perm p xs)
  within b := by
    rw [List.filter_append, List.filter_filter, List.filter_filter]
    cases b <;> simp
  last := by
    refine List.pairwise_append.mpr ⟨?_, ?_, fun x _ y hy _ => (List.mem_filter.mp hy).2⟩
    · refine List.pairwise_of_forall_mem_list fun x hx y _ hp => ?_
      simp [hp] at hx
    · exact List.pairwise_of_forall_mem_list fun x _ y hy _ => (List.mem_filter.mp hy).2

theorem demote_stable (ranked : List ScoredHit) :
    StablePartition (·.hit.demoted) ranked (demote ranked) :=
  stablePartition_filter _ ranked

structure SearchOutcome.Covers (s : Services Vector) (query : SearchQuery) (outcome : SearchOutcome) :
    Prop where
  weighted : ∀ kb ∈ query.knowledgeBases, ∃ r ∈ outcome.gathered.rankings,
    kb.id ∈ r.leg.knowledgeBases ∧ 0 < r.weight
  reached : ∀ kb ∈ query.knowledgeBases, outcome.gathered.Reaches s kb.id
  fullText : outcome.mode = .fullText ↔ ∀ leg ∈ outcome.gathered.asked, leg.isVector = false
  vector : outcome.mode = .vector ↔ (∃ leg ∈ outcome.gathered.asked, leg.isVector = true) ∧
    ∀ r ∈ outcome.gathered.rankings, r.leg.isVector = true
  searched : ∀ scored ∈ outcome.hits, ∃ kb ∈ query.knowledgeBases, kb.id = scored.hit.kb
  demoted : StablePartition (·.hit.demoted) outcome.ranked outcome.hits

theorem covers_of_search {outcome : SearchOutcome} (h : search s query = .ok outcome) :
    outcome.Covers s query := by
  unfold search at h
  split at h
  · rename_i hempty
    obtain rfl := Except.ok.inj h
    have hnone := List.isEmpty_iff.mp hempty
    exact {
      weighted := fun kb hkb => by rw [hnone] at hkb; cases hkb
      reached := fun kb hkb => by rw [hnone] at hkb; cases hkb
      fullText := ⟨fun _ leg hleg => (by cases hleg), fun _ => rfl⟩
      vector := ⟨fun hmode => (by cases hmode), fun hvector => (by obtain ⟨⟨leg, hleg, -⟩, -⟩ := hvector; cases hleg)⟩
      searched := fun scored hscored => by cases hscored
      demoted := demote_stable [] }
  · obtain ⟨gathered, hgathered, h⟩ := bind_eq_ok.mp h
    obtain ⟨ranked, hranked, h⟩ := bind_eq_ok.mp h
    obtain rfl := Except.ok.inj h
    obtain ⟨hsound, hcovers⟩ := gather_sound hgathered
    exact {
      weighted := fun kb hkb => by
        obtain ⟨r, hr, hmem⟩ := (hcovers kb.id (List.mem_map_of_mem hkb)).1
        exact ⟨r, hr, hmem, hsound.weight r hr⟩
      reached := fun kb hkb => (hcovers kb.id (List.mem_map_of_mem hkb)).2
      fullText := hsound.mode_eq_fullText
      vector := hsound.mode_eq_vector
      searched := fun scored hscored =>
        List.mem_map.mp (rank_searched hsound hranked scored
          ((demote_stable ranked).perm.mem_iff.mp hscored))
      demoted := demote_stable ranked }

theorem bind_ok {ε : Type u} {α β : Type v} {x : Except ε α} {f : α → Except ε β}
    (hx : ∃ a, x = .ok a) (hf : ∀ a, ∃ b, f a = .ok b) : ∃ b, (x >>= f) = .ok b := by
  obtain ⟨a, rfl⟩ := hx
  exact hf a

section Answers

variable (hquestion : textAccepts query.question = true) (hfilter : query.filter.accepted = true)

include hquestion hfilter

theorem fullTextIds_ok {withoutVectorFor : Option String} :
    ∃ ids, fullTextIds s query kbs withoutVectorFor = .ok ids := by
  unfold fullTextIds fullText
  rw [if_pos (Bool.and_eq_true_iff.mpr ⟨hquestion, hfilter⟩)]
  exact ⟨_, rfl⟩

theorem unembeddedLeg_ok : ∃ gathered', unembeddedLeg s query name group gathered = .ok gathered' := by
  refine bind_ok (fullTextIds_ok hquestion hfilter) fun unembedded => ?_
  simp only []
  split
  · exact ⟨_, rfl⟩
  · exact ⟨_, rfl⟩

theorem vectorLeg_ok : ∃ gathered', vectorLeg s query gathered name group = .ok gathered' := by
  unfold vectorLeg
  split
  · exact ⟨_, rfl⟩
  · refine bind_ok ⟨_, by rw [vector, if_pos hfilter]; rfl⟩ fun ids => ?_
    simp only []
    split
    · exact unembeddedLeg_ok hquestion hfilter
    · exact ⟨_, rfl⟩

theorem vectorLegs_ok : ∃ gathered', vectorLegs s query gathered groups = .ok gathered' := by
  induction groups generalizing gathered with
  | nil => exact ⟨gathered, rfl⟩
  | cons g groups ih => exact bind_ok (vectorLeg_ok hquestion hfilter) fun next => ih

theorem fullTextLeg_ok : ∃ gathered', fullTextLeg s query gathered = .ok gathered' := by
  unfold fullTextLeg
  by_cases hweight : 0 < (weights s query).fullText.val
  · simp only [hweight, decide_true, if_true]
    split
    · exact ⟨_, rfl⟩
    · exact bind_ok (fullTextIds_ok hquestion hfilter) fun found => ⟨_, rfl⟩
  · simp only [hweight, decide_false, Bool.false_eq_true, if_false]
    split
    · exact ⟨_, rfl⟩
    · exact bind_ok (fullTextIds_ok hquestion hfilter) fun found => ⟨_, rfl⟩

theorem search_ok (hmodel : ∀ model ∈ query.model, ∃ kb ∈ query.knowledgeBases, model ∈ kb.models) :
    ∃ outcome, search s query = .ok outcome := by
  unfold search
  split
  · exact ⟨_, rfl⟩
  · have hgroups : ∃ groups, vectorGroups s query = .ok groups := by
      unfold vectorGroups byModel
      split
      · refine ⟨_, if_neg fun hunknown => ?_⟩
        obtain ⟨model, hsome, hnone⟩ := (Option.any_eq_true ..).mp hunknown
        obtain ⟨kb, hkb, hmem⟩ := hmodel model hsome
        have hany : query.knowledgeBases.any (·.models.contains model) = true :=
          List.any_eq_true.mpr ⟨kb, hkb, List.contains_iff_mem.mpr hmem⟩
        rw [hany] at hnone
        cases hnone
      · exact ⟨_, rfl⟩
    have hgather : ∃ gathered, gather s query = .ok gathered :=
      bind_ok hgroups fun groups => bind_ok (vectorLegs_ok hquestion hfilter) fun vectors =>
        fullTextLeg_ok hquestion hfilter
    refine bind_ok hgather fun gathered => bind_ok ?_ fun ranked => ⟨_, rfl⟩
    refine bind_ok ?_ fun hits => ⟨_, rfl⟩
    unfold details
    split
    · exact ⟨_, rfl⟩
    · exact ⟨_, rfl⟩

end Answers

theorem search_covers (s : Services Vector) (query : SearchQuery) :
    (∀ outcome, search s query = .ok outcome → outcome.Covers s query) ∧
    (textAccepts query.question = true → query.filter.accepted = true →
      (∀ model ∈ query.model, ∃ kb ∈ query.knowledgeBases, model ∈ kb.models) →
      ∃ outcome, search s query = .ok outcome) :=
  ⟨fun _ => covers_of_search, search_ok⟩

def partlyEmbedded : Database Nat where
  documents := [⟨1, ⟨"notes", [97], none, none, none, [98], [49], .null⟩⟩]
  nextDocument := 2
  chunks := [⟨1, 1, ⟨0, [], [], [98], [99]⟩, ⟨"english", none, [], [98]⟩⟩,
    ⟨2, 1, ⟨1, [], [], [100], [101]⟩, ⟨"english", none, [], [100]⟩⟩]
  nextChunk := 3
  embeddings := [⟨1, "m", 7⟩]

theorem partlyEmbedded_valid : partlyEmbedded.Valid where
  documentIds := ⟨List.nodup_singleton _, by decide⟩
  documentKeys := List.nodup_singleton _
  chunkIds := ⟨by decide, by decide⟩
  chunkDocument := by simp [partlyEmbedded]
  embeddingChunk := by simp [partlyEmbedded]
  kept := by
    intro d hd
    obtain rfl := List.mem_singleton.mp hd
    exact ⟨rfl, rfl, (fun _ h => by cases h), rfl, rfl, rfl, rfl⟩

def partlyServices : Services Nat where
  config := ⟨50, 60, ⟨⟨0, by decide⟩, ⟨1, by decide⟩⟩, .any⟩
  db := ⟨partlyEmbedded, partlyEmbedded_valid⟩
  tsConfigs := fun _ => some "english"
  text := ⟨fun _ _ _ _ => true, fun _ _ _ _ => 0, fun _ _ body => body⟩
  index := ⟨fun a b => (a : ℚ) - b, fun _ _ rows => rows, fun _ _ rows => List.Subset.refl rows⟩
  embedQuery := fun _ _ => some 0
  round := fun score => score

def partlyQuery : SearchQuery where
  question := [98]
  knowledgeBases := [⟨"notes", "english", ["m"], .shortest, ⟨[[]], []⟩⟩]
  filter := []
  limit := 10

theorem search_covers_partly : ∃ outcome, search partlyServices partlyQuery = .ok outcome ∧
    outcome.mode = .hybrid ∧ outcome.hits.map (·.hit.id) = [1, 2] ∧
      outcome.Covers partlyServices partlyQuery := by
  have hanswer : (search partlyServices partlyQuery).toOption.map
      (fun outcome => (outcome.mode, outcome.hits.map (·.hit.id))) = some (.hybrid, [1, 2]) := by
    decide +kernel
  have hcovers := search_covers partlyServices partlyQuery
  obtain ⟨outcome, h⟩ := hcovers.2 rfl rfl fun model hmodel => by cases hmodel
  rw [h] at hanswer
  obtain ⟨hmode, hhits⟩ := Prod.mk.inj (Option.some.inj hanswer)
  exact ⟨outcome, h, hmode, hhits, hcovers.1 outcome h⟩

end HomelabApps.KnowledgeBase.SearchService
