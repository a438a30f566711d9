import HomelabApps.KnowledgeBase.Markdown.Chunker
import HomelabApps.Library.Numerals
import Mathlib.Data.List.Nodup
import Mathlib.Data.List.Range

namespace HomelabApps.KnowledgeBase.Markdown

open HomelabApps.Library.Utf16

variable {unicode : Unicode} {o : Occurrences} {original result key text markdown : JsString} {fuel n : Nat}

def Occurrences.keys (o : Occurrences) : List JsString := o.map (·.1)

def slugs (unicode : Unicode) (o : Occurrences) : List JsString → List JsString × Occurrences
  | [] => ([], o)
  | text :: texts =>
    let (name, o) := slug unicode o text
    let (names, o) := slugs unicode o texts
    (name :: names, o)

def headingTexts : FenceTracker → List JsString → List JsString
  | _, [] => []
  | fences, line :: lines =>
    match fences.consume line with
    | (fences, true) => headingTexts fences lines
    | (fences, false) =>
      match headingOf line with
      | none => headingTexts fences lines
      | some (_, text) => text :: headingTexts fences lines

def documentSlugs (unicode : Unicode) (markdown : JsString) : List JsString :=
  (slugs unicode [] (headingTexts none (splitLines markdown))).1

theorem has_iff : o.has key = true ↔ key ∈ o.keys := by
  induction o with
  | nil => simp [Occurrences.has, Occurrences.keys]
  | cons e o ih =>
    rw [Occurrences.keys, List.map_cons, List.mem_cons, ← Occurrences.keys, ← ih, Occurrences.has, List.lookup_cons]
    cases h : key == e.1 with
    | true => simp [beq_iff_eq.mp h]
    | false => simp [Occurrences.has, beq_eq_false_iff_ne.mp h]

theorem keys_set (h : key ∈ o.keys) : (o.set key n).keys = o.keys := by
  rw [Occurrences.set, if_pos (has_iff.2 h), Occurrences.keys, Occurrences.keys, List.map_map]
  apply List.map_congr_left
  intro e _
  by_cases he : e.1 = key <;> simp [he]

theorem mem_keys_set {k : JsString} : k ∈ (o.set key n).keys ↔ k = key ∨ k ∈ o.keys := by
  by_cases h : key ∈ o.keys
  · rw [keys_set h]
    constructor
    · exact .inr
    · rintro (rfl | hk)
      · exact h
      · exact hk
  · rw [Occurrences.set, if_neg (fun hhas => h (has_iff.1 hhas))]
    simp [Occurrences.keys, or_comm]

theorem lookup_set (h : key ∈ o.keys) : (o.set key n).lookup key = some n := by
  rw [Occurrences.set, if_pos (has_iff.2 h)]
  induction o with
  | nil => simp [Occurrences.keys] at h
  | cons e o ih =>
    by_cases he : e.1 = key
    · simp [he]
    · have hne : (key == e.1) = false := beq_eq_false_iff_ne.mpr fun hk => he hk.symm
      rw [List.map_cons, if_neg he, List.lookup_cons, hne]
      exact ih (by simpa [Occurrences.keys, Ne.symm he, eq_comm] using h)

theorem numbered_injective (original : JsString) : Function.Injective (numbered original) := by
  intro m n h
  exact numeral_injective (List.cons.inj (List.append_cancel_left h)).2

theorem keys_freeSlug (h : result ∈ o.keys → original ∈ o.keys) :
    (freeSlug original fuel result o).2.keys = o.keys := by
  induction fuel generalizing result o with
  | zero => rfl
  | succ fuel ih =>
    rw [freeSlug]
    by_cases hhas : o.has result = true
    · have hkeys : (o.set original ((o.lookup original).getD 0 + 1)).keys = o.keys :=
        keys_set (h (has_iff.1 hhas))
      rw [if_pos hhas]
      exact (ih fun _ => hkeys ▸ h (has_iff.1 hhas)).trans hkeys
    · rw [if_neg hhas]

theorem taken_of_freeSlug (hmem : original ∈ o.keys) (hlookup : o.lookup original = some n)
    (h : (freeSlug original fuel result o).1 ∈ o.keys) :
    result ∈ o.keys ∧ ∀ i < fuel, numbered original (n + 1 + i) ∈ o.keys := by
  induction fuel generalizing result o n with
  | zero => exact ⟨h, fun i hi => absurd hi (Nat.not_lt_zero i)⟩
  | succ fuel ih =>
    rw [freeSlug, hlookup, Option.getD_some] at h
    by_cases hhas : o.has result = true
    · have hkeys : (o.set original (n + 1)).keys = o.keys := keys_set hmem
      rw [if_pos hhas] at h
      obtain ⟨hfirst, hrest⟩ := ih (hkeys ▸ hmem) (lookup_set hmem) (hkeys ▸ h)
      refine ⟨has_iff.1 hhas, fun i hi => ?_⟩
      cases i with
      | zero => exact hkeys ▸ hfirst
      | succ i =>
        have hturn := hrest i (by omega)
        rw [hkeys] at hturn
        rwa [show n + 1 + (i + 1) = n + 1 + 1 + i by omega]
    · rw [if_neg hhas] at h
      exact absurd (has_iff.2 h) hhas

theorem freeSlug_fresh (hfuel : o.length < fuel) : (freeSlug original fuel original o).1 ∉ o.keys := by
  intro h
  by_cases hmem : original ∈ o.keys
  · obtain ⟨n, hlookup⟩ := Option.isSome_iff_exists.mp (has_iff.2 hmem)
    obtain ⟨-, htaken⟩ := taken_of_freeSlug hmem hlookup h
    have hnodup : ((List.range fuel).map fun i => numbered original (n + 1 + i)).Nodup :=
      List.nodup_range.map fun i j hij => by
        have := numbered_injective original hij
        omega
    have hsubset : ((List.range fuel).map fun i => numbered original (n + 1 + i)) ⊆ o.keys := by
      intro key hkey
      obtain ⟨i, hi, rfl⟩ := List.mem_map.mp hkey
      exact htaken i (List.mem_range.mp hi)
    have hlength := (List.subperm_of_subset hnodup hsubset).length_le
    rw [List.length_map, List.length_range, Occurrences.keys, List.length_map] at hlength
    omega
  · cases fuel with
    | zero => omega
    | succ fuel =>
      rw [freeSlug, if_neg (fun hhas => hmem (has_iff.1 hhas))] at h
      exact hmem h

theorem freeSlug_add (hmem : result ∈ o.keys → original ∈ o.keys)
    (h : (freeSlug original fuel result o).1 ∉ o.keys) (more : Nat) :
    freeSlug original (fuel + more) result o = freeSlug original fuel result o := by
  induction fuel generalizing result o with
  | zero =>
    have hfree : o.has result ≠ true := fun hhas => h (has_iff.1 hhas)
    cases more with
    | zero => rfl
    | succ more => rw [Nat.zero_add, freeSlug, freeSlug, if_neg hfree]
  | succ fuel ih =>
    rw [show fuel + 1 + more = fuel + more + 1 by omega]
    rw [freeSlug] at h ⊢
    rw [freeSlug]
    by_cases hhas : o.has result = true
    · have hkeys : (o.set original ((o.lookup original).getD 0 + 1)).keys = o.keys :=
        keys_set (hmem (has_iff.1 hhas))
      rw [if_pos hhas] at h ⊢
      rw [if_pos hhas]
      exact ih (fun _ => hkeys ▸ hmem (has_iff.1 hhas)) (hkeys ▸ h)
    · rw [if_neg hhas, if_neg hhas]

theorem slug_fresh : (slug unicode o text).1 ∉ o.keys := freeSlug_fresh (Nat.lt_succ_self _)

theorem mem_keys_slug : key ∈ (slug unicode o text).2.keys ↔ key = (slug unicode o text).1 ∨ key ∈ o.keys := by
  have hkeys : (freeSlug (slugify unicode text) (o.length + 1) (slugify unicode text) o).2.keys = o.keys :=
    keys_freeSlug fun h => h
  rw [← hkeys]
  exact mem_keys_set

theorem slugs_fresh (texts : List JsString) : ∀ name ∈ (slugs unicode o texts).1, name ∉ o.keys := by
  induction texts generalizing o with
  | nil => exact List.forall_mem_nil _
  | cons text texts ih =>
    intro name hname
    rw [slugs, List.mem_cons] at hname
    cases hname with
    | inl hname => exact hname ▸ slug_fresh
    | inr hname => exact fun hmem => ih name hname (mem_keys_slug.2 (.inr hmem))

theorem slugs_nodup (texts : List JsString) : (slugs unicode o texts).1.Nodup := by
  induction texts generalizing o with
  | nil => exact List.nodup_nil
  | cons text texts ih =>
    rw [slugs, List.nodup_cons]
    exact ⟨fun hmem => slugs_fresh texts _ hmem (mem_keys_slug.2 (.inl rfl)), ih⟩

def Named (s : Sectioning) (names : List JsString) : Prop :=
  ∃ kept : List JsString, (s.done ++ [s.current]).map (·.slug) = none :: kept.map some ∧ kept.Sublist names

theorem Named.push {s : Sectioning} {names : List JsString} (h : Named s names) (line : JsString) :
    Named (s.push line) names := by
  obtain ⟨kept, hslugs, hkept⟩ := h
  exact ⟨kept, by simpa [Sectioning.push] using hslugs, hkept⟩

theorem Named.skip {s : Sectioning} {names : List JsString} (h : Named s names) (name : JsString) :
    Named s (names ++ [name]) := by
  obtain ⟨kept, hslugs, hkept⟩ := h
  exact ⟨kept, hslugs, hkept.trans (List.sublist_append_left names [name])⟩

theorem Named.begin {s : Sectioning} {names : List JsString} (h : Named s names) (path : List JsString)
    (name : JsString) : Named (s.begin path name) (names ++ [name]) := by
  obtain ⟨kept, hslugs, hkept⟩ := h
  refine ⟨kept ++ [name], ?_, hkept.append (List.Sublist.refl _)⟩
  rw [Sectioning.begin, List.map_append, hslugs]
  simp

theorem heading_eq {mode : ChunkingMode} {s : Sectioning} {line : JsString} {level : Nat} :
    s.heading unicode mode line level text =
      if level = 1 ∧ s.titleSeen = false ∧ s.done = [] then
        { s with slugger := (slug unicode s.slugger text).2, titleSeen := true }
      else if level ≤ 2 then
        { Sectioning.begin { s with slugger := (slug unicode s.slugger text).2 } [text]
            (slug unicode s.slugger text).1 with h2 := some text }
      else if level = 3 ∧ mode = .sections then
        Sectioning.begin { s with slugger := (slug unicode s.slugger text).2 } (s.h2.toList ++ [text])
          (slug unicode s.slugger text).1
      else Sectioning.push { s with slugger := (slug unicode s.slugger text).2 } line :=
  rfl

theorem Named.heading {mode : ChunkingMode} {s : Sectioning} {names : List JsString} {line : JsString} {level : Nat}
    (h : Named s names) :
    Named (s.heading unicode mode line level text) (names ++ [(slug unicode s.slugger text).1]) := by
  have hslugger : Named { s with slugger := (slug unicode s.slugger text).2 } names := h
  rw [heading_eq]
  split
  · exact hslugger.skip _
  · split
    · exact hslugger.begin _ _
    · split
      · exact hslugger.begin _ _
      · exact (hslugger.push line).skip _

theorem heading_slugger {mode : ChunkingMode} {s : Sectioning} {line : JsString} {level : Nat} :
    (s.heading unicode mode line level text).slugger = (slug unicode s.slugger text).2 ∧
      (s.heading unicode mode line level text).fences = s.fences := by
  rw [heading_eq]
  split
  · exact ⟨rfl, rfl⟩
  · split
    · exact ⟨rfl, rfl⟩
    · split <;> exact ⟨rfl, rfl⟩

theorem Named.foldl {mode : ChunkingMode} {s : Sectioning} {names lines : List JsString} (h : Named s names) :
    Named (lines.foldl (Sectioning.consume unicode mode) s)
      (names ++ (slugs unicode s.slugger (headingTexts s.fences lines)).1) := by
  induction lines generalizing s names with
  | nil => simpa [headingTexts, slugs] using h
  | cons line lines ih =>
    rw [List.foldl_cons, headingTexts, Sectioning.consume]
    cases hfence : s.fences.consume line with
    | mk fences inside =>
      have hfences : Named { s with fences := fences } names := h
      cases inside with
      | true => exact ih (hfences.push line)
      | false =>
        cases hheading : headingOf line with
        | none => exact ih (hfences.push line)
        | some heading =>
          obtain ⟨level, text⟩ := heading
          have hnamed : Named (Sectioning.heading unicode mode { s with fences := fences } line level text)
              (names ++ [(slug unicode s.slugger text).1]) := hfences.heading
          have hrest := ih hnamed
          rw [heading_slugger.1, heading_slugger.2, List.append_assoc] at hrest
          exact hrest

theorem named_sections (mode : ChunkingMode) : ∃ kept : List JsString,
    (sections unicode markdown mode).map (·.slug) = none :: kept.map some ∧
      kept.Sublist (documentSlugs unicode markdown) :=
  (show Named {} [] from ⟨[], rfl, List.Sublist.refl _⟩).foldl

theorem anchor_injective {a b : Section} {externalId : JsString} (h : a.anchor externalId = b.anchor externalId) :
    a.slug = b.slug := by
  unfold Section.anchor at h
  cases ha : a.slug with
  | none =>
    cases hb : b.slug with
    | none => rfl
    | some slug => simp [ha, hb] at h
  | some slug =>
    cases hb : b.slug with
    | none => simp [ha, hb] at h
    | some slug' => simpa [ha, hb] using h

theorem nodup_anchors (mode : ChunkingMode) (externalId : JsString) :
    ((sections unicode markdown mode).map fun s => s.anchor externalId).Nodup := by
  obtain ⟨kept, hslugs, hkept⟩ := @named_sections unicode markdown mode
  have hnodup : ((sections unicode markdown mode).map (·.slug)).Nodup := by
    rw [hslugs, List.nodup_cons]
    refine ⟨by simp, (hkept.nodup (slugs_nodup _)).map (Option.some_injective _)⟩
  exact List.Pairwise.map _ (fun a b hne heq => hne (anchor_injective heq)) (List.pairwise_map.mp hnodup)

def chunkSections (unicode : Unicode) (markdown : JsString) (options : MarkdownChunkOptions) : List Nat :=
  (sections unicode markdown options.mode).zipIdx.flatMap fun (s, i) => (s.parts options).map fun _ => i

variable {sha256 : JsString → JsString} {options : MarkdownChunkOptions}

theorem map_ord_chunk : (chunk sha256 unicode markdown options).map (·.ord) =
    List.range (chunk sha256 unicode markdown options).length := by
  apply List.ext_getElem
  · simp
  · simp [chunk]

def placedParts (unicode : Unicode) (markdown : JsString) (options : MarkdownChunkOptions) :
    List ((Section × Nat) × JsString) :=
  (sections unicode markdown options.mode).zipIdx.flatMap fun e => (e.1.parts options).map fun part => (e, part)

theorem map_placedParts : (placedParts unicode markdown options).map (fun e => (e.1.1, e.2)) =
    (sections unicode markdown options.mode).flatMap fun s => (s.parts options).map fun part => (s, part) := by
  rw [placedParts, List.map_flatMap]
  conv_rhs => rw [← List.zipIdx_map_fst 0 (sections unicode markdown options.mode), List.flatMap_map]
  apply List.flatMap_congr
  intro e _
  rw [List.map_map]
  rfl

theorem chunkSections_eq :
    chunkSections unicode markdown options = (placedParts unicode markdown options).map fun e => e.1.2 := by
  rw [placedParts, List.map_flatMap, chunkSections]
  apply List.flatMap_congr
  intro e _
  rw [List.map_map]
  rfl

theorem section_of_chunk {i : Nat} {c : MarkdownChunk} (h : (chunk sha256 unicode markdown options)[i]? = some c) :
    ∃ k s, (chunkSections unicode markdown options)[i]? = some k ∧
      (sections unicode markdown options.mode)[k]? = some s ∧ c.body ∈ s.parts options ∧
      c.anchor = s.anchor options.externalId := by
  rw [chunk, ← map_placedParts, List.getElem?_mapIdx, List.getElem?_map, Option.map_map, Option.map_eq_some_iff] at h
  obtain ⟨⟨⟨s, k⟩, part⟩, hplaced, rfl⟩ := h
  obtain ⟨e, he, hpart⟩ := List.mem_flatMap.mp (List.mem_of_getElem? hplaced)
  obtain ⟨_, hbody, heq⟩ := List.mem_map.mp hpart
  cases heq
  exact ⟨k, s, by rw [chunkSections_eq, List.getElem?_map, hplaced]; rfl,
    List.mem_zipIdx_iff_getElem?.mp he, hbody, rfl⟩

theorem anchor_iff {i j : Nat} {c d : MarkdownChunk} (hc : (chunk sha256 unicode markdown options)[i]? = some c)
    (hd : (chunk sha256 unicode markdown options)[j]? = some d) :
    c.anchor = d.anchor ↔
      (chunkSections unicode markdown options)[i]? = (chunkSections unicode markdown options)[j]? := by
  obtain ⟨k, s, hk, hs, -, hcanchor⟩ := section_of_chunk hc
  obtain ⟨l, t, hl, ht, -, hdanchor⟩ := section_of_chunk hd
  have hnodup := @nodup_anchors unicode markdown options.mode options.externalId
  rw [hcanchor, hdanchor, hk, hl, Option.some_inj]
  constructor
  · intro heq
    refine (List.getElem?_inj ?_ hnodup).mp ?_
    · rw [List.length_map]
      exact (List.getElem?_eq_some_iff.mp hs).1
    · rw [List.getElem?_map, List.getElem?_map, hs, ht, Option.map_some, Option.map_some, heq]
  · intro heq
    rw [heq, ht] at hs
    rw [Option.some.inj hs]

theorem anchors_unique (sha256 : JsString → JsString) (unicode : Unicode) (markdown : JsString)
    (options : MarkdownChunkOptions) :
    (∀ o text fuel, o.length < fuel →
      freeSlug (slugify unicode text) fuel (slugify unicode text) o =
          freeSlug (slugify unicode text) (o.length + 1) (slugify unicode text) o ∧
        (freeSlug (slugify unicode text) fuel (slugify unicode text) o).2.has (slug unicode o text).1 = false) ∧
    (documentSlugs unicode markdown).Nodup ∧
    (∃ kept : List JsString, (sections unicode markdown options.mode).map (·.slug) = none :: kept.map some ∧
      kept.Sublist (documentSlugs unicode markdown)) ∧
    (∀ (i : Nat) (c : MarkdownChunk), (chunk sha256 unicode markdown options)[i]? = some c →
      ∃ (k : Nat) (s : Section), (chunkSections unicode markdown options)[i]? = some k ∧
        (sections unicode markdown options.mode)[k]? = some s ∧ c.body ∈ s.parts options) ∧
    (∀ (i j : Nat) (c d : MarkdownChunk), (chunk sha256 unicode markdown options)[i]? = some c →
      (chunk sha256 unicode markdown options)[j]? = some d →
        (c.anchor = d.anchor ↔
          (chunkSections unicode markdown options)[i]? = (chunkSections unicode markdown options)[j]?)) ∧
    (chunk sha256 unicode markdown options).map (·.ord) =
      List.range (chunk sha256 unicode markdown options).length := by
  refine ⟨fun o text fuel hfuel => ?_, slugs_nodup _, named_sections _, fun i c hc => ?_, fun i j c d => anchor_iff,
    map_ord_chunk⟩
  · have hmore := freeSlug_add (fun h => h) (@freeSlug_fresh o (slugify unicode text) _ (Nat.lt_succ_self _))
      (fuel - (o.length + 1))
    rw [show o.length + 1 + (fuel - (o.length + 1)) = fuel by omega] at hmore
    refine ⟨hmore, ?_⟩
    rw [hmore]
    refine Bool.eq_false_iff.mpr fun hhas => (@slug_fresh unicode o text) ?_
    exact keys_freeSlug (fun h => h) ▸ has_iff.1 hhas
  · obtain ⟨k, s, hk, hs, hbody, -⟩ := section_of_chunk hc
    exact ⟨k, s, hk, hs, hbody⟩

end HomelabApps.KnowledgeBase.Markdown
