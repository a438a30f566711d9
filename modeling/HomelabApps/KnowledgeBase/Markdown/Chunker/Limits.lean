import HomelabApps.KnowledgeBase.Markdown.Chunker.Splitting
import Mathlib.Data.List.Chain

namespace HomelabApps.KnowledgeBase.Markdown

open HomelabApps.Library.Utf16 HomelabApps.Library.Packing

def RowsFit (maxChars : Nat) (paragraph : JsString) : Prop :=
  let header := tableHeader (paragraph.splitOn LF) maxChars
  maxChars < paragraph.length → header ≠ [] →
    ∀ row ∈ (paragraph.splitOn LF).drop header.length,
      (joinLines header).length + 1 + row.length ≤ maxChars

/-- A piece of only white space has a piece after it that fits beside it. -/
def BlanksJoined (maxChars : Nat) : List JsString → Prop
  | [] => True
  | piece :: pieces =>
    (isNotEmpty piece = false → ∃ next rest, pieces = next :: rest ∧
      joinedLength [piece, next] ≤ maxChars) ∧ BlanksJoined maxChars pieces

structure Divisible (maxChars : Nat) (body : JsString) : Prop where
  rows : ∀ paragraph ∈ paragraphs body, RowsFit maxChars paragraph
  blanks : BlanksJoined maxChars (pieces body maxChars)

variable {body paragraph header line s t piece : JsString} {lines rows group previous texts : List JsString}
  {maxChars overlapChars fuel : Nat} {parts : List (Bin JsString)} {part : Bin JsString}

@[simp] theorem joinedLength_singleton : joinedLength [piece] = piece.length := by simp [joinedLength]

theorem length_joinParagraphs : (joinParagraphs texts).length = joinedLength texts := by
  induction texts with
  | nil => rfl
  | cons text texts ih =>
    cases texts with
    | nil => simp [joinParagraphs]
    | cons next texts =>
      rw [joinParagraphs, List.intercalate_cons_cons, ← joinParagraphs]
      simp only [List.length_append, ih, joinedLength, List.map_cons, List.sum_cons, List.length_cons,
        List.length_nil]
      omega

theorem joinedLength_pair_le {before : List JsString} :
    joinedLength [s, t] ≤ joinedLength (before ++ [s] ++ [t]) := by
  simp only [joinedLength, List.map_append, List.sum_append, List.map_cons, List.map_nil, List.sum_cons,
    List.sum_nil, List.length_append, List.length_cons, List.length_nil]
  omega

theorem length_le_joinedLength (h : piece ∈ texts) : piece.length ≤ joinedLength texts := by
  obtain ⟨before, after, rfl⟩ := List.append_of_mem h
  simp only [joinedLength, List.map_append, List.sum_append, List.map_cons, List.sum_cons]
  omega

theorem items_of_filled
    (h : Filled (paragraphFits maxChars) (overlap maxChars overlapChars) previous part piece rows) :
    part.items = [piece] ∨ joinedLength part.items ≤ maxChars := by
  rw [Bin.items, h.own]
  rcases List.eq_nil_or_concat rows with rfl | ⟨before, last, rfl⟩
  · have hcarried := h.carried
    unfold overlap at hcarried
    split at hcarried
    · exact .inl (by rw [hcarried]; rfl)
    · split at hcarried
      · exact .inl (by rw [hcarried]; rfl)
      · rename_i hfits
        exact .inr (by rw [hcarried]; omega)
  · have hlast := h.taken before last [] List.concat_eq_append
    right
    simpa [paragraphFits] using hlast

theorem chunks_length_iff
    (h : Packed (paragraphFits maxChars) (overlap maxChars overlapChars) previous parts) :
    (∀ part ∈ parts, (joinParagraphs part.items).length ≤ maxChars) ↔
      ∀ piece ∈ parts.flatMap Bin.own, piece.length ≤ maxChars := by
  simp only [length_joinParagraphs]
  constructor
  · intro hparts piece hpiece
    obtain ⟨part, hpart, hown⟩ := List.mem_flatMap.mp hpiece
    exact (length_le_joinedLength (List.mem_append_right _ hown)).trans (hparts part hpart)
  · intro hpieces part hpart
    obtain ⟨previous, piece, rest, hfilled⟩ := h.filled part hpart
    rcases items_of_filled hfilled with hitems | hitems
    · rw [hitems, joinedLength_singleton]
      exact hpieces piece (List.mem_flatMap.mpr ⟨part, hpart, by simp [hfilled.own]⟩)
    · exact hitems

theorem addRows_singleton : addRows s [line] = if s = [] then line else s ++ LF :: line := rfl

theorem length_le_addRows : s.length ≤ (addRows s rows).length := by
  induction rows generalizing s with
  | nil => exact Nat.le_refl _
  | cons row rows ih =>
    refine Nat.le_trans ?_ (ih (s := addRows s [row]))
    rw [addRows_singleton]
    split
    · simp_all
    · rw [List.length_append]
      omega

theorem length_addRows_singleton_le (h : line ∈ group) :
    (addRows s [line]).length ≤ (addRows s group).length := by
  induction group generalizing s with
  | nil => cases h
  | cons row rows ih =>
    rcases List.mem_cons.mp h with rfl | h
    · exact length_le_addRows (s := addRows s [line])
    · refine Nat.le_trans ?_ (ih h (s := addRows s [row]))
      rw [addRows_singleton, addRows_singleton, addRows_singleton]
      by_cases hs : s = []
      · rw [if_pos hs, if_pos hs]
        split
        · exact Nat.le_refl _
        · rw [List.length_append, List.length_cons]
          omega
      · rw [if_neg hs, if_neg hs, if_neg (by simp)]
        simp only [List.length_append, List.length_cons]
        omega

theorem length_le_addRows_of_mem (h : line ∈ group) : line.length ≤ (addRows s group).length := by
  refine Nat.le_trans ?_ (length_addRows_singleton_le h)
  rw [addRows_singleton]
  split
  · exact Nat.le_refl _
  · rw [List.length_append, List.length_cons]
    omega

theorem slices_of_le (h : line.length ≤ maxChars) : slices maxChars (fuel + 1) line = [line] := by
  rw [slices, if_pos h]

theorem length_slices : ∀ row ∈ slices maxChars fuel line, row.length ≤ maxChars := by
  induction fuel generalizing line with
  | zero => simp [slices]
  | succ fuel ih =>
    rw [slices]
    split
    · rename_i hshort
      simpa using hshort
    · rintro row hrow
      rcases List.mem_cons.mp hrow with rfl | hrow
      · rw [List.length_take]
        omega
      · exact ih row hrow

theorem slicedRows_fit_iff :
    (∀ row ∈ slicedRows maxChars lines, (addRows header [row]).length ≤ maxChars) ↔
      (header ≠ [] → ∀ line ∈ lines, header.length + 1 + line.length ≤ maxChars) := by
  constructor
  · intro hrows hheader line hline
    have hfit : ∀ row ∈ slices maxChars (line.length + 1) line, header.length + 1 + row.length ≤ maxChars := by
      intro row hrow
      have h := hrows row (List.mem_flatMap.mpr ⟨line, hline, hrow⟩)
      rw [addRows_singleton, if_neg hheader, List.length_append, List.length_cons] at h
      omega
    by_cases hshort : line.length ≤ maxChars
    · exact hfit line (by simp [slices_of_le hshort])
    · have h := hfit (line.take maxChars) (by rw [slices, if_neg hshort]; exact List.mem_cons_self)
      rw [List.length_take] at h
      omega
  · intro hlines row hrow
    obtain ⟨line, hline, hrow⟩ := List.mem_flatMap.mp hrow
    rw [addRows_singleton]
    split
    · exact length_slices row hrow
    · rename_i hheader
      have hfit := hlines hheader line hline
      rw [slices_of_le (by omega), List.mem_singleton] at hrow
      rw [hrow, List.length_append, List.length_cons]
      omega

theorem own_of_filled {group : Bin JsString}
    (h : Filled (rowFits maxChars header) (fun _ _ => []) previous group line rows) :
    group.own = [line] ∨ (addRows header group.own).length ≤ maxChars := by
  rw [h.own]
  rcases List.eq_nil_or_concat rows with rfl | ⟨before, last, rfl⟩
  · exact .inl rfl
  · right
    have hlast := h.taken before last [] List.concat_eq_append
    rw [h.carried, ite_self, List.nil_append, rowFits] at hlast
    rw [List.concat_eq_append, ← List.cons_append, addRows_append]
    split
    · omega
    · rw [List.length_append, List.length_cons]
      omega

theorem hardSplit_length_iff (hlong : maxChars < paragraph.length) :
    (∀ piece ∈ hardSplit paragraph maxChars, piece.length ≤ maxChars) ↔ RowsFit maxChars paragraph := by
  obtain ⟨groups, hsplit, hpacked, hrows⟩ := @hardSplit_groups paragraph _ maxChars rfl
  have hheader : tableHeader (paragraph.splitOn LF) maxChars ≠ [] ↔
      joinLines (tableHeader (paragraph.splitOn LF) maxChars) ≠ [] := by
    rcases @tableHeader_eq_nil_or (paragraph.splitOn LF) maxChars with h | ⟨_, _, _, _, _, _, h⟩
    · rw [h]
      simp [joinLines]
    · rw [h]
      simp [joinLines]
  simp only [RowsFit, hlong, forall_const, hheader]
  rw [← slicedRows_fit_iff, ← hrows, hsplit]
  constructor
  · intro hpieces row hrow
    obtain ⟨group, hgroup, hown⟩ := List.mem_flatMap.mp hrow
    exact (length_addRows_singleton_le hown).trans (hpieces _ (List.mem_map_of_mem hgroup))
  · intro hfits piece hpiece
    obtain ⟨group, hgroup, rfl⟩ := List.mem_map.mp hpiece
    obtain ⟨previous, item, rest, hfilled⟩ := hpacked.filled group hgroup
    rcases own_of_filled hfilled with hown | hlength
    · rw [hown]
      exact hfits item (List.mem_flatMap.mpr ⟨group, hgroup, by simp [hown]⟩)
    · exact hlength

theorem pieces_length_iff : (∀ piece ∈ pieces body maxChars, piece.length ≤ maxChars) ↔
    ∀ paragraph ∈ paragraphs body, RowsFit maxChars paragraph := by
  have hparagraph : ∀ paragraph, (∀ piece ∈ paragraphPieces maxChars paragraph, piece.length ≤ maxChars) ↔
      RowsFit maxChars paragraph := by
    intro paragraph
    unfold paragraphPieces
    split
    · rename_i hlong
      exact hardSplit_length_iff hlong
    · rename_i hshort
      simp only [RowsFit, hshort, false_implies, List.mem_singleton, forall_eq, iff_true]
      omega
  simp only [pieces, List.mem_flatMap, forall_exists_index, and_imp, ← hparagraph]
  exact ⟨fun h paragraph hmem piece hpiece => h piece paragraph hmem hpiece,
    fun h piece paragraph hmem hpiece => h paragraph hmem piece hpiece⟩

structure Paragraphs.Begun (s : Paragraphs) : Prop where
  inside : s.buffer = [] → s.fences.inside = false
  buffer : ∀ line ∈ s.buffer.head?, isNotEmpty line
  lines : ∀ line ∈ s.buffer, LF ∉ line
  done : ∀ paragraph ∈ s.paragraphs, ∀ line ∈ (paragraph.splitOn LF).head?, isNotEmpty line

theorem begun_flush {p : Paragraphs} (h : p.Begun) (hinside : p.fences.inside = false) : p.flush.Begun := by
  unfold Paragraphs.flush
  split
  · exact h
  · rename_i hbuffer
    refine ⟨fun _ => hinside, by simp, by simp, ?_⟩
    rintro paragraph hparagraph
    rcases List.mem_append.mp hparagraph with hparagraph | hparagraph
    · exact h.done paragraph hparagraph
    · obtain rfl := List.mem_singleton.mp hparagraph
      rw [joinLines, List.splitOn_intercalate LF h.lines hbuffer]
      exact h.buffer

theorem begun_consume {p : Paragraphs} (h : p.Begun) (hline : LF ∉ line) : (p.consume line).Begun := by
  unfold Paragraphs.consume
  split
  · rename_i hblank
    rw [Bool.and_eq_true] at hblank
    exact begun_flush h (by simpa using hblank.1)
  · rename_i hkept
    refine ⟨by simp, ?_, ?_, h.done⟩
    · cases hbuffer : p.buffer with
      | nil => simpa [h.inside hbuffer] using hkept
      | cons first rest => simpa [hbuffer] using h.buffer
    · rintro next hnext
      rcases List.mem_append.mp hnext with hnext | hnext
      · exact h.lines next hnext
      · rwa [List.mem_singleton.mp hnext]

theorem head_of_mem_paragraphs (h : paragraph ∈ paragraphs body) :
    ∀ line ∈ (paragraph.splitOn LF).head?, isNotEmpty line := by
  have hfold : ∀ (lines : List JsString) (p : Paragraphs), p.Begun → (∀ line ∈ lines, LF ∉ line) →
      (lines.foldl Paragraphs.consume p).Begun := by
    intro lines
    induction lines with
    | nil => exact fun p hp _ => hp
    | cons line lines ih =>
      intro p hp hlines
      exact ih _ (begun_consume hp (hlines line List.mem_cons_self))
        fun next hnext => hlines next (List.mem_cons_of_mem _ hnext)
  have hbegun := hfold (body.splitOn LF) {} ⟨fun _ => rfl, by simp, by simp, by simp⟩
    fun line hline => notMem_of_mem_splitOn hline
  unfold paragraphs Paragraphs.flush at h
  split at h
  · exact hbegun.done paragraph h
  · rename_i hbuffer
    rcases List.mem_append.mp h with h | h
    · exact hbegun.done paragraph h
    · obtain rfl := List.mem_singleton.mp h
      rw [joinLines, List.splitOn_intercalate LF hbegun.lines hbuffer]
      exact hbegun.buffer

def Apart (maxChars : Nat) (piece next : JsString) : Prop :=
  isNotEmpty next = false → maxChars < joinedLength [piece, next]

theorem isNotEmpty_of_solid (h : solid t ≠ []) : isNotEmpty t := by
  rw [← Bool.not_eq_false]
  exact fun ht => h (solid_eq_nil.mpr ht)

theorem solid_ne_nil (h : isNotEmpty t) : solid t ≠ [] := fun ht => by
  simp [solid_eq_nil.mp ht] at h

theorem head_paragraphPieces (h : ∀ line ∈ (paragraph.splitOn LF).head?, isNotEmpty line) :
    ∀ piece ∈ (paragraphPieces maxChars paragraph).head?, isNotEmpty piece = false → maxChars ≤ piece.length := by
  obtain ⟨first, rest, hlines⟩ : ∃ first rest, paragraph.splitOn LF = first :: rest :=
    List.exists_cons_of_ne_nil (List.splitOn_ne_nil LF paragraph)
  have hfirst : isNotEmpty first := h first (by simp [hlines])
  unfold paragraphPieces
  split
  · obtain ⟨groups, hsplit, hpacked, hrows⟩ := @hardSplit_groups paragraph _ maxChars rfl
    rintro piece hpiece hblank
    rw [hsplit] at hpiece
    cases hpacked with
    | nil => simp at hpiece
    | cons hfilled hpacked =>
      rename_i group row rows groups
      obtain rfl := Option.some_inj.mp hpiece
      have hsolid := solid_eq_nil.mpr hblank
      rw [solid_addRows, List.append_eq_nil_iff, solid_joinLines] at hsolid
      rcases @tableHeader_eq_nil_or (paragraph.splitOn LF) maxChars with
        hheader | ⟨header, separator, lines, htable, -, -, hheader⟩
      · rw [hheader, List.length_nil, List.drop_zero, hlines, slicedRows, List.flatMap_cons,
          List.flatMap_cons, hfilled.own, slices] at hrows
        split at hrows
        · obtain ⟨rfl, -⟩ := List.cons_eq_cons.mp hrows
          rw [hfilled.own, List.flatMap_cons, List.append_eq_nil_iff] at hsolid
          exact absurd hsolid.2.1 (solid_ne_nil hfirst)
        · rename_i hlong
          obtain ⟨rfl, -⟩ := List.cons_eq_cons.mp hrows
          have htake : first.take maxChars ∈ group.own := by simp [hfilled.own]
          refine Nat.le_trans ?_ (length_le_addRows_of_mem htake)
          rw [List.length_take]
          omega
      · rw [hheader, List.flatMap_cons, List.append_eq_nil_iff] at hsolid
        obtain ⟨rfl, -⟩ := List.cons_eq_cons.mp (hlines.symm.trans htable)
        exact absurd hsolid.1.1 (solid_ne_nil hfirst)
  · rintro piece hpiece hblank
    obtain rfl : paragraph = piece := by simpa using hpiece
    have hsolid := @solid_splitOn paragraph
    rw [hlines, List.flatMap_cons, solid_eq_nil.mpr hblank] at hsolid
    exact absurd (List.append_eq_nil_iff.mp hsolid).1 (solid_ne_nil hfirst)

theorem joinedLength_pair : joinedLength [s, t] = s.length + t.length + 2 := by
  simp [joinedLength]

theorem isChain_groups {groups : List (Bin JsString)}
    (h : Packed (rowFits maxChars header) (fun _ _ => []) previous groups) :
    (groups.map fun group => addRows header group.own).IsChain (Apart maxChars) := by
  induction h with
  | nil => exact .nil
  | cons hfilled hpacked ih =>
    cases hpacked with
    | nil => exact .singleton _
    | cons hnext hrest =>
      rename_i previous group row rows group' row' rows' groups
      refine List.isChain_cons_cons.mpr ⟨fun _ => ?_, ih⟩
      have hfull := hnext.full (by simp [Bin.items, hfilled.own])
      rw [Bin.items, hfilled.carried, ite_self, List.nil_append, rowFits] at hfull
      have hrow : row' ∈ group'.own := by simp [hnext.own]
      have hlength : row'.length ≤ (addRows header group'.own).length := length_le_addRows_of_mem hrow
      change maxChars < joinedLength [addRows header group.own, addRows header group'.own]
      rw [joinedLength_pair]
      omega

theorem paragraphPieces_ne_nil : paragraphPieces maxChars paragraph ≠ [] := by
  unfold paragraphPieces
  split
  · rename_i hlong
    obtain ⟨groups, hsplit, -, hrows⟩ := @hardSplit_groups paragraph _ maxChars rfl
    have hne : slicedRows maxChars _ ≠ [] := slicedRows_ne_nil (rows_ne_nil hlong)
    rw [← hrows] at hne
    rw [hsplit, ne_eq, List.map_eq_nil_iff]
    rintro rfl
    exact hne rfl
  · simp

theorem isChain_pieces : (pieces body maxChars).IsChain (Apart maxChars) := by
  have hne : [] ∉ (paragraphs body).map (paragraphPieces maxChars) := by
    rintro hnil
    obtain ⟨paragraph, -, hpieces⟩ := List.mem_map.mp hnil
    exact paragraphPieces_ne_nil hpieces
  rw [pieces, List.flatMap_def, List.isChain_flatten hne]
  constructor
  · rintro pieces hpieces
    obtain ⟨paragraph, -, rfl⟩ := List.mem_map.mp hpieces
    unfold paragraphPieces
    split
    · obtain ⟨groups, hsplit, hpacked, -⟩ := @hardSplit_groups paragraph _ maxChars rfl
      rw [hsplit]
      exact isChain_groups hpacked
    · exact .singleton _
  · refine List.Pairwise.isChain (List.pairwise_of_forall_mem_list ?_)
    rintro pieces - nexts hnexts piece - next hnext hblank
    obtain ⟨paragraph, hparagraph, rfl⟩ := List.mem_map.mp hnexts
    have hlength := head_paragraphPieces (head_of_mem_paragraphs hparagraph) next hnext hblank
    rw [joinedLength_pair]
    omega

theorem isNotEmpty_joinParagraphs : isNotEmpty (joinParagraphs texts) ↔ ∃ t ∈ texts, isNotEmpty t := by
  have hsolid : solid (joinParagraphs texts) = texts.flatMap solid := by
    induction texts with
    | nil => rfl
    | cons text texts ih =>
      cases texts with
      | nil => simp [joinParagraphs]
      | cons next texts =>
        rw [joinParagraphs, List.intercalate_cons_cons, ← joinParagraphs]
        simp [ih]
  constructor
  · intro h
    obtain ⟨u, hu⟩ := List.exists_mem_of_ne_nil _ (solid_ne_nil h)
    rw [hsolid] at hu
    obtain ⟨t, ht, hu⟩ := List.mem_flatMap.mp hu
    exact ⟨t, ht, isNotEmpty_of_solid (List.ne_nil_of_mem hu)⟩
  · rintro ⟨t, ht, hne⟩
    obtain ⟨u, hu⟩ := List.exists_mem_of_ne_nil _ (solid_ne_nil hne)
    apply isNotEmpty_of_solid
    rw [hsolid]
    exact List.ne_nil_of_mem (List.mem_flatMap.mpr ⟨t, ht, hu⟩)

theorem isNotEmpty_of_mem_rest
    (h : Filled (paragraphFits maxChars) (overlap maxChars overlapChars) previous part piece rows)
    (hchain : (piece :: rows).IsChain (Apart maxChars)) : ∀ row ∈ rows, isNotEmpty row := by
  rintro row hrow
  obtain ⟨before, after, rfl⟩ := List.append_of_mem hrow
  have hfits := h.taken before row after rfl
  obtain ⟨front, last, hlast⟩ := List.eq_nil_or_concat (piece :: before) |>.resolve_left (by simp)
  rw [List.concat_eq_append] at hlast
  rw [← List.cons_append, hlast, List.append_assoc] at hchain
  have hapart : Apart maxChars last row := (List.isChain_cons_cons.mp hchain.right_of_append).1
  rw [paragraphFits, hlast, ← List.append_assoc] at hfits
  have hpair : joinedLength [last, row] ≤ maxChars := joinedLength_pair_le.trans hfits
  cases hblank : isNotEmpty row with
  | true => rfl
  | false => exact absurd (hapart hblank) (by omega)

theorem carried_of_blank
    (h : Filled (paragraphFits maxChars) (overlap maxChars overlapChars) previous part piece rows)
    (hchain : (previous.getLast?.toList ++ [piece]).IsChain (Apart maxChars))
    (hblank : isNotEmpty piece = false) : part.carried = [] := by
  rw [h.carried]
  split
  · rfl
  · rcases List.eq_nil_or_concat (overlap maxChars overlapChars previous piece) with hnil | ⟨front, last, hlast⟩
    · exact hnil
    · rw [List.concat_eq_append] at hlast
      obtain ⟨before, hprevious⟩ := (@overlap_suffix piece previous maxChars overlapChars).1
      rw [hlast, ← List.append_assoc] at hprevious
      rw [← hprevious, List.getLast?_concat] at hchain
      have hapart : Apart maxChars last piece := (List.isChain_cons_cons.mp hchain).1
      unfold overlap at hlast
      split at hlast
      · simp at hlast
      · rename_i hfits
        rw [hlast] at hfits
        have hpair : joinedLength [last, piece] ≤ maxChars :=
          joinedLength_pair_le.trans (Nat.not_lt.mp hfits)
        exact absurd (hapart hblank) (by omega)

theorem blanksJoined_append (h : ∀ row ∈ rows, isNotEmpty row) :
    BlanksJoined maxChars (rows ++ texts) ↔ BlanksJoined maxChars texts := by
  induction rows with
  | nil => rfl
  | cons row rows ih =>
    have hrow := h row List.mem_cons_self
    rw [List.cons_append, BlanksJoined, ih fun next hnext => h next (List.mem_cons_of_mem _ hnext)]
    simp [hrow]

theorem chunks_nonempty_iff
    (h : Packed (paragraphFits maxChars) (overlap maxChars overlapChars) previous parts)
    (hchain : (previous.getLast?.toList ++ parts.flatMap Bin.own).IsChain (Apart maxChars)) :
    (∀ part ∈ parts, isNotEmpty (joinParagraphs part.items)) ↔
      BlanksJoined maxChars (parts.flatMap Bin.own) := by
  induction h with
  | nil => simp [BlanksJoined]
  | cons hfilled hpacked ih =>
    rename_i previous part piece rows parts
    rw [List.flatMap_cons, hfilled.own] at hchain ⊢
    have hown := hchain.right_of_append.left_of_append
    have hrows := isNotEmpty_of_mem_rest hfilled hown
    have hcarried : isNotEmpty piece = false → part.carried = [] := by
      have hassoc : previous.getLast?.toList ++ (piece :: rows ++ parts.flatMap Bin.own) =
          (previous.getLast?.toList ++ [piece]) ++ (rows ++ parts.flatMap Bin.own) := by simp
      rw [hassoc] at hchain
      exact carried_of_blank hfilled hchain.left_of_append
    have hlater : (part.items.getLast?.toList ++ parts.flatMap Bin.own).IsChain (Apart maxChars) := by
      obtain ⟨front, last, hlast⟩ := List.eq_nil_or_concat (piece :: rows) |>.resolve_left (by simp)
      have hafter := hchain.right_of_append
      rw [List.concat_eq_append] at hlast
      rw [hlast, List.append_assoc] at hafter
      rw [Bin.items, hfilled.own, hlast, ← List.append_assoc, List.getLast?_concat]
      exact hafter.right_of_append
    rw [List.forall_mem_cons, List.cons_append, BlanksJoined, blanksJoined_append hrows, ih hlater]
    refine and_congr_left fun _ => ?_
    rw [isNotEmpty_joinParagraphs, Bin.items, hfilled.own]
    constructor
    · rintro ⟨t, ht, hne⟩ hblank
      rw [hcarried hblank, List.nil_append] at ht
      cases rows with
      | nil => simp_all
      | cons next rest =>
        have hfits := hfilled.taken [] next rest rfl
        rw [hcarried hblank] at hfits
        exact ⟨next, rest ++ parts.flatMap Bin.own, rfl, hfits⟩
    · intro hjoined
      cases hblank : isNotEmpty piece with
      | true => exact ⟨piece, by simp, hblank⟩
      | false =>
        obtain ⟨next, rest, hnext, hfits⟩ := hjoined hblank
        cases rows with
        | cons row rows => exact ⟨row, by simp, hrows row List.mem_cons_self⟩
        | nil =>
          -- the blank piece has the chunk to itself, and the next one begins because it was full
          cases hpacked with
          | nil => simp at hnext
          | cons hbegun hpacked =>
            have hfull := hbegun.full (by simp [Bin.items, hfilled.own])
            rw [List.nil_append, List.flatMap_cons, hbegun.own] at hnext
            obtain ⟨rfl, -⟩ := List.cons_eq_cons.mp hnext
            rw [Bin.items, hfilled.own, hcarried hblank] at hfull
            exact absurd hfits hfull

theorem split_divisible_iff (hlong : maxChars < body.length) :
    (∀ part ∈ split body maxChars overlapChars, isNotEmpty part ∧ part.length ≤ maxChars) ↔
      Divisible maxChars body := by
  obtain ⟨parts, hsplit, hpacked, hown⟩ := @split_packed body _ overlapChars hlong
  have hchain := @isChain_pieces body maxChars
  rw [← hown] at hchain
  have hnonempty := chunks_nonempty_iff hpacked hchain
  have hlength := chunks_length_iff hpacked
  rw [hown] at hnonempty hlength
  rw [hsplit]
  simp only [List.forall_mem_map]
  constructor
  · intro h
    exact ⟨pieces_length_iff.mp (hlength.mp fun part hpart => (h part hpart).2),
      hnonempty.mp fun part hpart => (h part hpart).1⟩
  · intro h part hpart
    exact ⟨hnonempty.mpr h.blanks part hpart, hlength.mpr (pieces_length_iff.mpr h.rows) part hpart⟩

variable {sha256 : JsString → JsString} {unicode : Unicode} {markdown : JsString}
  {options : MarkdownChunkOptions}

theorem exists_chunk_iff {part : JsString} :
    (∃ c ∈ chunk sha256 unicode markdown options, c.body = part) ↔
      ∃ s ∈ sections unicode markdown options.mode, part ∈ s.parts options := by
  have hmem : ∀ s part, (s, part) ∈ ((sections unicode markdown options.mode).flatMap fun s =>
      (s.parts options).map fun part => (s, part)) ↔
        s ∈ sections unicode markdown options.mode ∧ part ∈ s.parts options := by
    intro s part
    simp only [List.mem_flatMap, List.mem_map, Prod.mk.injEq]
    constructor
    · rintro ⟨s', hs, part', hpart, rfl, rfl⟩
      exact ⟨hs, hpart⟩
    · rintro ⟨hs, hpart⟩
      exact ⟨s, hs, part, hpart, rfl, rfl⟩
  constructor
  · rintro ⟨c, hc, rfl⟩
    obtain ⟨i, hi, rfl⟩ := List.mem_mapIdx.mp hc
    exact ⟨_, (hmem _ _).mp (List.getElem_mem hi)⟩
  · rintro ⟨s, h⟩
    obtain ⟨i, hi, hget⟩ := List.getElem_of_mem ((hmem s part).mpr h)
    exact ⟨_, List.mem_mapIdx.mpr ⟨i, hi, rfl⟩, by rw [hget]⟩

theorem chunk_divisible_iff (hmode : options.mode = .sections) :
    (∀ c ∈ chunk sha256 unicode markdown options,
      isNotEmpty c.body ∧ c.body.length ≤ options.maxChars) ↔
    ∀ s ∈ sections unicode markdown options.mode, isNotEmpty s.body → options.maxChars < s.body.length →
      Divisible options.maxChars s.body := by
  have hparts : ∀ s : Section, (∀ part ∈ s.parts options, isNotEmpty part ∧ part.length ≤ options.maxChars) ↔
      (isNotEmpty s.body → options.maxChars < s.body.length → Divisible options.maxChars s.body) := by
    intro s
    rw [Section.parts, hmode]
    split
    · rename_i hne
      simp only [hne, forall_const]
      by_cases hlong : options.maxChars < s.body.length
      · rw [← @split_divisible_iff s.body _ options.overlapChars hlong]
        simp only [hlong, forall_const]
      · rw [split, if_pos (Nat.not_lt.mp hlong)]
        simp only [List.mem_singleton, forall_eq, hne, true_and, hlong, false_implies, iff_true]
        exact Nat.not_lt.mp hlong
    · rename_i hblank
      simp [hblank]
  simp only [← hparts]
  constructor
  · intro h s hs part hpart
    obtain ⟨c, hc, rfl⟩ := exists_chunk_iff.mpr ⟨s, hs, hpart⟩
    exact h c hc
  · intro h c hc
    obtain ⟨s, hs, hpart⟩ := exists_chunk_iff.mp ⟨c, hc, rfl⟩
    exact h s hs c.body hpart

def plain : Unicode := ⟨id, fun _ h => h, fun _ => true⟩

def plainOptions : MarkdownChunkOptions where
  externalId := utf16 "spec.md"
  title := none
  mode := .sections
  maxChars := 200
  overlapChars := 0

def longRow : JsString := utf16 "|a|\n|---|\n" ++ List.replicate 200 0x78

def spacedCode : JsString :=
  utf16 "```\n" ++ List.replicate 200 0x78 ++ [LF, LF] ++ List.replicate 200 0x78

theorem chunk_divisible_longRow :
    (∀ c ∈ chunk id plain longRow plainOptions, isNotEmpty c.body ∧ c.body.length ≤ 200) ↔
      ∀ s ∈ sections plain longRow .sections, isNotEmpty s.body → 200 < s.body.length →
        Divisible 200 s.body :=
  chunk_divisible_iff rfl

theorem chunk_beyond_limits :
    (∃ c ∈ chunk id plain longRow plainOptions, 200 < c.body.length) ∧
      ∃ c ∈ chunk id plain spacedCode plainOptions, c.body = [] := by
  decide +kernel

end HomelabApps.KnowledgeBase.Markdown
