import HomelabApps.KnowledgeBase.Markdown.Chunker
import HomelabApps.Library.Packing

namespace HomelabApps.KnowledgeBase.Markdown

open HomelabApps.Library.Utf16 HomelabApps.Library.Packing

def solid (s : JsString) : JsString := s.filter fun u => !isWhitespace u

def paragraphPieces (maxChars : Nat) (paragraph : JsString) : List JsString :=
  if maxChars < paragraph.length then hardSplit paragraph maxChars else [paragraph]

def pieces (body : JsString) (maxChars : Nat) : List JsString :=
  (paragraphs body).flatMap (paragraphPieces maxChars)

/-- A chunk repeats some trailing paragraphs of the one before it, `previous`, and adds its own run. -/
inductive Linked (overlapChars : Nat) : List JsString → List (Bin JsString) → Prop
  | nil : Linked overlapChars previous []
  | cons : part.carried <:+ previous → joinedLength part.carried ≤ overlapChars → part.own ≠ [] →
      Linked overlapChars part.items parts → Linked overlapChars previous (part :: parts)

def withHeader (header row : JsString) : JsString := if header = [] then row else header ++ LF :: row

/-- The pieces of a paragraph are its rows, each under the header, and nothing of the paragraph but
white space is lost; only an over-long table has a header. -/
structure Pieced (maxChars : Nat) (paragraph header : JsString) (rows : List JsString) : Prop where
  cut : paragraphPieces maxChars paragraph = rows.map (withHeader header)
  nonempty : rows ≠ []
  content : solid paragraph = solid header ++ rows.flatMap solid
  table : header ≠ [] → maxChars < paragraph.length ∧ isTable (paragraph.splitOn LF) ∧
    header = joinLines ((paragraph.splitOn LF).take 2)

variable {body paragraph header line s t : JsString} {lines rows group previous : List JsString}
  {maxChars overlapChars budget fuel : Nat} {parts : List (Bin JsString)}

@[simp] theorem solid_nil : solid [] = [] := rfl

@[simp] theorem solid_append : solid (s ++ t) = solid s ++ solid t := List.filter_append ..

@[simp] theorem solid_LF : solid (LF :: s) = solid s := rfl

theorem solid_eq_nil : solid s = [] ↔ isNotEmpty s = false := by
  rw [← Bool.not_eq_true, isNotEmpty_iff]
  simp [solid]

@[simp] theorem solid_joinLines : solid (joinLines lines) = lines.flatMap solid := by
  induction lines with
  | nil => rfl
  | cons line lines ih =>
    cases lines with
    | nil => simp [joinLines]
    | cons next lines =>
      rw [joinLines, List.intercalate_cons_cons, ← joinLines]
      simp [ih]

theorem joinLines_splitOn : joinLines (s.splitOn LF) = s := List.intercalate_splitOn ..

theorem solid_splitOn : (s.splitOn LF).flatMap solid = solid s := by
  rw [← solid_joinLines, joinLines_splitOn]

theorem flatten_slices (hmax : 0 < maxChars) (hfuel : line.length < fuel) :
    (slices maxChars fuel line).flatten = line := by
  induction fuel generalizing line with
  | zero => omega
  | succ fuel ih =>
    rw [slices]
    split
    · simp
    · rename_i hlong
      rw [List.flatten_cons, ih (by rw [List.length_drop]; omega), List.take_append_drop]

theorem solid_flatten : solid rows.flatten = rows.flatMap solid := by
  induction rows with
  | nil => rfl
  | cons row rows ih => simp [ih]

def slicedRows (maxChars : Nat) (lines : List JsString) : List JsString :=
  lines.flatMap fun line => slices maxChars (line.length + 1) line

theorem solid_slicedRows (hmax : 0 < maxChars) :
    (slicedRows maxChars lines).flatMap solid = lines.flatMap solid := by
  induction lines with
  | nil => rfl
  | cons line lines ih =>
    rw [slicedRows, List.flatMap_cons, ← slicedRows, List.flatMap_append, ih, ← solid_flatten,
      flatten_slices hmax (Nat.lt_succ_self _), List.flatMap_cons]

def addRows (text : JsString) (rows : List JsString) : JsString :=
  rows.foldl (fun text row => if text = [] then row else text ++ LF :: row) text

theorem addRows_append : addRows s (rows ++ [line]) = if addRows s rows = [] then line
    else addRows s rows ++ LF :: line := by
  rw [addRows, List.foldl_append]
  rfl

@[simp] theorem solid_addRows : solid (addRows s rows) = solid s ++ rows.flatMap solid := by
  induction rows generalizing s with
  | nil => simp [addRows]
  | cons row rows ih =>
    rw [addRows, List.foldl_cons, ← addRows, ih]
    split <;> simp_all

theorem addRows_of_ne_nil (h : s ≠ []) (hrows : rows ≠ []) :
    addRows s rows = s ++ LF :: joinLines rows := by
  induction rows generalizing s with
  | nil => exact absurd rfl hrows
  | cons row rows ih =>
    rw [addRows, List.foldl_cons, ← addRows, if_neg h]
    cases rows with
    | nil => simp [addRows, joinLines]
    | cons next rows =>
      rw [ih (by simp) (by simp), joinLines, joinLines, List.intercalate_cons_cons]
      simp

def rowFits (maxChars : Nat) (header : JsString) (group : List JsString) (row : JsString) : Prop :=
  (addRows header group).length + 1 + row.length ≤ maxChars

instance : Decidable (rowFits maxChars header group line) := inferInstanceAs (Decidable (_ ≤ _))

def Groups (header : JsString) (s : Bins JsString) : Pieces where
  pieces := s.done.map (addRows header)
  buffer := addRows header s.current
  hasRows := s.current ≠ []

theorem consume_groups {s : Bins JsString} :
    (Groups header s).consume maxChars header line =
      Groups header (s.add (rowFits maxChars header) (fun _ _ => []) line) := by
  unfold Pieces.consume Bins.add
  by_cases hfull : s.current ≠ [] ∧ ¬ rowFits maxChars header s.current line
  · rw [if_pos hfull, if_pos (by simpa [Groups, rowFits] using hfull)]
    simp [Groups, Pieces.flush, Pieces.add, addRows]
  · rw [if_neg hfull, if_neg (by simpa [Groups, rowFits] using hfull)]
    simp [Groups, Pieces.add, addRows_append]

theorem foldl_groups {s : Bins JsString} :
    rows.foldl (Pieces.consume maxChars header) (Groups header s) =
      Groups header (rows.foldl (Bins.add (rowFits maxChars header) fun _ _ => []) s) := by
  induction rows generalizing s with
  | nil => rfl
  | cons row rows ih => rw [List.foldl_cons, List.foldl_cons, consume_groups, ih]

theorem pieces_groups {s : Bins JsString} :
    (if (Groups header s).hasRows then (Groups header s).pieces ++ [(Groups header s).buffer]
      else (Groups header s).pieces) = s.all.map (addRows header) := by
  unfold Bins.all Groups
  by_cases hcurrent : s.current = []
  · simp [hcurrent]
  · simp [hcurrent]

theorem items_of_packed {bins : List (Bin JsString)}
    (h : Packed (rowFits maxChars header) (fun _ _ => []) previous bins) : ∀ bin ∈ bins, bin.items = bin.own := by
  rintro bin hbin
  obtain ⟨previous, item, rest, hfilled⟩ := h.filled bin hbin
  rw [Bin.items, hfilled.carried, ite_self, List.nil_append]

theorem hardSplit_groups (hheader : tableHeader (paragraph.splitOn LF) maxChars = lines) :
    ∃ groups, hardSplit paragraph maxChars = groups.map (fun group => addRows (joinLines lines) group.own) ∧
      Packed (rowFits maxChars (joinLines lines)) (fun _ _ => []) [] groups ∧
      groups.flatMap Bin.own = slicedRows maxChars ((paragraph.splitOn LF).drop lines.length) := by
  obtain ⟨groups, hall, hpacked, hrows⟩ := @packed_foldl _ (rowFits maxChars (joinLines lines))
    (fun _ _ => []) _ (slicedRows maxChars ((paragraph.splitOn LF).drop lines.length))
  refine ⟨groups, ?_, hpacked, hrows⟩
  have hstart : ({ buffer := joinLines lines } : Pieces) = Groups (joinLines lines) {} := rfl
  rw [hardSplit, hheader, hstart, ← slicedRows, foldl_groups, pieces_groups, hall, List.map_map]
  exact List.map_congr_left fun group hgroup => congrArg _ (items_of_packed hpacked group hgroup)

theorem tableHeader_eq_nil_or : tableHeader lines maxChars = [] ∨
    ∃ first second rest, lines = first :: second :: rest ∧ isTable lines ∧
      2 * (first.length + second.length + 2) < maxChars ∧ tableHeader lines maxChars = [first, second] := by
  unfold tableHeader
  split
  · rename_i first second rest
    split
    · rename_i htable
      exact .inr ⟨first, second, rest, rfl, htable.1, htable.2, rfl⟩
    · exact .inl rfl
  · exact .inl rfl

theorem tableHeader_append_drop :
    tableHeader lines maxChars ++ lines.drop (tableHeader lines maxChars).length = lines := by
  rcases @tableHeader_eq_nil_or lines maxChars with h | ⟨first, second, rest, rfl, -, -, h⟩
  · rw [h]
    rfl
  · rw [h]
    rfl

theorem slices_ne_nil : slices maxChars (fuel + 1) line ≠ [] := by
  rw [slices]
  split <;> simp

theorem slicedRows_ne_nil (h : lines ≠ []) : slicedRows maxChars lines ≠ [] := by
  cases lines with
  | nil => exact absurd rfl h
  | cons line lines => simp [slicedRows, slices_ne_nil]

theorem rows_ne_nil (h : maxChars < paragraph.length) :
    (paragraph.splitOn LF).drop (tableHeader (paragraph.splitOn LF) maxChars).length ≠ [] := by
  rcases @tableHeader_eq_nil_or (paragraph.splitOn LF) maxChars with
    hheader | ⟨first, second, rest, hlines, -, hshort, hheader⟩
  · rw [hheader]
    exact List.splitOn_ne_nil LF paragraph
  · rw [hheader, hlines]
    rintro hrest
    obtain rfl : rest = [] := hrest
    have hparagraph : paragraph = first ++ LF :: second := by
      rw [← @joinLines_splitOn paragraph, hlines]
      simp [joinLines]
    rw [hparagraph, List.length_append, List.length_cons] at h
    omega

def rowText (header : JsString) (group : List JsString) : JsString :=
  if header = [] then addRows [] group else joinLines group

theorem withHeader_rowText (h : group ≠ []) :
    withHeader header (rowText header group) = addRows header group := by
  unfold withHeader rowText
  by_cases hheader : header = []
  · rw [if_pos hheader, if_pos hheader, hheader]
  · rw [if_neg hheader, if_neg hheader, addRows_of_ne_nil hheader h]

theorem solid_rowText : solid (rowText header group) = group.flatMap solid := by
  unfold rowText
  split <;> simp

theorem pieced (hmax : 0 < maxChars) : ∃ header rows, Pieced maxChars paragraph header rows := by
  by_cases hlong : maxChars < paragraph.length
  · obtain ⟨groups, hsplit, hpacked, hrows⟩ := @hardSplit_groups paragraph _ maxChars rfl
    generalize hheader : tableHeader (paragraph.splitOn LF) maxChars = header at hsplit hpacked hrows
    have hne := hpacked.own_ne_nil
    have hlines : header ++ (paragraph.splitOn LF).drop header.length = paragraph.splitOn LF := by
      rw [← hheader, tableHeader_append_drop]
    refine ⟨joinLines header, groups.map fun group => rowText (joinLines header) group.own, ?_, ?_, ?_, ?_⟩
    · rw [paragraphPieces, if_pos hlong, hsplit, List.map_map]
      exact List.map_congr_left fun group hgroup => (withHeader_rowText (hne group hgroup)).symm
    · have hnonempty : slicedRows maxChars _ ≠ [] := slicedRows_ne_nil (rows_ne_nil hlong)
      rw [hheader, ← hrows] at hnonempty
      rintro hnil
      rw [List.map_eq_nil_iff] at hnil
      exact hnonempty (by rw [hnil]; rfl)
    · have hsolid := @solid_slicedRows ((paragraph.splitOn LF).drop header.length) _ hmax
      rw [← hrows, List.flatMap_assoc] at hsolid
      rw [List.flatMap_map, ← solid_splitOn, ← hlines, List.flatMap_append, ← hsolid, solid_joinLines]
      simp only [solid_rowText]
    · rintro hne
      rcases @tableHeader_eq_nil_or (paragraph.splitOn LF) maxChars with
        hnil | ⟨first, second, rest, hsplit, htable, -, htwo⟩
      · rw [← hheader, hnil] at hne
        exact absurd rfl hne
      · refine ⟨hlong, htable, ?_⟩
        rw [← hheader, htwo, hsplit]
        rfl
  · refine ⟨[], [paragraph], ?_, by simp, by simp, absurd rfl⟩
    simp [paragraphPieces, hlong, withHeader]

def Paragraphs.solid (s : Paragraphs) : JsString :=
  s.paragraphs.flatMap Markdown.solid ++ s.buffer.flatMap Markdown.solid

theorem solid_flush {s : Paragraphs} : s.flush.solid = s.solid ∧ s.flush.buffer = [] := by
  unfold Paragraphs.flush
  split
  · rename_i hbuffer
    exact ⟨rfl, hbuffer⟩
  · simp [Paragraphs.solid]

theorem solid_consume {s : Paragraphs} : (s.consume line).solid = s.solid ++ solid line := by
  unfold Paragraphs.consume
  split
  · rename_i hblank
    have hline : solid line = [] := solid_eq_nil.mpr (by simp_all)
    rw [solid_flush.1, hline, List.append_nil]
  · simp [Paragraphs.solid]

theorem solid_paragraphs : (paragraphs body).flatMap solid = solid body := by
  have hfold : ∀ (lines : List JsString) (s : Paragraphs),
      (lines.foldl Paragraphs.consume s).solid = s.solid ++ lines.flatMap solid := by
    intro lines
    induction lines with
    | nil => simp
    | cons line lines ih => simp [ih, solid_consume]
  have hflush := @solid_flush ((body.splitOn LF).foldl Paragraphs.consume {})
  rw [hfold, solid_splitOn, Paragraphs.solid, hflush.2] at hflush
  simpa [Paragraphs.solid, paragraphs] using hflush.1

theorem tailFrom_suffix {front kept : List JsString} (hbudget : joinedLength kept ≤ budget)
    (hprevious : front.reverse ++ kept = previous) :
    tailFrom budget front kept <:+ previous ∧ joinedLength (tailFrom budget front kept) ≤ budget := by
  have h : kept <:+ previous := ⟨_, hprevious⟩
  induction front generalizing kept with
  | nil => exact ⟨h, hbudget⟩
  | cons paragraph front ih =>
    rw [tailFrom]
    split
    · exact ⟨h, hbudget⟩
    · rename_i hfits
      rw [List.reverse_cons, List.append_assoc] at hprevious
      exact ih (by omega) hprevious ⟨_, hprevious⟩

theorem tail_suffix : tail previous budget <:+ previous ∧ joinedLength (tail previous budget) ≤ budget :=
  tailFrom_suffix (Nat.zero_le _) (by simp)

def paragraphFits (maxChars : Nat) (current : List JsString) (paragraph : JsString) : Prop :=
  joinedLength (current ++ [paragraph]) ≤ maxChars

instance {current : List JsString} : Decidable (paragraphFits maxChars current paragraph) :=
  inferInstanceAs (Decidable (_ ≤ _))

def overlap (maxChars overlapChars : Nat) (current : List JsString) (paragraph : JsString) : List JsString :=
  if maxChars < joinedLength (tail current overlapChars ++ [paragraph]) then [] else tail current overlapChars

theorem overlap_suffix : overlap maxChars overlapChars previous paragraph <:+ previous ∧
    joinedLength (overlap maxChars overlapChars previous paragraph) ≤ overlapChars := by
  unfold overlap
  split
  · exact ⟨List.nil_suffix .., Nat.zero_le _⟩
  · exact tail_suffix

def Chunks (s : Bins JsString) : Parts := ⟨s.done.map joinParagraphs, s.current⟩

theorem consume_chunks {s : Bins JsString} : (Chunks s).consume maxChars overlapChars paragraph =
    Chunks (s.add (paragraphFits maxChars) (overlap maxChars overlapChars) paragraph) := by
  unfold Parts.consume Bins.add
  by_cases hfull : s.current ≠ [] ∧ ¬ paragraphFits maxChars s.current paragraph
  · rw [if_pos hfull, if_pos (by simpa [Chunks, paragraphFits] using hfull)]
    simp only [Chunks, List.map_append, List.map_cons, List.map_nil]
    rfl
  · rw [if_neg hfull, if_neg (by simpa [Chunks, paragraphFits] using hfull)]
    simp [Chunks]

theorem foldl_chunks {s : Bins JsString} : rows.foldl (Parts.consume maxChars overlapChars) (Chunks s) =
    Chunks (rows.foldl (Bins.add (paragraphFits maxChars) (overlap maxChars overlapChars)) s) := by
  induction rows generalizing s with
  | nil => rfl
  | cons row rows ih => rw [List.foldl_cons, List.foldl_cons, consume_chunks, ih]

theorem parts_chunks {s : Bins JsString} :
    (if (Chunks s).current = [] then (Chunks s).parts
      else (Chunks s).parts ++ [joinParagraphs (Chunks s).current]) = s.all.map joinParagraphs := by
  unfold Bins.all Chunks
  by_cases hcurrent : s.current = []
  · simp [hcurrent]
  · simp [hcurrent]

theorem split_packed (h : maxChars < body.length) :
    ∃ parts, split body maxChars overlapChars = parts.map (fun part => joinParagraphs part.items) ∧
      Packed (paragraphFits maxChars) (overlap maxChars overlapChars) [] parts ∧
      parts.flatMap Bin.own = pieces body maxChars := by
  obtain ⟨parts, hall, hpacked, hown⟩ := @packed_foldl _ (paragraphFits maxChars)
    (overlap maxChars overlapChars) _ (pieces body maxChars)
  refine ⟨parts, ?_, hpacked, hown⟩
  have hpieces : ((paragraphs body).flatMap fun paragraph =>
      if maxChars < paragraph.length then hardSplit paragraph maxChars else [paragraph]) =
        pieces body maxChars := rfl
  have hstart : ({} : Parts) = Chunks {} := rfl
  rw [split, if_neg (by omega), hpieces, hstart]
  dsimp only
  rw [foldl_chunks, parts_chunks, hall, List.map_map]
  rfl

theorem Linked.of_packed
    (h : Packed (paragraphFits maxChars) (overlap maxChars overlapChars) previous parts) :
    Linked overlapChars previous parts := by
  induction h with
  | nil => exact .nil
  | cons hfilled hpacked ih =>
    refine .cons ?_ ?_ (by simp [hfilled.own]) ih
    · rw [hfilled.carried]
      split
      · exact List.nil_suffix ..
      · exact overlap_suffix.1
    · rw [hfilled.carried]
      split
      · exact Nat.zero_le _
      · exact overlap_suffix.2

theorem split_partitions (hmax : 0 < maxChars) :
    (body.length ≤ maxChars → split body maxChars overlapChars = [body]) ∧
    (maxChars < body.length → ∃ parts,
      split body maxChars overlapChars = parts.map (fun part => joinParagraphs part.items) ∧
      Linked overlapChars [] parts ∧ parts.flatMap Bin.own = pieces body maxChars) ∧
    solid body = (paragraphs body).flatMap solid ∧
    ∀ paragraph ∈ paragraphs body, ∃ header rows, Pieced maxChars paragraph header rows := by
  refine ⟨fun h => ?_, fun h => ?_, solid_paragraphs.symm, fun paragraph _ => pieced hmax⟩
  · rw [split, if_pos h]
  · obtain ⟨parts, hsplit, hpacked, hown⟩ := @split_packed body _ overlapChars h
    exact ⟨parts, hsplit, .of_packed hpacked, hown⟩

/-- A paragraph over the limit, a short one, and one that the short one is repeated before. -/
def longSection : JsString :=
  joinParagraphs [List.replicate 250 0x62, utf16 "c", List.replicate 180 0x64]

theorem split_partitions_repeated :
    split longSection 200 20 = [List.replicate 200 0x62, joinParagraphs [List.replicate 50 0x62, utf16 "c"],
        joinParagraphs [utf16 "c", List.replicate 180 0x64]] ∧
      ∃ parts, split longSection 200 20 = parts.map (fun part => joinParagraphs part.items) ∧ Linked 20 [] parts ∧
        parts.flatMap Bin.own = [List.replicate 200 0x62, List.replicate 50 0x62, utf16 "c", List.replicate 180 0x64] := by
  have hsplit : split longSection 200 20 = [List.replicate 200 0x62,
      joinParagraphs [List.replicate 50 0x62, utf16 "c"], joinParagraphs [utf16 "c", List.replicate 180 0x64]] := by
    decide +kernel
  have hpieces : pieces longSection 200 =
      [List.replicate 200 0x62, List.replicate 50 0x62, utf16 "c", List.replicate 180 0x64] := by
    decide +kernel
  have h := (@split_partitions longSection 200 20 (by decide)).2.1 (by decide +kernel)
  rw [hpieces] at h
  exact ⟨hsplit, h⟩

def spacedSection : Section := ⟨[], none, [[0xA0], utf16 "a"]⟩

theorem split_spacedSection :
    (∀ unicode, sections unicode [0xA0, LF, 0x61] .sections = [spacedSection]) ∧
      ¬ ∃ parts, split spacedSection.body 200 0 = parts.map (fun part => joinParagraphs part.items) ∧
        Linked 0 [] parts ∧ parts.flatMap Bin.own = pieces spacedSection.body 200 := by
  refine ⟨fun unicode => by rfl, ?_⟩
  rintro ⟨parts, hsplit, hlinked, hown⟩
  rw [show split spacedSection.body 200 0 = [[0xA0, LF, 0x61]] by decide] at hsplit
  rw [show pieces spacedSection.body 200 = [[0x61]] by decide] at hown
  cases hlinked with
  | nil => cases hsplit
  | cons hsuffix hbudget hne hlinked =>
    rename_i parts part
    obtain ⟨hbody, hparts⟩ := List.cons_eq_cons.mp hsplit
    obtain rfl := List.map_eq_nil_iff.mp hparts.symm
    rw [List.flatMap_cons, List.flatMap_nil, List.append_nil] at hown
    have hitems : part.items = [[0x61]] := by rw [Bin.items, List.suffix_nil.mp hsuffix, hown, List.nil_append]
    have hjoined : joinParagraphs part.items = [0x61] := by rw [hitems]; rfl
    exact absurd (hbody.trans hjoined) (by decide)

end HomelabApps.KnowledgeBase.Markdown
