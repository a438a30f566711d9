import HomelabApps.KnowledgeBase.NoteRenderService.Slug
import HomelabApps.Library.Yaml

namespace HomelabApps.KnowledgeBase.Notes

open HomelabApps.Library
open HomelabApps.Library.Utf16
open HomelabApps.Library.Json (Value quote escape)
open HomelabApps.Library.Yaml (CoreSchema Node Header isResolved isPlain isQuotable lineText headerText)
open Markdown (HYPHEN LF CR joinLines isBlank)
open Store (dateParts?)
open Git (isoDay)

variable {s t line closing rest date author : JsString} {lines : List JsString} {u : UInt16}
  {request : NotesPostRequest} {parseYaml : JsString → Except String Value}

theorem afterNewline_of_unit (hlf : u ≠ LF) (hcr : u ≠ CR) : afterNewline (u :: s) = none := by
  rw [afterNewline, if_neg hlf, if_neg fun h => hcr h.1]

theorem shortestHeader_line (hlf : LF ∉ line) (hcr : CR ∉ line) :
    shortestHeader (line ++ s) = (shortestHeader s).map fun (header, rest) => (line ++ header, rest) := by
  induction line with
  | nil =>
    cases h : shortestHeader s with
    | none => simp [h]
    | some header => simp [h]
  | cons u line ih =>
    rw [List.mem_cons, not_or] at hlf hcr
    have hnone : (afterNewline (u :: (line ++ s))).bind afterClosing = none := by
      rw [afterNewline_of_unit (Ne.symm hlf.1) (Ne.symm hcr.1)]
      rfl
    rw [List.cons_append, shortestHeader, hnone, ih hlf.2 hcr.2]
    cases shortestHeader s with
    | none => rfl
    | some header => rfl

theorem afterClosing_of_unit (hdash : u ≠ 0x2D) (hdot : u ≠ 0x2E) : afterClosing (u :: s) = none := by
  have hmarks : ((utf16 "---").isPrefixOf (u :: s) || (utf16 "...").isPrefixOf (u :: s)) = false := by
    rw [Bool.or_eq_false_iff]
    constructor
    · exact Bool.and_eq_false_iff.mpr (.inl (beq_eq_false_iff_ne.mpr (Ne.symm hdash)))
    · exact Bool.and_eq_false_iff.mpr (.inl (beq_eq_false_iff_ne.mpr (Ne.symm hdot)))
  rw [afterClosing, hmarks]
  rfl

theorem shortestHeader_newline : shortestHeader (LF :: s) =
    match afterClosing s with
    | some rest => some ([], rest)
    | none => (shortestHeader s).map fun (header, rest) => (LF :: header, rest) := by
  have hbind : (afterNewline (LF :: s)).bind afterClosing = afterClosing s := by
    rw [afterNewline, if_pos rfl, Option.bind_some]
  cases h : afterClosing s with
  | none => simp only [shortestHeader, hbind, h]
  | some rest => simp only [shortestHeader, hbind, h]

theorem shortestHeader_lines (hne : lines ≠ [])
    (hlines : ∀ line ∈ lines, LF ∉ line ∧ CR ∉ line ∧ ∃ u t, line = u :: t ∧ u ≠ 0x2D ∧ u ≠ 0x2E)
    (hclosing : afterClosing closing = some rest) :
    shortestHeader (joinLines lines ++ LF :: closing) = some (joinLines lines, rest) := by
  induction lines with
  | nil => exact absurd rfl hne
  | cons line lines ih =>
    obtain ⟨⟨hlf, hcr, -⟩, hrest⟩ := List.forall_mem_cons.mp hlines
    cases lines with
    | nil =>
      have hjoin : joinLines [line] = line := by simp [joinLines]
      rw [hjoin, shortestHeader_line hlf hcr, shortestHeader_newline, hclosing]
      simp
    | cons next lines =>
      have hjoin : joinLines (line :: next :: lines) = line ++ LF :: joinLines (next :: lines) := by
        simp [joinLines, List.intercalate_cons_cons]
      have hopen : afterClosing (joinLines (next :: lines) ++ LF :: closing) = none := by
        obtain ⟨-, -, u, t, hnext, hdash, hdot⟩ := hrest next List.mem_cons_self
        have hhead : ∃ tail, joinLines (next :: lines) ++ LF :: closing = u :: tail := by
          cases lines with
          | nil => exact ⟨t ++ LF :: closing, by simp [joinLines, hnext]⟩
          | cons third lines =>
            exact ⟨t ++ LF :: joinLines (third :: lines) ++ LF :: closing,
              by simp [joinLines, List.intercalate_cons_cons, hnext]⟩
        obtain ⟨tail, htail⟩ := hhead
        rw [htail, afterClosing_of_unit hdash hdot]
      rw [hjoin, List.append_assoc, List.cons_append, shortestHeader_line hlf hcr, shortestHeader_newline, hopen,
        ih (List.cons_ne_nil _ _) hrest]
      rfl

theorem matchFrontmatter_lines (hne : lines ≠ [])
    (hlines : ∀ line ∈ lines, LF ∉ line ∧ CR ∉ line ∧ ∃ u t, line = u :: t ∧ u ≠ 0x2D ∧ u ≠ 0x2E) :
    matchFrontmatter (utf16 "---" ++ LF :: (joinLines lines ++ LF :: (utf16 "---" ++ LF :: rest))) =
      some (some (joinLines lines), rest) := by
  have hclosing : afterClosing (utf16 "---" ++ LF :: rest) = some rest := rfl
  have hheader := shortestHeader_lines hne hlines hclosing
  have hopening : afterNewline (((utf16 "---" ++ LF :: (joinLines lines ++ LF :: (utf16 "---" ++ LF :: rest))).drop
      3).dropWhile Markdown.isBlank) = some (joinLines lines ++ LF :: (utf16 "---" ++ LF :: rest)) := rfl
  have hbom : (utf16 "---" ++ LF :: (joinLines lines ++ LF :: (utf16 "---" ++ LF :: rest))).head? ≠ some BOM := by
    intro h
    exact absurd (Option.some.inj h) (by decide)
  have hdashes : (utf16 "---").isPrefixOf
      (utf16 "---" ++ LF :: (joinLines lines ++ LF :: (utf16 "---" ++ LF :: rest))) = true :=
    List.isPrefixOf_iff_prefix.mpr (List.prefix_append _ _)
  rw [matchFrontmatter, if_neg hbom, if_pos hdashes, hopening]
  dsimp only
  rw [hheader]

theorem isAlphanumeric_of_letter (h : (isLetter u || isDigit u) = true) : Yaml.isAlphanumeric u = true := by
  simp only [isLetter, isDigit, Bool.or_eq_true] at h
  simp only [Yaml.isAlphanumeric, Yaml.isDigit, Yaml.isLower, Bool.or_eq_true]
  tauto

theorem isPlainUnit_of_username (h : isUsernameUnit u = true) : Yaml.isPlainUnit u = true := by
  have hdash : (utf16 "._-@+/").all Yaml.isPlainUnit = true := by decide
  replace hdash := List.all_eq_true.mp hdash
  simp only [isUsernameUnit, isWordUnit, Bool.or_eq_true, decide_eq_true_eq] at h
  rcases h with (((((h | h) | rfl) | rfl) | rfl) | rfl) | rfl
  · exact Yaml.isPlainUnit_of_isAlphanumeric (isAlphanumeric_of_letter (by rw [h, Bool.true_or]))
  · exact Yaml.isPlainUnit_of_isAlphanumeric (isAlphanumeric_of_letter (by rw [h, Bool.or_true]))
  · exact hdash _ (by decide)
  · exact hdash _ (by decide)
  · exact hdash _ (by decide)
  · exact hdash _ (by decide)
  · exact hdash _ (by decide)

theorem isPlain_of_isRepoName (h : isRepoName s = true) : isPlain s = true := by
  cases s with
  | nil => cases h
  | cons u s =>
    simp only [isRepoName, Bool.and_eq_true, List.all_eq_true] at h
    have hhead := isAlphanumeric_of_letter h.1
    rw [isPlain, hhead, Bool.true_and, List.all_eq_true]
    intro v hv
    have hunit := h.2 v hv
    apply isPlainUnit_of_username
    simp only [isUsernameUnit, isWordUnit, Bool.or_eq_true, decide_eq_true_eq] at hunit ⊢
    tauto

theorem isPlain_of_isPlainScalar (h : isPlainScalar s = true) : isPlain s = true := by
  cases s with
  | nil => cases h
  | cons u s =>
    simp only [isPlainScalar, Bool.and_eq_true, List.all_eq_true] at h
    have hhead := isAlphanumeric_of_letter h.1
    rw [isPlain, hhead, Bool.true_and, List.all_eq_true]
    exact fun v hv => isPlainUnit_of_username (h.2 v hv)

theorem plain_of_isUsernameUnit (h : isUsernameUnit u = true) : 0x20 ≤ u ∧ u < 0x7F ∧ u ≠ 0x22 ∧ u ≠ 0x5C := by
  have hrange := ascii_of_isUsernameUnit h
  refine ⟨UInt16.le_iff_toNat_le.mpr (Nat.le_trans (by decide) hrange.1),
    UInt16.lt_iff_toNat_lt.mpr (Nat.lt_of_le_of_lt hrange.2 (by decide)), ?_, ?_⟩
  · rintro rfl
    cases h
  · rintro rfl
    cases h

theorem isQuotable_of_username (h : ∀ u ∈ s, isUsernameUnit u = true) : isQuotable s = true := by
  refine List.all_eq_true.mpr fun u hu => ?_
  obtain ⟨hlow, hhigh, hquote, hescape⟩ := plain_of_isUsernameUnit (h u hu)
  simp [hlow, hhigh, hescape, show u ≠ Yaml.QUOTE from hquote]

theorem escapeUnit_of_username (h : isUsernameUnit u = true) : Json.escapeUnit u = [u] := by
  obtain ⟨hlow, hhigh, hquote, hescape⟩ := plain_of_isUsernameUnit h
  have hcontrol : ∀ v : UInt16, v < 0x20 → u ≠ v := fun v hv huv => UInt16.not_le.mpr hv (huv ▸ hlow)
  have hsurrogate : isSurrogate u = false := by
    rw [isSurrogate, Bool.and_eq_false_iff, decide_eq_false_iff_not]
    exact .inl (UInt16.not_le.mpr (UInt16.lt_trans hhigh (by decide)))
  rw [Json.escapeUnit, if_neg hquote, if_neg hescape, if_neg (hcontrol 0x8 (by decide)), if_neg (hcontrol 0x9 (by decide)),
    if_neg (hcontrol 0xA (by decide)), if_neg (hcontrol 0xC (by decide)), if_neg (hcontrol 0xD (by decide)), hsurrogate,
    if_neg (by simpa using hlow)]

theorem quote_of_username (h : ∀ u ∈ s, isUsernameUnit u = true) : quote s = Node.text (.quoted s) := by
  have hescape : escape s = s := by
    induction s with
    | nil => rfl
    | cons u s ih =>
      obtain ⟨hu, hrest⟩ := List.forall_mem_cons.mp h
      have hhigh : isHigh u = false := by
        rw [isHigh, Bool.and_eq_false_iff, decide_eq_false_iff_not]
        exact .inl (UInt16.not_le.mpr (UInt16.lt_trans (plain_of_isUsernameUnit hu).2.1 (by decide)))
      cases s with
      | nil => rw [escape, escapeUnit_of_username hu]
      | cons v s =>
        rw [escape, hhigh, Bool.false_and, if_neg Bool.false_ne_true, escapeUnit_of_username hu, ih hrest]
        rfl
  rw [quote, hescape]
  rfl

theorem isDigit_of_digits {n : Nat} (h : Store.digits? s = some n) : ∀ u ∈ s, Yaml.isDigit u = true := by
  induction s generalizing n with
  | nil => exact List.forall_mem_nil _
  | cons u s ih =>
    rw [Store.digits?] at h
    cases hu : Store.digit? u with
    | none =>
      rw [hu] at h
      cases h
    | some d =>
      cases hs : Store.digits? s with
      | none =>
        rw [hu, hs] at h
        cases h
      | some m =>
        refine List.forall_mem_cons.mpr ⟨?_, ih hs⟩
        rw [Store.digit?] at hu
        split at hu
        · rename_i hdigit
          rw [Yaml.isDigit, Bool.and_eq_true, decide_eq_true_eq, decide_eq_true_eq]
          exact hdigit
        · cases hu

theorem digits_of_isCalendarDate (h : isCalendarDate date = true) : ∃ year month day : JsString,
    date = year ++ HYPHEN :: month ++ HYPHEN :: day ∧ year.length = 4 ∧ month.length = 2 ∧ day.length = 2 ∧
      ∀ u ∈ year ++ month ++ day, Yaml.isDigit u = true := by
  rw [isCalendarDate] at h
  split at h
  · rename_i year month day hparts
    unfold dateParts? at hparts
    split at hparts
    · rename_i y1 y2 y3 y4 m1 m2 d1 d2
      obtain ⟨_, hyear, hparts⟩ := Option.bind_eq_some_iff.mp hparts
      obtain ⟨_, hmonth, hparts⟩ := Option.bind_eq_some_iff.mp hparts
      obtain ⟨_, hday, -⟩ := Option.bind_eq_some_iff.mp hparts
      refine ⟨[y1, y2, y3, y4], [m1, m2], [d1, d2], rfl, rfl, rfl, rfl, ?_⟩
      rw [List.forall_mem_append, List.forall_mem_append]
      exact ⟨⟨isDigit_of_digits hyear, isDigit_of_digits hmonth⟩, isDigit_of_digits hday⟩
    · cases hparts
  · cases h

theorem isPlainUnit_of_isDigit (h : Yaml.isDigit u = true) : Yaml.isPlainUnit u = true :=
  Yaml.isPlainUnit_of_isAlphanumeric (by rw [Yaml.isAlphanumeric, h, Bool.true_or, Bool.true_or])

theorem isPlainUnit_of_isCalendarDate (h : isCalendarDate date = true) : ∀ u ∈ date, Yaml.isPlainUnit u = true := by
  obtain ⟨year, month, day, rfl, -, -, -, hdigits⟩ := digits_of_isCalendarDate h
  rw [List.forall_mem_append, List.forall_mem_append] at hdigits
  have hdash : Yaml.isPlainUnit HYPHEN = true := by decide
  rw [List.append_assoc, List.cons_append, List.forall_mem_append, List.forall_mem_cons, List.forall_mem_append,
    List.forall_mem_cons]
  exact ⟨fun u hu => isPlainUnit_of_isDigit (hdigits.1.1 u hu), hdash,
    fun u hu => isPlainUnit_of_isDigit (hdigits.1.2 u hu), hdash, fun u hu => isPlainUnit_of_isDigit (hdigits.2 u hu)⟩

theorem isPlain_of_isCalendarDate (h : isCalendarDate date = true) : isPlain date = true ∧ isResolved date = false := by
  have hunits := isPlainUnit_of_isCalendarDate h
  obtain ⟨year, month, day, rfl, hyear, -, -, hdigits⟩ := digits_of_isCalendarDate h
  rw [List.forall_mem_append, List.forall_mem_append] at hdigits
  constructor
  · cases year with
    | nil => cases hyear
    | cons u year =>
      have hhead : Yaml.isAlphanumeric u = true := by
        rw [Yaml.isAlphanumeric, hdigits.1.1 u List.mem_cons_self, Bool.true_or, Bool.true_or]
      simp only [List.cons_append] at hunits ⊢
      rw [isPlain, hhead, Bool.true_and, List.all_eq_true]
      exact fun v hv => hunits v (List.mem_cons_of_mem _ hv)
  · rw [List.append_assoc, List.cons_append]
    exact Yaml.isResolved_of_digits hdigits.1.1 (by omega) (by decide) (by decide)

theorem isPlainUnit_of_isKebab {start : Bool} (h : isKebab start s = true) : ∀ u ∈ s, Yaml.isPlainUnit u = true := by
  induction s generalizing start with
  | nil => exact List.forall_mem_nil _
  | cons u s ih =>
    rw [isKebab] at h
    split at h
    · rename_i hu
      refine List.forall_mem_cons.mpr ⟨?_, ih h⟩
      apply Yaml.isPlainUnit_of_isAlphanumeric
      simp only [isSlugUnit, isDigit, Bool.or_eq_true] at hu
      simp only [Yaml.isAlphanumeric, Yaml.isDigit, Yaml.isLower, Bool.or_eq_true]
      tauto
    · simp only [Bool.and_eq_true, decide_eq_true_eq] at h
      obtain ⟨⟨rfl, -⟩, hrest⟩ := h
      exact List.forall_mem_cons.mpr ⟨by decide, ih hrest⟩

theorem isPlain_of_isNoteId (h : isNoteId s = true) : isPlain s = true ∧ isResolved s = false := by
  simp only [isNoteId, Bool.and_eq_true, decide_eq_true_eq] at h
  obtain ⟨⟨hid, hslug⟩, hdate⟩ := h
  generalize (s.drop RAW_AREA.length).take 10 = date at hid hdate
  generalize List.take _ _ = slug at hid hslug
  have hunits : ∀ u ∈ s, Yaml.isPlainUnit u = true := by
    rw [hid, List.append_assoc, List.cons_append, List.forall_mem_append, List.forall_mem_append, List.forall_mem_cons,
      List.forall_mem_append]
    have harea : RAW_AREA.all Yaml.isPlainUnit = true := by decide
    have hextension : MARKDOWN_EXTENSION.all Yaml.isPlainUnit = true := by decide
    exact ⟨⟨List.all_eq_true.mp harea, isPlainUnit_of_isCalendarDate hdate⟩, rfl, isPlainUnit_of_isKebab hslug,
      List.all_eq_true.mp hextension⟩
  have hhead : s = 0x72 :: (utf16 "aw/" ++ date ++ HYPHEN :: slug ++ MARKDOWN_EXTENSION) := hid
  constructor
  · rw [hhead] at hunits ⊢
    rw [isPlain, List.all_eq_true.mpr fun v hv => hunits v (List.mem_cons_of_mem _ hv)]
    rfl
  · rw [hhead]
    exact Yaml.isResolved_of_letter (by decide) (by decide)

def authorNode (author : JsString) : Node := if isPlainScalar author then .plain author else .quoted author

def noteHeader (request : NotesPostRequest) (date author : JsString) : Header :=
  [(utf16 "date", .plain date), (utf16 "type", .plain request.type.lower),
    (utf16 "repos", .list (request.repos.getD [])), (utf16 "source", .plain (utf16 "chat"))] ++
  request.supersedes.toList.map (fun supersedes => (utf16 "supersedes", .plain supersedes)) ++
  [(utf16 "author", authorNode author)]

def noteMetadata (request : NotesPostRequest) (date author : JsString) : Record :=
  [(utf16 "date", .string date), (utf16 "type", .string request.type.lower),
    (utf16 "repos", .array ((request.repos.getD []).map .string)), (utf16 "source", .string (utf16 "chat"))] ++
  request.supersedes.toList.map (fun supersedes => (utf16 "supersedes", .string supersedes)) ++
  [(utf16 "author", .string author)]

theorem noteFrontmatter_eq (hauthor : ∀ u ∈ author, isUsernameUnit u = true) :
    noteFrontmatter request date (request.repos.getD []) author =
      utf16 "---" :: ((noteHeader request date author).map lineText ++ [utf16 "---"]) := by
  have hline : (if isPlainScalar author then author else quote author) = (authorNode author).text := by
    rw [authorNode]
    split
    · rfl
    · exact quote_of_username hauthor
  rw [noteFrontmatter, hline, noteHeader]
  cases request.supersedes with
  | none => rfl
  | some supersedes => rfl

theorem isResolved_lower (type : NoteType) : isPlain type.lower = true ∧ isResolved type.lower = false := by
  cases type <;> exact ⟨by decide, by decide⟩

structure Accepted (request : NotesPostRequest) (date slug : JsString) : Prop where
  date : isCalendarDate date = true
  repos : ∀ repo ∈ request.repos.getD [], isRepoName repo = true
  supersedes : ∀ supersedes ∈ request.supersedes, isNoteId supersedes = true
  slug : slug ≠ []

theorem ne_nil_of_isNotEmpty (h : isNotEmpty s = true) : s ≠ [] := by
  rintro rfl
  cases h

theorem accepted_of_noteProblems {slug : JsString} {alternatives links : List JsString}
    (h : noteProblems request date slug (request.repos.getD []) alternatives links = []) :
    Accepted request date slug := by
  simp only [noteProblems, List.append_eq_nil_iff] at h
  obtain ⟨⟨⟨⟨⟨⟨hdate, -⟩, -⟩, hrepos⟩, hsupersedes⟩, -⟩, hslug⟩ := h
  constructor
  · by_contra hnot
    rw [if_neg hnot] at hdate
    cases hdate
  · by_contra hnot
    rw [if_neg (by simpa using hnot)] at hrepos
    cases hrepos
  · by_contra hnot
    rw [if_neg (fun hall => hnot (by simpa [Option.all_eq_true] using hall))] at hsupersedes
    cases hsupersedes
  · by_contra hnot
    rw [if_neg (fun hne => ne_nil_of_isNotEmpty hne hnot)] at hslug
    cases hslug

theorem valid_noteHeader {slug : JsString} (h : Accepted request date slug)
    (hauthor : ∀ u ∈ author, isUsernameUnit u = true) : (noteHeader request date author).Valid := by
  have hnode : (authorNode author).isValid := by
    rw [authorNode]
    split
    · rename_i hplain
      exact isPlain_of_isPlainScalar hplain
    · exact isQuotable_of_username hauthor
  have hrepos : (Node.list (request.repos.getD [])).isValid :=
    List.all_eq_true.mpr fun repo hrepo => isPlain_of_isRepoName (h.repos repo hrepo)
  have hdate := (isPlain_of_isCalendarDate h.date).1
  have htype := (isResolved_lower request.type).1
  cases hsupersedes : request.supersedes with
  | none =>
    have hheader : noteHeader request date author =
        [(utf16 "date", .plain date), (utf16 "type", .plain request.type.lower),
          (utf16 "repos", .list (request.repos.getD [])), (utf16 "source", .plain (utf16 "chat")),
          (utf16 "author", authorNode author)] := by rw [noteHeader, hsupersedes]; rfl
    rw [hheader]
    exact {
      nonempty := List.cons_ne_nil _ _
      keys := by simp only [List.map_cons, List.map_nil]; decide
      isKey := by simp only [List.forall_mem_cons]; decide
      nodes := by
        simp only [List.forall_mem_cons]
        exact ⟨hdate, htype, hrepos, by decide, hnode, fun _ h => by cases h⟩ }
  | some supersedes =>
    have hid := (isPlain_of_isNoteId (h.supersedes supersedes hsupersedes)).1
    have hheader : noteHeader request date author =
        [(utf16 "date", .plain date), (utf16 "type", .plain request.type.lower),
          (utf16 "repos", .list (request.repos.getD [])), (utf16 "source", .plain (utf16 "chat")),
          (utf16 "supersedes", .plain supersedes), (utf16 "author", authorNode author)] := by
      rw [noteHeader, hsupersedes]; rfl
    rw [hheader]
    exact {
      nonempty := List.cons_ne_nil _ _
      keys := by simp only [List.map_cons, List.map_nil]; decide
      isKey := by simp only [List.forall_mem_cons]; decide
      nodes := by
        simp only [List.forall_mem_cons]
        exact ⟨hdate, htype, hrepos, by decide, hid, hnode, fun _ h => by cases h⟩ }

theorem render_ok {titles : TitleUnicode} {today : JsString} {note : RenderedNote}
    (h : render titles today request author = .ok note) :
    Accepted request (request.date.getD today) (slug titles (trim request.title)) ∧
      note.id = RAW_AREA ++ request.date.getD today ++ HYPHEN :: slug titles (trim request.title) ++ MARKDOWN_EXTENSION ∧
      ∃ body, note.content =
        joinLines (noteFrontmatter request (request.date.getD today) (request.repos.getD []) author) ++ LF :: body := by
  rw [render] at h
  split at h
  · cases h
  · rename_i hproblems
    cases h
    refine ⟨accepted_of_noteProblems (not_not.mp hproblems), rfl, utf16 "\n# " ++ (trim request.title ++
      (utf16 "\n\n" ++ ((utf16 "\n\n").intercalate (noteSections request
        (((request.alternativesRejected.getD []).map trim).filter isNotEmpty)
        (((request.links.getD []).map trim).filter isNotEmpty)) ++ utf16 "\n"))), ?_⟩
    simp only [List.append_assoc]
    rfl

theorem isNoteId_of_parts {slug : JsString} (hdate : isCalendarDate date = true) (hslug : isKebab true slug = true) :
    isNoteId (RAW_AREA ++ date ++ HYPHEN :: slug ++ MARKDOWN_EXTENSION) = true := by
  have hlength : date.length = 10 := by
    obtain ⟨year, month, day, rfl, hyear, hmonth, hday, -⟩ := digits_of_isCalendarDate hdate
    simp [hyear, hmonth, hday]
  have hrest : (RAW_AREA ++ date ++ HYPHEN :: slug ++ MARKDOWN_EXTENSION).drop (RAW_AREA.length + 10) =
      HYPHEN :: slug ++ MARKDOWN_EXTENSION := by
    rw [List.append_assoc, List.drop_left' (by rw [List.length_append, hlength])]
  have htake : ((RAW_AREA ++ date ++ HYPHEN :: slug ++ MARKDOWN_EXTENSION).drop RAW_AREA.length).take 10 = date := by
    rw [List.append_assoc, List.append_assoc, List.drop_left, List.take_left' hlength]
  have hname : ((HYPHEN :: slug ++ MARKDOWN_EXTENSION).drop 1).take
      ((HYPHEN :: slug ++ MARKDOWN_EXTENSION).length - 1 - MARKDOWN_EXTENSION.length) = slug := by
    rw [List.cons_append, List.drop_succ_cons, List.drop_zero]
    exact List.take_left' (by simp)
  rw [isNoteId, hrest, htake, hname]
  simp [hdate, hslug]

theorem resolve_eq_string (yaml : CoreSchema parseYaml) (h : isPlain s = true) :
    yaml.resolve s = .string s ↔ isResolved s = false := by
  constructor
  · intro hstring
    rw [← Bool.not_eq_true]
    exact fun hresolved => yaml.resolved h hresolved s hstring
  · exact yaml.string h

theorem parseFrontmatter_render (yaml : CoreSchema parseYaml) {titles : TitleUnicode} {today : JsString}
    {note : RenderedNote} (hauthor : ∀ u ∈ author, isUsernameUnit u = true)
    (h : render titles today request author = .ok note) :
    (parseFrontmatter parseYaml note.content).error = none ∧ (parseFrontmatter parseYaml note.content).data =
      (noteHeader request (request.date.getD today) author).map fun entry => (entry.1, entry.2.value yaml.resolve) := by
  obtain ⟨haccepted, -, body, hcontent⟩ := render_ok h
  have hvalid := valid_noteHeader haccepted hauthor
  have hlines : ∀ line ∈ (noteHeader request (request.date.getD today) author).map lineText,
      LF ∉ line ∧ CR ∉ line ∧ ∃ u t, line = u :: t ∧ u ≠ 0x2D ∧ u ≠ 0x2E := by
    intro line hline
    obtain ⟨entry, hentry, rfl⟩ := List.mem_map.mp hline
    have hkey := hvalid.isKey entry hentry
    have hnode := hvalid.nodes entry hentry
    refine ⟨Yaml.notMem_lineText hkey hnode (by decide), Yaml.notMem_lineText hkey hnode (by decide), ?_⟩
    cases hname : entry.1 with
    | nil =>
      rw [hname] at hkey
      cases hkey
    | cons u key =>
      have hdash := Yaml.notMem_key (u := 0x2D) hkey (by decide)
      have hdot := Yaml.notMem_key (u := 0x2E) hkey (by decide)
      rw [hname, List.mem_cons, not_or] at hdash hdot
      exact ⟨u, key ++ Yaml.COLON :: Yaml.SPACE :: entry.2.text, by rw [lineText, hname]; rfl, Ne.symm hdash.1,
        Ne.symm hdot.1⟩
  have hne : (noteHeader request (request.date.getD today) author).map lineText ≠ [] := by
    simpa using hvalid.nonempty
  have hmatch := @matchFrontmatter_lines body _ hne hlines
  have hshape : note.content = utf16 "---" ++ LF ::
      (joinLines ((noteHeader request (request.date.getD today) author).map lineText) ++
        LF :: (utf16 "---" ++ LF :: body)) := by
    rw [hcontent, noteFrontmatter_eq hauthor]
    generalize (noteHeader request (request.date.getD today) author).map lineText = lines at hne
    have hjoin : ∀ lines : List JsString, lines ≠ [] →
        joinLines (lines ++ [utf16 "---"]) = joinLines lines ++ LF :: utf16 "---" := by
      intro lines hne
      induction lines with
      | nil => exact absurd rfl hne
      | cons line lines ih =>
        cases lines with
        | nil => simp [joinLines, List.intercalate_cons_cons]
        | cons next lines =>
          have htail := ih (List.cons_ne_nil _ _)
          simp only [joinLines, List.cons_append, List.intercalate_cons_cons] at htail ⊢
          simp [htail]
    cases lines with
    | nil => exact absurd rfl hne
    | cons line lines =>
      have hcons : joinLines (utf16 "---" :: (line :: lines ++ [utf16 "---"])) =
          utf16 "---" ++ LF :: joinLines (line :: lines ++ [utf16 "---"]) := by
        simp [joinLines, List.intercalate_cons_cons]
      rw [hcons, hjoin _ hne]
      simp
  rw [parseFrontmatter, hshape, hmatch]
  dsimp only
  rw [Option.getD_some, show joinLines ((noteHeader request (request.date.getD today) author).map lineText) =
    headerText (noteHeader request (request.date.getD today) author) from rfl, yaml.header hvalid]
  exact ⟨rfl, rfl⟩

theorem render_reads_back (yaml : CoreSchema parseYaml) (titles : TitleUnicode) (today : JsString)
    (request : NotesPostRequest) (author : JsString) (note : RenderedNote) (hauthor : isOnBehalfOf author = true)
    (h : render titles today request author = .ok note) :
    ((parseFrontmatter parseYaml note.content).error = none ∧
        (parseFrontmatter parseYaml note.content).data = noteMetadata request (request.date.getD today) author ↔
      (∀ repo ∈ request.repos.getD [], isResolved repo = false) ∧
        (isPlainScalar author = true → isResolved author = false)) ∧
    isNoteId note.id = true := by
  have hunits := isUsernameUnit_of_isOnBehalfOf hauthor
  obtain ⟨haccepted, hid, -⟩ := render_ok h
  obtain ⟨herror, hdata⟩ := parseFrontmatter_render yaml hunits h
  constructor
  · have hauthorValue : (authorNode author).value yaml.resolve = .string author ↔
        (isPlainScalar author = true → isResolved author = false) := by
      rw [authorNode]
      by_cases hplain : isPlainScalar author = true
      · rw [if_pos hplain, Node.value, resolve_eq_string yaml (isPlain_of_isPlainScalar hplain)]
        exact ⟨fun hstring _ => hstring, fun hstring => hstring hplain⟩
      · rw [if_neg hplain]
        exact ⟨fun _ hagain => absurd hagain hplain, fun _ => rfl⟩
    have hrepos : (request.repos.getD []).map yaml.resolve = (request.repos.getD []).map .string ↔
        ∀ repo ∈ request.repos.getD [], isResolved repo = false := by
      rw [List.map_inj_left]
      refine forall_congr' fun repo => forall_congr' fun hrepo => ?_
      exact resolve_eq_string yaml (isPlain_of_isRepoName (haccepted.repos repo hrepo))
    have hdate := isPlain_of_isCalendarDate haccepted.date
    have htype := isResolved_lower request.type
    have hsource : yaml.resolve (utf16 "chat") = .string (utf16 "chat") := yaml.string (by decide) (by decide)
    have hheader : ((noteHeader request (request.date.getD today) author).map fun entry =>
          (entry.1, entry.2.value yaml.resolve)) = noteMetadata request (request.date.getD today) author ↔
        (request.repos.getD []).map yaml.resolve = (request.repos.getD []).map .string ∧
          (authorNode author).value yaml.resolve = .string author := by
      rw [noteHeader, noteMetadata]
      cases hsupersedes : request.supersedes with
      | none => simp [Node.value, yaml.string hdate.1 hdate.2, yaml.string htype.1 htype.2, hsource]
      | some supersedes =>
        have hname := isPlain_of_isNoteId (haccepted.supersedes supersedes hsupersedes)
        simp [Node.value, yaml.string hdate.1 hdate.2, yaml.string htype.1 htype.2, hsource,
          yaml.string hname.1 hname.2]
    rw [hdata, hheader, hrepos, hauthorValue]
    exact ⟨fun hboth => hboth.2, fun hboth => ⟨herror, hboth⟩⟩
  · rw [hid]
    exact isNoteId_of_parts haccepted.date (isKebab_slug haccepted.slug)

def asciiTitles : TitleUnicode where
  unicode := ascii
  nfkd s := s
  isMark _ := false

def gotcha (repo : String) : NotesPostRequest where
  title := utf16 "One model"
  type := .gotcha
  context := utf16 "Embedding evicted it."
  decisionOrFact := utf16 "Only one fits."
  alternativesRejected := none
  howToApply := none
  links := none
  repos := some [utf16 repo]
  date := some (utf16 "2026-10-26")
  supersedes := some (utf16 "raw/2026-09-06-old.md")

theorem render_reads_back_gotcha : ∃ note,
    render asciiTitles (utf16 "2026-10-27") (gotcha "homelab-apps") (utf16 "akadmin") = .ok note ∧
      (parseFrontmatter Yaml.readHeader note.content).data =
        noteMetadata (gotcha "homelab-apps") (utf16 "2026-10-26") (utf16 "akadmin") ∧ isNoteId note.id = true := by
  obtain ⟨note, hnote⟩ : ∃ note,
    render asciiTitles (utf16 "2026-10-27") (gotcha "homelab-apps") (utf16 "akadmin") = .ok note := ⟨_, rfl⟩
  obtain ⟨hreads, hid⟩ := render_reads_back Yaml.coreSchema asciiTitles (utf16 "2026-10-27") (gotcha "homelab-apps")
    (utf16 "akadmin") note (by decide) hnote
  exact ⟨note, hnote, (hreads.mpr ⟨by decide, by decide⟩).2, hid⟩

theorem render_misread : ∃ note,
    render asciiTitles (utf16 "2026-10-27") (gotcha "null") (utf16 "true") = .ok note ∧
      (parseFrontmatter Yaml.readHeader note.content).data.lookup (utf16 "repos") = some (.array [.null]) ∧
      (parseFrontmatter Yaml.readHeader note.content).data.lookup (utf16 "author") = some (.bool true) := by
  obtain ⟨note, hnote⟩ : ∃ note,
    render asciiTitles (utf16 "2026-10-27") (gotcha "null") (utf16 "true") = .ok note := ⟨_, rfl⟩
  have hunits : isOnBehalfOf (utf16 "true") = true := by decide
  have hdata := (parseFrontmatter_render Yaml.coreSchema (isUsernameUnit_of_isOnBehalfOf hunits) hnote).2
  refine ⟨note, hnote, ?_, ?_⟩
  · rw [hdata]
    rfl
  · rw [hdata]
    rfl

end HomelabApps.KnowledgeBase.Notes
