import HomelabApps.KnowledgeBase.OnBehalfOf
import HomelabApps.KnowledgeBase.Markdown.Lines
import HomelabApps.Library.LineReader

namespace HomelabApps.KnowledgeBase.DocumentWrite

open HomelabApps.Library HomelabApps.Library.Utf16
open HomelabApps.KnowledgeBase.Markdown (LF SPACE joinLines)

structure WriteProvenance where
  onBehalfOf : JsString
  subject : JsString
  body : Option JsString := none
  reason : Option JsString := none

def VIA : JsString := utf16 "knowledge-base MCP"

/-- `replace(/\s+/g, ' ')`. -/
def collapseWhitespace : JsString → JsString
  | [] => []
  | [u] => if isWhitespace u then [SPACE] else [u]
  | u :: v :: s =>
    if isWhitespace u then
      if isWhitespace v then collapseWhitespace (v :: s) else SPACE :: collapseWhitespace (v :: s)
    else u :: collapseWhitespace (v :: s)

def oneLine (text : JsString) : JsString := trim (collapseWhitespace text)

def subjectLine (provenance : WriteProvenance) : JsString := utf16 "kb: " ++ oneLine provenance.subject

def trailers (provenance : WriteProvenance) : List JsString :=
  [utf16 "On-behalf-of: " ++ provenance.onBehalfOf, utf16 "Via: " ++ VIA] ++
    match provenance.reason with
    | some reason => if isNotEmpty reason then [utf16 "Reason: " ++ oneLine reason] else []
    | none => []

def commitMessage (provenance : WriteProvenance) : JsString :=
  [LF, LF].intercalate <|
    [subjectLine provenance] ++
    (match provenance.body with
      | some body => if isNotEmpty body then [trim body] else []
      | none => []) ++
    [joinLines (trailers provenance)]

/-- A reader of messages: a line feed ends a line, and nothing does but white space other than the space; a
line is blank if it is empty, and only if it holds nothing but white space. -/
structure MessageReader extends LineReader UInt16 where
  breaks_LF : breaks LF = true
  white_of_breaks : ∀ u, breaks u = true → isWhitespace u = true ∧ u ≠ SPACE
  white_of_blank : ∀ line, blank line = true → ∀ u ∈ line, isWhitespace u = true

/-- As git reads a message: lines end at line feeds, and spaces, tabs and carriage returns are blank. -/
def git : MessageReader where
  breaks u := u = LF
  blank line := line.all fun u => u = SPACE || u = 0x9 || u = LF || u = 0xD
  blank_nil := rfl
  breaks_LF := rfl
  white_of_breaks := by
    intro u hu
    rw [decide_eq_true_eq] at hu
    subst hu
    decide
  white_of_blank := by
    intro line hline u hu
    have hblank := List.all_eq_true.mp hline u hu
    simp only [Bool.or_eq_true, decide_eq_true_eq] at hblank
    rcases hblank with ((rfl | rfl) | rfl) | rfl <;> decide

variable {u : UInt16} {s text line : JsString} {provenance : WriteProvenance} {reader : MessageReader}

theorem mem_collapseWhitespace (h : u ∈ collapseWhitespace s) : u = SPACE ∨ isWhitespace u = false := by
  induction s using collapseWhitespace.induct with
  | case1 => exact absurd h List.not_mem_nil
  | case2 v hv =>
    rw [collapseWhitespace, if_pos hv, List.mem_singleton] at h
    exact .inl h
  | case3 v hv =>
    rw [collapseWhitespace, if_neg hv, List.mem_singleton] at h
    exact .inr (h ▸ Bool.eq_false_iff.mpr hv)
  | case4 v w rest hv hw ih =>
    rw [collapseWhitespace, if_pos hv, if_pos hw] at h
    exact ih h
  | case5 v w rest hv hw ih =>
    rw [collapseWhitespace, if_pos hv, if_neg hw, List.mem_cons] at h
    exact h.elim .inl ih
  | case6 v w rest hv ih =>
    rw [collapseWhitespace, if_neg hv, List.mem_cons] at h
    exact h.elim (fun h => .inr (h ▸ Bool.eq_false_iff.mpr hv)) ih

def Inline (s : JsString) : Prop := ∀ u ∈ s, u = SPACE ∨ isWhitespace u = false

theorem inline_of_all (h : (s.all fun u => u == SPACE || !isWhitespace u) = true) : Inline s := by
  intro u hu
  simpa using List.all_eq_true.mp h u hu

theorem inline_append {t : JsString} : Inline (s ++ t) ↔ Inline s ∧ Inline t := List.forall_mem_append

theorem inline_oneLine : Inline (oneLine text) := fun _ hu => mem_collapseWhitespace (mem_of_mem_trim hu)

theorem Inline.unbroken (h : Inline s) : ∀ u ∈ s, reader.breaks u = false := by
  intro u hu
  rw [← Bool.not_eq_true]
  intro hbreaks
  obtain ⟨hwhite, hspace⟩ := reader.white_of_breaks u hbreaks
  cases h u hu with
  | inl h => exact hspace h
  | inr h => exact absurd (h.symm.trans hwhite) Bool.false_ne_true

theorem not_blank (hu : u ∈ line) (h : isWhitespace u = false) : reader.blank line = false := by
  rw [← Bool.not_eq_true]
  intro hblank
  exact absurd (h.symm.trans (reader.white_of_blank line hblank u hu)) Bool.false_ne_true

theorem inline_subjectLine : Inline (subjectLine provenance) :=
  inline_append.mpr ⟨inline_of_all (by decide), inline_oneLine⟩

theorem inline_onBehalfOf (h : isOnBehalfOf provenance.onBehalfOf) : Inline provenance.onBehalfOf := fun u hu =>
  .inr (isWhitespace_of_isUsernameUnit (isUsernameUnit_of_isOnBehalfOf h u hu))

theorem trailer_of_mem (h : isOnBehalfOf provenance.onBehalfOf) (hline : line ∈ trailers provenance) :
    Inline line ∧ ∃ u ∈ line, isWhitespace u = false := by
  rw [trailers, List.mem_append, List.mem_cons, List.mem_singleton] at hline
  obtain (rfl | rfl) | hreason := hline
  · refine ⟨inline_append.mpr ⟨inline_of_all (by decide), inline_onBehalfOf h⟩, 0x4F, ?_, by decide⟩
    exact List.mem_append_left _ (by decide)
  · refine ⟨inline_of_all (by decide), 0x56, by decide, by decide⟩
  · cases hgiven : provenance.reason with
    | none => simp [hgiven] at hreason
    | some reason =>
      rw [hgiven] at hreason
      dsimp only at hreason
      split at hreason
      · rw [List.mem_singleton] at hreason
        subst hreason
        refine ⟨inline_append.mpr ⟨inline_of_all (by decide), inline_oneLine⟩, 0x52, ?_, by decide⟩
        exact List.mem_append_left _ (by decide)
      · exact absurd hreason List.not_mem_nil

def bodyParagraph (provenance : WriteProvenance) : List JsString :=
  match provenance.body with
  | some body => if isNotEmpty body then [trim body] else []
  | none => []

theorem commitMessage_cases :
    commitMessage provenance = subjectLine provenance ++ LF :: LF :: joinLines (trailers provenance) ∨
      ∃ body, commitMessage provenance =
        subjectLine provenance ++ LF :: (LF :: body ++ LF :: LF :: joinLines (trailers provenance)) := by
  have hmessage : commitMessage provenance = [LF, LF].intercalate
      ([subjectLine provenance] ++ bodyParagraph provenance ++ [joinLines (trailers provenance)]) := rfl
  have hbody : bodyParagraph provenance = [] ∨ ∃ body, bodyParagraph provenance = [body] := by
    unfold bodyParagraph
    split
    · split
      · exact .inr ⟨_, rfl⟩
      · exact .inl rfl
    · exact .inl rfl
  cases hbody with
  | inl hbody =>
    left
    rw [hmessage, hbody]
    simp [List.intercalate_cons_cons]
  | inr hbody =>
    obtain ⟨body, hbody⟩ := hbody
    refine .inr ⟨body, ?_⟩
    rw [hmessage, hbody]
    simp [List.intercalate_cons_cons]

theorem commitMessage_read (provenance : WriteProvenance) (reader : MessageReader)
    (h : isOnBehalfOf provenance.onBehalfOf) :
    (reader.lines (commitMessage provenance)).head? = some (utf16 "kb: " ++ oneLine provenance.subject) ∧
    reader.lastParagraph (commitMessage provenance) = trailers provenance := by
  have hfirst : reader.lines (subjectLine provenance) = [subjectLine provenance] :=
    LineReader.lines_of_unbroken inline_subjectLine.unbroken
  have hlast (front : JsString) :
      reader.lastParagraph (front ++ LF :: LF :: joinLines (trailers provenance)) = trailers provenance := by
    apply LineReader.lastParagraph_append reader.breaks_LF
    · exact fun line hline => (trailer_of_mem h hline).1.unbroken
    · intro line hline
      obtain ⟨u, hu, hsolid⟩ := (trailer_of_mem h hline).2
      exact not_blank hu hsolid
    · exact List.cons_ne_nil _ _
  cases @commitMessage_cases provenance with
  | inl heq =>
    refine ⟨?_, heq ▸ hlast _⟩
    rw [heq, LineReader.lines_append reader.breaks_LF, hfirst]
    rfl
  | inr hbody =>
    obtain ⟨body, heq⟩ := hbody
    constructor
    · rw [heq, LineReader.lines_append reader.breaks_LF, hfirst]
      rfl
    · have hfront := hlast (subjectLine provenance ++ LF :: LF :: body)
      rw [heq]
      simpa using hfront

theorem commitMessage_read_forged : let provenance : WriteProvenance :=
    { onBehalfOf := utf16 "akadmin", subject := utf16 "X\n\nVia: me", body := some (utf16 "Via: me"),
      reason := some (utf16 "Merged\n\nVia: me") }
    git.lastParagraph (commitMessage provenance) = trailers provenance :=
  (commitMessage_read _ git (by decide)).2

end HomelabApps.KnowledgeBase.DocumentWrite
