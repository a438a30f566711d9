import HomelabApps.KnowledgeBase.Markdown.Lines
import HomelabApps.Library.Json

namespace HomelabApps.KnowledgeBase

open HomelabApps.Library.Utf16
open HomelabApps.Library.Json (Value)
open Markdown

abbrev Record := List (JsString × Value)

structure Frontmatter where
  data : Record
  body : JsString
  error : Option String := none

def BOM : UInt16 := 0xFEFF

def afterNewline : JsString → Option JsString
  | [] => none
  | u :: s =>
    if u = LF then some s
    else if u = CR ∧ s.head? = some LF then some (s.drop 1)
    else none

/-- `(?:---|\.\.\.)[ \t]*(?:\r?\n|$)`, and what follows it. -/
def afterClosing (s : JsString) : Option JsString :=
  if (utf16 "---").isPrefixOf s || (utf16 "...").isPrefixOf s then
    let rest := (s.drop 3).dropWhile isBlank
    if rest = [] then some [] else afterNewline rest
  else none

/-- `([\s\S]*?)\r?\n` and the closing line: the shortest header, and what follows. -/
def shortestHeader : JsString → Option (JsString × JsString)
  | [] => none
  | u :: s =>
    match (afterNewline (u :: s)).bind afterClosing with
    | some rest => some ([], rest)
    | none => (shortestHeader s).map fun (header, rest) => (u :: header, rest)

def matchFrontmatter (content : JsString) : Option (Option JsString × JsString) :=
  let s := if content.head? = some BOM then content.drop 1 else content
  if (utf16 "---").isPrefixOf s then
    match afterNewline ((s.drop 3).dropWhile isBlank) with
    | none => none
    | some s =>
      match shortestHeader s with
      | some (header, rest) => some (some header, rest)
      | none => (afterClosing s).map fun rest => (none, rest)
  else none

/-- `parseYaml` parses by the core schema. -/
def parseFrontmatter (parseYaml : JsString → Except String Value) (content : JsString) : Frontmatter :=
  match matchFrontmatter content with
  | none =>
    { data := []
      body := content }
  | some (header, body) =>
    match parseYaml (header.getD []) with
    | .ok .null =>
      { data := []
        body := body }
    | .ok (.object data) =>
      { data := data
        body := body }
    | .ok _ =>
      { data := []
        body := body
        error := some "Frontmatter is not a mapping." }
    | .error message =>
      { data := []
        body := body
        error := some message }

theorem afterNewline_suffix {s rest : JsString} (h : afterNewline s = some rest) : rest <:+ s := by
  cases s with
  | nil => cases h
  | cons u s =>
    simp only [afterNewline] at h
    split at h
    · cases h
      exact List.suffix_cons u _
    · split at h
      · cases h
        exact (List.drop_suffix 1 s).trans (List.suffix_cons u s)
      · cases h

theorem afterClosing_suffix {s rest : JsString} (h : afterClosing s = some rest) : rest <:+ s := by
  unfold afterClosing at h
  split at h
  · have hdrop := (List.dropWhile_suffix isBlank).trans (List.drop_suffix 3 s)
    simp only at h
    split at h
    · cases h
      exact List.nil_suffix
    · exact (afterNewline_suffix h).trans hdrop
  · cases h

theorem shortestHeader_suffix {s header rest : JsString}
    (h : shortestHeader s = some (header, rest)) : rest <:+ s := by
  induction s generalizing header rest with
  | nil => cases h
  | cons u s ih =>
    simp only [shortestHeader] at h
    split at h
    · rename_i hclose
      cases h
      obtain ⟨t, hline, hclose⟩ := Option.bind_eq_some_iff.mp hclose
      exact (afterClosing_suffix hclose).trans (afterNewline_suffix hline)
    · obtain ⟨⟨header', rest'⟩, hs, he⟩ := Option.map_eq_some_iff.mp h
      cases he
      exact (ih hs).trans (List.suffix_cons u s)

theorem matchFrontmatter_suffix {content rest : JsString} {header : Option JsString}
    (h : matchFrontmatter content = some (header, rest)) : rest <:+ content := by
  unfold matchFrontmatter at h
  have hbom : (if content.head? = some BOM then content.drop 1 else content) <:+ content := by
    split
    · exact List.drop_suffix 1 content
    · exact List.suffix_rfl
  simp only at h
  generalize (if content.head? = some BOM then content.drop 1 else content) = s at h hbom
  split at h
  · split at h
    · cases h
    · rename_i t hline
      have hs := ((afterNewline_suffix hline).trans (List.dropWhile_suffix isBlank)).trans
        ((List.drop_suffix 3 s).trans hbom)
      split at h
      · rename_i hheader
        cases h
        exact (shortestHeader_suffix hheader).trans hs
      · obtain ⟨rest', hclose, he⟩ := Option.map_eq_some_iff.mp h
        cases he
        exact (afterClosing_suffix hclose).trans hs
  · cases h

theorem body_suffix (parseYaml : JsString → Except String Value) (content : JsString) :
    (parseFrontmatter parseYaml content).body <:+ content := by
  unfold parseFrontmatter
  split
  · exact List.suffix_rfl
  · rename_i header body h
    split <;> exact matchFrontmatter_suffix h

end HomelabApps.KnowledgeBase
