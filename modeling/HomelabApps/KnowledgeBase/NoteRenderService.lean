import HomelabApps.KnowledgeBase.Git.DocumentParser
import HomelabApps.KnowledgeBase.OnBehalfOf

namespace HomelabApps.KnowledgeBase.Notes

open HomelabApps.Library.Utf16
open HomelabApps.Library.Json (quote)
open Markdown (Unicode HYPHEN LF CR filterPoints splitLines joinLines)
open Store (dateParts?)
open Git (isoDay)

def isCalendarDate (value : JsString) : Bool :=
  match dateParts? value with
  | some (year, month, day) => isoDay year month day = some (year, month, day)
  | none => false

def isSlugUnit (u : UInt16) : Bool := (0x61 ≤ u && u ≤ 0x7A) || isDigit u

/-- `[a-z0-9]+(?:-[a-z0-9]+)*`, at the start of a word or within one. -/
def isKebab : Bool → JsString → Bool
  | start, [] => !start
  | start, u :: s => if isSlugUnit u then isKebab false s else u = HYPHEN && !start && isKebab true s

def RAW_AREA : JsString := utf16 "raw/"

def MARKDOWN_EXTENSION : JsString := utf16 ".md"

def isNoteId (id : JsString) : Bool :=
  let date := (id.drop RAW_AREA.length).take 10
  let rest := id.drop (RAW_AREA.length + 10)
  let slug := (rest.drop 1).take (rest.length - 1 - MARKDOWN_EXTENSION.length)
  id = RAW_AREA ++ date ++ HYPHEN :: slug ++ MARKDOWN_EXTENSION && isKebab true slug && isCalendarDate date

inductive NoteType
  | decision | contract | gotcha | note
  deriving DecidableEq, Repr

def NoteType.lower : NoteType → JsString
  | .decision => utf16 "decision"
  | .contract => utf16 "contract"
  | .gotcha => utf16 "gotcha"
  | .note => utf16 "note"

structure NotesPostRequest where
  title : JsString
  type : NoteType
  context : JsString
  decisionOrFact : JsString
  alternativesRejected : Option (List JsString)
  howToApply : Option JsString
  links : Option (List JsString)
  repos : Option (List JsString)
  date : Option JsString
  supersedes : Option JsString

structure RenderedNote where
  id : JsString
  title : JsString
  content : JsString
  deriving DecidableEq

def SLUG_MAX : Nat := 60

def isRepoName : JsString → Bool
  | [] => false
  | u :: s => (isLetter u || isDigit u) && s.all fun v => isLetter v || isDigit v || v = 0x2E || v = 0x5F || v = HYPHEN

/-- `PLAIN_SCALAR`. -/
def isPlainScalar : JsString → Bool
  | [] => false
  | u :: s => (isLetter u || isDigit u) && s.all isUsernameUnit

structure TitleUnicode where
  unicode : Unicode
  nfkd : JsString → JsString
  isMark : Nat → Bool

/-- `replace(/[^a-z0-9]+/g, '-')`; `run` within such a run. -/
def hyphenate : Bool → JsString → JsString
  | _, [] => []
  | run, u :: s =>
    if isSlugUnit u then u :: hyphenate false s
    else if run then hyphenate true s
    else HYPHEN :: hyphenate true s

def trimHyphens (s : JsString) : JsString := (s.dropWhile (· = HYPHEN)).rdropWhile (· = HYPHEN)

def lastIndexOf (u : UInt16) (s : JsString) : Option Nat := (s.reverse.idxOf? u).map fun i => s.length - 1 - i

def slug (titles : TitleUnicode) (title : JsString) : JsString :=
  let slug := trimHyphens (hyphenate false
    (titles.unicode.toLowerCase (filterPoints (fun n => !titles.isMark n) (titles.nfkd title))))
  if slug.length ≤ SLUG_MAX then slug
  else
    let cut := slug.take (SLUG_MAX + 1)
    let boundary := (lastIndexOf HYPHEN cut).getD 0
    (if boundary > 0 then cut.take boundary else slug.take SLUG_MAX).rdropWhile (· = HYPHEN)

def sectionOf (heading text : JsString) : JsString := utf16 "## " ++ heading ++ LF :: trim text

def list (items : List JsString) : JsString :=
  joinLines (items.map fun item => utf16 "- " ++ (utf16 "\n  ").intercalate (splitLines item))

def noteProblems (request : NotesPostRequest) (date slug : JsString) (repos alternatives links : List JsString) :
    List JsString :=
  (if isCalendarDate date then [] else [utf16 "date: must be a YYYY-MM-DD date"]) ++
  (if request.type = .decision && alternatives.isEmpty then
    [utf16 "a DECISION needs alternativesRejected: each option rejected, and why"] else []) ++
  (if request.type ≠ .decision && !alternatives.isEmpty then [utf16 "only a DECISION has alternativesRejected"] else []) ++
  (if repos.all isRepoName then [] else [utf16 "repos: each must be a repository name, e.g. homelab-apps"]) ++
  (if request.supersedes.all isNoteId then [] else
    [utf16 "supersedes: must be a note id, raw/YYYY-MM-DD-<slug>.md"]) ++
  (if links.any fun link => link.any fun u => u = CR || u = LF then [utf16 "links: one line each"] else []) ++
  (if isNotEmpty slug then [] else [utf16 "title: needs letters or digits to name the file after"])

def noteFrontmatter (request : NotesPostRequest) (date : JsString) (repos : List JsString) (author : JsString) :
    List JsString :=
  [utf16 "---", utf16 "date: " ++ date, utf16 "type: " ++ request.type.lower,
    utf16 "repos: [" ++ (utf16 ", ").intercalate repos ++ utf16 "]", utf16 "source: chat"] ++
  request.supersedes.toList.map (utf16 "supersedes: " ++ ·) ++
  [utf16 "author: " ++ if isPlainScalar author then author else quote author, utf16 "---"]

def noteSections (request : NotesPostRequest) (alternatives links : List JsString) : List JsString :=
  [sectionOf (utf16 "Context") request.context,
    sectionOf (utf16 (if request.type = .decision then "Decision" else "Fact")) request.decisionOrFact] ++
  (if alternatives.isEmpty then [] else [sectionOf (utf16 "Alternatives rejected") (list alternatives)]) ++
  ((request.howToApply.filter isNotEmpty).toList.map (sectionOf (utf16 "How to apply"))) ++
  (if links.isEmpty then [] else [sectionOf (utf16 "Links") (list links)])

def render (titles : TitleUnicode) (today : JsString) (request : NotesPostRequest) (author : JsString) :
    Except JsString RenderedNote :=
  let date := request.date.getD today
  let title := trim request.title
  let repos := request.repos.getD []
  let alternatives := ((request.alternativesRejected.getD []).map trim).filter isNotEmpty
  let links := ((request.links.getD []).map trim).filter isNotEmpty
  let slug := slug titles title
  let problems := noteProblems request date slug repos alternatives links
  if problems ≠ [] then .error (utf16 "The note is not valid: " ++ (utf16 "; ").intercalate problems ++ utf16 ".")
  else .ok {
    id := RAW_AREA ++ date ++ HYPHEN :: slug ++ MARKDOWN_EXTENSION
    title := title
    content := joinLines (noteFrontmatter request date repos author) ++ utf16 "\n\n# " ++ title ++ utf16 "\n\n" ++
      (utf16 "\n\n").intercalate (noteSections request alternatives links) ++ utf16 "\n" }

end HomelabApps.KnowledgeBase.Notes
