import HomelabApps.KnowledgeBase.NoteRenderService
import HomelabApps.Library.Numerals

namespace HomelabApps.KnowledgeBase.DocumentValidation

open HomelabApps.Library
open HomelabApps.Library.Utf16
open HomelabApps.Library.Json (Value)
open Markdown (HYPHEN isBlank splitLines extractTitle)
open Notes (MARKDOWN_EXTENSION RAW_AREA isCalendarDate isKebab isNoteId)
open Store (dateParts?)

structure SecretFinding where
  line : Nat
  kind : JsString
  deriving DecidableEq

abbrev KindOf := JsString → Option JsString

def scanFrom (kindOf : KindOf) : Nat → List JsString → Option SecretFinding
  | _, [] => none
  | n, line :: lines =>
    match kindOf line with
    | some kind => some ⟨n, kind⟩
    | none => scanFrom kindOf (n + 1) lines

def scan (kindOf : KindOf) (text : JsString) : Option SecretFinding := scanFrom kindOf 1 (splitLines text)

abbrev Checked := Except JsString

def refuseSecrets (kindOf : KindOf) (text what : JsString) : Checked Unit :=
  match scan kindOf text with
  | none => .ok ()
  | some finding =>
    .error (utf16 "Refused: " ++ what ++ utf16 " looks like it holds " ++ finding.kind ++ utf16 " (line " ++
      numeral finding.line ++ utf16 "). The knowledge base is written as if it were public — remove it.")

def ON_BEHALF_OF_REFUSED : JsString :=
  utf16 "On-Behalf-Of must name the user the write is for: a username of letters, digits and _ . @ + -."

def onBehalfOf : Option JsString → Checked JsString
  | some value => if isNotEmpty value && isOnBehalfOf value then .ok value else .error ON_BEHALF_OF_REFUSED
  | none => .error ON_BEHALF_OF_REFUSED

def WORK_AREA : JsString := utf16 "work/"

def MIRROR_PREFIX : JsString := utf16 "mirror/"

def WORK_FILES : List JsString := [utf16 "/spec.md", utf16 "/plan.md"]

def WORK_STATUSES : List JsString :=
  ["draft", "approved", "in-progress", "done", "abandoned", "reference"].map utf16

def MIRROR_REFUSED : JsString :=
  utf16 "mirror/ is generated from the repositories' docs and never written here: change the doc in its repository."

def RAW_REWRITE_REFUSED : JsString :=
  utf16 "raw/ notes are append-only: to change what one says, create a new note (POST /notes) with supersedes " ++
    utf16 "pointing at it."

def WORK_ID_REFUSED : JsString :=
  utf16 "A spec or plan id must be work/YYYY-MM-DD-<kebab-slug>/spec.md or plan.md, with a real date."

def DELETE_REFUSED : JsString :=
  utf16 "Only a raw/ note (raw/YYYY-MM-DD-<slug>.md) or a work/ spec or plan can be deleted."

/-- `WORK_ID` with this file at its end, and its date. -/
def workDateWith (id file : JsString) : Option JsString :=
  let date := (id.drop WORK_AREA.length).take 10
  let rest := id.drop (WORK_AREA.length + 10)
  let slug := (rest.drop 1).take (rest.length - 1 - file.length)
  if id = WORK_AREA ++ date ++ HYPHEN :: slug ++ file && isKebab true slug && (dateParts? date).isSome then some date
  else none

/-- `WORK_ID.exec(id)?.[1]`. -/
def workDate (id : JsString) : Option JsString := WORK_FILES.findSome? (workDateWith id)

def writablePath (id : JsString) : Checked Unit :=
  if MIRROR_PREFIX.isPrefixOf id then .error MIRROR_REFUSED
  else if RAW_AREA.isPrefixOf id then .error RAW_REWRITE_REFUSED
  else if (workDate id).any isCalendarDate then .ok ()
  else .error WORK_ID_REFUSED

def deletablePath (id : JsString) : Checked Unit :=
  if MIRROR_PREFIX.isPrefixOf id then .error MIRROR_REFUSED
  else if isNoteId id || (workDate id).isSome then .ok ()
  else .error DELETE_REFUSED

def opensFrontmatter (content : JsString) : Bool :=
  let s := if content.head? = some BOM then content.drop 1 else content
  (utf16 "---").isPrefixOf s && (afterNewline ((s.drop 3).dropWhile isBlank)).isSome

def isStatus : Option Value → Bool
  | some (.string status) => WORK_STATUSES.contains status
  | _ => false

def isRepository : Value → Bool
  | .string repo => isNotEmpty repo
  | _ => false

def isRepositories : Option Value → Bool
  | some (.array repos) => repos.all isRepository
  | _ => false

def isDateField : Option Value → Bool
  | some (.string date) => isCalendarDate date
  | _ => false

def headerProblems (content : JsString) (header : Frontmatter) : List JsString :=
  if opensFrontmatter content then
    match header.error with
    | some error => [utf16 "its frontmatter does not parse: " ++ utf16 error]
    | none =>
      (if isStatus (header.data.lookup (utf16 "status")) then []
        else [utf16 "status: must be one of " ++ (utf16 ", ").intercalate WORK_STATUSES]) ++
      (if isRepositories (header.data.lookup (utf16 "repos")) then []
        else [utf16 "repos: must be a list of repository names, e.g. [homelab, homelab-apps], or []"]) ++
      (if isDateField (header.data.lookup (utf16 "created")) then []
        else [utf16 "created: must be a YYYY-MM-DD date"])
  else [utf16 "it must start with --- frontmatter (status, repos, created)"]

def workDocument (parseYaml : JsString → Except String Value) (kindOf : KindOf) (id content : JsString) :
    Checked JsString := do
  writablePath id
  let header := parseFrontmatter parseYaml content
  let title := extractTitle header.body
  let problems := headerProblems content header ++
    if title = none then [utf16 "it needs a \"# \" title line"] else []
  if problems ≠ [] then
    .error (id ++ utf16 " is not a valid spec or plan: " ++ (utf16 "; ").intercalate problems ++ utf16 ".")
  refuseSecrets kindOf content id
  pure (title.getD [])

end HomelabApps.KnowledgeBase.DocumentValidation
