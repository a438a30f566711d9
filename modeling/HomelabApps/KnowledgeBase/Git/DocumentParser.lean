import HomelabApps.KnowledgeBase.SourceDocument

/-! `GitDocumentParser`: one file of a git knowledge base as a document. -/

namespace HomelabApps.KnowledgeBase.Git

open HomelabApps.Library.Utf16
open HomelabApps.Library.Json (Value codePoints)
open Markdown Store

def HISTORY_FILE : JsString := utf16 "_history.md"

def MIRROR_AREA : JsString := utf16 "mirror"

def SLASH : UInt16 := 0x2F
def DOT : UInt16 := 0x2E
def PERCENT : UInt16 := 0x25

def setKey (record : Record) (key : JsString) (value : Value) : Record :=
  if (record.lookup key).isSome then record.map fun e => if e.1 = key then (key, value) else e
  else record ++ [(key, value)]

def segments (path : JsString) : List JsString := path.splitOn SLASH

def isUnreserved (u : UInt16) : Bool :=
  (0x41 ≤ u && u ≤ 0x5A) || (0x61 ≤ u && u ≤ 0x7A) || (0x30 ≤ u && u ≤ 0x39) ||
    (utf16 "-_.!~*'()").contains u

def upperHexDigit (n : Nat) : UInt16 := if n < 10 then (0x30 + n).toUInt16 else (0x37 + n).toUInt16

def utf8Bytes (n : Nat) : List Nat :=
  if n < 0x80 then [n]
  else if n < 0x800 then [0xC0 + n / 0x40, 0x80 + n % 0x40]
  else if n < 0x10000 then [0xE0 + n / 0x1000, 0x80 + n / 0x40 % 0x40, 0x80 + n % 0x40]
  else [0xF0 + n / 0x40000, 0x80 + n / 0x1000 % 0x40, 0x80 + n / 0x40 % 0x40, 0x80 + n % 0x40]

def encodePoint (n : Nat) : JsString :=
  if n < 0x80 && isUnreserved n.toUInt16 then [n.toUInt16]
  else (utf8Bytes n).flatMap fun b =>
    [PERCENT, upperHexDigit (b / 0x10 % 0x10), upperHexDigit (b % 0x10)]

/-- Throws on an unpaired surrogate. -/
def encodeURIComponent (s : JsString) : Option JsString :=
  if isWellFormed s then some ((codePoints s).flatMap encodePoint) else none

def stringField : Option Value → Option JsString
  | some (.string s) => if isNotEmpty s then some (trim s) else none
  | _ => none

/-- The day that `new Date` reads: one past the end of its month is a day of the next. -/
def isoDay (year month day : Nat) : Option (Nat × Nat × Nat) :=
  if 1 ≤ month ∧ month ≤ 12 ∧ 1 ≤ day ∧ day ≤ 31 then
    if day ≤ daysInMonth year month then some (year, month, day)
    else some (year, month + 1, day - daysInMonth year month)
  else none

def dateField : Option Value → Option JsString
  | some (.string s) =>
    match dateParts? s with
    | some (year, month, day) => if isoDay year month day = some (year, month, day) then some s else none
    | none => none
  | _ => none

/-- `replace(/\.[^.]+$/, '')`. -/
def dropExtension (name : JsString) : JsString :=
  let extension := name.rtakeWhile (· ≠ DOT)
  if extension ≠ [] ∧ extension.length < name.length then
    name.take (name.length - extension.length - 1)
  else name

def baseName (path : JsString) : JsString := dropExtension ((segments path).getLastD [])

def metadataOf (path : JsString) (data : Record) : Record :=
  let parts := segments path
  let data := if 1 < parts.length then setKey data (utf16 "area") (.string (parts.getD 0 [])) else data
  if parts.getD 0 [] = MIRROR_AREA ∧ 2 < parts.length then
    setKey data (utf16 "repos") (.array [.string (parts.getD 1 [])])
  else data

def fileUrl (htmlUrl commit path : JsString) : Option JsString :=
  ((segments path).mapM encodeURIComponent).map fun parts =>
    htmlUrl ++ utf16 "/blob/" ++ commit ++ SLASH :: [SLASH].intercalate parts

def document (platform : Platform) (path text blob url : JsString) : SourceDocument :=
  let header := parseFrontmatter platform.parseYaml text
  { externalId := path
    title := some (((extractTitle header.body).orElse fun _ =>
      stringField (header.data.lookup (utf16 "title"))).getD (baseName path))
    date := (dateField (header.data.lookup (utf16 "date"))).orElse fun _ =>
      dateField (header.data.lookup (utf16 "created"))
    url := some url
    content := text
    version := blob
    metadata := metadataOf path header.data
    chunking := if (segments path).getLastD [] = HISTORY_FILE then some .entries else none }

def parse (platform : Platform) (path text blob commit htmlUrl : JsString) : Option SourceDocument :=
  (fileUrl htmlUrl commit path).map (document platform path text blob)

end HomelabApps.KnowledgeBase.Git
