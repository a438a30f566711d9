import HomelabApps.KnowledgeBase.Markdown.Lines
import HomelabApps.KnowledgeBase.Markdown.GithubSlugger

/-! `MarkdownChunkerService`: a markdown text cut into sections at its headings, and long sections
into parts at their paragraphs. -/

namespace HomelabApps.KnowledgeBase.Markdown

open HomelabApps.Library.Utf16

inductive ChunkingMode
  | sections | entries
  deriving DecidableEq, Repr

structure MarkdownChunk where
  ord : Nat
  heading : JsString
  anchor : JsString
  body : JsString
  hash : JsString
  deriving DecidableEq, Repr

structure MarkdownChunkOptions where
  externalId : JsString
  title : Option JsString
  mode : ChunkingMode
  maxChars : Nat
  overlapChars : Nat

def HEADING_SEPARATOR : JsString := utf16 " › "

def documentText (heading body : JsString) : JsString :=
  if isNotEmpty heading then heading ++ LF :: LF :: body else body

def hash (sha256 : JsString → JsString) (title : Option JsString) (heading body : JsString) :
    JsString :=
  sha256 (toWellFormed (title.getD [] ++ NUL :: documentText heading body))

def titleFrom : FenceTracker → List JsString → Option JsString
  | _, [] => none
  | fences, line :: lines =>
    match fences.consume line with
    | (fences, true) => titleFrom fences lines
    | (fences, false) =>
      match headingOf line with
      | some (1, text) => some text
      | _ => titleFrom fences lines

def extractTitle (markdown : JsString) : Option JsString := titleFrom none (splitLines markdown)

structure Section where
  path : List JsString
  slug : Option JsString
  lines : List JsString
  deriving DecidableEq, Repr

/-- The state of the loop over the lines: the sections before the current one are `done`. -/
structure Sectioning where
  slugger : Occurrences := []
  fences : FenceTracker := none
  done : List Section := []
  current : Section := ⟨[], none, []⟩
  h2 : Option JsString := none
  titleSeen : Bool := false

def Sectioning.push (s : Sectioning) (line : JsString) : Sectioning :=
  { s with current := { s.current with lines := s.current.lines ++ [line] } }

def Sectioning.begin (s : Sectioning) (path : List JsString) (slug : JsString) : Sectioning :=
  { s with
    done := s.done ++ [s.current]
    current := ⟨path, some slug, []⟩ }

/-- A heading takes a slug, whether or not it starts a section. -/
def Sectioning.heading (unicode : Unicode) (mode : ChunkingMode) (s : Sectioning) (line : JsString)
    (level : Nat) (text : JsString) : Sectioning :=
  let (name, slugger) := slug unicode s.slugger text
  let s := { s with slugger := slugger }
  if level = 1 ∧ s.titleSeen = false ∧ s.done = [] then { s with titleSeen := true }
  else if level ≤ 2 then { s.begin [text] name with h2 := some text }
  else if level = 3 ∧ mode = .sections then s.begin (s.h2.toList ++ [text]) name
  else s.push line

def Sectioning.consume (unicode : Unicode) (mode : ChunkingMode) (s : Sectioning) (line : JsString) :
    Sectioning :=
  match s.fences.consume line with
  | (fences, true) => { s with fences := fences }.push line
  | (fences, false) =>
    match headingOf line with
    | none => { s with fences := fences }.push line
    | some (level, text) => { s with fences := fences }.heading unicode mode line level text

def sections (unicode : Unicode) (markdown : JsString) (mode : ChunkingMode) : List Section :=
  let s := (splitLines markdown).foldl (Sectioning.consume unicode mode) {}
  s.done ++ [s.current]

def joinedLength (paragraphs : List JsString) : Nat :=
  (paragraphs.map List.length).sum + (paragraphs.length - 1) * 2

def joinParagraphs (paragraphs : List JsString) : JsString := [LF, LF].intercalate paragraphs

def tailFrom (budget : Nat) : List JsString → List JsString → List JsString
  | [], kept => kept
  | paragraph :: paragraphs, kept =>
    if budget < joinedLength (paragraph :: kept) then kept
    else tailFrom budget paragraphs (paragraph :: kept)

def tail (paragraphs : List JsString) (budget : Nat) : List JsString :=
  tailFrom budget paragraphs.reverse []

/-- The pieces of at most `maxChars` of a line, at least one; `fuel` bounds their number. -/
def slices (maxChars : Nat) : Nat → JsString → List JsString
  | 0, _ => []
  | fuel + 1, line =>
    if line.length ≤ maxChars then [line]
    else line.take maxChars :: slices maxChars fuel (line.drop maxChars)

structure Pieces where
  pieces : List JsString := []
  buffer : JsString
  hasRows : Bool := false

def Pieces.flush (headerText : JsString) (s : Pieces) : Pieces where
  pieces := s.pieces ++ [s.buffer]
  buffer := headerText
  hasRows := false

def Pieces.add (s : Pieces) (piece : JsString) : Pieces :=
  { s with
    buffer := if s.buffer = [] then piece else s.buffer ++ LF :: piece
    hasRows := true }

def Pieces.consume (maxChars : Nat) (headerText : JsString) (s : Pieces) (piece : JsString) : Pieces :=
  if s.hasRows ∧ maxChars < s.buffer.length + 1 + piece.length then (s.flush headerText).add piece
  else s.add piece

/-- The header and separator rows of a table, when they take less than half of the limit. -/
def tableHeader (lines : List JsString) (maxChars : Nat) : List JsString :=
  match lines with
  | header :: separator :: _ =>
    if isTable lines ∧ 2 * (header.length + separator.length + 2) < maxChars then [header, separator]
    else []
  | _ => []

def hardSplit (paragraph : JsString) (maxChars : Nat) : List JsString :=
  let lines := paragraph.splitOn LF
  let header := tableHeader lines maxChars
  let rows := (lines.drop header.length).flatMap fun line => slices maxChars (line.length + 1) line
  let s := rows.foldl (Pieces.consume maxChars (joinLines header)) { buffer := joinLines header }
  if s.hasRows then s.pieces ++ [s.buffer] else s.pieces

structure Paragraphs where
  fences : FenceTracker := none
  paragraphs : List JsString := []
  buffer : List JsString := []

def Paragraphs.flush (s : Paragraphs) : Paragraphs :=
  if s.buffer = [] then s
  else { s with
    paragraphs := s.paragraphs ++ [joinLines s.buffer]
    buffer := [] }

def Paragraphs.consume (s : Paragraphs) (line : JsString) : Paragraphs :=
  if !s.fences.inside && !isNotEmpty line then s.flush
  else { s with
    fences := (s.fences.consume line).1
    buffer := s.buffer ++ [line] }

def paragraphs (body : JsString) : List JsString :=
  ((body.splitOn LF).foldl Paragraphs.consume {}).flush.paragraphs

structure Parts where
  parts : List JsString := []
  current : List JsString := []

def Parts.consume (maxChars overlapChars : Nat) (s : Parts) (paragraph : JsString) : Parts :=
  if s.current ≠ [] ∧ maxChars < joinedLength (s.current ++ [paragraph]) then
    let overlap := tail s.current overlapChars
    { parts := s.parts ++ [joinParagraphs s.current]
      current :=
        (if maxChars < joinedLength (overlap ++ [paragraph]) then [] else overlap) ++ [paragraph] }
  else { s with current := s.current ++ [paragraph] }

def split (body : JsString) (maxChars overlapChars : Nat) : List JsString :=
  if body.length ≤ maxChars then [body]
  else
    let pieces := (paragraphs body).flatMap fun paragraph =>
      if maxChars < paragraph.length then hardSplit paragraph maxChars else [paragraph]
    let s := pieces.foldl (Parts.consume maxChars overlapChars) {}
    if s.current = [] then s.parts else s.parts ++ [joinParagraphs s.current]

def Section.body (s : Section) : JsString :=
  let text := joinLines s.lines
  trimEnd (dropBlankLines text text)

def Section.heading (s : Section) : JsString := HEADING_SEPARATOR.intercalate s.path

def Section.anchor (s : Section) (externalId : JsString) : JsString :=
  match s.slug with
  | none => externalId
  | some slug => externalId ++ HASH :: slug

def Section.parts (options : MarkdownChunkOptions) (s : Section) : List JsString :=
  if isNotEmpty s.body then
    match options.mode with
    | .entries => [s.body]
    | .sections => split s.body options.maxChars options.overlapChars
  else []

def chunk (sha256 : JsString → JsString) (unicode : Unicode) (markdown : JsString)
    (options : MarkdownChunkOptions) : List MarkdownChunk :=
  ((sections unicode markdown options.mode).flatMap fun s =>
      (s.parts options).map fun part => (s, part)).mapIdx fun ord (s, part) =>
    { ord := ord
      heading := s.heading
      anchor := s.anchor options.externalId
      body := part
      hash := hash sha256 options.title s.heading part }

variable {sha256 : JsString → JsString} {unicode : Unicode} {markdown : JsString}
  {options : MarkdownChunkOptions} {c : MarkdownChunk}

theorem hash_of_mem_chunk (h : c ∈ chunk sha256 unicode markdown options) :
    c.hash = hash sha256 options.title c.heading c.body := by
  obtain ⟨i, hi, rfl⟩ := List.mem_mapIdx.mp h
  rfl

end HomelabApps.KnowledgeBase.Markdown
