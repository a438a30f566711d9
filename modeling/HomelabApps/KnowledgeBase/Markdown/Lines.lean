import HomelabApps.KnowledgeBase.Markdown.FenceTracker

namespace HomelabApps.KnowledgeBase.Markdown

open HomelabApps.Library.Utf16

def LF : UInt16 := 0xA
def CR : UInt16 := 0xD
def HASH : UInt16 := 0x23
def PIPE : UInt16 := 0x7C
def COLON : UInt16 := 0x3A
def DASH : UInt16 := 0x2D

def consFirst (u : UInt16) : List JsString → List JsString
  | [] => [[u]]
  | line :: lines => (u :: line) :: lines

/-- `split(/\r?\n/)`. -/
def splitLines : JsString → List JsString
  | [] => [[]]
  | [u] => if u = LF then [[], []] else [[u]]
  | u :: v :: s =>
    if u = CR ∧ v = LF then [] :: splitLines s
    else if u = LF then [] :: splitLines (v :: s)
    else consFirst u (splitLines (v :: s))

def joinLines (lines : List JsString) : JsString := [LF].intercalate lines

def isLineTerminator (u : UInt16) : Bool := u = LF || u = CR || u = 0x2028 || u = 0x2029

/-- `(?:[ \t]+#+)?[ \t]*$`. -/
def closesHeading (s : JsString) : Bool :=
  let rest := s.dropWhile isBlank
  rest = [] || (rest ≠ s && rest.head? = some HASH && (rest.dropWhile (· = HASH)).all isBlank)

def headingText : JsString → JsString
  | [] => []
  | u :: s => if closesHeading (u :: s) then [] else u :: headingText s

/-- `HEADING`: the level of a heading and its text. -/
def heading? (line : JsString) : Option (Nat × JsString) :=
  match unindent line with
  | none => none
  | some s =>
    let level := (s.takeWhile (· = HASH)).length
    let rest := s.dropWhile (· = HASH)
    if 1 ≤ level ∧ level ≤ 6 then
      match rest with
      | [] => some (level, [])
      | u :: _ =>
        let text := rest.dropWhile isBlank
        if isBlank u && !text.any isLineTerminator then some (level, headingText text) else none
    else none

def link? (s : JsString) : Option (JsString × Nat) :=
  let open' := if s.head? = some 0x21 then 1 else 0
  match s.drop open' with
  | 0x5B :: label =>
    let text := label.takeWhile (· ≠ 0x5D)
    match label.dropWhile (· ≠ 0x5D) with
    | 0x5D :: 0x28 :: target =>
      let url := target.takeWhile (· ≠ 0x29)
      if url.length < target.length then some (text, open' + text.length + url.length + 4) else none
    | _ => none
  | _ => none

/-- Every link replaced by its text; `skip` units of one already replaced are still to come. -/
def replaceLinks (skip : Nat) : JsString → JsString
  | [] => []
  | u :: s =>
    match skip with
    | k + 1 => replaceLinks k s
    | 0 =>
      match link? (u :: s) with
      | some (text, length) => text ++ replaceLinks (length - 1) s
      | none => u :: replaceLinks 0 s

def cleanHeading (text : JsString) : JsString := trim (replaceLinks 0 text)

def headingOf (line : JsString) : Option (Nat × JsString) :=
  match heading? line with
  | some (level, text) => if isNotEmpty (cleanHeading text) then some (level, cleanHeading text) else none
  | none => none

/-- Drops the leading lines of blanks; `kept` stands from the start of the present line. -/
def dropBlankLines (kept : JsString) : JsString → JsString
  | [] => kept
  | u :: s =>
    if u = LF then dropBlankLines s s
    else if isBlank u then dropBlankLines kept s
    else kept

/-- `:?-{3,}:?`, and what follows it. -/
def tableRule (s : JsString) : Option JsString :=
  let s := if s.head? = some COLON then s.drop 1 else s
  let rest := s.dropWhile (· = DASH)
  if 3 ≤ (s.takeWhile (· = DASH)).length then
    some (if rest.head? = some COLON then rest.drop 1 else rest)
  else none

/-- `\s*(\|\s*:?-{3,}:?\s*)*\|?\s*$`, after the first column of a separator row. -/
def tableColumns : Nat → JsString → Bool
  | 0, s => (trimStart s).isEmpty
  | fuel + 1, s =>
    match trimStart s with
    | [] => true
    | u :: s =>
      u = PIPE &&
        match tableRule (trimStart s) with
        | some rest => tableColumns fuel rest
        | none => (trimStart s).isEmpty

def isSeparatorRow (line : JsString) : Bool :=
  let s := trimStart line
  let s := if s.head? = some PIPE then trimStart (s.drop 1) else s
  match tableRule s with
  | some rest => tableColumns rest.length rest
  | none => false

def isTable : List JsString → Bool
  | header :: separator :: _ => (trimStart header).head? = some PIPE && isSeparatorRow separator
  | _ => false

end HomelabApps.KnowledgeBase.Markdown
