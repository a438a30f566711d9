import HomelabApps.Library.Utf16

namespace HomelabApps.KnowledgeBase.Markdown

open HomelabApps.Library.Utf16

def SPACE : UInt16 := 0x20
def TAB : UInt16 := 0x9
def BACKTICK : UInt16 := 0x60
def TILDE : UInt16 := 0x7E

def isBlank (u : UInt16) : Bool := u = SPACE || u = TAB

structure Fence where
  char : UInt16
  length : Nat
  deriving DecidableEq, Repr

abbrev FenceTracker := Option Fence

def unindent (line : JsString) : Option JsString :=
  if (line.takeWhile (· = SPACE)).length ≤ 3 then some (line.dropWhile (· = SPACE)) else none

def fenceRun (line : JsString) : Option (Fence × JsString) :=
  match unindent line with
  | some (u :: s) =>
    let run := (u :: s).takeWhile (· = u)
    if (u = BACKTICK ∨ u = TILDE) ∧ 3 ≤ run.length then
      some (⟨u, run.length⟩, (u :: s).dropWhile (· = u))
    else none
  | _ => none

def fenceOpen (line : JsString) : Option Fence := (fenceRun line).map (·.1)

def fenceClose (line : JsString) : Option Fence :=
  match fenceRun line with
  | some (fence, rest) => if rest.all isBlank then some fence else none
  | none => none

/-- Feeds one line; true when it opened, closed or sits inside a fence. -/
def FenceTracker.consume (t : FenceTracker) (line : JsString) : FenceTracker × Bool :=
  match t with
  | some fence =>
    match fenceClose line with
    | some close =>
      if close.char = fence.char ∧ fence.length ≤ close.length then (none, true)
      else (some fence, true)
    | none => (some fence, true)
  | none =>
    match fenceOpen line with
    | some fence => (some fence, true)
    | none => (none, false)

def FenceTracker.inside (t : FenceTracker) : Bool := t.isSome

end HomelabApps.KnowledgeBase.Markdown
