import HomelabApps.Library.Utf16

namespace HomelabApps.KnowledgeBase.Markdown

open HomelabApps.Library.Utf16

/-- What the runtime knows of Unicode: lower case, which adds no NUL, and the letters, marks, digits
and connector punctuation among the code points. -/
structure Unicode where
  toLowerCase : JsString → JsString
  nul_toLowerCase : ∀ s, NUL ∈ toLowerCase s → NUL ∈ s
  isWordPoint : Nat → Bool

def HYPHEN : UInt16 := 0x2D

/-- The code points for which `p` holds; an unpaired surrogate is a code point of its own. -/
def filterPoints (p : Nat → Bool) : JsString → JsString
  | [] => []
  | [u] => if p u.toNat then [u] else []
  | u :: v :: rest =>
    if isHigh u && isLow v then
      if p (0x10000 + (u.toNat - 0xD800) * 0x400 + (v.toNat - 0xDC00)) then u :: v :: filterPoints p rest
      else filterPoints p rest
    else if p u.toNat then u :: filterPoints p (v :: rest)
    else filterPoints p (v :: rest)

def slugify (unicode : Unicode) (text : JsString) : JsString :=
  (filterPoints (fun n => unicode.isWordPoint n || n = 0x20 || n = 0x2D) (unicode.toLowerCase text)).map
    fun u => if u = 0x20 then HYPHEN else u

abbrev Occurrences := List (JsString × Nat)

def Occurrences.has (o : Occurrences) (slug : JsString) : Bool := (o.lookup slug).isSome

def Occurrences.set (o : Occurrences) (slug : JsString) (n : Nat) : Occurrences :=
  if o.has slug then o.map fun e => if e.1 = slug then (slug, n) else e else o ++ [(slug, n)]

def numbered (original : JsString) (n : Nat) : JsString := original ++ HYPHEN :: utf16 (toString n)

/-- The search for a free slug; `fuel` bounds its turns. -/
def freeSlug (original : JsString) : Nat → JsString → Occurrences → JsString × Occurrences
  | 0, result, o => (result, o)
  | fuel + 1, result, o =>
    if o.has result then
      let next := (o.lookup original).getD 0 + 1
      freeSlug original fuel (numbered original next) (o.set original next)
    else (result, o)

def slug (unicode : Unicode) (o : Occurrences) (text : JsString) : JsString × Occurrences :=
  let original := slugify unicode text
  let (result, o') := freeSlug original (o.length + 1) original o
  (result, o'.set result 0)

end HomelabApps.KnowledgeBase.Markdown
