import HomelabApps.Library.JsonRoundTrip

namespace HomelabApps.Library.Json

open HomelabApps.Library.Utf16

mutual

def Parsed.all (p : JsString → Bool) : Parsed → Bool
  | .string s => p s
  | .array items => allParsedItems p items
  | .object entries => allParsedEntries p entries
  | _ => true

def allParsedItems (p : JsString → Bool) : List Parsed → Bool
  | [] => true
  | v :: vs => v.all p && allParsedItems p vs

def allParsedEntries (p : JsString → Bool) : List (JsString × Parsed) → Bool
  | [] => true
  | (k, v) :: es => p k && v.all p && allParsedEntries p es

end

def isStorable (s : JsString) : Bool := !s.contains NUL && isWellFormed s

def castJsonb (text : JsString) : Option Parsed := (parse text).filter (Parsed.all isStorable)

/-- Equal scalars; a number is the token that `JSON.stringify` gives it. -/
def Parsed.sameScalar : Parsed → Parsed → Bool
  | .null, .null => true
  | .bool b, .bool c => b = c
  | .number token, .number token' => token = token'
  | .string s, .string t => s = t
  | _, _ => false

def Parsed.entries : Parsed → Option (List (JsString × Parsed))
  | .object entries => some entries
  | _ => none

def Parsed.items : Parsed → Option (List Parsed)
  | .array items => some items
  | _ => none

mutual

/-- `v.contained w` is `w @> v` below the top: an object has the other's keys with values that contain the
other's, an array has for each item of the other one that contains it, a scalar is the same. -/
def Parsed.contained : Parsed → Parsed → Bool
  | .object entries, w => w.entries.any fun es => containedEntries entries es
  | .array items, w => w.items.any fun ws => containedItems items ws
  | v, w => v.sameScalar w

def containedItems : List Parsed → List Parsed → Bool
  | [], _ => true
  | v :: vs, ws => ws.any v.contained && containedItems vs ws

def containedEntries : List (JsString × Parsed) → List (JsString × Parsed) → Bool
  | [], _ => true
  | (k, v) :: entries, es => (es.find? (·.1 = k)).any (fun e => v.contained e.2) && containedEntries entries es

end

/-- `w @> v`; at the top, an array also contains a scalar that is an item of it. -/
def contains (w v : Parsed) : Bool :=
  match w, v with
  | .array _, .object _ => v.contained w
  | .array _, .array _ => v.contained w
  | .array items, scalar => items.any scalar.sameScalar
  | w, v => v.contained w

variable {k s : JsString} {v : Value} {es : List (JsString × Value)}

theorem contains_entry {w v : Parsed} : contains w (.object [(k, v)]) =
    w.entries.any fun es => (es.find? (·.1 = k)).any fun e => v.contained e.2 := by
  cases w <;> simp [contains, Parsed.contained, containedEntries, Parsed.entries]

theorem find?_parsedEntries : (parsedEntries es).find? (·.1 = k) =
    (es.find? (·.1 = k)).map fun e => (e.1, e.2.parsed) := by
  rw [parsedEntries_eq, List.find?_map]
  rfl

theorem castJsonb_text (h : v.isJson = true) :
    castJsonb v.text = if v.parsed.all isStorable then some v.parsed else none := by
  rw [castJsonb, parse_text h, Option.filter_some]

end HomelabApps.Library.Json
