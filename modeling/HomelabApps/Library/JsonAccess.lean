import HomelabApps.Library.JsonParse

namespace HomelabApps.Library.Json

open HomelabApps.Library.Utf16

structure TypeError where
  message : JsString

/-- `value.key` of a value that is not `null`; of two entries with one key the later one counts. -/
def Parsed.get (value : Parsed) (key : JsString) : Option Parsed :=
  match value with
  | .object entries => (entries.reverse.find? fun e => e.1 = key).map (·.2)
  | _ => none

def Parsed.first? : Parsed → Option Parsed
  | .array items => items.head?
  | .string s => s.head?.map fun u => .string [u]
  | .object entries => Parsed.get (.object entries) (utf16 "0")
  | _ => none

def codePointStrings : JsString → List JsString
  | [] => []
  | [u] => [[u]]
  | u :: v :: rest =>
    if isHigh u && isLow v then [u, v] :: codePointStrings rest else [u] :: codePointStrings (v :: rest)

def Parsed.iterate : Parsed → Except TypeError (List Parsed)
  | .array items => .ok items
  | .string s => .ok ((codePointStrings s).map .string)
  | _ => .error ⟨utf16 "value is not iterable"⟩

mutual

/-- A value inside a template literal; an object that hides its own `toString` throws. A number is
shown as its token. -/
def interpolate : Parsed → Except TypeError JsString
  | .null => .ok (utf16 "null")
  | .bool b => .ok (utf16 (if b then "true" else "false"))
  | .number token => .ok token
  | .string s => .ok s
  | .array items => (interpolateItems items).map (utf16 ",").intercalate
  | .object entries =>
    if entries.any fun e => e.1 = utf16 "toString" then
      .error ⟨utf16 "Cannot convert object to primitive value"⟩
    else .ok (utf16 "[object Object]")

def interpolateItems : List Parsed → Except TypeError (List JsString)
  | [] => .ok []
  | .null :: items => (interpolateItems items).map ([] :: ·)
  | item :: items => do return (← interpolate item) :: (← interpolateItems items)

end

def natOf (digits : JsString) : Nat := digits.foldl (fun n u => 10 * n + (u.toNat - 0x30)) 0

def exponentOf (s : JsString) : Int :=
  match s with
  | [] => 0
  | _ :: t => if t.head? = some 0x2D then -(natOf t.tail : Int) else natOf (if t.head? = some 0x2B then t.tail else t)

def decimalOf (token : JsString) : Nat × Int :=
  let t := if token.head? = some 0x2D then token.tail else token
  let rest := t.dropWhile isDigit
  let fraction := if rest.head? = some 0x2E then rest.tail.takeWhile isDigit else []
  let rest := if rest.head? = some 0x2E then rest.tail.dropWhile isDigit else rest
  (natOf (t.takeWhile isDigit ++ fraction), exponentOf rest - fraction.length)

/-- The token is zero as a double, also where it is too small for one. -/
def isZeroToken (token : JsString) : Bool :=
  let (digits, exponent) := decimalOf token
  digits = 0 || (exponent < 0 && digits * 2 ^ 1075 ≤ 10 ^ exponent.natAbs)

def Parsed.isZero : Parsed → Bool
  | .number token => isZeroToken token
  | _ => false

end HomelabApps.Library.Json
