import HomelabApps.Library.JsonAccess
import HomelabApps.Library.SharedFetch
import Mathlib.Data.Rat.Defs
import Mathlib.Algebra.Order.Ring.Unbundled.Rat

namespace HomelabApps.HttpProvider

open HomelabApps.Library
open HomelabApps.Library.Json
open HomelabApps.Library.Utf16

/-- What values outside this package are asked: whether one is an object, and the number that the
text of one is, `none` for one that is not finite. -/
structure Values where
  isObject : Parsed → Bool
  toNumber : JsString → Option ℚ

def typeOf : Option Parsed → JsString
  | none => utf16 "undefined"
  | some (.bool _) => utf16 "boolean"
  | some (.number _) => utf16 "number"
  | some (.string _) => utf16 "string"
  | some _ => utf16 "object"

/-- `value[key]` of an object or an array. -/
def property (value : Parsed) (key : JsString) : Option Parsed :=
  match value with
  | .array items =>
    if key = utf16 "length" then some (.number (utf16 (toString items.length)))
    else (arrayIndex key).bind fun i => items[i]?
  | value => value.get key

def resolveParts (values : Values) (path : JsString) : List JsString → Option Parsed → Except JsString (Option Parsed)
  | [], current => .ok current
  | part :: parts, current =>
    match current.filter values.isObject with
    | none => .error (utf16 "Cannot extract path \"" ++ path ++ utf16 "\": \"" ++ part ++ utf16 "\" is not an object")
    | some value => resolveParts values path parts (property value part)

def resolvePath (values : Values) (obj : Parsed) (path : JsString) : Except JsString (Option Parsed) :=
  resolveParts values path (path.splitOn 0x2E) (some obj)

def extractByPath (values : Values) (obj : Parsed) (path : JsString) : Except JsString JsString :=
  (resolvePath values obj path).bind fun current =>
    match current with
    | some (.string s) => .ok s
    | _ =>
      .error (utf16 "Extracted value at path \"" ++ path ++ utf16 "\" is not a string (got " ++ typeOf current ++
        utf16 ")")

def numberAt (values : Values) : Option Parsed → Option ℚ
  | some (.string s) => if isNotEmpty s then values.toNumber s else none
  | some (.number token) => values.toNumber token
  | _ => none

def extractNumberByPath (values : Values) (obj : Parsed) (path : JsString) : Except JsString ℚ :=
  (resolvePath values obj path).bind fun current =>
    match numberAt values current with
    | some value => .ok value
    | none =>
      .error (utf16 "Extracted value at path \"" ++ path ++ utf16 "\" is not a number (got " ++ typeOf current ++
        utf16 ")")

structure TokenExtractorEntry where
  field : JsString
  as : JsString

structure TokenExchangeAuth where
  tokenExtractor : List TokenExtractorEntry
  expiresIn : Option JsString
  expiryMargin : Option { margin : ℚ // 0 ≤ margin }

def DEFAULT_EXPIRY_MARGIN_SECONDS : ℚ := 30

def TokenExchangeAuth.margin (config : TokenExchangeAuth) : ℚ :=
  (config.expiryMargin.map (·.val)).getD DEFAULT_EXPIRY_MARGIN_SECONDS

abbrev Credentials := List (JsString × JsString)

def assign (credentials : Credentials) (name value : JsString) : Credentials :=
  if credentials.any (·.1 = name) then credentials.map fun e => if e.1 = name then (name, value) else e
  else credentials ++ [(name, value)]

def extractAll (values : Values) (data : Parsed) : List TokenExtractorEntry → Credentials → Except JsString Credentials
  | [], credentials => .ok credentials
  | extractor :: extractors, credentials =>
    (extractByPath values data extractor.field).bind fun value =>
      extractAll values data extractors (assign credentials extractor.as value)

structure Fetched where
  credentials : Credentials
  expiresAt : Option ℚ

/-- From the answer of the token endpoint on, which comes at the time `now`. -/
def fetchCredentials (values : Values) (config : TokenExchangeAuth) (now : Nat) (data : Parsed) :
    Except JsString Fetched :=
  (extractAll values data config.tokenExtractor []).bind fun credentials =>
    match config.expiresIn with
    | none => .ok { credentials, expiresAt := none }
    | some path =>
      (extractNumberByPath values data path).map fun lifetime =>
        { credentials, expiresAt := some (now + (lifetime - config.margin) * 1000) }

def TokenExchangeStrategy (values : Values) (config : TokenExchangeAuth) :
    SharedFetch.Source (Except JsString Parsed) JsString Fetched Credentials ℚ where
  receive _ now answer := some (answer.bind (fetchCredentials values config now))
  value fetched := fetched.credentials
  expiry _ fetched := fetched.expiresAt
  usable now _ expiresAt :=
    match expiresAt with
    | none => true
    | some expiresAt => (now : ℚ) < expiresAt
  lapses := by
    intro t u value expiresAt htu husable
    cases expiresAt with
    | none => rfl
    | some expiresAt =>
      have htu : (t : ℚ) ≤ u := by exact_mod_cast htu
      exact decide_eq_true (lt_of_le_of_lt htu (of_decide_eq_true husable))

end HomelabApps.HttpProvider
