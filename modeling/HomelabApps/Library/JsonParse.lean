import HomelabApps.Library.JsonText

namespace HomelabApps.Library.Json

open HomelabApps.Library.Utf16

inductive Parsed
  | null
  | bool (b : Bool)
  | number (token : JsString)
  | string (s : JsString)
  | array (items : List Parsed)
  | object (entries : List (JsString × Parsed))

def isBlank (u : UInt16) : Bool := u = 0x20 || u = 0x9 || u = 0xA || u = 0xD

def skip (s : JsString) : JsString := s.dropWhile isBlank

def isDigit (u : UInt16) : Bool := 0x30 ≤ u && u ≤ 0x39

def hexDigit? (u : UInt16) : Option Nat :=
  if isDigit u then some (u.toNat - 0x30)
  else if 0x41 ≤ u ∧ u ≤ 0x46 then some (u.toNat - 0x37)
  else if 0x61 ≤ u ∧ u ≤ 0x66 then some (u.toNat - 0x57)
  else none

def letter? (u : UInt16) : Option UInt16 :=
  if u = 0x22 ∨ u = 0x5C ∨ u = 0x2F then some u
  else if u = 0x62 then some 0x8
  else if u = 0x74 then some 0x9
  else if u = 0x6E then some 0xA
  else if u = 0x66 then some 0xC
  else if u = 0x72 then some 0xD
  else none

def hexUnit? (a b c d : UInt16) : Option UInt16 := do
  return ((← hexDigit? a) * 0x1000 + (← hexDigit? b) * 0x100 + (← hexDigit? c) * 0x10 + (← hexDigit? d)).toUInt16

def parseString : JsString → Option (JsString × JsString)
  | [] => none
  | u :: t =>
    if u = 0x22 then some ([], t)
    else if u < 0x20 then none
    else if u = BACKSLASH then
      match t with
      | [] => none
      | v :: t =>
        if v = 0x75 then
          match t with
          | a :: b :: c :: d :: t => do
            let unit ← hexUnit? a b c d
            let (s, rest) ← parseString t
            return (unit :: s, rest)
          | _ => none
        else do
          let unit ← letter? v
          let (s, rest) ← parseString t
          return (unit :: s, rest)
    else do
      let (s, rest) ← parseString t
      return (u :: s, rest)

def validExponent : JsString → Bool
  | [] => true
  | u :: t =>
    let t := if t.head? = some 0x2B ∨ t.head? = some 0x2D then t.tail else t
    (u = 0x65 || u = 0x45) && t ≠ [] && t.all isDigit

def validFraction (s : JsString) : Bool :=
  if s.head? = some 0x2E then s.tail.takeWhile isDigit ≠ [] && validExponent (s.tail.dropWhile isDigit)
  else validExponent s

def validNumber (token : JsString) : Bool :=
  let t := if token.head? = some 0x2D then token.tail else token
  let whole := t.takeWhile isDigit
  whole ≠ [] && (whole.head? ≠ some 0x30 || whole.length = 1) && validFraction (t.dropWhile isDigit)

def inNumber (u : UInt16) : Bool :=
  isDigit u || u = 0x2B || u = 0x2D || u = 0x2E || u = 0x45 || u = 0x65

def parseWord (s : JsString) : Option (Parsed × JsString) :=
  if (utf16 "null").isPrefixOf s then some (.null, s.drop 4)
  else if (utf16 "true").isPrefixOf s then some (.bool true, s.drop 4)
  else if (utf16 "false").isPrefixOf s then some (.bool false, s.drop 5)
  else if validNumber (s.takeWhile inNumber) then some (.number (s.takeWhile inNumber), s.dropWhile inNumber)
  else none

mutual

def parseValue : Nat → JsString → Option (Parsed × JsString)
  | 0, _ => none
  | fuel + 1, s =>
    match skip s with
    | [] => none
    | u :: t =>
      if u = 0x22 then do
        let (s, rest) ← parseString t
        return (.string s, rest)
      else if u = 0x5B then
        if (skip t).head? = some 0x5D then some (.array [], (skip t).tail)
        else do
          let (items, rest) ← parseItems fuel t
          return (.array items, rest)
      else if u = 0x7B then
        if (skip t).head? = some 0x7D then some (.object [], (skip t).tail)
        else do
          let (entries, rest) ← parseEntries fuel t
          return (.object entries, rest)
      else parseWord (u :: t)

def parseItems : Nat → JsString → Option (List Parsed × JsString)
  | 0, _ => none
  | fuel + 1, s => do
    let (item, t) ← parseValue fuel s
    match skip t with
    | [] => none
    | u :: t =>
      if u = 0x2C then do
        let (items, rest) ← parseItems fuel t
        return (item :: items, rest)
      else if u = 0x5D then some ([item], t)
      else none

def parseEntries : Nat → JsString → Option (List (JsString × Parsed) × JsString)
  | 0, _ => none
  | fuel + 1, s => do
    guard ((skip s).head? = some 0x22)
    let (key, t) ← parseString (skip s).tail
    guard ((skip t).head? = some 0x3A)
    let (value, t) ← parseValue fuel (skip t).tail
    match skip t with
    | [] => none
    | u :: t =>
      if u = 0x2C then do
        let (entries, rest) ← parseEntries fuel t
        return ((key, value) :: entries, rest)
      else if u = 0x7D then some ([(key, value)], t)
      else none

end

/-- `JSON.parse`, `none` where it throws. Reading a value and reading its parts each take one step
of the fuel, and every other step takes a code unit. -/
def parse (s : JsString) : Option Parsed := do
  let (value, rest) ← parseValue (2 * s.length + 2) s
  if skip rest = [] then some value else none

variable {s t : JsString} {u : UInt16} {n : Nat}

theorem hexDigit?_hexDigit (h : n < 16) : hexDigit? (hexDigit n) = some n := by
  have hall : ∀ n : Fin 16, hexDigit? (hexDigit n) = some n.val := by decide
  exact hall ⟨n, h⟩

theorem parseString_quote : parseString (0x22 :: t) = some ([], t) := by
  rw [parseString.eq_def]
  rfl

theorem parseString_plain (hquote : u ≠ 0x22) (hcontrol : ¬ u < 0x20) (hescape : u ≠ BACKSLASH) :
    parseString (u :: t) = (parseString t).map fun r => (u :: r.1, r.2) := by
  rw [parseString.eq_def]
  simp only [if_neg hquote, if_neg hcontrol, if_neg hescape]
  cases parseString t <;> rfl

theorem parseString_letter {v unit : UInt16} (hv : v ≠ 0x75) (hunit : letter? v = some unit) :
    parseString (BACKSLASH :: v :: t) = (parseString t).map fun r => (unit :: r.1, r.2) := by
  rw [parseString.eq_def]
  simp only [show ¬ BACKSLASH = 0x22 by decide, show ¬ BACKSLASH < 0x20 by decide, if_false, if_true, if_neg hv,
    hunit, Option.bind_eq_bind, Option.bind_some]
  cases parseString t <;> rfl

theorem parseString_unicodeEscape :
    parseString (unicodeEscape u ++ t) = (parseString t).map fun r => (u :: r.1, r.2) := by
  have hu := u.toNat_lt
  have hsum : u.toNat / 0x1000 * 0x1000 + u.toNat / 0x100 % 0x10 * 0x100 + u.toNat / 0x10 % 0x10 * 0x10 +
      u.toNat % 0x10 = u.toNat := by omega
  have hunit : hexUnit? (hexDigit (u.toNat / 0x1000)) (hexDigit (u.toNat / 0x100 % 0x10))
      (hexDigit (u.toNat / 0x10 % 0x10)) (hexDigit (u.toNat % 0x10)) = some u := by
    rw [hexUnit?, hexDigit?_hexDigit (by omega), hexDigit?_hexDigit (by omega),
      hexDigit?_hexDigit (by omega), hexDigit?_hexDigit (by omega)]
    simp only [Option.bind_eq_bind, Option.bind_some, hsum]
    exact congrArg some UInt16.ofNat_toNat
  rw [unicodeEscape, List.cons_append, parseString.eq_def]
  simp only [List.cons_append, List.nil_append, show (0x5C : UInt16) = BACKSLASH from rfl, if_true, hunit,
    Option.bind_eq_bind, Option.bind_some]
  cases parseString t <;> rfl

theorem parseString_escapeUnit :
    parseString (escapeUnit u ++ t) = (parseString t).map fun r => (u :: r.1, r.2) := by
  unfold escapeUnit
  split_ifs with h1 h2 h3 h4 h5 h6 h7 h8
  · rw [h1]
    exact parseString_letter (by decide) rfl
  · rw [h2]
    exact parseString_letter (by decide) rfl
  · rw [h3]
    exact parseString_letter (by decide) rfl
  · rw [h4]
    exact parseString_letter (by decide) rfl
  · rw [h5]
    exact parseString_letter (by decide) rfl
  · rw [h6]
    exact parseString_letter (by decide) rfl
  · rw [h7]
    exact parseString_letter (by decide) rfl
  · exact parseString_unicodeEscape
  · refine parseString_plain h1 (fun hlt => h8 ?_) h2
    exact Bool.or_eq_true_iff.mpr (.inl (decide_eq_true hlt))

theorem parseString_high (h : isHigh u = true ∨ isLow u = true) :
    parseString (u :: t) = (parseString t).map fun r => (u :: r.1, r.2) := by
  have hlarge : 0xD800 ≤ u := by
    rcases h with h | h
    · exact of_decide_eq_true (Bool.and_eq_true_iff.mp h).1
    · exact UInt16.le_trans (by decide) (of_decide_eq_true (Bool.and_eq_true_iff.mp h).1)
  apply parseString_plain
  · rintro rfl
    exact absurd hlarge (by decide)
  · intro hlt
    exact absurd (UInt16.lt_of_le_of_lt hlarge hlt) (by decide)
  · rintro rfl
    exact absurd hlarge (by decide)

theorem Escaped.parse {e : JsString} (h : Escaped s e) : parseString (e ++ 0x22 :: t) = some (s, t) := by
  induction h with
  | nil => exact parseString_quote
  | pair hu hv _ ih =>
    rw [List.cons_append, parseString_high (.inl hu), List.cons_append, parseString_high (.inr hv), ih]
    rfl
  | unit _ ih =>
    rw [List.append_assoc, parseString_escapeUnit, ih]
    rfl

theorem skip_cons (h : isBlank u = false) : skip (u :: t) = u :: t := by
  rw [skip, List.dropWhile_cons, h]
  rfl

theorem parseValue_quote : parseValue (n + 1) (quote s ++ t) = some (.string s, t) := by
  have hquote : quote s ++ t = 0x22 :: (escape s ++ 0x22 :: t) := by simp [quote]
  rw [hquote, parseValue, skip_cons (by decide)]
  simp only [if_true, (escaped_escape s).parse, Option.bind_eq_bind, Option.bind_some]
  rfl

theorem parseItems_strings (ss : List JsString) (h : ss.length < n) :
    parseItems (n + 1) (quote s ++ (moreItems (ss.map .string) ++ 0x5D :: t)) =
      some ((s :: ss).map .string, t) := by
  induction ss generalizing s n with
  | nil =>
    obtain ⟨n, rfl⟩ := Nat.exists_eq_succ_of_ne_zero (Nat.ne_of_gt h)
    rw [parseItems, parseValue_quote]
    rfl
  | cons s' ss ih =>
    rw [List.length_cons] at h
    obtain ⟨n, rfl⟩ := Nat.exists_eq_succ_of_ne_zero (Nat.ne_of_gt (Nat.lt_of_le_of_lt (Nat.zero_le _) h))
    have hmore : moreItems ((s' :: ss).map .string) ++ 0x5D :: t =
        0x2C :: (quote s' ++ (moreItems (ss.map .string) ++ 0x5D :: t)) := by
      simp [moreItems, Value.text]
    rw [parseItems, parseValue_quote, hmore]
    simp only [Option.bind_eq_bind, Option.bind_some, skip_cons (u := 0x2C) (by decide), if_true,
      ih (Nat.lt_of_succ_lt_succ h)]
    rfl

theorem length_moreItems (ss : List JsString) : ss.length ≤ (moreItems (ss.map .string)).length := by
  induction ss with
  | nil => exact Nat.zero_le _
  | cons s ss ih =>
    rw [List.map_cons, moreItems, List.flatMap_cons, List.length_append, List.length_cons, List.length_cons,
      ← moreItems]
    omega

theorem parse_strings (ss : List JsString) :
    parse (Value.array (ss.map .string)).text = some (.array (ss.map .string)) := by
  cases ss with
  | nil => rfl
  | cons s ss =>
    have htext : (Value.array ((s :: ss).map .string)).text =
        0x5B :: (quote s ++ (moreItems (ss.map .string) ++ 0x5D :: [])) := by
      have happend : (Value.array (.string s :: ss.map .string)).text ++ [] =
          0x5B :: (quote s ++ (moreItems (ss.map .string) ++ 0x5D :: [])) := text_array_cons
      rwa [List.append_nil] at happend
    have hquote : ∃ rest, quote s = 0x22 :: rest := ⟨_, rfl⟩
    obtain ⟨rest, hrest⟩ := hquote
    have hlength := length_moreItems ss
    have hskip : (skip (quote s ++ (moreItems (ss.map .string) ++ 0x5D :: []))).head? ≠ some 0x5D := by
      rw [hrest, List.cons_append, skip_cons (by decide), List.head?_cons]
      decide
    rw [htext, parse, parseValue, skip_cons (by decide)]
    simp only [if_neg (show ¬ (0x5B : UInt16) = 0x22 by decide), if_true, if_neg hskip]
    rw [show 2 * (0x5B :: (quote s ++ (moreItems (ss.map .string) ++ 0x5D :: []))).length + 1 =
      2 * (quote s ++ (moreItems (ss.map .string) ++ 0x5D :: [])).length + 2 + 1 from by
        rw [List.length_cons]; omega]
    rw [parseItems_strings ss (by simp only [List.length_append]; omega)]
    rfl

end HomelabApps.Library.Json
