import HomelabApps.Library.Json

/-! Headers of plain scalars, quoted scalars and lists of plain scalars: their text, what the core schema makes of it,
and a reader of such headers. -/

namespace HomelabApps.Library.Yaml

open HomelabApps.Library.Utf16
open HomelabApps.Library.Json (Value)

def LF : UInt16 := 0xA
def SPACE : UInt16 := 0x20
def QUOTE : UInt16 := 0x22
def COMMA : UInt16 := 0x2C
def DOT : UInt16 := 0x2E
def COLON : UInt16 := 0x3A
def OPEN : UInt16 := 0x5B
def CLOSE : UInt16 := 0x5D

def isDigit (u : UInt16) : Bool := 0x30 ≤ u && u ≤ 0x39

def isLower (u : UInt16) : Bool := 0x61 ≤ u && u ≤ 0x7A

def isAlphanumeric (u : UInt16) : Bool := isDigit u || isLower u || (0x41 ≤ u && u ≤ 0x5A)

def unsigned : JsString → JsString
  | [] => []
  | u :: s => if u = 0x2D || u = 0x2B then s else u :: s

/-- `([eE][-+]?[0-9]+)?`. -/
def isExponent : JsString → Bool
  | [] => true
  | u :: s => (u = 0x65 || u = 0x45) && unsigned s ≠ [] && (unsigned s).all isDigit

/-- `[-+]?(\.[0-9]+|[0-9]+(\.[0-9]*)?)([eE][-+]?[0-9]+)?`. -/
def isDecimal (s : JsString) : Bool :=
  let whole := (unsigned s).takeWhile isDigit
  let rest := (unsigned s).dropWhile isDigit
  if rest.head? = some DOT then
    (whole ≠ [] || (rest.drop 1).takeWhile isDigit ≠ []) && isExponent ((rest.drop 1).dropWhile isDigit)
  else whole ≠ [] && isExponent rest

def isRadix : JsString → Bool
  | 0x30 :: 0x6F :: s => s ≠ [] && s.all fun u => 0x30 ≤ u && u ≤ 0x37
  | 0x30 :: 0x78 :: s => s ≠ [] && s.all fun u => isDigit u || (0x61 ≤ u && u ≤ 0x66) || (0x41 ≤ u && u ≤ 0x46)
  | _ => false

def INFINITIES : List JsString := [utf16 ".inf", utf16 ".Inf", utf16 ".INF"]

def NANS : List JsString := [utf16 ".nan", utf16 ".NaN", utf16 ".NAN"]

def NULLS : List JsString := [[], utf16 "~", utf16 "null", utf16 "Null", utf16 "NULL"]

def TRUES : List JsString := [utf16 "true", utf16 "True", utf16 "TRUE"]

def FALSES : List JsString := [utf16 "false", utf16 "False", utf16 "FALSE"]

def isNumber (s : JsString) : Bool :=
  isDecimal s || isRadix s || INFINITIES.contains (unsigned s) || NANS.contains s

/-- The core schema reads the plain scalar as null, a boolean or a number, not as a string. -/
def isResolved (s : JsString) : Bool := NULLS.contains s || TRUES.contains s || FALSES.contains s || isNumber s

inductive Node
  | plain (s : JsString)
  | quoted (s : JsString)
  | list (items : List JsString)
  deriving DecidableEq

abbrev Header := List (JsString × Node)

def Node.text : Node → JsString
  | .plain s => s
  | .quoted s => QUOTE :: s ++ [QUOTE]
  | .list items => OPEN :: [COMMA, SPACE].intercalate items ++ [CLOSE]

def Node.value (resolve : JsString → Value) : Node → Value
  | .plain s => resolve s
  | .quoted s => .string s
  | .list items => .array (items.map resolve)

def lineText (entry : JsString × Node) : JsString := entry.1 ++ COLON :: SPACE :: entry.2.text

def headerText (header : Header) : JsString := [LF].intercalate (header.map lineText)

def isPlainUnit (u : UInt16) : Bool := isAlphanumeric u || (utf16 "._-@+/").contains u

def isPlain : JsString → Bool
  | [] => false
  | u :: s => isAlphanumeric u && s.all isPlainUnit

def isQuotable (s : JsString) : Bool := s.all fun u => 0x20 ≤ u && u < 0x7F && u ≠ QUOTE && u ≠ 0x5C

def Node.isValid : Node → Bool
  | .plain s => isPlain s
  | .quoted s => isQuotable s
  | .list items => items.all isPlain

def isKey (key : JsString) : Bool := key ≠ [] && key.length ≤ 1024 && key.all isLower && !isResolved key

structure Header.Valid (header : Header) : Prop where
  nonempty : header ≠ []
  keys : (header.map (·.1)).Nodup
  isKey : ∀ entry ∈ header, isKey entry.1
  nodes : ∀ entry ∈ header, entry.2.isValid

structure CoreSchema (parse : JsString → Except String Value) where
  resolve : JsString → Value
  string : ∀ {s}, isPlain s → isResolved s = false → resolve s = .string s
  resolved : ∀ {s}, isPlain s → isResolved s → ∀ t, resolve s ≠ .string t
  header : ∀ {header : Header}, header.Valid →
    parse (headerText header) = .ok (.object (header.map fun entry => (entry.1, entry.2.value resolve)))

/-- A plain scalar by the core schema; a number is read without its value. -/
def scalar (s : JsString) : Value :=
  if NULLS.contains s then .null
  else if TRUES.contains s then .bool true
  else if FALSES.contains s then .bool false
  else if isNumber s then .number none
  else .string s

def readNode (s : JsString) : Value :=
  if s.head? = some OPEN then
    if s.length = 2 then .array []
    else .array ((((s.drop 1).dropLast).splitOn COMMA).map fun item => scalar (item.dropWhile (· = SPACE)))
  else if s.head? = some QUOTE then .string ((s.drop 1).dropLast)
  else scalar s

def readLine (line : JsString) : JsString × Value :=
  let key := line.takeWhile (· ≠ COLON)
  (key, readNode (line.drop (key.length + 2)))

def readHeader (text : JsString) : Except String Value := .ok (.object ((text.splitOn LF).map readLine))

variable {s : JsString} {u v : UInt16} {items : List JsString} {node : Node} {entry : JsString × Node} {header : Header}

theorem scalar_string (h : isResolved s = false) : scalar s = .string s := by
  simp only [isResolved, Bool.or_eq_false_iff] at h
  obtain ⟨⟨⟨hnull, htrue⟩, hfalse⟩, hnumber⟩ := h
  rw [scalar, hnull, htrue, hfalse, hnumber]
  rfl

theorem scalar_resolved (h : isResolved s) (t : JsString) : scalar s ≠ .string t := by
  rw [scalar]
  split
  · exact Value.noConfusion
  · rename_i hnull
    split
    · exact Value.noConfusion
    · rename_i htrue
      split
      · exact Value.noConfusion
      · rename_i hfalse
        rw [Bool.not_eq_true] at hnull htrue hfalse
        rw [isResolved, hnull, htrue, hfalse, Bool.false_or, Bool.false_or, Bool.false_or] at h
        rw [if_pos h]
        exact Value.noConfusion

theorem isPlainUnit_of_isAlphanumeric (h : isAlphanumeric u) : isPlainUnit u := by
  rw [isPlainUnit, h, Bool.true_or]

theorem isPlainUnit_of_isPlain (h : isPlain s) : ∀ u ∈ s, isPlainUnit u := by
  cases s with
  | nil => exact List.forall_mem_nil _
  | cons u s =>
    rw [isPlain, Bool.and_eq_true] at h
    exact List.forall_mem_cons.mpr ⟨isPlainUnit_of_isAlphanumeric h.1, List.all_eq_true.mp h.2⟩

theorem ne_nil_of_isPlain (h : isPlain s) : s ≠ [] := by
  rintro rfl
  cases h

theorem notMem_of_isPlain (h : isPlain s) (hu : isPlainUnit u = false) : u ∉ s := fun hmem => by
  rw [isPlainUnit_of_isPlain h u hmem] at hu
  cases hu

theorem head_of_isPlain (h : isPlain s) (hu : isPlainUnit u = false) : s.head? ≠ some u := fun hhead =>
  notMem_of_isPlain h hu (List.mem_of_mem_head? hhead)

theorem notMem_of_isQuotable (h : isQuotable s) (hu : u < 0x20) : u ∉ s := by
  intro hmem
  have hall := List.all_eq_true.mp h u hmem
  simp only [Bool.and_eq_true, decide_eq_true_eq] at hall
  exact absurd hall.1.1.1 (UInt16.not_le.mpr hu)

theorem not_isPlainUnit_of_control (hu : u < 0x20) : isPlainUnit u = false := by
  rw [UInt16.lt_iff_toNat_lt] at hu
  simp only [isPlainUnit, isAlphanumeric, isDigit, isLower, UInt16.le_iff_toNat_le, Bool.or_eq_false_iff,
    Bool.and_eq_false_iff, decide_eq_false_iff_not, List.contains_eq_mem, UInt16.reduceToNat] at hu ⊢
  refine ⟨⟨⟨by omega, by omega⟩, by omega⟩, fun hmem => ?_⟩
  have hall : (utf16 "._-@+/").all (fun v => 0x20 ≤ v.toNat) = true := by decide
  have := of_decide_eq_true (List.all_eq_true.mp hall u hmem)
  omega

theorem intercalate_space : [COMMA, SPACE].intercalate items =
    [COMMA].intercalate (items.take 1 ++ (items.drop 1).map (SPACE :: ·)) := by
  cases items with
  | nil => rfl
  | cons item items =>
    induction items generalizing item with
    | nil => rfl
    | cons next items ih =>
      have htail := ih next
      simp only [List.take_succ_cons, List.take_zero, List.drop_succ_cons, List.drop_zero, List.singleton_append,
        List.map_cons, List.intercalate_cons_cons] at htail ⊢
      rw [htail]
      cases items with
      | nil => simp [List.intercalate]
      | cons third items => simp [List.intercalate_cons_cons]

theorem notMem_text (h : node.isValid) (hu : u < 0x20) : u ∉ node.text := by
  have hne : ∀ v, ¬v < 0x20 → u ≠ v := fun v hv huv => hv (huv ▸ hu)
  cases node with
  | plain s => exact notMem_of_isPlain h (not_isPlainUnit_of_control hu)
  | quoted s =>
    have hs : u ∉ s := notMem_of_isQuotable h hu
    simp only [Node.text, List.cons_append, List.mem_cons, List.mem_append, List.not_mem_nil, or_false, not_or]
    exact ⟨hne QUOTE (by decide), hs, hne QUOTE (by decide)⟩
  | list items =>
    have hseparator : u ∉ [COMMA, SPACE] := by
      simp only [List.mem_cons, List.not_mem_nil, or_false, not_or]
      exact ⟨hne COMMA (by decide), hne SPACE (by decide)⟩
    have hitems : u ∉ [COMMA, SPACE].intercalate items := notMem_intercalate hseparator fun item hitem =>
      notMem_of_isPlain (List.all_eq_true.mp h item hitem) (not_isPlainUnit_of_control hu)
    simp only [Node.text, List.cons_append, List.mem_cons, List.mem_append, List.not_mem_nil, or_false, not_or]
    exact ⟨hne OPEN (by decide), hitems, hne CLOSE (by decide)⟩

theorem notMem_key (h : isKey s) (hu : isLower u = false) : u ∉ s := by
  intro hmem
  simp only [isKey, Bool.and_eq_true] at h
  rw [List.all_eq_true.mp h.1.2 u hmem] at hu
  cases hu

theorem notMem_lineText (hkey : isKey entry.1) (hnode : entry.2.isValid) (hu : u < 0x20) : u ∉ lineText entry := by
  have hlower : isLower u = false := by
    rw [isLower, Bool.and_eq_false_iff, decide_eq_false_iff_not]
    exact .inl (UInt16.not_le.mpr (UInt16.lt_trans hu (by decide)))
  have hne : ∀ v, ¬v < 0x20 → u ≠ v := fun v hv huv => hv (huv ▸ hu)
  simp only [lineText, List.mem_append, List.mem_cons, not_or]
  exact ⟨notMem_key hkey hlower, hne COLON (by decide), hne SPACE (by decide), notMem_text hnode hu⟩

theorem readNode_text (h : node.isValid) : readNode node.text = node.value scalar := by
  cases node with
  | plain s =>
    rw [Node.text, readNode, if_neg (head_of_isPlain h (by decide)), if_neg (head_of_isPlain h (by decide))]
    rfl
  | quoted s =>
    have hhead : ¬(QUOTE :: (s ++ [QUOTE])).head? = some OPEN := by
      rw [List.head?_cons]
      decide
    rw [Node.text, List.cons_append, readNode, if_neg hhead, if_pos List.head?_cons, List.drop_succ_cons, List.drop_zero,
      List.dropLast_concat]
    rfl
  | list items =>
    have hplain : ∀ item ∈ items, isPlain item := List.all_eq_true.mp h
    rw [Node.text, List.cons_append, readNode, if_pos List.head?_cons]
    cases items with
    | nil => rfl
    | cons item items =>
      have hlength : ¬(OPEN :: ([COMMA, SPACE].intercalate (item :: items) ++ [CLOSE])).length = 2 := by
        have hne := ne_nil_of_isPlain (hplain item List.mem_cons_self)
        have hitem := List.length_pos_of_ne_nil hne
        cases items with
        | nil => simp [List.intercalate]; omega
        | cons next items => simp [List.intercalate_cons_cons]; omega
      have hcomma : ∀ part ∈ item :: items.map (SPACE :: ·), COMMA ∉ part := by
        intro part hpart
        rcases List.mem_cons.mp hpart with rfl | hpart
        · exact notMem_of_isPlain (hplain _ List.mem_cons_self) (by decide)
        · obtain ⟨next, hnext, rfl⟩ := List.mem_map.mp hpart
          rw [List.mem_cons, not_or]
          exact ⟨by decide, notMem_of_isPlain (hplain next (List.mem_cons_of_mem _ hnext)) (by decide)⟩
      have hdrop : ∀ next ∈ item :: items, next.dropWhile (· = SPACE) = next := by
        intro next hnext
        have hhead := head_of_isPlain (u := SPACE) (hplain next hnext) (by decide)
        cases next with
        | nil => rfl
        | cons v next =>
          rw [List.dropWhile_cons_of_neg]
          simpa using hhead
      rw [if_neg hlength, List.drop_succ_cons, List.drop_zero, List.dropLast_concat, intercalate_space]
      simp only [List.take_succ_cons, List.take_zero, List.drop_succ_cons, List.drop_zero, List.singleton_append]
      rw [List.splitOn_intercalate _ hcomma (List.cons_ne_nil _ _)]
      simp only [Node.value, List.map_cons, List.map_map, hdrop item List.mem_cons_self]
      congr 2
      apply List.map_congr_left
      intro next hnext
      have hnext := hdrop next (List.mem_cons_of_mem _ hnext)
      simp [hnext]

theorem readLine_text (hkey : isKey entry.1) (hnode : entry.2.isValid) :
    readLine (lineText entry) = (entry.1, entry.2.value scalar) := by
  have hcolon : COLON ∉ entry.1 := notMem_key hkey (by decide)
  have htake : (lineText entry).takeWhile (· ≠ COLON) = entry.1 := by
    rw [lineText, List.takeWhile_append_of_pos, List.takeWhile_cons_of_neg (by simp), List.append_nil]
    intro u hu
    rw [decide_eq_true_eq]
    rintro rfl
    exact hcolon hu
  rw [readLine, htake, lineText,
    show entry.1 ++ COLON :: SPACE :: entry.2.text = (entry.1 ++ [COLON, SPACE]) ++ entry.2.text by simp,
    List.drop_left' (by simp), readNode_text hnode]

def coreSchema : CoreSchema readHeader where
  resolve := scalar
  string _ h := scalar_string h
  resolved _ h := scalar_resolved h
  header {header} h := by
    have hlines : ∀ line ∈ header.map lineText, LF ∉ line := by
      intro line hline
      obtain ⟨entry, hentry, rfl⟩ := List.mem_map.mp hline
      exact notMem_lineText (h.isKey entry hentry) (h.nodes entry hentry) (by decide)
    rw [readHeader, headerText, List.splitOn_intercalate _ hlines (by simpa using h.nonempty), List.map_map]
    congr 2
    apply List.map_congr_left
    intro entry hentry
    exact readLine_text (h.isKey entry hentry) (h.nodes entry hentry)

def WORD_STARTS : JsString := utf16 "~nNtTfF.+-"

theorem words_start {words : List JsString} (hwords : words.all (fun word => word.head?.all WORD_STARTS.contains) = true)
    (hu : WORD_STARTS.contains u = false) : words.contains (u :: s) = false := by
  rw [List.contains_eq_mem, decide_eq_false_iff_not]
  intro hmem
  have hhead : (u :: s).head?.all WORD_STARTS.contains = true := List.all_eq_true.mp hwords (u :: s) hmem
  rw [List.head?_cons, Option.all_some, hu] at hhead
  cases hhead

theorem unsigned_of_start (hu : WORD_STARTS.contains u = false) : unsigned (u :: s) = u :: s := by
  have hsigns : u ∉ WORD_STARTS := by simpa using hu
  have hminus : u ≠ 0x2D := fun h => hsigns (h ▸ by decide)
  have hplus : u ≠ 0x2B := fun h => hsigns (h ▸ by decide)
  rw [unsigned, if_neg (by simp [hminus, hplus])]

theorem isResolved_of_start (hu : WORD_STARTS.contains u = false) :
    isResolved (u :: s) = (isDecimal (u :: s) || isRadix (u :: s)) := by
  have hnulls : NULLS.contains (u :: s) = false := by
    have hwords := @words_start s u (NULLS.drop 1) (by decide) hu
    rw [NULLS, List.contains_cons, Bool.or_eq_false_iff]
    exact ⟨rfl, hwords⟩
  rw [isResolved, isNumber, unsigned_of_start hu, hnulls, words_start (by decide) hu,
    words_start (by decide) hu, words_start (by decide) hu,
    words_start (by decide) hu]
  simp

theorem isResolved_of_letter (hu : WORD_STARTS.contains u = false) (hdigit : isDigit u = false) :
    isResolved (u :: s) = false := by
  have hzero : u ≠ 0x30 := fun h => by
    rw [h] at hdigit
    cases hdigit
  have hdot : u ≠ DOT := fun h => by
    rw [h] at hu
    cases hu
  rw [isResolved_of_start hu, Bool.or_eq_false_iff]
  constructor
  · rw [isDecimal, unsigned_of_start hu]
    simp [hdigit, hdot]
  · unfold isRadix
    split
    · rename_i h
      exact absurd (List.cons.inj h).1 hzero
    · rename_i h
      exact absurd (List.cons.inj h).1 hzero
    · rfl

theorem isResolved_of_digits {digits : JsString} (hdigits : ∀ d ∈ digits, isDigit d) (hlength : 2 ≤ digits.length)
    (hu : isDigit u = false) (hpart : (utf16 ".eE").contains u = false) : isResolved (digits ++ u :: s) = false := by
  match digits, hlength with
  | d :: e :: digits, _ =>
    obtain ⟨hd, he, -⟩ := List.forall_mem_cons.mp hdigits |>.imp_right List.forall_mem_cons.mp
    have hstart : ∀ v, isDigit v = true → WORD_STARTS.contains v = false := by
      intro v hv
      rw [← Bool.not_eq_true]
      intro hmem
      have hnone : WORD_STARTS.all (fun w => !isDigit w) = true := by decide
      have := List.all_eq_true.mp hnone v (by simpa using hmem)
      rw [hv] at this
      cases this
    have hparts : u ∉ utf16 ".eE" := by simpa using hpart
    have hdot : u ≠ DOT := fun h => hparts (h ▸ by decide)
    have hlower : u ≠ 0x65 := fun h => hparts (h ▸ by decide)
    have hupper : u ≠ 0x45 := fun h => hparts (h ▸ by decide)
    have hrest : (d :: e :: digits ++ u :: s).dropWhile isDigit = u :: s := by
      rw [List.dropWhile_append_of_pos hdigits, List.dropWhile_cons_of_neg (by simp [hu])]
    rw [List.cons_append, isResolved_of_start (hstart d hd), Bool.or_eq_false_iff]
    constructor
    · rw [isDecimal, unsigned_of_start (hstart d hd)]
      rw [List.cons_append] at hrest
      rw [hrest, if_neg (by simpa using hdot)]
      simp [isExponent, hlower, hupper]
    · unfold isRadix
      split
      · rename_i h
        rw [(List.cons.inj (List.cons.inj h).2).1] at he
        cases he
      · rename_i h
        rw [(List.cons.inj (List.cons.inj h).2).1] at he
        cases he
      · rfl

end HomelabApps.Library.Yaml
