import HomelabApps.Library.JsonCanonical
import HomelabApps.Library.JsonParse

/-! `JSON.parse` after `JSON.stringify`, for every value that JSON itself can hold. -/

namespace HomelabApps.Library.Json

open HomelabApps.Library.Utf16

mutual

def Value.parsed : Value → Parsed
  | .null => .null
  | .bool b => .bool b
  | .number none => .null
  | .number (some text) => .number (utf16 text.val)
  | .string s => .string s
  | .array items => .array (parsedItems items)
  | .object entries => .object (parsedEntries entries)
  | .ancestor _ => .null

def parsedItems : List Value → List Parsed
  | [] => []
  | v :: vs => v.parsed :: parsedItems vs

def parsedEntries : List (JsString × Value) → List (JsString × Parsed)
  | [] => []
  | (k, v) :: es => (k, v.parsed) :: parsedEntries es

end

mutual

def Value.isJson : Value → Bool
  | .number text => text.any fun text => validNumber (utf16 text.val)
  | .array items => isJsonItems items
  | .object entries => isJsonEntries entries
  | .ancestor _ => false
  | _ => true

def isJsonItems : List Value → Bool
  | [] => true
  | v :: vs => v.isJson && isJsonItems vs

def isJsonEntries : List (JsString × Value) → Bool
  | [] => true
  | (_, v) :: es => v.isJson && isJsonEntries es

end

def Closes (t : JsString) : Prop := ∀ u ∈ t.head?, inNumber u = false

variable {s t : JsString} {u : UInt16} {n : Nat} {v : Value} {vs : List Value} {es : List (JsString × Value)}

theorem isJsonItems_iff : isJsonItems vs = true ↔ ∀ v ∈ vs, v.isJson = true := by
  induction vs with
  | nil => simp [isJsonItems]
  | cons v vs ih => simp [isJsonItems, ih]

theorem isJsonEntries_iff : isJsonEntries es = true ↔ ∀ e ∈ es, e.2.isJson = true := by
  induction es with
  | nil => simp [isJsonEntries]
  | cons e es ih => simp [isJsonEntries, ih]

theorem parsedEntries_eq : parsedEntries es = es.map fun e => (e.1, e.2.parsed) := by
  induction es with
  | nil => rfl
  | cons e es ih => rw [parsedEntries, ih, List.map_cons]

theorem closes_cons (h : inNumber u = false) : Closes (u :: t) := by
  intro w hw
  obtain rfl := Option.some.inj hw
  exact h

theorem closes_moreItems : Closes (moreItems vs ++ 0x5D :: t) := by
  cases vs with
  | nil => exact closes_cons (by decide)
  | cons v vs => exact closes_cons (by decide)

theorem closes_moreEntries : Closes (moreEntries es ++ 0x7D :: t) := by
  cases es with
  | nil => exact closes_cons (by decide)
  | cons e es => exact closes_cons (by decide)

theorem inNumber_of_isNumeric (h : isNumeric u = true) : inNumber u = true := by
  simp only [isNumeric, inNumber, isDigit, Bool.or_eq_true] at h ⊢
  rcases h with (((h | h) | h) | h) | h
  · exact .inl (.inl (.inl (.inl (.inl h))))
  · exact .inl (.inl (.inl (.inr h)))
  · exact .inl (.inl (.inl (.inl (.inr h))))
  · exact .inl (.inl (.inr h))
  · exact .inr h

theorem takeWhile_number {text : NumberText} (ht : Closes t) :
    (utf16 text.val ++ t).takeWhile inNumber = utf16 text.val ∧
      (utf16 text.val ++ t).dropWhile inNumber = t := by
  have hall : ∀ u ∈ utf16 text.val, inNumber u = true := fun u hu => inNumber_of_isNumeric (numeric_of_mem hu)
  have htake : t.takeWhile inNumber = [] := by
    cases t with
    | nil => rfl
    | cons u t => rw [List.takeWhile_cons_of_neg (by simp [ht u rfl])]
  have hdrop : t.dropWhile inNumber = t := by
    cases t with
    | nil => rfl
    | cons u t => rw [List.dropWhile_cons_of_neg (by simp [ht u rfl])]
  rw [List.takeWhile_append_of_pos hall, List.dropWhile_append_of_pos hall, htake, hdrop, List.append_nil]
  exact ⟨rfl, rfl⟩

theorem parseWord_number {text : NumberText} (hvalid : validNumber (utf16 text.val) = true) (ht : Closes t) :
    parseWord (utf16 text.val ++ t) = some (.number (utf16 text.val), t) := by
  obtain ⟨u, rest, htext⟩ : ∃ u rest, utf16 text.val = u :: rest := by
    apply List.exists_cons_of_ne_nil
    rintro hnil
    rw [hnil] at hvalid
    exact absurd hvalid (by decide)
  have hu : isNumeric u = true := numeric_of_mem (htext ▸ List.mem_cons_self)
  have hn : ¬ (0x6E : UInt16) = u := by
    rintro rfl
    exact absurd hu (by decide)
  have ht' : ¬ (0x74 : UInt16) = u := by
    rintro rfl
    exact absurd hu (by decide)
  have hf : ¬ (0x66 : UInt16) = u := by
    rintro rfl
    exact absurd hu (by decide)
  have hnull : (utf16 "null").isPrefixOf (utf16 text.val ++ t) = false := by
    rw [htext, show utf16 "null" = [0x6E, 0x75, 0x6C, 0x6C] by decide]
    simp [List.isPrefixOf, hn]
  have htrue : (utf16 "true").isPrefixOf (utf16 text.val ++ t) = false := by
    rw [htext, show utf16 "true" = [0x74, 0x72, 0x75, 0x65] by decide]
    simp [List.isPrefixOf, ht']
  have hfalse : (utf16 "false").isPrefixOf (utf16 text.val ++ t) = false := by
    rw [htext, show utf16 "false" = [0x66, 0x61, 0x6C, 0x73, 0x65] by decide]
    simp [List.isPrefixOf, hf]
  obtain ⟨htake, hdrop⟩ := @takeWhile_number t text ht
  rw [parseWord, hnull, htrue, hfalse, htake, hdrop, hvalid]
  rfl

theorem parseValue_word (hblank : isBlank u = false) (hquote : u ≠ 0x22) (hbracket : u ≠ 0x5B)
    (hbrace : u ≠ 0x7B) : parseValue (n + 1) (u :: t) = parseWord (u :: t) := by
  rw [parseValue, skip_cons hblank]
  simp only [if_neg hquote, if_neg hbracket, if_neg hbrace]

theorem parseValue_number {text : NumberText} (hvalid : validNumber (utf16 text.val) = true) (ht : Closes t) :
    parseValue (n + 1) (utf16 text.val ++ t) = some (.number (utf16 text.val), t) := by
  obtain ⟨u, rest, htext⟩ : ∃ u rest, utf16 text.val = u :: rest := by
    apply List.exists_cons_of_ne_nil
    rintro hnil
    rw [hnil] at hvalid
    exact absurd hvalid (by decide)
  have hu : isNumeric u = true := numeric_of_mem (htext ▸ List.mem_cons_self)
  have hblank : isBlank u = false := by
    cases hblank : isBlank u with
    | false => rfl
    | true =>
      simp only [isBlank, Bool.or_eq_true, decide_eq_true_eq] at hblank
      rcases hblank with ((rfl | rfl) | rfl) | rfl <;> exact absurd hu (by decide)
  have hquote : u ≠ 0x22 := by
    rintro rfl
    exact absurd hu (by decide)
  have hbracket : u ≠ 0x5B := by
    rintro rfl
    exact absurd hu (by decide)
  have hbrace : u ≠ 0x7B := by
    rintro rfl
    exact absurd hu (by decide)
  have hword := parseWord_number hvalid ht
  rw [htext, List.cons_append] at hword ⊢
  rw [parseValue_word hblank hquote hbracket hbrace]
  exact hword

/-- The text of a value that is read takes two steps of the fuel for each code unit at most. -/
def Reads (v : Value) : Prop :=
  ∀ n t, Closes t → 2 * v.text.length ≤ n → parseValue n (v.text ++ t) = some (v.parsed, t)

theorem text_ne_nil (h : v.isJson = true) : v.text ≠ [] := by
  cases v with
  | null => decide
  | bool b => cases b <;> decide
  | number text =>
    cases text with
    | none => cases h
    | some text =>
      rintro hnil
      rw [Value.text] at hnil
      rw [Value.isJson, Option.any_some, hnil] at h
      exact absurd h (by decide)
  | string s => simp [Value.text, quote]
  | array vs => exact List.append_ne_nil_of_right_ne_nil _ (by decide)
  | object es => exact List.append_ne_nil_of_right_ne_nil _ (by decide)
  | ancestor depth => cases h

theorem parseItems_text (hread : ∀ w ∈ v :: vs, Reads w)
    (hn : 2 * (v.text ++ moreItems vs).length < n) :
    parseItems n (v.text ++ (moreItems vs ++ 0x5D :: t)) = some (parsedItems (v :: vs), t) := by
  induction vs generalizing v n with
  | nil =>
    obtain ⟨n, rfl⟩ := Nat.exists_eq_succ_of_ne_zero (Nat.ne_of_gt (Nat.lt_of_le_of_lt (Nat.zero_le _) hn))
    simp only [moreItems, List.flatMap_nil, List.append_nil] at hn
    rw [parseItems, hread v List.mem_cons_self n _ closes_moreItems (by omega)]
    rfl
  | cons w vs ih =>
    obtain ⟨n, rfl⟩ := Nat.exists_eq_succ_of_ne_zero (Nat.ne_of_gt (Nat.lt_of_le_of_lt (Nat.zero_le _) hn))
    have hmore : moreItems (w :: vs) = 0x2C :: (w.text ++ moreItems vs) := by simp [moreItems]
    have hlength := hn
    rw [hmore] at hlength
    simp only [List.length_append, List.length_cons] at hlength
    have hrest := @ih n w (fun x hx => hread x (List.mem_cons_of_mem _ hx))
      (by rw [List.length_append]; omega)
    rw [parseItems, hread v List.mem_cons_self n _ closes_moreItems (by omega), hmore]
    simp only [Option.bind_eq_bind, Option.bind_some, List.cons_append, skip_cons (u := 0x2C) (by decide),
      if_true, List.append_assoc, hrest]
    rfl

theorem parseEntries_entry {k rest : JsString} (hread : Reads v) (hrest : Closes rest)
    (hn : 2 * v.text.length ≤ n) :
    parseEntries (n + 1) (quote k ++ 0x3A :: (v.text ++ rest)) =
      match skip rest with
      | [] => none
      | u :: t =>
        if u = 0x2C then (parseEntries n t).map fun r => ((k, v.parsed) :: r.1, r.2)
        else if u = 0x7D then some ([(k, v.parsed)], t)
        else none := by
  have hquote : quote k ++ 0x3A :: (v.text ++ rest) = 0x22 :: (escape k ++ 0x22 :: 0x3A :: (v.text ++ rest)) := by
    simp [quote]
  rw [parseEntries, hquote, skip_cons (u := 0x22) (by decide)]
  simp only [List.head?_cons, List.tail_cons, guard, if_true, (escaped_escape k).parse, Option.bind_eq_bind,
    Option.bind_some, Option.pure_def, skip_cons (u := 0x3A) (by decide), hread n rest hrest hn]
  cases skip rest with
  | nil => rfl
  | cons u t =>
    dsimp only
    split
    · cases parseEntries n t <;> rfl
    · rfl

theorem parseEntries_text {k : JsString} (hread : ∀ e ∈ (k, v) :: es, Reads e.2)
    (hn : 2 * (entryText (k, v) ++ moreEntries es).length < n) :
    parseEntries n (quote k ++ 0x3A :: (v.text ++ (moreEntries es ++ 0x7D :: t))) =
      some (parsedEntries ((k, v) :: es), t) := by
  induction es generalizing k v n with
  | nil =>
    obtain ⟨n, rfl⟩ := Nat.exists_eq_succ_of_ne_zero (Nat.ne_of_gt (Nat.lt_of_le_of_lt (Nat.zero_le _) hn))
    simp only [moreEntries, List.flatMap_nil, List.append_nil, entryText, List.length_append,
      List.length_cons] at hn
    have hvalue : Reads v := hread _ List.mem_cons_self
    rw [parseEntries_entry hvalue closes_moreEntries (by omega)]
    rfl
  | cons e es ih =>
    obtain ⟨k', w⟩ := e
    obtain ⟨n, rfl⟩ := Nat.exists_eq_succ_of_ne_zero (Nat.ne_of_gt (Nat.lt_of_le_of_lt (Nat.zero_le _) hn))
    have hmore : moreEntries ((k', w) :: es) ++ 0x7D :: t =
        0x2C :: (quote k' ++ 0x3A :: (w.text ++ (moreEntries es ++ 0x7D :: t))) := by
      simp [moreEntries, entryText]
    have hlength : (moreEntries ((k', w) :: es)).length = (entryText (k', w) ++ moreEntries es).length + 1 := by
      simp [moreEntries]
    rw [List.length_append, hlength, entryText, List.length_append, List.length_cons] at hn
    dsimp only at hn
    have hrest := @ih n w k' (fun x hx => hread x (List.mem_cons_of_mem _ hx)) (by omega)
    have hvalue : Reads v := hread _ List.mem_cons_self
    rw [parseEntries_entry hvalue closes_moreEntries (by omega), hmore]
    simp only [skip_cons (u := 0x2C) (by decide), if_true, hrest]
    rfl

theorem plain_of_isJson (h : v.isJson = true) : v.plain = true := by
  induction v using Value.tree_induction with
  | null => rfl
  | bool b => rfl
  | number text => exact Option.isSome_of_any h
  | string s => rfl
  | array vs ih =>
    rw [Value.isJson, isJsonItems_iff] at h
    rw [Value.plain, plainItems_iff]
    exact fun v hv => ih v hv (h v hv)
  | object es ih =>
    rw [Value.isJson, isJsonEntries_iff] at h
    rw [Value.plain, plainEntries_iff]
    exact fun e he => ih e he (h e he)
  | ancestor depth => cases h

theorem acyclic_of_isJson (h : v.isJson = true) : v.acyclic = true := by
  induction v using Value.tree_induction with
  | null => rfl
  | bool b => rfl
  | number text => rfl
  | string s => rfl
  | array vs ih =>
    rw [Value.isJson, isJsonItems_iff] at h
    rw [Value.acyclic, acyclicItems_iff]
    exact fun w hw => ih w hw (h w hw)
  | object es ih =>
    rw [Value.isJson, isJsonEntries_iff] at h
    rw [Value.acyclic, acyclicEntries_iff]
    exact fun e he => ih e he (h e he)
  | ancestor depth => exact absurd h (by rw [Value.isJson]; decide)

theorem skip_text (h : v.isJson = true) : (skip (v.text ++ t)).head? ≠ some 0x5D := by
  obtain ⟨u, rest, htext, htag⟩ := text_head (plain_of_isJson h)
  have hlt : unitTag u < 7 := htag ▸ tag_lt (plain_of_isJson h)
  have hblank : isBlank u = false := by
    cases hblank : isBlank u with
    | false => rfl
    | true =>
      simp only [isBlank, Bool.or_eq_true, decide_eq_true_eq] at hblank
      rcases hblank with ((rfl | rfl) | rfl) | rfl <;> exact absurd hlt (by decide)
  rw [htext, List.cons_append, skip_cons hblank, List.head?_cons]
  rintro hclose
  obtain rfl := Option.some.inj hclose
  exact absurd hlt (by decide)

theorem reads (v : Value) : v.isJson = true → Reads v := by
  induction v using Value.tree_induction with
  | null =>
    rintro - n t - hn
    obtain ⟨n, rfl⟩ := Nat.exists_eq_succ_of_ne_zero (Nat.ne_of_gt (Nat.lt_of_lt_of_le (by decide) hn))
    exact parseValue_word (by decide) (by decide) (by decide) (by decide)
  | bool b =>
    rintro - n t - hn
    obtain ⟨n, rfl⟩ := Nat.exists_eq_succ_of_ne_zero
      (Nat.ne_of_gt (Nat.lt_of_lt_of_le (by cases b <;> decide) hn))
    cases b <;> exact parseValue_word (by decide) (by decide) (by decide) (by decide)
  | number text =>
    rintro hjson n t ht hn
    have hlength := List.length_pos_of_ne_nil (text_ne_nil hjson)
    obtain ⟨n, rfl⟩ := Nat.exists_eq_succ_of_ne_zero (show n ≠ 0 by omega)
    cases text with
    | none => cases hjson
    | some text => exact parseValue_number hjson ht
  | string s =>
    rintro hjson n t - hn
    have hlength := List.length_pos_of_ne_nil (text_ne_nil hjson)
    obtain ⟨n, rfl⟩ := Nat.exists_eq_succ_of_ne_zero (show n ≠ 0 by omega)
    exact parseValue_quote
  | array vs ih =>
    rintro hjson n t - hn
    have hlength := List.length_pos_of_ne_nil (text_ne_nil hjson)
    obtain ⟨n, rfl⟩ := Nat.exists_eq_succ_of_ne_zero (show n ≠ 0 by omega)
    rw [Value.isJson, isJsonItems_iff] at hjson
    cases vs with
    | nil =>
      rw [text_array_nil, parseValue, skip_cons (u := 0x5B) (by decide)]
      rfl
    | cons v vs =>
      have hitems := @parseItems_text t n v vs (fun w hw => ih w hw (hjson w hw)) (by
        have htext := @text_array_cons [] v vs
        rw [List.append_nil] at htext
        rw [htext] at hn
        simp only [List.length_append, List.length_cons, List.length_nil] at hn ⊢
        omega)
      rw [text_array_cons, parseValue, skip_cons (u := 0x5B) (by decide)]
      simp only [if_neg (show ¬ (0x5B : UInt16) = 0x22 by decide), if_true,
        if_neg (skip_text (hjson v List.mem_cons_self)), hitems, Option.bind_eq_bind, Option.bind_some]
      rfl
  | object es ih =>
    rintro hjson n t - hn
    have hlength := List.length_pos_of_ne_nil (text_ne_nil hjson)
    obtain ⟨n, rfl⟩ := Nat.exists_eq_succ_of_ne_zero (show n ≠ 0 by omega)
    rw [Value.isJson, isJsonEntries_iff] at hjson
    cases es with
    | nil =>
      rw [text_object_nil, parseValue, skip_cons (u := 0x7B) (by decide)]
      rfl
    | cons e es =>
      obtain ⟨k, v⟩ := e
      have hentries := @parseEntries_text t n v es k (fun e he => ih e he (hjson e he)) (by
        have htext := @text_object_cons [] k v es
        rw [List.append_nil] at htext
        rw [htext] at hn
        simp only [entryText, List.length_append, List.length_cons, List.length_nil] at hn ⊢
        omega)
      have hquote : (skip (quote k ++ 0x3A :: (v.text ++ (moreEntries es ++ 0x7D :: t)))).head? ≠ some 0x7D := by
        rw [quote, List.append_assoc, List.append_assoc, List.cons_append, skip_cons (by decide), List.head?_cons]
        decide
      rw [text_object_cons, parseValue, skip_cons (u := 0x7B) (by decide)]
      simp only [if_neg (show ¬ (0x7B : UInt16) = 0x22 by decide), if_neg (show ¬ (0x7B : UInt16) = 0x5B by decide),
        if_true, if_neg hquote, hentries, Option.bind_eq_bind, Option.bind_some]
      rfl
  | ancestor depth =>
    rintro ⟨⟩

theorem parse_text (h : v.isJson = true) : parse v.text = some v.parsed := by
  have hread := reads v h (2 * v.text.length + 2) [] (by rintro u ⟨⟩) (Nat.le_add_right ..)
  rw [List.append_nil] at hread
  rw [parse, hread]
  rfl

theorem isDigit_toDigits {c : Char} (hc : c ∈ Nat.toDigits 10 n) : c.isDigit = true :=
  Nat.isDigit_of_mem_toDigits (by omega) (by omega) hc

def numberText (n : Nat) : NumberText :=
  ⟨toString n, Nat.repr_ne_empty, List.all_eq_true.mpr fun c hc => by
    simp [isDigit_toDigits (Nat.toList_repr ▸ hc)]⟩

theorem head_toDigits (h : n ≠ 0) : (Nat.toDigits 10 n).head? ≠ some '0' := by
  induction n using Nat.strongRecOn with
  | ind n ih =>
    by_cases hlt : n < 10
    · rw [Nat.toDigits_of_lt_base hlt]
      simpa using h
    · rw [Nat.toDigits_of_base_le (by omega) (by omega), List.head?_append]
      have hhead := ih (n / 10) (by omega) (by omega)
      cases hdigits : (Nat.toDigits 10 (n / 10)).head? with
      | none => exact absurd (List.head?_eq_none_iff.mp hdigits) Nat.toDigits_ne_nil
      | some c =>
        rw [hdigits] at hhead
        exact hhead

theorem toUInt16_digit {c : Char} (h : c.isDigit = true) :
    isDigit c.toNat.toUInt16 = true ∧ (c.toNat.toUInt16 = 0x30 → c = '0') := by
  simp only [Char.isDigit, Bool.and_eq_true, decide_eq_true_eq] at h
  have h1 : 48 ≤ c.toNat := h.1
  have h2 : c.toNat ≤ 57 := h.2
  have hunit : c.toNat.toUInt16.toNat = c.toNat := by
    rw [Nat.toUInt16_eq, UInt16.toNat_ofNat']
    omega
  constructor
  · simp only [isDigit, Bool.and_eq_true, decide_eq_true_eq, UInt16.le_iff_toNat_le, hunit,
      UInt16.reduceToNat]
    exact ⟨h1, h2⟩
  · intro hzero
    rw [hzero] at hunit
    rw [← Char.ofNat_toNat c, ← hunit]
    rfl

theorem validNumber_numberText : validNumber (utf16 (numberText n).val) = true := by
  have htext : utf16 (numberText n).val = (Nat.toDigits 10 n).map fun c => c.toNat.toUInt16 := by
    rw [utf16_number]
    exact congrArg (List.map _) Nat.toList_repr
  have hall : ∀ u ∈ utf16 (numberText n).val, isDigit u = true := by
    intro u hu
    rw [htext, List.mem_map] at hu
    obtain ⟨c, hc, rfl⟩ := hu
    exact (toUInt16_digit (isDigit_toDigits hc)).1
  have hminus : (utf16 (numberText n).val).head? ≠ some 0x2D := by
    intro hhead
    exact absurd (hall 0x2D (List.mem_of_mem_head? hhead)) (by decide)
  have hwhole : (utf16 (numberText n).val).head? ≠ some 0x30 ∨ (utf16 (numberText n).val).length = 1 := by
    by_cases hn : n = 0
    · right
      rw [hn]
      decide
    · left
      rw [htext, List.head?_map]
      intro hhead
      obtain ⟨c, hc, hzero⟩ := Option.map_eq_some_iff.mp hhead
      rw [(toUInt16_digit (isDigit_toDigits (List.mem_of_mem_head? hc))).2 hzero] at hc
      exact head_toDigits hn hc
  have hne : utf16 (numberText n).val ≠ [] := by
    rw [htext, Ne, List.map_eq_nil_iff]
    exact Nat.toDigits_ne_nil
  simp only [validNumber, if_neg hminus, List.takeWhile_eq_self_iff.mpr hall, List.dropWhile_eq_nil_iff.mpr hall]
  simpa [hne, validFraction, validExponent] using hwhole

end HomelabApps.Library.Json
