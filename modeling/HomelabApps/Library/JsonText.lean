import HomelabApps.Library.JsonEscapes
import Mathlib.Data.List.TakeWhile

namespace HomelabApps.Library.Json

open HomelabApps.Library.Utf16

def hexValue (u : UInt16) : Nat := if u < 0x3A then u.toNat - 0x30 else u.toNat - 0x57

def shortEscape (u : UInt16) : UInt16 :=
  if u = 0x62 then 0x8
  else if u = 0x74 then 0x9
  else if u = 0x6E then 0xA
  else if u = 0x66 then 0xC
  else if u = 0x72 then 0xD
  else u

def hexUnit : JsString → UInt16 × JsString
  | a :: b :: c :: d :: rest =>
    ((hexValue a * 0x1000 + hexValue b * 0x100 + hexValue c * 0x10 + hexValue d).toUInt16, rest)
  | rest => (0, rest)

def unescapeUnit : JsString → UInt16 × JsString
  | u :: v :: rest =>
    if u = BACKSLASH then
      if v = 0x75 then hexUnit rest else (shortEscape v, rest)
    else (u, v :: rest)
  | [u] => (u, [])
  | [] => (0, [])

inductive Escaped : JsString → JsString → Prop
  | nil : Escaped [] []
  | pair : isHigh u = true → isLow v = true → Escaped s e → Escaped (u :: v :: s) (u :: v :: e)
  | unit : Escaped s e → Escaped (u :: s) (escapeUnit u ++ e)

mutual

def Value.plain : Value → Bool
  | .number text => text.isSome
  | .array items => plainItems items
  | .object entries => plainEntries entries
  | .ancestor _ => false
  | _ => true

def plainItems : List Value → Bool
  | [] => true
  | v :: vs => v.plain && plainItems vs

def plainEntries : List (JsString × Value) → Bool
  | [] => true
  | (_, v) :: es => v.plain && plainEntries es

end

inductive SameKind : Value → Value → Prop
  | null : SameKind .null .null
  | bool : SameKind (.bool b) (.bool b)
  | number : SameKind (.number text) (.number text')
  | string : SameKind (.string s) (.string s')
  | array : SameKind (.array items) (.array items')
  | object : SameKind (.object entries) (.object entries')
  | ancestor : SameKind (.ancestor depth) (.ancestor depth')

variable {s s' t t' e e' : JsString} {u v : UInt16} {n : Nat}

theorem hexValue_hexDigit (h : n < 16) : hexValue (hexDigit n) = n := by
  have hall : ∀ n : Fin 16, hexValue (hexDigit n) = n := by decide
  exact hall ⟨n, h⟩

theorem unescapeUnit_unicodeEscape : unescapeUnit (unicodeEscape u ++ t) = (u, t) := by
  have hu := u.toNat_lt
  simp only [unicodeEscape, List.cons_append, List.nil_append, unescapeUnit, BACKSLASH, if_true, hexUnit]
  rw [hexValue_hexDigit (by omega), hexValue_hexDigit (by omega), hexValue_hexDigit (by omega),
    hexValue_hexDigit (by omega)]
  have hsum : u.toNat / 0x1000 * 0x1000 + u.toNat / 0x100 % 0x10 * 0x100 + u.toNat / 0x10 % 0x10 * 0x10 +
      u.toNat % 0x10 = u.toNat := by omega
  rw [hsum]
  exact Prod.ext UInt16.ofNat_toNat rfl

theorem unescapeUnit_cons (h : u ≠ BACKSLASH) : unescapeUnit (u :: t) = (u, t) := by
  cases t with
  | nil => rfl
  | cons v t => rw [unescapeUnit, if_neg h]

theorem unescapeUnit_short (h : v ≠ 0x75) : unescapeUnit (BACKSLASH :: v :: t) = (shortEscape v, t) := by
  rw [unescapeUnit, if_pos rfl, if_neg h]

theorem unescapeUnit_escapeUnit : unescapeUnit (escapeUnit u ++ t) = (u, t) := by
  unfold escapeUnit
  split_ifs with h1 h2 h3 h4 h5 h6 h7 h8
  · rw [h1]
    exact unescapeUnit_short (by decide)
  · rw [h2]
    exact unescapeUnit_short (by decide)
  · rw [h3]
    exact unescapeUnit_short (by decide)
  · rw [h4]
    exact unescapeUnit_short (by decide)
  · rw [h5]
    exact unescapeUnit_short (by decide)
  · rw [h6]
    exact unescapeUnit_short (by decide)
  · rw [h7]
    exact unescapeUnit_short (by decide)
  · exact unescapeUnit_unicodeEscape
  · exact unescapeUnit_cons h2

theorem escapeUnit_inj (h : escapeUnit u ++ t = escapeUnit v ++ t') : u = v ∧ t = t' := by
  have hread := congrArg unescapeUnit h
  rw [unescapeUnit_escapeUnit, unescapeUnit_escapeUnit] at hread
  exact Prod.mk.inj hread

theorem escapeUnit_head : ∃ w rest, escapeUnit u = w :: rest ∧ w ≠ 0x22 ∧ isHigh w = false := by
  unfold escapeUnit
  split_ifs with h1 h2 h3 h4 h5 h6 h7 h8
  all_goals first
    | exact ⟨_, _, rfl, by decide, by decide⟩
    | skip
  refine ⟨u, [], rfl, h1, isHigh_eq_false ?_⟩
  simpa using fun hsurrogate => h8 (Bool.or_eq_true_iff.mpr (.inr hsurrogate))

theorem escaped_escape (s : JsString) : Escaped s (escape s) := by
  induction s using escape.induct with
  | case1 => exact .nil
  | case2 u =>
    have hunit := Escaped.unit (u := u) .nil
    rwa [List.append_nil] at hunit
  | case3 u v rest hpair ih =>
    rw [escape, if_pos hpair]
    obtain ⟨hu, hv⟩ := Bool.and_eq_true_iff.mp hpair
    exact .pair hu hv ih
  | case4 u v rest hpair ih =>
    rw [escape, if_neg hpair]
    exact .unit ih

theorem Escaped.inj (h : Escaped s e) (h' : Escaped s' e') (heq : e ++ 0x22 :: t = e' ++ 0x22 :: t') :
    s = s' ∧ t = t' := by
  induction h generalizing s' e' with
  | nil =>
    cases h' with
    | nil => exact ⟨rfl, (List.cons.inj heq).2⟩
    | pair hu _ _ =>
      rw [← (List.cons.inj heq).1] at hu
      exact absurd hu (by decide)
    | @unit _ _ u _ =>
      obtain ⟨w, rest, hunit, hquote, -⟩ := @escapeUnit_head u
      rw [hunit] at heq
      exact absurd (List.cons.inj heq).1.symm hquote
  | pair hu hv _ ih =>
    cases h' with
    | nil =>
      rw [(List.cons.inj heq).1] at hu
      exact absurd hu (by decide)
    | pair _ _ h' =>
      obtain ⟨hu', hrest⟩ := List.cons.inj heq
      obtain ⟨hv', hrest⟩ := List.cons.inj hrest
      obtain ⟨hs, ht⟩ := ih h' hrest
      exact ⟨by rw [hu', hv', hs], ht⟩
    | @unit _ _ u' _ =>
      obtain ⟨w, rest, hunit, -, hhigh⟩ := @escapeUnit_head u'
      rw [hunit] at heq
      rw [(List.cons.inj heq).1, hhigh] at hu
      cases hu
  | @unit _ _ u _ ih =>
    obtain ⟨w, rest, hunit, hquote, hhigh⟩ := @escapeUnit_head u
    cases h' with
    | nil =>
      rw [hunit] at heq
      exact absurd (List.cons.inj heq).1 hquote
    | pair hu' _ _ =>
      rw [hunit] at heq
      rw [← (List.cons.inj heq).1, hhigh] at hu'
      cases hu'
    | unit h' =>
      rw [List.append_assoc, List.append_assoc] at heq
      obtain ⟨hunit', hrest⟩ := escapeUnit_inj heq
      obtain ⟨hs, ht⟩ := ih h' hrest
      exact ⟨by rw [hunit', hs], ht⟩

theorem quote_inj (h : quote s ++ t = quote s' ++ t') : s = s' ∧ t = t' := by
  simp only [quote, List.append_assoc, List.cons_append, List.nil_append, List.cons.injEq, true_and] at h
  exact (escaped_escape s).inj (escaped_escape s') h

def isNumeric (u : UInt16) : Bool :=
  (0x30 ≤ u && u ≤ 0x39) || u = 0x2D || u = 0x2B || u = 0x2E || u = 0x65

theorem numberText_char (text : NumberText) {c : Char} (h : c ∈ text.val.toList) :
    c.toNat < 0x80 ∧ isNumeric c.toNat.toUInt16 = true := by
  have hnumber := List.all_eq_true.mp text.property.2 c h
  simp only [Char.isDigit, Bool.or_eq_true, Bool.and_eq_true, decide_eq_true_eq] at hnumber
  rcases hnumber with (((hdigit | rfl) | rfl) | rfl) | rfl
  · have h1 : 48 ≤ c.toNat := hdigit.1
    have h2 : c.toNat ≤ 57 := hdigit.2
    have hunit : c.toNat.toUInt16.toNat = c.toNat := by
      rw [Nat.toUInt16_eq, UInt16.toNat_ofNat']
      omega
    refine ⟨by omega, ?_⟩
    simp only [isNumeric, Bool.or_eq_true, Bool.and_eq_true, decide_eq_true_eq, UInt16.le_iff_toNat_le, hunit,
      UInt16.reduceToNat]
    exact .inl (.inl (.inl (.inl ⟨h1, h2⟩)))
  · decide
  · decide
  · decide
  · decide

theorem utf16_number (text : NumberText) :
    utf16 text.val = text.val.toList.map fun c => c.toNat.toUInt16 := by
  rw [utf16, ← List.flatMap_pure_eq_map]
  refine List.flatMap_congr fun c hc => ?_
  have hascii := (numberText_char text hc).1
  exact if_pos (by omega)

theorem numeric_of_mem {text : NumberText} (h : u ∈ utf16 text.val) : isNumeric u = true := by
  rw [utf16_number] at h
  obtain ⟨c, hc, rfl⟩ := List.mem_map.mp h
  exact (numberText_char text hc).2

theorem utf16_number_inj {text text' : NumberText} (h : utf16 text.val = utf16 text'.val) : text = text' := by
  have hback : ∀ text : NumberText,
      (utf16 text.val).map (fun u => Char.ofNat u.toNat) = text.val.toList := by
    intro text
    rw [utf16_number, List.map_map]
    refine (List.map_congr_left fun c hc => ?_).trans (List.map_id _)
    have hascii := (numberText_char text hc).1
    have hunit : c.toNat.toUInt16.toNat = c.toNat := by
      rw [Nat.toUInt16_eq, UInt16.toNat_ofNat']
      omega
    rw [Function.comp_apply, hunit, Char.ofNat_toNat, id]
  have hchars := congrArg (List.map fun u => Char.ofNat u.toNat) h
  rw [hback, hback] at hchars
  exact Subtype.ext (String.toList_injective hchars)

def Ends (t : JsString) : Prop := ∀ u ∈ t.head?, isNumeric u = false

theorem number_inj {text text' : NumberText} (ht : Ends t) (ht' : Ends t')
    (h : utf16 text.val ++ t = utf16 text'.val ++ t') : text = text' ∧ t = t' := by
  have htake : ∀ {text : NumberText} {t : JsString}, Ends t →
      (utf16 text.val ++ t).takeWhile isNumeric = utf16 text.val := by
    intro text t ht
    rw [List.takeWhile_append_of_pos fun u hu => numeric_of_mem hu]
    cases t with
    | nil => exact List.append_nil _
    | cons u t => rw [List.takeWhile_cons_of_neg (by simp [ht u rfl]), List.append_nil]
  have htext := congrArg (List.takeWhile isNumeric) h
  rw [htake ht, htake ht'] at htext
  rw [htext] at h
  exact ⟨utf16_number_inj htext, List.append_cancel_left h⟩

def Value.tag : Value → Nat
  | .null => 0
  | .bool b => if b then 1 else 2
  | .number _ => 3
  | .string _ => 4
  | .array _ => 5
  | .object _ => 6
  | .ancestor _ => 7

def unitTag (u : UInt16) : Nat :=
  if u = 0x6E then 0
  else if u = 0x74 then 1
  else if u = 0x66 then 2
  else if isNumeric u then 3
  else if u = 0x22 then 4
  else if u = 0x5B then 5
  else if u = 0x7B then 6
  else 7

theorem sameKind_of_tag {v w : Value} (h : v.tag = w.tag) : SameKind v w := by
  cases v with
  | null => cases w with
    | null => exact .null
    | bool b => cases b <;> cases h
    | _ => cases h
  | bool b => cases w with
    | bool b' =>
      cases b <;> cases b'
      · exact .bool
      · cases h
      · cases h
      · exact .bool
    | _ => cases b <;> cases h
  | number text => cases w with
    | number text' => exact .number
    | bool b => cases b <;> cases h
    | _ => cases h
  | string s => cases w with
    | string s' => exact .string
    | bool b => cases b <;> cases h
    | _ => cases h
  | array items => cases w with
    | array items' => exact .array
    | bool b => cases b <;> cases h
    | _ => cases h
  | object entries => cases w with
    | object entries' => exact .object
    | bool b => cases b <;> cases h
    | _ => cases h
  | ancestor depth => cases w with
    | ancestor depth' => exact .ancestor
    | bool b => cases b <;> cases h
    | _ => cases h

theorem unitTag_numeric (h : isNumeric u = true) : unitTag u = 3 := by
  have hne : ∀ w : UInt16, isNumeric w = false → u ≠ w := fun w hw heq => by
    rw [← heq, h] at hw
    cases hw
  rw [unitTag, if_neg (hne 0x6E (by decide)), if_neg (hne 0x74 (by decide)), if_neg (hne 0x66 (by decide)),
    if_pos h]

theorem text_head {v : Value} (h : v.plain = true) : ∃ u rest, v.text = u :: rest ∧ unitTag u = v.tag := by
  cases v with
  | null => exact ⟨_, _, rfl, by decide⟩
  | bool b => cases b <;> exact ⟨_, _, rfl, by decide⟩
  | number text =>
    cases text with
    | none => cases h
    | some text =>
      cases htext : utf16 text.val with
      | nil =>
        rw [utf16_number, List.map_eq_nil_iff, String.toList_eq_nil_iff] at htext
        exact absurd htext text.property.1
      | cons u rest => exact ⟨u, rest, htext, unitTag_numeric (numeric_of_mem (htext ▸ List.mem_cons_self))⟩
  | string s => exact ⟨0x22, _, rfl, show unitTag 0x22 = 4 by decide⟩
  | array items => exact ⟨0x5B, _, rfl, show unitTag 0x5B = 5 by decide⟩
  | object entries => exact ⟨0x7B, _, rfl, show unitTag 0x7B = 6 by decide⟩
  | ancestor depth => cases h

theorem tag_eq {v w : Value} (hv : v.plain = true) (hw : w.plain = true) (h : v.text ++ t = w.text ++ t') :
    v.tag = w.tag := by
  obtain ⟨u, rest, hu, hvtag⟩ := text_head hv
  obtain ⟨u', rest', hu', hwtag⟩ := text_head hw
  rw [hu, hu'] at h
  rw [← hvtag, ← hwtag, (List.cons.inj h).1]

theorem tag_lt {v : Value} (h : v.plain = true) : v.tag < 7 := by
  cases v with
  | bool b => cases b <;> decide
  | ancestor depth => cases h
  | _ => simp [Value.tag]

theorem text_ne_delimiter {v : Value} (hv : v.plain = true) (hu : unitTag u = 7) : v.text ++ t ≠ u :: t' := by
  intro h
  obtain ⟨w, rest, htext, htag⟩ := text_head hv
  rw [htext] at h
  have hlt := tag_lt hv
  rw [← htag, (List.cons.inj h).1, hu] at hlt
  exact Nat.lt_irrefl 7 hlt

theorem ends_cons (h : isNumeric u = false) : Ends (u :: t) := by
  intro w hw
  obtain rfl := Option.some.inj hw
  exact h

def moreItems (vs : List Value) : JsString := vs.flatMap fun v => 0x2C :: v.text

def entryText (e : JsString × Value) : JsString := quote e.1 ++ 0x3A :: e.2.text

def moreEntries (es : List (JsString × Value)) : JsString := es.flatMap fun e => 0x2C :: entryText e

theorem intercalate_textItems {v : Value} {vs : List Value} :
    [0x2C].intercalate (textItems (v :: vs)) = v.text ++ moreItems vs := by
  induction vs generalizing v with
  | nil => simp [textItems, moreItems]
  | cons w vs ih =>
    rw [textItems, textItems, List.intercalate_cons_cons, ← textItems, ih]
    simp [moreItems]

theorem intercalate_textEntries {e : JsString × Value} {es : List (JsString × Value)} :
    [0x2C].intercalate (textEntries (e :: es)) = entryText e ++ moreEntries es := by
  induction es generalizing e with
  | nil => simp [textEntries, moreEntries, entryText]
  | cons f es ih =>
    rw [textEntries, textEntries, List.intercalate_cons_cons, ← textEntries, ih]
    simp [moreEntries, entryText]

theorem text_array_nil : (Value.array []).text ++ t = 0x5B :: 0x5D :: t := rfl

theorem text_array_cons {v : Value} {vs : List Value} :
    (Value.array (v :: vs)).text ++ t = 0x5B :: (v.text ++ (moreItems vs ++ 0x5D :: t)) := by
  rw [Value.text, intercalate_textItems, List.append_assoc, List.append_assoc, List.append_assoc]
  rfl

theorem text_object_nil : (Value.object []).text ++ t = 0x7B :: 0x7D :: t := rfl

theorem text_object_cons {k : JsString} {v : Value} {es : List (JsString × Value)} :
    (Value.object ((k, v) :: es)).text ++ t =
      0x7B :: (quote k ++ 0x3A :: (v.text ++ (moreEntries es ++ 0x7D :: t))) := by
  rw [Value.text, intercalate_textEntries, entryText, List.append_assoc, List.append_assoc, List.append_assoc,
    List.append_assoc]
  rfl

theorem ends_moreItems {vs : List Value} : Ends (moreItems vs ++ 0x5D :: t) := by
  cases vs with
  | nil => exact ends_cons (by decide)
  | cons v vs => exact ends_cons (by decide)

theorem ends_moreEntries {es : List (JsString × Value)} : Ends (moreEntries es ++ 0x7D :: t) := by
  cases es with
  | nil => exact ends_cons (by decide)
  | cons e es => exact ends_cons (by decide)

mutual

theorem text_append_inj : (v w : Value) → v.plain = true → w.plain = true → ∀ t t' : JsString,
    Ends t → Ends t' → v.text ++ t = w.text ++ t' → v = w ∧ t = t'
  | .null, w, hv, hw, t, t', _, _, h => by
    cases sameKind_of_tag (tag_eq hv hw h)
    exact ⟨rfl, List.append_cancel_left h⟩
  | .bool b, w, hv, hw, t, t', _, _, h => by
    cases sameKind_of_tag (tag_eq hv hw h)
    exact ⟨rfl, List.append_cancel_left h⟩
  | .number text, w, hv, hw, t, t', ht, ht', h => by
    cases sameKind_of_tag (tag_eq hv hw h)
    rename_i text'
    cases text with
    | none => cases hv
    | some text =>
      cases text' with
      | none => cases hw
      | some text' =>
        obtain ⟨rfl, rfl⟩ := number_inj ht ht' h
        exact ⟨rfl, rfl⟩
  | .string s, w, hv, hw, t, t', ht, ht', h => by
    cases sameKind_of_tag (tag_eq hv hw h)
    obtain ⟨rfl, rfl⟩ := quote_inj h
    exact ⟨rfl, rfl⟩
  | .array [], w, hv, hw, t, t', _, _, h => by
    cases sameKind_of_tag (tag_eq hv hw h)
    rename_i ws
    cases ws with
    | nil => exact ⟨rfl, List.append_cancel_left h⟩
    | cons w ws =>
      rw [text_array_nil, text_array_cons] at h
      exact absurd (List.cons.inj h).2.symm (text_ne_delimiter (Bool.and_eq_true_iff.mp hw).1 (by decide))
  | .array (v :: vs), w, hv, hw, t, t', _, _, h => by
    cases sameKind_of_tag (tag_eq hv hw h)
    rename_i ws
    obtain ⟨hfirst, hvs⟩ := Bool.and_eq_true_iff.mp hv
    cases ws with
    | nil =>
      rw [text_array_nil, text_array_cons] at h
      exact absurd (List.cons.inj h).2 (text_ne_delimiter hfirst (by decide))
    | cons w ws =>
      obtain ⟨hsecond, hws⟩ := Bool.and_eq_true_iff.mp hw
      rw [text_array_cons, text_array_cons] at h
      obtain ⟨hvalue, hmore⟩ :=
        text_append_inj v w hfirst hsecond _ _ ends_moreItems ends_moreItems (List.cons.inj h).2
      obtain ⟨hvalues, hend⟩ := moreItems_inj vs ws hvs hws t t' hmore
      exact ⟨by rw [hvalue, hvalues], hend⟩
  | .object [], w, hv, hw, t, t', _, _, h => by
    cases sameKind_of_tag (tag_eq hv hw h)
    rename_i fs
    cases fs with
    | nil => exact ⟨rfl, List.append_cancel_left h⟩
    | cons f fs =>
      rw [text_object_nil, text_object_cons] at h
      exact absurd (List.cons.inj (List.cons.inj h).2).1 (by decide)
  | .object ((k, v) :: es), w, hv, hw, t, t', _, _, h => by
    cases sameKind_of_tag (tag_eq hv hw h)
    rename_i fs
    obtain ⟨hfirst, hes⟩ := Bool.and_eq_true_iff.mp hv
    cases fs with
    | nil =>
      rw [text_object_nil, text_object_cons] at h
      exact absurd (List.cons.inj (List.cons.inj h).2).1 (by decide)
    | cons f fs =>
      obtain ⟨l, w⟩ := f
      obtain ⟨hsecond, hfs⟩ := Bool.and_eq_true_iff.mp hw
      rw [text_object_cons, text_object_cons] at h
      obtain ⟨hkey, hrest⟩ := quote_inj (List.cons.inj h).2
      obtain ⟨hvalue, hmore⟩ := text_append_inj v w hfirst hsecond _ _ ends_moreEntries ends_moreEntries
        (List.cons.inj hrest).2
      obtain ⟨hentries, hend⟩ := moreEntries_inj es fs hes hfs t t' hmore
      exact ⟨by rw [hkey, hvalue, hentries], hend⟩
  | .ancestor _, _, hv, _, _, _, _, _, _ => by cases hv

theorem moreItems_inj : (vs ws : List Value) → plainItems vs = true → plainItems ws = true →
    ∀ t t' : JsString, moreItems vs ++ 0x5D :: t = moreItems ws ++ 0x5D :: t' → vs = ws ∧ t = t'
  | [], [], _, _, t, t', h => ⟨rfl, (List.cons.inj h).2⟩
  | [], w :: ws, _, _, t, t', h => absurd (List.cons.inj h).1 (by decide)
  | v :: vs, [], _, _, t, t', h => absurd (List.cons.inj h).1 (by decide)
  | v :: vs, w :: ws, hv, hw, t, t', h => by
    obtain ⟨hv, hvs⟩ := Bool.and_eq_true_iff.mp hv
    obtain ⟨hw, hws⟩ := Bool.and_eq_true_iff.mp hw
    have hrest : v.text ++ (moreItems vs ++ 0x5D :: t) = w.text ++ (moreItems ws ++ 0x5D :: t') := by
      simpa [moreItems] using h
    obtain ⟨hvalue, hmore⟩ := text_append_inj v w hv hw _ _ ends_moreItems ends_moreItems hrest
    obtain ⟨hvalues, hend⟩ := moreItems_inj vs ws hvs hws t t' hmore
    exact ⟨by rw [hvalue, hvalues], hend⟩

theorem moreEntries_inj : (es fs : List (JsString × Value)) → plainEntries es = true →
    plainEntries fs = true → ∀ t t' : JsString,
    moreEntries es ++ 0x7D :: t = moreEntries fs ++ 0x7D :: t' → es = fs ∧ t = t'
  | [], [], _, _, t, t', h => ⟨rfl, (List.cons.inj h).2⟩
  | [], f :: fs, _, _, t, t', h => absurd (List.cons.inj h).1 (by decide)
  | e :: es, [], _, _, t, t', h => absurd (List.cons.inj h).1 (by decide)
  | (k, v) :: es, (l, w) :: fs, hv, hw, t, t', h => by
    obtain ⟨hfirst, hes⟩ := Bool.and_eq_true_iff.mp hv
    obtain ⟨hsecond, hfs⟩ := Bool.and_eq_true_iff.mp hw
    have hrest : quote k ++ 0x3A :: (v.text ++ (moreEntries es ++ 0x7D :: t)) =
        quote l ++ 0x3A :: (w.text ++ (moreEntries fs ++ 0x7D :: t')) := by
      simpa [moreEntries, entryText] using h
    obtain ⟨hkey, hrest⟩ := quote_inj hrest
    obtain ⟨hvalue, hmore⟩ := text_append_inj v w hfirst hsecond _ _ ends_moreEntries ends_moreEntries
      (List.cons.inj hrest).2
    obtain ⟨hentries, hend⟩ := moreEntries_inj es fs hes hfs t t' hmore
    exact ⟨by rw [hkey, hvalue, hentries], hend⟩

end

theorem text_inj {v w : Value} (hv : v.plain = true) (hw : w.plain = true) (h : v.text = w.text) : v = w :=
  (text_append_inj v w hv hw [] [] (fun _ hu => by cases hu) (fun _ hu => by cases hu) (by rw [h])).1

end HomelabApps.Library.Json
