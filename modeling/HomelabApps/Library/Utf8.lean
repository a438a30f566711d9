import HomelabApps.Library.JsonCanonical

namespace HomelabApps.Library.Utf8

open HomelabApps.Library.Utf16 HomelabApps.Library.Json

def textOf (s : JsString) : String := String.ofList ((codePoints (toWellFormed s)).map Char.ofNat)

def bytesOf (text : String) : List UInt8 := text.toUTF8.data.toList

def encode (s : JsString) : List UInt8 := bytesOf (textOf s)

variable {s t : JsString} {u v : UInt16} {n : Nat} {parts : List JsString}

theorem toNat_ofNat (h : n < 0xD800 ∨ 0xDFFF < n ∧ n < 0x110000) : (Char.ofNat n).toNat = n := by
  rw [Char.ofNat, dif_pos h]
  rfl

theorem not_surrogate_iff : isSurrogate u = false ↔ u.toNat < 0xD800 ∨ 0xDFFF < u.toNat := by
  simp only [isSurrogate, Bool.and_eq_false_iff, decide_eq_false_iff_not, UInt16.le_iff_toNat_le,
    UInt16.reduceToNat]
  omega

def unitsOf (c : Char) : JsString :=
  let v := c.toNat
  if v < 0x10000 then [v.toUInt16]
  else [(0xD800 + (v - 0x10000) / 0x400).toUInt16, (0xDC00 + (v - 0x10000) % 0x400).toUInt16]

theorem utf16_ofList {cs : List Char} : utf16 (String.ofList cs) = cs.flatMap unitsOf := by
  rw [utf16, String.toList_ofList]
  rfl

theorem unitsOf_single (h : isSurrogate u = false) : unitsOf (Char.ofNat u.toNat) = [u] := by
  have hlt := u.toNat_lt
  rw [unitsOf, toNat_ofNat (by rcases not_surrogate_iff.mp h with h | h <;> omega), if_pos (by omega)]
  exact congrArg (fun u => [u]) UInt16.ofNat_toNat

theorem unitsOf_pair (hu : isHigh u = true) (hv : isLow v = true) :
    unitsOf (Char.ofNat (0x10000 + (u.toNat - 0xD800) * 0x400 + (v.toNat - 0xDC00))) = [u, v] := by
  obtain ⟨hu1, hu2⟩ := toNat_of_isHigh hu
  obtain ⟨hv1, hv2⟩ := toNat_of_isLow hv
  have hn : ∀ n, n = 0x10000 + (u.toNat - 0xD800) * 0x400 + (v.toNat - 0xDC00) →
      0x10000 ≤ n ∧ n < 0x110000 ∧ 0xD800 + (n - 0x10000) / 0x400 = u.toNat ∧
        0xDC00 + (n - 0x10000) % 0x400 = v.toNat := by
    intro n hn
    refine ⟨by omega, by omega, by omega, by omega⟩
  obtain ⟨h1, h2, h3, h4⟩ := hn _ rfl
  rw [unitsOf, toNat_ofNat (by omega), if_neg (by omega), h3, h4]
  exact congrArg₂ (fun u v => [u, v]) UInt16.ofNat_toNat UInt16.ofNat_toNat

theorem utf16_textOf (h : toWellFormed s = s) : utf16 (textOf s) = s := by
  rw [textOf, utf16_ofList, h]
  induction s using toWellFormed.induct with
  | case1 => rfl
  | case2 u hu =>
    rw [toWellFormed, if_pos hu] at h
    rw [← List.singleton_inj.mp h] at hu
    exact absurd hu (by decide)
  | case3 u hu =>
    rw [codePoints, List.map_singleton, List.flatMap_singleton, unitsOf_single (by simpa using hu)]
  | case4 u v rest huv ih =>
    rw [toWellFormed, if_pos huv] at h
    have hrest := (List.cons.inj (List.cons.inj h).2).2
    obtain ⟨hu, hv⟩ := Bool.and_eq_true_iff.mp huv
    rw [codePoints, if_pos huv, List.map_cons, List.flatMap_cons, unitsOf_pair hu hv, ih hrest]
    rfl
  | case5 u v rest huv hu ih =>
    rw [toWellFormed, if_neg huv, if_pos hu] at h
    rw [← (List.cons.inj h).1] at hu
    exact absurd hu (by decide)
  | case6 u v rest huv hu ih =>
    rw [toWellFormed, if_neg huv, if_neg hu] at h
    rw [codePoints, if_neg huv, List.map_cons, List.flatMap_cons, unitsOf_single (by simpa using hu),
      ih (List.cons.inj h).2]
    rfl

theorem wellFormed_append (hs : toWellFormed s = s) (ht : toWellFormed t = t) :
    toWellFormed (s ++ t) = s ++ t := by
  induction s using toWellFormed.induct with
  | case1 => exact ht
  | case2 u hu =>
    rw [toWellFormed, if_pos hu] at hs
    rw [← List.singleton_inj.mp hs] at hu
    exact absurd hu (by decide)
  | case3 u hu => rw [List.singleton_append, toWellFormed_cons (by simpa using hu), ht]
  | case4 u v rest huv ih =>
    rw [toWellFormed, if_pos huv] at hs
    rw [List.cons_append, List.cons_append, toWellFormed, if_pos huv,
      ih (List.cons.inj (List.cons.inj hs).2).2]
  | case5 u v rest huv hu ih =>
    rw [toWellFormed, if_neg huv, if_pos hu] at hs
    rw [← (List.cons.inj hs).1] at hu
    exact absurd hu (by decide)
  | case6 u v rest huv hu ih =>
    rw [toWellFormed, if_neg huv, if_neg hu] at hs
    rw [List.cons_append, toWellFormed_cons (by simpa using hu), ih (List.cons.inj hs).2]

theorem wellFormed_of_units (h : ∀ u ∈ s, isSurrogate u = false) : toWellFormed s = s := by
  have happend := @toWellFormed_append [] s h
  simpa [toWellFormed] using happend

theorem wellFormed_intercalate (h : ∀ s ∈ parts, toWellFormed s = s) (hu : isSurrogate u = false) :
    toWellFormed ([u].intercalate parts) = [u].intercalate parts := by
  rw [toWellFormed_intercalate hu, List.map_congr_left h, List.map_id']

theorem not_surrogate_hexDigit (h : n < 16) : isSurrogate (hexDigit n) = false := by
  have hall : ∀ n : Fin 16, isSurrogate (hexDigit n) = false := by decide
  exact hall ⟨n, h⟩

theorem not_surrogate_escapeUnit : ∀ w ∈ escapeUnit u, isSurrogate w = false := by
  have hlt := u.toNat_lt
  have hall : ∀ {s : JsString}, s.all (fun w => !isSurrogate w) = true → ∀ w ∈ s, isSurrogate w = false := by
    intro s h w hw
    simpa using List.all_eq_true.mp h w hw
  unfold escapeUnit
  split_ifs with h1 h2 h3 h4 h5 h6 h7 h8
  · exact hall rfl
  · exact hall rfl
  · exact hall rfl
  · exact hall rfl
  · exact hall rfl
  · exact hall rfl
  · exact hall rfl
  · intro w hw
    simp only [unicodeEscape, List.mem_cons, List.not_mem_nil, or_false] at hw
    rcases hw with rfl | rfl | rfl | rfl | rfl | rfl
    · decide
    · decide
    · exact not_surrogate_hexDigit (by omega)
    · exact not_surrogate_hexDigit (by omega)
    · exact not_surrogate_hexDigit (by omega)
    · exact not_surrogate_hexDigit (by omega)
  · intro w hw
    rw [List.mem_singleton.mp hw]
    cases hu : isSurrogate u with
    | false => rfl
    | true => simp [hu] at h8

theorem not_surrogate_numeric (h : isNumeric u = true) : isSurrogate u = false := by
  simp only [isNumeric, Bool.or_eq_true, Bool.and_eq_true, decide_eq_true_eq] at h
  rcases h with (((hdigit | rfl) | rfl) | rfl) | rfl
  · have hle : u.toNat ≤ 0x39 := UInt16.le_iff_toNat_le.mp hdigit.2
    exact not_surrogate_iff.mpr (Or.inl (by omega))
  · rfl
  · rfl
  · rfl
  · rfl

theorem wellFormed_quote : toWellFormed (quote s) = quote s := by
  have hescaped : ∀ {s e : JsString}, Escaped s e → toWellFormed e = e := by
    intro s e h
    induction h with
    | nil => rfl
    | pair hu hv _ ih => rw [toWellFormed, if_pos (by rw [hu, hv]; rfl), ih]
    | unit _ ih => exact wellFormed_append (wellFormed_of_units not_surrogate_escapeUnit) ih
  exact wellFormed_append (wellFormed_append (by decide) (hescaped (escaped_escape s))) (by decide)

theorem wellFormed_text (w : Value) : toWellFormed w.text = w.text := by
  induction w using Value.tree_induction with
  | null => decide
  | bool b => cases b <;> decide
  | number text =>
    cases text with
    | none => decide
    | some text => exact wellFormed_of_units fun u hu => not_surrogate_numeric (numeric_of_mem hu)
  | string s => exact wellFormed_quote
  | array vs ih =>
    rw [Value.text, textItems_eq]
    refine wellFormed_append (wellFormed_append (by decide) (wellFormed_intercalate ?_ (by decide))) (by decide)
    simpa using ih
  | object es ih =>
    rw [Value.text, textEntries_eq]
    refine wellFormed_append (wellFormed_append (by decide) (wellFormed_intercalate ?_ (by decide))) (by decide)
    simp only [List.forall_mem_map]
    exact fun e he => wellFormed_append (wellFormed_append wellFormed_quote (by decide)) (ih e he)
  | ancestor depth => rfl

end HomelabApps.Library.Utf8
