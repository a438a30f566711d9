import HomelabApps.Library.Utf8

namespace HomelabApps.Library.Utf8

open HomelabApps.Library.Utf16 HomelabApps.Library.Json

/-- What a decoder has read of a code point: how many bytes it waits for, their bits so far, and the bounds of the next
one. -/
structure Pending where
  missing : Nat
  bits : Nat
  lower : Nat
  upper : Nat

def startPoint (n : Nat) : JsString × Option Pending :=
  if n < 0x80 then ([n.toUInt16], none)
  else if 0xC2 ≤ n ∧ n ≤ 0xDF then ([], some ⟨1, n - 0xC0, 0x80, 0xBF⟩)
  else if 0xE0 ≤ n ∧ n ≤ 0xEF then
    ([], some ⟨2, n - 0xE0, if n = 0xE0 then 0xA0 else 0x80, if n = 0xED then 0x9F else 0xBF⟩)
  else if 0xF0 ≤ n ∧ n ≤ 0xF4 then
    ([], some ⟨3, n - 0xF0, if n = 0xF0 then 0x90 else 0x80, if n = 0xF4 then 0x8F else 0xBF⟩)
  else ([REPLACEMENT], none)

/-- A start of a code point that does not go on counts as one replacement, and the byte that broke it is read anew. -/
def decodeFrom : Option Pending → List UInt8 → JsString
  | none, [] => []
  | some _, [] => [REPLACEMENT]
  | none, b :: bytes => (startPoint b.toNat).1 ++ decodeFrom (startPoint b.toNat).2 bytes
  | some p, b :: bytes =>
    if p.lower ≤ b.toNat ∧ b.toNat ≤ p.upper then
      let bits := p.bits * 0x40 + (b.toNat - 0x80)
      if p.missing = 1 then unitsOf (Char.ofNat bits) ++ decodeFrom none bytes
      else decodeFrom (some ⟨p.missing - 1, bits, 0x80, 0xBF⟩) bytes
    else REPLACEMENT :: ((startPoint b.toNat).1 ++ decodeFrom (startPoint b.toNat).2 bytes)

def decode (bytes : List UInt8) : JsString := decodeFrom none bytes

variable {s : JsString} {bytes : List UInt8} {p : Pending} {n m : Nat} {cs : List Char}

theorem startPoint_two (h : 0xC2 ≤ n ∧ n ≤ 0xDF) : startPoint n = ([], some ⟨1, n - 0xC0, 0x80, 0xBF⟩) := by
  rw [startPoint, if_neg (by omega), if_pos h]

theorem startPoint_three (h : 0xE0 ≤ n ∧ n ≤ 0xEF) : startPoint n =
    ([], some ⟨2, n - 0xE0, if n = 0xE0 then 0xA0 else 0x80, if n = 0xED then 0x9F else 0xBF⟩) := by
  rw [startPoint, if_neg (by omega), if_neg (by omega), if_pos h]

theorem startPoint_four (h : 0xF0 ≤ n ∧ n ≤ 0xF4) : startPoint n =
    ([], some ⟨3, n - 0xF0, if n = 0xF0 then 0x90 else 0x80, if n = 0xF4 then 0x8F else 0xBF⟩) := by
  rw [startPoint, if_neg (by omega), if_neg (by omega), if_neg (by omega), if_pos h]

theorem decodeFrom_start (hn : n < 0x100) (h : startPoint n = ([], some p)) :
    decodeFrom none (UInt8.ofNat n :: bytes) = decodeFrom (some p) bytes := by
  rw [decodeFrom, UInt8.toNat_ofNat', Nat.mod_eq_of_lt hn, h]
  rfl

theorem decodeFrom_next (hn : n < 0x100) (hbounds : p.lower ≤ n ∧ n ≤ p.upper) (hmissing : p.missing = m + 2) :
    decodeFrom (some p) (UInt8.ofNat n :: bytes) =
      decodeFrom (some ⟨m + 1, p.bits * 0x40 + (n - 0x80), 0x80, 0xBF⟩) bytes := by
  rw [decodeFrom, UInt8.toNat_ofNat', Nat.mod_eq_of_lt hn, if_pos hbounds]
  dsimp only
  rw [if_neg (by omega), hmissing]
  rfl

theorem decodeFrom_last (hn : n < 0x100) (hbounds : p.lower ≤ n ∧ n ≤ p.upper) (hmissing : p.missing = 1) :
    decodeFrom (some p) (UInt8.ofNat n :: bytes) =
      unitsOf (Char.ofNat (p.bits * 0x40 + (n - 0x80))) ++ decodeFrom none bytes := by
  rw [decodeFrom, UInt8.toNat_ofNat', Nat.mod_eq_of_lt hn, if_pos hbounds]
  dsimp only
  rw [if_pos hmissing]

theorem decodeFrom_char (c : Char) :
    decodeFrom none (String.utf8EncodeChar c ++ bytes) = unitsOf c ++ decodeFrom none bytes := by
  have hvalid : c.toNat < 0xD800 ∨ 0xDFFF < c.toNat ∧ c.toNat < 0x110000 := c.valid
  have hchar : ∀ n, n = c.toNat → unitsOf (Char.ofNat n) = unitsOf c := by
    rintro n rfl
    rw [Char.ofNat_toNat]
  have hval : c.val.toNat = c.toNat := rfl
  unfold String.utf8EncodeChar
  simp only [hval]
  split
  · rename_i hone
    rw [List.singleton_append, decodeFrom, UInt8.toNat_ofNat', Nat.mod_eq_of_lt (by omega), startPoint, if_pos (by omega),
      unitsOf, if_pos (by omega)]
  · split
    · rename_i hone htwo
      rw [List.cons_append, List.singleton_append, decodeFrom_start (by omega) (startPoint_two (by omega)),
        decodeFrom_last (by omega) (by dsimp only; omega) rfl, hchar _ (by dsimp only; omega)]
    · split
      · rename_i hone htwo hthree
        rw [List.cons_append, List.cons_append, List.singleton_append,
          decodeFrom_start (by omega) (startPoint_three (by omega)),
          decodeFrom_next (m := 0) (by omega) (by dsimp only; split <;> split <;> omega) rfl,
          decodeFrom_last (by omega) (by dsimp only; omega) rfl, hchar _ (by dsimp only; omega)]
      · rename_i hone htwo hthree
        rw [List.cons_append, List.cons_append, List.cons_append, List.singleton_append,
          decodeFrom_start (by omega) (startPoint_four (by omega)),
          decodeFrom_next (m := 1) (by omega) (by dsimp only; split <;> split <;> omega) rfl,
          decodeFrom_next (m := 0) (by omega) (by dsimp only; omega) rfl,
          decodeFrom_last (by omega) (by dsimp only; omega) rfl, hchar _ (by dsimp only; omega)]

theorem decode_chars : decode (cs.flatMap String.utf8EncodeChar) = cs.flatMap unitsOf := by
  induction cs with
  | nil => rfl
  | cons c cs ih =>
    rw [List.flatMap_cons, List.flatMap_cons, decode, decodeFrom_char]
    exact congrArg (unitsOf c ++ ·) ih

theorem bytesOf_ofList : bytesOf (String.ofList cs) = cs.flatMap String.utf8EncodeChar := by
  rw [bytesOf, String.toUTF8, String.toByteArray_ofList, List.utf8Encode, List.toList_data_toByteArray]

theorem decode_encode : decode (encode s) = toWellFormed s := by
  have hidem : textOf s = textOf (toWellFormed s) := by rw [textOf, textOf, toWellFormed_idem]
  have hunits : utf16 (textOf (toWellFormed s)) = toWellFormed s := utf16_textOf toWellFormed_idem
  rw [encode, hidem]
  rw [textOf, utf16_ofList] at hunits
  rw [textOf, bytesOf_ofList, decode_chars, hunits]

end HomelabApps.Library.Utf8
