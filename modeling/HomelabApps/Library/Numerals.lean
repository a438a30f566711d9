import HomelabApps.Library.Utf16
import Std.Data.String.ToNat

namespace HomelabApps.Library.Utf16

variable {s t : String} {s' t' r q : JsString} {u : UInt16} {m n : Nat}

def Ascii (s : String) : Prop := ∀ c ∈ s.toList, c.toNat < 0x80

theorem utf16_ascii (h : Ascii s) : utf16 s = s.toList.map fun c => c.toNat.toUInt16 := by
  rw [utf16, ← List.flatMap_pure_eq_map]
  refine List.flatMap_congr fun c hc => ?_
  have hascii := h c hc
  exact if_pos (by omega)

theorem map_utf16_ascii (h : Ascii s) : (utf16 s).map (fun u => Char.ofNat u.toNat) = s.toList := by
  rw [utf16_ascii h, List.map_map]
  refine (List.map_congr_left fun c hc => ?_).trans (List.map_id _)
  have hascii := h c hc
  have hunit : c.toNat.toUInt16.toNat = c.toNat := by
    rw [Nat.toUInt16_eq, UInt16.toNat_ofNat']
    omega
  rw [Function.comp_apply, hunit, Char.ofNat_toNat, id]

theorem utf16_ascii_inj (hs : Ascii s) (ht : Ascii t) (h : utf16 s = utf16 t) : s = t := by
  have hchars := congrArg (List.map fun u => Char.ofNat u.toNat) h
  rw [map_utf16_ascii hs, map_utf16_ascii ht] at hchars
  exact String.toList_injective hchars

def numeral (n : Nat) : JsString := utf16 (toString n)

theorem isDigit_of_mem_toString {c : Char} (h : c ∈ (toString n).toList) : c.isDigit = true := by
  rw [Nat.toString_eq_repr, Nat.toList_repr] at h
  exact Nat.isDigit_of_mem_toDigits (by decide) (by decide) h

theorem toNat_of_isDigit {c : Char} (h : c.isDigit = true) : 0x30 ≤ c.toNat ∧ c.toNat ≤ 0x39 := by
  simp only [Char.isDigit, Bool.and_eq_true, decide_eq_true_eq] at h
  exact h

theorem ascii_toString (n : Nat) : Ascii (toString n) := by
  intro c hc
  have := toNat_of_isDigit (isDigit_of_mem_toString hc)
  omega

theorem numeral_injective : Function.Injective numeral := by
  intro m n h
  have hstring : toString m = toString n := utf16_ascii_inj (ascii_toString m) (ascii_toString n) h
  exact Nat.repr_injective (by simpa [Nat.toString_eq_repr] using hstring)

theorem digit_of_mem_numeral (h : u ∈ numeral n) : 0x30 ≤ u.toNat ∧ u.toNat ≤ 0x39 := by
  rw [numeral, utf16_ascii (ascii_toString n)] at h
  obtain ⟨c, hc, rfl⟩ := List.mem_map.mp h
  have hdigit := toNat_of_isDigit (isDigit_of_mem_toString hc)
  rw [Nat.toUInt16_eq, UInt16.toNat_ofNat']
  omega

theorem numeral_ne_nil (n : Nat) : numeral n ≠ [] := by
  rw [numeral, utf16_ascii (ascii_toString n), Ne, List.map_eq_nil_iff, Nat.toString_eq_repr, Nat.toList_repr]
  exact Nat.toDigits_ne_nil

theorem append_separator_inj (hs : u ∉ s') (ht : u ∉ t')
    (h : s' ++ u :: r = t' ++ u :: q) : s' = t' ∧ r = q := by
  induction s' generalizing t' with
  | nil =>
    cases t' with
    | nil => exact ⟨rfl, (List.cons.inj h).2⟩
    | cons v t' => exact absurd (List.cons.inj h).1 (List.ne_of_not_mem_cons ht)
  | cons v s' ih =>
    cases t' with
    | nil => exact absurd (List.cons.inj h).1.symm (List.ne_of_not_mem_cons hs)
    | cons w t' =>
      obtain ⟨rfl, hrest⟩ := List.cons.inj h
      obtain ⟨rfl, hafter⟩ := ih (List.not_mem_of_not_mem_cons hs) (List.not_mem_of_not_mem_cons ht) hrest
      exact ⟨rfl, hafter⟩

theorem append_numeral_inj (hu : u.toNat < 0x30) (h : s' ++ u :: numeral m = t' ++ u :: numeral n) :
    s' = t' ∧ m = n := by
  have hnumeral : ∀ n, u ∉ (numeral n).reverse := by
    intro n hmem
    have hdigit := digit_of_mem_numeral (List.mem_reverse.mp hmem)
    omega
  have hreverse := congrArg List.reverse h
  rw [List.reverse_append, List.reverse_cons, List.append_assoc, List.singleton_append, List.reverse_append,
    List.reverse_cons, List.append_assoc, List.singleton_append] at hreverse
  obtain ⟨hnumber, htext⟩ := append_separator_inj (hnumeral m) (hnumeral n) hreverse
  exact ⟨List.reverse_inj.mp htext, numeral_injective (List.reverse_inj.mp hnumber)⟩

end HomelabApps.Library.Utf16
