import Mathlib.Algebra.Ring.Nat
import Mathlib.Data.List.Basic

namespace HomelabApps.Library.Bytes

def numberBE (bytes : List UInt8) : Nat := bytes.foldl (fun n b => 0x100 * n + b.toNat) 0

def bytesBE : Nat → Nat → List UInt8
  | 0, _ => []
  | size + 1, n => bytesBE size (n / 0x100) ++ [(n % 0x100).toUInt8]

def slice (buffer : List UInt8) (offset size : Nat) : List UInt8 := (buffer.drop offset).take size

def overwrite (buffer : List UInt8) (offset : Nat) (bytes : List UInt8) : List UInt8 :=
  buffer.take offset ++ bytes ++ buffer.drop (offset + bytes.length)

variable {buffer bytes rest : List UInt8} {size offset n o s : Nat}

@[simp] theorem length_bytesBE : (bytesBE size n).length = size := by
  induction size generalizing n with
  | zero => rfl
  | succ size ih => rw [bytesBE, List.length_append, ih, List.length_singleton]

theorem numberBE_bytesBE (h : n < 0x100 ^ size) : numberBE (bytesBE size n) = n := by
  induction size generalizing n with
  | zero =>
    rw [Nat.pow_zero, Nat.lt_one_iff] at h
    exact h.symm
  | succ size ih =>
    have hbyte : (n % 0x100).toUInt8.toNat = n % 0x100 := by
      rw [Nat.toUInt8_eq, UInt8.toNat_ofNat']
      omega
    have hrest : numberBE (bytesBE size (n / 0x100)) = n / 0x100 :=
      ih (by rw [Nat.div_lt_iff_lt_mul (by omega), ← Nat.pow_succ]; exact h)
    rw [numberBE] at hrest ⊢
    rw [bytesBE, List.foldl_append, hrest, List.foldl_cons, List.foldl_nil, hbyte]
    exact Nat.div_add_mod n 0x100

theorem length_overwrite (h : offset + bytes.length ≤ buffer.length) :
    (overwrite buffer offset bytes).length = buffer.length := by
  rw [overwrite, List.length_append, List.length_append, List.length_take, List.length_drop]
  omega

theorem slice_overwrite (h : offset + bytes.length ≤ buffer.length) :
    slice (overwrite buffer offset bytes) offset bytes.length = bytes := by
  have hlength : (buffer.take offset).length = offset := by
    rw [List.length_take]
    omega
  rw [slice, overwrite, List.append_assoc, List.drop_left' hlength, List.take_left]

theorem slice_overwrite_before (h : offset + bytes.length ≤ buffer.length) (hs : o + s ≤ offset) :
    slice (overwrite buffer offset bytes) o s = slice buffer o s := by
  have hlength : (buffer.take offset).length = offset := by
    rw [List.length_take]
    omega
  rw [slice, overwrite, List.append_assoc, List.drop_append_of_le_length (by omega), List.take_append_of_le_length]
  · rw [slice, List.drop_take, List.take_take, Nat.min_eq_left (by omega)]
  · rw [List.length_drop]
    omega

theorem slice_overwrite_after (h : offset + bytes.length ≤ buffer.length) (ho : offset + bytes.length ≤ o) :
    slice (overwrite buffer offset bytes) o s = slice buffer o s := by
  have hlength : (buffer.take offset ++ bytes).length = offset + bytes.length := by
    rw [List.length_append, List.length_take]
    omega
  rw [slice, overwrite, List.drop_append, hlength, List.drop_drop, List.drop_of_length_le (by omega), List.nil_append,
    Nat.add_sub_cancel' ho, slice]

theorem slice_append (h : o + s ≤ buffer.length) : slice (buffer ++ rest) o s = slice buffer o s := by
  rw [slice, List.drop_append_of_le_length (by omega), List.take_append_of_le_length, slice]
  rw [List.length_drop]
  omega

end HomelabApps.Library.Bytes
