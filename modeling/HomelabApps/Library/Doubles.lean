import Mathlib.Algebra.Order.Floor.Ring
import Mathlib.Algebra.Ring.Int.Parity
import Mathlib.Data.Int.Log
import Mathlib.Data.Rat.Floor
import Mathlib.Tactic.Linarith

universe u

namespace HomelabApps.Library

class Rounding (K : Type u) where
  rounded : K → K

/-- The order is kept, and so are the integers of 53 bits. -/
class Rounding.Faithful (K : Type u) [Field K] [LinearOrder K] [Rounding K] : Prop where
  mono : Monotone (rounded : K → K)
  intCast : ∀ n : ℤ, |n| < 2 ^ 53 → rounded (n : K) = n

namespace Rounding

variable {K : Type u} [Field K] [LinearOrder K] [Rounding K] [Faithful K] {x y : K}

theorem rounded_mono (h : x ≤ y) : rounded x ≤ rounded y := Faithful.mono h

theorem rounded_zero : rounded (0 : K) = 0 := by
  have hzero := @Faithful.intCast K _ _ _ _ 0 (by decide)
  simpa using hzero

theorem rounded_nonneg (h : 0 ≤ x) : 0 ≤ rounded x := rounded_zero.symm.le.trans (rounded_mono h)

end Rounding

namespace Doubles

def roundEven (x : ℚ) : ℤ :=
  if Int.fract x < 1 / 2 ∨ Int.fract x = 1 / 2 ∧ Even ⌊x⌋ then ⌊x⌋ else ⌊x⌋ + 1

/-- The distance of the numbers with so many bits after the first, where `x` lies. -/
def quantum (bits : ℕ) (x : ℚ) : ℚ := 2 ^ (Int.log 2 |x| - bits)

def roundTo (bits : ℕ) (x : ℚ) : ℚ := roundEven (x / quantum bits x) * quantum bits x

/-- A double, where neither overflow nor underflow comes in. -/
instance : Rounding ℚ := ⟨roundTo 52⟩

variable {x y : ℚ} {n : ℤ} {bits : ℕ}

theorem floor_le_roundEven : ⌊x⌋ ≤ roundEven x := by
  rw [roundEven]
  split_ifs
  · exact le_rfl
  · exact Int.le_add_one le_rfl

theorem roundEven_le_floor_add_one : roundEven x ≤ ⌊x⌋ + 1 := by
  rw [roundEven]
  split_ifs
  · exact Int.le_add_one le_rfl
  · exact le_rfl

@[simp] theorem roundEven_intCast (n : ℤ) : roundEven n = n := by
  rw [roundEven, if_pos (.inl (by rw [Int.fract_intCast]; norm_num)), Int.floor_intCast]

theorem roundEven_mono (h : x ≤ y) : roundEven x ≤ roundEven y := by
  obtain hlt | heq := (Int.floor_mono h).lt_or_eq
  · calc roundEven x ≤ ⌊x⌋ + 1 := roundEven_le_floor_add_one
      _ ≤ ⌊y⌋ := hlt
      _ ≤ roundEven y := floor_le_roundEven
  · have hfract : Int.fract x ≤ Int.fract y := by
      rw [Int.fract, Int.fract, heq]
      linarith
    -- Between the same two integers only what is past the middle goes up.
    by_cases hdown : Int.fract y < 1 / 2 ∨ Int.fract y = 1 / 2 ∧ Even ⌊y⌋
    · have hdown' : Int.fract x < 1 / 2 ∨ Int.fract x = 1 / 2 ∧ Even ⌊x⌋ := by
        obtain hbelow | ⟨hmiddle, heven⟩ := hdown
        · exact .inl (lt_of_le_of_lt hfract hbelow)
        · exact (lt_or_eq_of_le (hmiddle ▸ hfract)).imp_right fun hx => ⟨hx, heq ▸ heven⟩
      rw [roundEven, roundEven, if_pos hdown, if_pos hdown', heq]
    · calc roundEven x ≤ ⌊x⌋ + 1 := roundEven_le_floor_add_one
        _ = roundEven y := by rw [roundEven, if_neg hdown, heq]

theorem quantum_pos : 0 < quantum bits x := zpow_pos two_pos _

theorem roundTo_le (h : x ≤ n * quantum bits x) : roundTo bits x ≤ n * quantum bits x := by
  have hn : roundEven (x / quantum bits x) ≤ n :=
    (roundEven_mono ((div_le_iff₀ quantum_pos).mpr h)).trans (roundEven_intCast n).le
  exact mul_le_mul_of_nonneg_right (by exact_mod_cast hn) quantum_pos.le

theorem le_roundTo (h : n * quantum bits x ≤ x) : n * quantum bits x ≤ roundTo bits x := by
  have hn : n ≤ roundEven (x / quantum bits x) :=
    (roundEven_intCast n).ge.trans (roundEven_mono ((le_div_iff₀ quantum_pos).mpr h))
  exact mul_le_mul_of_nonneg_right (by exact_mod_cast hn) quantum_pos.le

theorem roundTo_eq (h : x = n * quantum bits x) : roundTo bits x = x :=
  le_antisymm ((roundTo_le h.le).trans h.ge) (h.le.trans (le_roundTo h.ge))

theorem two_zpow_eq (k : ℕ) : (2 : ℚ) ^ (Int.log 2 |x| + k) = ((2 ^ (bits + k) : ℕ) : ℤ) * quantum bits x := by
  rw [quantum, Int.cast_natCast, Nat.cast_pow, Nat.cast_ofNat, ← zpow_natCast, ← zpow_add₀ two_ne_zero]
  congr 1
  push_cast
  ring

theorem roundTo_le_zpow (k : ℕ) (h : x ≤ 2 ^ (Int.log 2 |x| + k)) : roundTo bits x ≤ 2 ^ (Int.log 2 |x| + k) := by
  rw [@two_zpow_eq x bits k] at h ⊢
  exact roundTo_le h

theorem zpow_le_roundTo (k : ℕ) (h : 2 ^ (Int.log 2 |x| + k) ≤ x) : 2 ^ (Int.log 2 |x| + k) ≤ roundTo bits x := by
  rw [@two_zpow_eq x bits k] at h ⊢
  exact le_roundTo h

theorem roundTo_le_neg_zpow (k : ℕ) (h : x ≤ -2 ^ (Int.log 2 |x| + k)) :
    roundTo bits x ≤ -2 ^ (Int.log 2 |x| + k) := by
  rw [@two_zpow_eq x bits k, ← neg_mul, ← Int.cast_neg] at h ⊢
  exact roundTo_le h

theorem neg_zpow_le_roundTo (k : ℕ) (h : -2 ^ (Int.log 2 |x| + k) ≤ x) :
    -2 ^ (Int.log 2 |x| + k) ≤ roundTo bits x := by
  rw [@two_zpow_eq x bits k, ← neg_mul, ← Int.cast_neg] at h ⊢
  exact le_roundTo h

theorem zpow_log_le_abs (hx : x ≠ 0) : (2 : ℚ) ^ (Int.log 2 |x| + (0 : ℕ)) ≤ |x| := by
  have hle := Int.zpow_log_le_self one_lt_two (abs_pos.mpr hx)
  simpa using hle

theorem abs_le_zpow_log (x : ℚ) : |x| ≤ (2 : ℚ) ^ (Int.log 2 |x| + (1 : ℕ)) := by
  have hlt := Int.lt_zpow_succ_log_self one_lt_two |x|
  exact_mod_cast hlt.le

theorem zpow_log_le_zpow_log (h : Int.log 2 |x| < Int.log 2 |y|) :
    (2 : ℚ) ^ (Int.log 2 |x| + (1 : ℕ)) ≤ 2 ^ (Int.log 2 |y| + (0 : ℕ)) :=
  zpow_le_zpow_right₀ one_le_two (by omega)

theorem roundTo_mono_of_log (hlog : Int.log 2 |x| = Int.log 2 |y|) (h : x ≤ y) : roundTo bits x ≤ roundTo bits y := by
  have hquantum : quantum bits x = quantum bits y := by rw [quantum, quantum, hlog]
  rw [roundTo, roundTo, hquantum]
  have hround := roundEven_mono ((div_le_div_iff_of_pos_right (@quantum_pos y bits)).mpr h)
  exact mul_le_mul_of_nonneg_right (by exact_mod_cast hround) quantum_pos.le

theorem roundTo_mono_of_pos (hx : 0 < x) (h : x ≤ y) : roundTo bits x ≤ roundTo bits y := by
  have hy := hx.trans_le h
  have hlog : Int.log 2 |x| ≤ Int.log 2 |y| := by
    rw [abs_of_pos hx, abs_of_pos hy]
    exact Int.log_mono_right hx h
  obtain hlt | heq := hlog.lt_or_eq
  · calc roundTo bits x ≤ 2 ^ (Int.log 2 |x| + (1 : ℕ)) := roundTo_le_zpow 1 ((le_abs_self x).trans (abs_le_zpow_log x))
      _ ≤ 2 ^ (Int.log 2 |y| + (0 : ℕ)) := zpow_log_le_zpow_log hlt
      _ ≤ roundTo bits y := zpow_le_roundTo 0 ((zpow_log_le_abs hy.ne').trans_eq (abs_of_pos hy))
  · exact roundTo_mono_of_log heq h

theorem roundTo_mono_of_neg (hy : y < 0) (h : x ≤ y) : roundTo bits x ≤ roundTo bits y := by
  have hx := h.trans_lt hy
  have hlog : Int.log 2 |y| ≤ Int.log 2 |x| := by
    rw [abs_of_neg hx, abs_of_neg hy]
    exact Int.log_mono_right (neg_pos.mpr hy) (neg_le_neg h)
  obtain hlt | heq := hlog.lt_or_eq
  · have hbelow : x ≤ -2 ^ (Int.log 2 |x| + (0 : ℕ)) :=
      le_neg_of_le_neg ((zpow_log_le_abs hx.ne).trans_eq (abs_of_neg hx))
    have habove : -2 ^ (Int.log 2 |y| + (1 : ℕ)) ≤ y :=
      neg_le_of_neg_le ((abs_of_neg hy).symm.trans_le (abs_le_zpow_log y))
    calc roundTo bits x ≤ -2 ^ (Int.log 2 |x| + (0 : ℕ)) := roundTo_le_neg_zpow 0 hbelow
      _ ≤ -2 ^ (Int.log 2 |y| + (1 : ℕ)) := neg_le_neg (zpow_log_le_zpow_log hlt)
      _ ≤ roundTo bits y := neg_zpow_le_roundTo 1 habove
  · exact roundTo_mono_of_log heq.symm h

theorem roundTo_nonneg (hx : 0 ≤ x) : 0 ≤ roundTo bits x := by
  have hle := @le_roundTo x 0 bits (by simpa using hx)
  simpa using hle

theorem roundTo_nonpos (hx : x ≤ 0) : roundTo bits x ≤ 0 := by
  have hle := @roundTo_le x 0 bits (by simpa using hx)
  simpa using hle

theorem roundTo_mono : Monotone (roundTo bits) := by
  intro x y h
  obtain hpos | hx := lt_or_ge 0 x
  · exact roundTo_mono_of_pos hpos h
  obtain hneg | hy := lt_or_ge y 0
  · exact roundTo_mono_of_neg hneg h
  exact (roundTo_nonpos hx).trans (roundTo_nonneg hy)

theorem roundTo_intCast (h : |n| < 2 ^ (bits + 1)) : roundTo bits n = n := by
  obtain rfl | hn := eq_or_ne n 0
  · exact le_antisymm (roundTo_nonpos Int.cast_zero.le) (roundTo_nonneg Int.cast_zero.ge)
  have hlog : Int.log 2 |(n : ℚ)| ≤ bits := by
    have hlt : |(n : ℚ)| < ((2 : ℕ) : ℚ) ^ ((bits : ℤ) + 1) := by
      have hcast : ((|n| : ℤ) : ℚ) < ((2 ^ (bits + 1) : ℤ) : ℚ) := Int.cast_lt.mpr h
      rw [Int.cast_abs] at hcast
      exact_mod_cast hcast
    have habs : 0 < |(n : ℚ)| := abs_pos.mpr (Int.cast_ne_zero.mpr hn)
    exact Int.lt_add_one_iff.mp ((Int.lt_zpow_iff_log_lt one_lt_two habs).mp hlt)
  obtain ⟨k, hk⟩ := Int.le.dest hlog
  apply @roundTo_eq _ (n * 2 ^ k) bits
  rw [quantum, Int.cast_mul, Int.cast_pow, Int.cast_ofNat, mul_assoc, ← zpow_natCast, ← zpow_add₀ two_ne_zero]
  have hzero : (k : ℤ) + (Int.log 2 |(n : ℚ)| - bits) = 0 := by omega
  rw [hzero, zpow_zero, mul_one]

instance : Rounding.Faithful ℚ where
  mono := roundTo_mono
  intCast _ h := roundTo_intCast h

end Doubles

end HomelabApps.Library
