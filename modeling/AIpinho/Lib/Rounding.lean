import Mathlib.Algebra.Order.Round
import Mathlib.Data.Int.Log
import Mathlib.Data.Rat.Floor
import Mathlib.Tactic.Linarith

/-!
# Rounding half to even

`round(x, digits)` gives the nearest number with so many decimals, and of two that are equally
near the one whose last digit is even. A double is the nearest number with 53 binary digits.
-/

namespace AIpinho.Lib

def roundHalfEven (x : ℚ) : ℤ := if Int.fract x = 1 / 2 ∧ Even ⌊x⌋ then ⌊x⌋ else round x

/-- `round(x, digits)`. -/
def roundTo (digits : ℕ) (x : ℚ) : ℚ := roundHalfEven (x * 10 ^ digits) / 10 ^ digits

/-- The double nearest to a number that is not too large or too small for 53 binary digits. -/
def toDouble (x : ℚ) : ℚ :=
  let unit : ℚ := 2 ^ (Int.log 2 |x| - 52)
  roundHalfEven (x / unit) * unit

/-- `round(x / y, digits)` of two integers: the quotient is a double, its decimals are rounded
exactly, and the double nearest to them is the result. -/
def roundedQuotient (digits : ℕ) (x y : ℚ) : ℚ := toDouble (roundTo digits (toDouble (x / y)))

theorem abs_sub_roundHalfEven_le (x : ℚ) : |x - roundHalfEven x| ≤ 1 / 2 := by
  unfold roundHalfEven
  split
  · rename_i h
    have hfract : x - ⌊x⌋ = 1 / 2 := h.1
    rw [hfract, abs_of_pos (by norm_num)]
  · exact abs_sub_round x

theorem roundHalfEven_of_le_half {x : ℚ} (hx : 0 ≤ x) (h : x ≤ 1 / 2) : roundHalfEven x = 0 := by
  have hfloor : ⌊x⌋ = 0 := Int.floor_eq_zero_iff.mpr ⟨hx, by linarith⟩
  unfold roundHalfEven
  split
  · exact hfloor
  · rename_i hnot
    have hfract : Int.fract x = x := by rw [Int.fract, hfloor, Int.cast_zero, sub_zero]
    have hne : x ≠ 1 / 2 := fun heq => hnot ⟨by rw [hfract, heq], by simp [hfloor]⟩
    exact round_eq_zero_iff.mpr ⟨by linarith, lt_of_le_of_ne h hne⟩

theorem roundHalfEven_mul_eq_iff {k x : ℚ} (hk : 3 < k) (hx : 0 ≤ x) :
    roundHalfEven (k * x) = roundHalfEven x ↔ k * x ≤ 1 / 2 := by
  constructor
  · intro h
    have hlow := abs_le.mp (abs_sub_roundHalfEven_le x)
    have hhigh := abs_le.mp (abs_sub_roundHalfEven_le (k * x))
    rw [h] at hhigh
    have hzero : roundHalfEven x ≤ 0 := by
      by_contra hpos
      have hone : (1 : ℚ) ≤ roundHalfEven x := by exact_mod_cast not_le.mp hpos
      nlinarith
    have hcast : (roundHalfEven x : ℚ) ≤ 0 := by exact_mod_cast hzero
    linarith
  · intro h
    have hle : x ≤ k * x := le_mul_of_one_le_left hx (by linarith)
    rw [roundHalfEven_of_le_half hx (hle.trans h), roundHalfEven_of_le_half (hx.trans hle) h]

theorem roundTo_inj {digits : ℕ} {x y : ℚ} : roundTo digits x = roundTo digits y ↔
      roundHalfEven (x * 10 ^ digits) = roundHalfEven (y * 10 ^ digits) := by
  rw [roundTo, roundTo, div_left_inj' (by positivity), Int.cast_inj]

end AIpinho.Lib
