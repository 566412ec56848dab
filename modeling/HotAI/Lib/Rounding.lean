import Mathlib.Algebra.Order.Round
import Mathlib.Algebra.Order.Floor.Ring
import Mathlib.Data.Rat.Floor
import Mathlib.Tactic.Linarith

/-! # Rounding to the nearest integer, halves away from zero

Go's `math.Round` and the `Round(0)` of the decimal library. Mathlib's `round` takes halves up instead. -/
namespace HotAI.Lib

def roundAway (x : ℚ) : ℤ := if 0 ≤ x then ⌊x + 1 / 2⌋ else -⌊-x + 1 / 2⌋

variable {x : ℚ}

theorem roundAway_of_nonneg (h : 0 ≤ x) : roundAway x = ⌊x + 1 / 2⌋ := if_pos h

theorem roundAway_of_neg (h : x < 0) : roundAway x = -⌊-x + 1 / 2⌋ := if_neg (not_le.mpr h)

theorem roundAway_nonneg (h : 0 ≤ x) : 0 ≤ roundAway x := by
  rw [roundAway_of_nonneg h]
  exact Int.floor_nonneg.mpr (by linarith)

theorem roundAway_nonpos (h : x < 0) : roundAway x ≤ 0 := by
  rw [roundAway_of_neg h]
  exact neg_nonpos.mpr (Int.floor_nonneg.mpr (by linarith))

theorem roundAway_mono {x y : ℚ} (h : x ≤ y) : roundAway x ≤ roundAway y := by
  by_cases hx : 0 ≤ x
  · rw [roundAway_of_nonneg hx, roundAway_of_nonneg (hx.trans h)]
    exact Int.floor_mono (by linarith)
  · by_cases hy : 0 ≤ y
    · exact (roundAway_nonpos (not_le.mp hx)).trans (roundAway_nonneg hy)
    · rw [roundAway_of_neg (not_le.mp hx), roundAway_of_neg (not_le.mp hy)]
      exact neg_le_neg (Int.floor_mono (by linarith))

theorem abs_roundAway_sub_le (x : ℚ) : |(roundAway x : ℚ) - x| ≤ 1 / 2 := by
  by_cases hx : 0 ≤ x
  · rw [roundAway_of_nonneg hx, abs_le]
    have hle := Int.floor_le (x + 1 / 2)
    have hlt := Int.lt_floor_add_one (x + 1 / 2)
    constructor <;> linarith
  · rw [roundAway_of_neg (not_le.mp hx), abs_le]
    have hle := Int.floor_le (-x + 1 / 2)
    have hlt := Int.lt_floor_add_one (-x + 1 / 2)
    push_cast
    constructor <;> linarith

theorem roundAway_ne_of_two_le {x y : ℚ} (h : x + 2 ≤ y) : roundAway x ≠ roundAway y := by
  intro heq
  have hx := abs_le.mp (abs_roundAway_sub_le x)
  have hy := abs_le.mp (abs_roundAway_sub_le y)
  rw [heq] at hx
  linarith [hx.2, hy.1]

theorem roundAway_lt_of_two_le {x y : ℚ} (h : x + 2 ≤ y) : roundAway x < roundAway y :=
  lt_of_le_of_ne (roundAway_mono (by linarith)) (roundAway_ne_of_two_le h)

end HotAI.Lib
