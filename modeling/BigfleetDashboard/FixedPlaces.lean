import Mathlib.Algebra.Order.Floor.Ring
import Mathlib.Algebra.Order.Field.Basic
import Mathlib.Tactic.Linarith
import Mathlib.Tactic.FieldSimp
import Mathlib.Tactic.Positivity

/-!
# Rounding to a number of decimal places

A number is rounded to the nearest multiple of a power of ten, halves up. Rounding keeps
the order, and reaches a whole number as soon as half a step is missing.
-/
namespace FixedPlaces

variable {K : Type*} [Field K] [LinearOrder K] [IsStrictOrderedRing K] [FloorRing K]

/-- The nearest number of steps of size `10 ^ -places`. -/
def steps (places : ℕ) (x : K) : ℤ := ⌊x * 10 ^ places + 1 / 2⌋

def rounded (places : ℕ) (x : K) : K := steps places x / 10 ^ places

theorem steps_mono (places : ℕ) {x y : K} (h : x ≤ y) : steps places x ≤ steps places y := by
  have hpower : (0 : K) ≤ 10 ^ places := by positivity
  exact Int.floor_le_floor (by linarith [mul_le_mul_of_nonneg_right h hpower])

theorem rounded_mono (places : ℕ) {x y : K} (h : x ≤ y) : rounded places x ≤ rounded places y := by
  have hpower : (0 : K) ≤ 10 ^ places := by positivity
  exact div_le_div_of_nonneg_right (Int.cast_le.mpr (steps_mono places h)) hpower

theorem le_steps_iff (places : ℕ) (x : K) (z : ℤ) :
    z ≤ steps places x ↔ z - 1 / 2 ≤ x * 10 ^ places := by
  rw [steps, Int.le_floor, sub_le_iff_le_add]

theorem steps_lt_iff (places : ℕ) (x : K) (z : ℤ) :
    steps places x < z ↔ x * 10 ^ places < z - 1 / 2 := by
  rw [← not_le, le_steps_iff, not_le]

theorem steps_nonneg (places : ℕ) {x : K} (h : 0 ≤ x) : 0 ≤ steps places x := by
  have hpower : (0 : K) ≤ 10 ^ places := by positivity
  rw [le_steps_iff]
  linarith [mul_nonneg h hpower, Int.cast_zero (R := K)]

/-- A multiple of the step is rounded to itself. -/
@[simp] theorem steps_div (places : ℕ) (z : ℤ) : steps places ((z : K) / 10 ^ places) = z := by
  have hpower : (10 : K) ^ places ≠ 0 := by positivity
  rw [steps, div_mul_cancel₀ _ hpower, Int.floor_intCast_add]
  have hhalf : ⌊(1 / 2 : K)⌋ = 0 := Int.floor_eq_zero_iff.mpr ⟨by norm_num, by norm_num⟩
  rw [hhalf, add_zero]

/-- Rounding keeps a multiple of the step. -/
theorem rounded_eq_self (places : ℕ) {x : K} {z : ℤ} (h : x * 10 ^ places = z) :
    rounded places x = x := by
  have hpower : (10 : K) ^ places ≠ 0 := by positivity
  rw [eq_div_of_mul_eq hpower h, rounded, steps_div]

omit [IsStrictOrderedRing K] in
/-- Rounding to places is rounding of the multiple. -/
theorem rounded_zero_mul (places : ℕ) (x : K) :
    rounded 0 (x * 10 ^ places) / 10 ^ places = rounded places x := by
  rw [rounded, rounded, steps, steps, pow_zero, mul_one, div_one]

theorem rounded_zero_sub (x : K) (z : ℤ) : rounded 0 (x - z) = rounded 0 x - z := by
  have hshift : x - z + 1 / 2 = x + 1 / 2 - z := sub_add_eq_add_sub x z (1 / 2)
  rw [rounded, rounded, steps, steps, pow_zero, mul_one, mul_one, div_one, div_one, hshift,
    Int.floor_sub_intCast, Int.cast_sub]

/-- An error that is smaller than the distance to a tie does not show. -/
theorem steps_of_abs_sub_lt (places : ℕ) {x : K} {k h : ℕ} (hh : 0 < h)
    (herror : |x * 10 ^ places - k / (2 * h)| < 1 / (2 * h)) (htie : k % (2 * h) ≠ h) :
    steps places x = ((k + h) / (2 * h) : ℕ) := by
  have hpos : (0 : K) < 2 * h := by positivity
  have hcancel : x * 10 ^ places - k / (2 * h) = (x * 10 ^ places * (2 * h) - k) / (2 * h) := by
    field_simp
  rw [hcancel, abs_div, abs_of_pos hpos, div_lt_div_iff_of_pos_right hpos, abs_lt] at herror
  obtain ⟨hlow, hhigh⟩ := herror
  have hdivision := Nat.div_add_mod (k + h) (2 * h)
  have hrest : (k + h) % (2 * h) ≠ 0 := by
    intro hzero
    have hshift : (k + h + h) % (2 * h) = h := by
      rw [Nat.add_mod, hzero, zero_add, Nat.mod_mod, Nat.mod_eq_of_lt (by omega)]
    rw [add_assoc, ← two_mul, Nat.add_mod_right] at hshift
    exact htie hshift
  have hless := Nat.mod_lt (k + h) (by omega : 2 * h > 0)
  have hbelow : 2 * h * ((k + h) / (2 * h)) + 1 ≤ k + h := by omega
  have habove : k + h + 1 ≤ 2 * h * ((k + h) / (2 * h)) + 2 * h := by omega
  have hbelowCast : (2 * h * ((k + h) / (2 * h) : ℕ) + 1 : K) ≤ k + h := by exact_mod_cast hbelow
  have haboveCast : (k + h + 1 : K) ≤ 2 * h * ((k + h) / (2 * h) : ℕ) + 2 * h := by
    exact_mod_cast habove
  rw [steps, Int.floor_eq_iff, Int.cast_natCast]
  constructor
  · rw [← mul_le_mul_iff_of_pos_right hpos]
    linarith
  · rw [← mul_lt_mul_iff_of_pos_right hpos]
    linarith

/-- A whole number is reached when half a step is missing. -/
theorem le_rounded_iff (places : ℕ) (x : K) (z : ℤ) :
    z ≤ rounded places x ↔ z - 1 / (2 * 10 ^ places) ≤ x := by
  have hpower : (0 : K) < 10 ^ places := by positivity
  have hcast : ((z * 10 ^ places : ℤ) : K) = z * 10 ^ places := by push_cast; rfl
  rw [rounded, le_div_iff₀ hpower, ← hcast, Int.cast_le, le_steps_iff, hcast,
    ← mul_le_mul_iff_of_pos_right hpower (b := (z : K) - 1 / (2 * 10 ^ places))]
  have hstep : ((z : K) - 1 / (2 * 10 ^ places)) * 10 ^ places = z * 10 ^ places - 1 / 2 := by
    field_simp
  rw [hstep]

theorem rounded_lt_iff (places : ℕ) (x : K) (z : ℤ) :
    rounded places x < z ↔ x < z - 1 / (2 * 10 ^ places) := by
  rw [← not_le, le_rounded_iff, not_le]

/-- The same for a numeral as the bound. -/
theorem rounded_lt_ofNat (places : ℕ) (x : K) (n : ℕ) [n.AtLeastTwo] :
    rounded places x < (OfNat.ofNat n : K) ↔ x < (OfNat.ofNat n : K) - 1 / (2 * 10 ^ places) := by
  have hiff := rounded_lt_iff places x (OfNat.ofNat n : ℤ)
  rwa [Int.cast_ofNat] at hiff

theorem rounded_nonneg (places : ℕ) {x : K} (h : 0 ≤ x) : 0 ≤ rounded places x := by
  have hpower : (0 : K) ≤ 10 ^ places := by positivity
  exact div_nonneg (Int.cast_nonneg (steps_nonneg places h)) hpower

/-- Two increasing functions are one, split where the second has caught up with the first. -/
theorem monotone_ite_lt {α β : Type*} [LinearOrder α] [Preorder β] {f g : α → β}
    (hf : Monotone f) (hg : Monotone g) (b : α) (h : f b ≤ g b) :
    Monotone (fun x => if x < b then f x else g x) := by
  intro x y hxy
  dsimp only
  split_ifs with hx hy hy
  · exact hf hxy
  · exact (hf hx.le).trans (h.trans (hg (not_lt.mp hy)))
  · exact absurd (hxy.trans_lt hy) hx
  · exact hg hxy

end FixedPlaces
