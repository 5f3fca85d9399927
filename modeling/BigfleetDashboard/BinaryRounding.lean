import Mathlib.Algebra.Order.Floor.Ring
import Mathlib.Data.Int.Log
import Mathlib.Tactic.Linarith
import Mathlib.Tactic.Positivity
import Mathlib.Tactic.FieldSimp
import Mathlib.Tactic.Ring

/-!
# Rounding to a binary floating-point format

A number is rounded to a multiple of a power of two that depends on its magnitude: `p`
significant bits are kept, but no bit below `2 ^ emin`. Ties go to the even multiple.
-/
namespace BinaryRounding

variable {K : Type*} [Field K] [LinearOrder K] [IsStrictOrderedRing K] [FloorRing K]

/-- The closest integer; of two the even one. -/
def halfEven (x : K) : ℤ :=
  if x - ⌊x⌋ < ⌊x⌋ + 1 - x ∨ (x - ⌊x⌋ = ⌊x⌋ + 1 - x ∧ ⌊x⌋ % 2 = 0) then ⌊x⌋ else ⌊x⌋ + 1

/-- The exponent of the last bit that is kept. -/
def lastBit (p : ℕ) (emin : ℤ) (x : K) : ℤ := max (Int.log 2 |x| + 1 - p) emin

def nearest (p : ℕ) (emin : ℤ) (x : K) : K :=
  halfEven (x / (2 : ℕ) ^ lastBit p emin x) * (2 : ℕ) ^ lastBit p emin x

omit [IsStrictOrderedRing K] in
theorem nearest_eq (p : ℕ) (emin : ℤ) (x : K) :
    nearest p emin x = halfEven (x / 2 ^ lastBit p emin x) * 2 ^ lastBit p emin x := by
  rw [nearest, Nat.cast_ofNat]

theorem halfEven_intCast (z : ℤ) : halfEven (z : K) = z := by
  have hfraction : (z : K) - ⌊(z : K)⌋ < ⌊(z : K)⌋ + 1 - z := by
    rw [Int.floor_intCast, sub_self, add_sub_cancel_left]
    exact one_pos
  rw [halfEven, if_pos (Or.inl hfraction), Int.floor_intCast]

omit [IsStrictOrderedRing K] in
theorem halfEven_nonneg {x : K} (h : 0 ≤ x) : 0 ≤ halfEven x := by
  have hfloor : 0 ≤ ⌊x⌋ := Int.floor_nonneg.mpr h
  unfold halfEven
  split_ifs
  · exact hfloor
  · omega

/-- The closest integer is at most a half away. -/
theorem abs_halfEven_sub_le (x : K) : |halfEven x - x| ≤ 1 / 2 := by
  have hle := Int.floor_le x
  have hlt := Int.lt_floor_add_one x
  rw [abs_le]
  unfold halfEven
  split_ifs with h
  · constructor
    · rcases h with h | h
      · linarith
      · linarith [h.1]
    · linarith
  · have hcloser : ⌊x⌋ + 1 - x ≤ x - ⌊x⌋ := by
      by_contra hless
      exact h (Or.inl (not_le.mp hless))
    push_cast
    constructor
    · linarith
    · linarith

/-- A smaller number has no greater closest integer. -/
theorem halfEven_mono {x y : K} (hxy : x ≤ y) : halfEven x ≤ halfEven y := by
  by_contra hnot
  have hstep : ((halfEven y + 1 : ℤ) : K) ≤ halfEven x := Int.cast_le.mpr (by omega)
  push_cast at hstep
  have hx := abs_le.mp (abs_halfEven_sub_le x)
  have hy := abs_le.mp (abs_halfEven_sub_le y)
  have heq : x = y := by linarith
  rw [heq] at hnot
  exact hnot le_rfl

/-- Without a bit in front of the point to drop a whole number is exact. -/
theorem nearest_of_lastBit_le {p : ℕ} {emin : ℤ} {n : ℕ} (h : lastBit p emin (n : K) ≤ 0) :
    nearest p emin (n : K) = n := by
  obtain ⟨d, hd⟩ := Int.eq_ofNat_of_zero_le (neg_nonneg.mpr h)
  have hexponent : lastBit p emin (n : K) = -(d : ℤ) := by omega
  have hquotient : (n : K) / 2 ^ (-(d : ℤ)) = ((n * 2 ^ d : ℤ) : K) := by
    rw [zpow_neg, zpow_natCast, div_inv_eq_mul]
    push_cast
    rfl
  rw [nearest_eq, hexponent, hquotient, halfEven_intCast, zpow_neg, zpow_natCast]
  push_cast
  field_simp

/-- Whole numbers of at most `p` bits are exact. -/
theorem nearest_of_lt {p : ℕ} (hp : p ≠ 0) {emin : ℤ} (hemin : emin ≤ 0) {n : ℕ} (h : n < 2 ^ p) :
    nearest p emin (n : K) = n := by
  have hlog : Nat.log 2 n < p := Nat.log_lt_of_lt_pow' hp h
  refine nearest_of_lastBit_le (max_le ?_ hemin)
  rw [abs_of_nonneg (Nat.cast_nonneg n), Int.log_natCast]
  omega

theorem nearest_natCast (p : ℕ) (emin : ℤ) (n : ℕ) : ∃ k : ℕ, nearest p emin (n : K) = k := by
  rcases le_or_gt (lastBit p emin (n : K)) 0 with hnonpos | hpos
  · exact ⟨n, nearest_of_lastBit_le hnonpos⟩
  · obtain ⟨d, hd⟩ := Int.eq_ofNat_of_zero_le hpos.le
    have hquotient : (0 : K) ≤ n / 2 ^ d := by positivity
    obtain ⟨m, hm⟩ := Int.eq_ofNat_of_zero_le (halfEven_nonneg hquotient)
    refine ⟨m * 2 ^ d, ?_⟩
    rw [nearest_eq, hd, zpow_natCast, hm]
    push_cast
    rfl

/-- Rounding moves a number by at most half its last bit. -/
theorem abs_nearest_sub_le (p : ℕ) (emin : ℤ) (x : K) :
    |nearest p emin x - x| ≤ 2 ^ lastBit p emin x / 2 := by
  have hbit : (0 : K) < 2 ^ lastBit p emin x := zpow_pos two_pos _
  have hclosest := abs_halfEven_sub_le (x / 2 ^ lastBit p emin x)
  have hscaled : nearest p emin x - x =
      (halfEven (x / 2 ^ lastBit p emin x) - x / 2 ^ lastBit p emin x) *
        2 ^ lastBit p emin x := by
    rw [nearest_eq, sub_mul, div_mul_cancel₀ _ hbit.ne']
  rw [hscaled, abs_mul, abs_of_pos hbit]
  calc |↑(halfEven (x / 2 ^ lastBit p emin x)) - x / 2 ^ lastBit p emin x| *
        2 ^ lastBit p emin x ≤ 1 / 2 * 2 ^ lastBit p emin x :=
        mul_le_mul_of_nonneg_right hclosest hbit.le
    _ = 2 ^ lastBit p emin x / 2 := by ring

/-- Above the smallest normal number the error is relative. -/
theorem abs_nearest_sub_le_div {p : ℕ} {emin : ℤ} {x : K} (hx : 0 < x)
    (hnormal : 2 ^ (emin + p - 1) ≤ x) : |nearest p emin x - x| ≤ x / 2 ^ p := by
  have hlog : emin + p - 1 ≤ Int.log 2 x := by
    rw [← Int.zpow_le_iff_le_log one_lt_two hx]
    exact_mod_cast hnormal
  have hbit : lastBit p emin x = Int.log 2 x + 1 - p := by
    rw [lastBit, abs_of_pos hx]
    exact max_eq_left (by omega)
  have hpower : (2 : K) ^ Int.log 2 x ≤ x := by
    have hle := Int.zpow_log_le_self one_lt_two hx
    rwa [Nat.cast_ofNat] at hle
  have hsplit : (2 : K) ^ (Int.log 2 x + 1 - p) / 2 = 2 ^ Int.log 2 x / 2 ^ p := by
    rw [zpow_sub₀ two_ne_zero, zpow_add_one₀ two_ne_zero, zpow_natCast]
    field_simp
  calc |nearest p emin x - x| ≤ 2 ^ lastBit p emin x / 2 := abs_nearest_sub_le p emin x
    _ = 2 ^ Int.log 2 x / 2 ^ p := by rw [hbit, hsplit]
    _ ≤ x / 2 ^ p := div_le_div_of_nonneg_right hpower (by positivity)

/-! ## The multiples of the last bit -/

/-- A multiple of `2 ^ emin`. -/
def OnGrid (emin : ℤ) (x : K) : Prop := ∃ z : ℤ, x = z * (2 : ℕ) ^ emin

omit [LinearOrder K] [IsStrictOrderedRing K] [FloorRing K] in
theorem onGrid_iff {emin : ℤ} {x : K} : OnGrid emin x ↔ ∃ z : ℤ, x = z * 2 ^ emin := by
  rw [OnGrid, Nat.cast_ofNat]

omit [LinearOrder K] [IsStrictOrderedRing K] [FloorRing K] in
theorem OnGrid.sub {emin : ℤ} {x y : K} (hx : OnGrid emin x) (hy : OnGrid emin y) :
    OnGrid emin (x - y) := by
  obtain ⟨z, rfl⟩ := hx
  obtain ⟨w, rfl⟩ := hy
  exact ⟨z - w, by push_cast; ring⟩

omit [FloorRing K] in
theorem onGrid_intCast {emin : ℤ} (hemin : emin ≤ 0) (z : ℤ) : OnGrid emin (z : K) := by
  obtain ⟨d, hd⟩ := Int.eq_ofNat_of_zero_le (neg_nonneg.mpr hemin)
  obtain rfl : emin = -(d : ℤ) := by omega
  refine onGrid_iff.mpr ⟨z * 2 ^ d, ?_⟩
  rw [zpow_neg, zpow_natCast]
  push_cast
  field_simp

/-- What is rounded is a multiple of the last bit there is. -/
theorem onGrid_nearest (p : ℕ) (emin : ℤ) (x : K) : OnGrid emin (nearest p emin x) := by
  obtain ⟨d, hd⟩ := Int.eq_ofNat_of_zero_le (sub_nonneg.mpr (le_max_right (Int.log 2 |x| + 1 - p) emin))
  have hbit : lastBit p emin x = d + emin := by
    rw [lastBit]
    omega
  have htwo : (0 : K) < 2 := two_pos
  refine onGrid_iff.mpr ⟨halfEven (x / 2 ^ lastBit p emin x) * 2 ^ d, ?_⟩
  rw [nearest_eq, hbit, zpow_add₀ htwo.ne', zpow_natCast]
  push_cast
  ring

/-- The last bit that is kept of a multiple is not above it. -/
theorem two_zpow_lastBit_le {p : ℕ} (hp : p ≠ 0) {emin : ℤ} {x : K} (hx : x ≠ 0)
    (hgrid : OnGrid emin x) : (2 : K) ^ lastBit p emin x ≤ |x| := by
  obtain hmax | hmax := max_choice (Int.log 2 |x| + 1 - (p : ℤ)) emin
  · rw [lastBit, hmax]
    have hlog := Int.zpow_log_le_self one_lt_two (abs_pos.mpr hx)
    rw [Nat.cast_ofNat] at hlog
    exact (zpow_le_zpow_right₀ one_le_two (by omega)).trans hlog
  · rw [lastBit, hmax]
    obtain ⟨z, rfl⟩ := onGrid_iff.mp hgrid
    have hz : z ≠ 0 := by
      rintro rfl
      exact hx (by simp)
    have hone : (1 : K) ≤ |(z : K)| := by
      rw [← Int.cast_abs, ← Int.cast_one]
      exact Int.cast_le.mpr (Int.one_le_abs hz)
    rw [abs_mul, abs_of_pos (zpow_pos two_pos emin : (0 : K) < 2 ^ emin)]
    exact le_mul_of_one_le_left (zpow_pos two_pos emin).le hone

theorem nearest_zero (p : ℕ) (emin : ℤ) : nearest p emin (0 : K) = 0 := by
  rw [nearest_eq]
  simp [halfEven]

/-- Rounding a multiple that is not zero keeps its sign. -/
theorem abs_nearest_sub_lt {p : ℕ} (hp : p ≠ 0) {emin : ℤ} {x : K} (hx : x ≠ 0)
    (hgrid : OnGrid emin x) : |nearest p emin x - x| < |x| := by
  have hbit : (0 : K) < 2 ^ lastBit p emin x := zpow_pos two_pos _
  calc |nearest p emin x - x| ≤ 2 ^ lastBit p emin x / 2 := abs_nearest_sub_le p emin x
    _ < 2 ^ lastBit p emin x := half_lt_self hbit
    _ ≤ |x| := two_zpow_lastBit_le hp hx hgrid

theorem nearest_pos_iff {p : ℕ} (hp : p ≠ 0) {emin : ℤ} {x : K} (hgrid : OnGrid emin x) :
    0 < nearest p emin x ↔ 0 < x := by
  obtain hneg | rfl | hpos := lt_trichotomy x 0
  · have herror := abs_lt.mp (abs_nearest_sub_lt hp hneg.ne hgrid)
    rw [abs_of_neg hneg] at herror
    exact iff_of_false (by linarith [herror.2]) hneg.not_gt
  · rw [nearest_zero]
  · have herror := abs_lt.mp (abs_nearest_sub_lt hp hpos.ne' hgrid)
    rw [abs_of_pos hpos] at herror
    exact iff_of_true (by linarith [herror.1]) hpos

theorem nearest_neg_iff {p : ℕ} (hp : p ≠ 0) {emin : ℤ} {x : K} (hgrid : OnGrid emin x) :
    nearest p emin x < 0 ↔ x < 0 := by
  obtain hneg | rfl | hpos := lt_trichotomy x 0
  · have herror := abs_lt.mp (abs_nearest_sub_lt hp hneg.ne hgrid)
    rw [abs_of_neg hneg] at herror
    exact iff_of_true (by linarith [herror.2]) hneg
  · rw [nearest_zero]
  · have herror := abs_lt.mp (abs_nearest_sub_lt hp hpos.ne' hgrid)
    rw [abs_of_pos hpos] at herror
    exact iff_of_false (by linarith [herror.1]) hpos.not_gt

/-! ## Order -/

theorem nearest_nonneg (p : ℕ) (emin : ℤ) {x : K} (hx : 0 ≤ x) : 0 ≤ nearest p emin x := by
  have hbit : (0 : K) < 2 ^ lastBit p emin x := zpow_pos two_pos _
  rw [nearest_eq]
  exact mul_nonneg (Int.cast_nonneg (halfEven_nonneg (div_nonneg hx hbit.le))) hbit.le

/-- A number has at most `p` bits from its last one on. -/
theorem nearest_le_two_zpow (p : ℕ) (emin : ℤ) {x : K} (hx : 0 < x) :
    nearest p emin x ≤ 2 ^ (lastBit p emin x + p) := by
  have hbit : (0 : K) < 2 ^ lastBit p emin x := zpow_pos two_pos _
  have hlog := Int.lt_zpow_succ_log_self (R := K) one_lt_two x
  rw [Nat.cast_ofNat] at hlog
  have hexponent : Int.log 2 x + 1 ≤ lastBit p emin x + p := by
    rw [lastBit, abs_of_pos hx]
    omega
  have hquotient : x / 2 ^ lastBit p emin x ≤ ((2 ^ p : ℤ) : K) := by
    rw [div_le_iff₀ hbit]
    push_cast
    rw [← zpow_natCast, ← zpow_add₀ two_ne_zero, add_comm]
    exact hlog.le.trans (zpow_le_zpow_right₀ one_le_two hexponent)
  have hround := halfEven_mono hquotient
  rw [halfEven_intCast] at hround
  rw [nearest_eq, zpow_add₀ two_ne_zero, mul_comm]
  refine mul_le_mul_of_nonneg_left ?_ hbit.le
  rw [zpow_natCast]
  exact_mod_cast (Int.cast_le (R := K)).mpr hround

/-- A number whose last bit is not the smallest has its first bit. -/
theorem two_zpow_le_nearest {p : ℕ} (hp : p ≠ 0) {emin : ℤ} {x : K} (hx : 0 < x)
    (hnormal : emin < lastBit p emin x) : 2 ^ (lastBit p emin x + p - 1) ≤ nearest p emin x := by
  have hbit : (0 : K) < 2 ^ lastBit p emin x := zpow_pos two_pos _
  obtain ⟨k, rfl⟩ := Nat.exists_eq_succ_of_ne_zero hp
  have hexponent : lastBit (k + 1) emin x + (k + 1 : ℕ) - 1 = Int.log 2 x := by
    rw [lastBit, abs_of_pos hx] at hnormal ⊢
    push_cast at hnormal ⊢
    omega
  have hsplit : lastBit (k + 1) emin x + (k + 1 : ℕ) - 1 = lastBit (k + 1) emin x + (k : ℤ) := by
    push_cast
    ring
  have hlog := Int.zpow_log_le_self one_lt_two hx
  rw [Nat.cast_ofNat, ← hexponent, hsplit] at hlog
  have hquotient : ((2 ^ k : ℤ) : K) ≤ x / 2 ^ lastBit (k + 1) emin x := by
    rw [le_div_iff₀ hbit]
    push_cast
    rw [← zpow_natCast, ← zpow_add₀ two_ne_zero, add_comm]
    exact hlog
  have hround := halfEven_mono hquotient
  rw [halfEven_intCast] at hround
  rw [hsplit, nearest_eq, zpow_add₀ two_ne_zero, mul_comm]
  refine mul_le_mul_of_nonneg_right ?_ hbit.le
  rw [zpow_natCast]
  exact_mod_cast (Int.cast_le (R := K)).mpr hround

/-- Rounding does not reverse the order. -/
theorem nearest_mono {p : ℕ} (hp : p ≠ 0) (emin : ℤ) {x y : K} (h : 0 ≤ x) (hxy : x ≤ y) :
    nearest p emin x ≤ nearest p emin y := by
  obtain rfl | hx := h.eq_or_lt
  · rw [nearest_zero]
    exact nearest_nonneg p emin hxy
  have hy : 0 < y := hx.trans_le hxy
  have hlog : Int.log 2 x ≤ Int.log 2 y := Int.log_mono_right hx hxy
  have hbits : lastBit p emin x ≤ lastBit p emin y := by
    rw [lastBit, lastBit, abs_of_pos hx, abs_of_pos hy]
    omega
  obtain heq | hlt := hbits.eq_or_lt
  · have hbit : (0 : K) < 2 ^ lastBit p emin y := zpow_pos two_pos _
    rw [nearest_eq, nearest_eq, heq]
    refine mul_le_mul_of_nonneg_right ?_ hbit.le
    exact Int.cast_le.mpr (halfEven_mono (div_le_div_of_nonneg_right hxy hbit.le))
  · have hnormal : emin < lastBit p emin y := (le_max_right _ _).trans_lt hlt
    calc nearest p emin x ≤ 2 ^ (lastBit p emin x + p) := nearest_le_two_zpow p emin hx
      _ ≤ 2 ^ (lastBit p emin y + p - 1) := zpow_le_zpow_right₀ one_le_two (by omega)
      _ ≤ nearest p emin y := two_zpow_le_nearest hp hy hnormal

end BinaryRounding
