import BigfleetDashboard.BinaryRounding
import BigfleetDashboard.NumberTexts

/-!
# Arithmetic with rounding

The results of a script's arithmetic are doubles. An `Arithmetic` says what an exact result
is rounded to and how a number is written, as far as labels rely on it; there is one without
rounding, and the rounding of any can be replaced by that of doubles.
-/
namespace BigfleetDashboard.Script
open FixedPlaces BinaryRounding

structure Arithmetic where
  round : ℚ → ExtRat
  /-- A whole number stays one, unless it is too large. -/
  round_natCast : ∀ n : ℕ, ¬ (round n).IsFinite ∨ ∃ k : ℕ, round n = .fin k
  text : ℚ → List Char
  text_natCast : ∀ n : ℕ, n ≤ 2 ^ 53 → text n = Nat.toDigits 10 n
  /-- Large numbers are written with an exponent. -/
  text_large : ∀ q, 10 ^ 21 ≤ |q| → ∃ s t, text q = s ++ 'e' :: t ∧ '.' ∉ t

namespace Arithmetic
variable (a : Arithmetic)

/-- The number that an exact value is rounded to. -/
def value : ExtRat → ExtRat
  | .fin q => a.round q
  | x => x

def div (x y : ExtRat) : ExtRat := a.value (x / y)

/-- The characters of `${x}`. -/
def textOf : ExtRat → List Char
  | .fin q => a.text q
  | x => exactText x

/-- `x.toFixed(places)`. -/
def toFixed (places : ℕ) : ExtRat → List Char
  | .fin q =>
    if 10 ^ 21 ≤ |q| then a.text q
    else signed (q < 0) (fixedNumeral places (steps places |q|).toNat)
  | x => exactText x

theorem toFixed_of_large (places : ℕ) {q : ℚ} (h : 10 ^ 21 ≤ |q|) :
    a.toFixed places (.fin q) = a.text q := if_pos h

theorem toFixed_of_small (places : ℕ) {q : ℚ} (h : |q| < 10 ^ 21) :
    a.toFixed places (.fin q) = signed (q < 0) (fixedNumeral places (steps places |q|).toNat) :=
  if_neg (not_le.mpr h)

end Arithmetic

/-! ## Without rounding -/

/-- A number with its point behind more than 21 digits. -/
theorem digitsText_exponent (digits : List Char) {point : Int} (h : 21 < point) :
    ∃ s t, digitsText digits point = s ++ 'e' :: t ∧ '.' ∉ t := by
  have hsign : (if point - 1 < 0 then '-' else '+') = '+' := if_neg (by omega)
  refine ⟨digits.take 1 ++ (if digits.length = 1 then [] else '.' :: digits.drop 1),
    '+' :: Nat.toDigits 10 (point - 1).natAbs, ?_, ?_⟩
  · rw [digitsText, if_neg (by omega), if_neg (by omega), if_neg (by omega), hsign]
  · intro hmem
    rcases List.mem_cons.mp hmem with hplus | hdigit
    · exact absurd hplus (by decide)
    · exact absurd (isDigit_of_mem_toDigits hdigit) (by decide)

theorem unsignedText_exponent {q : ℚ} (h : 10 ^ 21 ≤ q) :
    ∃ s t, unsignedText q = s ++ 'e' :: t ∧ '.' ∉ t := by
  have hzero : q ≠ 0 := by
    rintro rfl
    norm_num at h
  have hscaled : (10 ^ (21 + decimalPlaces q) : ℚ) ≤ q * 10 ^ decimalPlaces q := by
    rw [pow_add]
    exact mul_le_mul_of_nonneg_right h (by positivity)
  have hfloor : 10 ^ (21 + decimalPlaces q) ≤ ⌊q * 10 ^ decimalPlaces q⌋.toNat := by
    have hle : ((10 ^ (21 + decimalPlaces q) : ℕ) : ℤ) ≤ ⌊q * 10 ^ decimalPlaces q⌋ := by
      rw [Int.le_floor]
      exact_mod_cast hscaled
    omega
  have hlength : 21 + decimalPlaces q < (Nat.toDigits 10 ⌊q * 10 ^ decimalPlaces q⌋.toNat).length := by
    by_contra hshort
    rw [not_lt, Nat.length_toDigits_le_iff (by decide) (by omega)] at hshort
    omega
  unfold unsignedText
  dsimp only
  rw [if_neg hzero]
  exact digitsText_exponent _ (by omega)

theorem exactText_exponent {q : ℚ} (h : 10 ^ 21 ≤ |q|) :
    ∃ s t, exactText (.fin q) = s ++ 'e' :: t ∧ '.' ∉ t := by
  unfold exactText
  dsimp only
  split_ifs with hneg
  · rw [abs_of_neg hneg] at h
    obtain ⟨s, t, htext, ht⟩ := unsignedText_exponent h
    exact ⟨'-' :: s, t, by rw [htext]; rfl, ht⟩
  · rw [abs_of_nonneg (not_lt.mp hneg)] at h
    exact unsignedText_exponent h

/-- Exact results, written with all their digits. -/
def Arithmetic.exact : Arithmetic where
  round q := .fin q
  round_natCast n := Or.inr ⟨n, rfl⟩
  text q := exactText (.fin q)
  text_natCast n h := by
    refine exactText_of_length_le ?_
    rw [Nat.length_toDigits_le_iff (by decide) (by decide)]
    omega
  text_large _ h := exactText_exponent h

/-! ## Doubles -/

/-- The double nearest to a number. -/
def nearestDouble (q : ℚ) : ExtRat :=
  let y := nearest 53 (-1074) q
  if 2 ^ 1024 ≤ y then .posInf
  else if y ≤ -2 ^ 1024 then .negInf
  else .fin y

theorem nearestDouble_of_lt {q : ℚ} (h : |nearest 53 (-1074) q| < 2 ^ 1024) :
    nearestDouble q = .fin (nearest 53 (-1074) q) := by
  obtain ⟨hlow, hhigh⟩ := abs_lt.mp h
  unfold nearestDouble
  dsimp only
  rw [if_neg (not_le.mpr hhigh), if_neg (not_le.mpr hlow)]

theorem nearestDouble_natCast {n : ℕ} (h : n < 2 ^ 53) : nearestDouble n = .fin n := by
  have hexact : nearest 53 (-1074) (n : ℚ) = n := nearest_of_lt (by decide) (by decide) h
  have hsmall : |nearest 53 (-1074) (n : ℚ)| < 2 ^ 1024 := by
    rw [hexact, abs_of_nonneg (Nat.cast_nonneg n)]
    have hle : (n : ℚ) < (2 ^ 53 : ℕ) := Nat.cast_lt.mpr h
    have hpower : ((2 ^ 53 : ℕ) : ℚ) ≤ 2 ^ 1024 := by
      rw [Nat.cast_pow, Nat.cast_ofNat]
      exact pow_le_pow_right₀ one_le_two (by decide)
    exact hle.trans_le hpower
  rw [nearestDouble_of_lt hsmall, hexact]

/-- The arithmetic with the rounding of doubles. -/
def Arithmetic.doubles (a : Arithmetic) : Arithmetic :=
  { a with
    round := nearestDouble
    round_natCast := by
      intro n
      obtain ⟨k, hk⟩ := nearest_natCast (K := ℚ) 53 (-1074) n
      unfold nearestDouble
      dsimp only
      split_ifs
      · exact Or.inl (by decide)
      · exact Or.inl (by decide)
      · exact Or.inr ⟨k, congrArg ExtRat.fin hk⟩ }

/-- The double that stands for a number. -/
def double : ExtRat → ExtRat
  | .fin q => nearestDouble q
  | x => x

/-- `x - y`. -/
def minus (x y : ExtRat) : ExtRat := double (x - y)

/-- A number without bits below the last one of the doubles. -/
def Gridded : ExtRat → Prop
  | .fin q => OnGrid (-1074) q
  | _ => True

theorem gridded_intCast (z : ℤ) : Gridded (.fin z) := onGrid_intCast (by decide) z

theorem gridded_double (x : ExtRat) : Gridded (double x) := by
  cases x with
  | fin q =>
    show Gridded (nearestDouble q)
    unfold nearestDouble
    generalize (2 : ℚ) ^ 1024 = bound
    dsimp only
    split_ifs
    · trivial
    · trivial
    · exact onGrid_nearest 53 (-1074) q
  | nan => trivial
  | posInf => trivial
  | negInf => trivial

theorem Gridded.sub {x y : ExtRat} (hx : Gridded x) (hy : Gridded y) : Gridded (x - y) := by
  cases x <;> cases y
  case fin.fin a b =>
    rw [ExtRat.fin_sub_fin]
    exact OnGrid.sub hx hy
  all_goals exact trivial

section Signs
variable {x : ExtRat} (hx : Gridded x)
include hx

/-- No difference of two doubles is rounded to zero. -/
theorem double_neg_iff : double x < 0 ↔ x < 0 := by
  cases x with
  | fin q =>
    have hround : nearest 53 (-1074) q < 0 ↔ q < 0 := nearest_neg_iff (by decide) hx
    have hpower : (0 : ℚ) < 2 ^ 1024 := pow_pos two_pos 1024
    show nearestDouble q < .fin 0 ↔ q < 0
    unfold nearestDouble
    generalize (2 : ℚ) ^ 1024 = bound at hpower ⊢
    dsimp only
    split_ifs with hhigh hlow
    · exact iff_of_false id (fun hq => absurd (hround.mpr hq) (by linarith))
    · exact iff_of_true trivial (hround.mp (by linarith))
    · exact hround
  | nan => exact Iff.rfl
  | posInf => exact Iff.rfl
  | negInf => exact Iff.rfl

theorem double_pos_iff : 0 < double x ↔ 0 < x := by
  cases x with
  | fin q =>
    have hround : 0 < nearest 53 (-1074) q ↔ 0 < q := nearest_pos_iff (by decide) hx
    have hpower : (0 : ℚ) < 2 ^ 1024 := pow_pos two_pos 1024
    show .fin 0 < nearestDouble q ↔ 0 < q
    unfold nearestDouble
    generalize (2 : ℚ) ^ 1024 = bound at hpower ⊢
    dsimp only
    split_ifs with hhigh hlow
    · exact iff_of_true trivial (hround.mp (by linarith))
    · exact iff_of_false id (fun hq => absurd (hround.mpr hq) (by linarith))
    · exact hround
  | nan => exact Iff.rfl
  | posInf => exact Iff.rfl
  | negInf => exact Iff.rfl

end Signs

/-- Reading a number as a double does not reverse the order. -/
theorem nearestDouble_mono {a b c : ℚ} (ha : 0 ≤ a) (hab : a ≤ b)
    (hb : nearestDouble b = .fin c) : ∃ c', nearestDouble a = .fin c' ∧ c' ≤ c := by
  have hround : nearest 53 (-1074) a ≤ nearest 53 (-1074) b :=
    nearest_mono (by decide) (-1074) ha hab
  have hnonneg : 0 ≤ nearest 53 (-1074) a := nearest_nonneg 53 (-1074) ha
  have hpower : (0 : ℚ) < 2 ^ 1024 := pow_pos two_pos 1024
  unfold nearestDouble at hb ⊢
  generalize (2 : ℚ) ^ 1024 = bound at hpower hb ⊢
  dsimp only at hb ⊢
  split_ifs at hb with hhigh hlow
  obtain rfl := ExtRat.fin.inj hb
  rw [if_neg (by linarith), if_neg (by linarith)]
  exact ⟨_, rfl, hround⟩

end BigfleetDashboard.Script
