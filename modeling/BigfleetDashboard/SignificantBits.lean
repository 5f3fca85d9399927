import Mathlib.Tactic.Ring
import Mathlib.Tactic.Linarith

/-!
# Rounding to significant bits

A natural number keeps its `p` leading bits and is rounded to the nearest, ties to
even. The numbers that are exact fall into ranges with a common exponent; which of two
neighbours of a range a number is rounded to is told by their midpoint, whatever the
exponent of the number itself is.
-/
namespace SignificantBits

/-- The number of bits that are rounded away. -/
def exponent (p m : ℕ) : ℕ := m.log2 + 1 - p

/-- The multiple of `2 ^ e` closest to `m`, counted in units of `2 ^ e`. -/
def halfEven (e m : ℕ) : ℕ :=
  let q := m / 2 ^ e
  let r := m % 2 ^ e
  if 2 * r < 2 ^ e ∨ (2 * r = 2 ^ e ∧ q % 2 = 0) then q else q + 1

def roundBits (p m : ℕ) : ℕ := halfEven (exponent p m) m * 2 ^ exponent p m

/-- `m` is rounded down between the neighbours `k` and `k + 1` of exponent `e`: it is below
their midpoint, or on it and `k` is even. -/
def Below (e k m : ℕ) : Prop :=
  2 * m < (2 * k + 1) * 2 ^ e ∨ (2 * m = (2 * k + 1) * 2 ^ e ∧ k % 2 = 0)

instance (e k m : ℕ) : Decidable (Below e k m) := inferInstanceAs (Decidable (_ ∨ _))

/-- `k * 2 ^ e` and its upper neighbour differ in the last of `p` bits. -/
structure Neighbour (p e k : ℕ) : Prop where
  lt : k < 2 ^ p
  leading : e = 0 ∨ 2 ^ (p - 1) ≤ k

/-! ## One exponent -/

theorem halfEven_le_iff (e k m : ℕ) : halfEven e m ≤ k ↔ Below e k m := by
  have hdiv := Nat.div_add_mod m (2 ^ e)
  have hlt : m % 2 ^ e < 2 ^ e := Nat.mod_lt _ (Nat.two_pow_pos e)
  unfold halfEven Below
  dsimp only
  generalize m / 2 ^ e = q at *
  generalize m % 2 ^ e = r at *
  generalize 2 ^ e = u at *
  have hexpand : (2 * k + 1) * u = 2 * (u * k) + u := by ring
  rw [hexpand]
  rcases lt_trichotomy q k with h | h | h
  · have hle : u * (q + 1) ≤ u * k := Nat.mul_le_mul_left u h
    rw [mul_add, mul_one] at hle
    split_ifs
    · omega
    · omega
  · subst h
    split_ifs
    · omega
    · omega
  · have hle : u * (k + 1) ≤ u * q := Nat.mul_le_mul_left u h
    rw [mul_add, mul_one] at hle
    split_ifs
    · omega
    · omega

theorem halfEven_of_dvd (e k : ℕ) : halfEven e (k * 2 ^ e) = k := by
  have hmod : k * 2 ^ e % 2 ^ e = 0 := Nat.mul_mod_left k (2 ^ e)
  have hdiv : k * 2 ^ e / 2 ^ e = k := Nat.mul_div_cancel k (Nat.two_pow_pos e)
  have hpos := Nat.two_pow_pos e
  simp [halfEven, hmod, hdiv]

theorem halfEven_mono (e : ℕ) {a b : ℕ} (h : a ≤ b) : halfEven e a ≤ halfEven e b := by
  have hb := (halfEven_le_iff e (halfEven e b) b).mp le_rfl
  rw [halfEven_le_iff]
  unfold Below at *
  omega

/-! ## The exponent of a number -/

theorem lt_of_exponent (p m : ℕ) : m < 2 ^ (p + exponent p m) := by
  have hle : m.log2 + 1 ≤ p + exponent p m := by
    unfold exponent
    omega
  exact lt_of_lt_of_le Nat.lt_log2_self (Nat.pow_le_pow_right Nat.zero_lt_two hle)

theorem le_of_exponent {p m : ℕ} (hp : 0 < p) (he : 0 < exponent p m) :
    2 ^ (p - 1 + exponent p m) ≤ m := by
  have hlog : p - 1 + exponent p m = m.log2 := by
    unfold exponent at *
    omega
  rw [hlog]
  refine Nat.log2_self_le ?_
  intro hm
  subst hm
  simp only [exponent, Nat.log2_zero] at he
  omega

theorem roundBits_le (p m : ℕ) : roundBits p m ≤ 2 ^ (p + exponent p m) := by
  have hle := halfEven_mono (exponent p m) (lt_of_exponent p m).le
  rw [pow_add, halfEven_of_dvd] at hle
  rw [pow_add]
  exact Nat.mul_le_mul_right _ hle

theorem le_roundBits {p m : ℕ} (hp : 0 < p) (he : 0 < exponent p m) :
    2 ^ (p - 1 + exponent p m) ≤ roundBits p m := by
  have hle := halfEven_mono (exponent p m) (le_of_exponent hp he)
  rw [pow_add, halfEven_of_dvd] at hle
  rw [pow_add]
  exact Nat.mul_le_mul_right _ hle

/-! ## Midpoints -/

section Midpoints
variable {p e k m : ℕ}

/-- A number of a lower exponent is below every midpoint of this one. -/
theorem below_of_exponent_lt (hk : Neighbour p e k) (h : exponent p m < e) :
    Below e k m ∧ roundBits p m ≤ k * 2 ^ e := by
  have hleading : 2 ^ (p - 1) ≤ k := hk.leading.resolve_left (by omega)
  have hpow : 2 ^ (p + exponent p m) ≤ k * 2 ^ e := by
    calc 2 ^ (p + exponent p m) ≤ 2 ^ (p - 1 + e) :=
          Nat.pow_le_pow_right Nat.zero_lt_two (by omega)
      _ = 2 ^ (p - 1) * 2 ^ e := pow_add 2 (p - 1) e
      _ ≤ k * 2 ^ e := Nat.mul_le_mul_right _ hleading
  have hm := lt_of_exponent p m
  have hpos := Nat.two_pow_pos e
  have hexpand : (2 * k + 1) * 2 ^ e = 2 * (k * 2 ^ e) + 2 ^ e := by ring
  refine ⟨Or.inl ?_, (roundBits_le p m).trans hpow⟩
  omega

/-- A number of a higher exponent is above every midpoint of this one. -/
theorem not_below_of_lt_exponent (hp : 0 < p) (hk : Neighbour p e k) (h : e < exponent p m) :
    ¬ Below e k m ∧ (k + 1) * 2 ^ e ≤ roundBits p m := by
  have hpow : (k + 1) * 2 ^ e ≤ 2 ^ (p - 1 + exponent p m) := by
    calc (k + 1) * 2 ^ e ≤ 2 ^ p * 2 ^ e := Nat.mul_le_mul_right _ hk.lt
      _ = 2 ^ (p + e) := (pow_add 2 p e).symm
      _ ≤ 2 ^ (p - 1 + exponent p m) := Nat.pow_le_pow_right Nat.zero_lt_two (by omega)
  have hm := le_of_exponent hp (Nat.zero_lt_of_lt h)
  have hpos := Nat.two_pow_pos e
  have hexpand : (2 * k + 1) * 2 ^ e + 2 ^ e = 2 * ((k + 1) * 2 ^ e) := by ring
  refine ⟨?_, hpow.trans (le_roundBits hp (Nat.zero_lt_of_lt h))⟩
  unfold Below
  omega

/-- A midpoint separates what is rounded to its sides. -/
theorem roundBits_sides (hp : 0 < p) (hk : Neighbour p e k) :
    (Below e k m → roundBits p m ≤ k * 2 ^ e) ∧
      (¬ Below e k m → (k + 1) * 2 ^ e ≤ roundBits p m) := by
  rcases lt_trichotomy (exponent p m) e with h | h | h
  · obtain ⟨hbelow, hle⟩ := below_of_exponent_lt hk h
    exact ⟨fun _ => hle, fun hnot => absurd hbelow hnot⟩
  · subst h
    rw [← halfEven_le_iff, not_le]
    exact ⟨fun hle => Nat.mul_le_mul_right _ hle, fun hlt => Nat.mul_le_mul_right _ hlt⟩
  · obtain ⟨hnot, hle⟩ := not_below_of_lt_exponent hp hk h
    exact ⟨fun hbelow => absurd hbelow hnot, fun _ => hle⟩

theorem roundBits_le_iff (hp : 0 < p) (hk : Neighbour p e k) :
    roundBits p m ≤ k * 2 ^ e ↔ Below e k m := by
  obtain ⟨hbelow, habove⟩ := roundBits_sides (m := m) hp hk
  constructor
  · intro hle
    by_contra hnot
    have hlt : k * 2 ^ e < (k + 1) * 2 ^ e :=
      Nat.mul_lt_mul_of_pos_right (Nat.lt_succ_self k) (Nat.two_pow_pos e)
    have := habove hnot
    omega
  · exact hbelow

/-- A rounded number is the lower of two neighbours. -/
theorem exists_neighbour (hp : 0 < p) (m : ℕ) :
    ∃ e k, Neighbour p e k ∧ roundBits p m = k * 2 ^ e := by
  have hle : halfEven (exponent p m) m ≤ 2 ^ p := by
    have := roundBits_le p m
    rw [roundBits, pow_add] at this
    exact Nat.le_of_mul_le_mul_right this (Nat.two_pow_pos _)
  rcases hle.lt_or_eq with hlt | heq
  · refine ⟨exponent p m, halfEven (exponent p m) m, ⟨hlt, ?_⟩, rfl⟩
    rcases Nat.eq_zero_or_pos (exponent p m) with he | he
    · exact Or.inl he
    · have hge := le_roundBits hp he
      rw [roundBits, pow_add] at hge
      exact Or.inr (Nat.le_of_mul_le_mul_right hge (Nat.two_pow_pos _))
  · refine ⟨exponent p m + 1, 2 ^ (p - 1), ⟨?_, Or.inr le_rfl⟩, ?_⟩
    · exact Nat.pow_lt_pow_right Nat.one_lt_two (by omega)
    · rw [roundBits, heq, ← pow_add, ← pow_add]
      congr 1
      omega

end Midpoints

/-! ## Two numbers -/

/-- The midpoint of two neighbours is between `a` and `b`, or is one of them and rounded
to the other's far side. -/
def Separated (p a b : ℕ) : Prop :=
  ∃ e k, Neighbour p e k ∧ Below e k a ∧ ¬ Below e k b

theorem roundBits_lt_iff {p : ℕ} (hp : 0 < p) (a b : ℕ) :
    roundBits p a < roundBits p b ↔ Separated p a b := by
  constructor
  · intro hlt
    obtain ⟨e, k, hk, hround⟩ := exists_neighbour hp a
    refine ⟨e, k, hk, (roundBits_le_iff hp hk).mp hround.le, ?_⟩
    rw [← roundBits_le_iff hp hk]
    omega
  · intro hseparated
    obtain ⟨e, k, hk, ha, hb⟩ := hseparated
    rw [← roundBits_le_iff hp hk] at ha hb
    omega

theorem roundBits_mono {p : ℕ} (hp : 0 < p) {a b : ℕ} (h : a ≤ b) :
    roundBits p a ≤ roundBits p b := by
  obtain ⟨e, k, hk, hround⟩ := exists_neighbour hp b
  have hb := (roundBits_le_iff hp hk).mp hround.le
  rw [hround, roundBits_le_iff hp hk]
  unfold Below at *
  omega

/-- Rounding moves a number by at most half the spacing. -/
theorem roundBits_dist (p m : ℕ) :
    2 * m ≤ 2 * roundBits p m + 2 ^ exponent p m ∧
      2 * roundBits p m ≤ 2 * m + 2 ^ exponent p m := by
  unfold roundBits
  generalize exponent p m = e
  have hbelow := (halfEven_le_iff e (halfEven e m) m).mp le_rfl
  constructor
  · unfold Below at hbelow
    have hexpand : (2 * halfEven e m + 1) * 2 ^ e = 2 * (halfEven e m * 2 ^ e) + 2 ^ e := by ring
    omega
  · cases hk : halfEven e m with
    | zero => simp
    | succ k =>
      have habove : ¬ Below e k m := by
        rw [← halfEven_le_iff]
        omega
      have hexpand : 2 * ((k + 1) * 2 ^ e) = (2 * k + 1) * 2 ^ e + 2 ^ e := by ring
      unfold Below at habove
      omega

theorem exponent_mono (p : ℕ) {a b : ℕ} (h : a ≤ b) : exponent p a ≤ exponent p b := by
  have hlog : a.log2 ≤ b.log2 := by
    rcases Nat.eq_zero_or_pos a with ha | ha
    · simp [ha]
    · have hb : b ≠ 0 := by omega
      exact (Nat.le_log2 hb).mpr ((Nat.log2_self_le ha.ne').trans h)
  unfold exponent
  omega

/-- Numbers that are further apart than the spacing are kept apart. -/
theorem separated_of_spacing {p a b : ℕ} (hp : 0 < p) (h : a + 2 ^ exponent p b < b) :
    Separated p a b := by
  have hab : a ≤ b := (Nat.le_add_right a _).trans h.le
  have hpow : 2 ^ exponent p a ≤ 2 ^ exponent p b :=
    Nat.pow_le_pow_right Nat.zero_lt_two (exponent_mono p hab)
  have ha := (roundBits_dist p a).2
  have hb := (roundBits_dist p b).1
  rw [← roundBits_lt_iff hp]
  omega

/-- Below `2 ^ p` every number is exact. -/
theorem separated_of_lt {p a b : ℕ} (hab : a < b) (hb : b ≤ 2 ^ p) : Separated p a b := by
  refine ⟨0, a, ⟨by omega, Or.inl rfl⟩, ?_, ?_⟩
  · unfold Below
    omega
  · unfold Below
    omega

end SignificantBits
