import Mathlib.Algebra.BigOperators.Group.List.Basic
import Mathlib.Data.Rat.Defs
import Mathlib.Algebra.Order.Field.Rat

/-!
# Exact rationals with NaN and the two infinities

The value type of a measurement system whose finite arithmetic is taken to be
exact: the rational numbers together with the three non-finite values of a
binary floating-point format. Addition, division and comparison follow the
floating-point rules on the non-finite values; nothing is rounded. Negative
zero is identified with zero.
-/
namespace BigfleetDashboard

inductive ExtRat
  | fin (q : ℚ)
  | nan
  | posInf
  | negInf
  deriving DecidableEq, Repr

namespace ExtRat

instance : Zero ExtRat := ⟨fin 0⟩
instance : One ExtRat := ⟨fin 1⟩

theorem zero_def : (0 : ExtRat) = fin 0 := rfl
def isNaN : ExtRat → Bool
  | nan => true
  | _ => false

def isInf : ExtRat → Bool
  | posInf => true
  | negInf => true
  | _ => false

/-- The values a JSON number can carry. -/
def IsFinite (x : ExtRat) : Prop := ∃ q, x = fin q

theorem isFinite_iff (x : ExtRat) : x.IsFinite ↔ x.isNaN = false ∧ x.isInf = false := by
  cases x <;> simp [IsFinite, isNaN, isInf]

instance : DecidablePred IsFinite := fun x => decidable_of_iff _ (isFinite_iff x).symm

@[simp] theorem isFinite_fin (q : ℚ) : (fin q).IsFinite := ⟨q, rfl⟩
@[simp] theorem isFinite_zero : (0 : ExtRat).IsFinite := ⟨0, rfl⟩

theorem not_isFinite_iff (x : ExtRat) : ¬ x.IsFinite ↔ (x.isNaN || x.isInf) = true := by
  cases x <;> simp [IsFinite, isNaN, isInf]

/-- Infinities of opposite sign have no sum. -/
protected def add : ExtRat → ExtRat → ExtRat
  | fin a, fin b => fin (a + b)
  | nan, _ => nan
  | _, nan => nan
  | posInf, negInf => nan
  | negInf, posInf => nan
  | posInf, _ => posInf
  | _, posInf => posInf
  | negInf, _ => negInf
  | _, negInf => negInf

instance : Add ExtRat := ⟨ExtRat.add⟩

protected def neg : ExtRat → ExtRat
  | fin a => fin (-a)
  | nan => nan
  | posInf => negInf
  | negInf => posInf

instance : Neg ExtRat := ⟨ExtRat.neg⟩

/-- The difference of an infinity and itself is NaN. -/
instance : Sub ExtRat := ⟨fun x y => x + -y⟩

/-- The product of zero and an infinity is NaN. -/
protected def mul : ExtRat → ExtRat → ExtRat
  | fin a, fin b => fin (a * b)
  | nan, _ => nan
  | _, nan => nan
  | posInf, fin b => if b = 0 then nan else if 0 < b then posInf else negInf
  | negInf, fin b => if b = 0 then nan else if 0 < b then negInf else posInf
  | fin a, posInf => if a = 0 then nan else if 0 < a then posInf else negInf
  | fin a, negInf => if a = 0 then nan else if 0 < a then negInf else posInf
  | posInf, posInf => posInf
  | posInf, negInf => negInf
  | negInf, posInf => negInf
  | negInf, negInf => posInf

instance : Mul ExtRat := ⟨ExtRat.mul⟩

/-- Dividing by zero does not fail: it yields NaN or a signed infinity. -/
protected def div : ExtRat → ExtRat → ExtRat
  | fin a, fin b =>
    if b = 0 then (if a = 0 then nan else if 0 < a then posInf else negInf) else fin (a / b)
  | nan, _ => nan
  | _, nan => nan
  | posInf, fin b => if 0 ≤ b then posInf else negInf
  | negInf, fin b => if 0 ≤ b then negInf else posInf
  | fin _, _ => fin 0
  | _, _ => nan

instance : Div ExtRat := ⟨ExtRat.div⟩

/-- NaN is unordered: it is below nothing and above nothing. -/
protected def le : ExtRat → ExtRat → Prop
  | fin a, fin b => a ≤ b
  | nan, _ => False
  | _, nan => False
  | negInf, _ => True
  | _, posInf => True
  | _, _ => False

/-- NaN is unordered, so `lt` is not the negation of the reversed `le`. -/
protected def lt : ExtRat → ExtRat → Prop
  | fin a, fin b => a < b
  | nan, _ => False
  | _, nan => False
  | negInf, negInf => False
  | negInf, _ => True
  | posInf, _ => False
  | fin _, posInf => True
  | fin _, negInf => False

instance : LE ExtRat := ⟨ExtRat.le⟩
instance : LT ExtRat := ⟨ExtRat.lt⟩

instance : DecidableLE ExtRat := fun x y =>
  match x, y with
  | fin a, fin b => inferInstanceAs (Decidable (a ≤ b))
  | nan, _ => .isFalse id
  | fin _, nan | posInf, nan | negInf, nan => .isFalse id
  | negInf, fin _ | negInf, posInf | negInf, negInf => .isTrue trivial
  | fin _, posInf | posInf, posInf => .isTrue trivial
  | fin _, negInf | posInf, fin _ | posInf, negInf => .isFalse id

instance : DecidableLT ExtRat := fun x y =>
  match x, y with
  | fin a, fin b => inferInstanceAs (Decidable (a < b))
  | nan, _ => .isFalse id
  | fin _, nan | posInf, nan | negInf, nan => .isFalse id
  | negInf, negInf => .isFalse id
  | negInf, fin _ | negInf, posInf => .isTrue trivial
  | posInf, fin _ | posInf, posInf | posInf, negInf => .isFalse id
  | fin _, posInf => .isTrue trivial
  | fin _, negInf => .isFalse id

/-- The comparison is strict, NaN and infinities included. -/
instance : Std.Irrefl (fun x y : ExtRat => x < y) where
  irrefl x := by
    change ¬ ExtRat.lt x x
    cases x <;> simp [ExtRat.lt]

instance : IsTrans ExtRat (fun x y => x < y) where
  trans x y z hxy hyz := by
    change ExtRat.lt x z
    change ExtRat.lt x y at hxy
    change ExtRat.lt y z at hyz
    cases x <;> cases y <;> cases z <;> simp only [ExtRat.lt] at *
    exact hxy.trans hyz

@[simp] theorem fin_add_fin (a b : ℚ) : fin a + fin b = fin (a + b) := rfl
@[simp] theorem fin_le_fin (a b : ℚ) : fin a ≤ fin b ↔ a ≤ b := Iff.rfl
@[simp] theorem fin_sub_fin (a b : ℚ) : fin a - fin b = fin (a - b) :=
  congrArg fin (sub_eq_add_neg a b).symm
@[simp] theorem fin_mul_fin (a b : ℚ) : fin a * fin b = fin (a * b) := rfl
@[simp] theorem fin_lt_fin (a b : ℚ) : fin a < fin b ↔ a < b := Iff.rfl
theorem fin_div_fin (a : ℚ) {b : ℚ} (hb : b ≠ 0) : fin a / fin b = fin (a / b) := if_neg hb

theorem IsFinite.add {x y : ExtRat} (hx : x.IsFinite) (hy : y.IsFinite) : (x + y).IsFinite := by
  obtain ⟨a, rfl⟩ := hx
  obtain ⟨b, rfl⟩ := hy
  exact ⟨a + b, rfl⟩

/-- A quotient of finite values is finite as soon as the divisor is not zero. -/
theorem IsFinite.div {x y : ExtRat} (hx : x.IsFinite) (hy : y.IsFinite) (h : y ≠ 0) :
    (x / y).IsFinite := by
  obtain ⟨a, rfl⟩ := hx
  obtain ⟨b, rfl⟩ := hy
  exact ⟨a / b, fin_div_fin a (fun hb => h (by rw [hb, zero_def]))⟩

/-- The accumulator loop `total += v`. -/
def total (xs : List ExtRat) : ExtRat := xs.foldl (· + ·) 0

theorem foldl_add_fin (qs : List ℚ) (q : ℚ) :
    (qs.map fin).foldl (· + ·) (fin q) = fin (q + qs.sum) := by
  induction qs generalizing q with
  | nil => simp
  | cons a qs ih => rw [List.map_cons, List.foldl_cons, fin_add_fin, ih, List.sum_cons, add_assoc]

theorem total_fin (qs : List ℚ) : total (qs.map fin) = fin qs.sum := by
  rw [total, zero_def, foldl_add_fin, zero_add]

/-- A list of finite values is the image of a list of rationals. -/
theorem exists_map_fin {xs : List ExtRat} (h : ∀ x ∈ xs, x.IsFinite) :
    ∃ qs : List ℚ, xs = qs.map fin := by
  induction xs with
  | nil => exact ⟨[], rfl⟩
  | cons x xs ih =>
    obtain ⟨q, rfl⟩ := h x (List.mem_cons_self ..)
    obtain ⟨qs, rfl⟩ := ih (fun y hy => h y (List.mem_cons_of_mem _ hy))
    exact ⟨q :: qs, rfl⟩

theorem isFinite_total {xs : List ExtRat} (h : ∀ x ∈ xs, x.IsFinite) : (total xs).IsFinite := by
  obtain ⟨qs, rfl⟩ := exists_map_fin h
  exact ⟨qs.sum, total_fin qs⟩

end ExtRat
end BigfleetDashboard
