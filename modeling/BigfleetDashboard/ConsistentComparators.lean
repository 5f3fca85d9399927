import BigfleetDashboard.QueueHead

/-!
# Consistent comparators

A comparator answers with a number, of which a sort reads the sign; an answer that is no
number counts as a tie. It is consistent when swapping its arguments swaps the sign and
not being after is transitive, and only then is a sort bound to anything. Subtracting
extended numbers is consistent although the difference of two infinities is no number.
-/
namespace BigfleetDashboard.StableSort
open ExtRat

variable {α : Type}

/-- What a sort reads off the answer of a comparator. -/
def sign (x : ExtRat) : Int := if x < 0 then -1 else if 0 < x then 1 else 0

structure Consistent (compare : α → α → ExtRat) : Prop where
  antisymm : ∀ a b, sign (compare a b) = -sign (compare b a)
  trans : ∀ a b c, sign (compare a b) ≤ 0 → sign (compare b c) ≤ 0 → sign (compare a c) ≤ 0

theorem before_iff (compare : α → α → ExtRat) (a b : α) :
    before compare a b = true ↔ sign (compare a b) < 0 := by
  rw [before, decide_eq_true_iff, sign]
  split_ifs with hneg hpos
  · simp [hneg]
  · simp [hneg]
  · simp [hneg]

theorem Consistent.isWeakOrder {compare : α → α → ExtRat} (h : Consistent compare) :
    IsWeakOrder (before compare) where
  irrefl a := by
    have hself := h.antisymm a a
    rw [before_iff]
    omega
  trans a b c hab hbc := by
    rw [before_iff] at hab hbc ⊢
    have hac := h.trans a b c hab.le hbc.le
    have hcb := h.trans c a b
    have h1 := h.antisymm a c
    have h2 := h.antisymm b c
    omega
  incomp_trans a b c hab hbc := by
    simp only [before_iff] at hab hbc ⊢
    have h1 := h.antisymm a b
    have h2 := h.antisymm b c
    have h3 := h.antisymm a c
    have hac := h.trans a b c
    have hca := h.trans c b a
    omega

/-- Only the signs of the answers matter. -/
theorem Consistent.of_sign_eq {compare compare' : α → α → ExtRat} (h : Consistent compare)
    (hsign : ∀ a b, sign (compare' a b) = sign (compare a b)) : Consistent compare' where
  antisymm a b := by
    rw [hsign, hsign]
    exact h.antisymm a b
  trans a b c := by
    rw [hsign, hsign, hsign]
    exact h.trans a b c

/-! ## Differences of keys -/

section Keys
variable {x y z : ExtRat}

/-- The sign of a difference is the comparison, also where the difference is no number. -/
theorem sign_sub (hx : x.isNaN = false) (hy : y.isNaN = false) :
    sign (x - y) = if x < y then -1 else if y < x then 1 else 0 := by
  cases x with
  | nan => cases hx
  | fin a =>
    cases y with
    | nan => cases hy
    | fin b => simp only [fin_sub_fin, sign, zero_def, fin_lt_fin, sub_neg, sub_pos]
    | posInf => rfl
    | negInf => rfl
  | posInf =>
    cases y with
    | nan => cases hy
    | fin b => rfl
    | posInf => rfl
    | negInf => rfl
  | negInf =>
    cases y with
    | nan => cases hy
    | fin b => rfl
    | posInf => rfl
    | negInf => rfl

theorem le_iff_not_lt (hx : x.isNaN = false) (hy : y.isNaN = false) : x ≤ y ↔ ¬ y < x := by
  change ExtRat.le x y ↔ ¬ ExtRat.lt y x
  cases x <;> cases y <;> simp_all [ExtRat.le, ExtRat.lt, isNaN]

theorem le_trans_of_le (hxy : x ≤ y) (hyz : y ≤ z) : x ≤ z := by
  change ExtRat.le x z
  change ExtRat.le x y at hxy
  change ExtRat.le y z at hyz
  cases x <;> cases y <;> cases z <;> simp only [ExtRat.le] at *
  exact hxy.trans hyz

theorem extRat_lt_asymm (hxy : x < y) : ¬ y < x := by
  intro hyx
  exact Std.Irrefl.irrefl x (IsTrans.trans x y x hxy hyx)

end Keys

/-- Greatest keys first. -/
def byDescending (key : α → ExtRat) (a b : α) : ExtRat := key b - key a

section Descending
variable {key : α → ExtRat} (hkey : ∀ a, (key a).isNaN = false)
include hkey

theorem sign_byDescending (a b : α) :
    sign (byDescending key a b) = if key b < key a then -1 else if key a < key b then 1 else 0 :=
  sign_sub (hkey b) (hkey a)

theorem sign_byDescending_nonpos_iff (a b : α) :
    sign (byDescending key a b) ≤ 0 ↔ key b ≤ key a := by
  rw [sign_byDescending hkey, le_iff_not_lt (hkey b) (hkey a)]
  split_ifs with hba hab
  · simp [extRat_lt_asymm hba]
  · simp [hab]
  · simp [hab]

theorem byDescending_consistent : Consistent (byDescending key) where
  antisymm a b := by
    rw [sign_byDescending hkey, sign_byDescending hkey]
    split_ifs with hba hab
    · exact absurd hab (extRat_lt_asymm hba)
    · rfl
    · rfl
    · rfl
  trans a b c := by
    rw [sign_byDescending_nonpos_iff hkey, sign_byDescending_nonpos_iff hkey,
      sign_byDescending_nonpos_iff hkey]
    exact fun hba hcb => le_trans_of_le hcb hba

theorem before_byDescending (a b : α) :
    before (byDescending key) a b = decide (key b < key a) := by
  rw [Bool.eq_iff_iff, before_iff, sign_byDescending hkey, decide_eq_true_iff]
  split_ifs with hba
  · simp [hba]
  · simp [hba]
  · simp [hba]

end Descending

/-! ## Sorting by a key -/

/-- The elements of a list are arranged by falling keys, equal keys as they stood. Elements
are told apart by their positions. -/
def SortedStably (key : α → ExtRat) (xs ys : List α) : Prop :=
  ∃ order : List (Fin xs.length), order.Perm (List.finRange xs.length) ∧ ys = order.map xs.get ∧
    order.Pairwise (fun i j => key (xs.get j) ≤ key (xs.get i) ∧
      (key (xs.get i) = key (xs.get j) → i < j))

/-- A sort whose comparator has the signs of the differences sorts by the key. -/
theorem ObliviousSort.sortedStably (sorting : ObliviousSort) {key : α → ExtRat}
    (hkey : ∀ a, (key a).isNaN = false) {compare : α → α → ExtRat}
    (hsign : ∀ a b, sign (compare a b) = sign (byDescending key a b)) (xs : List α) :
    SortedStably key xs (sorting.sort compare xs) := by
  have hbefore : ∀ a b, before compare a b = decide (key b < key a) := by
    intro a b
    rw [← before_byDescending hkey, Bool.eq_iff_iff, before_iff, before_iff, hsign]
  have hall : selected (fun _ => true) xs = List.finRange xs.length := by
    simp [selected]
  have hahead := sorting.arrange_ahead
    ((byDescending_consistent hkey).of_sign_eq hsign).isWeakOrder (fun _ => true) xs
  refine ⟨sorting.arrange compare (fun _ => true) xs, ?_, ?_, ?_⟩
  · rw [← hall]
    exact sorting.arrange_perm _ _ xs
  · rw [sorting.map_get_arrange, List.filter_true]
  · refine hahead.imp ?_
    intro i j hij
    unfold Ahead at hij
    rw [hbefore, hbefore, decide_eq_false_iff_not, decide_eq_false_iff_not, ← le_iff_not_lt (hkey _) (hkey _)] at hij
    refine ⟨hij.1, ?_⟩
    intro heq
    apply hij.2
    rw [heq]
    exact fun hlt => extRat_lt_asymm hlt hlt

end BigfleetDashboard.StableSort
