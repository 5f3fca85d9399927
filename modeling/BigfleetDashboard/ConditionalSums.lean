import Mathlib.Algebra.BigOperators.Group.List.Basic
import Mathlib.Algebra.Order.BigOperators.Group.List

/-!
# Sums over the elements that satisfy a condition

The total weight of the elements of a list that satisfy a predicate: it grows
with the predicate when weights are nonnegative, and it splits into the fibres of
a key. An aggregation "sum by key" is the family of its fibre sums.
-/
namespace BigfleetDashboard

section Monoid
variable {α κ M : Type} [AddCommMonoid M]

def sumWhere (w : α → M) (p : α → Prop) [DecidablePred p] (xs : List α) : M :=
  ((xs.filter p).map w).sum

@[simp] theorem sumWhere_nil (w : α → M) (p : α → Prop) [DecidablePred p] :
    sumWhere w p [] = 0 := rfl

theorem sumWhere_cons (w : α → M) (p : α → Prop) [DecidablePred p] (x : α) (xs : List α) :
    sumWhere w p (x :: xs) = (if p x then w x else 0) + sumWhere w p xs := by
  unfold sumWhere
  by_cases h : p x <;> simp [h]

theorem sumWhere_congr {w : α → M} {p q : α → Prop} [DecidablePred p] [DecidablePred q]
    {xs : List α} (h : ∀ x ∈ xs, p x ↔ q x) : sumWhere w p xs = sumWhere w q xs := by
  have hfilter : xs.filter p = xs.filter q :=
    List.filter_congr (fun x hx => decide_eq_decide.mpr (h x hx))
  rw [sumWhere, sumWhere, hfilter]

/-- Nothing satisfies the condition. -/
theorem sumWhere_eq_zero {w : α → M} {p : α → Prop} [DecidablePred p] {xs : List α}
    (h : ∀ x ∈ xs, ¬ p x) : sumWhere w p xs = 0 := by
  have hnil : xs.filter p = [] := List.filter_eq_nil_iff.mpr (fun x hx => by simpa using h x hx)
  rw [sumWhere, hnil, List.map_nil, List.sum_nil]

/-- A key outside the list contributes nothing, a key inside it contributes once. -/
theorem sum_map_single [DecidableEq κ] (keys : List κ) (hn : keys.Nodup) (k : κ) (a : M) :
    (keys.map (fun x => if k = x then a else 0)).sum = if k ∈ keys then a else 0 := by
  induction keys with
  | nil => simp
  | cons x keys ih =>
    rw [List.nodup_cons] at hn
    rw [List.map_cons, List.sum_cons, ih hn.2]
    by_cases hk : k = x
    · subst hk
      simp [hn.1]
    · simp [hk]

/-- The fibres of a key over distinct keys sum up to the elements whose key is listed. -/
theorem sum_map_sumWhere [DecidableEq κ] (w : α → M) (p : α → Prop) [DecidablePred p]
    (key : α → κ) (keys : List κ) (hn : keys.Nodup) (xs : List α) :
    (keys.map (fun k => sumWhere w (fun x => p x ∧ key x = k) xs)).sum =
      sumWhere w (fun x => p x ∧ key x ∈ keys) xs := by
  induction xs with
  | nil => simp
  | cons x xs ih =>
    simp only [sumWhere_cons, List.sum_map_add, ih]
    congr 1
    by_cases hp : p x
    · simpa [hp] using sum_map_single keys hn (key x) (w x)
    · simp [hp]

end Monoid

section Ordered
variable {α M : Type} [AddCommMonoid M] [PartialOrder M] [IsOrderedAddMonoid M]

theorem sumWhere_nonneg {w : α → M} {p : α → Prop} [DecidablePred p] {xs : List α}
    (h : ∀ x ∈ xs, 0 ≤ w x) : 0 ≤ sumWhere w p xs := by
  apply List.sum_nonneg
  intro a ha
  obtain ⟨x, hx, rfl⟩ := List.mem_map.mp ha
  exact h x (List.mem_of_mem_filter hx)

theorem sumWhere_mono {w : α → M} {p q : α → Prop} [DecidablePred p] [DecidablePred q]
    {xs : List α} (hw : ∀ x ∈ xs, 0 ≤ w x) (h : ∀ x ∈ xs, p x → q x) :
    sumWhere w p xs ≤ sumWhere w q xs := by
  induction xs with
  | nil => simp
  | cons x xs ih =>
    rw [sumWhere_cons, sumWhere_cons]
    refine add_le_add ?_ (ih (fun y hy => hw y (List.mem_cons_of_mem _ hy))
      (fun y hy => h y (List.mem_cons_of_mem _ hy)))
    have hx := hw x (List.mem_cons_self ..)
    by_cases hp : p x
    · rw [if_pos hp, if_pos (h x (List.mem_cons_self ..) hp)]
    · rw [if_neg hp]
      split_ifs
      · exact hx
      · exact le_rfl

end Ordered
end BigfleetDashboard
