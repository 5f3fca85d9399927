import BigfleetDashboard.ExtendedRat
import Mathlib.Data.List.Sort
import Mathlib.Order.Defs.Unbundled

/-!
# Stable sorting by a strict weak order

Insertion from the right end of the sorted prefix, as short slices are sorted in
practice: an element moves ahead of an earlier one only while it is less. The
result is a sorted permutation that keeps tied elements in their order, and a
sorted permutation is unique when no two elements tie. A script language leaves
its sorting algorithm open; `ComparisonSort` collects what every engine grants.
-/
namespace BigfleetDashboard.StableSort

variable {α : Type}

/-- `less` orders a type up to ties, and tying is transitive. -/
def IsWeakOrder (less : α → α → Bool) : Prop :=
  IsStrictWeakOrder α (fun a b => less a b = true)

theorem IsWeakOrder.asymm {less : α → α → Bool} (h : IsWeakOrder less) {a b : α}
    (hab : less a b = true) : less b a = false := by
  by_contra hba
  rw [Bool.not_eq_false] at hba
  exact h.irrefl a (h.trans a b a hab hba)

/-- The complement of a strict weak order is a total preorder. -/
theorem IsWeakOrder.not_less_trans {less : α → α → Bool} (h : IsWeakOrder less) {a b c : α}
    (hab : less a b = false) (hbc : less b c = false) : less a c = false := by
  by_contra hac
  rw [Bool.not_eq_false] at hac
  cases hba : less b a with
  | true => exact Bool.false_ne_true (hbc.symm.trans (h.trans b a c hba hac))
  | false =>
    cases hcb : less c b with
    | true => exact Bool.false_ne_true (hab.symm.trans (h.trans a c b hac hcb))
    | false =>
      have hinc := h.incomp_trans a b c (by simp [hab, hba]) (by simp [hbc, hcb])
      exact hinc.1 hac

theorem IsWeakOrder.total {less : α → α → Bool} (h : IsWeakOrder less) :
    Std.Total (fun x y => less x y = false) := by
  refine ⟨fun a b => ?_⟩
  cases hab : less a b with
  | false => exact Or.inl rfl
  | true => exact Or.inr (h.asymm hab)

theorem IsWeakOrder.isTrans {less : α → α → Bool} (h : IsWeakOrder less) :
    IsTrans α (fun x y => less x y = false) :=
  ⟨fun _ _ _ => h.not_less_trans⟩

/-- A weak order compares elements of another type by something they have. -/
theorem IsWeakOrder.comap {β : Type} {less : α → α → Bool} (h : IsWeakOrder less) (f : β → α) :
    IsWeakOrder (fun a b => less (f a) (f b)) where
  irrefl a := h.irrefl (f a)
  trans a b c := h.trans (f a) (f b) (f c)
  incomp_trans a b c := h.incomp_trans (f a) (f b) (f c)

/-- Insertion sort, moving an element left while it is less than its neighbour. -/
def insertionSort (less : α → α → Bool) (xs : List α) : List α :=
  (xs.reverse.insertionSort (fun x y => less x y = false)).reverse

theorem insertionSort_perm (less : α → α → Bool) (xs : List α) :
    (insertionSort less xs).Perm xs :=
  (List.reverse_perm _).trans ((List.perm_insertionSort _ _).trans (List.reverse_perm xs))

theorem insertionSort_sorted {less : α → α → Bool} (h : IsWeakOrder less) (xs : List α) :
    (insertionSort less xs).Pairwise (fun a b => less b a = false) := by
  have := h.total
  have := h.isTrans
  exact List.pairwise_reverse.mpr (List.pairwise_insertionSort _ _)

theorem insertionSort_stable (less : α → α → Bool) (xs : List α) {a b : α}
    (hba : less b a = false) (hs : [a, b].Sublist xs) :
    [a, b].Sublist (insertionSort less xs) := by
  let r : α → α → Prop := fun x y => less x y = false
  have hrev : [b, a].Sublist xs.reverse := List.reverse_sublist.mpr hs
  have hr : r b a := hba
  exact List.reverse_sublist.mpr (List.pair_sublist_insertionSort hr hrev)

theorem insertionSort_map {β : Type} (less : α → α → Bool) (f : β → α) (xs : List β) :
    insertionSort less (xs.map f) = (insertionSort (fun a b => less (f a) (f b)) xs).map f := by
  rw [insertionSort, insertionSort, List.map_reverse, ← List.map_reverse]
  exact congrArg List.reverse
    (List.map_insertionSort (fun x y => less (f x) (f y) = false) (fun x y => less x y = false) f
      xs.reverse (fun a _ b _ => Iff.rfl)).symm

/-- An order of the elements of a list is enough to sort it. -/
theorem insertionSort_sorted_attach {less : α → α → Bool} {xs : List α}
    (h : IsWeakOrder (fun a b : {x // x ∈ xs} => less a b)) :
    (insertionSort less xs).Pairwise (fun a b => less b a = false) := by
  have hsorted := insertionSort_sorted h xs.attach
  rw [← xs.attach_map_subtype_val, insertionSort_map]
  exact List.pairwise_map.mpr hsorted

/-- Two sorted arrangements of elements that never tie are the same list. -/
theorem sorted_unique {less : α → α → Bool} {xs ys : List α} (hp : xs.Perm ys)
    (hx : xs.Pairwise (fun a b => less b a = false))
    (hy : ys.Pairwise (fun a b => less b a = false))
    (hties : ∀ a ∈ xs, ∀ b ∈ xs, less a b = false → less b a = false → a = b) : xs = ys :=
  List.Perm.eq_of_pairwise
    (fun a b ha hb hba hab => hties a ha b (hp.mem_iff.mpr hb) hab hba) hx hy hp

/-! ## Sorting with a numeric comparator -/

/-- A comparator asks for `a` ahead of `b` by returning a negative number. A
non-numeric result counts as a tie. -/
def before (compare : α → α → ExtRat) (a b : α) : Bool := decide (compare a b < 0)

/-- A comparator that is -1 where `less` holds, and not negative elsewhere. -/
theorem before_ite {less : α → α → Bool} {otherwise : α → α → ExtRat}
    (h : ∀ a b, ¬ otherwise a b < 0) :
    before (fun a b => if less a b then .fin (-1) else otherwise a b) = less := by
  have hneg : (ExtRat.fin (-1)) < 0 := by decide
  ext a b
  show decide ((if less a b then .fin (-1) else otherwise a b) < 0) = less a b
  split_ifs with hless
  · simp [hless, hneg]
  · simp [hless, h a b]

/-- A comparison sort over numeric comparators. Whatever the comparator, it returns
the elements it was given. When "negative" is a strict weak order it sorts by it,
and moves an element ahead of an earlier one only if the comparator, asked about
the later and the earlier element, is negative. -/
structure ComparisonSort where
  sort : {α : Type} → (α → α → ExtRat) → List α → List α
  perm : ∀ {α : Type} (compare : α → α → ExtRat) (xs : List α), (sort compare xs).Perm xs
  sorted : ∀ {α : Type} (compare : α → α → ExtRat) (xs : List α), IsWeakOrder (before compare) →
    (sort compare xs).Pairwise (fun a b => before compare b a = false)
  stable : ∀ {α : Type} (compare : α → α → ExtRat) (xs : List α), IsWeakOrder (before compare) →
    ∀ a b : α, before compare b a = false → [a, b].Sublist xs → [a, b].Sublist (sort compare xs)

/-- The engines' algorithm on short arrays. -/
def ComparisonSort.insertion : ComparisonSort where
  sort compare xs := insertionSort (before compare) xs
  perm compare xs := insertionSort_perm (before compare) xs
  sorted _ xs h := insertionSort_sorted h xs
  stable compare xs _ _ _ hba hs := insertionSort_stable (before compare) xs hba hs

end BigfleetDashboard.StableSort
