import BigfleetDashboard.StableSort
import Mathlib.Data.Set.Card

/-!
# The head of a sorted selection

Selecting from a list, sorting the selection and cutting it off after `k` elements,
described by the positions in the list. A sort that sees the elements through the
comparator only rearranges positions as it rearranges elements, so a list may hold
an element at several positions.
-/
namespace BigfleetDashboard.StableSort

variable {α : Type}

/-- The comparator is all the sort learns about the elements. -/
structure ObliviousSort extends ComparisonSort where
  sort_map : ∀ {α β : Type} (compare : α → α → ExtRat) (f : β → α) (xs : List β),
    sort compare (xs.map f) = (sort (fun a b => compare (f a) (f b)) xs).map f

def ObliviousSort.insertion : ObliviousSort where
  toComparisonSort := ComparisonSort.insertion
  sort_map compare f xs := insertionSort_map (before compare) f xs

/-! ## Positions -/

/-- Position `i` goes before position `j`: by its element, or by standing earlier on a tie. -/
def Ahead (less : α → α → Bool) (xs : List α) (i j : Fin xs.length) : Prop :=
  less (xs.get j) (xs.get i) = false ∧ (less (xs.get i) (xs.get j) = false → i < j)

/-- The positions in `order` are the first `k` of those where `p` holds. -/
structure IsHead (less : α → α → Bool) (p : α → Prop) (k : ℕ) (xs : List α)
    (order : List (Fin xs.length)) : Prop where
  distinct : order.Nodup
  length : order.length = min k {i | p (xs.get i)}.ncard
  eligible : ∀ i ∈ order, p (xs.get i)
  inOrder : order.Pairwise (Ahead less xs)
  first : ∀ i ∈ order, ∀ j ∉ order, p (xs.get j) → Ahead less xs i j

theorem not_sublist_swap {xs : List α} {a b : α} (hnodup : xs.Nodup) (hab : [a, b].Sublist xs) :
    ¬ [b, a].Sublist xs := by
  induction xs with
  | nil => cases hab
  | cons c xs ih =>
    obtain ⟨hc, hxs⟩ := List.nodup_cons.mp hnodup
    intro hba
    cases hab with
    | cons _ hab =>
      cases hba with
      | cons _ hba => exact ih hxs hab hba
      | cons_cons _ hba => exact hc (hab.subset (by simp))
    | cons_cons _ hb =>
      cases hba with
      | cons _ hba => exact hc (hba.subset (by simp))
      | cons_cons _ hba => exact hc (hb.subset (by simp))

/-- The positions where `p` holds. -/
def selected (p : α → Bool) (xs : List α) : List (Fin xs.length) :=
  (List.finRange xs.length).filter (fun i => p (xs.get i))

@[simp] theorem mem_selected (p : α → Bool) (xs : List α) (i : Fin xs.length) :
    i ∈ selected p xs ↔ p (xs.get i) = true := by
  simp [selected]

theorem selected_lt (p : α → Bool) (xs : List α) : (selected p xs).Pairwise (· < ·) :=
  (List.pairwise_lt_finRange _).filter _

theorem nodup_selected (p : α → Bool) (xs : List α) : (selected p xs).Nodup :=
  (List.nodup_finRange _).filter _

theorem map_get_selected (p : α → Bool) (xs : List α) :
    (selected p xs).map xs.get = xs.filter p := by
  have hfilter := (List.finRange xs.length).filter_map (f := xs.get) (p := p)
  rw [List.map_get_finRange] at hfilter
  exact hfilter.symm

theorem length_selected (p : α → Bool) (xs : List α) :
    (selected p xs).length = {i | p (xs.get i) = true}.ncard := by
  have hset : {i | p (xs.get i) = true} = ((selected p xs).toFinset : Set (Fin xs.length)) := by
    ext i
    simp
  rw [hset, Set.ncard_coe_finset, List.toFinset_card_of_nodup (nodup_selected p xs)]

theorem pair_sublist_selected {p : α → Bool} {xs : List α} {i j : Fin xs.length}
    (hi : i ∈ selected p xs) (hj : j ∈ selected p xs) (hij : i < j) :
    [i, j].Sublist (selected p xs) := by
  have hpair : [i, j].Pairwise (· < ·) := by simpa using hij
  have hsubset : [i, j] ⊆ selected p xs := by
    intro m hm
    cases hm with
    | head => exact hi
    | tail _ hm =>
      rw [List.mem_singleton.mp hm]
      exact hj
  have hnodup : [i, j].Nodup := hpair.imp ne_of_lt
  exact List.sublist_of_subperm_of_pairwise (hnodup.subperm hsubset) hpair (selected_lt p xs)

/-! ## Sorting a selection -/

/-- The selected positions, sorted by their elements. -/
def ObliviousSort.arrange (sorting : ObliviousSort) (compare : α → α → ExtRat) (p : α → Bool)
    (xs : List α) : List (Fin xs.length) :=
  sorting.sort (fun i j => compare (xs.get i) (xs.get j)) (selected p xs)

theorem ObliviousSort.arrange_perm (sorting : ObliviousSort) (compare : α → α → ExtRat)
    (p : α → Bool) (xs : List α) : (sorting.arrange compare p xs).Perm (selected p xs) :=
  sorting.perm _ _

theorem ObliviousSort.map_get_arrange (sorting : ObliviousSort) (compare : α → α → ExtRat)
    (p : α → Bool) (xs : List α) :
    (sorting.arrange compare p xs).map xs.get = sorting.sort compare (xs.filter p) := by
  rw [← map_get_selected, sorting.sort_map]
  rfl

theorem ObliviousSort.arrange_ahead (sorting : ObliviousSort) {compare : α → α → ExtRat}
    (h : IsWeakOrder (before compare)) (p : α → Bool) (xs : List α) :
    (sorting.arrange compare p xs).Pairwise (Ahead (before compare) xs) := by
  have hweak : IsWeakOrder (before (fun i j => compare (xs.get i) (xs.get j))) := h.comap xs.get
  have hperm := sorting.arrange_perm compare p xs
  have hnodup := hperm.nodup_iff.mpr (nodup_selected p xs)
  refine List.pairwise_iff_forall_sublist.mpr fun {i j} hij => ⟨?_, fun htie => ?_⟩
  · exact List.pairwise_iff_forall_sublist.mp (sorting.sorted _ _ hweak) hij
  · by_contra hlt
    have hne : i ≠ j := by simpa using hnodup.sublist hij
    have hi : i ∈ selected p xs := hperm.mem_iff.mp (hij.subset (by simp))
    have hj : j ∈ selected p xs := hperm.mem_iff.mp (hij.subset (by simp))
    -- A later position moved ahead of an earlier one on a tie.
    have hji := pair_sublist_selected hj hi (lt_of_le_of_ne (not_lt.mp hlt) hne.symm)
    exact not_sublist_swap hnodup hij (sorting.stable _ _ hweak j i htie hji)

theorem ObliviousSort.take_isHead (sorting : ObliviousSort) {compare : α → α → ExtRat}
    (h : IsWeakOrder (before compare)) (p : α → Bool) (k : ℕ) (xs : List α) :
    ∃ order : List (Fin xs.length),
      (sorting.sort compare (xs.filter p)).take k = order.map xs.get ∧
        IsHead (before compare) (fun a => p a = true) k xs order := by
  have hperm := sorting.arrange_perm compare p xs
  have hahead := sorting.arrange_ahead h p xs
  refine ⟨(sorting.arrange compare p xs).take k, ?_, ?_⟩
  · rw [List.map_take, sorting.map_get_arrange]
  · constructor
    case distinct => exact (hperm.nodup_iff.mpr (nodup_selected p xs)).sublist (List.take_sublist _ _)
    case length => rw [List.length_take, hperm.length_eq, length_selected]
    case eligible =>
      intro i hi
      exact (mem_selected p xs i).mp (hperm.mem_iff.mp (List.mem_of_mem_take hi))
    case inOrder => exact hahead.sublist (List.take_sublist _ _)
    case first =>
      intro i hi j hj hp
      have hmem := hperm.mem_iff.mpr ((mem_selected p xs j).mpr hp)
      rw [← List.take_append_drop k (sorting.arrange compare p xs)] at hmem hahead
      have hdrop := (List.mem_append.mp hmem).resolve_left hj
      exact (List.pairwise_append.mp hahead).2.2 i hi j hdrop

end BigfleetDashboard.StableSort
