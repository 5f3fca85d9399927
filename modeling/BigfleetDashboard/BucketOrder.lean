import BigfleetDashboard.FinOpsAxes
import BigfleetDashboard.MixedOrder

/-!
# The order of the penalty buckets

The axis of buckets is sorted by a comparison of labels: numbers by value, other
texts as texts, the pinned bucket last. On some sets of labels that comparison is
no order, and then the axis depends on the order in which a map is visited.
-/
namespace BigfleetDashboard.FinOps
open Go StableSort MixedOrder

/-- The comparison orders the labels of a set: strictly and up to nothing, numbers by
value, the pinned bucket last, and the axis does not depend on any unspecified choice. -/
structure BucketOrder (rt : LocalRuntime) (set : NameSet) : Prop where
  weak : IsWeakOrder (fun a b : {l // l ∈ set.keys} => bucketLess rt.toRuntime a b)
  pinned : ∀ l ∈ set.keys, l ≠ "pinned" → "pinned" ∈ set.keys →
    bucketLess rt.toRuntime l "pinned" = true
  numeric : ∀ a ∈ set.keys, ∀ b ∈ set.keys, a ≠ "pinned" → b ≠ "pinned" →
    ∀ x y, rt.parseFloat a = some x → rt.parseFloat b = some y →
      (bucketLess rt.toRuntime a b = true ↔ x < y)
  ties : ∀ a ∈ set.keys, ∀ b ∈ set.keys, bucketLess rt.toRuntime a b = false →
    bucketLess rt.toRuntime b a = false → a = b
  presented : ∀ (rt' : LocalRuntime) (set' : NameSet), rt'.parseFloat = rt.parseFloat →
    set'.keys.Perm set.keys → orderBuckets rt'.toRuntime set' = orderBuckets rt.toRuntime set

/-- Distinct numbers among the labels have different values, none is a NaN beside
another, and no text lies between two numbers that are the other way round. -/
def LabelsSeparated (rt : Runtime) (set : NameSet) : Prop :=
  Separated (fun x y : ExtRat => x < y) rt.parseFloat {l | l ∈ set.keys ∧ l ≠ "pinned"}

/-! ## The comparison -/

section Compare
variable (rt : Runtime) {a b c : String}

theorem bucketLess_pinned_left (b : String) : bucketLess rt "pinned" b = false := by
  simp [bucketLess]

theorem bucketLess_pinned_right (ha : a ≠ "pinned") : bucketLess rt a "pinned" = true := by
  simp [bucketLess, ha]

/-- Away from the pinned bucket the comparison is by value where there is one. -/
theorem bucketLess_iff (ha : a ≠ "pinned") (hb : b ≠ "pinned") :
    bucketLess rt a b = true ↔ MixedLt (fun x y : ExtRat => x < y) rt.parseFloat a b := by
  by_cases hab : a = b
  · subst hab
    have hirrefl : ¬ MixedLt (fun x y : ExtRat => x < y) rt.parseFloat a a := mixedLt_irrefl a
    simp [bucketLess, hirrefl]
  · simp only [bucketLess, hab, ha, hb, if_false, MixedLt]
    cases rt.parseFloat a <;> cases rt.parseFloat b <;> exact decide_eq_true_iff

theorem bucketLess_self (a : String) : bucketLess rt a a = false := by
  simp [bucketLess]

/-- The comparison reads the labels and their values, nothing else. -/
theorem bucketLess_congr {rt' : Runtime} (h : rt'.parseFloat = rt.parseFloat) :
    bucketLess rt' = bucketLess rt := by
  ext a b
  simp only [bucketLess, h]

end Compare

section Separated
variable {rt : LocalRuntime} {set : NameSet} {a b c : String}

theorem LabelsSeparated.trans (h : LabelsSeparated rt.toRuntime set) (ha : a ∈ set.keys)
    (hb : b ∈ set.keys) (hc : c ∈ set.keys) (hab : bucketLess rt.toRuntime a b = true)
    (hbc : bucketLess rt.toRuntime b c = true) : bucketLess rt.toRuntime a c = true := by
  have hpa : a ≠ "pinned" := by
    intro heq
    rw [heq, bucketLess_pinned_left] at hab
    cases hab
  have hpb : b ≠ "pinned" := by
    intro heq
    rw [heq, bucketLess_pinned_left] at hbc
    cases hbc
  by_cases hpc : c = "pinned"
  · rw [hpc]
    exact bucketLess_pinned_right _ hpa
  · rw [bucketLess_iff _ hpa hpb] at hab
    rw [bucketLess_iff _ hpb hpc] at hbc
    rw [bucketLess_iff _ hpa hpc]
    exact Separated.trans h ⟨ha, hpa⟩ ⟨hb, hpb⟩ ⟨hc, hpc⟩ hab hbc

/-- Labels that tie are equal. -/
theorem LabelsSeparated.ties (h : LabelsSeparated rt.toRuntime set) (ha : a ∈ set.keys)
    (hb : b ∈ set.keys) (hab : bucketLess rt.toRuntime a b = false)
    (hba : bucketLess rt.toRuntime b a = false) : a = b := by
  by_contra hne
  by_cases hpa : a = "pinned"
  · rw [hpa, bucketLess_pinned_right _ (fun heq => hne (hpa.trans heq.symm))] at hba
    cases hba
  by_cases hpb : b = "pinned"
  · rw [hpb, bucketLess_pinned_right _ hpa] at hab
    cases hab
  have htotal := Separated.total h (show a ∈ _ from ⟨ha, hpa⟩) (show b ∈ _ from ⟨hb, hpb⟩) hne
  rw [← bucketLess_iff _ hpa hpb, ← bucketLess_iff _ hpb hpa, hab, hba] at htotal
  simp at htotal

theorem LabelsSeparated.weak (h : LabelsSeparated rt.toRuntime set) :
    IsWeakOrder (fun a b : {l // l ∈ set.keys} => bucketLess rt.toRuntime a b) where
  irrefl a := by simp [bucketLess_self]
  trans a b c := h.trans a.2 b.2 c.2
  incomp_trans a b c hab hbc := by
    simp only [Bool.not_eq_true] at hab hbc ⊢
    have heq : a = b := Subtype.ext (h.ties a.2 b.2 hab.1 hab.2)
    rw [heq]
    exact hbc

end Separated

/-! ## The axis -/

theorem orderBuckets_sorted {rt : LocalRuntime} {set : NameSet}
    (h : IsWeakOrder (fun a b : {l // l ∈ set.keys} => bucketLess rt.toRuntime a b)) :
    (orderBuckets rt.toRuntime set).Pairwise (fun a b => bucketLess rt.toRuntime b a = false) := by
  have hmem : ∀ l ∈ (rt.entries 7 set).map Prod.fst, l ∈ set.keys := fun l hl =>
    ((rt.mapOrder_perm 7 set.entries).map Prod.fst).mem_iff.mp hl
  exact rt.sortSlice_attach _ _
    (h.comap (fun l : {l // l ∈ (rt.entries 7 set).map Prod.fst} => ⟨l, hmem l l.2⟩))

/-- One set of labels has one axis, however it is presented and sorted. -/
theorem LabelsSeparated.presented {rt rt' : LocalRuntime} {set set' : NameSet}
    (h : LabelsSeparated rt.toRuntime set) (hparse : rt'.parseFloat = rt.parseFloat)
    (hkeys : set'.keys.Perm set.keys) :
    orderBuckets rt'.toRuntime set' = orderBuckets rt.toRuntime set := by
  have hless : bucketLess rt'.toRuntime = bucketLess rt.toRuntime := bucketLess_congr _ hparse
  have hweak' : IsWeakOrder (fun a b : {l // l ∈ set'.keys} => bucketLess rt'.toRuntime a b) := by
    rw [hless]
    exact h.weak.comap (fun l : {l // l ∈ set'.keys} => ⟨l, hkeys.mem_iff.mp l.2⟩)
  have hsorted' := orderBuckets_sorted hweak'
  rw [hless] at hsorted'
  have hperm' := (orderBuckets_perm rt'.toRuntime).trans hkeys
  refine sorted_unique (hperm'.trans (orderBuckets_perm rt.toRuntime).symm) hsorted'
    (orderBuckets_sorted h.weak) ?_
  intro a ha b hb hab hba
  exact h.ties (hperm'.mem_iff.mp ha) (hperm'.mem_iff.mp hb) hab hba

/-- The comparison orders a set of labels exactly when they are separated. -/
theorem bucketOrder_iff (rt : LocalRuntime) (set : NameSet) :
    BucketOrder rt set ↔ LabelsSeparated rt.toRuntime set := by
  constructor
  · intro h
    refine separated_iff.mpr ⟨?_, ?_⟩
    · intro a ha b hb c hc hab hbc
      rw [← bucketLess_iff rt.toRuntime ha.2 hb.2] at hab
      rw [← bucketLess_iff rt.toRuntime hb.2 hc.2] at hbc
      rw [← bucketLess_iff rt.toRuntime ha.2 hc.2]
      exact h.weak.trans ⟨a, ha.1⟩ ⟨b, hb.1⟩ ⟨c, hc.1⟩ hab hbc
    · intro a ha b hb hne
      rw [← bucketLess_iff rt.toRuntime ha.2 hb.2, ← bucketLess_iff rt.toRuntime hb.2 ha.2]
      by_contra hnone
      rw [not_or, Bool.not_eq_true, Bool.not_eq_true] at hnone
      exact hne (h.ties a ha.1 b hb.1 hnone.1 hnone.2)
  · intro h
    constructor
    case weak => exact h.weak
    case pinned => exact fun l _ hl _ => bucketLess_pinned_right _ hl
    case numeric =>
      intro a ha b hb hpa hpb x y hx hy
      rw [bucketLess_iff _ hpa hpb, mixedLt_of_some hx hy]
    case ties => exact fun a ha b hb => h.ties ha hb
    case presented => exact fun rt' set' => h.presented

/-- Reads whole numbers, and sorts as Go sorts short slices. -/
def wholeNumbers : LocalRuntime :=
  { LocalRuntime.plain with parseFloat := fun s => (atoi s).map (fun n => .fin n) }

/-- `9 < 10` as numbers, `10 < 1x` and `1x < 9` as texts. -/
def cyclicLabels : NameSet := markAll OrderedMap.empty ["9", "10", "1x"]

def cyclicLabelsReordered : NameSet := markAll OrderedMap.empty ["1x", "9", "10"]

/-- Three labels compare in a circle, and the axis follows the order of the map. -/
theorem bucketOrder_cyclic :
    (¬ ∀ (rt : LocalRuntime) (set : NameSet), rt.parseFloat "9" = some (.fin 9) →
      rt.parseFloat "10" = some (.fin 10) → rt.parseFloat "1x" = none → BucketOrder rt set) ∧
    orderBuckets wholeNumbers.toRuntime cyclicLabels = ["9", "10", "1x"] ∧
    orderBuckets wholeNumbers.toRuntime cyclicLabelsReordered = ["1x", "9", "10"] := by
  refine ⟨?_, by decide, by decide⟩
  intro h
  have horder := h wholeNumbers cyclicLabels (by decide) (by decide) (by decide)
  have hcycle := horder.weak.trans ⟨"9", by decide⟩ ⟨"10", by decide⟩ ⟨"1x", by decide⟩
    (by decide) (by decide)
  exact absurd hcycle (by decide)

end BigfleetDashboard.FinOps
