import Mathlib.Order.Defs.Unbundled
import Mathlib.Order.Lattice
import Mathlib.Data.Set.Defs

/-!
# Comparing by value where there is one

Some keys of a linear order read as values. A comparison that uses the values of
two keys when both have one, and the keys themselves otherwise, need not be
transitive: a key without a value can lie between two keys whose values are the
other way round. On a set of keys it is a strict total order exactly when that
does not happen and distinct keys never have tied values.
-/
namespace BigfleetDashboard.MixedOrder

variable {α β : Type} [LinearOrder α] (lt : β → β → Prop) (value : α → Option β)

def MixedLt (a b : α) : Prop :=
  match value a, value b with
  | some x, some y => lt x y
  | _, _ => a < b

/-- Values of distinct keys are ordered, and a key without a value never separates
two keys against the order of their values. -/
structure Separated (S : Set α) : Prop where
  apart : ∀ a ∈ S, ∀ b ∈ S, a ≠ b → ∀ x y, value a = some x → value b = some y →
    lt x y ∨ lt y x
  aligned : ∀ a ∈ S, ∀ t ∈ S, ∀ b ∈ S, value t = none → a < t → t < b →
    ∀ x y, value a = some x → value b = some y → ¬ lt y x

variable {lt value}

theorem mixedLt_of_some {a b : α} {x y : β} (ha : value a = some x) (hb : value b = some y) :
    MixedLt lt value a b ↔ lt x y := by
  simp [MixedLt, ha, hb]

theorem mixedLt_of_none_left {a b : α} (ha : value a = none) : MixedLt lt value a b ↔ a < b := by
  simp [MixedLt, ha]

theorem mixedLt_of_none_right {a b : α} (hb : value b = none) : MixedLt lt value a b ↔ a < b := by
  cases ha : value a <;> simp [MixedLt, ha, hb]

theorem mixedLt_irrefl [Std.Irrefl lt] (a : α) : ¬ MixedLt lt value a a := by
  cases ha : value a with
  | none =>
    rw [mixedLt_of_none_left ha]
    exact lt_irrefl a
  | some x =>
    rw [mixedLt_of_some ha ha]
    exact irrefl x

variable {S : Set α}

omit [LinearOrder α] in
theorem ne_of_value {a b : α} {x : β} (ha : value a = none) (hb : value b = some x) : a ≠ b := by
  intro heq
  rw [heq, hb] at ha
  cases ha

/-- Distinct keys are ordered one way or the other. -/
theorem Separated.total (h : Separated lt value S) {a b : α} (ha : a ∈ S) (hb : b ∈ S)
    (hne : a ≠ b) : MixedLt lt value a b ∨ MixedLt lt value b a := by
  cases hva : value a with
  | none =>
    rw [mixedLt_of_none_left hva, mixedLt_of_none_right hva]
    exact lt_or_gt_of_ne hne
  | some x =>
    cases hvb : value b with
    | none =>
      rw [mixedLt_of_none_left hvb, mixedLt_of_none_right hvb]
      exact lt_or_gt_of_ne hne
    | some y =>
      rw [mixedLt_of_some hva hvb, mixedLt_of_some hvb hva]
      exact h.apart a ha b hb hne x y hva hvb

/-- Three keys in a row; the cases are which of them have a value. -/
theorem Separated.trans [IsTrans β lt] (h : Separated lt value S) {a b c : α} (ha : a ∈ S)
    (hb : b ∈ S) (hc : c ∈ S) (hab : MixedLt lt value a b) (hbc : MixedLt lt value b c) :
    MixedLt lt value a c := by
  cases hva : value a with
  | none =>
    rw [mixedLt_of_none_left hva] at hab ⊢
    cases hvb : value b with
    | none =>
      rw [mixedLt_of_none_left hvb] at hbc
      exact hab.trans hbc
    | some y =>
      cases hvc : value c with
      | none =>
        rw [mixedLt_of_none_right hvc] at hbc
        exact hab.trans hbc
      | some z =>
        -- the keys of `b` and `c` cannot enclose `a`
        rw [mixedLt_of_some hvb hvc] at hbc
        have hle : ¬ c < a := fun hca => h.aligned c hc a ha b hb hva hca hab z y hvc hvb hbc
        exact lt_of_le_of_ne (not_lt.mp hle) (ne_of_value hva hvc)
  | some x =>
    cases hvb : value b with
    | none =>
      rw [mixedLt_of_none_right hvb] at hab
      rw [mixedLt_of_none_left hvb] at hbc
      cases hvc : value c with
      | none =>
        rw [mixedLt_of_none_right hvc]
        exact hab.trans hbc
      | some z =>
        -- `b` lies between, so the values are not the other way round
        rw [mixedLt_of_some hva hvc]
        have hnot := h.aligned a ha b hb c hc hvb hab hbc x z hva hvc
        exact (h.apart a ha c hc (hab.trans hbc).ne x z hva hvc).resolve_right hnot
    | some y =>
      rw [mixedLt_of_some hva hvb] at hab
      cases hvc : value c with
      | none =>
        -- the keys of `b` and `a` cannot enclose `c`
        rw [mixedLt_of_none_right hvc] at hbc ⊢
        have hle : ¬ c < a := fun hca => h.aligned b hb c hc a ha hvc hbc hca y x hvb hva hab
        exact lt_of_le_of_ne (not_lt.mp hle) (ne_of_value hvc hva).symm
      | some z =>
        rw [mixedLt_of_some hvb hvc] at hbc
        rw [mixedLt_of_some hva hvc]
        exact IsTrans.trans x y z hab hbc

/-- The comparison orders the keys of a set strictly exactly when they are separated. -/
theorem separated_iff [Std.Irrefl lt] [IsTrans β lt] :
    Separated lt value S ↔
      (∀ a ∈ S, ∀ b ∈ S, ∀ c ∈ S, MixedLt lt value a b → MixedLt lt value b c →
        MixedLt lt value a c) ∧
      ∀ a ∈ S, ∀ b ∈ S, a ≠ b → MixedLt lt value a b ∨ MixedLt lt value b a := by
  constructor
  · intro h
    exact ⟨fun a ha b hb c hc => h.trans ha hb hc, fun a ha b hb => h.total ha hb⟩
  · intro h
    obtain ⟨htrans, htotal⟩ := h
    constructor
    case apart =>
      intro a ha b hb hne x y hva hvb
      have hcmp := htotal a ha b hb hne
      rw [mixedLt_of_some hva hvb, mixedLt_of_some hvb hva] at hcmp
      exact hcmp
    case aligned =>
      intro a ha t ht b hb hvt hat htb x y hva hvb hyx
      have hab : MixedLt lt value a b := htrans a ha t ht b hb
        ((mixedLt_of_none_right hvt).mpr hat) ((mixedLt_of_none_left hvt).mpr htb)
      rw [mixedLt_of_some hva hvb] at hab
      exact irrefl x (IsTrans.trans x y x hab hyx)

end BigfleetDashboard.MixedOrder
