import Mathlib.Order.Defs.LinearOrder
import Mathlib.Order.Lattice

/-!
# A running maximum that remembers where it was found

A loop keeps the largest score so far with the name of its element, and replaces both
only for a larger score. What it ends with is the first element of the largest score.
-/
namespace FirstMaximum

variable {α κ ν : Type} [LinearOrder ν] (score : α → ν) (name : α → κ)

/-- The loop body. -/
def keepLarger (best : ν × κ) (x : α) : ν × κ :=
  if best.1 < score x then (score x, name x) else best

/-- The loop changes nothing, or ends with the first largest element. -/
theorem foldl_keepLarger (best : ν × κ) (xs : List α) :
    (xs.foldl (keepLarger score name) best = best ∧ ∀ x ∈ xs, score x ≤ best.1) ∨
    ∃ pre x post, xs = pre ++ x :: post ∧
      xs.foldl (keepLarger score name) best = (score x, name x) ∧ best.1 < score x ∧
      (∀ y ∈ pre, score y < score x) ∧ ∀ y ∈ post, score y ≤ score x := by
  induction xs generalizing best with
  | nil => exact Or.inl ⟨rfl, by simp⟩
  | cons x xs ih =>
    rw [List.foldl_cons, List.forall_mem_cons]
    by_cases hx : best.1 < score x
    · have hstep : keepLarger score name best x = (score x, name x) := if_pos hx
      rw [hstep]
      refine Or.inr ?_
      rcases ih (score x, name x) with ⟨hkept, hle⟩ | ⟨pre, y, post, hxs, hkept, hlt, hpre, hpost⟩
      · exact ⟨[], x, xs, rfl, hkept, hx, by simp, hle⟩
      · refine ⟨x :: pre, y, post, by rw [hxs]; rfl, hkept, hx.trans hlt, ?_, hpost⟩
        exact List.forall_mem_cons.mpr ⟨hlt, hpre⟩
    · have hstep : keepLarger score name best x = best := if_neg hx
      rw [hstep]
      rcases ih best with ⟨hkept, hle⟩ | ⟨pre, y, post, hxs, hkept, hlt, hpre, hpost⟩
      · exact Or.inl ⟨hkept, not_lt.mp hx, hle⟩
      · refine Or.inr ⟨x :: pre, y, post, by rw [hxs]; rfl, hkept, hlt, ?_, hpost⟩
        exact List.forall_mem_cons.mpr ⟨(not_lt.mp hx).trans_lt hlt, hpre⟩

/-- No score is above what the loop ends with. -/
theorem le_foldl_keepLarger (best : ν × κ) (xs : List α) :
    ∀ x ∈ xs, score x ≤ (xs.foldl (keepLarger score name) best).1 := by
  intro x hx
  rcases foldl_keepLarger score name best xs with
    ⟨hkept, hle⟩ | ⟨pre, y, post, hxs, hkept, -, hpre, hpost⟩
  · rw [hkept]
    exact hle x hx
  · rw [hkept]
    rw [hxs] at hx
    rcases List.mem_append.mp hx with h | h
    · exact (hpre x h).le
    · rcases List.mem_cons.mp h with rfl | h
      · exact le_rfl
      · exact hpost x h

end FirstMaximum
