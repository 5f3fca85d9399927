import Mathlib.Data.List.Basic

/-!
# Loops that may fail

A loop over a list whose body returns the next state or an error. The loop fails at the
first element whose body fails, and otherwise computes what the bodies compute.
-/
namespace FallibleLoops

variable {α β γ ε : Type}

/-- The state after the first element, if its body returns one. -/
theorem foldlM_cons_eq_ok_iff {f : β → α → Except ε β} {b r : β} {a : α} {l : List α} :
    (a :: l).foldlM f b = .ok r ↔ ∃ b', f b a = .ok b' ∧ l.foldlM f b' = .ok r := by
  rw [List.foldlM_cons]
  cases hfirst : f b a with
  | error e =>
    refine iff_of_false (fun h => ?_) (fun h => ?_)
    · cases h
    · obtain ⟨b', hb', -⟩ := h
      cases hb'
  | ok b' =>
    constructor
    · intro h
      exact ⟨b', rfl, h⟩
    · intro h
      obtain ⟨c, hc, hrest⟩ := h
      obtain rfl := Except.ok.inj hc
      exact hrest

/-- What every body keeps holds of the result. -/
theorem foldlM_preserves {f : β → α → Except ε β} {P : β → Prop}
    (hstep : ∀ b a b', f b a = .ok b' → P b → P b') {l : List α} {b r : β} (hb : P b)
    (h : l.foldlM f b = .ok r) : P r := by
  induction l generalizing b with
  | nil =>
    obtain rfl := Except.ok.inj h
    exact hb
  | cons a l ih =>
    obtain ⟨b', hfirst, hrest⟩ := foldlM_cons_eq_ok_iff.mp h
    exact ih (hstep b a b' hfirst hb) hrest

/-- A loop whose bodies return for certain elements, whatever the state. -/
theorem foldlM_returns_iff {f : β → α → Except ε β} {P : α → Prop}
    (hstep : ∀ b a, (∃ b', f b a = .ok b') ↔ P a) {l : List α} {b : β} :
    (∃ r, l.foldlM f b = .ok r) ↔ ∀ a ∈ l, P a := by
  induction l generalizing b with
  | nil => exact iff_of_true ⟨b, rfl⟩ (by simp)
  | cons a l ih =>
    simp only [foldlM_cons_eq_ok_iff, List.forall_mem_cons]
    constructor
    · intro h
      obtain ⟨r, b', hfirst, hrest⟩ := h
      exact ⟨(hstep b a).mp ⟨b', hfirst⟩, ih.mp ⟨r, hrest⟩⟩
    · intro h
      obtain ⟨b', hfirst⟩ := (hstep b a).mpr h.1
      obtain ⟨r, hrest⟩ := (ih (b := b')).mpr h.2
      exact ⟨r, b', hfirst, hrest⟩

/-- A loop that computes with other states than a pure one does, and fails with one error. -/
theorem foldlM_eq_ite {f : γ → α → Except ε γ} {g : β → α → β} {embed : β → γ} {I : β → Prop}
    {P : α → Prop} [DecidablePred P] {e : ε} {l : List α}
    (hstep : ∀ b, I b → ∀ a ∈ l,
      f (embed b) a = if P a then .error e else .ok (embed (g b a)))
    (hinv : ∀ b, I b → ∀ a ∈ l, I (g b a)) {b : β} (hb : I b) :
    l.foldlM f (embed b) =
      if ∃ a ∈ l, P a then .error e else .ok (embed (l.foldl g b)) := by
  induction l generalizing b with
  | nil =>
    rw [if_neg (by simp)]
    rfl
  | cons a l ih =>
    have hrest := ih (fun b hb d hd => hstep b hb d (List.mem_cons_of_mem a hd))
      (fun b hb d hd => hinv b hb d (List.mem_cons_of_mem a hd))
      (hinv b hb a List.mem_cons_self)
    rw [List.foldlM_cons, hstep b hb a List.mem_cons_self]
    by_cases hfails : P a
    · rw [if_pos hfails, if_pos ⟨a, List.mem_cons_self, hfails⟩]
      rfl
    · have hmore : (∃ d ∈ a :: l, P d) ↔ ∃ d ∈ l, P d := by
        rw [List.exists_mem_cons_iff]
        exact or_iff_right hfails
      rw [if_neg hfails, if_congr hmore rfl rfl]
      exact hrest

end FallibleLoops
