import Mathlib.Data.List.Basic

/-!
# Regular expressions with anchors

A match takes a part of a text between what stands before and after it; the anchors
look at these. `Search` is what a library does that looks for a match anywhere, and
an expression anchored on both sides is searched by matching the whole text.
-/
namespace BigfleetDashboard.AnchoredRegex

variable {α : Type}

/-- The anchors match at the begin and the end of the text only, not at line breaks. -/
inductive Regex (α : Type) where
  | beginText
  | endText
  | cls (p : α → Bool)
  | cat (a b : Regex α)
  | rep (lo hi : ℕ) (r : Regex α)

/-- `k` matches in a row. -/
def Times (M : List α → List α → List α → Prop) : ℕ → List α → List α → List α → Prop
  | 0, _, mid, _ => mid = []
  | k + 1, pre, mid, post =>
    ∃ m₁ m₂, mid = m₁ ++ m₂ ∧ M pre m₁ (m₂ ++ post) ∧ Times M k (pre ++ m₁) m₂ post

/-- The expression matches `mid` between `pre` and `post`. -/
def Regex.Matches : Regex α → List α → List α → List α → Prop
  | .beginText, pre, mid, _ => pre = [] ∧ mid = []
  | .endText, _, mid, post => mid = [] ∧ post = []
  | .cls p, _, mid, _ => ∃ c, mid = [c] ∧ p c = true
  | .cat a b, pre, mid, post =>
    ∃ m₁ m₂, mid = m₁ ++ m₂ ∧ a.Matches pre m₁ (m₂ ++ post) ∧ b.Matches (pre ++ m₁) m₂ post
  | .rep lo hi r, pre, mid, post => ∃ k, lo ≤ k ∧ k ≤ hi ∧ Times r.Matches k pre mid post

/-- There is a match somewhere in the text. -/
def Regex.Search (r : Regex α) (s : List α) : Prop :=
  ∃ pre mid post, s = pre ++ mid ++ post ∧ r.Matches pre mid post

/-- An expression between the two anchors. -/
def Regex.anchored (r : Regex α) : Regex α := .cat .beginText (.cat r .endText)

theorem search_anchored_iff (r : Regex α) (s : List α) : r.anchored.Search s ↔ r.Matches [] s [] := by
  constructor
  · intro h
    obtain ⟨pre, mid, post, hs, m₁, m₂, hmid, ⟨rfl, rfl⟩, m₃, m₄, hm₂, hr, rfl, rfl⟩ := h
    simp only [List.nil_append, List.append_nil] at hmid hm₂ hr hs
    rw [hs, hmid, hm₂]
    exact hr
  · intro h
    refine ⟨[], s, [], by simp, [], s, rfl, ⟨rfl, rfl⟩, s, [], by simp, ?_, rfl, rfl⟩
    simpa using h

/-- Repeating a character class is a bound on the length. -/
theorem times_cls_iff (p : α → Bool) (k : ℕ) (pre mid post : List α) :
    Times (Regex.cls p).Matches k pre mid post ↔ mid.length = k ∧ ∀ c ∈ mid, p c = true := by
  induction k generalizing pre mid with
  | zero =>
    rw [Times, List.length_eq_zero_iff]
    constructor
    · intro h
      simp [h]
    · exact And.left
  | succ k ih =>
    rw [Times]
    constructor
    · intro h
      obtain ⟨m₁, m₂, rfl, ⟨c, rfl, hc⟩, hrest⟩ := h
      obtain ⟨hlength, hall⟩ := (ih _ _).mp hrest
      refine ⟨by simp [hlength], fun d hd => ?_⟩
      cases hd with
      | head => exact hc
      | tail _ hd => exact hall d hd
    · intro h
      obtain ⟨hlength, hall⟩ := h
      cases mid with
      | nil => simp at hlength
      | cons c mid =>
        refine ⟨[c], mid, rfl, ⟨c, rfl, hall c (by simp)⟩, (ih _ _).mpr ⟨?_, ?_⟩⟩
        · simpa using hlength
        · exact fun d hd => hall d (by simp [hd])

end BigfleetDashboard.AnchoredRegex
