import Mathlib.Data.List.Basic

/-!
# Regular expressions matched by backtracking

A matcher tries the ways of an expression in order and takes the first after which the
rest of the expression matches. A greedy and a lazy repetition have the same ways in
opposite orders. A replacement rewrites the leftmost match of an expression.
-/
namespace BacktrackingRegex

variable {α β : Type}

/-- What is repeated is a class of characters. -/
inductive Regex (α : Type) where
  | endText
  | cls (p : α → Bool)
  | cat (a b : Regex α)
  | star (greedy : Bool) (p : α → Bool)
  | group (r : Regex α)

/-- One or more characters of a class. -/
def Regex.plus (greedy : Bool) (p : α → Bool) : Regex α := .cat (.cls p) (.star greedy p)

/-- What may be left of a text behind characters of a class, the fewest characters first. -/
def ways (p : α → Bool) : List α → List (List α)
  | [] => [[]]
  | c :: s => if p c then (c :: s) :: ways p s else [c :: s]

/-- A match at the begin of the text `s` after the groups `gs`, and what `k` makes of the
text and the groups behind it. -/
def Regex.run : Regex α → List α → List (List α) → (List α → List (List α) → Option β) → Option β
  | .endText, [], gs, k => k [] gs
  | .endText, _ :: _, _, _ => none
  | .cls _, [], _, _ => none
  | .cls p, c :: s, gs, k => if p c then k s gs else none
  | .cat a b, s, gs, k => a.run s gs (fun s gs => b.run s gs k)
  | .star greedy p, s, gs, k =>
    (if greedy then (ways p s).reverse else ways p s).findSome? (fun s => k s gs)
  | .group r, s, gs, k =>
    r.run s gs (fun rest gs => k rest (gs ++ [s.take (s.length - rest.length)]))

/-- The groups of a match at the begin of the text, and the text behind it. -/
def Regex.matchHere (r : Regex α) (s : List α) : Option (List (List α) × List α) :=
  r.run s [] (fun rest gs => some (gs, rest))

/-- Put `sub` in the place of the leftmost match. -/
def Regex.replace (r : Regex α) (sub : List (List α) → List α) : List α → List α
  | [] => (r.matchHere []).elim [] (fun m => sub m.1 ++ m.2)
  | c :: s => (r.matchHere (c :: s)).elim (c :: r.replace sub s) (fun m => sub m.1 ++ m.2)

/-! ## Repetitions up to the end of the text -/

theorem nil_mem_ways_iff (p : α → Bool) (s : List α) : [] ∈ ways p s ↔ s.all p = true := by
  induction s with
  | nil => simp [ways]
  | cons c s ih =>
    rw [ways, List.all_cons, Bool.and_eq_true, ← ih]
    split_ifs with hc
    · simp [hc]
    · simp [hc]

/-- Where only one element has a result, the order does not matter. -/
theorem findSome?_of_unique [DecidableEq α] {f : α → Option β} {a : α} {l : List α}
    (h : ∀ b ∈ l, b ≠ a → f b = none) : l.findSome? f = if a ∈ l then f a else none := by
  induction l with
  | nil => rfl
  | cons b l ih =>
    have hrest := ih (fun d hd => h d (List.mem_cons_of_mem b hd))
    rw [List.findSome?_cons]
    by_cases hb : b = a
    · subst hb
      cases hf : f b with
      | some r => simp
      | none => simp [hrest, hf]
    · rw [h b List.mem_cons_self hb]
      dsimp only
      rw [hrest, if_congr (List.mem_cons.trans (or_iff_right (Ne.symm hb))) rfl rfl]

theorem run_star_endText [DecidableEq α] (greedy : Bool) (p : α → Bool) (s : List α)
    (gs : List (List α)) (k : List α → List (List α) → Option β) :
    (Regex.cat (.star greedy p) .endText).run s gs k =
      if s.all p then k [] gs else none := by
  have hunique : ∀ rest : List α, rest ≠ [] → Regex.endText.run rest gs k = none := by
    intro rest hne
    cases rest with
    | nil => exact absurd rfl hne
    | cons c rest => rfl
  rw [Regex.run, Regex.run, findSome?_of_unique (fun rest _ => hunique rest)]
  cases greedy with
  | true => simp [nil_mem_ways_iff, Regex.run]
  | false => simp [nil_mem_ways_iff, Regex.run]

/-- One or more characters of a class, and the end of the text. -/
theorem run_plus_endText [DecidableEq α] (greedy : Bool) (p : α → Bool) (s : List α)
    (gs : List (List α)) (k : List α → List (List α) → Option β) :
    (Regex.cat (.plus greedy p) .endText).run s gs k =
      if s ≠ [] ∧ s.all p then k [] gs else none := by
  cases s with
  | nil => simp [Regex.run, Regex.plus]
  | cons c s =>
    have hrest := run_star_endText greedy p s gs k
    rw [Regex.run] at hrest
    rw [Regex.plus, Regex.run, Regex.run, Regex.run]
    by_cases hc : p c = true
    · simp [hc, hrest]
    · simp [hc]

end BacktrackingRegex
