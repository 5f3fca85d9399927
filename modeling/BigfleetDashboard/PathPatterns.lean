import Mathlib.Data.List.Nodup
import Mathlib.Data.List.Perm.Basic

/-!
# Routing by patterns of path segments

A pattern is a list of segments: a text, a wildcard that takes any one segment, or, at
its end, the slash below which every path belongs to it. A router keeps its patterns in a
tree and walks down it with the segments of a request: a text goes before a wildcard and a
wildcard before the rest. The walk finds the pattern that comes first of those that match,
so it does not depend on the order in which the patterns were registered.
-/
namespace BigfleetDashboard.PathPatterns

inductive Segment
  | literal (text : String)
  | wildcard (name : String)
  | rest
  deriving DecidableEq

abbrev Pattern := List Segment

/-- The segment of a path that ends in a slash. No wildcard takes it. -/
def slash : String := "/"

/-- The values of the wildcards, if the pattern matches the path. -/
def matchPath : Pattern → List String → Option (List String)
  | [], [] => some []
  | .literal text :: p, seg :: path => if text = seg then matchPath p path else none
  | .wildcard _ :: p, seg :: path =>
    if seg = slash then none else (matchPath p path).map (fun values => seg :: values)
  | [.rest], _ :: _ => some []
  | _, _ => none

@[simp] theorem matchPath_nil_cons (seg : String) (path : List String) :
    matchPath [] (seg :: path) = none := rfl

@[simp] theorem matchPath_cons_nil (s : Segment) (p : Pattern) : matchPath (s :: p) [] = none := by
  cases s with
  | literal text => rfl
  | wildcard name => rfl
  | rest => cases p <;> rfl

theorem matchPath_literal (text : String) (p : Pattern) (seg : String) (path : List String) :
    matchPath (.literal text :: p) (seg :: path) =
      if text = seg then matchPath p path else none := rfl

theorem matchPath_wildcard (name : String) (p : Pattern) (seg : String) (path : List String) :
    matchPath (.wildcard name :: p) (seg :: path) =
      if seg = slash then none else (matchPath p path).map (fun values => seg :: values) := rfl

theorem matchPath_rest (p : Pattern) (seg : String) (path : List String) :
    matchPath (.rest :: p) (seg :: path) = if p = [] then some [] else none := by
  cases p with
  | nil => rfl
  | cons s p => rfl

/-! ## The tree -/

section
variable {α : Type}

/-- The tree below a node: what is left of the patterns that lead to it. -/
abbrev Node (α : Type) := List (Pattern × α)

def Node.literalChild (node : Node α) (seg : String) : Node α :=
  node.filterMap (fun e =>
    match e.1 with
    | .literal text :: p => if text = seg then some (p, e.2) else none
    | _ => none)

def Node.wildcardChild (node : Node α) : Node α :=
  node.filterMap (fun e =>
    match e.1 with
    | .wildcard _ :: p => some (p, e.2)
    | _ => none)

/-- The target of the pattern that is at its end. -/
def Node.leaf (node : Node α) : Option α := (node.find? (fun e => e.1 = [])).map Prod.snd

def Node.multiChild (node : Node α) : Option α :=
  (node.find? (fun e => e.1 = [.rest])).map Prod.snd

/-- The walk down the tree, with the values of the wildcards it passed. -/
def Node.search : List String → Node α → Option (α × List String)
  | [], node => node.leaf.map (fun a => (a, []))
  | seg :: path, node =>
    (search path (node.literalChild seg)).or
      ((if seg = slash then none
        else (search path node.wildcardChild).map (fun found => (found.1, seg :: found.2))).or
        (node.multiChild.map (fun a => (a, []))))

theorem Node.mem_literalChild {node : Node α} {seg : String} {p : Pattern} {a : α} :
    (p, a) ∈ node.literalChild seg ↔ (.literal seg :: p, a) ∈ node := by
  rw [literalChild, List.mem_filterMap]
  constructor
  · intro h
    obtain ⟨⟨q, b⟩, hmem, hq⟩ := h
    dsimp only at hq
    split at hq
    · split_ifs at hq with htext
      rw [Option.some.injEq, Prod.mk.injEq] at hq
      rw [← htext, ← hq.1, ← hq.2]
      exact hmem
    · exact absurd hq (by simp)
  · intro h
    exact ⟨_, h, if_pos rfl⟩

theorem Node.mem_wildcardChild {node : Node α} {p : Pattern} {a : α} :
    (p, a) ∈ node.wildcardChild ↔ ∃ name, (.wildcard name :: p, a) ∈ node := by
  rw [wildcardChild, List.mem_filterMap]
  constructor
  · intro h
    obtain ⟨⟨q, b⟩, hmem, hq⟩ := h
    dsimp only at hq
    split at hq
    · rename_i name q'
      rw [Option.some.injEq, Prod.mk.injEq] at hq
      rw [← hq.1, ← hq.2]
      exact ⟨name, hmem⟩
    · exact absurd hq (by simp)
  · intro h
    obtain ⟨name, hmem⟩ := h
    exact ⟨_, hmem, rfl⟩

theorem find?_target_some {node : Node α} {q : Pattern} {a : α}
    (h : (node.find? (fun e => e.1 = q)).map Prod.snd = some a) : (q, a) ∈ node := by
  obtain ⟨⟨p, b⟩, hfind, hb⟩ := Option.map_eq_some_iff.mp h
  have hp : p = q := by simpa using List.find?_some hfind
  rw [← hp, ← show b = a from hb]
  exact List.mem_of_find?_eq_some hfind

theorem find?_target_none {node : Node α} {q : Pattern} {a : α}
    (h : (node.find? (fun e => e.1 = q)).map Prod.snd = none) : (q, a) ∉ node := by
  intro hmem
  rw [Option.map_eq_none_iff, List.find?_eq_none] at h
  exact h _ hmem (by simp)

/-! ## The order of patterns -/

/-- A pattern goes before another that matches the same path: where they first differ, a
text goes before a wildcard and either before the rest. -/
def precedes : Pattern → Pattern → Bool
  | [], [] => true
  | .literal _ :: p, .literal _ :: q => precedes p q
  | .literal _ :: _, .wildcard _ :: _ => true
  | .literal _ :: _, .rest :: _ => true
  | .wildcard _ :: p, .wildcard _ :: q => precedes p q
  | .wildcard _ :: _, .rest :: _ => true
  | .rest :: p, .rest :: q => precedes p q
  | _, _ => false

/-- A segment without the name of its wildcard. -/
def Segment.shape : Segment → Segment
  | .wildcard _ => .wildcard ""
  | s => s

/-- What decides which paths a pattern matches. -/
def shape (p : Pattern) : Pattern := p.map Segment.shape

/-- Patterns that match one path and go before each other have one shape. -/
theorem shape_eq_of_precedes {p q : Pattern} {path : List String}
    (hp : (matchPath p path).isSome) (hq : (matchPath q path).isSome)
    (hpq : precedes p q = true) (hqp : precedes q p = true) : shape p = shape q := by
  induction path generalizing p q with
  | nil =>
    cases p with
    | nil =>
      cases q with
      | nil => rfl
      | cons s q => simp at hq
    | cons s p => simp at hp
  | cons seg path ih =>
    cases p with
    | nil => simp at hp
    | cons s p =>
      cases q with
      | nil => simp at hq
      | cons t q =>
        cases s with
        | literal text =>
          cases t with
          | literal text' =>
            rw [matchPath_literal] at hp hq
            split_ifs at hp hq with h h'
            · have htail := ih hp hq hpq hqp
              simp only [shape, List.map_cons, Segment.shape] at htail ⊢
              rw [h, h', htail]
            all_goals simp at hp hq
          | wildcard name => simp [precedes] at hqp
          | rest => simp [precedes] at hqp
        | wildcard name =>
          cases t with
          | literal text => simp [precedes] at hpq
          | wildcard name' =>
            rw [matchPath_wildcard] at hp hq
            split_ifs at hp hq with h
            · simp at hp
            · rw [Option.isSome_map] at hp hq
              have htail := ih hp hq hpq hqp
              simp only [shape, List.map_cons, Segment.shape] at htail ⊢
              rw [htail]
          | rest => simp [precedes] at hqp
        | rest =>
          cases t with
          | literal text => simp [precedes] at hpq
          | wildcard name => simp [precedes] at hpq
          | rest =>
            rw [matchPath_rest] at hp hq
            split_ifs at hp hq with h h'
            · rw [h, h']
            all_goals simp at hp hq

/-! ## The walk finds the first pattern that matches -/

/-- A walk that finds nothing passed no pattern that matches. -/
theorem Node.search_none {node : Node α} {path : List String} (h : node.search path = none) :
    ∀ e ∈ node, matchPath e.1 path = none := by
  induction path generalizing node with
  | nil =>
    intro e he
    obtain ⟨p, b⟩ := e
    rw [search, Option.map_eq_none_iff] at h
    cases p with
    | nil => exact absurd he (find?_target_none h)
    | cons s p => exact matchPath_cons_nil s p
  | cons seg path ih =>
    intro e he
    obtain ⟨p, b⟩ := e
    rw [search, Option.or_eq_none_iff, Option.or_eq_none_iff] at h
    obtain ⟨hliteral, hwildcard, hmulti⟩ := h
    cases p with
    | nil => rfl
    | cons s p =>
      cases s with
      | literal text =>
        rw [matchPath_literal]
        split_ifs with htext
        · rw [htext] at he
          exact ih hliteral (p, b) (mem_literalChild.mpr he)
        · rfl
      | wildcard name =>
        rw [matchPath_wildcard]
        split_ifs at hwildcard ⊢ with hslash
        · rfl
        · rw [Option.map_eq_none_iff] at hwildcard ⊢
          exact ih hwildcard (p, b) (mem_wildcardChild.mpr ⟨name, he⟩)
      | rest =>
        rw [matchPath_rest]
        split_ifs with hp
        · rw [hp] at he
          rw [Option.map_eq_none_iff] at hmulti
          exact absurd he (find?_target_none hmulti)
        · rfl

/-- The pattern that a walk stops at matches, and goes before every other that does. -/
theorem Node.search_first {node : Node α} {path : List String} {a : α} {values : List String}
    (h : node.search path = some (a, values)) :
    ∃ p, (p, a) ∈ node ∧ matchPath p path = some values ∧
      ∀ e ∈ node, (matchPath e.1 path).isSome → precedes p e.1 = true := by
  induction path generalizing node values with
  | nil =>
    obtain ⟨b, hleaf, hb⟩ := Option.map_eq_some_iff.mp h
    rw [Prod.mk.injEq] at hb
    obtain ⟨rfl, rfl⟩ := hb
    refine ⟨[], find?_target_some hleaf, rfl, ?_⟩
    intro e _ hmatch
    obtain ⟨q, c⟩ := e
    cases q with
    | nil => rfl
    | cons s q => simp at hmatch
  | cons seg path ih =>
    rw [search, Option.or_eq_some_iff, Option.or_eq_some_iff] at h
    obtain hliteral | ⟨hnone, hwildcard | ⟨hnone', hmulti⟩⟩ := h
    · obtain ⟨p, hmem, hmatch, hfirst⟩ := ih hliteral
      refine ⟨.literal seg :: p, mem_literalChild.mp hmem, ?_, ?_⟩
      · rw [matchPath_literal, if_pos rfl, hmatch]
      · intro e he hmatch'
        obtain ⟨q, b⟩ := e
        cases q with
        | nil => simp at hmatch'
        | cons t q =>
          cases t with
          | literal text =>
            rw [matchPath_literal] at hmatch'
            split_ifs at hmatch' with htext
            · rw [htext] at he
              exact hfirst (q, b) (mem_literalChild.mpr he) hmatch'
            · simp at hmatch'
          | wildcard name => rfl
          | rest => rfl
    · split_ifs at hwildcard with hslash
      obtain ⟨⟨a', values'⟩, hsearch, hvalues⟩ := Option.map_eq_some_iff.mp hwildcard
      rw [Prod.mk.injEq] at hvalues
      obtain ⟨rfl, rfl⟩ := hvalues
      obtain ⟨p, hmem, hmatch, hfirst⟩ := ih hsearch
      obtain ⟨name, hname⟩ := mem_wildcardChild.mp hmem
      refine ⟨.wildcard name :: p, hname, ?_, ?_⟩
      · rw [matchPath_wildcard, if_neg hslash, hmatch]
        rfl
      · intro e he hmatch'
        obtain ⟨q, b⟩ := e
        cases q with
        | nil => simp at hmatch'
        | cons t q =>
          cases t with
          | literal text =>
            rw [matchPath_literal] at hmatch'
            split_ifs at hmatch' with htext
            · rw [htext] at he
              have hq := search_none hnone (q, b) (mem_literalChild.mpr he)
              rw [hq] at hmatch'
              simp at hmatch'
            · simp at hmatch'
          | wildcard name' =>
            rw [matchPath_wildcard, if_neg hslash, Option.isSome_map] at hmatch'
            exact hfirst (q, b) (mem_wildcardChild.mpr ⟨name', he⟩) hmatch'
          | rest => rfl
    · obtain ⟨b, hfind, hb⟩ := Option.map_eq_some_iff.mp hmulti
      rw [Prod.mk.injEq] at hb
      obtain ⟨rfl, rfl⟩ := hb
      refine ⟨[.rest], find?_target_some hfind, rfl, ?_⟩
      intro e he hmatch'
      obtain ⟨q, c⟩ := e
      cases q with
      | nil => simp at hmatch'
      | cons t q =>
        cases t with
        | literal text =>
          rw [matchPath_literal] at hmatch'
          split_ifs at hmatch' with htext
          · rw [htext] at he
            rw [search_none hnone (q, c) (mem_literalChild.mpr he)] at hmatch'
            simp at hmatch'
          · simp at hmatch'
        | wildcard name =>
          rw [matchPath_wildcard] at hmatch'
          split_ifs at hmatch' hnone' with hslash
          · simp at hmatch'
          · rw [Option.map_eq_none_iff] at hnone'
            rw [search_none hnone' (q, c) (mem_wildcardChild.mpr ⟨name, he⟩)] at hmatch'
            simp at hmatch'
        | rest =>
          rw [matchPath_rest] at hmatch'
          split_ifs at hmatch' with hq
          · rw [hq]
            rfl
          · simp at hmatch'

@[simp] theorem Node.search_empty (path : List String) :
    Node.search path ([] : Node α) = none := by
  cases hsearch : Node.search path ([] : Node α) with
  | none => rfl
  | some found =>
    obtain ⟨p, hmem, -⟩ := search_first hsearch
    exact absurd hmem List.not_mem_nil

/-- Below a slash every path is found. -/
theorem Node.search_rest (a : α) (seg : String) (path : List String) :
    Node.search (seg :: path) [([.rest], a)] = some (a, []) := by
  have hliteral : Node.literalChild [([.rest], a)] seg = [] := rfl
  have hwildcard : Node.wildcardChild [(([.rest] : Pattern), a)] = [] := rfl
  have hmulti : Node.multiChild [(([.rest] : Pattern), a)] = some a := rfl
  rw [search, hliteral, hwildcard, hmulti, search_empty]
  split_ifs <;> rfl

/-- The patterns of a node are told apart by the paths they match. -/
def Node.Distinct (node : Node α) : Prop := (node.map (fun e => shape e.1)).Nodup

theorem Node.Distinct.eq_of_shape {node : Node α} (hd : node.Distinct) {e e' : Pattern × α}
    (he : e ∈ node) (he' : e' ∈ node) (h : shape e.1 = shape e'.1) : e = e' :=
  List.inj_on_of_nodup_map hd he he' h

theorem Node.search_eq_some_iff {node : Node α} (hd : node.Distinct) {path : List String} {a : α}
    {values : List String} :
    node.search path = some (a, values) ↔
      ∃ p, (p, a) ∈ node ∧ matchPath p path = some values ∧
        ∀ e ∈ node, (matchPath e.1 path).isSome → precedes p e.1 = true := by
  constructor
  · exact search_first
  · intro h
    obtain ⟨p, hmem, hmatch, hfirst⟩ := h
    have hp : (matchPath p path).isSome := by rw [hmatch]; rfl
    cases hsearch : node.search path with
    | none =>
      rw [search_none hsearch _ hmem] at hmatch
      exact absurd hmatch (by simp)
    | some found =>
      obtain ⟨b, values'⟩ := found
      obtain ⟨q, hmem', hmatch', hfirst'⟩ := search_first hsearch
      have hq : (matchPath q path).isSome := by rw [hmatch']; rfl
      have hshape : shape p = shape q :=
        shape_eq_of_precedes hp hq (hfirst _ hmem' hq) (hfirst' _ hmem hp)
      have hsame := hd.eq_of_shape hmem hmem' hshape
      rw [Prod.mk.injEq] at hsame
      obtain ⟨rfl, rfl⟩ := hsame
      rw [hmatch, Option.some.injEq] at hmatch'
      rw [hmatch']

/-- Where a walk ends does not depend on the order of registration. -/
theorem Node.search_perm {node node' : Node α} (hd : node.Distinct) (h : node.Perm node')
    (path : List String) : node.search path = node'.search path := by
  have hd' : node'.Distinct := (h.map _).nodup_iff.mp hd
  ext ⟨a, values⟩
  rw [search_eq_some_iff hd, search_eq_some_iff hd']
  simp only [h.mem_iff]

/-! ## Patterns that keep out of each other's way -/

/-- Some path may match both patterns. -/
def overlap : Pattern → Pattern → Bool
  | [], [] => true
  | .rest :: _, _ :: _ => true
  | _ :: _, .rest :: _ => true
  | .literal text :: p, .literal text' :: q => text = text' && overlap p q
  | .literal _ :: p, .wildcard _ :: q => overlap p q
  | .wildcard _ :: p, .literal _ :: q => overlap p q
  | .wildcard _ :: p, .wildcard _ :: q => overlap p q
  | _, _ => false

/-- Behind a segment that is no rest the match goes on. -/
theorem matchPath_tail {s : Segment} {p : Pattern} {seg : String} {path : List String}
    (h : (matchPath (s :: p) (seg :: path)).isSome) (hs : s ≠ .rest) :
    (matchPath p path).isSome := by
  cases s with
  | literal text =>
    rw [matchPath_literal] at h
    split_ifs at h
    · exact h
    · simp at h
  | wildcard name =>
    rw [matchPath_wildcard] at h
    split_ifs at h
    · simp at h
    · rwa [Option.isSome_map] at h
  | rest => exact absurd rfl hs

theorem overlap_of_matches {p q : Pattern} {path : List String}
    (hp : (matchPath p path).isSome) (hq : (matchPath q path).isSome) : overlap p q = true := by
  induction path generalizing p q with
  | nil =>
    cases p with
    | nil =>
      cases q with
      | nil => rfl
      | cons t q => simp at hq
    | cons s p => simp at hp
  | cons seg path ih =>
    cases p with
    | nil => simp at hp
    | cons s p =>
      cases q with
      | nil => simp at hq
      | cons t q =>
        cases s with
        | literal text =>
          cases t with
          | literal text' =>
            have hsame : text = text' := by
              rw [matchPath_literal] at hp hq
              split_ifs at hp hq with h h'
              · rw [h, h']
              all_goals simp at hp hq
            have htail := ih (matchPath_tail hp (by simp)) (matchPath_tail hq (by simp))
            rw [overlap, htail, hsame]
            simp
          | wildcard name =>
            show overlap p q = true
            exact ih (matchPath_tail hp (by simp)) (matchPath_tail hq (by simp))
          | rest => rfl
        | wildcard name =>
          cases t with
          | literal text =>
            show overlap p q = true
            exact ih (matchPath_tail hp (by simp)) (matchPath_tail hq (by simp))
          | wildcard name' =>
            show overlap p q = true
            exact ih (matchPath_tail hp (by simp)) (matchPath_tail hq (by simp))
          | rest => rfl
        | rest => rfl

/-- No path matches two patterns of the node. -/
def Node.Apart (node : Node α) : Prop :=
  ∀ e ∈ node, ∀ e' ∈ node, overlap e.1 e'.1 = true → e = e'

/-- Then a walk finds whichever pattern matches. -/
theorem Node.Apart.search_eq_some_iff {node : Node α} (ha : node.Apart) {path : List String} {a : α}
    {values : List String} :
    node.search path = some (a, values) ↔
      ∃ p, (p, a) ∈ node ∧ matchPath p path = some values := by
  constructor
  · intro h
    obtain ⟨p, hmem, hmatch, -⟩ := search_first h
    exact ⟨p, hmem, hmatch⟩
  · intro h
    obtain ⟨p, hmem, hmatch⟩ := h
    cases hsearch : node.search path with
    | none =>
      rw [search_none hsearch _ hmem] at hmatch
      exact absurd hmatch (by simp)
    | some found =>
      obtain ⟨b, values'⟩ := found
      obtain ⟨q, hmem', hmatch', -⟩ := search_first hsearch
      have hsame := ha _ hmem _ hmem'
        (overlap_of_matches (by rw [hmatch]; rfl) (by rw [hmatch']; rfl))
      rw [Prod.mk.injEq] at hsame
      obtain ⟨rfl, rfl⟩ := hsame
      rw [hmatch, Option.some.injEq] at hmatch'
      rw [hmatch']

end

/-! ## Methods -/

/-- A registered pattern; without a method it is meant for all of them. -/
structure Route (α : Type) where
  method : Option String
  pattern : Pattern
  target : α

section
variable {α : Type}

/-- The tree of a method. -/
def methodTree (method : Option String) (routes : List (Route α)) : Node α :=
  routes.filterMap (fun r => if r.method = method then some (r.pattern, r.target) else none)

/-- Patterns for the method of the request go before those for any method. A request for
the head of an answer also reaches the patterns that get it. -/
def dispatch (routes : List (Route α)) (method : String) (path : List String) :
    Option (α × List String) :=
  ((methodTree (some method) routes).search path).or
    ((if method = "HEAD" then (methodTree (some "GET") routes).search path else none).or
      ((methodTree none routes).search path))

/-- A router refuses two patterns of one method that match the same paths. -/
def Registrable (routes : List (Route α)) : Prop :=
  ∀ method, (methodTree method routes).Distinct

theorem registrable_of_nodup {routes : List (Route α)}
    (h : (routes.map (fun r => shape r.pattern)).Nodup) : Registrable routes := by
  intro method
  have hsub : ∀ rs : List (Route α), ((methodTree method rs).map (fun e => shape e.1)).Sublist
      (rs.map (fun r => shape r.pattern)) := by
    intro rs
    induction rs with
    | nil => exact List.Sublist.refl _
    | cons r rs ih =>
      rw [methodTree, List.filterMap_cons]
      split_ifs with hmethod
      · exact ih.cons_cons _
      · exact ih.cons _
  exact h.sublist (hsub routes)

theorem dispatch_perm {routes routes' : List (Route α)} (hr : Registrable routes)
    (h : routes.Perm routes') (method : String) (path : List String) :
    dispatch routes method path = dispatch routes' method path := by
  have htree : ∀ m, (methodTree m routes).search path = (methodTree m routes').search path := by
    intro m
    exact Node.search_perm (hr m) (h.filterMap _) path
  rw [dispatch, dispatch, htree, htree, htree]

end

end BigfleetDashboard.PathPatterns
