import Mathlib.Algebra.BigOperators.Group.List.Basic
import Mathlib.Data.List.Induction
import Mathlib.Data.List.Nodup
import Mathlib.Tactic.Abel

/-!
# Insertion-ordered maps with distinct keys

A map is its list of entries in order of first insertion, stored with the proof
that no key occurs twice. Assigning a present key replaces its value in place,
assigning a new key appends it. A script language's `Map` iterates in exactly
this order; a language that leaves the iteration order open is modelled by
permuting `entries` before a loop reads them.
-/
namespace BigfleetDashboard

structure OrderedMap (κ ν : Type) where
  entries : List (κ × ν)
  nodup : (entries.map Prod.fst).Nodup
  deriving DecidableEq

namespace OrderedMap
variable {κ ν β : Type} [DecidableEq κ]

/-- Replace the value stored under `k`, or append a new entry. -/
def put (k : κ) (v : ν) : List (κ × ν) → List (κ × ν)
  | [] => [(k, v)]
  | e :: es => if e.1 = k then (k, v) :: es else e :: put k v es

theorem mem_map_fst_put (k x : κ) (v : ν) (es : List (κ × ν)) :
    x ∈ (put k v es).map Prod.fst ↔ x = k ∨ x ∈ es.map Prod.fst := by
  induction es with
  | nil => simp [put]
  | cons e es ih =>
    simp only [put]
    split_ifs with h
    · simp [← h]
    · simp only [List.map_cons, List.mem_cons, ih]
      tauto

theorem nodup_put (k : κ) (v : ν) (es : List (κ × ν)) (h : (es.map Prod.fst).Nodup) :
    ((put k v es).map Prod.fst).Nodup := by
  induction es with
  | nil => simp [put]
  | cons e es ih =>
    rw [List.map_cons, List.nodup_cons] at h
    simp only [put]
    split_ifs with he
    · simpa [← he] using h
    · rw [List.map_cons, List.nodup_cons, mem_map_fst_put]
      exact ⟨fun hm => hm.elim he h.1, ih h.2⟩

def empty : OrderedMap κ ν := ⟨[], List.nodup_nil⟩

def keys (m : OrderedMap κ ν) : List κ := m.entries.map Prod.fst
def values (m : OrderedMap κ ν) : List ν := m.entries.map Prod.snd

def get? (m : OrderedMap κ ν) (k : κ) : Option ν :=
  (m.entries.find? (fun e => e.1 = k)).map Prod.snd

/-- Reading a missing key yields the default, as for the zero value of a value type. -/
def getD (m : OrderedMap κ ν) (k : κ) (d : ν) : ν := (m.get? k).getD d

def set (m : OrderedMap κ ν) (k : κ) (v : ν) : OrderedMap κ ν :=
  ⟨put k v m.entries, nodup_put k v m.entries m.nodup⟩

@[simp] theorem get?_empty (k : κ) : (empty : OrderedMap κ ν).get? k = none := rfl

section
omit [DecidableEq κ]

@[simp] theorem keys_empty : (empty : OrderedMap κ ν).keys = [] := rfl
@[simp] theorem values_empty : (empty : OrderedMap κ ν).values = [] := rfl
theorem keys_nodup (m : OrderedMap κ ν) : m.keys.Nodup := m.nodup

end

theorem get?_eq_some_iff (m : OrderedMap κ ν) (k : κ) (v : ν) :
    m.get? k = some v ↔ (k, v) ∈ m.entries := by
  rcases m with ⟨es, hn⟩
  simp only [get?]
  induction es with
  | nil => simp
  | cons e es ih =>
    rw [List.map_cons, List.nodup_cons] at hn
    rw [List.find?_cons]
    by_cases he : e.1 = k
    · subst k
      have hmem : ∀ w, (e.1, w) ∉ es := fun w hw => hn.1 (List.mem_map.mpr ⟨_, hw, rfl⟩)
      simp [hmem v, Prod.ext_iff, eq_comm]
    · have hne : (k, v) ≠ e := fun h => he (by rw [← h])
      simpa [he, hne] using ih hn.2

/-- A key has at most one entry. -/
theorem filter_entries_key (m : OrderedMap κ ν) (k : κ) :
    m.entries.filter (fun e => e.1 = k) = (m.get? k).toList.map (fun v => (k, v)) := by
  rcases m with ⟨es, hn⟩
  simp only [get?]
  induction es with
  | nil => simp
  | cons e es ih =>
    rw [List.map_cons, List.nodup_cons] at hn
    by_cases he : e.1 = k
    · have hrest : es.filter (fun x => x.1 = k) = [] := by
        apply List.filter_eq_nil_iff.mpr
        intro x hx
        have hne : x.1 ≠ k := fun h => hn.1 (List.mem_map.mpr ⟨x, hx, h.trans he.symm⟩)
        simpa using hne
      have hpair : e = (k, e.2) := Prod.ext he rfl
      simp [he, hrest, ← hpair]
    · simpa [he] using ih hn.2

theorem mem_keys_iff (m : OrderedMap κ ν) (k : κ) : k ∈ m.keys ↔ (m.get? k).isSome := by
  simp only [keys, List.mem_map, Option.isSome_iff_exists, get?_eq_some_iff]
  constructor
  · rintro ⟨e, he, rfl⟩
    exact ⟨e.2, he⟩
  · rintro ⟨v, hv⟩
    exact ⟨(k, v), hv, rfl⟩

theorem get?_eq_none_iff (m : OrderedMap κ ν) (k : κ) : m.get? k = none ↔ k ∉ m.keys := by
  rw [mem_keys_iff, Bool.not_eq_true, Option.isSome_eq_false_iff, Option.isNone_iff_eq_none]

theorem mem_values_iff (m : OrderedMap κ ν) (v : ν) :
    v ∈ m.values ↔ ∃ k, m.get? k = some v := by
  simp only [values, List.mem_map, get?_eq_some_iff]
  constructor
  · rintro ⟨e, he, rfl⟩
    exact ⟨e.1, he⟩
  · rintro ⟨k, hk⟩
    exact ⟨(k, v), hk, rfl⟩

@[simp] theorem get?_set_self (m : OrderedMap κ ν) (k : κ) (v : ν) :
    (m.set k v).get? k = some v := by
  rcases m with ⟨es, hn⟩
  simp only [get?, set]
  clear hn
  induction es with
  | nil => simp [put]
  | cons e es ih =>
    simp only [put]
    split_ifs with he
    · simp
    · simpa [he] using ih

theorem get?_set_of_ne (m : OrderedMap κ ν) {k x : κ} (v : ν) (h : x ≠ k) :
    (m.set k v).get? x = m.get? x := by
  rcases m with ⟨es, hn⟩
  simp only [get?, set]
  clear hn
  induction es with
  | nil => simp [put, Ne.symm h]
  | cons e es ih =>
    simp only [put]
    split_ifs with he
    · simp [he, Ne.symm h]
    · by_cases hx : e.1 = x
      · simp [hx]
      · simpa [hx] using ih

theorem getD_set_self (m : OrderedMap κ ν) (k : κ) (v d : ν) : (m.set k v).getD k d = v := by
  rw [getD, get?_set_self, Option.getD_some]

/-- What a lookup with a default reads is a value of the map or the default. -/
theorem getD_mem (m : OrderedMap κ ν) (k : κ) (d : ν) : m.getD k d ∈ m.values ∨ m.getD k d = d := by
  unfold getD
  cases h : m.get? k with
  | none => exact Or.inr rfl
  | some v => exact Or.inl ((mem_values_iff m v).mpr ⟨k, h⟩)

theorem get?_set (m : OrderedMap κ ν) (k x : κ) (v : ν) :
    (m.set k v).get? x = if x = k then some v else m.get? x := by
  split_ifs with h
  · subst h
    exact get?_set_self m x v
  · exact get?_set_of_ne m v h

theorem mem_keys_set (m : OrderedMap κ ν) (k x : κ) (v : ν) :
    x ∈ (m.set k v).keys ↔ x = k ∨ x ∈ m.keys :=
  mem_map_fst_put k x v m.entries

/-- A value in the updated map is the one just stored or was there before. -/
theorem mem_values_set {m : OrderedMap κ ν} {k : κ} {v w : ν}
    (h : w ∈ (m.set k v).values) : w = v ∨ w ∈ m.values := by
  obtain ⟨x, hx⟩ := (mem_values_iff _ _).mp h
  rw [get?_set] at hx
  split_ifs at hx with hk
  · exact Or.inl (Option.some.inj hx).symm
  · exact Or.inr ((mem_values_iff _ _).mpr ⟨x, hx⟩)

/-- Storing `v` under `k` puts it in the place of what stood there. -/
theorem values_set_split (m : OrderedMap κ ν) (k : κ) (v : ν) :
    ∃ before after, m.values = before ++ (m.get? k).toList ++ after ∧
      (m.set k v).values = before ++ v :: after := by
  rcases m with ⟨es, hn⟩
  simp only [values, set, get?]
  clear hn
  induction es with
  | nil => exact ⟨[], [], rfl, rfl⟩
  | cons e es ih =>
    rw [put]
    by_cases he : e.1 = k
    · rw [if_pos he, List.find?_cons_of_pos (by simpa using he)]
      exact ⟨[], es.map Prod.snd, rfl, rfl⟩
    · obtain ⟨before, after, hold, hnew⟩ := ih
      rw [if_neg he, List.find?_cons_of_neg (by simpa using he)]
      refine ⟨e.2 :: before, after, ?_, ?_⟩
      · rw [List.map_cons, hold, List.cons_append, List.cons_append]
      · rw [List.map_cons, hnew, List.cons_append]

/-! ## Sums over the values -/

/-- Storing `v` under `k` changes a total over the values by `f v` less what stood there. -/
theorem sum_map_values_set {μ : Type} [AddCommMonoid μ] (f : ν → μ) (m : OrderedMap κ ν) (k : κ)
    (v : ν) : ((m.set k v).values.map f).sum + ((m.get? k).map f).getD 0 =
      (m.values.map f).sum + f v := by
  obtain ⟨before, after, hold, hnew⟩ := values_set_split m k v
  have hplace : ((m.get? k).toList.map f).sum = ((m.get? k).map f).getD 0 := by
    cases m.get? k with
    | none => rfl
    | some w => exact List.sum_singleton
  rw [hold, hnew]
  simp only [List.map_append, List.map_cons, List.sum_append, List.sum_cons, hplace]
  abel

/-- Storing `v` under `k` changes the total by `v` less what stood there. -/
theorem sum_values_set [AddCommMonoid ν] (m : OrderedMap κ ν) (k : κ) (v : ν) :
    (m.set k v).values.sum + m.getD k 0 = m.values.sum + v := by
  have hsum := sum_map_values_set id m k v
  simpa [getD] using hsum

theorem mem_map_entries_iff {μ : Type} (f : ν → μ) (m : OrderedMap κ ν) (k : κ) (y : μ) :
    (k, y) ∈ m.entries.map (fun e => (e.1, f e.2)) ↔ (m.get? k).map f = some y := by
  simp only [List.mem_map, Option.map_eq_some_iff, get?_eq_some_iff]
  constructor
  · intro h
    obtain ⟨e, he, hpair⟩ := h
    obtain ⟨rfl, rfl⟩ := Prod.mk.inj hpair
    exact ⟨e.2, he, rfl⟩
  · intro h
    obtain ⟨v, hv, rfl⟩ := h
    exact ⟨(k, v), hv, rfl⟩

/-- Two maps that agree under every key, up to `f`, hold the same values up to `f`. -/
theorem map_values_perm {μ : Type} {f : ν → μ} {m m' : OrderedMap κ ν}
    (h : ∀ k, (m.get? k).map f = (m'.get? k).map f) : (m.values.map f).Perm (m'.values.map f) := by
  have hnodup : ∀ m : OrderedMap κ ν, (m.entries.map (fun e => (e.1, f e.2))).Nodup := by
    intro m
    apply List.Nodup.of_map Prod.fst
    rw [List.map_map]
    exact m.nodup
  have hperm : (m.entries.map (fun e => (e.1, f e.2))).Perm
      (m'.entries.map (fun e => (e.1, f e.2))) := by
    rw [List.perm_ext_iff_of_nodup (hnodup m) (hnodup m')]
    intro e
    rw [mem_map_entries_iff, mem_map_entries_iff, h]
  have hvalues := hperm.map Prod.snd
  rw [List.map_map, List.map_map] at hvalues
  rw [values, values, List.map_map, List.map_map]
  exact hvalues

/-! ## Storing a list under its keys -/

/-- One step of a loop that stores each element under its key; an element without
a key is skipped. -/
def store (key : β → Option κ) (val : β → ν) (m : OrderedMap κ ν) (x : β) : OrderedMap κ ν :=
  match key x with
  | none => m
  | some k => m.set k (val x)

theorem store_of_none {key : β → Option κ} {x : β} (h : key x = none) (val : β → ν)
    (m : OrderedMap κ ν) : m.store key val x = m := by
  simp only [store, h]

/-- After the loop a key holds the last element stored under it. -/
theorem get?_foldl_store (key : β → Option κ) (val : β → ν) (m : OrderedMap κ ν) (xs : List β)
    (k : κ) : (xs.foldl (store key val) m).get? k =
      (((xs.filter (fun x => key x = some k)).getLast?).map val).or (m.get? k) := by
  induction xs using List.reverseRecOn with
  | nil => simp
  | append_singleton xs x ih =>
    rw [List.foldl_append, List.filter_append]
    change ((xs.foldl (store key val) m).store key val x).get? k = _
    by_cases hx : key x = some k
    · simp [store, hx]
    · have hnone : (if key x = some k then [x] else []) = [] := if_neg hx
      have hkeep : ((xs.foldl (store key val) m).store key val x).get? k =
          (xs.foldl (store key val) m).get? k := by
        unfold store
        cases hk : key x with
        | none => rfl
        | some y => exact get?_set_of_ne _ _ (fun h => hx (by rw [hk, h]))
      rw [hkeep, ih]
      simp [hx]

theorem mem_values_foldl_store {key : β → Option κ} {val : β → ν} {m : OrderedMap κ ν}
    {xs : List β} {w : ν} (h : w ∈ (xs.foldl (store key val) m).values) :
    w ∈ m.values ∨ ∃ x ∈ xs, (key x).isSome ∧ w = val x := by
  obtain ⟨k, hk⟩ := (mem_values_iff _ _).mp h
  rw [get?_foldl_store, Option.or_eq_some_iff] at hk
  rcases hk with hk | ⟨-, hk⟩
  · obtain ⟨x, hx, hval⟩ := Option.map_eq_some_iff.mp hk
    have hmem := List.mem_filter.mp (List.mem_of_getLast? hx)
    have hkey : key x = some k := by simpa using hmem.2
    exact Or.inr ⟨x, hmem.1, by rw [hkey]; rfl, hval.symm⟩
  · exact Or.inl ((mem_values_iff _ _).mpr ⟨k, hk⟩)

/-! ## Grouping a list by a key -/

/-- Append `x` to the group of `k`, opening the group when it is new. -/
def push (m : OrderedMap κ (List β)) (k : κ) (x : β) : OrderedMap κ (List β) :=
  m.set k (m.getD k [] ++ [x])

def groupBy (f : β → κ) (xs : List β) : OrderedMap κ (List β) :=
  xs.foldl (fun m x => m.push (f x) x) empty

theorem getD_push (m : OrderedMap κ (List β)) (k y : κ) (x : β) :
    (m.push k x).getD y [] = if y = k then m.getD k [] ++ [x] else m.getD y [] := by
  simp only [push, getD, get?_set]
  split_ifs <;> rfl

theorem mem_keys_push (m : OrderedMap κ (List β)) (k y : κ) (x : β) :
    y ∈ (m.push k x).keys ↔ y = k ∨ y ∈ m.keys := mem_keys_set m k y _

theorem getD_foldl_push (f : β → κ) (xs : List β) (m : OrderedMap κ (List β)) (k : κ) :
    (xs.foldl (fun m x => m.push (f x) x) m).getD k [] =
      m.getD k [] ++ xs.filter (fun x => f x = k) := by
  induction xs generalizing m with
  | nil => simp
  | cons x xs ih =>
    rw [List.foldl_cons, ih, getD_push]
    by_cases h : f x = k
    · simp [h]
    · simp [h, Ne.symm h]

theorem mem_keys_foldl_push (f : β → κ) (xs : List β) (m : OrderedMap κ (List β)) (k : κ) :
    k ∈ (xs.foldl (fun m x => m.push (f x) x) m).keys ↔ k ∈ m.keys ∨ ∃ x ∈ xs, f x = k := by
  induction xs generalizing m with
  | nil => simp
  | cons x xs ih =>
    rw [List.foldl_cons, ih, mem_keys_push]
    simp only [List.mem_cons, exists_eq_or_imp]
    constructor
    · rintro ((rfl | h) | h)
      · exact Or.inr (Or.inl rfl)
      · exact Or.inl h
      · exact Or.inr (Or.inr h)
    · rintro (h | rfl | h)
      · exact Or.inl (Or.inr h)
      · exact Or.inl (Or.inl rfl)
      · exact Or.inr h

theorem mem_keys_groupBy (f : β → κ) (xs : List β) (k : κ) :
    k ∈ (groupBy f xs).keys ↔ ∃ x ∈ xs, f x = k := by
  simpa [groupBy] using mem_keys_foldl_push f xs empty k

/-- A group holds the elements of its key, in list order. -/
theorem mem_entries_groupBy (f : β → κ) (xs : List β) (k : κ) (g : List β) :
    (k, g) ∈ (groupBy f xs).entries ↔ (∃ x ∈ xs, f x = k) ∧ g = xs.filter (fun x => f x = k) := by
  have hget := getD_foldl_push f xs empty k
  have hempty : (empty : OrderedMap κ (List β)).getD k [] = [] := rfl
  rw [hempty, List.nil_append] at hget
  change (groupBy f xs).getD k [] = _ at hget
  rw [← get?_eq_some_iff, ← mem_keys_groupBy f xs k, mem_keys_iff]
  simp only [getD] at hget
  cases h : (groupBy f xs).get? k with
  | none => simp
  | some g' =>
    rw [h, Option.getD_some] at hget
    simp [hget, eq_comm]

/-- Pushing adds one element to the groups taken together. -/
theorem flatten_values_push (m : OrderedMap κ (List β)) (k : κ) (x : β) :
    (m.push k x).values.flatten.Perm (x :: m.values.flatten) := by
  obtain ⟨before, after, hold, hnew⟩ := values_set_split m k (m.getD k [] ++ [x])
  have hplace : (m.get? k).toList.flatten = m.getD k [] := by
    unfold getD
    cases m.get? k with
    | none => rfl
    | some g => exact List.append_nil g
  rw [push, hnew, hold]
  simp only [List.flatten_append, List.flatten_cons, hplace, List.append_assoc,
    List.singleton_append]
  rw [← List.append_assoc, ← List.append_assoc]
  exact List.perm_middle

/-- Grouping loses and duplicates nothing. -/
theorem flatten_values_groupBy (f : β → κ) (xs : List β) :
    (groupBy f xs).values.flatten.Perm xs := by
  induction xs using List.reverseRecOn with
  | nil => simp [groupBy]
  | append_singleton xs x ih =>
    have hstep : groupBy f (xs ++ [x]) = (groupBy f xs).push (f x) x := by
      simp [groupBy]
    rw [hstep]
    have hpush := flatten_values_push (groupBy f xs) (f x) x
    exact hpush.trans ((ih.cons x).trans (List.perm_append_singleton x xs).symm)

end OrderedMap
end BigfleetDashboard
