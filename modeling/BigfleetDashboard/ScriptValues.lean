import BigfleetDashboard.OrderedMap
import BigfleetDashboard.StableSort
import Mathlib.Data.Rat.Defs
import Mathlib.Data.String.Basic

/-!
# Values of a script language, and the documents they are parsed from

A JSON document is a value without `undefined`. Reading a property of `undefined`
or `null` throws, and so does enumerating their entries; reading a property that
an object lacks yields `undefined`. A page is a computation over such values that
may throw, and throwing anywhere loses the whole page.
-/
namespace BigfleetDashboard.Script

inductive Value
  | undefined
  | null
  | bool (b : Bool)
  | num (q : ℚ)
  | str (s : String)
  | arr (xs : List Value)
  | obj (fields : List (String × Value))

/-! ## Reading values -/

/-- The length of a text in UTF-16 code units. -/
def utf16Length (s : String) : ℕ := (s.toList.map (fun c => if c.val < 65536 then 1 else 2)).sum

/-- `v.field`. -/
def Value.get (field : String) : Value → Except String Value
  | .undefined => .error ("Cannot read properties of undefined (reading '" ++ field ++ "')")
  | .null => .error ("Cannot read properties of null (reading '" ++ field ++ "')")
  | .obj fields =>
    .ok (((fields.find? (fun e => e.1 = field)).map Prod.snd).getD .undefined)
  | .arr xs => .ok (if field = "length" then .num xs.length else .undefined)
  | .str s =>
    .ok (if field = "length" then .num (utf16Length s) else .undefined)
  | .bool _ => .ok .undefined
  | .num _ => .ok .undefined

/-- Whether a condition holds of the value. -/
def Value.truthy : Value → Bool
  | .undefined => false
  | .null => false
  | .bool b => b
  | .num q => q ≠ 0
  | .str s => s ≠ ""
  | .arr _ => true
  | .obj _ => true

/-- `v > 0` for the values that occur as lengths and counts. -/
def Value.positive : Value → Bool
  | .num q => 0 < q
  | _ => false

/-- The elements of an array; the array methods of other values are not functions. -/
def Value.elements : Value → Except String (List Value)
  | .arr xs => .ok xs
  | .undefined => .error "Cannot read properties of undefined"
  | .null => .error "Cannot read properties of null"
  | _ => .error "not a function"

/-- A property name that is the numeral of an array index. -/
def isIndex (key : String) : Bool :=
  match key.toNat? with
  | some n => toString n = key && n < 4294967295
  | none => false

/-- An object lists its index names first, in numeric order, then the others in the
order they were written. -/
def propertyOrder {α : Type} (fields : List (String × α)) : List (String × α) :=
  (fields.filter (fun e => isIndex e.1)).insertionSort
      (fun a b => a.1.toNat?.getD 0 ≤ b.1.toNat?.getD 0) ++
    fields.filter (fun e => !isIndex e.1)

theorem propertyOrder_perm {α : Type} (fields : List (String × α)) :
    (propertyOrder fields).Perm fields :=
  ((List.perm_insertionSort _ _).append_right _).trans (List.filter_append_perm _ fields)

def notAnObject : String := "Cannot convert undefined or null to object"

/-- `Object.entries(v)`. -/
def Value.entries : Value → Except String (List (String × Value))
  | .undefined => .error notAnObject
  | .null => .error notAnObject
  | .obj fields => .ok (propertyOrder fields)
  | .arr xs => .ok (xs.mapIdx (fun i x => (toString i, x)))
  | .str s => .ok (s.toList.mapIdx (fun i c => (toString i, .str (String.singleton c))))
  | .bool _ => .ok []
  | .num _ => .ok []

@[simp] theorem get_obj (fields : List (String × Value)) (field : String) :
    (Value.obj fields).get field =
      .ok (((fields.find? (fun e => e.1 = field)).map Prod.snd).getD .undefined) := rfl

/-! ## Encoding -/

/-- An integer of the document read as a double: 53 significant bits, ties to even. -/
def toDouble (n : Int) : Int :=
  let e := n.natAbs.log2 + 1 - 53
  let q := n.natAbs / 2 ^ e
  let r := n.natAbs % 2 ^ e
  let rounded := if 2 * r < 2 ^ e ∨ (2 * r = 2 ^ e ∧ q % 2 = 0) then q else q + 1
  n.sign * (rounded * 2 ^ e : ℕ)

/-- The text of a double that is an integer shows the fewest significant digits that
read back as the same double, and of those the closest, padded with zeros. -/
def shortestDecimal (m : ℕ) : ℕ :=
  let candidates (e : ℕ) : List ℕ :=
    let down := m / 10 ^ e * 10 ^ e
    let up := down + 10 ^ e
    if m - down < up - m ∨ (m - down = up - m ∧ m / 10 ^ e % 2 = 0) then [down, up] else [up, down]
  let exponents := (List.range (Nat.toDigits 10 m).length).reverse
  ((exponents.flatMap candidates).find? (fun (c : ℕ) => toDouble c = (m : Int))).getD m

/-- From `10 ^ 21` on the text has an exponent. -/
def magnitudeText (m : ℕ) : String :=
  let decimal := shortestDecimal m
  if decimal < 10 ^ 21 then toString decimal
  else
    let digits := Nat.toDigits 10 decimal
    let significant := (digits.reverse.dropWhile (· = '0')).reverse
    let fraction := if significant.length = 1 then [] else '.' :: significant.tail
    String.ofList (significant.take 1 ++ fraction) ++ "e+" ++ toString (digits.length - 1)

/-- A number that is an integer, in a template string. -/
def numberText (n : Int) : String :=
  if n < 0 then "-" ++ magnitudeText n.natAbs else magnitudeText n.natAbs

/-- A nil slice is encoded as `null`. -/
def ofSlice {α : Type} (encode : α → Value) : Option (List α) → Value
  | none => .null
  | some xs => .arr (xs.map encode)

def sortedEntries {α : Type} (m : OrderedMap String α) : List (String × α) :=
  m.entries.insertionSort (fun a b => a.1 ≤ b.1)

/-- A nil map is encoded as `null`; the entries of a map are sorted by key. -/
def ofMap {α : Type} (encode : α → Value) : Option (OrderedMap String α) → Value
  | none => .null
  | some m => .obj ((sortedEntries m).map (fun e => (e.1, encode e.2)))

def ofInt (n : Int) : Value := .num (toDouble n)

/-- A field that is left out when its value is empty. -/
def omitEmpty (name : String) (empty : Bool) (v : Value) : List (String × Value) :=
  if empty then [] else [(name, v)]

@[simp] theorem omitEmpty_true (name : String) (v : Value) : omitEmpty name true v = [] := rfl

@[simp] theorem omitEmpty_false (name : String) (v : Value) :
    omitEmpty name false v = [(name, v)] := rfl

/-- A field that may be left out is found only under its own name. -/
@[simp] theorem find?_omitEmpty (name field : String) (empty : Bool) (v : Value) :
    (omitEmpty name empty v).find? (fun e => e.1 = field) =
      if empty = false ∧ name = field then some (name, v) else none := by
  cases empty with
  | true => simp
  | false => by_cases h : name = field <;> simp [h]

/-! ## Maps of one type of value

A map that a page uses only for its entries is kept as the list it is parsed
from, `none` standing for `null`. -/

/-- A map after encoding and parsing. -/
def parsedMap {α : Type} (m : Option (OrderedMap String α)) : Option (List (String × α)) :=
  m.map sortedEntries

/-- `Object.entries` of a parsed map. -/
def objectEntries {α : Type} : Option (List (String × α)) → Except String (List (String × α))
  | none => .error notAnObject
  | some fields => .ok (propertyOrder fields)

/-- What the language leaves to the engine and its locale: the sorting algorithm and
the comparison of texts; and the reading of a text as a number. -/
structure Engine where
  sorting : StableSort.ComparisonSort
  localeCompare : String → String → ExtRat
  number : String → ExtRat

/-! ## Loops that may throw -/

section Loops
variable {ε α β : Type}

/-- The computation does not throw. -/
def Returns (x : Except ε α) : Prop := ∃ a, x = .ok a

/-- `xs.some(p)`, which stops at the first element that satisfies `p`. -/
def someE (p : α → Except ε Bool) : List α → Except ε Bool
  | [] => .ok false
  | x :: xs => do if (← p x) then return true else someE p xs

/-- `xs.filter(p)`. -/
def filterE (p : α → Except ε Bool) : List α → Except ε (List α)
  | [] => .ok []
  | x :: xs => do
    let keep ← p x
    let rest ← filterE p xs
    return if keep then x :: rest else rest

/-- `xs.map(f)`. -/
def mapE (f : α → Except ε β) : List α → Except ε (List β)
  | [] => .ok []
  | x :: xs => do
    let y ← f x
    let ys ← mapE f xs
    return y :: ys

theorem not_returns_error (e : ε) : ¬ Returns (.error e : Except ε α) := by
  rintro ⟨a, h⟩
  cases h

theorem returns_bind {x : Except ε α} {f : α → Except ε β} (h : Returns (x >>= f)) : Returns x := by
  cases x with
  | error e => exact absurd h (not_returns_error e)
  | ok a => exact ⟨a, rfl⟩

theorem someE_map {p : β → Except ε Bool} {f : α → β} {q : α → Bool} {xs : List α}
    (h : ∀ x ∈ xs, p (f x) = .ok (q x)) : someE p (xs.map f) = .ok (xs.any q) := by
  induction xs with
  | nil => rfl
  | cons x xs ih =>
    have hrest := ih (fun y hy => h y (List.mem_cons_of_mem _ hy))
    rw [List.map_cons, someE, h x (List.mem_cons_self ..), List.any_cons]
    cases hq : q x with
    | true => rfl
    | false => exact hrest

theorem filterE_map {p : β → Except ε Bool} {f : α → β} {q : α → Bool} {xs : List α}
    (h : ∀ x ∈ xs, p (f x) = .ok (q x)) :
    filterE p (xs.map f) = .ok ((xs.filter q).map f) := by
  induction xs with
  | nil => rfl
  | cons x xs ih =>
    have hrest := ih (fun y hy => h y (List.mem_cons_of_mem _ hy))
    rw [List.map_cons, filterE, h x (List.mem_cons_self ..), hrest, List.filter_cons]
    cases q x <;> rfl

/-- A filter that returns has evaluated its condition on every element. -/
theorem returns_of_filterE {p : α → Except ε Bool} {xs : List α} (h : Returns (filterE p xs)) :
    ∀ x ∈ xs, Returns (p x) := by
  induction xs with
  | nil => simp
  | cons x xs ih =>
    have hx := returns_bind h
    obtain ⟨keep, hkeep⟩ := hx
    rw [filterE, hkeep] at h
    intro y hy
    rcases List.mem_cons.mp hy with rfl | hy
    · exact ⟨keep, hkeep⟩
    · exact ih (returns_bind h) y hy

/-- A map returns exactly when its function does on every element. -/
theorem returns_mapE_iff {f : α → Except ε β} {xs : List α} :
    Returns (mapE f xs) ↔ ∀ x ∈ xs, Returns (f x) := by
  induction xs with
  | nil => simp [mapE, Returns]
  | cons x xs ih =>
    rw [mapE, List.forall_mem_cons, ← ih]
    constructor
    · intro h
      obtain ⟨y, hy⟩ := returns_bind h
      rw [hy] at h
      exact ⟨⟨y, hy⟩, returns_bind h⟩
    · rintro ⟨⟨y, hy⟩, ⟨ys, hys⟩⟩
      exact ⟨y :: ys, by rw [hy, hys]; rfl⟩

theorem mapE_map {γ : Type} {p : β → Except ε γ} {f : α → β} {g : α → γ} {xs : List α}
    (h : ∀ x ∈ xs, p (f x) = .ok (g x)) : mapE p (xs.map f) = .ok (xs.map g) := by
  induction xs with
  | nil => rfl
  | cons x xs ih =>
    have hrest := ih (fun y hy => h y (List.mem_cons_of_mem _ hy))
    rw [List.map_cons, mapE, h x (List.mem_cons_self ..), hrest]
    rfl

theorem mapE_eq_map {f : α → Except ε β} {g : α → β} {xs : List α}
    (h : ∀ x ∈ xs, f x = .ok (g x)) : mapE f xs = .ok (xs.map g) := by
  simpa using mapE_map (f := id) h

end Loops

end BigfleetDashboard.Script
