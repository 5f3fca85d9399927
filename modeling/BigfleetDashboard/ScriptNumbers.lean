import BigfleetDashboard.ScriptValues
import Mathlib.Data.Rat.Floor

/-!
# Numbers and properties of the script language

Reading a text as a number, with exact arithmetic in place of rounding; the
functions of `Math` on two numbers; and reading a property of an object, which
finds the properties every object inherits where the object has none of its own.
-/
namespace BigfleetDashboard.Script

/-! ## Texts as numbers -/

/-- White space and line terminators. -/
def isSpace (c : Char) : Bool :=
  let n := c.toNat
  (9 ≤ n && n ≤ 13) || n = 32 || n = 160 || n = 5760 || (8192 ≤ n && n ≤ 8202) || n = 8232 ||
    n = 8233 || n = 8239 || n = 8287 || n = 12288 || n = 65279

/-- `s.trim()`. -/
def trim (s : List Char) : List Char :=
  ((s.dropWhile isSpace).reverse.dropWhile isSpace).reverse

def digitsValue (digits : List Char) : ℕ := digits.foldl (fun n c => 10 * n + (c.toNat - 48)) 0

/-- Whether a minus sign stands in front, and the text after the sign. -/
def afterSign : List Char → Bool × List Char
  | '-' :: rest => (true, rest)
  | '+' :: rest => (false, rest)
  | rest => (false, rest)

/-- The exponent a text begins with; without digits there is none. -/
def exponent : List Char → Int
  | [] => 0
  | c :: rest =>
    if c = 'e' || c = 'E' then
      let (negative, rest) := afterSign rest
      let value : Int := digitsValue (rest.takeWhile Char.isDigit)
      if negative then -value else value
    else 0

/-- The longest unsigned decimal number a text begins with. -/
def decimal (s : List Char) : Option ℚ :=
  let whole := s.takeWhile Char.isDigit
  let rest := s.dropWhile Char.isDigit
  let fraction := if rest.head? = some '.' then rest.tail.takeWhile Char.isDigit else []
  let after := if rest.head? = some '.' then rest.tail.dropWhile Char.isDigit else rest
  if whole = [] ∧ fraction = [] then none
  else some (digitsValue (whole ++ fraction) * 10 ^ (exponent after - fraction.length))

/-- `parseFloat(s)`. -/
def parseFloat (s : List Char) : ExtRat :=
  let (negative, body) := afterSign (s.dropWhile isSpace)
  if "Infinity".toList <+: body then (if negative then .negInf else .posInf)
  else
    match decimal body with
    | none => .nan
    | some q => .fin (if negative then -q else q)

/-- `x || 0`. -/
def orZero (x : ExtRat) : ExtRat := if x.isNaN then 0 else x

/-- `Math.max(x, y)`. -/
def mathMax (x y : ExtRat) : ExtRat :=
  if x.isNaN || y.isNaN then .nan else if x < y then y else x

/-- `Math.min(x, y)`. -/
def mathMin (x y : ExtRat) : ExtRat :=
  if x.isNaN || y.isNaN then .nan else if y < x then y else x

@[simp] theorem mathMax_fin (a b : ℚ) : mathMax (.fin a) (.fin b) = .fin (max a b) := by
  have hfin : (ExtRat.isNaN (.fin a) || ExtRat.isNaN (.fin b)) = false := rfl
  simp only [mathMax, hfin, Bool.false_eq_true, if_false, ExtRat.fin_lt_fin]
  split_ifs with h
  · rw [max_eq_right h.le]
  · rw [max_eq_left (not_lt.mp h)]

@[simp] theorem mathMin_fin (a b : ℚ) : mathMin (.fin a) (.fin b) = .fin (min a b) := by
  have hfin : (ExtRat.isNaN (.fin a) || ExtRat.isNaN (.fin b)) = false := rfl
  simp only [mathMin, hfin, Bool.false_eq_true, if_false, ExtRat.fin_lt_fin]
  split_ifs with h
  · rw [min_eq_right h.le]
  · rw [min_eq_left (not_lt.mp h)]

/-- `Math.abs(x)`. -/
def mathAbs : ExtRat → ExtRat
  | .fin q => .fin |q|
  | .nan => .nan
  | _ => .posInf

/-- `x % y`, with the sign of `x`. -/
def remainder : ExtRat → ExtRat → ExtRat
  | .fin a, .fin b =>
    if b = 0 then .nan else .fin (a - b * (if a / b < 0 then ⌈a / b⌉ else ⌊a / b⌋))
  | .fin a, .posInf => .fin a
  | .fin a, .negInf => .fin a
  | _, _ => .nan

/-- `Math.ceil(x)`. -/
def mathCeil : ExtRat → ExtRat
  | .fin q => .fin ⌈q⌉
  | x => x

/-- `Math.floor(x)`. -/
def mathFloor : ExtRat → ExtRat
  | .fin q => .fin ⌊q⌋
  | x => x

/-- `Math.round(x)`; halves go up. -/
def mathRound : ExtRat → ExtRat
  | .fin q => .fin ⌊q + 1 / 2⌋
  | x => x

/-! ## Properties -/

/-- What `o[key]` finds. -/
inductive Property (α : Type)
  | own (a : α)
  | inherited
  | absent
  deriving DecidableEq

/-- The properties of `Object.prototype`. None of them is `undefined`, a text or a number. -/
def objectPrototype : List String :=
  ["constructor", "__defineGetter__", "__defineSetter__", "hasOwnProperty", "__lookupGetter__",
    "__lookupSetter__", "isPrototypeOf", "propertyIsEnumerable", "toString", "valueOf",
    "__proto__", "toLocaleString"]

/-- `o[key]` for an object with the given properties of its own. -/
def readProperty {α : Type} (fields : List (String × α)) (key : String) : Property α :=
  match fields.find? (fun e => e.1 = key) with
  | some e => .own e.2
  | none => if key ∈ objectPrototype then .inherited else .absent

theorem readProperty_cases {α : Type} (fields : List (String × α)) (key : String) :
    (∃ e, fields.find? (fun e => e.1 = key) = some e ∧ readProperty fields key = .own e.2) ∨
    (fields.find? (fun e => e.1 = key) = none ∧
      (readProperty fields key = .inherited ∨ readProperty fields key = .absent)) := by
  unfold readProperty
  cases fields.find? (fun e => e.1 = key) with
  | some e => exact Or.inl ⟨e, rfl, rfl⟩
  | none =>
    refine Or.inr ⟨rfl, ?_⟩
    by_cases hproto : key ∈ objectPrototype
    · exact Or.inl (if_pos hproto)
    · exact Or.inr (if_neg hproto)

theorem readProperty_eq_inherited_iff {α : Type} (fields : List (String × α)) (key : String) :
    readProperty fields key = .inherited ↔ key ∈ objectPrototype ∧ key ∉ fields.map Prod.fst := by
  unfold readProperty
  cases hfind : fields.find? (fun e => e.1 = key) with
  | none =>
    have hkey : key ∉ fields.map Prod.fst := by
      intro hmem
      obtain ⟨e, he, hkey⟩ := List.mem_map.mp hmem
      have hne := List.find?_eq_none.mp hfind e he
      simp [hkey] at hne
    by_cases hproto : key ∈ objectPrototype
    · simp [hproto, hkey]
    · simp [hproto]
  | some e =>
    have hkey : key ∈ fields.map Prod.fst := by
      have hfound : e.1 = key := by simpa using List.find?_some hfind
      rw [← hfound]
      exact List.mem_map_of_mem (List.mem_of_find?_eq_some hfind)
    simp only [reduceCtorEq, false_iff, not_and, not_not]
    exact fun _ => hkey

/-- A property that is there once is found. -/
theorem readProperty_of_mem {α : Type} {fields : List (String × α)} {key : String} {a : α}
    (hnodup : (fields.map Prod.fst).Nodup) (h : (key, a) ∈ fields) :
    readProperty fields key = .own a := by
  induction fields with
  | nil => cases h
  | cons e fields ih =>
    obtain ⟨he, hrest⟩ := List.nodup_cons.mp hnodup
    unfold readProperty at ih ⊢
    cases h with
    | head => simp
    | tail _ h =>
      have hne : e.1 ≠ key := by
        intro heq
        exact he (heq ▸ List.mem_map_of_mem (f := Prod.fst) h)
      rw [List.find?_cons_of_neg (by simpa using hne)]
      exact ih hrest h

/-! ## The order of texts -/

/-- The code units of a text. -/
def utf16Units (s : String) : List ℕ :=
  s.toList.flatMap (fun c =>
    let n := c.toNat
    if n < 65536 then [n]
    else [55296 + (n - 65536) / 1024, 56320 + (n - 65536) % 1024])

/-- `xs.sort()` for an array of texts. -/
def sortTexts (xs : List String) : List String :=
  xs.insertionSort (fun a b => utf16Units a ≤ utf16Units b)

theorem sortTexts_perm (xs : List String) : (sortTexts xs).Perm xs := List.perm_insertionSort _ xs

end BigfleetDashboard.Script
