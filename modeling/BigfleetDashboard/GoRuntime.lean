import BigfleetDashboard.OrderedMap
import BigfleetDashboard.StableSort
import Mathlib.Data.String.Basic

/-!
# The parts of the Go language that a server's arithmetic leans on

Sixty-four bit integers, conversion from floating point, the clock of package
`time`, and the two choices the language leaves open: the order in which a loop
visits the entries of a map, and where an unstable sort puts tied elements.
A program is modelled as a function of these choices and results are proved for
all of them.
-/
namespace BigfleetDashboard.Go
open StableSort

def maxInt64 : Int := 9223372036854775807
def minInt64 : Int := -9223372036854775808

/-- Two's-complement wrap onto the 64-bit signed integers. -/
def wrapInt64 (x : Int) : Int := (x + 9223372036854775808) % 18446744073709551616 - 9223372036854775808

theorem wrapInt64_of_mem {x : Int} (hlo : minInt64 ≤ x) (hhi : x ≤ maxInt64) :
    wrapInt64 x = x := by
  simp only [minInt64, maxInt64] at hlo hhi
  simp only [wrapInt64]
  omega

theorem wrapInt64_add (x y : Int) : wrapInt64 (wrapInt64 x + y) = wrapInt64 (x + y) := by
  simp only [wrapInt64]
  omega

/-- A running total in 64-bit arithmetic is the wrapped sum. -/
theorem foldl_wrapInt64 {α : Type} (f : α → Int) (xs : List α) :
    xs.foldl (fun total x => wrapInt64 (total + f x)) 0 = wrapInt64 (xs.map f).sum := by
  induction xs using List.reverseRecOn with
  | nil => rfl
  | append_singleton xs x ih =>
    rw [List.foldl_append, List.foldl_cons, List.foldl_nil, ih, wrapInt64_add, List.map_append,
      List.sum_append, List.map_singleton, List.sum_singleton]

/-- The 32-bit conversion `int32(n)` keeps the low bits. -/
def wrapInt32 (x : Int) : Int := (x + 2147483648) % 4294967296 - 2147483648

/-- `strconv.Atoi`: decimal digits with an optional sign, in the 64-bit range. -/
def atoi (s : String) : Option Int :=
  let (negative, digits) :=
    match s.toList with
    | '-' :: cs => (true, cs)
    | '+' :: cs => (false, cs)
    | cs => (false, cs)
  if digits.isEmpty || !digits.all Char.isDigit then none
  else
    let n := digits.foldl (fun (acc : ℕ) c => acc * 10 + (c.toNat - 48)) 0
    let v : Int := if negative then -n else n
    if minInt64 ≤ v ∧ v ≤ maxInt64 then some v else none

theorem wrapInt32_of_mem {x : Int} (hlo : -2147483648 ≤ x) (hhi : x ≤ 2147483647) :
    wrapInt32 x = x := by
  simp only [wrapInt32]
  omega

/-- The conversion `int(f)` drops the fraction. A value outside the integer range
converts to an implementation-dependent integer; this is the one of amd64. -/
def intOfFloat : ExtRat → Int
  | .fin q =>
    let t := q.num.tdiv q.den
    if minInt64 ≤ t ∧ t ≤ maxInt64 then t else minInt64
  | _ => minInt64

theorem intOfFloat_mem (x : ExtRat) : minInt64 ≤ intOfFloat x ∧ intOfFloat x ≤ maxInt64 := by
  have hmin : minInt64 ≤ minInt64 ∧ minInt64 ≤ maxInt64 := by decide
  cases x with
  | fin q =>
    simp only [intOfFloat]
    split_ifs with h
    · exact h
    · exact hmin
  | nan => exact hmin
  | posInf => exact hmin
  | negInf => exact hmin

/-- A call that does not return normally: it returned an error, or it panicked. -/
inductive Abort
  | error (msg : String)
  | panic (msg : String)
  deriving DecidableEq, Repr

/-! ## Instants and durations -/

/-! An instant is its count of nanoseconds since midnight of January 1, year 1,
UTC; a duration is a count of nanoseconds. -/

def millisecond : Int := 1000000
def second : Int := 1000 * millisecond
def minute : Int := 60 * second
def hour : Int := 60 * minute

/-- Seconds from the zero instant to the Unix epoch. -/
def unixToInternal : Int := 62135596800

/-- The difference of two instants, cut to the range of a duration. -/
def sub (t u : Int) : Int := max minInt64 (min maxInt64 (t - u))

theorem sub_of_mem {t u : Int} (hlo : minInt64 ≤ t - u) (hhi : t - u ≤ maxInt64) :
    sub t u = t - u := by
  rw [sub, min_eq_right hhi, max_eq_right hlo]

/-- Round down to a multiple of `d` since the zero instant. -/
def truncate (t : Int) (d : Int) : Int := if d ≤ 0 then t else t - t % d

/-- Unix seconds, rounded down. -/
def unix (t : Int) : Int := t / second - unixToInternal

/-- The instant of a count of milliseconds since the Unix epoch. -/
def ofUnixMilli (ms : Int) : Int := ms * millisecond + unixToInternal * second

/-- Truncation picks the multiple of the step at or before the instant. -/
theorem truncate_spec (t : Int) {d : Int} (hd : 0 < d) :
    truncate t d ≤ t ∧ t < truncate t d + d ∧ d ∣ truncate t d := by
  have hlt := Int.emod_lt_of_pos t hd
  have hnn := Int.emod_nonneg t hd.ne'
  rw [truncate, if_neg (not_le.mpr hd)]
  refine ⟨by omega, by omega, Int.dvd_self_sub_emod⟩

/-! ## Unspecified choices -/

/-- One way to resolve what the language leaves open. A loop over a map is named
by its position in the program, since each loop may visit the entries in another order.
The library's readers of durations and of floating-point numbers enter as
functions of the text, for results that hold whichever texts they accept. -/
structure Runtime where
  mapOrder : ℕ → {α : Type} → List α → List α
  mapOrder_perm : ∀ (loop : ℕ) {α : Type} (xs : List α), (mapOrder loop xs).Perm xs
  sortSlice : {α : Type} → (α → α → Bool) → List α → List α
  sortSlice_perm : ∀ {α : Type} (less : α → α → Bool) (xs : List α), (sortSlice less xs).Perm xs
  sortSlice_sorted : ∀ {α : Type} (less : α → α → Bool) (xs : List α), IsWeakOrder less →
    (sortSlice less xs).Pairwise (fun a b => less b a = false)
  parseDuration : String → Option Int
  parseFloat : String → Option ExtRat

/-- Visit maps in the order of insertion and sort as Go sorts short slices. No text
is read as a number. -/
def Runtime.plain : Runtime where
  mapOrder _ _ xs := xs
  mapOrder_perm _ _ xs := List.Perm.refl xs
  sortSlice less xs := insertionSort less xs
  sortSlice_perm less xs := insertionSort_perm less xs
  sortSlice_sorted _ xs h := insertionSort_sorted h xs
  parseDuration _ := none
  parseFloat _ := none

/-- A sort compares the elements of the slice only, so it is enough that `less`
orders them. -/
structure LocalRuntime extends Runtime where
  sortSlice_attach : ∀ {α : Type} (less : α → α → Bool) (xs : List α),
    IsWeakOrder (fun a b : {x // x ∈ xs} => less a b) →
      (sortSlice less xs).Pairwise (fun a b => less b a = false)

def LocalRuntime.plain : LocalRuntime :=
  { Runtime.plain with sortSlice_attach := fun _ _ h => insertionSort_sorted_attach h }

/-- The entries of a map in the order one loop visits them. -/
def Runtime.entries (rt : Runtime) (loop : ℕ) {κ ν : Type} (m : OrderedMap κ ν) : List (κ × ν) :=
  rt.mapOrder loop m.entries

theorem Runtime.mem_entries (rt : Runtime) (loop : ℕ) {κ ν : Type} (m : OrderedMap κ ν)
    (e : κ × ν) : e ∈ rt.entries loop m ↔ e ∈ m.entries :=
  (rt.mapOrder_perm loop m.entries).mem_iff

/-- `sort.Strings`: ascending order; equal strings are indistinguishable. -/
def sortStrings (xs : List String) : List String := xs.insertionSort (· ≤ ·)

theorem sortStrings_perm (xs : List String) : (sortStrings xs).Perm xs :=
  List.perm_insertionSort _ _

theorem sortStrings_sorted (xs : List String) : (sortStrings xs).Pairwise (· ≤ ·) :=
  List.pairwise_insertionSort _ _

end BigfleetDashboard.Go
