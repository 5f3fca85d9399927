import Mathlib.Data.Int.Basic
import Mathlib.Data.List.Induction
import Mathlib.Tactic.Linarith
import Mathlib.Tactic.Ring

/-!
# Storing samples in the slots of a grid

A loop over samples that stores each one in the cell its index names keeps, in
every cell, the last sample stored there. The index is often recovered from an
offset by integer division, which in most languages truncates toward zero: on
nonnegative offsets it names the half-open step interval of the offset, but the
whole interval just below zero is named `0` as well.
-/
namespace BigfleetDashboard.SlotWrites

variable {α β : Type}

/-- One step of the loop: an element without a slot is skipped. -/
def write (slot : β → Option ℕ) (val : β → α) (row : List α) (x : β) : List α :=
  match slot x with
  | some i => row.set i (val x)
  | none => row

def writeAll (slot : β → Option ℕ) (val : β → α) (row : List α) (xs : List β) : List α :=
  xs.foldl (write slot val) row

/-- The value of the last element stored in cell `i`. -/
def lastWrite (slot : β → Option ℕ) (val : β → α) (xs : List β) (i : ℕ) : Option α :=
  ((xs.filter (fun x => slot x = some i)).getLast?).map val

@[simp] theorem length_write (slot : β → Option ℕ) (val : β → α) (row : List α) (x : β) :
    (write slot val row x).length = row.length := by
  unfold write
  cases slot x <;> simp

@[simp] theorem length_writeAll (slot : β → Option ℕ) (val : β → α) (row : List α) (xs : List β) :
    (writeAll slot val row xs).length = row.length := by
  induction xs generalizing row with
  | nil => rfl
  | cons x xs ih =>
    change (writeAll slot val (write slot val row x) xs).length = row.length
    rw [ih, length_write]

/-- A later element without a slot changes nothing. -/
theorem writeAll_skip (slot : β → Option ℕ) (val : β → α) (row : List α) (pre post : List β)
    (x : β) (hx : slot x = none) :
    writeAll slot val row (pre ++ x :: post) = writeAll slot val row (pre ++ post) := by
  have hskip : ∀ r : List α, write slot val r x = r := by
    intro r
    simp only [write, hx]
  simp only [writeAll, List.foldl_append, List.foldl_cons, hskip]

theorem lastWrite_concat (slot : β → Option ℕ) (val : β → α) (xs : List β) (x : β) (i : ℕ) :
    lastWrite slot val (xs ++ [x]) i =
      if slot x = some i then some (val x) else lastWrite slot val xs i := by
  unfold lastWrite
  by_cases h : slot x = some i
  · simp [List.filter_append, h]
  · simp [List.filter_append, h]

/-- After the loop a cell holds the last value stored in it, or what it held before. -/
theorem getElem?_writeAll (slot : β → Option ℕ) (val : β → α) (row : List α) (xs : List β) (i : ℕ) :
    (writeAll slot val row xs)[i]? = row[i]?.map (fun a => (lastWrite slot val xs i).getD a) := by
  induction xs using List.reverseRecOn with
  | nil => cases h : row[i]? <;> simp [writeAll, lastWrite, h]
  | append_singleton xs x ih =>
    have hstep : writeAll slot val row (xs ++ [x]) = write slot val (writeAll slot val row xs) x := by
      simp [writeAll, List.foldl_append]
    rw [hstep, lastWrite_concat]
    unfold write
    cases hx : slot x with
    | none => simpa using ih
    | some j =>
      by_cases hj : j = i
      · subst hj
        by_cases hlen : j < row.length
        · simp [hlen]
        · simp [hlen]
      · simpa [List.getElem?_set, hj] using ih

/-- A cell of the result was there before or was stored by an element with a slot. -/
theorem mem_writeAll {slot : β → Option ℕ} {val : β → α} {row : List α} {xs : List β} {a : α}
    (h : a ∈ writeAll slot val row xs) : a ∈ row ∨ ∃ x ∈ xs, (slot x).isSome ∧ a = val x := by
  obtain ⟨i, hi⟩ := List.mem_iff_getElem?.mp h
  rw [getElem?_writeAll] at hi
  obtain ⟨b, hb, hval⟩ := Option.map_eq_some_iff.mp hi
  unfold lastWrite at hval
  cases hlast : (xs.filter (fun x => slot x = some i)).getLast? with
  | none =>
    rw [hlast] at hval
    exact Or.inl (List.mem_iff_getElem?.mpr ⟨i, by rw [hb, ← hval]; rfl⟩)
  | some x =>
    have hx := List.mem_filter.mp (List.mem_of_getLast? hlast)
    have hslot : slot x = some i := by simpa using hx.2
    rw [hlast] at hval
    exact Or.inr ⟨x, hx.1, by rw [hslot, Option.isSome_some], hval.symm⟩

/-! ## Truncated division on a grid -/

/-- On nonnegative offsets truncated division names the half-open interval. -/
theorem tdiv_eq_iff {a b i : Int} (hb : 0 < b) (ha : 0 ≤ a) :
    a.tdiv b = i ↔ i * b ≤ a ∧ a < (i + 1) * b := by
  rw [Int.tdiv_eq_ediv_of_nonneg ha, Int.ediv_eq_iff_of_pos hb, add_mul, one_mul]

/-- The interval just below zero is also named `0`. -/
theorem tdiv_eq_zero_of_neg {a b : Int} (hlo : -b < a) (ha : a < 0) : a.tdiv b = 0 := by
  have h : (-a).tdiv b = 0 := Int.tdiv_eq_zero_of_lt (by omega) (by omega)
  rw [Int.neg_tdiv] at h
  omega

theorem tdiv_neg {a b : Int} (hb : 0 < b) (ha : a ≤ -b) : a.tdiv b < 0 := by
  have h := (tdiv_eq_iff hb (show (0 : Int) ≤ -a by omega)).mp rfl
  rw [Int.neg_tdiv] at h
  by_contra hn
  nlinarith [h.2]

end BigfleetDashboard.SlotWrites
