import BigfleetDashboard.ConsistentComparators
import BigfleetDashboard.DecimalNumerals
import BigfleetDashboard.ShardReports

/-!
# The order of the shortfalls

The shard-capacity page sorts the shortfalls of a report by one of three keys, greatest
first. The comparator subtracts keys, and two pinned buckets have a difference that is no
number; the keys themselves are always numbers. Labels are read as doubles and differences
are rounded to doubles, which keeps their signs.
-/
namespace BigfleetDashboard.Pages
open Script StableSort

/-! ## Keys -/

/-- What the comparator of a field subtracts. -/
def shortfallKey (eng : Engine) (field : SortField) (sf : ShardReportShortfall) : ExtRat :=
  match field with
  | .age => .fin sf.ageCycles
  | .bucket => bucketRank eng sf.penaltyBucket
  | .priority => .fin sf.priority

/-- The comparator of a field. -/
def compareShortfalls (eng : Engine) (field : SortField) (a b : ShardReportShortfall) : ExtRat :=
  match field with
  | .age => minus (.fin b.ageCycles) (.fin a.ageCycles)
  | .bucket => minus (bucketRank eng b.penaltyBucket) (bucketRank eng a.penaltyBucket)
  | .priority => minus (.fin b.priority) (.fin a.priority)

theorem sortShortfalls_eq (eng : Engine) (rows : List ShardReportShortfall) (field : SortField) :
    sortShortfalls eng rows field = eng.sorting.sort (compareShortfalls eng field) rows := rfl

theorem compareShortfalls_eq (eng : Engine) (field : SortField) (a b : ShardReportShortfall) :
    compareShortfalls eng field a b = minus (shortfallKey eng field b) (shortfallKey eng field a) := by
  cases field with
  | priority => rfl
  | age => rfl
  | bucket => rfl

theorem bucketRank_isNumber (eng : Engine) (b : String) : (bucketRank eng b).isNaN = false := by
  unfold bucketRank
  dsimp only
  split_ifs with _ _ _ _ hfinite
  · rfl
  · rfl
  · rfl
  · rfl
  · exact ((ExtRat.isFinite_iff _).mp hfinite).1
  · rfl

theorem shortfallKey_isNumber (eng : Engine) (field : SortField) (sf : ShardReportShortfall) :
    (shortfallKey eng field sf).isNaN = false := by
  cases field with
  | priority => rfl
  | age => rfl
  | bucket => exact bucketRank_isNumber eng sf.penaltyBucket

/-! ## Rounding -/

section Rounding
variable {eng : Engine} (hnumber : ∀ s, Gridded (eng.number s))
include hnumber

theorem gridded_bucketRank (b : String) : Gridded (bucketRank eng b) := by
  have hhalf : Gridded (.fin (1 / 2)) := by
    refine BinaryRounding.onGrid_iff.mpr ⟨2 ^ 1073, ?_⟩
    rw [Int.cast_pow, Int.cast_ofNat, ← zpow_natCast, ← zpow_add₀ two_ne_zero]
    norm_num
  unfold bucketRank
  dsimp only
  split_ifs
  · trivial
  · exact gridded_intCast 0
  · exact hhalf
  · exact gridded_intCast (-1)
  · exact hnumber _
  · exact gridded_intCast (-1)

theorem gridded_shortfallKey (field : SortField) (sf : ShardReportShortfall) :
    Gridded (shortfallKey eng field sf) := by
  cases field with
  | priority => exact gridded_intCast sf.priority
  | age => exact gridded_intCast sf.ageCycles
  | bucket => exact gridded_bucketRank hnumber sf.penaltyBucket

/-- The rounded difference of two keys has the sign of the difference. -/
theorem sign_compareShortfalls (field : SortField) (a b : ShardReportShortfall) :
    sign (compareShortfalls eng field a b) = sign (byDescending (shortfallKey eng field) a b) := by
  have hgrid := (gridded_shortfallKey hnumber field b).sub (gridded_shortfallKey hnumber field a)
  rw [compareShortfalls_eq, minus, byDescending, sign, sign]
  simp only [double_neg_iff hgrid, double_pos_iff hgrid]

end Rounding

/-! ## Labels -/

def bucketPrefix : String := "PENALTY_BUCKET_"

/-- The labels with a rank of their own. -/
def namedBuckets : List String := ["PINNED", "ZERO", "HALF_DOLLAR", "UNSPECIFIED", ""]

/-- What the labels of buckets are worth, with the prefix of the enumeration or without. A
numeral is worth the double nearest to its value, if that is finite: a whole number below
`2 ^ 53` its value, and none more than a greater one. -/
structure RanksBuckets (rank : String → ExtRat) : Prop where
  pinned : rank "PINNED" = .posInf
  zero : rank "ZERO" = 0
  halfDollar : rank "HALF_DOLLAR" = .fin (1 / 2)
  unset : rank "UNSPECIFIED" = .fin (-1) ∧ rank "" = .fin (-1)
  numeral : ∀ d : Numeral, rank (String.ofList d.chars) =
    if (nearestDouble d.value).IsFinite then nearestDouble d.value else .fin (-1)
  whole : ∀ (d : Numeral) (n : ℕ), d.value = n → n < 2 ^ 53 →
    rank (String.ofList d.chars) = .fin d.value
  ordered : ∀ d d' : Numeral, d.value ≤ d'.value → (nearestDouble d'.value).IsFinite →
    rank (String.ofList d.chars) ≤ rank (String.ofList d'.chars)
  number : ∀ s, s ∉ namedBuckets → ¬ bucketPrefix.toList <+: s.toList →
    rank s = if (double (toNumber s)).IsFinite then double (toNumber s) else .fin (-1)
  prefixed : ∀ s, ¬ bucketPrefix.toList <+: s.toList → rank (bucketPrefix ++ s) = rank s

theorem bucketShort_of_bare {s : String} (h : ¬ bucketPrefix.toList <+: s.toList) :
    bucketShort s = s := by
  have hfalse : bucketPrefix.toList.isPrefixOf s.toList = false := by
    rw [← Bool.not_eq_true, List.isPrefixOf_iff_prefix]
    exact h
  unfold bucketShort ShardClient.trimPrefix
  rw [show "PENALTY_BUCKET_" = bucketPrefix from rfl, hfalse]
  rfl

theorem bucketShort_append (s : String) : bucketShort (bucketPrefix ++ s) = s := by
  have htrue : bucketPrefix.toList.isPrefixOf (bucketPrefix ++ s).toList = true := by
    rw [List.isPrefixOf_iff_prefix, String.toList_append]
    exact List.prefix_append _ _
  unfold bucketShort ShardClient.trimPrefix
  rw [show "PENALTY_BUCKET_" = bucketPrefix from rfl, htrue, if_pos rfl, String.toList_append,
    ← String.length_toList, List.drop_left, String.ofList_toList]

section Ranks
variable {eng : Engine}

/-- The rank of a label that is not named is its number. -/
theorem bucketRank_number {s : String} (hnumber : ∀ s, eng.number s = double (toNumber s))
    (hnamed : s ∉ namedBuckets) (hbare : ¬ bucketPrefix.toList <+: s.toList) :
    bucketRank eng s =
      if (double (toNumber s)).IsFinite then double (toNumber s) else .fin (-1) := by
  have hne : ∀ l ∈ namedBuckets, s ≠ l := fun l hl heq => hnamed (heq ▸ hl)
  unfold bucketRank
  rw [bucketShort_of_bare hbare]
  dsimp only
  rw [hnumber, if_neg (hne "PINNED" (by simp [namedBuckets])), if_neg (hne "ZERO" (by simp [namedBuckets])),
    if_neg (hne "HALF_DOLLAR" (by simp [namedBuckets])),
    if_neg (not_or.mpr ⟨hne "UNSPECIFIED" (by simp [namedBuckets]),
      hne "" (by simp [namedBuckets])⟩)]

/-- A numeral is neither a name nor does it start with the prefix. -/
theorem numeral_not_named (d : Numeral) :
    String.ofList d.chars ∉ namedBuckets ∧
      ¬ bucketPrefix.toList <+: (String.ofList d.chars).toList := by
  obtain ⟨c, tail, hchars, hc⟩ := d.exists_head
  have hstart : ∀ (l : Char) (text : List Char), l.isDigit = false → l ≠ '.' →
      ¬ (l :: text) <+: d.chars := by
    intro l text hdigit hpoint h
    rw [hchars] at h
    obtain rfl := (List.cons_prefix_cons.mp h).1
    rcases hc with hc | hc
    · rw [hdigit] at hc
      cases hc
    · exact hpoint hc
  have hname : ∀ (l : Char) (text : List Char), l.isDigit = false → l ≠ '.' →
      String.ofList d.chars ≠ String.ofList (l :: text) := by
    intro l text hdigit hpoint h
    have heq : d.chars = l :: text := String.ofList_injective h
    exact hstart l text hdigit hpoint (heq ▸ List.prefix_rfl)
  constructor
  · intro hmem
    simp only [namedBuckets, List.mem_cons, List.not_mem_nil, or_false] at hmem
    rcases hmem with h | h | h | h | h
    · exact hname 'P' "INNED".toList rfl (by decide) h
    · exact hname 'Z' "ERO".toList rfl (by decide) h
    · exact hname 'H' "ALF_DOLLAR".toList rfl (by decide) h
    · exact hname 'U' "NSPECIFIED".toList rfl (by decide) h
    · have hempty : d.chars = [] := String.ofList_injective h
      rw [hchars] at hempty
      cases hempty
  · rw [String.toList_ofList]
    exact hstart 'P' "ENALTY_BUCKET_".toList rfl (by decide)

theorem bucketRank_numeral (hnumber : ∀ s, eng.number s = double (toNumber s)) (d : Numeral) :
    bucketRank eng (String.ofList d.chars) =
      if (nearestDouble d.value).IsFinite then nearestDouble d.value else .fin (-1) := by
  obtain ⟨hnamed, hbare⟩ := numeral_not_named d
  rw [bucketRank_number hnumber hnamed hbare, toNumber_numeral]
  rfl

theorem bucketRank_ranks (hnumber : ∀ s, eng.number s = double (toNumber s)) :
    RanksBuckets (bucketRank eng) := by
  have hshort : ∀ s, ¬ bucketPrefix.toList <+: s.toList →
      bucketRank eng (bucketPrefix ++ s) = bucketRank eng s := by
    intro s hs
    unfold bucketRank
    rw [bucketShort_append, bucketShort_of_bare hs]
  constructor
  case pinned => rfl
  case zero => rfl
  case halfDollar => rfl
  case unset => exact ⟨rfl, rfl⟩
  case numeral => exact bucketRank_numeral hnumber
  case whole =>
    intro d n hvalue hlt
    rw [bucketRank_numeral hnumber, hvalue, nearestDouble_natCast hlt]
    rfl
  case ordered =>
    intro d d' hle hfinite
    obtain ⟨c', hc'⟩ := hfinite
    obtain ⟨c, hc, hcle⟩ := nearestDouble_mono d.value_nonneg hle hc'
    rw [bucketRank_numeral hnumber, bucketRank_numeral hnumber, hc, hc']
    exact hcle
  case number => exact fun s hnamed hbare => bucketRank_number hnumber hnamed hbare
  case prefixed => exact hshort

end Ranks

/-! ## Arrays in memory -/

/-- The arrays that exist, by address. -/
abbrev Memory := List (List ShardReportShortfall)

/-- `[...rows]`. -/
def copyArray (m : Memory) (rows : ℕ) : Memory × ℕ := (m ++ [m.getD rows []], m.length)

/-- `out.sort(compare)` rearranges the array where it is. -/
def sortArray (sorting : ComparisonSort)
    (compare : ShardReportShortfall → ShardReportShortfall → ExtRat) (m : Memory) (out : ℕ) : Memory :=
  m.set out (sorting.sort compare (m.getD out []))

/-- `sortShortfalls` on the array at an address, with the address of the result. -/
def sortShortfallsAt (eng : Engine) (m : Memory) (rows : ℕ) (field : SortField) : Memory × ℕ :=
  let (m, out) := copyArray m rows
  (sortArray eng.sorting (compareShortfalls eng field) m out, out)

/-- The result is a new array, and the arrays that were there stay as they were. -/
structure Sorts (eng : Engine) (m : Memory) (rows : ℕ) (field : SortField) (m' : Memory) (out : ℕ) :
    Prop where
  result : m'[out]? = some (sortShortfalls eng (m.getD rows []) field)
  unchanged : ∀ p < m.length, m'[p]? = m[p]?

theorem sortShortfallsAt_sorts (eng : Engine) (m : Memory) (rows : ℕ) (field : SortField) :
    Sorts eng m rows field (sortShortfallsAt eng m rows field).1
      (sortShortfallsAt eng m rows field).2 := by
  have hread : (m ++ [m.getD rows []]).getD m.length [] = m.getD rows [] := by
    simp [List.getD_eq_getElem?_getD]
  constructor
  case result =>
    simp only [sortShortfallsAt, copyArray, sortArray, hread]
    rw [List.getElem?_set_self (by simp)]
    rfl
  case unchanged =>
    intro p hp
    simp only [sortShortfallsAt, copyArray, sortArray]
    rw [List.getElem?_set_ne (by omega), List.getElem?_append_left hp]

/-! ## The order -/

/-- An engine with the language's own reading of numbers. -/
def standardEngine (sorting : ObliviousSort) (localeCompare : String → String → ExtRat) : Engine :=
  ⟨sorting.toComparisonSort, localeCompare, fun s => double (toNumber s)⟩

/-- The comparator is consistent, so the shortfalls come out stably sorted by their key,
which is what the labels say; the array that was passed is left as it was. -/
theorem sortShortfalls_stable (sorting : ObliviousSort) (localeCompare : String → String → ExtRat)
    (field : SortField) :
    let eng := standardEngine sorting localeCompare
    Consistent (compareShortfalls eng field) ∧
    RanksBuckets (bucketRank eng) ∧
    (∀ rows, SortedStably (shortfallKey eng field) rows (sortShortfalls eng rows field)) ∧
    ∀ (m : Memory) (rows : ℕ),
      Sorts eng m rows field (sortShortfallsAt eng m rows field).1
        (sortShortfallsAt eng m rows field).2 := by
  intro eng
  have hkey := shortfallKey_isNumber eng field
  have hsign := @sign_compareShortfalls eng (fun s => gridded_double (toNumber s)) field
  refine ⟨(byDescending_consistent hkey).of_sign_eq hsign, bucketRank_ranks (fun _ => rfl), ?_, ?_⟩
  · intro rows
    rw [sortShortfalls_eq]
    exact sorting.sortedStably hkey hsign rows
  · intro m rows
    exact sortShortfallsAt_sorts eng m rows field

end BigfleetDashboard.Pages
