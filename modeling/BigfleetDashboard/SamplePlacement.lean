import BigfleetDashboard.PromClient
import BigfleetDashboard.SlotWrites

/-!
# Where the samples of a range query land

The axis of a range query is a row of half-open step intervals beginning at
`start`. A row is meant to hold, in each slot, the last finite sample of that
slot's interval. The index is a truncating division guarded by `idx < 0` only,
so a sample less than one step before the start is stored in slot 0; and the
difference of two instants is cut to a 64-bit duration, about 292 years.
-/
namespace BigfleetDashboard.PromClient
open Go SlotWrites

/-- The ranges a caller may pass: a 64-bit step, and an end not before the start. -/
structure Range.Valid (r : Range) : Prop where
  step_pos : 0 < r.step
  step_le : r.step ≤ maxInt64
  start_le : r.start ≤ r.stop

/-- The index of the last grid point at or before the end of the range. -/
def Range.last (r : Range) : Int := (r.stop - r.start) / r.step

/-- Interval `i` of the axis. -/
def Range.InInterval (r : Range) (i : ℕ) (t : Int) : Prop :=
  r.start + i * r.step ≤ t ∧ t < r.start + (i + 1) * r.step

instance (r : Range) (i : ℕ) (t : Int) : Decidable (r.InInterval i t) :=
  inferInstanceAs (Decidable (_ ∧ _))

/-- The last finite sample of interval `i`, in series order, or 0. -/
def intervalValue (r : Range) (values : List SamplePair) (i : ℕ) : ExtRat :=
  (((values.filter (fun sp => sp.value.IsFinite ∧ r.InInterval i sp.time)).getLast?).map
    SamplePair.value).getD 0

/-- The row of a series reads off its samples interval by interval. -/
structure PlacedOnGrid (r : Range) (values : List SamplePair) (row : List ExtRat) : Prop where
  length : (row.length : Int) = r.last + 1
  only : ∀ sp ∈ values, ∀ i, slotOf r (rangeSteps r) sp = some i →
    r.InInterval i sp.time ∧ (i : Int) < r.last + 1
  outside : ∀ pre sp post, values = pre ++ sp :: post →
    sp.time < r.start ∨ r.start + (r.last + 1) * r.step ≤ sp.time →
      fillRow r (rangeSteps r) (pre ++ post) = row
  shared : ∀ sp ∈ values, ∀ sp' ∈ values, ∀ i, slotOf r (rangeSteps r) sp = some i →
    slotOf r (rangeSteps r) sp' = some i →
      (sp.time - r.start) / r.step = (sp'.time - r.start) / r.step
  slot : ∀ i : ℕ, (i : Int) < r.last + 1 → row[i]? = some (intervalValue r values i)

/-- When the code places a series rightly: no finite sample in the step before the
start, an axis whose instants are within a duration of the start, and, should the
interval after the axis reach past the longest duration, no finite sample there. -/
structure OnAxis (r : Range) (values : List SamplePair) : Prop where
  none_before : ∀ sp ∈ values, sp.value.IsFinite →
    ¬ (r.start - r.step < sp.time ∧ sp.time < r.start)
  axis_fits : r.last * r.step ≤ maxInt64 ∧ r.last < maxInt64
  tail_fits : (r.last + 1) * r.step ≤ maxInt64 ∨ ∀ sp ∈ values, sp.value.IsFinite →
    sp.time < r.start + (r.last + 1) * r.step

/-- The last series of the matrix whose label has the value `k`; its row is the one kept. -/
def lastSeries (label k : String) (mat : List SampleStream) : Option SampleStream :=
  (mat.filter (fun s => s.metric.get? label = some k)).getLast?

/-! ## The axis -/

theorem last_spec {r : Range} (hr : r.Valid) :
    0 ≤ r.last ∧ r.last * r.step ≤ r.stop - r.start ∧ r.stop - r.start < (r.last + 1) * r.step := by
  have hspan : 0 ≤ r.stop - r.start := by have := hr.start_le; omega
  have h := (tdiv_eq_iff hr.step_pos hspan).mp rfl
  rw [Int.tdiv_eq_ediv_of_nonneg hspan] at h
  exact ⟨Int.ediv_nonneg hspan hr.step_pos.le, h⟩

/-- The quotient the code computes from a nonnegative offset, before any wrap. -/
theorem sub_tdiv_of_nonneg {t u : Int} (hut : u ≤ t) (d : Int) :
    (sub t u).tdiv d = min maxInt64 (t - u) / d := by
  have hmax : (0 : Int) ≤ maxInt64 := by decide
  have hmin : minInt64 ≤ min maxInt64 (t - u) := by
    have : minInt64 ≤ 0 := by decide
    have : 0 ≤ t - u := by omega
    exact le_min (by omega) (by omega)
  rw [sub, max_eq_right hmin, Int.tdiv_eq_ediv_of_nonneg (le_min hmax (by omega))]

theorem maxInt64_div_nonneg {r : Range} (hr : r.Valid) :
    0 ≤ maxInt64 / r.step ∧ maxInt64 / r.step ≤ maxInt64 := by
  have hmax : (0 : Int) ≤ maxInt64 := by decide
  exact ⟨Int.ediv_nonneg hmax hr.step_pos.le, Int.ediv_le_self _ hmax⟩

/-- An axis that fits has the expected number of slots. -/
theorem rangeSteps_eq {r : Range} (hr : r.Valid)
    (hfit : r.last * r.step ≤ maxInt64 ∧ r.last < maxInt64) : rangeSteps r = r.last + 1 := by
  obtain ⟨h0, hlo, hhi⟩ := last_spec hr
  have hdiv : (sub r.stop r.start).tdiv r.step = r.last := by
    rw [sub_tdiv_of_nonneg hr.start_le, Int.ediv_eq_iff_of_pos hr.step_pos]
    constructor
    · exact le_min hfit.1 hlo
    · have := min_le_right maxInt64 (r.stop - r.start)
      linarith
  have hmin : minInt64 ≤ 0 := by decide
  rw [rangeSteps, hdiv, wrapInt64_of_mem (by omega) (by omega)]

/-- Conversely the slot count betrays an axis that does not fit. -/
theorem axis_fits_of_rangeSteps {r : Range} (hr : r.Valid) (h : rangeSteps r = r.last + 1) :
    r.last * r.step ≤ maxInt64 ∧ r.last < maxInt64 := by
  obtain ⟨h0, hlo, -⟩ := last_spec hr
  rw [rangeSteps, sub_tdiv_of_nonneg hr.start_le] at h
  set q := min maxInt64 (r.stop - r.start) / r.step with hq
  have hqm : q ≤ maxInt64 :=
    (Int.ediv_le_ediv hr.step_pos (min_le_left _ _)).trans (maxInt64_div_nonneg hr).2
  have hqn : 0 ≤ q := Int.ediv_nonneg
    (le_min (by decide) (by have := hr.start_le; omega)) hr.step_pos.le
  have hqlast : q = r.last ∧ r.last < maxInt64 := by
    simp only [wrapInt64, maxInt64] at h hqm ⊢
    omega
  refine ⟨?_, hqlast.2⟩
  have hmul := Int.ediv_mul_le (min maxInt64 (r.stop - r.start)) hr.step_pos.ne'
  rw [← hq, hqlast.1] at hmul
  exact hmul.trans (min_le_left _ _)

/-! ## The slot of a sample -/

theorem slotOf_eq_some_iff (r : Range) (steps : Int) (sp : SamplePair) (i : ℕ) :
    slotOf r steps sp = some i ↔
      sp.value.IsFinite ∧ (sub sp.time r.start).tdiv r.step = i ∧ (i : Int) < steps := by
  simp only [slotOf]
  set idx := (sub sp.time r.start).tdiv r.step with hidx
  by_cases hfin : sp.value.IsFinite
  · have hval : (sp.value.isNaN || sp.value.isInf) = false := by
      simpa [ExtRat.isFinite_iff] using hfin
    by_cases hout : idx < 0 ∨ idx ≥ steps
    · rw [if_pos hout]
      simp only [reduceCtorEq, false_iff]
      intro h
      omega
    · rw [if_neg hout, hval]
      simp only [Bool.false_eq_true, if_false, Option.some.injEq]
      constructor
      · intro h
        exact ⟨hfin, by omega, by omega⟩
      · intro h
        omega
  · have hval : (sp.value.isNaN || sp.value.isInf) = true := by
      simpa [ExtRat.not_isFinite_iff] using hfin
    simp only [hfin, false_and, iff_false, hval, if_true, ite_self]
    simp

/-- A whole step before the start the truncated index is still negative. -/
theorem index_neg_of_before {r : Range} (hr : r.Valid) {t : Int} (ht : t ≤ r.start - r.step) :
    (sub t r.start).tdiv r.step < 0 := by
  have hmin : minInt64 ≤ -r.step := by
    have := hr.step_le
    simp only [minInt64, maxInt64] at *
    omega
  have hsub : sub t r.start ≤ -r.step :=
    max_le hmin ((min_le_right _ _).trans (by omega))
  exact tdiv_neg hr.step_pos hsub

/-- From the start on the index names the interval, unless the offset is cut. -/
theorem index_eq_iff_of_from {r : Range} (hr : r.Valid) {t : Int} (ht : r.start ≤ t) {i : ℕ}
    (hfit : (i : Int) * r.step ≤ maxInt64)
    (htail : maxInt64 < i * r.step + r.step → t - r.start < i * r.step + r.step) :
    (sub t r.start).tdiv r.step = i ↔ r.InInterval i t := by
  rw [sub_tdiv_of_nonneg ht, Int.ediv_eq_iff_of_pos hr.step_pos, le_min_iff, min_lt_iff,
    Range.InInterval, add_mul, one_mul]
  constructor
  · rintro ⟨⟨-, hlo⟩, hhi⟩
    omega
  · rintro ⟨hlo, hhi⟩
    exact ⟨⟨hfit, by omega⟩, Or.inr (by omega)⟩

/-- On the axis a slot's name is the name of its interval. -/
theorem slotOf_of_onAxis {r : Range} (hr : r.Valid) {values : List SamplePair}
    (h : OnAxis r values) {sp : SamplePair} (hsp : sp ∈ values) (i : ℕ) :
    slotOf r (rangeSteps r) sp = some i ↔
      sp.value.IsFinite ∧ r.InInterval i sp.time ∧ (i : Int) < r.last + 1 := by
  rw [slotOf_eq_some_iff, rangeSteps_eq hr h.axis_fits]
  refine and_congr_right fun hfin => ?_
  rw [and_congr_left_iff]
  intro hi
  have hstep := hr.step_pos
  have hi0 : (0 : Int) ≤ i * r.step := mul_nonneg (by omega) hstep.le
  have hilast : (i : Int) * r.step ≤ r.last * r.step :=
    mul_le_mul_of_nonneg_right (by omega) hstep.le
  by_cases hneg : sp.time < r.start
  · have hlo : sp.time ≤ r.start - r.step := by
      by_contra hgt
      exact h.none_before sp hsp hfin ⟨by omega, hneg⟩
    have hindex := index_neg_of_before hr hlo
    unfold Range.InInterval
    constructor
    · intro heq
      omega
    · intro hin
      omega
  · refine index_eq_iff_of_from hr (not_lt.mp hneg) (hilast.trans h.axis_fits.1) ?_
    -- only the last interval can reach past the longest duration
    intro hcut
    have hlast : (i : Int) = r.last := by
      by_contra hne
      have hnext : (i + 1) * r.step ≤ r.last * r.step :=
        mul_le_mul_of_nonneg_right (by omega) hstep.le
      have hfits := h.axis_fits.1
      rw [add_mul, one_mul] at hnext
      omega
    rcases h.tail_fits with htf | hbelow
    · rw [add_mul, one_mul, ← hlast] at htf
      omega
    · have hlt := hbelow sp hsp hfin
      rw [add_mul, one_mul, ← hlast] at hlt
      omega

/-! ## The row of a series -/

theorem fillRow_eq_writeAll (r : Range) (steps : Int) (values : List SamplePair) :
    fillRow r steps values =
      writeAll (slotOf r steps) SamplePair.value (List.replicate steps.toNat 0) values := rfl

theorem length_fillRow (r : Range) (steps : Int) (values : List SamplePair) :
    (fillRow r steps values).length = steps.toNat := by
  rw [fillRow_eq_writeAll, length_writeAll, List.length_replicate]

theorem getElem?_fillRow (r : Range) (steps : Int) (values : List SamplePair) {i : ℕ}
    (hi : (i : Int) < steps) :
    (fillRow r steps values)[i]? =
      some ((lastWrite (slotOf r steps) SamplePair.value values i).getD 0) := by
  have hzero : (List.replicate steps.toNat (0 : ExtRat))[i]? = some 0 :=
    List.getElem?_replicate_of_lt (by omega)
  rw [fillRow_eq_writeAll, getElem?_writeAll, hzero, Option.map_some]

/-- On the axis every sample stands where its time puts it. -/
theorem placedOnGrid_fillRow {r : Range} (hr : r.Valid) {values : List SamplePair}
    (h : OnAxis r values) : PlacedOnGrid r values (fillRow r (rangeSteps r) values) := by
  have hsteps := rangeSteps_eq hr h.axis_fits
  have h0 := (last_spec hr).1
  have honly : ∀ sp ∈ values, ∀ i, slotOf r (rangeSteps r) sp = some i →
      r.InInterval i sp.time ∧ (i : Int) < r.last + 1 := by
    intro sp hsp i hslot
    exact ((slotOf_of_onAxis hr h hsp i).mp hslot).2
  constructor
  case length =>
    rw [length_fillRow, hsteps]
    omega
  case only => exact honly
  case outside =>
    intro pre sp post hvalues hout
    have hnone : slotOf r (rangeSteps r) sp = none := by
      rw [Option.eq_none_iff_forall_ne_some]
      intro i hslot
      obtain ⟨⟨hlo, hhi⟩, hi⟩ := honly sp (by simp [hvalues]) i hslot
      have hi0 : (0 : Int) ≤ i * r.step := mul_nonneg (by omega) hr.step_pos.le
      have htop : (i + 1) * r.step ≤ (r.last + 1) * r.step :=
        mul_le_mul_of_nonneg_right (by omega) hr.step_pos.le
      omega
    rw [hvalues, fillRow_eq_writeAll, fillRow_eq_writeAll, writeAll_skip _ _ _ _ _ _ hnone]
  case shared =>
    intro sp hsp sp' hsp' i hslot hslot'
    have hquot : ∀ t, r.InInterval i t → (t - r.start) / r.step = i := by
      intro t ht
      unfold Range.InInterval at ht
      rw [add_mul, one_mul] at ht
      rw [Int.ediv_eq_iff_of_pos hr.step_pos]
      omega
    rw [hquot _ (honly sp hsp i hslot).1, hquot _ (honly sp' hsp' i hslot').1]
  case slot =>
    intro i hi
    rw [getElem?_fillRow r _ values (by omega)]
    have hfilter : values.filter (fun sp => slotOf r (rangeSteps r) sp = some i) =
        values.filter (fun sp => sp.value.IsFinite ∧ r.InInterval i sp.time) := by
      apply List.filter_congr
      intro sp hsp
      have := slotOf_of_onAxis hr h hsp i
      simp only [this, hi, and_true]
    rw [lastWrite, hfilter, intervalValue]

/-- A row that is placed rightly betrays that nothing strayed. -/
theorem onAxis_of_placedOnGrid {r : Range} (hr : r.Valid) {values : List SamplePair}
    (h : PlacedOnGrid r values (fillRow r (rangeSteps r) values)) : OnAxis r values := by
  obtain ⟨h0, hlo, hhi⟩ := last_spec hr
  have hsteps : rangeSteps r = r.last + 1 := by
    have hlen := h.length
    rw [length_fillRow] at hlen
    omega
  have hfit := axis_fits_of_rangeSteps hr hsteps
  have hstray : ∀ sp ∈ values, sp.value.IsFinite → ∀ i : ℕ, (i : Int) < r.last + 1 →
      (sub sp.time r.start).tdiv r.step = i → r.InInterval i sp.time := by
    intro sp hsp hfin i hi hidx
    refine (h.only sp hsp i ?_).1
    rw [slotOf_eq_some_iff, hsteps]
    exact ⟨hfin, hidx, hi⟩
  constructor
  case none_before =>
    rintro sp hsp hfin ⟨hgt, hlt⟩
    have hsub : sub sp.time r.start = sp.time - r.start := by
      have := hr.step_le
      apply sub_of_mem
      · simp only [minInt64, maxInt64] at *
        omega
      · simp only [maxInt64] at *
        omega
    have hzero : (sub sp.time r.start).tdiv r.step = (0 : ℕ) := by
      rw [hsub, tdiv_eq_zero_of_neg (by omega) (by omega), Nat.cast_zero]
    have hin := (hstray sp hsp hfin 0 (by omega) hzero).1
    simp only [Nat.cast_zero, zero_mul, add_zero] at hin
    omega
  case axis_fits => exact hfit
  case tail_fits =>
    by_contra hboth
    push Not at hboth
    obtain ⟨hlong, sp, hsp, hfin, hafter⟩ := hboth
    have hle : r.start ≤ sp.time := by
      have : 0 ≤ (r.last + 1) * r.step := mul_nonneg (by omega) hr.step_pos.le
      omega
    have hmin : min maxInt64 (sp.time - r.start) = maxInt64 := min_eq_left (by omega)
    have hidx : (sub sp.time r.start).tdiv r.step = (r.last.toNat : ℕ) := by
      rw [sub_tdiv_of_nonneg hle, hmin, Int.ediv_eq_iff_of_pos hr.step_pos,
        Int.toNat_of_nonneg h0]
      rw [add_mul, one_mul] at hlong
      exact ⟨hfit.1, hlong⟩
    have hin := (hstray sp hsp hfin r.last.toNat (by omega) hidx).2
    rw [Int.toNat_of_nonneg h0] at hin
    omega

/-! ## The rows of a matrix -/

/-- A label value keeps the row of its last series. -/
theorem get?_foldl_storeSeries (label : String) (r : Range) (steps : Int)
    (mat : List SampleStream) (k : String) :
    (mat.foldl (storeSeries label r steps) OrderedMap.empty).get? k =
      (lastSeries label k mat).map (fun s => fillRow r steps s.values) := by
  rw [storeSeries_eq_store, OrderedMap.get?_foldl_store, OrderedMap.get?_empty, Option.or_none,
    lastSeries]

/-- A series is ignored when a later one has the same label value. -/
theorem get?_storeSeries_superseded (label : String) (r : Range) (steps : Int)
    (pre post : List SampleStream) (old : SampleStream) {k : String}
    (hold : old.metric.get? label = some k)
    (hnew : ∃ s ∈ post, s.metric.get? label = some k) (x : String) :
    ((pre ++ old :: post).foldl (storeSeries label r steps) OrderedMap.empty).get? x =
      ((pre ++ post).foldl (storeSeries label r steps) OrderedMap.empty).get? x := by
  rw [get?_foldl_storeSeries, get?_foldl_storeSeries]
  suffices h : lastSeries label x (pre ++ old :: post) = lastSeries label x (pre ++ post) by
    rw [h]
  simp only [lastSeries, List.filter_append, List.filter_cons, hold]
  by_cases hx : k = x
  · obtain ⟨s, hs, hsk⟩ := hnew
    have hne : post.filter (fun s => s.metric.get? label = some x) ≠ [] := by
      rw [← hx]
      exact List.ne_nil_of_mem (List.mem_filter.mpr ⟨hs, by simpa using hsk⟩)
    obtain ⟨t, ts, hts⟩ := List.exists_cons_of_ne_nil hne
    simp [hx, hts, List.getLast?_append]
  · simp [hx]

/-- What a successful range query returns for a matrix. -/
theorem queryRangeByLabel_eq_ok_iff {api : Api} {q label : String} {r : Range}
    {mat : List SampleStream} (hr : r.Valid) (hans : api.queryRange q r = .ok (.matrix mat))
    (out : List Int × OrderedMap String (List ExtRat)) :
    queryRangeByLabel ⟨some api⟩ q label r = .ok out ↔
      0 ≤ rangeSteps r ∧
        out = ((List.range (rangeSteps r).toNat).map
            (fun (i : ℕ) => unix (r.start + wrapInt64 (i * r.step))),
          mat.foldl (storeSeries label r (rangeSteps r)) OrderedMap.empty) := by
  have hstep : ¬ r.step = 0 := hr.step_pos.ne'
  simp only [queryRangeByLabel, Client.queryRange, hans, hstep, if_false]
  by_cases hneg : rangeSteps r < 0
  · simp [hneg]
  · simp [hneg, not_lt.mp hneg, eq_comm]

/-- The row of a label value is laid out on the axis exactly when the series that
carries it has no finite sample in the step before the start and the axis fits
a duration. -/
theorem queryRangeByLabel_placed_iff {api : Api} {q label k : String} {r : Range}
    {mat : List SampleStream} {series : SampleStream} (hr : r.Valid)
    (hans : api.queryRange q r = .ok (.matrix mat))
    (hseries : lastSeries label k mat = some series) :
    (∃ timestamps out row, queryRangeByLabel ⟨some api⟩ q label r = .ok (timestamps, out) ∧
      out.get? k = some row ∧ PlacedOnGrid r series.values row) ↔ OnAxis r series.values := by
  have hrow : (mat.foldl (storeSeries label r (rangeSteps r)) OrderedMap.empty).get? k =
      some (fillRow r (rangeSteps r) series.values) := by
    rw [get?_foldl_storeSeries, hseries, Option.map_some]
  constructor
  · rintro ⟨timestamps, out, row, hquery, hget, hplaced⟩
    obtain ⟨-, heq⟩ := (queryRangeByLabel_eq_ok_iff hr hans _).mp hquery
    rw [Prod.mk.injEq] at heq
    rw [heq.2, hrow] at hget
    rw [← Option.some.inj hget] at hplaced
    exact onAxis_of_placedOnGrid hr hplaced
  · intro haxis
    have hsteps := rangeSteps_eq hr haxis.axis_fits
    have h0 := (last_spec hr).1
    exact ⟨_, _, _, (queryRangeByLabel_eq_ok_iff hr hans _).mpr ⟨by omega, rfl⟩, hrow,
      placedOnGrid_fillRow hr haxis⟩

/-- One minute in steps of half a minute, beginning at the Unix epoch. -/
def sampleRange : Range := ⟨ofUnixMilli 0, ofUnixMilli 60000, 30 * second⟩

def sampleSeries (values : List SamplePair) : SampleStream :=
  ⟨OrderedMap.empty.set "action_kind" "idle", values⟩

def sampleApi (values : List SamplePair) : Api where
  query _ _ := .error ""
  queryRange _ _ := .ok (.matrix [sampleSeries values])

def sampleValues : List SamplePair := [⟨0, 1⟩, ⟨45000, .fin 2⟩, ⟨59999, .nan⟩]

theorem sampleRange_valid : sampleRange.Valid := ⟨by decide, by decide, by decide⟩

theorem queryRangeByLabel_placed_minute :
    ∃ timestamps out row,
      queryRangeByLabel ⟨some (sampleApi sampleValues)⟩ "q" "action_kind" sampleRange =
        .ok (timestamps, out) ∧
      out.get? "idle" = some row ∧ PlacedOnGrid sampleRange sampleValues row := by
  have hseries : lastSeries "action_kind" "idle" [sampleSeries sampleValues] =
      some (sampleSeries sampleValues) := by decide
  have haxis : OnAxis sampleRange sampleValues := ⟨by decide, by decide, by decide⟩
  exact (queryRangeByLabel_placed_iff sampleRange_valid rfl hseries).mpr haxis

/-- A sample taken one millisecond before the start is stored in slot 0. -/
theorem sample_before_start_placed :
    ¬ ∀ (api : Api) (q label k : String) (r : Range) (mat : List SampleStream)
      (series : SampleStream), r.Valid → api.queryRange q r = .ok (.matrix mat) →
      lastSeries label k mat = some series →
      ∃ timestamps out row, queryRangeByLabel ⟨some api⟩ q label r = .ok (timestamps, out) ∧
        out.get? k = some row ∧ PlacedOnGrid r series.values row := by
  intro h
  obtain ⟨timestamps, out, row, hquery, hget, hplaced⟩ :=
    h (sampleApi [⟨-1, 1⟩]) "q" "action_kind" "idle" sampleRange _ _ sampleRange_valid rfl rfl
  have hslot : slotOf sampleRange (rangeSteps sampleRange) ⟨-1, 1⟩ = some 0 := by decide
  have hin := (hplaced.only ⟨-1, 1⟩ (List.mem_singleton_self _) 0 hslot).1
  exact absurd hin (by decide)

end BigfleetDashboard.PromClient
