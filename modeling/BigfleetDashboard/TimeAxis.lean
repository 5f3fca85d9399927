import BigfleetDashboard.TrendAlignment

/-!
# The time axis of a chart

A chart is drawn over the Unix seconds of its points. The points are a step apart, but
each is rounded down to a second, so the ticks are a step apart only when the step is a
whole number of seconds.
-/
namespace BigfleetDashboard.PromClient
open Go

/-- The instant of a count of seconds since the Unix epoch. -/
def ofUnix (s : Int) : Int := (s + unixToInternal) * second

/-- The ticks of the points of a range. -/
def axis (r : Range) : List Int := (List.range (r.last + 1).toNat).map (fun i => unix (r.point i))

/-- No two slots share a tick, none is past the end, and neighbours are a step apart. -/
structure RealAxis (r : Range) (timestamps : List Int) : Prop where
  ascending : timestamps.Pairwise (· < ·)
  last_le : ∀ t ∈ timestamps.getLast?, ofUnix t ≤ r.stop
  spaced : ∀ (i : ℕ) (t u : Int), timestamps[i]? = some t → timestamps[i + 1]? = some u →
    (u - t) * second = r.step

theorem ofUnix_unix_le (t : Int) : ofUnix (unix t) ≤ t := by
  simp only [ofUnix, unix, sub_add_cancel]
  exact Int.ediv_mul_le t (by decide)

theorem getElem?_axis {r : Range} {i : ℕ} {t : Int} :
    (axis r)[i]? = some t ↔ (i : Int) < r.last + 1 ∧ unix (r.point i) = t := by
  rw [axis, List.getElem?_map, Option.map_eq_some_iff]
  simp only [List.getElem?_eq_some_iff, List.length_range, List.getElem_range]
  constructor
  · intro h
    obtain ⟨j, ⟨hi, rfl⟩, ht⟩ := h
    exact ⟨by omega, ht⟩
  · intro h
    obtain ⟨hi, ht⟩ := h
    exact ⟨i, ⟨by omega, rfl⟩, ht⟩

/-- Whole seconds between the points are kept by rounding. -/
theorem unix_point {r : Range} {k : Int} (hk : r.step = second * k) (i : ℕ) :
    unix (r.point i) = unix r.start + i * k := by
  have hpoint : r.point i = r.start + second * (i * k) := by
    rw [Range.point, hk]
    ring
  rw [unix, unix, hpoint, Int.add_mul_ediv_left _ _ (by decide)]
  ring

/-- Points that are at least a second apart have ticks of their own. -/
theorem axis_ascending {r : Range} (h : second ≤ r.step) : (axis r).Pairwise (· < ·) := by
  rw [axis, List.pairwise_map]
  refine List.pairwise_lt_range.imp ?_
  intro i j hij
  have hnext : r.point i + second ≤ r.point j := by
    have hmul : ((i : Int) + 1) * r.step ≤ j * r.step :=
      mul_le_mul_of_nonneg_right (by omega) ((by decide : (0 : Int) ≤ second).trans h)
    rw [Range.point, Range.point]
    linarith
  simp only [unix, second, millisecond] at *
  omega

theorem axis_last_le {r : Range} (hr : r.Valid) {t : Int} (ht : t ∈ (axis r).getLast?) :
    ofUnix t ≤ r.stop := by
  obtain ⟨i, hi, rfl⟩ := List.mem_map.mp (List.mem_of_getLast? ht)
  have hlast : r.point i ≤ r.stop := (point_le_stop_iff hr i).mpr (by
    have := List.mem_range.mp hi
    omega)
  exact (ofUnix_unix_le _).trans hlast

theorem realAxis_axis_iff {r : Range} (hr : r.Valid) :
    RealAxis r (axis r) ↔ second ∣ r.step ∨ r.last = 0 := by
  have hlast := (last_spec hr).1
  constructor
  · intro haxis
    by_cases hzero : r.last = 0
    · exact Or.inr hzero
    · have hfirst : (axis r)[0]? = some (unix (r.point 0)) := getElem?_axis.mpr ⟨by omega, rfl⟩
      have hsecond : (axis r)[1]? = some (unix (r.point 1)) := getElem?_axis.mpr ⟨by omega, rfl⟩
      exact Or.inl (Dvd.intro_left _ (haxis.spaced 0 _ _ hfirst hsecond))
  · intro h
    constructor
    case ascending =>
      rcases h with ⟨k, hk⟩ | hzero
      · have hpos := hr.step_pos
        refine axis_ascending ?_
        simp only [second, millisecond] at *
        omega
      · have hone : axis r = [unix (r.point 0)] := by
          rw [axis, hzero]
          rfl
        rw [hone]
        exact List.pairwise_singleton _ _
    case last_le =>
      intro t ht
      exact axis_last_le hr ht
    case spaced =>
      intro i t u ht hu
      obtain ⟨-, rfl⟩ := getElem?_axis.mp ht
      obtain ⟨hi, rfl⟩ := getElem?_axis.mp hu
      rcases h with ⟨k, hk⟩ | hzero
      · rw [unix_point hk, unix_point hk, hk]
        push_cast
        ring
      · omega

end BigfleetDashboard.PromClient

namespace BigfleetDashboard.Handlers
open Go PromClient

section Series
variable {rt : Runtime} {req : Request}

theorem seriesRange_valid (rt : Runtime) (req : Request) (now : Int) :
    (seriesRange rt req now).Valid ∧
      (seriesRange rt req now).stop - (seriesRange rt req now).start ≤ 24 * hour := by
  have hdur := durationParam_mem rt req
  have hstep := stepParam_mem rt req
  simp only [seriesRange]
  refine ⟨⟨hstep.1, hstep.2.trans (by decide), ?_⟩, ?_⟩
  · show truncate now (stepParam rt req) - durationParam rt req ≤ truncate now (stepParam rt req)
    omega
  · omega

/-- The returned axis has no overflow. -/
theorem timestamps_eq_axis {c : PromClient.Client} {q label : String} {now : Int}
    {timestamps : List Int} {rows : OrderedMap String (List ExtRat)}
    (h : queryRangeByLabel c q label (seriesRange rt req now) = .ok (timestamps, rows)) :
    timestamps = axis (seriesRange rt req now) := by
  obtain ⟨hr, hspan⟩ := seriesRange_valid rt req now
  generalize seriesRange rt req now = r at *
  obtain ⟨hlast, hlo, -⟩ := last_spec hr
  have hle : r.last ≤ r.last * r.step := le_mul_of_one_le_right hlast hr.step_pos
  have hday : 24 * hour < maxInt64 := by decide
  have hsteps : rangeSteps r = r.last + 1 := rangeSteps_eq hr ⟨by omega, by omega⟩
  cases c with
  | mk api =>
    cases api with
    | none => cases h
    | some api =>
      cases hans : api.queryRange q r with
      | error err => simp [queryRangeByLabel, PromClient.Client.queryRange, hans] at h
      | ok v =>
        cases v with
        | matrix mat =>
          obtain ⟨-, hout⟩ := (queryRangeByLabel_eq_ok_iff hr hans _).mp h
          rw [(Prod.mk.inj hout).1, axis, hsteps]
          refine List.map_congr_left ?_
          intro i hi
          have hi' : (i : Int) ≤ r.last := by
            have := List.mem_range.mp hi
            omega
          have hpos : (0 : Int) ≤ i * r.step := mul_nonneg (by omega) hr.step_pos.le
          have hfit : (i : Int) * r.step ≤ r.last * r.step :=
            mul_le_mul_of_nonneg_right hi' hr.step_pos.le
          have hmin : minInt64 ≤ 0 := by decide
          rw [wrapInt64_of_mem (by omega) (by omega), Range.point]
        | scalar x => simp [queryRangeByLabel, PromClient.Client.queryRange, hans] at h
        | vector xs => simp [queryRangeByLabel, PromClient.Client.queryRange, hans] at h
        | string s => simp [queryRangeByLabel, PromClient.Client.queryRange, hans] at h

theorem last_seriesRange (rt : Runtime) (req : Request) (now : Int) :
    (seriesRange rt req now).last = durationParam rt req / stepParam rt req := by
  simp only [Range.last, seriesRange, sub_sub_cancel]

/-- A chart has a real axis when its step is a whole number of seconds, and when it has a
single slot. -/
theorem timeAxis_real_iff {c : PromClient.Client} {q label : String} {now : Int}
    {timestamps : List Int} {rows : OrderedMap String (List ExtRat)}
    (h : queryRangeByLabel c q label (seriesRange rt req now) = .ok (timestamps, rows)) :
    RealAxis (seriesRange rt req now) timestamps ↔
      second ∣ stepParam rt req ∨ durationParam rt req < stepParam rt req := by
  have hdur := durationParam_mem rt req
  have hstep_pos := (stepParam_mem rt req).1
  have hr := (seriesRange_valid rt req now).1
  have hstep : (seriesRange rt req now).step = stepParam rt req := rfl
  rw [timestamps_eq_axis h, realAxis_axis_iff hr, last_seriesRange, hstep]
  refine or_congr_right ?_
  rw [Int.ediv_eq_iff_of_pos hstep_pos]
  omega

end Series

def spanRequest (duration step : String) : Request :=
  ⟨fun name => if name = "duration" then duration else if name = "step" then step else "", fun _ => ""⟩

/-- The readings of three texts. -/
def spanRuntime : Runtime :=
  { Runtime.plain with
    parseDuration := fun s =>
      if s = "2s" then some (2 * second)
      else if s = "1s" then some second
      else if s = "500ms" then some (500 * millisecond)
      else none }

def emptyApi : Api where
  query _ _ := .ok (.vector [])
  queryRange _ _ := .ok (.matrix [])

def spanClient : PromClient.Client := ⟨some emptyApi⟩

def spanNow : Int := ofUnixMilli 1753000000250

theorem timeAxis_real_seconds :
    RealAxis (seriesRange spanRuntime (spanRequest "2s" "1s") spanNow)
        [1752999998, 1752999999, 1753000000] ↔
      second ∣ stepParam spanRuntime (spanRequest "2s" "1s") ∨
        durationParam spanRuntime (spanRequest "2s" "1s") <
          stepParam spanRuntime (spanRequest "2s" "1s") := by
  have hquery : queryRangeByLabel spanClient queryActionsByKindRate "kind"
      (seriesRange spanRuntime (spanRequest "2s" "1s") spanNow) =
        .ok ([1752999998, 1752999999, 1753000000], OrderedMap.empty) := rfl
  exact timeAxis_real_iff hquery

/-- Half a second between the points gives two slots the same tick. -/
theorem timeAxis_not_real :
    ¬ ∀ (rt : Runtime) (req : Request) (c : PromClient.Client) (q label : String) (now : Int)
      (timestamps : List Int) (rows : OrderedMap String (List ExtRat)),
      queryRangeByLabel c q label (seriesRange rt req now) = .ok (timestamps, rows) →
        RealAxis (seriesRange rt req now) timestamps := by
  intro h
  have haxis := h spanRuntime (spanRequest "2s" "500ms") spanClient queryActionsByKindRate "kind"
    spanNow _ _ rfl
  have hascending : [1752999998, 1752999998, 1752999999, 1752999999, 1753000000].Pairwise
      (fun t u : Int => t < u) := haxis.ascending
  revert hascending
  decide

end BigfleetDashboard.Handlers
