import BigfleetDashboard.PromHandlers
import BigfleetDashboard.SamplePlacement
import Mathlib.Data.Set.Card

/-!
# The trend charts show what Prometheus evaluated

Prometheus evaluates a range query at `start`, `start + step`, and so on up to
the end of the range, and stamps each value with the time of its point, rounded
to the millisecond. When the duration and the step are whole milliseconds no
stamp is off its point, and slot `i` of a chart is the value of point `i`.
-/
namespace BigfleetDashboard.PromClient
open Go

/-! ## What Prometheus evaluates -/

/-- Evaluation point `i`. -/
def Range.point (r : Range) (i : ℕ) : Int := r.start + i * r.step

/-- The points up to and including the last one before the end. -/
def Range.points (r : Range) : Set Int := {p | ∃ i : ℕ, p = r.point i ∧ p ≤ r.stop}

/-- A series of an answer: at most one sample for each point, stamped to the
nearest millisecond. -/
structure EvaluatedSeries (r : Range) where
  metric : Metric
  samples : OrderedMap ℕ SamplePair
  on_grid : ∀ e ∈ samples.entries, r.point e.1 ≤ r.stop
  stamped : ∀ e ∈ samples.entries, 2 * |e.2.time - r.point e.1| ≤ millisecond

/-- An answer: at most one series for each value of the grouping label. -/
structure EvaluatedMatrix (r : Range) (label : String) where
  series : List (EvaluatedSeries r)
  one_per_label : (series.filterMap (fun s => s.metric.get? label)).Nodup

namespace EvaluatedSeries
variable {r : Range}

def toStream (s : EvaluatedSeries r) : SampleStream := ⟨s.metric, s.samples.values⟩

def valueAt (s : EvaluatedSeries r) (i : ℕ) : Option ExtRat :=
  (s.samples.get? i).map SamplePair.value

end EvaluatedSeries

namespace EvaluatedMatrix
variable {r : Range} {label : String}

def toValue (m : EvaluatedMatrix r label) : Value :=
  .matrix (m.series.map EvaluatedSeries.toStream)

/-- The series of a label value. -/
def seriesOf (m : EvaluatedMatrix r label) (k : String) : Option (EvaluatedSeries r) :=
  m.series.find? (fun s => s.metric.get? label = some k)

/-- The value of a label value at a point, if Prometheus returned one. -/
def valueAt (m : EvaluatedMatrix r label) (k : String) (i : ℕ) : Option ExtRat :=
  (m.seriesOf k).bind (fun s => s.valueAt i)

end EvaluatedMatrix

/-- What a chart draws for a value: nothing that is missing or not finite. -/
def slotValue : Option ExtRat → ExtRat
  | some v => if v.IsFinite then v else 0
  | none => 0

/-- The row of label value `k`, if there is one, shows the evaluation of its series. -/
structure AlignedRow {r : Range} {label : String} (m : EvaluatedMatrix r label)
    (timestamps : List Int) (k : String) (row : Option (List ExtRat)) : Prop where
  present : row.isSome ↔ (m.seriesOf k).isSome
  length : ∀ xs, row = some xs → xs.length = timestamps.length
  slot : ∀ xs, row = some xs → ∀ i, r.point i ≤ r.stop → xs[i]? = some (slotValue (m.valueAt k i))

/-- The ranges the handlers ask for, on whole milliseconds. -/
structure Range.OnMillis (r : Range) : Prop where
  step_pos : 0 < r.step
  step_le : r.step ≤ hour
  start_le : r.start ≤ r.stop
  span_le : r.stop - r.start ≤ 24 * hour
  start_dvd : millisecond ∣ r.start
  step_dvd : millisecond ∣ r.step

theorem Range.OnMillis.valid {r : Range} (h : r.OnMillis) : r.Valid :=
  ⟨h.step_pos, h.step_le.trans (by decide), h.start_le⟩

/-! ## The evaluation points are the slots -/

theorem point_le_stop_iff {r : Range} (hr : r.Valid) (i : ℕ) :
    r.point i ≤ r.stop ↔ (i : Int) < r.last + 1 := by
  rw [Int.lt_add_one_iff, Range.last, Int.le_ediv_iff_mul_le hr.step_pos, Range.point]
  omega

/-- There are as many points as slots. -/
theorem ncard_points {r : Range} (hr : r.Valid) : (r.points.ncard : Int) = r.last + 1 := by
  have h0 := (last_spec hr).1
  have hinj : Function.Injective r.point := by
    intro i j hij
    have hmul : (i : Int) * r.step = j * r.step := by
      simp only [Range.point] at hij
      omega
    exact Int.ofNat_inj.mp (mul_right_cancel₀ hr.step_pos.ne' hmul)
  have himage : r.points = r.point '' (Finset.range (r.last + 1).toNat : Set ℕ) := by
    ext p
    simp only [Range.points, Set.mem_ofPred_eq, Set.mem_image, Finset.coe_range, Set.mem_Iio]
    constructor
    · rintro ⟨i, rfl, hle⟩
      have := (point_le_stop_iff hr i).mp hle
      exact ⟨i, by omega, rfl⟩
    · rintro ⟨i, hi, rfl⟩
      exact ⟨i, rfl, (point_le_stop_iff hr i).mpr (by omega)⟩
  rw [himage, Set.ncard_image_of_injective _ hinj, Set.ncard_coe_finset, Finset.card_range]
  omega

/-- On whole milliseconds rounding is exact. -/
theorem eq_of_stamped {t p : Int} (ht : millisecond ∣ t) (hp : millisecond ∣ p)
    (h : 2 * |t - p| ≤ millisecond) : t = p := by
  obtain ⟨a, rfl⟩ := ht
  obtain ⟨b, rfl⟩ := hp
  have habs : |millisecond * a - millisecond * b| ≤ 500000 := by
    simp only [millisecond] at *
    omega
  rw [abs_le] at habs
  simp only [millisecond] at *
  omega

theorem time_dvd (sp : SamplePair) : millisecond ∣ sp.time := by
  have hepoch : millisecond ∣ unixToInternal * second := ⟨unixToInternal * 1000, by decide⟩
  exact Int.dvd_add (Dvd.intro_left _ rfl) hepoch

theorem point_dvd {r : Range} (hr : r.OnMillis) (i : ℕ) : millisecond ∣ r.point i :=
  Int.dvd_add hr.start_dvd (hr.step_dvd.mul_left _)

namespace EvaluatedSeries
variable {r : Range}

theorem time_eq (hr : r.OnMillis) (s : EvaluatedSeries r) {e : ℕ × SamplePair}
    (he : e ∈ s.samples.entries) : e.2.time = r.point e.1 :=
  eq_of_stamped (time_dvd e.2) (point_dvd hr e.1) (s.stamped e he)

theorem onAxis (hr : r.OnMillis) (s : EvaluatedSeries r) : OnAxis r s.samples.values := by
  obtain ⟨h0, hlo, -⟩ := last_spec hr.valid
  have hspan := hr.span_le
  have hstep := hr.step_le
  have hday : 24 * hour + hour < maxInt64 := by decide
  have hhour : 0 < hour := by decide
  have hlast : r.last ≤ r.last * r.step := le_mul_of_one_le_right h0 hr.step_pos
  constructor
  case none_before =>
    rintro sp hsp - ⟨-, hlt⟩
    obtain ⟨e, he, rfl⟩ := List.mem_map.mp hsp
    have hnn : 0 ≤ (e.1 : Int) * r.step := mul_nonneg (by omega) hr.step_pos.le
    rw [s.time_eq hr he, Range.point] at hlt
    omega
  case axis_fits => omega
  case tail_fits =>
    left
    rw [add_mul, one_mul]
    omega

/-- Each slot of the axis holds the value of its point. -/
theorem intervalValue_eq (hr : r.OnMillis) (s : EvaluatedSeries r) (i : ℕ) :
    intervalValue r s.samples.values i = slotValue (s.valueAt i) := by
  have hslot : ∀ e ∈ s.samples.entries, (r.InInterval i e.2.time ↔ e.1 = i) := by
    intro e he
    rw [s.time_eq hr he]
    simp only [Range.InInterval, Range.point]
    have hstep := hr.step_pos
    constructor
    · rintro ⟨hlo, hhi⟩
      have h1 : (i : Int) ≤ e.1 := le_of_mul_le_mul_right (by omega) hstep
      have h2 : (e.1 : Int) < i + 1 := lt_of_mul_lt_mul_right (by omega) hstep.le
      omega
    · intro h
      rw [h, add_mul, one_mul]
      omega
  have hfilter : s.samples.values.filter (fun sp => sp.value.IsFinite ∧ r.InInterval i sp.time) =
      (s.samples.get? i).toList.filter (fun sp => sp.value.IsFinite) := by
    rw [OrderedMap.values, List.filter_map]
    have hcongr : s.samples.entries.filter
        ((fun sp => decide (sp.value.IsFinite ∧ r.InInterval i sp.time)) ∘ Prod.snd) =
        (s.samples.entries.filter (fun e => e.1 = i)).filter (fun e => e.2.value.IsFinite) := by
      rw [List.filter_filter]
      apply List.filter_congr
      intro e he
      simp [hslot e he]
    rw [hcongr, OrderedMap.filter_entries_key]
    cases s.samples.get? i with
    | none => rfl
    | some sp => by_cases hfin : sp.value.IsFinite <;> simp [hfin]
  rw [intervalValue, hfilter, valueAt]
  cases s.samples.get? i with
  | none => rfl
  | some sp => by_cases hfin : sp.value.IsFinite <;> simp [hfin, slotValue]

end EvaluatedSeries

/-! ## The range query -/

/-- With one series for each label value the last series is the only one. -/
theorem EvaluatedMatrix.lastSeries_eq {r : Range} {label : String} (m : EvaluatedMatrix r label)
    (k : String) : lastSeries label k (m.series.map EvaluatedSeries.toStream) =
      (m.seriesOf k).map EvaluatedSeries.toStream := by
  rcases m with ⟨series, hone⟩
  simp only [lastSeries, EvaluatedMatrix.seriesOf]
  induction series with
  | nil => rfl
  | cons s series ih =>
    have hlabel : s.toStream.metric = s.metric := rfl
    cases hs : s.metric.get? label with
    | none =>
      simp only [List.filterMap_cons, hs] at hone
      simpa [hlabel, hs] using ih hone
    | some x =>
      simp only [List.filterMap_cons, hs, List.nodup_cons] at hone
      by_cases hx : x = k
      · have hrest : (series.map EvaluatedSeries.toStream).filter
            (fun s => s.metric.get? label = some k) = [] := by
          apply List.filter_eq_nil_iff.mpr
          intro t ht
          obtain ⟨u, hu, rfl⟩ := List.mem_map.mp ht
          have hne : u.toStream.metric.get? label ≠ some k := fun h =>
            hone.1 (List.mem_filterMap.mpr ⟨u, hu, h.trans (by rw [hx])⟩)
          simpa using hne
        simp [hlabel, hs, hx, hrest]
      · simpa [hlabel, hs, hx] using ih hone.2

theorem AlignedRow.of_length {r : Range} {label k : String} {m : EvaluatedMatrix r label}
    {timestamps timestamps' : List Int} {row : Option (List ExtRat)}
    (h : AlignedRow m timestamps k row) (hlen : timestamps.length = timestamps'.length) :
    AlignedRow m timestamps' k row :=
  ⟨h.present, fun xs hxs => (h.length xs hxs).trans hlen, h.slot⟩

/-- A range query on whole milliseconds returns what Prometheus evaluated. -/
theorem queryRangeByLabel_evaluated {api : Api} {q label : String} {r : Range} (hr : r.OnMillis)
    (m : EvaluatedMatrix r label) (hans : api.queryRange q r = .ok m.toValue) :
    ∃ timestamps out, queryRangeByLabel ⟨some api⟩ q label r = .ok (timestamps, out) ∧
      r.points.ncard = timestamps.length ∧ ∀ k, AlignedRow m timestamps k (out.get? k) := by
  obtain ⟨h0, hlo, -⟩ := last_spec hr.valid
  have hlast : r.last ≤ r.last * r.step := le_mul_of_one_le_right h0 hr.step_pos
  have hday : 24 * hour < maxInt64 := by decide
  have hspan := hr.span_le
  have hsteps : rangeSteps r = r.last + 1 := rangeSteps_eq hr.valid ⟨by omega, by omega⟩
  refine ⟨_, _, (queryRangeByLabel_eq_ok_iff hr.valid hans _).mpr ⟨by omega, rfl⟩, ?_, ?_⟩
  · have := ncard_points hr.valid
    rw [List.length_map, List.length_range, hsteps]
    omega
  · intro k
    rw [get?_foldl_storeSeries, m.lastSeries_eq, Option.map_map]
    constructor
    case present => simp
    case length =>
      intro xs hxs
      obtain ⟨s, -, rfl⟩ := Option.map_eq_some_iff.mp hxs
      rw [Function.comp_apply, length_fillRow, List.length_map, List.length_range]
    case slot =>
      intro xs hxs i hi
      obtain ⟨s, hs, rfl⟩ := Option.map_eq_some_iff.mp hxs
      have hplaced := (placedOnGrid_fillRow hr.valid (s.onAxis hr)).slot i
        ((point_le_stop_iff hr.valid i).mp hi)
      rw [Function.comp_apply, EvaluatedSeries.toStream, hplaced, s.intervalValue_eq hr,
        EvaluatedMatrix.valueAt, hs, Option.bind_some]

end BigfleetDashboard.PromClient

namespace BigfleetDashboard.Handlers
open Go PromClient

/-! ## The handlers -/

/-- The row the page draws for a kind. -/
def FleetActionsSeries.row (b : FleetActionsSeries) (kind : String) : Option (List ExtRat) :=
  ((b.kinds.zip b.values).find? (fun e => e.1 = kind)).map Prod.snd

theorem seriesRange_onMillis {rt : Runtime} {req : Request}
    (hd : millisecond ∣ durationParam rt req) (hs : millisecond ∣ stepParam rt req) (now : Int) :
    (seriesRange rt req now).OnMillis := by
  have hdur := durationParam_mem rt req
  have hstep := stepParam_mem rt req
  have htrunc := (truncate_spec now hstep.1).2.2
  constructor
  case step_pos => exact hstep.1
  case step_le => exact hstep.2
  case start_le =>
    simp only [seriesRange]
    omega
  case span_le =>
    simp only [seriesRange]
    omega
  case start_dvd => exact Int.dvd_sub (hs.trans htrunc) hd
  case step_dvd => exact hs

theorem seriesRange_stop (rt : Runtime) (req : Request) (now : Int) :
    (seriesRange rt req now).stop ≤ now ∧
      now < (seriesRange rt req now).stop + (seriesRange rt req now).step := by
  have hstep := stepParam_mem rt req
  have htrunc := truncate_spec now hstep.1
  exact ⟨htrunc.1, htrunc.2.1⟩

/-- A column read off under its key. -/
theorem find?_zip_map (f : String → List ExtRat) (kinds : List String) (k : String) :
    ((kinds.zip (kinds.map f)).find? (fun e => e.1 = k)).map Prod.snd =
      if k ∈ kinds then some (f k) else none := by
  induction kinds with
  | nil => rfl
  | cons x kinds ih =>
    rw [List.map_cons, List.zip_cons_cons, List.find?_cons]
    by_cases hx : x = k
    · simp [hx]
    · simpa [hx, Ne.symm hx] using ih

/-- Reading a map in the order of its sorted keys loses no entry. -/
theorem row_sortedKeys (rt : Runtime) (timestamps : List Int)
    (series : OrderedMap String (List ExtRat)) (k : String) :
    let kinds := sortStrings ((rt.entries 0 series).map Prod.fst)
    FleetActionsSeries.row ⟨timestamps, kinds, kinds.map (fun k => series.getD k [])⟩ k =
      series.get? k := by
  intro kinds
  have hkeys : k ∈ kinds ↔ k ∈ series.keys :=
    ((sortStrings_perm _).trans ((rt.mapOrder_perm 0 series.entries).map Prod.fst)).mem_iff
  rw [FleetActionsSeries.row, find?_zip_map]
  cases hget : series.get? k with
  | none =>
    have : k ∉ kinds := fun h => (series.get?_eq_none_iff k).mp hget (hkeys.mp h)
    rw [if_neg this]
  | some row =>
    have : k ∈ kinds := hkeys.mpr ((series.mem_keys_iff k).mpr (by rw [hget, Option.isSome_some]))
    rw [if_pos this, OrderedMap.getD, hget, Option.getD_some]

theorem sortedKeys_nodup {ν : Type} (rt : Runtime) (series : OrderedMap String ν) :
    (sortStrings ((rt.entries 0 series).map Prod.fst)).Nodup :=
  ((sortStrings_perm _).trans ((rt.mapOrder_perm 0 series.entries).map Prod.fst)).nodup_iff.mpr
    series.keys_nodup

/-- The fleet's action chart shows, for every kind and every evaluation point, the
finite value Prometheus returned there, or 0. -/
theorem fleetActionsHandler_aligned {s : Server} {api : Api} {req : Request} {now : Int}
    (hapi : s.prom.api = some api) (hr : (seriesRange s.rt req now).OnMillis)
    (m : EvaluatedMatrix (seriesRange s.rt req now) "kind")
    (hans : api.queryRange queryActionsByKindRate (seriesRange s.rt req now) = .ok m.toValue) :
    ∃ body, fleetActionsHandler s req now = .ok body ∧
      (seriesRange s.rt req now).points.ncard = body.timestamps.length ∧
      body.kinds.Nodup ∧ body.kinds.length = body.values.length ∧
      ∀ kind, AlignedRow m body.timestamps kind (body.row kind) := by
  obtain ⟨timestamps, out, hquery, hcount, hrows⟩ := queryRangeByLabel_evaluated hr m hans
  have hprom : s.prom = ⟨some api⟩ := by rw [← hapi]
  rw [← hprom] at hquery
  let kinds := sortStrings ((s.rt.entries 0 out).map Prod.fst)
  refine ⟨⟨timestamps, kinds, kinds.map (fun k => out.getD k [])⟩, ?_, hcount,
    sortedKeys_nodup s.rt out, by simp, ?_⟩
  · refine bind_eq_ok_iff.mpr ⟨(), requirePrometheus_of_api hapi, ?_⟩
    exact bind_eq_ok_iff.mpr ⟨_, (orBadGatewayRange_eq_ok_iff _ _ _).mpr hquery, rfl⟩
  · intro kind
    rw [row_sortedKeys]
    exact hrows kind

/-- The two charts of a shard show what Prometheus evaluated; the p99 row is nil
exactly when Prometheus returned no series for the pod. -/
theorem shardTrendsHandler_aligned {s : Server} {api : Api} {req : Request} {now : Int}
    (hapi : s.prom.api = some api) (hpod : podNameRE (req.pathValue "pod") = true)
    (hr : (seriesRange s.rt req now).OnMillis)
    (m : EvaluatedMatrix (seriesRange s.rt req now) "pod")
    (m' : EvaluatedMatrix (seriesRange s.rt req now) "kind")
    (hans : api.queryRange (queryCycleP99Trend (req.pathValue "pod"))
      (seriesRange s.rt req now) = .ok m.toValue)
    (hans' : api.queryRange (queryActionRateTrend (req.pathValue "pod"))
      (seriesRange s.rt req now) = .ok m'.toValue) :
    ∃ body, shardTrendsHandler s req now = .ok body ∧
      (seriesRange s.rt req now).points.ncard = body.timestamps.length ∧
      AlignedRow m body.timestamps (req.pathValue "pod") body.cycleP99Seconds ∧
      ∀ kind, AlignedRow m' body.timestamps kind (body.actionRates.get? kind) := by
  obtain ⟨timestamps, out, hquery, hcount, hrows⟩ := queryRangeByLabel_evaluated hr m hans
  obtain ⟨timestamps', out', hquery', hcount', hrows'⟩ := queryRangeByLabel_evaluated hr m' hans'
  have hprom : s.prom = ⟨some api⟩ := by rw [← hapi]
  rw [← hprom] at hquery hquery'
  have hname := requirePodName_of_accepted hpod
  refine ⟨⟨req.pathValue "pod", timestamps, out.get? (req.pathValue "pod"), out',
    (seriesRange s.rt req now).stop⟩, ?_, hcount, hrows _, ?_⟩
  · refine bind_eq_ok_iff.mpr ⟨(), requirePrometheus_of_api hapi, ?_⟩
    refine bind_eq_ok_iff.mpr ⟨_, hname, ?_⟩
    refine bind_eq_ok_iff.mpr ⟨_, (orBadGatewayRange_eq_ok_iff _ _ _).mpr hquery, ?_⟩
    exact bind_eq_ok_iff.mpr ⟨_, (orBadGatewayRange_eq_ok_iff _ _ _).mpr hquery', rfl⟩
  · intro kind
    exact (hrows' kind).of_length (hcount'.symm.trans hcount)

/-- On whole milliseconds both trend handlers show what Prometheus evaluated, on an
axis that ends within one step of the present. -/
theorem trendHandlers_aligned {s : Server} {api : Api} (hapi : s.prom.api = some api)
    {req : Request} (hd : millisecond ∣ durationParam s.rt req)
    (hs : millisecond ∣ stepParam s.rt req) (now : Int) :
    let r := seriesRange s.rt req now
    let pod := req.pathValue "pod"
    (∀ m : EvaluatedMatrix r "kind", api.queryRange queryActionsByKindRate r = .ok m.toValue →
      ∃ body, fleetActionsHandler s req now = .ok body ∧
        r.points.ncard = body.timestamps.length ∧
        body.kinds.Nodup ∧ body.kinds.length = body.values.length ∧
        ∀ kind, AlignedRow m body.timestamps kind (body.row kind)) ∧
    (podNameRE pod = true →
      ∀ (m : EvaluatedMatrix r "pod") (m' : EvaluatedMatrix r "kind"),
        api.queryRange (queryCycleP99Trend pod) r = .ok m.toValue →
        api.queryRange (queryActionRateTrend pod) r = .ok m'.toValue →
        ∃ body, shardTrendsHandler s req now = .ok body ∧
          r.points.ncard = body.timestamps.length ∧
          AlignedRow m body.timestamps pod body.cycleP99Seconds ∧
          ∀ kind, AlignedRow m' body.timestamps kind (body.actionRates.get? kind)) ∧
    r.stop ≤ now ∧ now < r.stop + r.step := by
  intro r pod
  have hr := seriesRange_onMillis hd hs now
  refine ⟨?_, ?_, seriesRange_stop s.rt req now⟩
  · intro m hans
    exact fleetActionsHandler_aligned hapi hr m hans
  · intro hpod m m' hans hans'
    exact shardTrendsHandler_aligned hapi hpod hr m m' hans hans'

/-- A request without parameters, a quarter of a minute past a full step. -/
def plainRequest : Request := ⟨fun _ => "", fun key => if key = "pod" then "shard-0" else ""⟩

def plainNow : Int := ofUnixMilli 7215000

def plainRange : Range := seriesRange Runtime.plain plainRequest plainNow

/-- One series with a value at point 0 and no number at point 3. -/
def plainMatrix (label value : String) : EvaluatedMatrix plainRange label where
  series := [{
    metric := OrderedMap.empty.set label value
    samples := (OrderedMap.empty.set 0 ⟨3600000, 1⟩).set 3 ⟨3690000, .nan⟩
    on_grid := by decide
    stamped := by decide }]
  one_per_label := by simp

def plainApi : Api where
  query _ _ := .error ""
  queryRange q _ :=
    if q = queryCycleP99Trend "shard-0" then .ok (plainMatrix "pod" "shard-0").toValue
    else .ok (plainMatrix "kind" "idle").toValue

def plainServer : Server := { Server.unwired with prom := ⟨some plainApi⟩ }

theorem trendHandlers_aligned_hour :
    (∃ body, fleetActionsHandler plainServer plainRequest plainNow = .ok body ∧
      plainRange.points.ncard = body.timestamps.length ∧
      AlignedRow (plainMatrix "kind" "idle") body.timestamps "idle" (body.row "idle")) ∧
    (∃ body, shardTrendsHandler plainServer plainRequest plainNow = .ok body ∧
      AlignedRow (plainMatrix "pod" "shard-0") body.timestamps "shard-0" body.cycleP99Seconds) ∧
    plainRange.stop ≤ plainNow ∧ plainNow < plainRange.stop + plainRange.step := by
  have hd : millisecond ∣ durationParam Runtime.plain plainRequest := ⟨3600000, by decide⟩
  have hs : millisecond ∣ stepParam Runtime.plain plainRequest := ⟨30000, by decide⟩
  obtain ⟨hfleet, hshard, hend⟩ :=
    trendHandlers_aligned (s := plainServer) rfl hd hs plainNow
  obtain ⟨body, hbody, hcount, -, -, hrows⟩ := hfleet (plainMatrix "kind" "idle") rfl
  obtain ⟨body', hbody', -, hrow', -⟩ := hshard (by decide) (plainMatrix "pod" "shard-0")
    (plainMatrix "kind" "idle") rfl rfl
  exact ⟨⟨body, hbody, hcount, hrows "idle"⟩, ⟨body', hbody', hrow'⟩, hend⟩

end BigfleetDashboard.Handlers
