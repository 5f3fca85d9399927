import BigfleetDashboard.FinOps
import BigfleetDashboard.SamplePlacement

/-!
# No response carries a number that cannot be encoded

JSON has no text for NaN or an infinity, and a body that holds one is cut short
after its status has been sent. Whatever Prometheus answers, the numbers of
every body are finite, and a non-finite sample of a vector or a series counts
as if it were not there.
-/
namespace BigfleetDashboard.PromClient
open Go SlotWrites

/-! ## The query helpers return finite values -/

theorem jsonSafe_isFinite (f : ExtRat) : (jsonSafe f).IsFinite := by
  unfold jsonSafe
  split_ifs with h
  · exact ExtRat.isFinite_zero
  · by_contra hf
    exact h ((ExtRat.not_isFinite_iff f).mp hf)

theorem queryScalar_isFinite {c : Client} {q : String} {t : Int} {v : ExtRat}
    (h : queryScalar c q t = .ok v) : v.IsFinite := by
  unfold queryScalar at h
  split at h
  case h_1 => simp at h
  case h_2 => exact Except.ok.inj h ▸ jsonSafe_isFinite _
  case h_3 => exact Except.ok.inj h ▸ ExtRat.isFinite_zero
  case h_4 => exact Except.ok.inj h ▸ jsonSafe_isFinite _
  case h_5 => simp at h

theorem queryVector_isFinite {c : Client} {q : String} {t : Int} {out : List LabelledSample}
    (h : queryVector c q t = .ok out) : ∀ s ∈ out, s.value.IsFinite := by
  unfold queryVector at h
  split at h
  case h_1 => simp at h
  case h_2 vec _ =>
    intro s hs
    rw [← Except.ok.inj h, foldl_appendSample, List.nil_append] at hs
    obtain ⟨x, hx, rfl⟩ := List.mem_map.mp hs
    have hfin := (List.mem_filter.mp hx).2
    change x.value.IsFinite
    simpa using hfin
  case h_3 => simp at h

theorem queryByLabel_isFinite {c : Client} {q label : String} {t : Int}
    {out : OrderedMap String ExtRat} (h : queryByLabel c q label t = .ok out) :
    ∀ v ∈ out.values, v.IsFinite := by
  unfold queryByLabel at h
  split at h
  case h_1 => simp at h
  case h_2 vec _ =>
    intro v hv
    rw [← Except.ok.inj h, storeByLabel_eq_store] at hv
    obtain hv | ⟨s, -, hkey, rfl⟩ := OrderedMap.mem_values_foldl_store hv
    · simp at hv
    · by_contra hfin
      have hval := (ExtRat.not_isFinite_iff _).mp hfin
      simp [hval] at hkey
  case h_3 => simp at h

theorem fillRow_isFinite {r : Range} {steps : Int} {values : List SamplePair} {v : ExtRat}
    (hv : v ∈ fillRow r steps values) : v.IsFinite := by
  rw [fillRow_eq_writeAll] at hv
  obtain hzero | ⟨sp, -, hslot, rfl⟩ := mem_writeAll hv
  · rw [(List.mem_replicate.mp hzero).2]
    exact ExtRat.isFinite_zero
  · obtain ⟨i, hi⟩ := Option.isSome_iff_exists.mp hslot
    exact ((slotOf_eq_some_iff r steps sp i).mp hi).1

theorem queryRangeByLabel_isFinite {c : Client} {q label : String} {r : Range}
    {timestamps : List Int} {out : OrderedMap String (List ExtRat)}
    (h : queryRangeByLabel c q label r = .ok (timestamps, out)) :
    ∀ row ∈ out.values, ∀ v ∈ row, v.IsFinite := by
  unfold queryRangeByLabel at h
  split at h
  case h_1 => simp at h
  case h_2 mat _ =>
    dsimp only at h
    split_ifs at h
    intro row hrow v hv
    rw [← (Prod.mk.inj (Except.ok.inj h)).2, storeSeries_eq_store] at hrow
    obtain hrow | ⟨s, -, -, rfl⟩ := OrderedMap.mem_values_foldl_store hrow
    · simp at hrow
    · exact fillRow_isFinite hv
  case h_3 => simp at h

/-! ## Deleting a non-finite sample -/

theorem queryVector_delete {c c' : Client} {q : String} {t : Int} {pre post : List Sample}
    {s : Sample} (hs : ¬ s.value.IsFinite) (h : c.query q t = .ok (.vector (pre ++ s :: post)))
    (h' : c'.query q t = .ok (.vector (pre ++ post))) :
    queryVector c q t = queryVector c' q t := by
  simp only [queryVector, h, h', foldl_appendSample]
  simp [List.filter_append, hs]

theorem queryByLabel_delete {c c' : Client} {q label : String} {t : Int} {pre post : List Sample}
    {s : Sample} (hs : ¬ s.value.IsFinite) (h : c.query q t = .ok (.vector (pre ++ s :: post)))
    (h' : c'.query q t = .ok (.vector (pre ++ post))) :
    queryByLabel c q label t = queryByLabel c' q label t := by
  have hskip : ∀ out, storeByLabel label out s = out := by
    intro out
    rw [storeByLabel_eq_store]
    apply OrderedMap.store_of_none
    simp [(ExtRat.not_isFinite_iff _).mp hs]
  simp only [queryByLabel, h, h', List.foldl_append, List.foldl_cons, hskip]

theorem fillRow_delete (r : Range) (steps : Int) (pre post : List SamplePair) {sp : SamplePair}
    (hsp : ¬ sp.value.IsFinite) :
    fillRow r steps (pre ++ sp :: post) = fillRow r steps (pre ++ post) := by
  have hnone : slotOf r steps sp = none := by
    rw [Option.eq_none_iff_forall_ne_some]
    intro i hi
    exact hsp ((slotOf_eq_some_iff r steps sp i).mp hi).1
  rw [fillRow_eq_writeAll, fillRow_eq_writeAll, writeAll_skip _ _ _ _ _ _ hnone]

theorem queryRangeByLabel_delete {c c' : Client} {q label : String} {r : Range}
    {before after : List SampleStream} {metric : Metric} {pre post : List SamplePair}
    {sp : SamplePair} (hsp : ¬ sp.value.IsFinite)
    (h : c.queryRange q r = .ok (.matrix (before ++ ⟨metric, pre ++ sp :: post⟩ :: after)))
    (h' : c'.queryRange q r = .ok (.matrix (before ++ ⟨metric, pre ++ post⟩ :: after))) :
    queryRangeByLabel c q label r = queryRangeByLabel c' q label r := by
  have hstore : ∀ steps out, storeSeries label r steps out ⟨metric, pre ++ sp :: post⟩ =
      storeSeries label r steps out ⟨metric, pre ++ post⟩ := by
    intro steps out
    simp only [storeSeries, fillRow_delete r steps pre post hsp]
  simp only [queryRangeByLabel, h, h', List.foldl_append, List.foldl_cons, hstore]

end BigfleetDashboard.PromClient

namespace BigfleetDashboard.FinOps
open Go PromClient Handlers

def FinOpsSnapshot.floats (b : FinOpsSnapshot) : List ExtRat :=
  [b.totals.spotConfiguredFraction, b.totals.pinnedConfiguredFraction] ++
    b.configuredByCapacityType.values ++ b.idleByCapacityType.values ++
    b.configured.values.flatMap OrderedMap.values ++ b.configuredByBucket.values ++
    b.demand.values ++ b.actionRatesPerSec.values ++ b.redFlags.map FinOpsRedFlag.count

theorem fraction_isFinite {x y : ExtRat} (hx : x.IsFinite) (hy : y.IsFinite) :
    (fraction x y).IsFinite := by
  unfold fraction
  split_ifs with h
  · exact ExtRat.isFinite_zero
  · exact hx.div hy h

/-- One sample of the matrix query keeps the cells finite. -/
theorem addSample_isFinite {m : MatrixFold} {s : LabelledSample} (hs : s.value.IsFinite)
    (hm : ∀ row ∈ m.configured.values, ∀ v ∈ row.values, v.IsFinite) :
    ∀ row ∈ (m.addSample s).configured.values, ∀ v ∈ row.values, v.IsFinite := by
  intro row hrow v hv
  simp only [MatrixFold.addSample] at hrow
  split_ifs at hrow with hlabels
  · exact hm row hrow v hv
  · obtain rfl | hrow := OrderedMap.mem_values_set hrow
    · obtain rfl | hv := OrderedMap.mem_values_set hv
      · exact hs
      · obtain hold | hnew := m.configured.getD_mem (capacityLabel s) OrderedMap.empty
        · exact hm _ hold v hv
        · rw [hnew] at hv
          simp at hv
    · exact hm row hrow v hv

theorem foldl_addSample_isFinite {samples : List LabelledSample}
    (hs : ∀ s ∈ samples, s.value.IsFinite) (m : MatrixFold)
    (hm : ∀ row ∈ m.configured.values, ∀ v ∈ row.values, v.IsFinite) :
    ∀ row ∈ (samples.foldl MatrixFold.addSample m).configured.values,
      ∀ v ∈ row.values, v.IsFinite := by
  induction samples generalizing m with
  | nil => exact hm
  | cons s samples ih =>
    exact ih (fun x hx => hs x (List.mem_cons_of_mem _ hx)) _
      (addSample_isFinite (hs s (List.mem_cons_self ..)) hm)

end BigfleetDashboard.FinOps

namespace BigfleetDashboard.Handlers
open Go PromClient FinOps

/-! ## The numbers of a body -/

def FleetOverview.floats (b : FleetOverview) : List ExtRat :=
  b.cycleP99Seconds :: b.machinesByState.values

def FleetActionsSeries.floats (b : FleetActionsSeries) : List ExtRat := b.values.flatten

def ShardsList.floats (b : ShardsList) : List ExtRat := b.shards.map ShardSummary.cycleP99Seconds

def ShardDetail.floats (b : ShardDetail) : List ExtRat :=
  [b.cycleP99Seconds, b.occCommittedPerSec, b.occConflictPerSec] ++
    b.cycleP99ByPhaseSeconds.values ++ b.machinesByState.values ++
    b.machinesByCapacityType.values ++ b.actionsByKindRatePerSec.values

def ShardTrends.floats (b : ShardTrends) : List ExtRat :=
  b.cycleP99Seconds.getD [] ++ b.actionRates.values.flatten

def Topology.floats (b : Topology) : List ExtRat :=
  [b.coordinator.applyRatePerSec, b.coordinator.applyErrorRatePerSec]

/-- All numbers of a body can be encoded. -/
def Encodable (floats : List ExtRat) : Prop := ∀ x ∈ floats, x.IsFinite

theorem encodable_append {xs ys : List ExtRat} :
    Encodable (xs ++ ys) ↔ Encodable xs ∧ Encodable ys := by
  simp only [Encodable, List.forall_mem_append]

theorem encodable_cons {x : ExtRat} {xs : List ExtRat} :
    Encodable (x :: xs) ↔ x.IsFinite ∧ Encodable xs := by
  simp only [Encodable, List.forall_mem_cons]

theorem encodable_nil : Encodable [] := by simp [Encodable]

/-- A number read from a map by name can be encoded when the map's numbers can. -/
theorem getD_isFinite {m : OrderedMap String ExtRat} (h : Encodable m.values) (k : String) :
    (m.getD k 0).IsFinite := by
  obtain hmem | hzero := m.getD_mem k 0
  · exact h _ hmem
  · rw [hzero]
    exact ExtRat.isFinite_zero

theorem sumValues_isFinite {rt : Runtime} {loop : ℕ} {m : OrderedMap String ExtRat}
    (h : Encodable m.values) : (sumValues rt loop m).IsFinite := by
  apply ExtRat.isFinite_total
  intro x hx
  obtain ⟨e, he, rfl⟩ := List.mem_map.mp hx
  exact h _ (List.mem_map.mpr ⟨e, (rt.mem_entries loop m e).mp he, rfl⟩)

/-! ## The handlers -/

theorem fleetOverview_encodable {s : Server} {now : Int} {body : FleetOverview}
    (h : fleetOverviewHandler s now = .ok body) : Encodable body.floats := by
  simp only [fleetOverviewHandler, bind_eq_ok_iff, orBadGateway_eq_ok_iff, pure_eq_ok_iff] at h
  obtain ⟨-, -, _, -, _, -, _, -, cycleP99, hcycle, byState, hstate, rfl⟩ := h
  exact encodable_cons.mpr ⟨queryScalar_isFinite hcycle, queryByLabel_isFinite hstate⟩

theorem fleetActions_encodable {s : Server} {r : Request} {now : Int} {body : FleetActionsSeries}
    (h : fleetActionsHandler s r now = .ok body) : Encodable body.floats := by
  simp only [fleetActionsHandler, bind_eq_ok_iff, orBadGatewayRange_eq_ok_iff,
    pure_eq_ok_iff] at h
  obtain ⟨-, -, ⟨timestamps, series⟩, hquery, rfl⟩ := h
  intro x hx
  obtain ⟨row, hrow, hxrow⟩ := List.mem_flatten.mp hx
  obtain ⟨k, -, rfl⟩ := List.mem_map.mp hrow
  obtain hmem | hnil := series.getD_mem k []
  · exact queryRangeByLabel_isFinite hquery _ hmem x hxrow
  · rw [hnil] at hxrow
    simp at hxrow

theorem shardsList_encodable {s : Server} {now : Int} {body : ShardsList}
    (h : shardsListHandler s now = .ok body) : Encodable body.floats := by
  simp only [shardsListHandler, bind_eq_ok_iff, orBadGateway_eq_ok_iff, pure_eq_ok_iff] at h
  obtain ⟨-, -, cycleP99, hcycle, _, -, _, -, _, -, rfl⟩ := h
  intro x hx
  simp only [ShardsList.floats, List.map_map, List.mem_map] at hx
  obtain ⟨pod, -, rfl⟩ := hx
  exact getD_isFinite (queryByLabel_isFinite hcycle) pod

theorem shardDetail_encodable {s : Server} {r : Request} {now : Int} {body : ShardDetail}
    (h : shardDetailHandler s r now = .ok body) : Encodable body.floats := by
  simp only [shardDetailHandler, bind_eq_ok_iff, orBadGateway_eq_ok_iff, pure_eq_ok_iff] at h
  obtain ⟨-, -, pod, -, _, hcycle, _, hphase, _, hstate, _, hcapacity, _, -, _, -, _, hactions,
    _, hcommitted, _, hconflict, rfl⟩ := h
  simp only [ShardDetail.floats, encodable_append, encodable_cons]
  exact ⟨⟨⟨⟨⟨queryScalar_isFinite hcycle, queryScalar_isFinite hcommitted,
    queryScalar_isFinite hconflict, encodable_nil⟩, queryByLabel_isFinite hphase⟩,
    queryByLabel_isFinite hstate⟩, queryByLabel_isFinite hcapacity⟩, queryByLabel_isFinite hactions⟩

theorem shardTrends_encodable {s : Server} {r : Request} {now : Int} {body : ShardTrends}
    (h : shardTrendsHandler s r now = .ok body) : Encodable body.floats := by
  simp only [shardTrendsHandler, bind_eq_ok_iff, orBadGatewayRange_eq_ok_iff,
    pure_eq_ok_iff] at h
  obtain ⟨-, -, pod, -, ⟨timestamps, cycleByPod⟩, hcycle, ⟨_, actionRates⟩, hrates, rfl⟩ := h
  refine encodable_append.mpr ⟨?_, ?_⟩
  · intro x hx
    cases hget : cycleByPod.get? pod with
    | none => simp [hget] at hx
    | some row =>
      have hmem := (cycleByPod.mem_values_iff row).mpr ⟨pod, hget⟩
      rw [hget, Option.getD_some] at hx
      exact queryRangeByLabel_isFinite hcycle row hmem x hx
  · intro x hx
    obtain ⟨row, hrow, hxrow⟩ := List.mem_flatten.mp hx
    exact queryRangeByLabel_isFinite hrates row hrow x hxrow

/-- A query that failed leaves 0. -/
theorem orWarn_isFinite {message : String} {x : Except String ExtRat}
    (h : ∀ v, x = .ok v → v.IsFinite) : (orWarn message 0 x).1.IsFinite := by
  cases x with
  | error err => exact ExtRat.isFinite_zero
  | ok v => exact h v rfl

theorem topology_encodable {s : Server} {now later : Int} {body : Topology}
    (h : topologyHandler s now later = .ok body) : Encodable body.floats := by
  simp only [topologyHandler, bind_eq_ok_iff, orCoordError_eq_ok_iff, pure_eq_ok_iff] at h
  obtain ⟨-, -, _, -, _, -, rfl⟩ := h
  simp only [Topology.floats, encodable_cons, coordinatorHealth]
  split_ifs
  · exact ⟨orWarn_isFinite (fun _ => queryScalar_isFinite),
      orWarn_isFinite (fun _ => queryScalar_isFinite), encodable_nil⟩
  · exact ⟨ExtRat.isFinite_zero, ExtRat.isFinite_zero, encodable_nil⟩

/-- The flag counts one cell of the matrix. -/
theorem redFlags_encodable {configured : OrderedMap String Counts}
    (h : ∀ row ∈ configured.values, Encodable row.values) :
    Encodable ((detectRedFlags configured).map FinOpsRedFlag.count) := by
  unfold detectRedFlags
  cases hspot : configured.get? "Spot" with
  | none => exact encodable_nil
  | some spot =>
    have hrow := h spot ((configured.mem_values_iff spot).mpr ⟨"Spot", hspot⟩)
    dsimp only
    split_ifs
    · exact encodable_cons.mpr ⟨getD_isFinite hrow "pinned", encodable_nil⟩
    · exact encodable_nil

/-- The pinned cells are numbers of the matrix or 0, and so is their sum. -/
theorem pinnedConfigured_isFinite (rt : Runtime) {configured : OrderedMap String Counts}
    (h : ∀ row ∈ configured.values, Encodable row.values) :
    (pinnedConfigured rt configured).IsFinite := by
  apply ExtRat.isFinite_total
  intro x hx
  obtain ⟨e, he, rfl⟩ := List.mem_map.mp hx
  have hmem : e.2 ∈ configured.values :=
    List.mem_map.mpr ⟨e, (rt.mem_entries 5 configured e).mp he, rfl⟩
  exact getD_isFinite (h e.2 hmem) "pinned"

theorem finops_encodable {s : Server} {now : Int} {body : FinOpsSnapshot}
    (h : finopsHandler s now = .ok body) : Encodable body.floats := by
  simp only [finopsHandler, finopsQueries, bind_eq_ok_iff, orBadGateway_eq_ok_iff,
    pure_eq_ok_iff] at h
  obtain ⟨-, -, _, ⟨cap, hcap, idle, hidle, samples, hsamples, demand, hdemand, bucket, hbucket,
    _, -, rates, hrates, rfl⟩, rfl⟩ := h
  have hcapF : Encodable cap.values := queryByLabel_isFinite hcap
  have hempty : ∀ row ∈ MatrixFold.empty.configured.values, Encodable row.values := by
    intro row hrow
    simp [MatrixFold.empty] at hrow
  have hcells : ∀ row ∈ (samples.foldl MatrixFold.addSample MatrixFold.empty).configured.values,
      Encodable row.values :=
    foldl_addSample_isFinite (queryVector_isFinite hsamples) MatrixFold.empty hempty
  have htotal : (sumValues s.rt 4 cap).IsFinite := sumValues_isFinite hcapF
  have hspot : (fraction (cap.getD "Spot" 0) (sumValues s.rt 4 cap)).IsFinite :=
    fraction_isFinite (getD_isFinite hcapF "Spot") htotal
  have hpinned := fraction_isFinite (pinnedConfigured_isFinite s.rt hcells) htotal
  have hmatrix : Encodable ((samples.foldl MatrixFold.addSample
      MatrixFold.empty).configured.values.flatMap OrderedMap.values) := by
    intro x hx
    obtain ⟨row, hrow, hxrow⟩ := List.mem_flatMap.mp hx
    exact hcells row hrow x hxrow
  simp only [FinOpsSnapshot.floats, snapshot, encodable_append, encodable_cons]
  exact ⟨⟨⟨⟨⟨⟨⟨⟨hspot, hpinned, encodable_nil⟩, hcapF⟩, queryByLabel_isFinite hidle⟩, hmatrix⟩,
    queryByLabel_isFinite hbucket⟩, queryByLabel_isFinite hdemand⟩, queryByLabel_isFinite hrates⟩,
    redFlags_encodable hcells⟩

/-- Every body can be encoded whatever Prometheus answers, and the three sample
queries do not notice the deletion of a non-finite sample. -/
theorem responses_encodable (s : Server) (r : Request) (now later : Int) :
    (∀ body, fleetOverviewHandler s now = .ok body → Encodable body.floats) ∧
    (∀ body, fleetActionsHandler s r now = .ok body → Encodable body.floats) ∧
    (∀ body, shardsListHandler s now = .ok body → Encodable body.floats) ∧
    (∀ body, shardDetailHandler s r now = .ok body → Encodable body.floats) ∧
    (∀ body, shardTrendsHandler s r now = .ok body → Encodable body.floats) ∧
    (∀ body, finopsHandler s now = .ok body → Encodable body.floats) ∧
    (∀ body, topologyHandler s now later = .ok body → Encodable body.floats) ∧
    (∀ (c c' : PromClient.Client) (q label : String) (t : Int) (pre post : List Sample) (x : Sample),
      ¬ x.value.IsFinite → c.query q t = .ok (.vector (pre ++ x :: post)) →
      c'.query q t = .ok (.vector (pre ++ post)) →
        queryVector c q t = queryVector c' q t ∧
        queryByLabel c q label t = queryByLabel c' q label t) ∧
    (∀ (c c' : PromClient.Client) (q label : String) (rng : Range)
      (before after : List SampleStream) (metric : Metric) (pre post : List SamplePair)
      (sp : SamplePair), ¬ sp.value.IsFinite →
      c.queryRange q rng = .ok (.matrix (before ++ ⟨metric, pre ++ sp :: post⟩ :: after)) →
      c'.queryRange q rng = .ok (.matrix (before ++ ⟨metric, pre ++ post⟩ :: after)) →
        queryRangeByLabel c q label rng = queryRangeByLabel c' q label rng) := by
  refine ⟨fun _ => fleetOverview_encodable, fun _ => fleetActions_encodable,
    fun _ => shardsList_encodable, fun _ => shardDetail_encodable, fun _ => shardTrends_encodable,
    fun _ => finops_encodable, fun _ => topology_encodable, ?_, ?_⟩
  · intro c c' q label t pre post x hx h h'
    exact ⟨queryVector_delete hx h h', queryByLabel_delete hx h h'⟩
  · intro c c' q label rng before after metric pre post sp hsp h h'
    exact queryRangeByLabel_delete hsp h h'

/-- Every instant query answers with a single NaN. -/
def nanApi : Api where
  query _ _ := .ok (.vector [⟨OrderedMap.empty.set "state" "Idle", .nan⟩])
  queryRange _ _ := .ok (.matrix [])

def nanServer : Server := { Server.unwired with prom := ⟨some nanApi⟩ }

theorem responses_encodable_nan :
    ∃ body, fleetOverviewHandler nanServer 0 = .ok body ∧ Encodable body.floats := by
  have hall := responses_encodable nanServer ⟨fun _ => "", fun _ => ""⟩ 0 0
  exact ⟨_, rfl, hall.1 _ rfl⟩

end BigfleetDashboard.Handlers
