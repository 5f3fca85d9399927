import BigfleetDashboard.FinOpsReconcile
import Mathlib.Algebra.BigOperators.Ring.Finset

/-!
# One fleet, four pages

The fleet overview, the list of shards, the page of a shard and the FinOps snapshot ask
Prometheus for different sums over the same gauges, each with its own queries and at its own
time. As long as the gauges stay as they are, the numbers of the four pages agree.
-/
namespace BigfleetDashboard.FleetCounts
open Go PromClient Handlers FinOps

/-! ## The gauges -/

/-- A series of `bigfleet_shard_inventory_machines`. -/
structure MachineSeries where
  pod : String
  state : String
  capacityType : String
  count : ℕ

/-- A series of a gauge that has the pod as its only label. -/
structure PodSeries where
  pod : String
  count : ℕ

def MachineSeries.label (s : MachineSeries) (l : String) : String :=
  if l = "pod" then s.pod
  else if l = "state" then s.state
  else if l = "capacity_type" then s.capacityType
  else ""

def PodSeries.label (s : PodSeries) (l : String) : String := if l = "pod" then s.pod else ""

/-- How many are counted by the series that satisfy a condition. -/
def machineCount (p : MachineSeries → Prop) [DecidablePred p] (series : List MachineSeries) : ℕ :=
  sumWhere MachineSeries.count p series

def podCount (p : PodSeries → Prop) [DecidablePred p] (series : List PodSeries) : ℕ :=
  sumWhere PodSeries.count p series

/-- The gauges of a fleet: every series has its labels, and no count is above `2 ^ 53`, up to
which a `float64` adds whole numbers exactly. -/
structure Gauges where
  machines : List MachineSeries
  shortfalls : List PodSeries
  sessions : List PodSeries
  machine_labels : ∀ s ∈ machines, s.pod ≠ "" ∧ s.state ≠ "" ∧ s.capacityType ≠ ""
  shortfall_pod : ∀ s ∈ shortfalls, s.pod ≠ ""
  session_pod : ∀ s ∈ sessions, s.pod ≠ ""
  machines_exact : machineCount (fun _ => True) machines ≤ 2 ^ 53
  shortfalls_exact : podCount (fun _ => True) shortfalls ≤ 2 ^ 53
  sessions_exact : podCount (fun _ => True) sessions ≤ 2 ^ 53

theorem le_maxInt64 {n : ℕ} (h : n ≤ 2 ^ 53) : (n : Int) ≤ maxInt64 := by
  rw [maxInt64]
  omega

theorem Gauges.machines_fit (g : Gauges) :
    (machineCount (fun _ => True) g.machines : Int) ≤ maxInt64 := le_maxInt64 g.machines_exact

theorem Gauges.shortfalls_fit (g : Gauges) :
    (podCount (fun _ => True) g.shortfalls : Int) ≤ maxInt64 := le_maxInt64 g.shortfalls_exact

theorem Gauges.sessions_fit (g : Gauges) :
    (podCount (fun _ => True) g.sessions : Int) ≤ maxInt64 := le_maxInt64 g.sessions_exact

/-! ## The answers of Prometheus -/

/-- Whenever the query is answered, then with `sum by (L)` over these series. -/
def Sums {σ : Type} (api : Api) (q : String) (label : σ → String → String) (count : σ → ℕ)
    (L : List String) (series : List σ) : Prop :=
  ∀ t v, api.query q t = .ok v →
    ∃ vec, v = .vector vec ∧ SumBy label (fun s => (count s : ℚ)) L series vec

def queryPodByState (pod : String) : String :=
  "sum by (state) (bigfleet_shard_inventory_machines" ++ podSelector pod ++ ")"

def queryPodByCapacity (pod : String) : String :=
  "sum by (capacity_type) (bigfleet_shard_inventory_machines" ++ podSelector pod ++ ")"

def queryPodShortfalls (pod : String) : String :=
  "sum(bigfleet_shard_shortfalls" ++ podSelector pod ++ ")"

def queryPodSessions (pod : String) : String :=
  "sum(bigfleet_shard_active_sessions" ++ podSelector pod ++ ")"

/-- Prometheus answers the queries of the four pages, among them that of a pod, from one set
of gauges. -/
structure Exports (api : Api) (g : Gauges) (pod : String) : Prop where
  byState : Sums api queryInventoryByState MachineSeries.label MachineSeries.count ["state"]
    g.machines
  shortfalls : Sums api queryShortfalls PodSeries.label PodSeries.count [] g.shortfalls
  sessions : Sums api queryClusterCount PodSeries.label PodSeries.count [] g.sessions
  machinesByPod : Sums api queryShardsMachinesByPod MachineSeries.label MachineSeries.count ["pod"]
    g.machines
  shortfallsByPod : Sums api queryShardsShortfallsByPod PodSeries.label PodSeries.count ["pod"]
    g.shortfalls
  sessionsByPod : Sums api queryShardsSessionsByPod PodSeries.label PodSeries.count ["pod"]
    g.sessions
  podByState : Sums api (queryPodByState pod) MachineSeries.label MachineSeries.count ["state"]
    (g.machines.filter (fun s => s.pod = pod))
  podByCapacity : Sums api (queryPodByCapacity pod) MachineSeries.label MachineSeries.count
    ["capacity_type"] (g.machines.filter (fun s => s.pod = pod))
  podShortfalls : Sums api (queryPodShortfalls pod) PodSeries.label PodSeries.count []
    (g.shortfalls.filter (fun s => s.pod = pod))
  podSessions : Sums api (queryPodSessions pod) PodSeries.label PodSeries.count []
    (g.sessions.filter (fun s => s.pod = pod))
  configured : Sums api queryFinopsConfiguredByCapacity MachineSeries.label MachineSeries.count
    ["capacity_type"] (g.machines.filter (fun s => s.state = "Configured"))
  idle : Sums api queryFinopsIdleByCapacity MachineSeries.label MachineSeries.count
    ["capacity_type"] (g.machines.filter (fun s => s.state = "Idle"))

/-! ## Counts -/

section Counts
variable {σ : Type} {f : σ → ℕ} {p q : σ → Prop} [DecidablePred p] [DecidablePred q]
  {xs : List σ}

theorem sumWhere_cast (f : σ → ℕ) (p : σ → Prop) [DecidablePred p] (xs : List σ) :
    sumWhere (fun s => (f s : ℚ)) p xs = ((sumWhere f p xs : ℕ) : ℚ) := by
  induction xs with
  | nil => simp
  | cons x xs ih =>
    rw [sumWhere_cons, sumWhere_cons, ih]
    push_cast
    split_ifs
    · rfl
    · rfl

theorem sumWhere_filter : sumWhere f p (xs.filter q) = sumWhere f (fun s => q s ∧ p s) xs := by
  rw [sumWhere, sumWhere, List.filter_filter]
  congr 2
  apply List.filter_congr
  intro s _
  rw [Bool.eq_iff_iff]
  simp [and_comm]

theorem sumWhere_le_all : sumWhere f p xs ≤ sumWhere f (fun _ => True) xs :=
  sumWhere_mono (fun _ _ => Nat.zero_le _) (fun _ _ _ => trivial)

/-- A whole number that fits an integer is not changed. -/
theorem intOfFloat_cast {n : ℕ} (h : (n : Int) ≤ maxInt64) : intOfFloat (.fin (n : ℚ)) = n := by
  have htdiv : ((n : ℚ).num).tdiv ((n : ℚ).den) = (n : Int) := by
    rw [Rat.num_natCast, Rat.den_natCast]
    exact Int.tdiv_one _
  have hmin : minInt64 ≤ (n : Int) := le_trans (by decide) (Int.natCast_nonneg n)
  simp only [intOfFloat]
  rw [htdiv, if_pos ⟨hmin, h⟩]

end Counts

/-! ## What a query tells -/

section Query
variable {σ : Type} {api : Api} {q : String} {label : σ → String → String} {count : σ → ℕ}
  {series : List σ} {t : Int}

theorem exists_vector_of_byLabel {l : String} {m : OrderedMap String ExtRat}
    (h : Sums api q label count [l] series) (hq : queryByLabel ⟨some api⟩ q l t = .ok m) :
    ∃ vec, SumBy label (fun s => (count s : ℚ)) [l] series vec ∧
      m = vec.foldl (storeByLabel l) OrderedMap.empty := by
  unfold queryByLabel PromClient.Client.query at hq
  dsimp only at hq
  cases hans : api.query q t with
  | error err => simp [hans] at hq
  | ok v =>
    obtain ⟨vec, rfl, hsum⟩ := h t v hans
    rw [hans] at hq
    exact ⟨vec, hsum, (Except.ok.inj hq).symm⟩

theorem getD_of_byLabel {l : String} {m : OrderedMap String ExtRat}
    (h : Sums api q label count [l] series) (hq : queryByLabel ⟨some api⟩ q l t = .ok m)
    {k : String} (hk : k ≠ "") :
    m.getD k 0 = .fin ((sumWhere count (fun s => label s l = k) series : ℕ) : ℚ) := by
  obtain ⟨vec, hsum, rfl⟩ := exists_vector_of_byLabel h hq
  rw [hsum.getD_byLabel, ← sumWhere_cast]
  congr 1
  exact sumWhere_congr (fun s _ => by simp [hk])

theorem mem_keys_of_byLabel {l : String} {m : OrderedMap String ExtRat}
    (h : Sums api q label count [l] series) (hq : queryByLabel ⟨some api⟩ q l t = .ok m)
    (k : String) : k ∈ m.keys ↔ k ≠ "" ∧ ∃ s ∈ series, label s l = k := by
  obtain ⟨vec, hsum, rfl⟩ := exists_vector_of_byLabel h hq
  rw [OrderedMap.mem_keys_iff, hsum.get?_byLabel]
  split_ifs with hk
  · simpa using hk
  · simpa using hk

/-- The sum over the values of a map, when every series has the label. -/
theorem sumValues_of_byLabel {l : String} {m : OrderedMap String ExtRat}
    (h : Sums api q label count [l] series) (hq : queryByLabel ⟨some api⟩ q l t = .ok m)
    (hlabel : ∀ s ∈ series, label s l ≠ "") (rt : Runtime) (loop : ℕ) :
    sumValues rt loop m = .fin ((sumWhere count (fun _ => True) series : ℕ) : ℚ) := by
  obtain ⟨vec, hsum, rfl⟩ := exists_vector_of_byLabel h hq
  rw [hsum.sumValues_byLabel, ← sumWhere_cast]
  congr 1
  exact sumWhere_congr (fun s hs => by simp [hlabel s hs])

/-- The values of a map, each as an integer. -/
theorem sum_values_of_byLabel {l : String} {m : OrderedMap String ExtRat}
    (h : Sums api q label count [l] series) (hq : queryByLabel ⟨some api⟩ q l t = .ok m)
    (hlabel : ∀ s ∈ series, label s l ≠ "")
    (hfit : ((sumWhere count (fun _ => True) series : ℕ) : Int) ≤ maxInt64) :
    (m.values.map intOfFloat).sum = ((sumWhere count (fun _ => True) series : ℕ) : Int) := by
  have hvalue : ∀ e ∈ m.entries, intOfFloat e.2 =
      ((sumWhere count (fun s => True ∧ label s l = e.1) series : ℕ) : Int) := by
    intro e he
    have hget : m.get? e.1 = some e.2 := (m.get?_eq_some_iff e.1 e.2).mpr he
    have hkey : e.1 ≠ "" :=
      ((mem_keys_of_byLabel h hq e.1).mp ((m.mem_keys_iff e.1).mpr (by rw [hget]; rfl))).1
    have hsum := getD_of_byLabel h hq hkey
    rw [OrderedMap.getD, hget, Option.getD_some] at hsum
    have hle : sumWhere count (fun s => label s l = e.1) series
        ≤ sumWhere count (fun _ => True) series := sumWhere_le_all
    rw [hsum, intOfFloat_cast (le_trans (by exact_mod_cast hle) hfit)]
    simp only [true_and]
  have hkeys : ∀ s ∈ series, (True ∧ label s l ∈ m.keys ↔ True) := by
    intro s hs
    rw [mem_keys_of_byLabel h hq]
    simpa using ⟨hlabel s hs, s, hs, rfl⟩
  calc (m.values.map intOfFloat).sum
      = (m.entries.map (fun e => intOfFloat e.2)).sum := by
        rw [OrderedMap.values, List.map_map]
        rfl
    _ = (m.entries.map (fun e =>
          ((sumWhere count (fun s => True ∧ label s l = e.1) series : ℕ) : Int))).sum := by
        rw [List.map_congr_left hvalue]
    _ = (((m.keys.map (fun k => sumWhere count (fun s => True ∧ label s l = k) series)).sum : ℕ) :
          Int) := by
        rw [OrderedMap.keys, List.map_map, Nat.cast_list_sum, List.map_map]
        rfl
    _ = ((sumWhere count (fun _ => True) series : ℕ) : Int) := by
        rw [sum_map_sumWhere count _ (fun s => label s l) m.keys m.keys_nodup, sumWhere_congr hkeys]

/-- An aggregation without labels is the sum over all series, and 0 if there are none. -/
theorem queryScalar_sums {x : ExtRat} (h : Sums api q label count [] series)
    (hq : queryScalar ⟨some api⟩ q t = .ok x) :
    x = .fin ((sumWhere count (fun _ => True) series : ℕ) : ℚ) := by
  unfold queryScalar PromClient.Client.query at hq
  dsimp only at hq
  cases hans : api.query q t with
  | error err => simp [hans] at hq
  | ok v =>
    obtain ⟨vec, rfl, hsum⟩ := h t v hans
    rw [hans] at hq
    cases vec with
    | nil =>
      have hnone := hsum.covers []
      simp only [List.map_nil, List.not_mem_nil, false_iff, not_exists, not_and] at hnone
      have hnil : series = [] := List.eq_nil_iff_forall_not_mem.mpr (fun s hs => hnone s hs trivial)
      rw [← Except.ok.inj hq, hnil]
      simp [ExtRat.zero_def]
    | cons s vec =>
      have hvalue := hsum.value s List.mem_cons_self
      rw [← Except.ok.inj hq, hvalue, ← sumWhere_cast]
      simp [jsonSafe, ExtRat.isNaN, ExtRat.isInf]

end Query

/-! ## The four pages -/

section Pages
variable {s : Server} {api : Api} {g : Gauges} {pod : String}

theorem machineCount_le (g : Gauges) (p : MachineSeries → Prop) [DecidablePred p] :
    (machineCount p g.machines : Int) ≤ maxInt64 :=
  le_trans (by exact_mod_cast sumWhere_le_all) g.machines_fit

theorem shortfallCount_le (g : Gauges) (p : PodSeries → Prop) [DecidablePred p] :
    (podCount p g.shortfalls : Int) ≤ maxInt64 :=
  le_trans (by exact_mod_cast sumWhere_le_all) g.shortfalls_fit

theorem sessionCount_le (g : Gauges) (p : PodSeries → Prop) [DecidablePred p] :
    (podCount p g.sessions : Int) ≤ maxInt64 :=
  le_trans (by exact_mod_cast sumWhere_le_all) g.sessions_fit

/-- The overview in terms of the gauges. -/
structure ShowsFleet (g : Gauges) (fleet : FleetOverview) : Prop where
  machines : fleet.machines = machineCount (fun _ => True) g.machines
  states : (fleet.machinesByState.values.map intOfFloat).sum =
    machineCount (fun _ => True) g.machines
  state : ∀ state, state ≠ "" → intOfFloat (fleet.machinesByState.getD state 0) =
    machineCount (fun s => s.state = state) g.machines
  shortfalls : fleet.shortfalls = podCount (fun _ => True) g.shortfalls
  sessions : fleet.clusters = podCount (fun _ => True) g.sessions

theorem fleetOverviewHandler_shows (hs : s.prom = ⟨some api⟩) (h : Exports api g pod) {now : Int}
    {fleet : FleetOverview} (hfleet : fleetOverviewHandler s now = .ok fleet) :
    ShowsFleet g fleet := by
  simp only [fleetOverviewHandler, hs, bind_eq_ok_iff, orBadGateway_eq_ok_iff,
    pure_eq_ok_iff] at hfleet
  obtain ⟨-, -, shards, -, clusters, hclusters, shortfalls, hshortfalls, p99, -, byState, hbyState,
    rfl⟩ := hfleet
  have hlabel : ∀ m ∈ g.machines, m.label "state" ≠ "" := fun m hm => (g.machine_labels m hm).2.1
  constructor
  case machines =>
    show intOfFloat (sumValues s.rt 0 byState) = _
    rw [sumValues_of_byLabel h.byState hbyState hlabel]
    exact intOfFloat_cast g.machines_fit
  case states => exact sum_values_of_byLabel h.byState hbyState hlabel g.machines_fit
  case state =>
    intro state hstate
    show intOfFloat (byState.getD state 0) = _
    rw [getD_of_byLabel h.byState hbyState hstate]
    exact intOfFloat_cast (machineCount_le g _)
  case shortfalls =>
    show intOfFloat shortfalls = _
    rw [queryScalar_sums h.shortfalls hshortfalls]
    exact intOfFloat_cast g.shortfalls_fit
  case sessions =>
    show intOfFloat clusters = _
    rw [queryScalar_sums h.sessions hclusters]
    exact intOfFloat_cast g.sessions_fit

/-- The list of shards in terms of the gauges. -/
structure ShowsShards (g : Gauges) (list : ShardsList) : Prop where
  sorted : (list.shards.map ShardSummary.pod).Pairwise (· < ·)
  pods : ∀ pod, pod ∈ list.shards.map ShardSummary.pod ↔ ∃ m ∈ g.machines, m.pod = pod
  machines : ∀ row ∈ list.shards,
    row.machines = machineCount (fun m => m.pod = row.pod) g.machines
  shortfalls : ∀ row ∈ list.shards,
    row.shortfalls = podCount (fun m => m.pod = row.pod) g.shortfalls
  sessions : ∀ row ∈ list.shards,
    row.activeSessions = podCount (fun m => m.pod = row.pod) g.sessions

theorem shardsListHandler_shows (hs : s.prom = ⟨some api⟩) (h : Exports api g pod) {now : Int}
    {list : ShardsList} (hlist : shardsListHandler s now = .ok list) : ShowsShards g list := by
  simp only [shardsListHandler, hs, bind_eq_ok_iff, orBadGateway_eq_ok_iff,
    pure_eq_ok_iff] at hlist
  obtain ⟨-, -, p99, -, machines, hmachines, shortfalls, hshortfalls, sessions, hsessions, rfl⟩ :=
    hlist
  have hkeys : ((s.rt.entries 0 machines).map Prod.fst).Perm machines.keys :=
    (s.rt.mapOrder_perm 0 machines.entries).map Prod.fst
  have hperm := (sortStrings_perm ((s.rt.entries 0 machines).map Prod.fst)).trans hkeys
  have hmem : ∀ pod, pod ∈ sortStrings ((s.rt.entries 0 machines).map Prod.fst) ↔
      ∃ m ∈ g.machines, m.pod = pod := by
    intro pod
    rw [hperm.mem_iff, mem_keys_of_byLabel h.machinesByPod hmachines]
    constructor
    · intro hpod
      exact hpod.2
    · rintro ⟨m, hm, rfl⟩
      exact ⟨(g.machine_labels m hm).1, m, hm, rfl⟩
  have hne : ∀ pod ∈ sortStrings ((s.rt.entries 0 machines).map Prod.fst), pod ≠ "" := by
    intro pod hpod
    obtain ⟨m, hm, rfl⟩ := (hmem pod).mp hpod
    exact (g.machine_labels m hm).1
  have hpods : ((sortStrings ((s.rt.entries 0 machines).map Prod.fst)).map (fun pod => ({
      pod := pod
      cycleP99Seconds := p99.getD pod 0
      machines := intOfFloat (machines.getD pod 0)
      shortfalls := intOfFloat (shortfalls.getD pod 0)
      activeSessions := intOfFloat (sessions.getD pod 0) } : ShardSummary))).map ShardSummary.pod =
      sortStrings ((s.rt.entries 0 machines).map Prod.fst) := by
    rw [List.map_map]
    exact List.map_id _
  constructor
  case sorted =>
    rw [hpods]
    have hnodup := hperm.symm.nodup machines.keys_nodup
    exact ((sortStrings_sorted _).and hnodup).imp (fun hlt => lt_of_le_of_ne hlt.1 hlt.2)
  case pods =>
    intro pod
    rw [hpods]
    exact hmem pod
  case machines =>
    intro row hrow
    obtain ⟨pod, hpod, rfl⟩ := List.mem_map.mp hrow
    dsimp only
    rw [getD_of_byLabel h.machinesByPod hmachines (hne pod hpod)]
    exact intOfFloat_cast (machineCount_le g _)
  case shortfalls =>
    intro row hrow
    obtain ⟨pod, hpod, rfl⟩ := List.mem_map.mp hrow
    dsimp only
    rw [getD_of_byLabel h.shortfallsByPod hshortfalls (hne pod hpod)]
    exact intOfFloat_cast (shortfallCount_le g _)
  case sessions =>
    intro row hrow
    obtain ⟨pod, hpod, rfl⟩ := List.mem_map.mp hrow
    dsimp only
    rw [getD_of_byLabel h.sessionsByPod hsessions (hne pod hpod)]
    exact intOfFloat_cast (sessionCount_le g _)

/-- The page of a shard in terms of the gauges. -/
structure ShowsShard (g : Gauges) (detail : ShardDetail) : Prop where
  machines : detail.machines = machineCount (fun m => m.pod = detail.pod) g.machines
  states : (detail.machinesByState.values.map intOfFloat).sum =
    machineCount (fun m => m.pod = detail.pod) g.machines
  capacities : (detail.machinesByCapacityType.values.map intOfFloat).sum =
    machineCount (fun m => m.pod = detail.pod) g.machines
  shortfalls : detail.shortfalls = podCount (fun m => m.pod = detail.pod) g.shortfalls
  sessions : detail.activeSessions = podCount (fun m => m.pod = detail.pod) g.sessions

theorem shardDetailHandler_shows (hs : s.prom = ⟨some api⟩) {r : Request}
    (h : Exports api g (r.pathValue "pod")) {now : Int} {detail : ShardDetail}
    (hdetail : shardDetailHandler s r now = .ok detail) : ShowsShard g detail := by
  simp only [shardDetailHandler, hs, bind_eq_ok_iff, orBadGateway_eq_ok_iff,
    pure_eq_ok_iff] at hdetail
  obtain ⟨-, -, pod, hpod, p99, -, phases, -, byState, hbyState, byCapacity, hbyCapacity,
    shortfalls, hshortfalls, sessions, hsessions, actions, -, committed, -, conflict, -, rfl⟩ :=
    hdetail
  have hname : r.pathValue "pod" = pod := by
    unfold requirePodName at hpod
    dsimp only at hpod
    split_ifs at hpod
    exact Except.ok.inj hpod
  rw [hname] at h
  have hsum : ∀ series : List MachineSeries, sumWhere MachineSeries.count (fun _ => True)
      (series.filter (fun m => m.pod = pod)) = machineCount (fun m => m.pod = pod) series := by
    intro series
    rw [sumWhere_filter]
    exact sumWhere_congr (fun m _ => by simp)
  have hpodSum : ∀ series : List PodSeries, sumWhere PodSeries.count (fun _ => True)
      (series.filter (fun m => m.pod = pod)) = podCount (fun m => m.pod = pod) series := by
    intro series
    rw [sumWhere_filter]
    exact sumWhere_congr (fun m _ => by simp)
  have hlabels : ∀ m ∈ g.machines.filter (fun m => m.pod = pod),
      m.label "state" ≠ "" ∧ m.label "capacity_type" ≠ "" :=
    fun m hm => (g.machine_labels m (List.mem_of_mem_filter hm)).2
  have hfit : ((sumWhere MachineSeries.count (fun _ => True)
      (g.machines.filter (fun m => m.pod = pod)) : ℕ) : Int) ≤ maxInt64 := by
    rw [hsum]
    exact machineCount_le g _
  constructor
  case machines =>
    show intOfFloat (sumValues s.rt 0 byState) = _
    rw [sumValues_of_byLabel h.podByState hbyState (fun m hm => (hlabels m hm).1),
      intOfFloat_cast hfit, hsum]
  case states =>
    rw [← hsum]
    exact sum_values_of_byLabel h.podByState hbyState (fun m hm => (hlabels m hm).1) hfit
  case capacities =>
    rw [← hsum]
    exact sum_values_of_byLabel h.podByCapacity hbyCapacity (fun m hm => (hlabels m hm).2) hfit
  case shortfalls =>
    show intOfFloat shortfalls = _
    rw [queryScalar_sums h.podShortfalls hshortfalls, hpodSum]
    exact intOfFloat_cast (shortfallCount_le g _)
  case sessions =>
    show intOfFloat sessions = _
    rw [queryScalar_sums h.podSessions hsessions, hpodSum]
    exact intOfFloat_cast (sessionCount_le g _)

/-- The totals of the FinOps snapshot in terms of the gauges. -/
structure ShowsFinOps (g : Gauges) (snap : FinOpsSnapshot) : Prop where
  configured : snap.totals.configuredMachines =
    machineCount (fun m => m.state = "Configured") g.machines
  idle : snap.totals.idleMachines = machineCount (fun m => m.state = "Idle") g.machines

theorem finopsHandler_shows (hs : s.prom = ⟨some api⟩) (h : Exports api g pod) {now : Int}
    {snap : FinOpsSnapshot} (hsnap : finopsHandler s now = .ok snap) : ShowsFinOps g snap := by
  simp only [finopsHandler, finopsQueries, hs, bind_eq_ok_iff, orBadGateway_eq_ok_iff,
    pure_eq_ok_iff] at hsnap
  obtain ⟨-, -, answers, ⟨configured, hconfigured, idle, hidle, samples, -, demand, -, buckets, -,
    total, -, rates, -, rfl⟩, rfl⟩ := hsnap
  have hsum : ∀ state, sumWhere MachineSeries.count (fun _ => True)
      (g.machines.filter (fun m => m.state = state)) =
        machineCount (fun m => m.state = state) g.machines := by
    intro state
    rw [sumWhere_filter]
    exact sumWhere_congr (fun m _ => by simp)
  have hlabel : ∀ state, ∀ m ∈ g.machines.filter (fun m => m.state = state),
      m.label "capacity_type" ≠ "" :=
    fun state m hm => (g.machine_labels m (List.mem_of_mem_filter hm)).2.2
  constructor
  case configured =>
    show intOfFloat (sumValues s.rt 4 configured) = _
    rw [sumValues_of_byLabel h.configured hconfigured (hlabel "Configured"), hsum]
    exact intOfFloat_cast (machineCount_le g _)
  case idle =>
    show intOfFloat (sumValues s.rt 8 idle) = _
    rw [sumValues_of_byLabel h.idle hidle (hlabel "Idle"), hsum]
    exact intOfFloat_cast (machineCount_le g _)

end Pages

/-! ## The pages agree -/

/-- The numbers of the four pages agree with one another. -/
structure OneFleet (g : Gauges) (fleet : FleetOverview) (list : ShardsList) (snap : FinOpsSnapshot)
    (detail : ShardDetail) : Prop where
  machines : (list.shards.map ShardSummary.machines).sum = fleet.machines
  states : (fleet.machinesByState.values.map intOfFloat).sum = fleet.machines
  shortfalls : (list.shards.map ShardSummary.shortfalls).sum ≤ fleet.shortfalls
  sessions : (list.shards.map ShardSummary.activeSessions).sum ≤ fleet.clusters
  anchored : (∀ m ∈ g.shortfalls ++ g.sessions, ∃ row ∈ list.shards, row.pod = m.pod) →
    (list.shards.map ShardSummary.shortfalls).sum = fleet.shortfalls ∧
      (list.shards.map ShardSummary.activeSessions).sum = fleet.clusters
  configured : snap.totals.configuredMachines =
    intOfFloat (fleet.machinesByState.getD "Configured" 0)
  idle : snap.totals.idleMachines = intOfFloat (fleet.machinesByState.getD "Idle" 0)
  once : (list.shards.map ShardSummary.pod).Pairwise (· < ·)
  row : ∀ row ∈ list.shards, row.pod = detail.pod → row.machines = detail.machines ∧
    row.shortfalls = detail.shortfalls ∧ row.activeSessions = detail.activeSessions
  unlisted : detail.pod ∉ list.shards.map ShardSummary.pod → detail.machines = 0
  splits : (detail.machinesByState.values.map intOfFloat).sum = detail.machines ∧
    (detail.machinesByCapacityType.values.map intOfFloat).sum = detail.machines

/-- A column of the list adds up to the series of the listed pods. -/
theorem sum_column {σ : Type} {count : σ → ℕ} {pod : σ → String} {series : List σ}
    {rows : List ShardSummary} (hnodup : (rows.map ShardSummary.pod).Nodup)
    {column : ShardSummary → Int} (h : ∀ row ∈ rows,
      column row = ((sumWhere count (fun m => pod m = row.pod) series : ℕ) : Int)) :
    (rows.map column).sum =
      ((sumWhere count (fun m => pod m ∈ rows.map ShardSummary.pod) series : ℕ) : Int) := by
  have hfibres := sum_map_sumWhere count (fun _ => True) pod (rows.map ShardSummary.pod) hnodup series
  simp only [true_and] at hfibres
  rw [List.map_congr_left h, ← hfibres, Nat.cast_list_sum, List.map_map, List.map_map]
  rfl

/-- Four pages that were loaded at any four times from the same gauges agree. -/
theorem pages_agree {s : Server} {api : Api} {g : Gauges} (hapi : s.prom.api = some api)
    {r : Request} (h : Exports api g (r.pathValue "pod")) {t₁ t₂ t₃ t₄ : Int}
    {fleet : FleetOverview} {list : ShardsList} {snap : FinOpsSnapshot} {detail : ShardDetail}
    (hfleet : fleetOverviewHandler s t₁ = .ok fleet) (hlist : shardsListHandler s t₂ = .ok list)
    (hsnap : finopsHandler s t₃ = .ok snap) (hdetail : shardDetailHandler s r t₄ = .ok detail) :
    OneFleet g fleet list snap detail := by
  have hs : s.prom = ⟨some api⟩ := by rw [← hapi]
  have hf := fleetOverviewHandler_shows hs h hfleet
  have hl := shardsListHandler_shows hs h hlist
  have hn := finopsHandler_shows hs h hsnap
  have hd := shardDetailHandler_shows hs h hdetail
  have hnodup : (list.shards.map ShardSummary.pod).Nodup := hl.sorted.imp (fun hlt => hlt.ne)
  have hlisted : ∀ m ∈ g.machines, m.pod ∈ list.shards.map ShardSummary.pod ↔ True :=
    fun m hm => iff_of_true ((hl.pods m.pod).mpr ⟨m, hm, rfl⟩) trivial
  have hshortfalls := sum_column hnodup hl.shortfalls
  have hsessions := sum_column hnodup hl.sessions
  constructor
  case machines =>
    rw [sum_column hnodup hl.machines, hf.machines, sumWhere_congr hlisted]
    rfl
  case states => rw [hf.states, hf.machines]
  case shortfalls =>
    rw [hshortfalls, hf.shortfalls]
    exact_mod_cast sumWhere_le_all
  case sessions =>
    rw [hsessions, hf.sessions]
    exact_mod_cast sumWhere_le_all
  case anchored =>
    intro hall
    have hpods : ∀ m ∈ g.shortfalls ++ g.sessions,
        m.pod ∈ list.shards.map ShardSummary.pod ↔ True := by
      intro m hm
      obtain ⟨row, hrow, hpod⟩ := hall m hm
      exact iff_of_true (List.mem_map.mpr ⟨row, hrow, hpod⟩) trivial
    constructor
    · rw [hshortfalls, hf.shortfalls,
        sumWhere_congr (fun m hm => hpods m (List.mem_append_left _ hm))]
      rfl
    · rw [hsessions, hf.sessions,
        sumWhere_congr (fun m hm => hpods m (List.mem_append_right _ hm))]
      rfl
  case configured => rw [hn.configured, hf.state "Configured" (by decide)]
  case idle => rw [hn.idle, hf.state "Idle" (by decide)]
  case once => exact hl.sorted
  case row =>
    intro row hrow hpod
    rw [hl.machines row hrow, hl.shortfalls row hrow, hl.sessions row hrow, hd.machines,
      hd.shortfalls, hd.sessions, hpod]
    exact ⟨rfl, rfl, rfl⟩
  case unlisted =>
    intro hno
    have hnone : ∀ m ∈ g.machines, ¬ m.pod = detail.pod := by
      intro m hm hpod
      exact hno ((hl.pods detail.pod).mpr ⟨m, hm, hpod⟩)
    rw [hd.machines, machineCount, sumWhere_eq_zero hnone]
    rfl
  case splits => exact ⟨by rw [hd.states, hd.machines], by rw [hd.capacities, hd.machines]⟩

/-- Three machines of one shard, which has a shortfall and two sessions. -/
def oneShard : Gauges where
  machines := [⟨"shard-0", "Configured", "Spot", 3⟩]
  shortfalls := [⟨"shard-0", 1⟩]
  sessions := [⟨"shard-0", 2⟩]
  machine_labels := by decide
  shortfall_pod := by decide
  session_pod := by decide
  machines_exact := by decide
  shortfalls_exact := by decide
  sessions_exact := by decide

/-- The sample that a query is answered with. -/
def oneShardAnswers : List (String × Sample) :=
  [(queryInventoryByState, ⟨OrderedMap.empty.set "state" "Configured", .fin 3⟩),
    (queryShortfalls, ⟨OrderedMap.empty, .fin 1⟩),
    (queryClusterCount, ⟨OrderedMap.empty, .fin 2⟩),
    (queryShardsMachinesByPod, ⟨OrderedMap.empty.set "pod" "shard-0", .fin 3⟩),
    (queryShardsShortfallsByPod, ⟨OrderedMap.empty.set "pod" "shard-0", .fin 1⟩),
    (queryShardsSessionsByPod, ⟨OrderedMap.empty.set "pod" "shard-0", .fin 2⟩),
    (queryPodByState "shard-0", ⟨OrderedMap.empty.set "state" "Configured", .fin 3⟩),
    (queryPodByCapacity "shard-0", ⟨OrderedMap.empty.set "capacity_type" "Spot", .fin 3⟩),
    (queryPodShortfalls "shard-0", ⟨OrderedMap.empty, .fin 1⟩),
    (queryPodSessions "shard-0", ⟨OrderedMap.empty, .fin 2⟩),
    (queryFinopsConfiguredByCapacity, ⟨OrderedMap.empty.set "capacity_type" "Spot", .fin 3⟩)]

def oneShardApi : Api where
  query q _ := .ok (.vector ((oneShardAnswers.find? (fun e => e.1 = q)).map Prod.snd).toList)
  queryRange _ _ := .error ""

def oneShardServer : Server := { Server.unwired with prom := ⟨some oneShardApi⟩ }

def oneShardRequest : Request := ⟨fun _ => "", fun _ => "shard-0"⟩

theorem sums_single {q : String} {σ : Type} {label : σ → String → String} {count : σ → ℕ}
    {L : List String} {s : σ} {x : Sample}
    (hq : oneShardAnswers.find? (fun e => e.1 = q) = some (q, x)) (hv : x.value = .fin (count s))
    (hlabels : L.map (fun l => x.metric.getD l "") = L.map (label s))
    (hentries : ∀ e ∈ x.metric.entries, e.1 ∈ L ∧ e.2 ≠ "") :
    Sums oneShardApi q label count L [s] := by
  intro t v h
  refine ⟨[x], ?_, sumBy_singleton hv hlabels hentries⟩
  have hv' := Except.ok.inj h
  rw [hq] at hv'
  exact hv'.symm

theorem pages_agree_oneShard :
    ∃ fleet list snap detail, fleetOverviewHandler oneShardServer 0 = .ok fleet ∧
      shardsListHandler oneShardServer 7 = .ok list ∧ finopsHandler oneShardServer 8 = .ok snap ∧
      shardDetailHandler oneShardServer oneShardRequest 9 = .ok detail ∧
      OneFleet oneShard fleet list snap detail := by
  have hexports : Exports oneShardApi oneShard "shard-0" := by
    constructor
    case byState => exact sums_single rfl rfl (by decide) (by decide)
    case shortfalls => exact sums_single rfl rfl (by decide) (by decide)
    case sessions => exact sums_single rfl rfl (by decide) (by decide)
    case machinesByPod => exact sums_single rfl rfl (by decide) (by decide)
    case shortfallsByPod => exact sums_single rfl rfl (by decide) (by decide)
    case sessionsByPod => exact sums_single rfl rfl (by decide) (by decide)
    case podByState => exact sums_single rfl rfl (by decide) (by decide)
    case podByCapacity => exact sums_single rfl rfl (by decide) (by decide)
    case podShortfalls => exact sums_single rfl rfl (by decide) (by decide)
    case podSessions => exact sums_single rfl rfl (by decide) (by decide)
    case configured => exact sums_single rfl rfl (by decide) (by decide)
    case idle =>
      intro t v h
      exact ⟨[], (Except.ok.inj h).symm, by simp, by simp [oneShard], by simp, by simp⟩
  refine ⟨_, _, _, _, rfl, rfl, rfl, rfl, ?_⟩
  exact pages_agree (s := oneShardServer) (r := oneShardRequest) rfl hexports rfl rfl rfl rfl

end BigfleetDashboard.FleetCounts
