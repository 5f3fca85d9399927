import BigfleetDashboard.Server

/-!
# The handlers that read Prometheus

Each handler answers with a body or fails with a status and a message; the
first failed query ends it. The topology handler is the exception: it reports
failed queries as warnings beside the answer of the coordinator.
-/
namespace BigfleetDashboard.Handlers
open Go PromClient CoordClient

/-- The accumulator loop over the values of a map. -/
def sumValues (rt : Runtime) (loop : ℕ) (m : OrderedMap String ExtRat) : ExtRat :=
  ExtRat.total ((rt.entries loop m).map Prod.snd)

/-! ## Fleet -/

def queryShardCount : String := "count(rate(bigfleet_shard_cycle_duration_seconds_count[2m]) > 0)"
def queryClusterCount : String := "sum(bigfleet_shard_active_sessions)"
def queryShortfalls : String := "sum(bigfleet_shard_shortfalls)"
def queryCycleP99WorstShard : String :=
  "max(histogram_quantile(0.99, sum by (le, pod) (rate(bigfleet_shard_cycle_duration_seconds_bucket[5m]))))"
def queryInventoryByState : String := "sum by (state) (bigfleet_shard_inventory_machines)"
def queryActionsByKindRate : String := "sum by (kind) (rate(bigfleet_shard_actions_total[5m]))"

structure FleetOverview where
  shards : Int
  clusters : Int
  machines : Int
  machinesByState : OrderedMap String ExtRat
  shortfalls : Int
  cycleP99Seconds : ExtRat
  queriedAt : Int

def fleetOverviewHandler (s : Server) (now : Int) : Except Failure FleetOverview := do
  requirePrometheus s
  let shards ← orBadGateway "prometheus query (shards): "
    (queryScalar s.prom queryShardCount now)
  let clusters ← orBadGateway "prometheus query (clusters): "
    (queryScalar s.prom queryClusterCount now)
  let shortfalls ← orBadGateway "prometheus query (shortfalls): "
    (queryScalar s.prom queryShortfalls now)
  let cycleP99 ← orBadGateway "prometheus query (cycle p99): "
    (queryScalar s.prom queryCycleP99WorstShard now)
  let byState ← orBadGateway "prometheus query (inventory by state): "
    (queryByLabel s.prom queryInventoryByState "state" now)
  return {
    shards := intOfFloat shards
    clusters := intOfFloat clusters
    machines := intOfFloat (sumValues s.rt 0 byState)
    machinesByState := byState
    shortfalls := intOfFloat shortfalls
    cycleP99Seconds := cycleP99
    queriedAt := now }

/-- An absent, unreadable or non-positive duration becomes the default, a long one the maximum. -/
def parseDuration (rt : Runtime) (s : String) (default max : Int) : Int :=
  if s = "" then default
  else
    match rt.parseDuration s with
    | none => default
    | some d => if d ≤ 0 then default else if d > max then max else d

theorem parseDuration_spec (rt : Runtime) (s : String) {default max : Int} (hd : 0 < default)
    (hm : default ≤ max) :
    0 < parseDuration rt s default max ∧ parseDuration rt s default max ≤ max := by
  unfold parseDuration
  split_ifs with hs
  · exact ⟨hd, hm⟩
  · cases rt.parseDuration s with
    | none => exact ⟨hd, hm⟩
    | some d =>
      dsimp only
      split_ifs
      · exact ⟨hd, hm⟩
      · omega
      · omega

/-- The `duration` and `step` parameters of a request for a series. -/
def durationParam (rt : Runtime) (r : Request) : Int :=
  parseDuration rt (r.query "duration") hour (24 * hour)

def stepParam (rt : Runtime) (r : Request) : Int :=
  parseDuration rt (r.query "step") (30 * second) hour

theorem durationParam_mem (rt : Runtime) (r : Request) :
    0 < durationParam rt r ∧ durationParam rt r ≤ 24 * hour :=
  parseDuration_spec rt _ (by decide) (by decide)

theorem stepParam_mem (rt : Runtime) (r : Request) : 0 < stepParam rt r ∧ stepParam rt r ≤ hour :=
  parseDuration_spec rt _ (by decide) (by decide)

/-- The range ends at the last multiple of the step. -/
def seriesRange (rt : Runtime) (r : Request) (now : Int) : Range :=
  let step := stepParam rt r
  let now := truncate now step
  { start := now - durationParam rt r, stop := now, step := step }

structure FleetActionsSeries where
  timestamps : List Int
  kinds : List String
  values : List (List ExtRat)

def fleetActionsHandler (s : Server) (r : Request) (now : Int) :
    Except Failure FleetActionsSeries := do
  requirePrometheus s
  let (timestamps, series) ← orBadGatewayRange "prometheus query (actions): "
    (queryRangeByLabel s.prom queryActionsByKindRate "kind" (seriesRange s.rt r now))
  let kinds := sortStrings ((s.rt.entries 0 series).map Prod.fst)
  return {
    timestamps := timestamps
    kinds := kinds
    values := kinds.map (fun k => series.getD k []) }

/-! ## Shards -/

def queryShardsCycleP99ByPod : String :=
  "histogram_quantile(0.99, sum by (le, pod) (rate(bigfleet_shard_cycle_duration_seconds_bucket[5m])))"
def queryShardsMachinesByPod : String := "sum by (pod) (bigfleet_shard_inventory_machines)"
def queryShardsShortfallsByPod : String := "sum by (pod) (bigfleet_shard_shortfalls)"
def queryShardsSessionsByPod : String := "sum by (pod) (bigfleet_shard_active_sessions)"

structure ShardSummary where
  pod : String
  cycleP99Seconds : ExtRat
  machines : Int
  shortfalls : Int
  activeSessions : Int

structure ShardsList where
  shards : List ShardSummary
  queriedAt : Int

/-- The list is anchored on the pods that report machines. -/
def shardsListHandler (s : Server) (now : Int) : Except Failure ShardsList := do
  requirePrometheus s
  let cycleP99 ← orBadGateway "prometheus query (cycle p99 by pod): "
    (queryByLabel s.prom queryShardsCycleP99ByPod "pod" now)
  let machines ← orBadGateway "prometheus query (machines by pod): "
    (queryByLabel s.prom queryShardsMachinesByPod "pod" now)
  let shortfalls ← orBadGateway "prometheus query (shortfalls by pod): "
    (queryByLabel s.prom queryShardsShortfallsByPod "pod" now)
  let sessions ← orBadGateway "prometheus query (sessions by pod): "
    (queryByLabel s.prom queryShardsSessionsByPod "pod" now)
  let names := sortStrings ((s.rt.entries 0 machines).map Prod.fst)
  return {
    shards := names.map (fun pod => {
      pod := pod
      cycleP99Seconds := cycleP99.getD pod 0
      machines := intOfFloat (machines.getD pod 0)
      shortfalls := intOfFloat (shortfalls.getD pod 0)
      activeSessions := intOfFloat (sessions.getD pod 0) })
    queriedAt := now }

/-- A lower-case letter or a digit. -/
def isPodAlnum (c : Char) : Bool := ('a' ≤ c && c ≤ 'z') || ('0' ≤ c && c ≤ '9')

def isPodChar (c : Char) : Bool := isPodAlnum c || c = '.' || c = '-'

/-- The expression `^[a-z0-9][a-z0-9.-]{0,252}$`. -/
def podNameRE (pod : String) : Bool :=
  match pod.toList with
  | [] => false
  | c :: cs => isPodAlnum c && cs.all isPodChar && cs.length ≤ 252

/-- The verb `%q` on a text of printable ASCII characters: the quote and the
backslash are escaped. -/
def quote (s : String) : String :=
  let escape (c : Char) : List Char := if c = '"' || c = '\\' then ['\\', c] else [c]
  String.ofList ('"' :: s.toList.flatMap escape ++ ['"'])

def requirePodName (r : Request) : Except Failure String :=
  let pod := r.pathValue "pod"
  if podNameRE pod then .ok pod
  else .error (.response statusBadRequest "invalid pod name")

theorem requirePodName_of_accepted {r : Request} (h : podNameRE (r.pathValue "pod") = true) :
    requirePodName r = .ok (r.pathValue "pod") := by
  simp only [requirePodName, h, if_true]

theorem requirePodName_of_rejected {r : Request} (h : podNameRE (r.pathValue "pod") = false) :
    requirePodName r = .error (.response statusBadRequest "invalid pod name") := by
  simp only [requirePodName, h, Bool.false_eq_true, if_false]

structure ShardDetail where
  pod : String
  cycleP99Seconds : ExtRat
  cycleP99ByPhaseSeconds : OrderedMap String ExtRat
  machines : Int
  machinesByState : OrderedMap String ExtRat
  machinesByCapacityType : OrderedMap String ExtRat
  shortfalls : Int
  activeSessions : Int
  actionsByKindRatePerSec : OrderedMap String ExtRat
  occCommittedPerSec : ExtRat
  occConflictPerSec : ExtRat
  queriedAt : Int

/-- A selector on the pod label. -/
def podSelector (pod : String) : String := "\x7bpod=" ++ quote pod ++ "\x7d"

def shardDetailHandler (s : Server) (r : Request) (now : Int) : Except Failure ShardDetail := do
  requirePrometheus s
  let pod ← requirePodName r
  let cycleP99 ← orBadGateway "prometheus query (cycle p99): " (queryScalar s.prom
    ("histogram_quantile(0.99, sum by (le) (rate(bigfleet_shard_cycle_duration_seconds_bucket" ++
      podSelector pod ++ "[5m])))") now)
  let phaseP99 ← orBadGateway "prometheus query (phase p99): " (queryByLabel s.prom
    ("histogram_quantile(0.99, sum by (le, phase) " ++
      "(rate(bigfleet_shard_cycle_phase_duration_seconds_bucket" ++ podSelector pod ++ "[5m])))")
    "phase" now)
  let byState ← orBadGateway "prometheus query (inventory by state): " (queryByLabel s.prom
    ("sum by (state) (bigfleet_shard_inventory_machines" ++ podSelector pod ++ ")") "state" now)
  let byCapacity ← orBadGateway "prometheus query (inventory by capacity_type): "
    (queryByLabel s.prom
      ("sum by (capacity_type) (bigfleet_shard_inventory_machines" ++ podSelector pod ++ ")")
      "capacity_type" now)
  let shortfalls ← orBadGateway "prometheus query (shortfalls): " (queryScalar s.prom
    ("sum(bigfleet_shard_shortfalls" ++ podSelector pod ++ ")") now)
  let sessions ← orBadGateway "prometheus query (sessions): " (queryScalar s.prom
    ("sum(bigfleet_shard_active_sessions" ++ podSelector pod ++ ")") now)
  let actionsByKind ← orBadGateway "prometheus query (actions by kind): " (queryByLabel s.prom
    ("sum by (kind) (rate(bigfleet_shard_actions_total" ++ podSelector pod ++ "[5m]))") "kind" now)
  let occCommitted ← orBadGateway "prometheus query (occ committed): " (queryScalar s.prom
    ("sum(rate(bigfleet_shard_phase1_occ_proposals_total\x7bpod=" ++ quote pod ++
      ",outcome=\"committed\"\x7d[5m]))") now)
  let occConflict ← orBadGateway "prometheus query (occ conflict): " (queryScalar s.prom
    ("sum(rate(bigfleet_shard_phase1_occ_proposals_total\x7bpod=" ++ quote pod ++
      ",outcome=\"conflict\"\x7d[5m]))") now)
  return {
    pod := pod
    cycleP99Seconds := cycleP99
    cycleP99ByPhaseSeconds := phaseP99
    machines := intOfFloat (sumValues s.rt 0 byState)
    machinesByState := byState
    machinesByCapacityType := byCapacity
    shortfalls := intOfFloat shortfalls
    activeSessions := intOfFloat sessions
    actionsByKindRatePerSec := actionsByKind
    occCommittedPerSec := occCommitted
    occConflictPerSec := occConflict
    queriedAt := now }

/-- The p99 series of the pod is nil when Prometheus returned none for it. -/
structure ShardTrends where
  pod : String
  timestamps : List Int
  cycleP99Seconds : Option (List ExtRat)
  actionRates : OrderedMap String (List ExtRat)
  queriedAt : Int

def queryCycleP99Trend (pod : String) : String :=
  "histogram_quantile(0.99, sum by (le, pod) (rate(bigfleet_shard_cycle_duration_seconds_bucket" ++
    podSelector pod ++ "[5m])))"

def queryActionRateTrend (pod : String) : String :=
  "sum by (kind) (rate(bigfleet_shard_actions_total" ++ podSelector pod ++ "[5m]))"

def shardTrendsHandler (s : Server) (r : Request) (now : Int) : Except Failure ShardTrends := do
  requirePrometheus s
  let pod ← requirePodName r
  let rng := seriesRange s.rt r now
  let (timestamps, cycleByPod) ← orBadGatewayRange "prometheus query (cycle p99 trend): "
    (queryRangeByLabel s.prom (queryCycleP99Trend pod) "pod" rng)
  let (_, actionRates) ← orBadGatewayRange "prometheus query (action rate trend): "
    (queryRangeByLabel s.prom (queryActionRateTrend pod) "kind" rng)
  return {
    pod := pod
    timestamps := timestamps
    cycleP99Seconds := cycleByPod.get? pod
    actionRates := actionRates
    queriedAt := rng.stop }

/-! ## Topology -/

def queryRaftTerm : String := "max(bigfleet_coordinator_raft_term)"
def queryApplySuccessRate : String :=
  "sum(rate(bigfleet_coordinator_apply_total\x7boutcome=\"success\"\x7d[5m]))"
def queryApplyErrorRate : String :=
  "sum(rate(bigfleet_coordinator_apply_total\x7boutcome=\"error\"\x7d[5m]))"
def queryPendingInstructions : String := "bigfleet_coordinator_pending_instructions"

structure CoordinatorHealth where
  raftTerm : Int
  applyRatePerSec : ExtRat
  applyErrorRatePerSec : ExtRat
  pendingInstructionsTotal : Int

structure TopologyShard where
  shardId : String
  address : String
  registeredAtUnixSec : Int
  lastHeartbeatUnixSec : Int
  pendingInstructions : Int

structure TopologyDomainAssignment where
  topologyKey : String
  topologyValue : String
  shardId : String

structure Topology where
  coordinator : CoordinatorHealth
  shards : List TopologyShard
  domainAssignments : List TopologyDomainAssignment
  warnings : List String
  queriedAt : Int

/-- A failed query leaves the zero value and adds a warning. -/
def orWarn {α : Type} (message : String) (zero : α) : Except String α → α × List String
  | .ok a => (a, [])
  | .error err => (zero, [message ++ err])

/-- The sum of the whole parts, in 64-bit arithmetic. -/
def pendingTotal (rt : Runtime) (m : OrderedMap String ExtRat) : Int :=
  (rt.entries 0 m).foldl (fun total e => wrapInt64 (total + intOfFloat e.2)) 0

/-- The coordinator's metrics, the pending instructions by shard, and the warnings. -/
def coordinatorHealth (s : Server) (now : Int) :
    CoordinatorHealth × OrderedMap String ExtRat × List String :=
  if s.prom.configured then
    let term := orWarn "prometheus query (raft term): " 0
      ((queryScalar s.prom queryRaftTerm now).map intOfFloat)
    let rate := orWarn "prometheus query (apply rate): " 0
      (queryScalar s.prom queryApplySuccessRate now)
    let errorRate := orWarn "prometheus query (apply error rate): " 0
      (queryScalar s.prom queryApplyErrorRate now)
    let pending := orWarn "prometheus query (pending instructions): " OrderedMap.empty
      (queryByLabel s.prom queryPendingInstructions "shard" now)
    ({ raftTerm := term.1
       applyRatePerSec := rate.1
       applyErrorRatePerSec := errorRate.1
       pendingInstructionsTotal := pendingTotal s.rt pending.1 },
      pending.1, term.2 ++ rate.2 ++ errorRate.2 ++ pending.2)
  else
    (⟨0, 0, 0, 0⟩, OrderedMap.empty,
      ["prometheus not configured — coordinator metrics unavailable"])

/-- The clock is read once for the queries and once more for the answer. -/
def topologyHandler (s : Server) (now later : Int) : Except Failure Topology := do
  requireCoordinator s
  let shards ← orCoordError "coordinator ListShards: " s.coord.listShards
  let domains ← orCoordError "coordinator ListDomainAssignments: " s.coord.listDomainAssignments
  let (health, pendingByShard, warnings) := coordinatorHealth s now
  return {
    coordinator := health
    shards := shards.map (fun sd => {
      shardId := sd.shardId
      address := sd.address
      registeredAtUnixSec := sd.registeredAtUnixNs.tdiv second
      lastHeartbeatUnixSec := sd.lastHeartbeatUnixNs.tdiv second
      pendingInstructions := intOfFloat (pendingByShard.getD sd.shardId 0) })
    domainAssignments := domains.map (fun d => {
      topologyKey := d.topologyKey
      topologyValue := d.topologyValue
      shardId := d.shardId })
    warnings := warnings
    queriedAt := later }

end BigfleetDashboard.Handlers
