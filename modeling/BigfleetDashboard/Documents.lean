import BigfleetDashboard.FiniteBodies
import BigfleetDashboard.JsonText
import BigfleetDashboard.Wiring

/-!
# The documents of the answers

Every answer has a document: its fields under the names that their tags give, in the
order of the fields. A nil map or a nil slice is `null`, the entries of a map are sorted by
key, and a field that may be left out is left out if it is empty. A number that is not
finite has no text, and with it the whole body has none.
-/
namespace BigfleetDashboard.Web
open Go CoordClient Handlers Clusters JsonText

/-- The texts of numbers and instants. -/
structure Formats where
  float : ℚ → Numeral
  time : Int → String

section Parts
variable {α : Type}

def ofInt (n : Int) : Json := .num (.ofInt n)

def ofFloat (fmt : Formats) : ExtRat → Option Json
  | .fin q => some (.num (fmt.float q))
  | _ => none

def ofMap (f : α → Json) (m : OrderedMap String α) : Json := ofEntries f (Script.sortedEntries m)

def ofGoMap (f : α → Json) : GoMap α → Json
  | none => .null
  | some m => ofMap f m

/-- A list has a document if all of its elements have one. -/
def ofListM (f : α → Option Json) (xs : List α) : Option Json := (xs.mapM f).map .arr

def ofSliceM (f : α → Option Json) : Option (List α) → Option Json
  | none => some .null
  | some xs => ofListM f xs

/-- A map has a document if all of its values have one. -/
def ofMapM (f : α → Option Json) (m : OrderedMap String α) : Option Json :=
  ((Script.sortedEntries m).mapM (fun e => (f e.2).map (Prod.mk e.1))).map .obj

def omitNone (f : α → Json) (x : Option α) : Option Json := x.map f

def omitText (s : String) : Option Json := if s = "" then none else some (.str s)

def omitZero (n : Int) : Option Json := if n = 0 then none else some (ofInt n)

def omitNil (f : α → Json) (xs : List α) : Option Json :=
  if xs.isEmpty then none else some (ofList f xs)

def omitEmptyMap (f : α → Json) (m : GoMap α) : Option Json :=
  if (m.map OrderedMap.entries).getD [] = [] then none else some (ofGoMap f m)

end Parts

/-! ## The bodies -/

def ErrorResponse.document (message : String) : Json := record [("error", some (.str message))]

def HealthResponse.document (status : String) : Json := record [("status", some (.str status))]

def ClientConfig.document (c : ClientConfig) : Json :=
  record [
    ("grafanaUrl", some (.str c.grafanaUrl)),
    ("prometheusWired", some (.bool c.prometheusWired)),
    ("coordinatorWired", some (.bool c.coordinatorWired)),
    ("kubeconfigWired", some (.bool c.kubeconfigWired))]

section Prometheus
variable (fmt : Formats)

def FleetOverview.document (b : FleetOverview) : Option Json := do
  let machinesByState ← ofMapM (ofFloat fmt) b.machinesByState
  let cycleP99Seconds ← ofFloat fmt b.cycleP99Seconds
  some (record [
    ("shards", some (ofInt b.shards)),
    ("clusters", some (ofInt b.clusters)),
    ("machines", some (ofInt b.machines)),
    ("machinesByState", some machinesByState),
    ("shortfalls", some (ofInt b.shortfalls)),
    ("cycleP99Seconds", some cycleP99Seconds),
    ("queriedAt", some (.str (fmt.time b.queriedAt)))])

def FleetActionsSeries.document (b : FleetActionsSeries) : Option Json := do
  let values ← ofListM (ofListM (ofFloat fmt)) b.values
  some (record [
    ("timestamps", some (ofList ofInt b.timestamps)),
    ("kinds", some (ofList .str b.kinds)),
    ("values", some values)])

def ShardSummary.document (s : ShardSummary) : Option Json := do
  let cycleP99Seconds ← ofFloat fmt s.cycleP99Seconds
  some (record [
    ("pod", some (.str s.pod)),
    ("cycleP99Seconds", some cycleP99Seconds),
    ("machines", some (ofInt s.machines)),
    ("shortfalls", some (ofInt s.shortfalls)),
    ("activeSessions", some (ofInt s.activeSessions))])

def ShardsList.document (b : ShardsList) : Option Json := do
  let shards ← ofListM (ShardSummary.document fmt) b.shards
  some (record [
    ("shards", some shards),
    ("queriedAt", some (.str (fmt.time b.queriedAt)))])

def ShardDetail.document (b : ShardDetail) : Option Json := do
  let cycleP99Seconds ← ofFloat fmt b.cycleP99Seconds
  let cycleP99ByPhaseSeconds ← ofMapM (ofFloat fmt) b.cycleP99ByPhaseSeconds
  let machinesByState ← ofMapM (ofFloat fmt) b.machinesByState
  let machinesByCapacityType ← ofMapM (ofFloat fmt) b.machinesByCapacityType
  let actionsByKindRatePerSec ← ofMapM (ofFloat fmt) b.actionsByKindRatePerSec
  let occCommittedPerSec ← ofFloat fmt b.occCommittedPerSec
  let occConflictPerSec ← ofFloat fmt b.occConflictPerSec
  some (record [
    ("pod", some (.str b.pod)),
    ("cycleP99Seconds", some cycleP99Seconds),
    ("cycleP99ByPhaseSeconds", some cycleP99ByPhaseSeconds),
    ("machines", some (ofInt b.machines)),
    ("machinesByState", some machinesByState),
    ("machinesByCapacityType", some machinesByCapacityType),
    ("shortfalls", some (ofInt b.shortfalls)),
    ("activeSessions", some (ofInt b.activeSessions)),
    ("actionsByKindRatePerSec", some actionsByKindRatePerSec),
    ("occCommittedPerSec", some occCommittedPerSec),
    ("occConflictPerSec", some occConflictPerSec),
    ("queriedAt", some (.str (fmt.time b.queriedAt)))])

def ShardTrends.document (b : ShardTrends) : Option Json := do
  let cycleP99Seconds ← ofSliceM (ofFloat fmt) b.cycleP99Seconds
  let actionRates ← ofMapM (ofListM (ofFloat fmt)) b.actionRates
  some (record [
    ("pod", some (.str b.pod)),
    ("timestamps", some (ofList ofInt b.timestamps)),
    ("cycleP99Seconds", some cycleP99Seconds),
    ("actionRates", some actionRates),
    ("queriedAt", some (.str (fmt.time b.queriedAt)))])

def FinOpsTotals.document (t : FinOps.FinOpsTotals) : Option Json := do
  let spotConfiguredFraction ← ofFloat fmt t.spotConfiguredFraction
  let pinnedConfiguredFraction ← ofFloat fmt t.pinnedConfiguredFraction
  some (record [
    ("configuredMachines", some (ofInt t.configuredMachines)),
    ("idleMachines", some (ofInt t.idleMachines)),
    ("demandMachines", some (ofInt t.demandMachines)),
    ("spotConfiguredFraction", some spotConfiguredFraction),
    ("pinnedConfiguredFraction", some pinnedConfiguredFraction)])

def FinOpsRedFlag.document (f : FinOps.FinOpsRedFlag) : Option Json := do
  let count ← ofFloat fmt f.count
  some (record [
    ("severity", some (.str f.severity)),
    ("capacityType", some (.str f.capacityType)),
    ("bucket", some (.str f.bucket)),
    ("count", some count),
    ("message", some (.str f.message))])

def FinOpsSnapshot.document (b : FinOps.FinOpsSnapshot) : Option Json := do
  let totals ← FinOpsTotals.document fmt b.totals
  let configuredByCapacityType ← ofMapM (ofFloat fmt) b.configuredByCapacityType
  let idleByCapacityType ← ofMapM (ofFloat fmt) b.idleByCapacityType
  let configured ← ofMapM (ofMapM (ofFloat fmt)) b.configured
  let configuredByBucket ← ofMapM (ofFloat fmt) b.configuredByBucket
  let demand ← ofMapM (ofFloat fmt) b.demand
  let actionRatesPerSec ← ofMapM (ofFloat fmt) b.actionRatesPerSec
  let redFlags ← ofListM (FinOpsRedFlag.document fmt) b.redFlags
  some (record [
    ("totals", some totals),
    ("capacityTypes", some (ofList .str b.capacityTypes)),
    ("buckets", some (ofList .str b.buckets)),
    ("configuredByCapacityType", some configuredByCapacityType),
    ("idleByCapacityType", some idleByCapacityType),
    ("configured", some configured),
    ("configuredByBucket", some configuredByBucket),
    ("demand", some demand),
    ("actionRatesPerSec", some actionRatesPerSec),
    ("redFlags", some redFlags),
    ("queriedAt", some (.str (fmt.time b.queriedAt)))])

def CoordinatorHealth.document (h : CoordinatorHealth) : Option Json := do
  let applyRatePerSec ← ofFloat fmt h.applyRatePerSec
  let applyErrorRatePerSec ← ofFloat fmt h.applyErrorRatePerSec
  some (record [
    ("raftTerm", some (ofInt h.raftTerm)),
    ("applyRatePerSec", some applyRatePerSec),
    ("applyErrorRatePerSec", some applyErrorRatePerSec),
    ("pendingInstructionsTotal", some (ofInt h.pendingInstructionsTotal))])

def TopologyShard.document (s : TopologyShard) : Json :=
  record [
    ("shardId", some (.str s.shardId)),
    ("address", some (.str s.address)),
    ("registeredAtUnixSec", some (ofInt s.registeredAtUnixSec)),
    ("lastHeartbeatUnixSec", some (ofInt s.lastHeartbeatUnixSec)),
    ("pendingInstructions", some (ofInt s.pendingInstructions))]

def TopologyDomainAssignment.document (a : TopologyDomainAssignment) : Json :=
  record [
    ("topologyKey", some (.str a.topologyKey)),
    ("topologyValue", some (.str a.topologyValue)),
    ("shardId", some (.str a.shardId))]

def Topology.document (b : Topology) : Option Json := do
  let coordinator ← CoordinatorHealth.document fmt b.coordinator
  some (record [
    ("coordinator", some coordinator),
    ("shards", some (ofList TopologyShard.document b.shards)),
    ("domainAssignments", some (ofList TopologyDomainAssignment.document b.domainAssignments)),
    ("warnings", omitNil .str b.warnings),
    ("queriedAt", some (.str (fmt.time b.queriedAt)))])

end Prometheus

section Kubernetes
variable (fmt : Formats)

def ClusterSummary.document (c : ClusterSummary) : Json :=
  record [
    ("id", some (.str c.id)),
    ("capacityRequests", some (ofInt c.capacityRequests)),
    ("capacityRequestsPending", some (ofInt c.capacityRequestsPending)),
    ("upcomingNodes", some (ofInt c.upcomingNodes)),
    ("error", omitNone .str c.error)]

def ClustersList.document (b : ClustersList) : Json :=
  record [
    ("clusters", some (ofList ClusterSummary.document b.clusters)),
    ("queriedAt", some (.str (fmt.time b.queriedAt)))]

def ClusterDetail.document (b : ClusterDetail) : Json :=
  record [
    ("id", some (.str b.id)),
    ("capacityRequestsTotal", some (ofInt b.capacityRequestsTotal)),
    ("capacityRequestsByPhase", some (ofGoMap ofInt b.capacityRequestsByPhase)),
    ("upcomingNodesTotal", some (ofInt b.upcomingNodesTotal)),
    ("upcomingNodesByPhase", some (ofGoMap ofInt b.upcomingNodesByPhase)),
    ("queriedAt", some (.str (fmt.time b.queriedAt)))]

def AvailableCapacityItem.document (it : AvailableCapacity) : Json :=
  record [
    ("name", some (.str it.name)),
    ("resources", omitEmptyMap .str it.resources),
    ("availableCount", some (ofInt it.availableCount)),
    ("availability", some (.str it.availability)),
    ("cost", some (.str it.cost)),
    ("requirements", omitNil .str it.requirements)]

def AvailableCapacityCluster.document (c : AvailableCapacityCluster) : Json :=
  record [
    ("id", some (.str c.id)),
    ("items", some ((c.items.map (ofList AvailableCapacityItem.document)).getD .null)),
    ("error", omitNone .str c.error)]

def AvailableCapacityResponse.document (b : AvailableCapacityResponse) : Json :=
  record [
    ("clusters", some (ofList AvailableCapacityCluster.document b.clusters)),
    ("queriedAt", some (.str (fmt.time b.queriedAt)))]

end Kubernetes

section Coordinator
variable (fmt : Formats)

def ShardReportSummary.document (s : ApiReportSummary) : Json :=
  record [
    ("totalMachines", some (ofInt s.totalMachines)),
    ("freeMachines", some (ofInt s.freeMachines)),
    ("instanceTypeCounts", some (ofGoMap ofInt s.instanceTypeCounts)),
    ("zoneCounts", some (ofGoMap ofInt s.zoneCounts)),
    ("providerAddress", some (.str s.providerAddress))]

def ShardReportShortfall.document (sf : ApiReportShortfall) : Json :=
  record [
    ("priority", some (ofInt sf.priority)),
    ("deficit", some (ofGoMap .str sf.deficit)),
    ("ageCycles", some (ofInt sf.ageCycles)),
    ("penaltyBucket", some (.str sf.penaltyBucket))]

def ShardReport.document (r : ApiShardReport) : Json :=
  record [
    ("shardId", some (.str r.shardId)),
    ("cycle", some (ofInt r.cycle)),
    ("receivedAtUnixNs", some (ofInt r.receivedAtUnixNs)),
    ("summary", omitNone ShardReportSummary.document r.summary),
    ("shortfalls", omitNil ShardReportShortfall.document r.shortfalls)]

def ShardReportsList.document (b : ShardReportsList) : Json :=
  record [
    ("reports", some (ofList ShardReport.document b.reports)),
    ("queriedAt", some (.str (fmt.time b.queriedAt)))]

def Requirement.fields (r : ApiRequirement) : List (String × Option Json) := [
  ("key", some (.str r.key)),
  ("operator", some (.str r.operator)),
  ("values", omitNil .str r.values)]

def Requirement.document (r : ApiRequirement) : Json := record (Requirement.fields r)

def TopologySpread.fields (s : ApiTopologySpread) : List (String × Option Json) := [
  ("topologyKey", some (.str s.topologyKey)),
  ("maxSkew", some (ofInt s.maxSkew)),
  ("whenUnsatisfiable", omitText s.whenUnsatisfiable)]

def TopologySpread.document (s : ApiTopologySpread) : Json := record (TopologySpread.fields s)

def MatchingSupply.fields (ms : ApiMatchingSupply) : List (String × Option Json) := [
  ("idle", some (ofInt ms.idle)),
  ("configured", some (ofInt ms.configured)),
  ("speculative", some (ofInt ms.speculative)),
  ("capped", some (.bool ms.capped))]

def MatchingSupply.document (ms : ApiMatchingSupply) : Json := record (MatchingSupply.fields ms)

def PreemptionSummary.fields (p : ApiPreemptionSummary) : List (String × Option Json) := [
  ("victimsFound", some (ofInt p.victimsFound)),
  ("capacityFreed", omitEmptyMap .str p.capacityFreed)]

def PreemptionSummary.document (p : ApiPreemptionSummary) : Json := record (PreemptionSummary.fields p)

def DomainCoverage.fields (c : ApiDomainCoverage) : List (String × Option Json) := [
  ("domain", some (.str c.domain)),
  ("coveragePerMille", some (ofInt c.coveragePerMille)),
  ("satisfiable", some (.bool c.satisfiable))]

def DomainCoverage.document (c : ApiDomainCoverage) : Json := record (DomainCoverage.fields c)

def NeedView.fields (n : ApiNeedView) : List (String × Option Json) := [
  ("clusterId", some (.str n.clusterId)),
  ("priority", some (ofInt n.priority)),
  ("aggregateResources", some (ofGoMap .str n.aggregateResources)),
  ("minUnit", omitEmptyMap .str n.minUnit),
  ("group", omitText n.group),
  ("requirements", omitNil Requirement.document n.requirements),
  ("spread", omitNil TopologySpread.document n.spread),
  ("interruptionPenaltyBucket", some (.str n.interruptionPenaltyBucket)),
  ("reclamationPenaltyBucket", some (.str n.reclamationPenaltyBucket)),
  ("satisfied", some (.bool n.satisfied)),
  ("residualDeficit", omitEmptyMap .str n.residualDeficit),
  ("claimedMachineCount", some (ofInt n.claimedMachineCount)),
  ("bootstrapCount", some (ofInt n.bootstrapCount)),
  ("provisionCount", some (ofInt n.provisionCount)),
  ("sameDomain", omitText n.sameDomain),
  ("sameSatisfiable", some (.bool n.sameSatisfiable)),
  ("acquisitionParked", some (.bool n.acquisitionParked)),
  ("parkedAgeCycles", omitZero n.parkedAgeCycles),
  ("ageCyclesUnmet", some (ofInt n.ageCyclesUnmet)),
  ("unmetReason", some (.str n.unmetReason)),
  ("arrivalUnixNanos", omitZero n.arrivalUnixNanos),
  ("profileFingerprint", omitText n.profileFingerprint),
  ("matchingSupply", omitNone MatchingSupply.document n.matchingSupply),
  ("preemption", omitNone PreemptionSummary.document n.preemption),
  ("sameCandidates", omitNil DomainCoverage.document n.sameCandidates)]

def NeedView.document (n : ApiNeedView) : Json := record (NeedView.fields n)

def NeedsResponse.fields (b : NeedsResponse) : List (String × Option Json) := [
  ("shardId", some (.str b.shardId)),
  ("cycle", some (ofInt b.cycle)),
  ("computedAtUnixNanos", some (ofInt b.computedAtUnixNanos)),
  ("totalNeeds", some (ofInt b.totalNeeds)),
  ("needs", some (ofList NeedView.document b.needs)),
  ("queriedAt", some (.str (fmt.time b.queriedAt)))]

def NeedsResponse.document (b : NeedsResponse) : Json := record (NeedsResponse.fields fmt b)

end Coordinator

def Body.document (fmt : Formats) : Body → Option Json
  | .health status => some (HealthResponse.document status)
  | .config c => some c.document
  | .fleetOverview b => FleetOverview.document fmt b
  | .fleetActions b => FleetActionsSeries.document fmt b
  | .shards b => ShardsList.document fmt b
  | .shard b => ShardDetail.document fmt b
  | .shardTrends b => ShardTrends.document fmt b
  | .clusters b => some (ClustersList.document fmt b)
  | .cluster b => some (ClusterDetail.document fmt b)
  | .availableCapacity b => some (AvailableCapacityResponse.document fmt b)
  | .topology b => Topology.document fmt b
  | .shardReports b => some (ShardReportsList.document fmt b)
  | .needs b => some (NeedsResponse.document fmt b)
  | .finops b => FinOpsSnapshot.document fmt b

/-! ## No document repeats a name -/

section Distinct
variable {α : Type} {f : α → Json}

/-- What is not left out repeats no name. -/
def EachDistinct (v : Option Json) : Prop := ∀ d ∈ v, Distinct d

@[simp] theorem eachDistinct_some {d : Json} : EachDistinct (some d) ↔ Distinct d := by
  simp [EachDistinct]

@[simp] theorem distinct_str (s : String) : Distinct (.str s) := .str s
@[simp] theorem distinct_bool (b : Bool) : Distinct (.bool b) := .bool b
@[simp] theorem distinct_ofInt (n : Int) : Distinct (ofInt n) := .num _

@[simp] theorem eachDistinct_omitText (s : String) : EachDistinct (omitText s) := by
  unfold omitText
  split_ifs
  · simp [EachDistinct]
  · simp

@[simp] theorem eachDistinct_omitZero (n : Int) : EachDistinct (omitZero n) := by
  unfold omitZero
  split_ifs
  · simp [EachDistinct]
  · simp

theorem eachDistinct_omitNone (h : ∀ a, Distinct (f a)) (x : Option α) :
    EachDistinct (omitNone f x) := by
  cases x with
  | none => simp [EachDistinct, omitNone]
  | some a => exact eachDistinct_some.mpr (h a)

theorem distinct_list (h : ∀ a, Distinct (f a)) (xs : List α) : Distinct (ofList f xs) :=
  distinct_ofList fun a _ => h a

theorem eachDistinct_omitNil (h : ∀ a, Distinct (f a)) (xs : List α) :
    EachDistinct (omitNil f xs) := by
  unfold omitNil
  split_ifs
  · simp [EachDistinct]
  · exact eachDistinct_some.mpr (distinct_list h xs)

theorem keys_sortedEntries_nodup (m : OrderedMap String α) :
    ((Script.sortedEntries m).map Prod.fst).Nodup :=
  (((List.perm_insertionSort _ _).map Prod.fst).nodup_iff).mpr m.nodup

theorem distinct_ofGoMap (h : ∀ a, Distinct (f a)) (m : GoMap α) : Distinct (ofGoMap f m) := by
  cases m with
  | none => exact .null
  | some m => exact distinct_ofEntries (keys_sortedEntries_nodup m) fun e _ => h e.2

theorem eachDistinct_omitEmptyMap (h : ∀ a, Distinct (f a)) (m : GoMap α) :
    EachDistinct (omitEmptyMap f m) := by
  unfold omitEmptyMap
  split_ifs
  · simp [EachDistinct]
  · exact eachDistinct_some.mpr (distinct_ofGoMap h m)

theorem distinct_of_each {fields : List (String × Option Json)}
    (hnames : (fields.map Prod.fst).Nodup) (h : ∀ e ∈ fields, EachDistinct e.2) :
    Distinct (record fields) :=
  distinct_record hnames h

end Distinct

theorem distinct_health (status : String) : Distinct (HealthResponse.document status) := by
  apply distinct_of_each
  · simp
  · simp

theorem distinct_config (c : ClientConfig) : Distinct c.document := by
  apply distinct_of_each
  · simp
  · simp

theorem distinct_clusterSummary (c : ClusterSummary) : Distinct (ClusterSummary.document c) := by
  apply distinct_of_each
  · simp
  · simp [eachDistinct_omitNone distinct_str]

theorem distinct_clustersList (fmt : Formats) (b : ClustersList) :
    Distinct (ClustersList.document fmt b) := by
  apply distinct_of_each
  · simp
  · simp [distinct_list distinct_clusterSummary]

theorem distinct_clusterDetail (fmt : Formats) (b : ClusterDetail) :
    Distinct (ClusterDetail.document fmt b) := by
  apply distinct_of_each
  · simp
  · simp [distinct_ofGoMap distinct_ofInt]

theorem distinct_availableCapacityItem (it : AvailableCapacity) :
    Distinct (AvailableCapacityItem.document it) := by
  apply distinct_of_each
  · simp
  · simp [eachDistinct_omitEmptyMap distinct_str, eachDistinct_omitNil distinct_str]

theorem distinct_availableCapacityCluster (c : AvailableCapacityCluster) :
    Distinct (AvailableCapacityCluster.document c) := by
  have hitems : Distinct
      ((c.items.map (ofList AvailableCapacityItem.document)).getD .null) := by
    cases c.items with
    | none => exact .null
    | some items => exact distinct_list distinct_availableCapacityItem items
  apply distinct_of_each
  · simp
  · simp [eachDistinct_omitNone distinct_str, hitems]

theorem distinct_availableCapacityResponse (fmt : Formats) (b : AvailableCapacityResponse) :
    Distinct (AvailableCapacityResponse.document fmt b) := by
  apply distinct_of_each
  · simp
  · simp [distinct_list distinct_availableCapacityCluster]

theorem distinct_reportSummary (s : ApiReportSummary) : Distinct (ShardReportSummary.document s) := by
  apply distinct_of_each
  · simp
  · simp [distinct_ofGoMap distinct_ofInt]

theorem distinct_reportShortfall (sf : ApiReportShortfall) :
    Distinct (ShardReportShortfall.document sf) := by
  apply distinct_of_each
  · simp
  · simp [distinct_ofGoMap distinct_str]

theorem distinct_shardReport (r : ApiShardReport) : Distinct (ShardReport.document r) := by
  apply distinct_of_each
  · simp
  · simp [eachDistinct_omitNone distinct_reportSummary, eachDistinct_omitNil distinct_reportShortfall]

theorem distinct_shardReportsList (fmt : Formats) (b : ShardReportsList) :
    Distinct (ShardReportsList.document fmt b) := by
  apply distinct_of_each
  · simp
  · simp [distinct_list distinct_shardReport]

theorem names_requirement (r : ApiRequirement) :
    ((Requirement.fields r).map Prod.fst).Nodup := by
  simp [Requirement.fields]

theorem distinct_requirement (r : ApiRequirement) : Distinct (Requirement.document r) := by
  apply distinct_of_each (names_requirement r)
  simp [Requirement.fields, eachDistinct_omitNil distinct_str]

theorem names_spread (s : ApiTopologySpread) :
    ((TopologySpread.fields s).map Prod.fst).Nodup := by
  simp [TopologySpread.fields]

theorem distinct_spread (s : ApiTopologySpread) : Distinct (TopologySpread.document s) := by
  apply distinct_of_each (names_spread s)
  simp [TopologySpread.fields]

theorem names_supply (ms : ApiMatchingSupply) :
    ((MatchingSupply.fields ms).map Prod.fst).Nodup := by
  simp [MatchingSupply.fields]

theorem distinct_supply (ms : ApiMatchingSupply) : Distinct (MatchingSupply.document ms) := by
  apply distinct_of_each (names_supply ms)
  simp [MatchingSupply.fields]

theorem names_preemption (p : ApiPreemptionSummary) :
    ((PreemptionSummary.fields p).map Prod.fst).Nodup := by
  simp [PreemptionSummary.fields]

theorem distinct_preemption (p : ApiPreemptionSummary) : Distinct (PreemptionSummary.document p) := by
  apply distinct_of_each (names_preemption p)
  simp [PreemptionSummary.fields, eachDistinct_omitEmptyMap distinct_str]

theorem names_coverage (c : ApiDomainCoverage) :
    ((DomainCoverage.fields c).map Prod.fst).Nodup := by
  simp [DomainCoverage.fields]

theorem distinct_coverage (c : ApiDomainCoverage) : Distinct (DomainCoverage.document c) := by
  apply distinct_of_each (names_coverage c)
  simp [DomainCoverage.fields]

theorem names_needView (n : ApiNeedView) :
    ((NeedView.fields n).map Prod.fst).Nodup := by
  simp [NeedView.fields]

theorem distinct_needView (n : ApiNeedView) : Distinct (NeedView.document n) := by
  apply distinct_of_each (names_needView n)
  simp [NeedView.fields, distinct_ofGoMap distinct_str, eachDistinct_omitEmptyMap distinct_str,
    eachDistinct_omitNil distinct_requirement, eachDistinct_omitNil distinct_spread,
    eachDistinct_omitNil distinct_coverage, eachDistinct_omitNone distinct_supply,
    eachDistinct_omitNone distinct_preemption]

theorem names_needsResponse (fmt : Formats) (b : NeedsResponse) :
    ((NeedsResponse.fields fmt b).map Prod.fst).Nodup := by
  simp [NeedsResponse.fields]

theorem distinct_needsResponse (fmt : Formats) (b : NeedsResponse) :
    Distinct (NeedsResponse.document fmt b) := by
  apply distinct_of_each (names_needsResponse fmt b)
  simp [NeedsResponse.fields, distinct_list distinct_needView]

/-! ## A body whose numbers are finite has a document -/

section Documented
variable {α : Type} {fmt : Formats}

def Documented (x : Option Json) : Prop := ∃ d, x = some d ∧ Distinct d

theorem documented_some {d : Json} (h : Distinct d) : Documented (some d) := ⟨d, rfl, h⟩

theorem Documented.bind {x : Option Json} {f : Json → Option Json} (hx : Documented x)
    (hf : ∀ d, Distinct d → Documented (f d)) : Documented (x >>= f) := by
  obtain ⟨d, rfl, hd⟩ := hx
  exact hf d hd

theorem documented_ofFloat {x : ExtRat} (h : x.IsFinite) : Documented (ofFloat fmt x) := by
  cases x with
  | fin q => exact documented_some (.num _)
  | _ => exact absurd h (by simp [ExtRat.IsFinite])

/-- A loop whose every step has a document. -/
theorem exists_mapM {f : α → Option Json} {xs : List α} (h : ∀ x ∈ xs, Documented (f x)) :
    ∃ ds, xs.mapM f = some ds ∧ ∀ d ∈ ds, Distinct d := by
  induction xs with
  | nil => exact ⟨[], rfl, by simp⟩
  | cons x xs ih =>
    obtain ⟨d, hd, hdistinct⟩ := h x List.mem_cons_self
    obtain ⟨ds, hds, hall⟩ := ih fun y hy => h y (List.mem_cons_of_mem x hy)
    refine ⟨d :: ds, ?_, ?_⟩
    · rw [List.mapM_cons, hd, hds]
      rfl
    · exact List.forall_mem_cons.mpr ⟨hdistinct, hall⟩

theorem documented_ofListM {f : α → Option Json} {xs : List α}
    (h : ∀ x ∈ xs, Documented (f x)) : Documented (ofListM f xs) := by
  obtain ⟨ds, hds, hall⟩ := exists_mapM h
  exact ⟨.arr ds, by rw [ofListM, hds]; rfl, .arr hall⟩

theorem exists_mapM_entries {f : α → Option Json} {es : List (String × α)}
    (h : ∀ e ∈ es, Documented (f e.2)) :
    ∃ fields : List (String × Json), es.mapM (fun e => (f e.2).map (Prod.mk e.1)) = some fields ∧
      fields.map Prod.fst = es.map Prod.fst ∧ ∀ e ∈ fields, Distinct e.2 := by
  induction es with
  | nil => exact ⟨[], rfl, rfl, by simp⟩
  | cons e es ih =>
    obtain ⟨d, hd, hdistinct⟩ := h e List.mem_cons_self
    obtain ⟨fields, hfields, hnames, hall⟩ := ih fun x hx => h x (List.mem_cons_of_mem e hx)
    refine ⟨(e.1, d) :: fields, ?_, ?_, ?_⟩
    · rw [List.mapM_cons, hd, hfields]
      rfl
    · rw [List.map_cons, List.map_cons, hnames]
    · exact List.forall_mem_cons.mpr ⟨hdistinct, hall⟩

theorem documented_ofMapM {f : α → Option Json} {m : OrderedMap String α}
    (h : ∀ v ∈ m.values, Documented (f v)) : Documented (ofMapM f m) := by
  have hsorted : ∀ e ∈ Script.sortedEntries m, Documented (f e.2) := by
    intro e he
    have hmem : e ∈ m.entries := (List.perm_insertionSort _ _).mem_iff.mp he
    exact h e.2 (List.mem_map_of_mem hmem)
  obtain ⟨fields, hfields, hnames, hall⟩ := exists_mapM_entries hsorted
  refine ⟨.obj fields, by rw [ofMapM, hfields]; rfl, .obj ?_ hall⟩
  rw [hnames]
  exact keys_sortedEntries_nodup m

/-- A row or a map of finite numbers. -/
theorem documented_row {row : List ExtRat} (h : Encodable row) :
    Documented (ofListM (ofFloat fmt) row) :=
  documented_ofListM fun x hx => documented_ofFloat (h x hx)

theorem documented_counts {m : OrderedMap String ExtRat} (h : Encodable m.values) :
    Documented (ofMapM (ofFloat fmt) m) :=
  documented_ofMapM fun x hx => documented_ofFloat (h x hx)

theorem documented_fleetOverview {b : FleetOverview} (h : Encodable b.floats) :
    Documented (FleetOverview.document fmt b) := by
  obtain ⟨hp99, hstate⟩ := encodable_cons.mp h
  refine (documented_counts hstate).bind fun byState hbyState => ?_
  refine (documented_ofFloat hp99).bind fun p99 hcycle => ?_
  apply documented_some
  apply distinct_of_each
  · simp
  · simp [hbyState, hcycle]

theorem documented_fleetActions {b : FleetActionsSeries} (h : Encodable b.floats) :
    Documented (FleetActionsSeries.document fmt b) := by
  have hrows : Documented (ofListM (ofListM (ofFloat fmt)) b.values) := by
    apply documented_ofListM
    intro row hrow
    exact documented_row fun x hx => h x (List.mem_flatten_of_mem hrow hx)
  refine hrows.bind fun values hvalues => ?_
  apply documented_some
  apply distinct_of_each
  · simp
  · simp [distinct_list distinct_ofInt, distinct_list distinct_str, hvalues]

theorem documented_shardSummary {s : ShardSummary} (h : s.cycleP99Seconds.IsFinite) :
    Documented (ShardSummary.document fmt s) := by
  refine (documented_ofFloat h).bind fun p99 hp99 => ?_
  apply documented_some
  apply distinct_of_each
  · simp
  · simp [hp99]

theorem documented_shardsList {b : ShardsList} (h : Encodable b.floats) :
    Documented (ShardsList.document fmt b) := by
  have hrows : Documented (ofListM (ShardSummary.document fmt) b.shards) :=
    documented_ofListM fun s hs => documented_shardSummary (h _ (List.mem_map_of_mem hs))
  refine hrows.bind fun shards hshards => ?_
  apply documented_some
  apply distinct_of_each
  · simp
  · simp [hshards]

theorem documented_shardDetail {b : ShardDetail} (h : Encodable b.floats) :
    Documented (ShardDetail.document fmt b) := by
  simp only [ShardDetail.floats, encodable_append, encodable_cons] at h
  obtain ⟨⟨⟨⟨⟨hp99, hcommitted, hconflict, -⟩, hphase⟩, hstate⟩, hcapacity⟩, hactions⟩ := h
  refine (documented_ofFloat hp99).bind fun p99 hd₁ => ?_
  refine (documented_counts hphase).bind fun byPhase hd₂ => ?_
  refine (documented_counts hstate).bind fun byState hd₃ => ?_
  refine (documented_counts hcapacity).bind fun byCapacity hd₄ => ?_
  refine (documented_counts hactions).bind fun byKind hd₅ => ?_
  refine (documented_ofFloat hcommitted).bind fun committed hd₆ => ?_
  refine (documented_ofFloat hconflict).bind fun conflict hd₇ => ?_
  apply documented_some
  apply distinct_of_each
  · simp
  · simp [hd₁, hd₂, hd₃, hd₄, hd₅, hd₆, hd₇]

theorem documented_shardTrends {b : ShardTrends} (h : Encodable b.floats) :
    Documented (ShardTrends.document fmt b) := by
  obtain ⟨hcycle, hrates⟩ := encodable_append.mp h
  have hp99 : Documented (ofSliceM (ofFloat fmt) b.cycleP99Seconds) := by
    cases hrow : b.cycleP99Seconds with
    | none => exact documented_some .null
    | some row =>
      rw [hrow] at hcycle
      exact documented_row hcycle
  have hrows : Documented (ofMapM (ofListM (ofFloat fmt)) b.actionRates) := by
    apply documented_ofMapM
    intro row hrow
    exact documented_row fun x hx => hrates x (List.mem_flatten_of_mem hrow hx)
  refine hp99.bind fun p99 hd₁ => ?_
  refine hrows.bind fun rates hd₂ => ?_
  apply documented_some
  apply distinct_of_each
  · simp
  · simp [distinct_list distinct_ofInt, hd₁, hd₂]

theorem documented_totals {t : FinOps.FinOpsTotals} (hspot : t.spotConfiguredFraction.IsFinite)
    (hpinned : t.pinnedConfiguredFraction.IsFinite) :
    Documented (FinOpsTotals.document fmt t) := by
  refine (documented_ofFloat hspot).bind fun spot hd₁ => ?_
  refine (documented_ofFloat hpinned).bind fun pinned hd₂ => ?_
  apply documented_some
  apply distinct_of_each
  · simp
  · simp [hd₁, hd₂]

theorem documented_redFlag {f : FinOps.FinOpsRedFlag} (h : f.count.IsFinite) :
    Documented (FinOpsRedFlag.document fmt f) := by
  refine (documented_ofFloat h).bind fun count hcount => ?_
  apply documented_some
  apply distinct_of_each
  · simp
  · simp [hcount]

theorem documented_finops {b : FinOps.FinOpsSnapshot} (h : Encodable b.floats) :
    Documented (FinOpsSnapshot.document fmt b) := by
  simp only [FinOps.FinOpsSnapshot.floats, encodable_append, encodable_cons] at h
  obtain ⟨⟨⟨⟨⟨⟨⟨⟨hspot, hpinned, -⟩, hcapacity⟩, hidle⟩, hconfigured⟩, hbucket⟩, hdemand⟩, hrates⟩,
    hflags⟩ := h
  have hrows : Documented (ofMapM (ofMapM (ofFloat fmt)) b.configured) := by
    apply documented_ofMapM
    intro row hrow
    exact documented_counts fun x hx => hconfigured x (List.mem_flatMap_of_mem hrow hx)
  have hredFlags : Documented (ofListM (FinOpsRedFlag.document fmt) b.redFlags) :=
    documented_ofListM fun f hf => documented_redFlag (hflags _ (List.mem_map_of_mem hf))
  refine (documented_totals hspot hpinned).bind fun totals hd₁ => ?_
  refine (documented_counts hcapacity).bind fun byCapacity hd₂ => ?_
  refine (documented_counts hidle).bind fun idle hd₃ => ?_
  refine hrows.bind fun configured hd₄ => ?_
  refine (documented_counts hbucket).bind fun byBucket hd₅ => ?_
  refine (documented_counts hdemand).bind fun demand hd₆ => ?_
  refine (documented_counts hrates).bind fun rates hd₇ => ?_
  refine hredFlags.bind fun redFlags hd₈ => ?_
  apply documented_some
  apply distinct_of_each
  · simp
  · simp [distinct_list distinct_str, hd₁, hd₂, hd₃, hd₄, hd₅, hd₆, hd₇, hd₈]

theorem distinct_topologyShard (s : TopologyShard) : Distinct (TopologyShard.document s) := by
  apply distinct_of_each
  · simp
  · simp

theorem distinct_assignment (a : TopologyDomainAssignment) :
    Distinct (TopologyDomainAssignment.document a) := by
  apply distinct_of_each
  · simp
  · simp

theorem documented_topology {b : Topology} (h : Encodable b.floats) :
    Documented (Topology.document fmt b) := by
  simp only [Topology.floats, encodable_cons] at h
  obtain ⟨happly, herror, -⟩ := h
  have hhealth : Documented (CoordinatorHealth.document fmt b.coordinator) := by
    refine (documented_ofFloat happly).bind fun rate hd₁ => ?_
    refine (documented_ofFloat herror).bind fun errors hd₂ => ?_
    apply documented_some
    apply distinct_of_each
    · simp
    · simp [hd₁, hd₂]
  refine hhealth.bind fun health hd => ?_
  apply documented_some
  apply distinct_of_each
  · simp
  · simp [distinct_list distinct_topologyShard, distinct_list distinct_assignment,
      eachDistinct_omitNil distinct_str, hd]

end Documented

theorem exists_of_map_eq_ok {ε α β : Type} {x : Except ε α} {f : α → β} {b : β}
    (h : x.map f = .ok b) : ∃ a, x = .ok a ∧ b = f a := by
  cases x with
  | error e => cases h
  | ok a => exact ⟨a, rfl, (Except.ok.inj h).symm⟩

/-- Whatever a handler answers has a document. -/
theorem Dashboard.documented_handle (fmt : Formats) {d : Dashboard} {r : Request} {clock : Clock}
    {h : Handler} {body : Body} (hbody : d.handle r clock h = .ok body) :
    Documented (body.document fmt) := by
  cases h <;> rw [handle] at hbody
  case healthHandler =>
    obtain rfl := Except.ok.inj hbody
    exact documented_some (distinct_health _)
  case configHandler =>
    obtain rfl := Except.ok.inj hbody
    exact documented_some (distinct_config _)
  all_goals obtain ⟨b, hb, rfl⟩ := exists_of_map_eq_ok hbody
  case fleetOverviewHandler => exact documented_fleetOverview (fleetOverview_encodable hb)
  case fleetActionsHandler => exact documented_fleetActions (fleetActions_encodable hb)
  case shardsListHandler => exact documented_shardsList (shardsList_encodable hb)
  case shardDetailHandler => exact documented_shardDetail (shardDetail_encodable hb)
  case shardTrendsHandler => exact documented_shardTrends (shardTrends_encodable hb)
  case clustersListHandler => exact documented_some (distinct_clustersList fmt b)
  case clusterDetailHandler => exact documented_some (distinct_clusterDetail fmt b)
  case availableCapacityHandler => exact documented_some (distinct_availableCapacityResponse fmt b)
  case topologyHandler => exact documented_topology (topology_encodable hb)
  case shardReportsHandler => exact documented_some (distinct_shardReportsList fmt b)
  case needsHandler => exact documented_some (distinct_needsResponse fmt b)
  case finopsHandler => exact documented_finops (finops_encodable hb)

end BigfleetDashboard.Web
