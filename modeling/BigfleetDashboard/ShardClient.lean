import BigfleetDashboard.CoordClient

/-!
# The shard client

Package `shardclient`: dial a shard, ask for its needs, and collect the stream
of answers. A value of a protocol enumeration enters as the name its `String`
method prints, and an absent submessage reads as the zero message.
-/
namespace BigfleetDashboard.ShardClient
open Go CoordClient

/-! ## Messages of a shard -/

structure NodeSelectorRequirementMsg where
  key : String
  operator : String
  values : List String

structure TopologySpreadMsg where
  topologyKey : String
  maxSkew : Int
  whenUnsatisfiable : String

structure NeedMsg where
  priority : Int
  aggregateResources : OrderedMap String String
  minUnit : OrderedMap String String
  group : String
  requirements : List NodeSelectorRequirementMsg
  spread : List TopologySpreadMsg
  interruptionPenaltyBucket : String
  reclamationPenaltyBucket : String

/-- What the getters of an absent need return. -/
def NeedMsg.zero : NeedMsg :=
  { priority := 0
    aggregateResources := OrderedMap.empty
    minUnit := OrderedMap.empty
    group := ""
    requirements := []
    spread := []
    interruptionPenaltyBucket := "PENALTY_BUCKET_UNSPECIFIED"
    reclamationPenaltyBucket := "PENALTY_BUCKET_UNSPECIFIED" }

structure MatchingSupplyMsg where
  idle : Int
  configured : Int
  speculative : Int
  capped : Bool

/-- The capacity freed is a submessage holding one map. -/
structure PreemptionMsg where
  victimsFound : Int
  capacityFreed : Option (OrderedMap String String)

structure DomainCoverageMsg where
  domain : String
  coveragePerMille : Int
  satisfiable : Bool

structure NeedViewMsg where
  clusterId : String
  need : Option NeedMsg
  satisfied : Bool
  residualDeficit : Option (OrderedMap String String)
  claimedMachineCount : Int
  bootstrapCount : Int
  provisionCount : Int
  sameDomain : String
  sameSatisfiable : Bool
  acquisitionParked : Bool
  parkedAgeCycles : Int
  ageCyclesUnmet : Int
  unmetReason : String
  arrivalUnixNanos : Int
  profileFingerprint : String
  matchingSupply : Option MatchingSupplyMsg
  preemption : Option PreemptionMsg
  sameCandidates : List DomainCoverageMsg

structure HeaderMsg where
  cycle : Int
  computedAtUnixNanos : Int
  totalNeeds : Int

/-- A message of the answer holds a header, a need, or neither. -/
inductive InspectNeedsMsg
  | header (h : HeaderMsg)
  | need (nv : NeedViewMsg)
  | neither

/-- The messages received, and the error after them unless the stream ended. -/
structure Stream where
  messages : List InspectNeedsMsg
  failure : Option String

/-- A limit of 0 asks for all needs. -/
structure InspectNeedsRequest where
  clusterId : String
  limit : Int

/-- A connection answers a request with a stream. -/
abbrev Conn := InspectNeedsRequest → Except String Stream

structure Client where
  dialOptions : Except String Unit
  newClient : String → Except String Conn

/-! ## The projection of a need -/

structure Requirement where
  key : String
  operator : String
  values : List String
  deriving DecidableEq

structure TopologySpread where
  topologyKey : String
  maxSkew : Int
  whenUnsatisfiable : String
  deriving DecidableEq

structure MatchingSupply where
  idle : Int
  configured : Int
  speculative : Int
  capped : Bool
  deriving DecidableEq

structure PreemptionSummary where
  victimsFound : Int
  capacityFreed : GoMap String
  deriving DecidableEq

structure DomainCoverage where
  domain : String
  coveragePerMille : Int
  satisfiable : Bool
  deriving DecidableEq

structure NeedView where
  clusterId : String
  priority : Int
  aggregateResources : GoMap String
  minUnit : GoMap String
  group : String
  requirements : List Requirement
  spread : List TopologySpread
  interruptionPenaltyBucket : String
  reclamationPenaltyBucket : String
  satisfied : Bool
  residualDeficit : GoMap String
  claimedMachineCount : Int
  bootstrapCount : Int
  provisionCount : Int
  sameDomain : String
  sameSatisfiable : Bool
  acquisitionParked : Bool
  parkedAgeCycles : Int
  ageCyclesUnmet : Int
  unmetReason : String
  arrivalUnixNanos : Int
  profileFingerprint : String
  matchingSupply : Option MatchingSupply
  preemption : Option PreemptionSummary
  sameCandidates : List DomainCoverage
  deriving DecidableEq

structure NeedsSnapshot where
  cycle : Int
  computedAtUnixNanos : Int
  totalNeeds : Int
  needs : List NeedView
  deriving DecidableEq

/-- `strings.TrimPrefix`. -/
def trimPrefix (s pre : String) : String :=
  if pre.toList.isPrefixOf s.toList then String.ofList (s.toList.drop pre.length) else s

def titleOperator (op : String) : String :=
  if op = "OPERATOR_IN" then "In"
  else if op = "OPERATOR_NOT_IN" then "NotIn"
  else if op = "OPERATOR_EXISTS" then "Exists"
  else if op = "OPERATOR_DOES_NOT_EXIST" then "DoesNotExist"
  else if op = "OPERATOR_SAME" then "Same"
  else trimPrefix op "OPERATOR_"

def titleWhenUnsatisfiable (w : String) : String :=
  if w = "WHEN_UNSATISFIABLE_DO_NOT_SCHEDULE" then "DoNotSchedule"
  else if w = "WHEN_UNSATISFIABLE_SCHEDULE_ANYWAY" then "ScheduleAnyway"
  else trimPrefix w "WHEN_UNSATISFIABLE_"

def shortBucket (b : String) : String := trimPrefix b "PENALTY_BUCKET_"

def fromProtoRequirements (rs : List NodeSelectorRequirementMsg) : List Requirement :=
  rs.map (fun r => ⟨r.key, titleOperator r.operator, r.values⟩)

def fromProtoSpread (ss : List TopologySpreadMsg) : List TopologySpread :=
  ss.map (fun s => ⟨s.topologyKey, s.maxSkew, titleWhenUnsatisfiable s.whenUnsatisfiable⟩)

def fromProto (nv : NeedViewMsg) : NeedView :=
  let n := nv.need.getD NeedMsg.zero
  { clusterId := nv.clusterId
    priority := n.priority
    aggregateResources := getMap n.aggregateResources
    minUnit := getMap n.minUnit
    group := n.group
    requirements := fromProtoRequirements n.requirements
    spread := fromProtoSpread n.spread
    interruptionPenaltyBucket := shortBucket n.interruptionPenaltyBucket
    reclamationPenaltyBucket := shortBucket n.reclamationPenaltyBucket
    satisfied := nv.satisfied
    residualDeficit := nv.residualDeficit.bind getMap
    claimedMachineCount := nv.claimedMachineCount
    bootstrapCount := nv.bootstrapCount
    provisionCount := nv.provisionCount
    sameDomain := nv.sameDomain
    sameSatisfiable := nv.sameSatisfiable
    acquisitionParked := nv.acquisitionParked
    parkedAgeCycles := nv.parkedAgeCycles
    ageCyclesUnmet := nv.ageCyclesUnmet
    unmetReason := trimPrefix nv.unmetReason "UNMET_REASON_"
    arrivalUnixNanos := nv.arrivalUnixNanos
    profileFingerprint := nv.profileFingerprint
    matchingSupply := nv.matchingSupply.map (fun ms =>
      ⟨ms.idle, ms.configured, ms.speculative, ms.capped⟩)
    preemption := nv.preemption.map (fun p => ⟨p.victimsFound, p.capacityFreed.bind getMap⟩)
    sameCandidates := nv.sameCandidates.map (fun c =>
      ⟨c.domain, c.coveragePerMille, c.satisfiable⟩) }

/-! ## The stream -/

def NeedsSnapshot.zero : NeedsSnapshot := ⟨0, 0, 0, []⟩

/-- The loop body: a later header replaces an earlier one, needs are appended. -/
def NeedsSnapshot.receive (snap : NeedsSnapshot) : InspectNeedsMsg → NeedsSnapshot
  | .header h =>
    { snap with
      cycle := h.cycle
      computedAtUnixNanos := h.computedAtUnixNanos
      totalNeeds := h.totalNeeds }
  | .need nv => { snap with needs := snap.needs ++ [fromProto nv] }
  | .neither => snap

/-- Receive until the stream ends; an error discards what was received. -/
def receiveAll (stream : Stream) : Except String NeedsSnapshot :=
  match stream.failure with
  | some err => .error ("shardclient: recv: " ++ err)
  | none => .ok (stream.messages.foldl NeedsSnapshot.receive NeedsSnapshot.zero)

/-- The needs of the shard at `addr`, of one cluster unless `cluster` is empty. -/
def Client.inspectNeeds (c : Client) (addr cluster : String) (limit : Int) :
    Except String NeedsSnapshot :=
  if addr = "" then .error "shardclient: empty shard address"
  else
    match c.dialOptions with
    | .error err => .error ("shardclient: dial options: " ++ err)
    | .ok () =>
      match c.newClient addr with
      | .error err => .error ("shardclient: dial " ++ addr ++ ": " ++ err)
      | .ok conn =>
        match conn { clusterId := cluster, limit := wrapInt32 limit } with
        | .error err => .error ("shardclient: inspect needs: " ++ err)
        | .ok stream => receiveAll stream

/-- The needs of a run of need messages, in order, after those already received. -/
theorem foldl_receive_needs (snap : NeedsSnapshot) (nvs : List NeedViewMsg) :
    (nvs.map InspectNeedsMsg.need).foldl NeedsSnapshot.receive snap =
      { snap with needs := snap.needs ++ nvs.map fromProto } := by
  induction nvs generalizing snap with
  | nil => simp
  | cons nv nvs ih =>
    rw [List.map_cons, List.foldl_cons, ih]
    simp [NeedsSnapshot.receive]

end BigfleetDashboard.ShardClient
