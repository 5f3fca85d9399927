import BigfleetDashboard.ScriptValues
import BigfleetDashboard.Server

/-!
# The needs of a shard, from the shard to the page

The handler looks up the address of a shard at the coordinator, asks the shard
itself, and projects what it streamed. A request without a limit is sent on with
the default limit. The last section is the document as the page receives it, in
which a field that was empty is missing.
-/
namespace BigfleetDashboard.Handlers
open Go CoordClient

structure ApiRequirement where
  key : String
  operator : String
  values : List String

structure ApiTopologySpread where
  topologyKey : String
  maxSkew : Int
  whenUnsatisfiable : String

structure ApiMatchingSupply where
  idle : Int
  configured : Int
  speculative : Int
  capped : Bool

structure ApiPreemptionSummary where
  victimsFound : Int
  capacityFreed : GoMap String

structure ApiDomainCoverage where
  domain : String
  coveragePerMille : Int
  satisfiable : Bool

structure ApiNeedView where
  clusterId : String
  priority : Int
  aggregateResources : GoMap String
  minUnit : GoMap String
  group : String
  requirements : List ApiRequirement
  spread : List ApiTopologySpread
  interruptionPenaltyBucket : String
  reclamationPenaltyBucket : String
  satisfied : Bool
  residualDeficit : GoMap String
  claimedMachineCount : Int
  bootstrapCount : Int
  provisionCount : Int
  sameDomain : String
  sameSatisfiable : Bool
  acquisitionParked : Bool
  parkedAgeCycles : Int
  ageCyclesUnmet : Int
  unmetReason : String
  arrivalUnixNanos : Int
  profileFingerprint : String
  matchingSupply : Option ApiMatchingSupply
  preemption : Option ApiPreemptionSummary
  sameCandidates : List ApiDomainCoverage

structure NeedsResponse where
  shardId : String
  cycle : Int
  computedAtUnixNanos : Int
  totalNeeds : Int
  needs : List ApiNeedView
  queriedAt : Int

def requirementsToAPI (rs : List ShardClient.Requirement) : List ApiRequirement :=
  rs.map (fun r => ⟨r.key, r.operator, r.values⟩)

def spreadToAPI (ss : List ShardClient.TopologySpread) : List ApiTopologySpread :=
  ss.map (fun s => ⟨s.topologyKey, s.maxSkew, s.whenUnsatisfiable⟩)

def toAPINeedView (n : ShardClient.NeedView) : ApiNeedView :=
  { clusterId := n.clusterId
    priority := n.priority
    aggregateResources := n.aggregateResources
    minUnit := n.minUnit
    group := n.group
    requirements := requirementsToAPI n.requirements
    spread := spreadToAPI n.spread
    interruptionPenaltyBucket := n.interruptionPenaltyBucket
    reclamationPenaltyBucket := n.reclamationPenaltyBucket
    satisfied := n.satisfied
    residualDeficit := n.residualDeficit
    claimedMachineCount := n.claimedMachineCount
    bootstrapCount := n.bootstrapCount
    provisionCount := n.provisionCount
    sameDomain := n.sameDomain
    sameSatisfiable := n.sameSatisfiable
    acquisitionParked := n.acquisitionParked
    parkedAgeCycles := n.parkedAgeCycles
    ageCyclesUnmet := n.ageCyclesUnmet
    unmetReason := n.unmetReason
    arrivalUnixNanos := n.arrivalUnixNanos
    profileFingerprint := n.profileFingerprint
    matchingSupply := n.matchingSupply.map (fun ms =>
      ⟨ms.idle, ms.configured, ms.speculative, ms.capped⟩)
    preemption := n.preemption.map (fun p => ⟨p.victimsFound, p.capacityFreed⟩)
    sameCandidates := n.sameCandidates.map (fun c =>
      ⟨c.domain, c.coveragePerMille, c.satisfiable⟩) }

/-! ## The handler -/

def defaultNeedsLimit : Int := 2000

/-- The limit of a request; a text that is not a positive integer is ignored. -/
def needsLimit (v : String) : Int :=
  match atoi v with
  | some n => if 0 < n then n else defaultNeedsLimit
  | none => defaultNeedsLimit

/-- The address of the first registered shard of that name, empty if there is none. -/
def shardAddress (shards : List ShardRegistryEntry) (shardId : String) : String :=
  ((shards.find? (fun sd => sd.shardId = shardId)).map ShardRegistryEntry.address).getD ""

def requireShard (shardId : String) : Except Failure Unit :=
  if shardId = "" then
    .error (.response statusBadRequest
      "shard query parameter required (pick a shard from the Topology view)")
  else .ok ()

def requireAddress (shardId addr : String) : Except Failure Unit :=
  if addr = "" then
    .error (.response statusNotFound
      ("shard not found or has no advertised address: " ++ shardId))
  else .ok ()

/-- The answer to a request for the needs of a shard. -/
def needsResponse (shardId : String) (snap : ShardClient.NeedsSnapshot) (now : Int) :
    NeedsResponse :=
  { shardId := shardId
    cycle := snap.cycle
    computedAtUnixNanos := snap.computedAtUnixNanos
    totalNeeds := snap.totalNeeds
    needs := snap.needs.map toAPINeedView
    queriedAt := now }

def needsHandler (s : Server) (r : Request) (now : Int) : Except Failure NeedsResponse := do
  requireCoordinator s
  let shardId := r.query "shard"
  requireShard shardId
  let cluster := r.query "cluster"
  let limit := needsLimit (r.query "limit")
  let shards ← orCoordError "coordinator ListShards: " s.coord.listShards
  let addr := shardAddress shards shardId
  requireAddress shardId addr
  let snap ← orBadGateway "shard InspectNeeds: " (s.shardNeeds.inspectNeeds addr cluster limit)
  return needsResponse shardId snap now

@[simp] theorem requireShard_eq_ok_iff (shardId : String) :
    requireShard shardId = .ok () ↔ shardId ≠ "" := by
  unfold requireShard
  split_ifs with h
  · simp [h]
  · simp [h]

@[simp] theorem requireAddress_eq_ok_iff (shardId addr : String) :
    requireAddress shardId addr = .ok () ↔ addr ≠ "" := by
  unfold requireAddress
  split_ifs with h
  · simp [h]
  · simp [h]

/-- The handler answers with what the shard at the registered address streamed. -/
theorem needsHandler_eq_ok_iff {s : Server} {r : Request} {now : Int} {res : NeedsResponse} :
    needsHandler s r now = .ok res ↔
      requireCoordinator s = .ok () ∧ r.query "shard" ≠ "" ∧
      ∃ shards, s.coord.listShards = .ok shards ∧ shardAddress shards (r.query "shard") ≠ "" ∧
      ∃ snap, s.shardNeeds.inspectNeeds (shardAddress shards (r.query "shard"))
          (r.query "cluster") (needsLimit (r.query "limit")) = .ok snap ∧
        needsResponse (r.query "shard") snap now = res := by
  simp only [needsHandler, bind_eq_ok_iff, orCoordError_eq_ok_iff, orBadGateway_eq_ok_iff,
    pure_eq_ok_iff, Unique.exists_iff, PUnit.default_eq_unit, requireShard_eq_ok_iff,
    requireAddress_eq_ok_iff]

end BigfleetDashboard.Handlers

namespace BigfleetDashboard.Pages
open Handlers CoordClient Script

/-! ## The received document -/

structure Requirement where
  key : String
  operator : String
  values : Option (List String)
  deriving DecidableEq

structure TopologySpread where
  topologyKey : String
  maxSkew : Int
  whenUnsatisfiable : Option String
  deriving DecidableEq

structure MatchingSupply where
  idle : Int
  configured : Int
  speculative : Int
  capped : Bool
  deriving DecidableEq

structure PreemptionSummary where
  victimsFound : Int
  capacityFreed : Option (List (String × String))
  deriving DecidableEq

structure DomainCoverage where
  domain : String
  coveragePerMille : Int
  satisfiable : Bool
  deriving DecidableEq

/-- The aggregate is `none` where the document has `null`; an optional field is
`none` where the document lacks it. -/
structure NeedView where
  clusterId : String
  priority : Int
  aggregateResources : Option (List (String × String))
  minUnit : Option (List (String × String))
  group : Option String
  requirements : Option (List Requirement)
  spread : Option (List TopologySpread)
  interruptionPenaltyBucket : String
  reclamationPenaltyBucket : String
  satisfied : Bool
  residualDeficit : Option (List (String × String))
  claimedMachineCount : Int
  bootstrapCount : Int
  provisionCount : Int
  sameDomain : Option String
  sameSatisfiable : Bool
  acquisitionParked : Bool
  parkedAgeCycles : Option Int
  ageCyclesUnmet : Int
  unmetReason : String
  arrivalUnixNanos : Option Int
  profileFingerprint : Option String
  matchingSupply : Option MatchingSupply
  preemption : Option PreemptionSummary
  sameCandidates : Option (List DomainCoverage)
  deriving DecidableEq, Inhabited

/-- An empty text is left out of the document. -/
def optionalText (s : String) : Option String := if s = "" then none else some s

/-- A zero is left out of the document. -/
def optionalInt (n : Int) : Option Int := if n = 0 then none else some (toDouble n)

/-- An empty list is left out of the document. -/
def optionalList {α β : Type} (f : α → β) (xs : List α) : Option (List β) :=
  if xs.isEmpty then none else some (xs.map f)

/-- A map that is nil or empty is left out of the document. -/
def optionalMap (m : GoMap String) : Option (List (String × String)) :=
  (parsedMap m).filter (fun fields => !fields.isEmpty)

def receivedNeed (n : ApiNeedView) : NeedView :=
  { clusterId := n.clusterId
    priority := toDouble n.priority
    aggregateResources := parsedMap n.aggregateResources
    minUnit := optionalMap n.minUnit
    group := optionalText n.group
    requirements := optionalList
      (fun r => ⟨r.key, r.operator, optionalList id r.values⟩) n.requirements
    spread := optionalList
      (fun s => ⟨s.topologyKey, toDouble s.maxSkew, optionalText s.whenUnsatisfiable⟩) n.spread
    interruptionPenaltyBucket := n.interruptionPenaltyBucket
    reclamationPenaltyBucket := n.reclamationPenaltyBucket
    satisfied := n.satisfied
    residualDeficit := optionalMap n.residualDeficit
    claimedMachineCount := toDouble n.claimedMachineCount
    bootstrapCount := toDouble n.bootstrapCount
    provisionCount := toDouble n.provisionCount
    sameDomain := optionalText n.sameDomain
    sameSatisfiable := n.sameSatisfiable
    acquisitionParked := n.acquisitionParked
    parkedAgeCycles := optionalInt n.parkedAgeCycles
    ageCyclesUnmet := toDouble n.ageCyclesUnmet
    unmetReason := n.unmetReason
    arrivalUnixNanos := optionalInt n.arrivalUnixNanos
    profileFingerprint := optionalText n.profileFingerprint
    matchingSupply := n.matchingSupply.map (fun ms =>
      ⟨toDouble ms.idle, toDouble ms.configured, toDouble ms.speculative, ms.capped⟩)
    preemption := n.preemption.map (fun p => ⟨toDouble p.victimsFound, optionalMap p.capacityFreed⟩)
    sameCandidates := optionalList
      (fun c => ⟨c.domain, toDouble c.coveragePerMille, c.satisfiable⟩) n.sameCandidates }

structure ReceivedNeeds where
  shardId : String
  cycle : Int
  computedAtUnixNanos : Int
  totalNeeds : Int
  needs : List NeedView
  queriedAt : Int

def receivedNeeds (res : NeedsResponse) : ReceivedNeeds :=
  { shardId := res.shardId
    cycle := toDouble res.cycle
    computedAtUnixNanos := toDouble res.computedAtUnixNanos
    totalNeeds := toDouble res.totalNeeds
    needs := res.needs.map receivedNeed
    queriedAt := res.queriedAt }

end BigfleetDashboard.Pages
