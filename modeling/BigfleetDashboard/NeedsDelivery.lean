import BigfleetDashboard.NeedsPage

/-!
# Delivery of a needs snapshot

A shard streams a header and its needs. Whatever the order of its messages, the
answer of the handler holds one view for each need message, in order and with
the values of the message, or the answer is an error and holds nothing.
-/
namespace BigfleetDashboard.ShardClient
open Go CoordClient

/-! ## What a stream says -/

def InspectNeedsMsg.need? : InspectNeedsMsg → Option NeedViewMsg
  | .need nv => some nv
  | _ => none

def InspectNeedsMsg.header? : InspectNeedsMsg → Option HeaderMsg
  | .header h => some h
  | _ => none

/-- The need messages of a stream, in order. -/
def needMessages (messages : List InspectNeedsMsg) : List NeedViewMsg :=
  messages.filterMap InspectNeedsMsg.need?

def lastHeader (messages : List InspectNeedsMsg) : Option HeaderMsg :=
  (messages.filterMap InspectNeedsMsg.header?).getLast?

/-- A header overwrites what the snapshot says about the cycle, no header leaves it. -/
def NeedsSnapshot.under (snap : NeedsSnapshot) (header : Option HeaderMsg) : NeedsSnapshot :=
  match header with
  | some h =>
    { snap with
      cycle := h.cycle
      computedAtUnixNanos := h.computedAtUnixNanos
      totalNeeds := h.totalNeeds }
  | none => snap

theorem lastHeader_append_header (messages : List InspectNeedsMsg) (h : HeaderMsg) :
    lastHeader (messages ++ [.header h]) = some h := by
  simp [lastHeader, InspectNeedsMsg.header?]

/-- After any prefix the snapshot holds the needs so far, under the latest header. -/
theorem foldl_receive (messages : List InspectNeedsMsg) :
    messages.foldl NeedsSnapshot.receive NeedsSnapshot.zero =
      { NeedsSnapshot.zero.under (lastHeader messages) with
        needs := (needMessages messages).map fromProto } := by
  induction messages using List.reverseRecOn with
  | nil => rfl
  | append_singleton messages msg ih =>
    rw [List.foldl_append, List.foldl_cons, List.foldl_nil, ih]
    cases msg with
    | header h =>
      rw [lastHeader_append_header]
      simp [NeedsSnapshot.receive, NeedsSnapshot.under, needMessages, InspectNeedsMsg.need?]
    | need nv =>
      simp [NeedsSnapshot.receive, needMessages, lastHeader, InspectNeedsMsg.need?,
        InspectNeedsMsg.header?]
    | neither =>
      simp [NeedsSnapshot.receive, needMessages, lastHeader, InspectNeedsMsg.need?,
        InspectNeedsMsg.header?]

/-! ## Labels -/

/-- `short` labels the enumerator `full`: by the table, or else by dropping the prefix. -/
def Labels (table : List (String × String)) (pre full short : String) : Prop :=
  (full, short) ∈ table ∨
    full ∉ table.map Prod.fst ∧
      (full = pre ++ short ∨ ¬ pre.toList <+: full.toList ∧ short = full)

def operatorLabels : List (String × String) :=
  [("OPERATOR_IN", "In"), ("OPERATOR_NOT_IN", "NotIn"), ("OPERATOR_EXISTS", "Exists"),
    ("OPERATOR_DOES_NOT_EXIST", "DoesNotExist"), ("OPERATOR_SAME", "Same")]

def whenUnsatisfiableLabels : List (String × String) :=
  [("WHEN_UNSATISFIABLE_DO_NOT_SCHEDULE", "DoNotSchedule"),
    ("WHEN_UNSATISFIABLE_SCHEDULE_ANYWAY", "ScheduleAnyway")]

theorem trimPrefix_spec (full pre : String) :
    full = pre ++ trimPrefix full pre ∨
      ¬ pre.toList <+: full.toList ∧ trimPrefix full pre = full := by
  unfold trimPrefix
  split_ifs with h
  · left
    obtain ⟨rest, hrest⟩ := List.isPrefixOf_iff_prefix.mp h
    apply String.toList_inj.mp
    rw [String.toList_append, String.toList_ofList, ← hrest, ← String.length_toList,
      List.drop_left]
  · exact .inr ⟨fun hpre => h (List.isPrefixOf_iff_prefix.mpr hpre), rfl⟩

theorem trimPrefix_labels (full pre : String) : Labels [] pre full (trimPrefix full pre) :=
  .inr ⟨List.not_mem_nil, trimPrefix_spec full pre⟩

theorem titleOperator_labels (op : String) :
    Labels operatorLabels "OPERATOR_" op (titleOperator op) := by
  unfold titleOperator
  split_ifs with h₁ h₂ h₃ h₄ h₅
  case neg => exact .inr ⟨by simp [operatorLabels, h₁, h₂, h₃, h₄, h₅], trimPrefix_spec _ _⟩
  all_goals
    left
    simp [operatorLabels, *]

theorem titleWhenUnsatisfiable_labels (w : String) :
    Labels whenUnsatisfiableLabels "WHEN_UNSATISFIABLE_" w (titleWhenUnsatisfiable w) := by
  unfold titleWhenUnsatisfiable
  split_ifs with h₁ h₂
  case neg => exact .inr ⟨by simp [whenUnsatisfiableLabels, h₁, h₂], trimPrefix_spec _ _⟩
  all_goals
    left
    simp [whenUnsatisfiableLabels, *]

end BigfleetDashboard.ShardClient

namespace BigfleetDashboard.Handlers
open Go CoordClient ShardClient

/-! ## What an answer carries -/

/-- A map of the answer holds what the map of the message holds; nil stands for empty. -/
def CarriesMap (field : OrderedMap String String) (m : GoMap String) : Prop :=
  m.getD OrderedMap.empty = field

/-- An absent submessage reads as one with an empty map. -/
def CarriesOptionalMap (field : Option (OrderedMap String String)) (m : GoMap String) : Prop :=
  CarriesMap (field.getD OrderedMap.empty) m

structure CarriesRequirement (r : NodeSelectorRequirementMsg) (q : ApiRequirement) : Prop where
  key : q.key = r.key
  operator : Labels operatorLabels "OPERATOR_" r.operator q.operator
  values : q.values = r.values

structure CarriesSpread (t : TopologySpreadMsg) (q : ApiTopologySpread) : Prop where
  topologyKey : q.topologyKey = t.topologyKey
  maxSkew : q.maxSkew = t.maxSkew
  whenUnsatisfiable :
    Labels whenUnsatisfiableLabels "WHEN_UNSATISFIABLE_" t.whenUnsatisfiable q.whenUnsatisfiable

structure CarriesSupply (ms : MatchingSupplyMsg) (q : ApiMatchingSupply) : Prop where
  idle : q.idle = ms.idle
  configured : q.configured = ms.configured
  speculative : q.speculative = ms.speculative
  capped : q.capped = ms.capped

structure CarriesPreemption (p : PreemptionMsg) (q : ApiPreemptionSummary) : Prop where
  victimsFound : q.victimsFound = p.victimsFound
  capacityFreed : CarriesOptionalMap p.capacityFreed q.capacityFreed

structure CarriesCandidate (c : DomainCoverageMsg) (q : ApiDomainCoverage) : Prop where
  domain : q.domain = c.domain
  coveragePerMille : q.coveragePerMille = c.coveragePerMille
  satisfiable : q.satisfiable = c.satisfiable

/-- The parts of the view that the message holds in its need. -/
structure CarriesNeed (n : NeedMsg) (v : ApiNeedView) : Prop where
  priority : v.priority = n.priority
  aggregateResources : CarriesMap n.aggregateResources v.aggregateResources
  minUnit : CarriesMap n.minUnit v.minUnit
  group : v.group = n.group
  requirements : List.Forall₂ CarriesRequirement n.requirements v.requirements
  spread : List.Forall₂ CarriesSpread n.spread v.spread
  interruptionPenaltyBucket :
    Labels [] "PENALTY_BUCKET_" n.interruptionPenaltyBucket v.interruptionPenaltyBucket
  reclamationPenaltyBucket :
    Labels [] "PENALTY_BUCKET_" n.reclamationPenaltyBucket v.reclamationPenaltyBucket

/-- The view shows the message: every field has its value and nothing absent is made up. -/
structure Carries (nv : NeedViewMsg) (v : ApiNeedView) : Prop where
  clusterId : v.clusterId = nv.clusterId
  need : CarriesNeed (nv.need.getD NeedMsg.zero) v
  satisfied : v.satisfied = nv.satisfied
  residualDeficit : CarriesOptionalMap nv.residualDeficit v.residualDeficit
  claimedMachineCount : v.claimedMachineCount = nv.claimedMachineCount
  bootstrapCount : v.bootstrapCount = nv.bootstrapCount
  provisionCount : v.provisionCount = nv.provisionCount
  sameDomain : v.sameDomain = nv.sameDomain
  sameSatisfiable : v.sameSatisfiable = nv.sameSatisfiable
  acquisitionParked : v.acquisitionParked = nv.acquisitionParked
  parkedAgeCycles : v.parkedAgeCycles = nv.parkedAgeCycles
  ageCyclesUnmet : v.ageCyclesUnmet = nv.ageCyclesUnmet
  unmetReason : Labels [] "UNMET_REASON_" nv.unmetReason v.unmetReason
  arrivalUnixNanos : v.arrivalUnixNanos = nv.arrivalUnixNanos
  profileFingerprint : v.profileFingerprint = nv.profileFingerprint
  matchingSupply : Option.Rel CarriesSupply nv.matchingSupply v.matchingSupply
  preemption : Option.Rel CarriesPreemption nv.preemption v.preemption
  sameCandidates : List.Forall₂ CarriesCandidate nv.sameCandidates v.sameCandidates

theorem carriesMap_getMap (field : OrderedMap String String) : CarriesMap field (getMap field) := by
  obtain ⟨entries, nodup⟩ := field
  cases entries with
  | nil => rfl
  | cons e es => rfl

theorem carriesOptionalMap_bind (field : Option (OrderedMap String String)) :
    CarriesOptionalMap field (field.bind getMap) := by
  cases field with
  | none => rfl
  | some m => exact carriesMap_getMap m

/-- A projection applied to every element carries every element, in order. -/
theorem forall₂_map {α β : Type} {R : α → β → Prop} {f : α → β} (h : ∀ a, R a (f a)) (xs : List α) :
    List.Forall₂ R xs (xs.map f) := by
  induction xs with
  | nil => exact .nil
  | cons x xs ih => exact .cons (h x) ih

theorem optionRel_map {α β : Type} {R : α → β → Prop} {f : α → β} (h : ∀ a, R a (f a))
    (o : Option α) : Option.Rel R o (o.map f) := by
  cases o with
  | none => exact .none
  | some a => exact .some (h a)

theorem carries_requirements (rs : List NodeSelectorRequirementMsg) :
    List.Forall₂ CarriesRequirement rs (requirementsToAPI (fromProtoRequirements rs)) := by
  rw [requirementsToAPI, fromProtoRequirements, List.map_map]
  exact forall₂_map (fun r => ⟨rfl, titleOperator_labels r.operator, rfl⟩) rs

theorem carries_spread (ss : List TopologySpreadMsg) :
    List.Forall₂ CarriesSpread ss (spreadToAPI (fromProtoSpread ss)) := by
  rw [spreadToAPI, fromProtoSpread, List.map_map]
  exact forall₂_map (fun t => ⟨rfl, rfl, titleWhenUnsatisfiable_labels t.whenUnsatisfiable⟩) ss

/-- The two projections together keep every component of a need message. -/
theorem carries_toAPINeedView (nv : NeedViewMsg) : Carries nv (toAPINeedView (fromProto nv)) := by
  constructor
  case need =>
    constructor
    case aggregateResources => exact carriesMap_getMap _
    case minUnit => exact carriesMap_getMap _
    case requirements => exact carries_requirements _
    case spread => exact carries_spread _
    case interruptionPenaltyBucket => exact trimPrefix_labels _ _
    case reclamationPenaltyBucket => exact trimPrefix_labels _ _
    all_goals rfl
  case residualDeficit => exact carriesOptionalMap_bind _
  case unmetReason => exact trimPrefix_labels _ _
  case matchingSupply =>
    simp only [toAPINeedView, fromProto, Option.map_map]
    exact optionRel_map (fun ms => ⟨rfl, rfl, rfl, rfl⟩) nv.matchingSupply
  case preemption =>
    simp only [toAPINeedView, fromProto, Option.map_map]
    exact optionRel_map (fun p => ⟨rfl, carriesOptionalMap_bind p.capacityFreed⟩) nv.preemption
  case sameCandidates =>
    simp only [toAPINeedView, fromProto, List.map_map]
    exact forall₂_map (fun c => ⟨rfl, rfl, rfl⟩) nv.sameCandidates
  all_goals rfl

/-- The answer to a stream that ended: its needs in order, under its last header. -/
structure Delivers (messages : List InspectNeedsMsg) (res : NeedsResponse) : Prop where
  needs : List.Forall₂ Carries (needMessages messages) res.needs
  cycle : res.cycle = ((lastHeader messages).map HeaderMsg.cycle).getD 0
  computedAtUnixNanos :
    res.computedAtUnixNanos = ((lastHeader messages).map HeaderMsg.computedAtUnixNanos).getD 0
  totalNeeds : res.totalNeeds = ((lastHeader messages).map HeaderMsg.totalNeeds).getD 0

/-- What was received so far answers with exactly what the messages said. -/
theorem delivers_needsResponse (messages : List InspectNeedsMsg) (shardId : String) (now : Int) :
    Delivers messages
      (needsResponse shardId (messages.foldl NeedsSnapshot.receive NeedsSnapshot.zero) now) := by
  rw [foldl_receive]
  constructor
  case needs =>
    simp only [needsResponse, List.map_map]
    exact forall₂_map carries_toAPINeedView (needMessages messages)
  all_goals
    simp only [needsResponse]
    cases lastHeader messages <;> rfl

/-! ## The handler over a stream -/

/-- The request reaches a shard over the connection. -/
structure Dials (s : Server) (r : Request) (conn : Conn) : Prop where
  coordinator : requireCoordinator s = .ok ()
  named : r.query "shard" ≠ ""
  dialled : ∃ shards, s.coord.listShards = .ok shards ∧
    shardAddress shards (r.query "shard") ≠ "" ∧ s.shardNeeds.dialOptions = .ok () ∧
    s.shardNeeds.newClient (shardAddress shards (r.query "shard")) = .ok conn

/-- What the shard is asked. -/
def sentRequest (r : Request) : InspectNeedsRequest :=
  { clusterId := r.query "cluster", limit := wrapInt32 (needsLimit (r.query "limit")) }

/-- What the handler makes of the shard's reply. -/
def answerTo (r : Request) (now : Int) (reply : Except String Stream) :
    Except Failure NeedsResponse :=
  let received :=
    match reply with
    | .error err => .error ("shardclient: inspect needs: " ++ err)
    | .ok stream => receiveAll stream
  (orBadGateway "shard InspectNeeds: " received).map
    (fun snap => needsResponse (r.query "shard") snap now)

/-- The handler asks the shard once and answers with the reply. -/
theorem needsHandler_of_dials {s : Server} {r : Request} {conn : Conn} (h : Dials s r conn)
    (now : Int) : needsHandler s r now = answerTo r now (conn (sentRequest r)) := by
  obtain ⟨shards, hshards, haddr, hdial, hconn⟩ := h.dialled
  have hinspect : s.shardNeeds.inspectNeeds (shardAddress shards (r.query "shard"))
      (r.query "cluster") (needsLimit (r.query "limit")) =
      match conn (sentRequest r) with
      | .error err => .error ("shardclient: inspect needs: " ++ err)
      | .ok stream => receiveAll stream := by
    cases hreply : conn (sentRequest r) with
    | error err =>
      rw [sentRequest] at hreply
      simp only [ShardClient.Client.inspectNeeds, haddr, if_false, hdial, hconn, hreply]
    | ok stream =>
      rw [sentRequest] at hreply
      simp only [ShardClient.Client.inspectNeeds, haddr, if_false, hdial, hconn, hreply]
  have hshard := (requireShard_eq_ok_iff (r.query "shard")).mpr h.named
  have haddress := (requireAddress_eq_ok_iff (r.query "shard") _).mpr haddr
  simp only [needsHandler, h.coordinator, hshard, hshards, orCoordError, ok_bind, haddress, hinspect,
    answerTo]
  cases orBadGateway "shard InspectNeeds: " _ with
  | error failure => rfl
  | ok snap => rfl

/-- The request reaches a shard that answers it with the stream. -/
def Streams (s : Server) (r : Request) (stream : Stream) : Prop :=
  ∃ conn, Dials s r conn ∧ conn (sentRequest r) = .ok stream

/-- A stream is delivered whole and in order, or the answer is a bad gateway. -/
theorem needsHandler_delivers {s : Server} {r : Request} {stream : Stream}
    (h : Streams s r stream) (now : Int) :
    (stream.failure = none →
      ∃ res, needsHandler s r now = .ok res ∧ Delivers stream.messages res) ∧
    ∀ err, stream.failure = some err →
      needsHandler s r now = .error (.response statusBadGateway
        ("shard InspectNeeds: " ++ ("shardclient: recv: " ++ err))) := by
  obtain ⟨conn, hdials, hstream⟩ := h
  rw [needsHandler_of_dials hdials, hstream]
  constructor
  · intro hend
    simp only [answerTo, receiveAll, hend]
    exact ⟨_, rfl, delivers_needsResponse stream.messages (r.query "shard") now⟩
  · intro err herr
    simp only [answerTo, receiveAll, herr]
    rfl

/-- One shard is registered; it answers every request with the stream. -/
def streamServer (stream : Stream) : Server :=
  { Pages.needsServer 0 with shardNeeds := ⟨.ok (), fun _ => .ok (fun _ => .ok stream)⟩ }

def shardRequest : Request := Pages.requestOf (Pages.needsParams "shard-a" 0)

theorem streams_streamServer (stream : Stream) :
    Streams (streamServer stream) shardRequest stream := by
  refine ⟨fun _ => .ok stream, ?_, rfl⟩
  constructor
  case coordinator => rfl
  case named => decide
  case dialled => exact ⟨_, rfl, by decide, rfl, rfl⟩

/-- A need that waits for one of two domains. -/
def parkedNeed : NeedViewMsg :=
  { Pages.sampleNeed with
    need := some {
      NeedMsg.zero with
      priority := 1000
      aggregateResources := (OrderedMap.empty.set "cpu" "64").set "nvidia.com/gpu" "8"
      minUnit := OrderedMap.empty.set "nvidia.com/gpu" "1"
      group := "training"
      requirements := [⟨"zone", "OPERATOR_IN", ["eu-1", "eu-2"]⟩, ⟨"rack", "OPERATOR_SAME", []⟩]
      spread := [⟨"zone", 1, "WHEN_UNSATISFIABLE_DO_NOT_SCHEDULE"⟩]
      interruptionPenaltyBucket := "PENALTY_BUCKET_PINNED" }
    satisfied := false
    residualDeficit := some (OrderedMap.empty.set "nvidia.com/gpu" "8")
    acquisitionParked := true
    parkedAgeCycles := 3
    unmetReason := "UNMET_REASON_NO_SUPPLY"
    matchingSupply := some ⟨0, 2, 1, true⟩
    sameCandidates := [⟨"rack-1", 500, false⟩, ⟨"rack-2", 1000, true⟩] }

/-- A need that took machines from others. -/
def preemptingNeed : NeedViewMsg :=
  { Pages.sampleNeed with
    clusterId := "search"
    need := some { NeedMsg.zero with
      priority := 2000
      aggregateResources := OrderedMap.empty.set "cpu" "16"
      reclamationPenaltyBucket := "PENALTY_BUCKET_16" }
    bootstrapCount := 2
    arrivalUnixNanos := 1700000000000000000
    profileFingerprint := "gpu"
    preemption := some ⟨2, some (OrderedMap.empty.set "cpu" "32")⟩ }

/-- Two headers around two needs, and a message with neither. -/
def mixedMessages : List InspectNeedsMsg :=
  [.header ⟨87, 1, 4⟩, .need parkedNeed, .neither, .need preemptingNeed, .header ⟨88, 2, 2⟩]

theorem needsHandler_delivers_mixed :
    (∃ res, needsHandler (streamServer ⟨mixedMessages, none⟩) shardRequest 0 = .ok res ∧
      Delivers mixedMessages res) ∧
    needsHandler (streamServer ⟨mixedMessages, some "reset"⟩) shardRequest 0 =
      .error (.response 502 "shard InspectNeeds: shardclient: recv: reset") :=
  ⟨(needsHandler_delivers (streams_streamServer _) 0).1 rfl,
    (needsHandler_delivers (streams_streamServer _) 0).2 "reset" rfl⟩

end BigfleetDashboard.Handlers
