import BigfleetDashboard.GoRuntime

/-!
# The coordinator client

Package `coordclient`: the read calls on the leader of the coordinator, and the
projection of its messages. A map field of a received message that is empty or
absent is read as a nil map, and so is every map of an absent submessage.
-/
namespace BigfleetDashboard.CoordClient

/-- A map value of the server's language: nil, or an allocated map. -/
abbrev GoMap (ν : Type) := Option (OrderedMap String ν)

/-- What a generated getter returns for a map field. -/
def getMap {ν : Type} (field : OrderedMap String ν) : GoMap ν :=
  if field.entries.isEmpty then none else some field

/-! ## Messages of the coordinator -/

/-- An error of a call: its status code, when it carries one, and its text. -/
structure RpcError where
  code : Option ℕ
  text : String
  deriving DecidableEq

structure ShardMsg where
  shardId : String
  address : String
  registeredAtUnixNs : Int
  lastHeartbeatUnixNs : Int

structure AssignmentMsg where
  topologyKey : String
  topologyValue : String
  shardId : String

structure SummaryMsg where
  totalMachines : Int
  freeMachines : Int
  perInstanceTypeCounts : OrderedMap String Int
  perZoneCounts : OrderedMap String Int
  providerAddress : String

/-- The deficit is a submessage holding one map. The penalty bucket is the name
the enumeration prints. -/
structure ShortfallMsg where
  priority : Int
  deficit : Option (OrderedMap String String)
  ageCycles : Int
  interruptionPenaltyBucket : String

structure ReportMsg where
  shardId : String
  cycle : Int
  receivedAtUnixNs : Int
  summary : Option SummaryMsg
  shortfalls : List ShortfallMsg

structure Api where
  listShards : Except RpcError (List ShardMsg)
  listDomainAssignments : Except RpcError (List AssignmentMsg)
  listShardReports : String → Except RpcError (List ReportMsg)

/-! ## The client -/

/-- A client has an API exactly when it was given an address. -/
structure Client where
  addr : String
  api : Option Api
  dialled : api.isSome ↔ addr ≠ ""

def Client.configured (c : Client) : Bool := c.addr != ""

/-- A client without an address. -/
def Client.unconfigured : Client := ⟨"", none, by simp⟩

inductive CoordError
  | notConfigured
  | notLeader
  | other (err : RpcError)
  deriving DecidableEq

def CoordError.text : CoordError → String
  | .notConfigured => "coordinator client not configured: pass --coordinator-addr"
  | .notLeader => "coordinator replica is not the Raft leader"
  | .other err => err.text

/-- The status code of a failed precondition. -/
def failedPrecondition : ℕ := 9

def mapLeaderErr (err : RpcError) : CoordError :=
  if err.code = some failedPrecondition then .notLeader else .other err

structure ShardRegistryEntry where
  shardId : String
  address : String
  registeredAtUnixNs : Int
  lastHeartbeatUnixNs : Int

structure DomainAssignment where
  topologyKey : String
  topologyValue : String
  shardId : String

structure ShardReportSummary where
  totalMachines : Int
  freeMachines : Int
  instanceTypeCounts : GoMap Int
  zoneCounts : GoMap Int
  providerAddress : String

structure ShardReportShortfall where
  priority : Int
  deficit : GoMap String
  ageCycles : Int
  penaltyBucket : String

structure ShardReport where
  shardId : String
  cycle : Int
  receivedAtUnixNs : Int
  summary : Option ShardReportSummary
  shortfalls : List ShardReportShortfall

/-- The shape of every read: no API, a failed call, or the projected reply. -/
def Client.read {μ ρ : Type} (c : Client) (call : Api → Except RpcError (List μ)) (project : μ → ρ) :
    Except CoordError (List ρ) :=
  match c.api with
  | none => .error .notConfigured
  | some api =>
    match call api with
    | .error err => .error (mapLeaderErr err)
    | .ok resp => .ok (resp.map project)

def toRegistryEntry (s : ShardMsg) : ShardRegistryEntry :=
  ⟨s.shardId, s.address, s.registeredAtUnixNs, s.lastHeartbeatUnixNs⟩

def Client.listShards (c : Client) : Except CoordError (List ShardRegistryEntry) :=
  c.read Api.listShards toRegistryEntry

def toDomainAssignment (a : AssignmentMsg) : DomainAssignment :=
  ⟨a.topologyKey, a.topologyValue, a.shardId⟩

def Client.listDomainAssignments (c : Client) : Except CoordError (List DomainAssignment) :=
  c.read Api.listDomainAssignments toDomainAssignment

def toReportSummary (s : SummaryMsg) : ShardReportSummary :=
  { totalMachines := s.totalMachines
    freeMachines := s.freeMachines
    instanceTypeCounts := getMap s.perInstanceTypeCounts
    zoneCounts := getMap s.perZoneCounts
    providerAddress := s.providerAddress }

/-- A shortfall without a deficit submessage has a nil deficit. -/
def toReportShortfall (sf : ShortfallMsg) : ShardReportShortfall :=
  { priority := sf.priority
    deficit := sf.deficit.bind getMap
    ageCycles := sf.ageCycles
    penaltyBucket := sf.interruptionPenaltyBucket }

def toReport (r : ReportMsg) : ShardReport :=
  { shardId := r.shardId
    cycle := r.cycle
    receivedAtUnixNs := r.receivedAtUnixNs
    summary := r.summary.map toReportSummary
    shortfalls := r.shortfalls.map toReportShortfall }

/-- The reports of one shard, or of all shards when `shardId` is empty. -/
def Client.listShardReports (c : Client) (shardId : String) : Except CoordError (List ShardReport) :=
  c.read (fun api => api.listShardReports shardId) toReport

/-- A successful read projects the messages of a successful call, in order. -/
theorem Client.read_eq_ok_iff {μ ρ : Type} (c : Client) (call : Api → Except RpcError (List μ))
    (project : μ → ρ) (out : List ρ) :
    c.read call project = .ok out ↔
      ∃ api resp, c.api = some api ∧ call api = .ok resp ∧ out = resp.map project := by
  unfold Client.read
  cases c.api with
  | none => simp
  | some api =>
    cases hcall : call api with
    | error err => simp [hcall]
    | ok resp => simp [hcall, eq_comm]

/-- A configured client never reports that it is not configured. -/
theorem Client.read_configured {μ ρ : Type} {c : Client} (hc : c.configured = true)
    (call : Api → Except RpcError (List μ)) (project : μ → ρ) :
    c.read call project ≠ .error .notConfigured := by
  have haddr : c.addr ≠ "" := by simpa [Client.configured] using hc
  obtain ⟨api, hapi⟩ := Option.isSome_iff_exists.mp (c.dialled.mpr haddr)
  unfold Client.read
  rw [hapi]
  cases hcall : call api with
  | error err =>
    simp only [hcall, mapLeaderErr]
    split_ifs <;> simp
  | ok resp => simp [hcall]

end BigfleetDashboard.CoordClient
