import BigfleetDashboard.ShardNeeds

/-!
# The summary of the needs page

The page asks for the needs of a shard without a limit, and its summary bar
counts what it received. The handler fills in a default limit, so the summary is
complete exactly for the shards that stay within it.
-/
namespace BigfleetDashboard.Pages
open Go CoordClient ShardClient Handlers Script

/-! ## The request -/

/-- The parameters of the request; a limit of 0 is left out. -/
def needsParams (shard : String) (limit : Int) : List (String × String) :=
  ("shard", shard) :: (if limit = 0 then [] else [("limit", numberText limit)])

/-- A parameter reads as its first value, and as the empty text if it is absent. -/
def requestOf (params : List (String × String)) : Request :=
  { query := fun name => ((params.find? (fun p => p.1 = name)).map Prod.snd).getD ""
    pathValue := fun _ => "" }

/-- `api.needs(shard, limit)`, answered by the server. -/
def apiNeeds (s : Server) (shard : String) (limit now : Int) : Except Failure ReceivedNeeds :=
  (needsHandler s (requestOf (needsParams shard limit)) now).map receivedNeeds

/-- The page leaves the limit at its default. -/
def loadNeeds (s : Server) (shard : String) (now : Int) : Except Failure ReceivedNeeds :=
  apiNeeds s shard 0 now

theorem apiNeeds_eq_ok_iff {s : Server} {shard : String} {limit now : Int} {loaded : ReceivedNeeds} :
    apiNeeds s shard limit now = .ok loaded ↔
      ∃ res, needsHandler s (requestOf (needsParams shard limit)) now = .ok res ∧
        receivedNeeds res = loaded := by
  unfold apiNeeds
  cases needsHandler s (requestOf (needsParams shard limit)) now with
  | error e => simp [Except.map]
  | ok res => simp [Except.map]

/-! ## The summary -/

/-- The selection of all clusters. -/
def allClusters : String := "*"

/-- The needs of the selected cluster; without a selection all are shown. -/
def scopedNeeds (all : List NeedView) (cluster : String) : List NeedView :=
  if cluster ≠ "" ∧ cluster ≠ allClusters then all.filter (fun n => n.clusterId = cluster) else all

structure Summary where
  satisfied : ℕ
  byReason : OrderedMap String ℕ

def Summary.empty : Summary := ⟨0, OrderedMap.empty⟩

/-- The loop body: a need counts as satisfied, or under its reason. -/
def Summary.add (m : Summary) (n : NeedView) : Summary :=
  if n.satisfied then { m with satisfied := m.satisfied + 1 }
  else { m with byReason := m.byReason.set n.unmetReason (m.byReason.getD n.unmetReason 0 + 1) }

def summary (needs : List NeedView) : Summary := needs.foldl Summary.add Summary.empty

/-- What the badges of the summary bar add up to. -/
def Summary.total (m : Summary) : ℕ := m.satisfied + m.byReason.values.sum

@[simp] theorem scopedNeeds_allClusters (all : List NeedView) :
    scopedNeeds all allClusters = all := by
  simp [scopedNeeds]

theorem total_add (m : Summary) (n : NeedView) : (m.add n).total = m.total + 1 := by
  unfold Summary.add
  split_ifs with h
  · simp only [Summary.total]
    omega
  · have hset := m.byReason.sum_values_set n.unmetReason (m.byReason.getD n.unmetReason 0 + 1)
    simp only [Summary.total]
    omega

/-- Every need is counted once. -/
theorem total_summary (needs : List NeedView) : (summary needs).total = needs.length := by
  have hfold : ∀ m : Summary, (needs.foldl Summary.add m).total = m.total + needs.length := by
    induction needs with
    | nil => simp
    | cons n needs ih =>
      intro m
      rw [List.foldl_cons, ih, total_add, List.length_cons]
      omega
  have hempty : Summary.empty.total = 0 := rfl
  rw [summary, hfold, hempty, Nat.zero_add]

/-! ## Loading a shard -/

/-- The connection answers a request for all clusters with a limit by a header
announcing `total` needs and then as many needs as the limit allows. -/
def StreamsUpTo (conn : Conn) (total : ℕ) : Prop :=
  ∀ req : InspectNeedsRequest, req.clusterId = "" → 0 < req.limit →
    ∃ (header : HeaderMsg) (sent : List NeedViewMsg),
      conn req = .ok ⟨.header header :: sent.map .need, none⟩ ∧ header.totalNeeds = total ∧
        (sent.length : Int) = min req.limit total

/-- The shard is registered and can be dialled, and it has `total` needs. -/
structure Serves (s : Server) (shard : String) (total : ℕ) : Prop where
  coordinator : requireCoordinator s = .ok ()
  named : shard ≠ ""
  streams : ∃ shards conn, s.coord.listShards = .ok shards ∧ shardAddress shards shard ≠ "" ∧
    s.shardNeeds.dialOptions = .ok () ∧
    s.shardNeeds.newClient (shardAddress shards shard) = .ok conn ∧ StreamsUpTo conn total

/-- The shard is asked for the default number of needs. -/
theorem needsLimit_params (shard : String) :
    needsLimit ((requestOf (needsParams shard 0)).query "limit") = defaultNeedsLimit := by
  have hquery : (requestOf (needsParams shard 0)).query "limit" = "" := by
    simp [requestOf, needsParams]
  rw [hquery]
  decide

theorem inspectNeeds_of_streamsUpTo {c : ShardClient.Client} {addr : String} {conn : Conn} {total : ℕ}
    (haddr : addr ≠ "") (hdial : c.dialOptions = .ok ()) (hconn : c.newClient addr = .ok conn)
    (h : StreamsUpTo conn total) :
    ∃ snap, c.inspectNeeds addr "" defaultNeedsLimit = .ok snap ∧ snap.totalNeeds = total ∧
      snap.needs.length = min 2000 total := by
  have hwrap : wrapInt32 defaultNeedsLimit = 2000 := wrapInt32_of_mem (by decide) (by decide)
  obtain ⟨header, sent, hanswer, htotal, hlength⟩ := h ⟨"", 2000⟩ rfl (by decide)
  let snap : NeedsSnapshot :=
    ⟨header.cycle, header.computedAtUnixNanos, header.totalNeeds, sent.map fromProto⟩
  have hreceive : receiveAll ⟨.header header :: sent.map .need, none⟩ = .ok snap := by
    simp only [receiveAll, List.foldl_cons, foldl_receive_needs]
    rfl
  refine ⟨snap, ?_, htotal, ?_⟩
  · simp only [ShardClient.Client.inspectNeeds, haddr, if_false, hdial, hconn, hwrap, hanswer,
      hreceive]
  · show (sent.map fromProto).length = min 2000 total
    rw [List.length_map]
    have hlength' : (sent.length : Int) = min 2000 (total : Int) := hlength
    omega

/-- The page loads, and counts no more needs than the default limit. -/
theorem loadNeeds_total {s : Server} {shard : String} {total : ℕ} (h : Serves s shard total)
    (now : Int) :
    ∃ loaded, loadNeeds s shard now = .ok loaded ∧ loaded.totalNeeds = toDouble total ∧
      (summary (scopedNeeds loaded.needs allClusters)).total = min 2000 total := by
  obtain ⟨shards, conn, hshards, haddr, hdial, hconn, hstream⟩ := h.streams
  obtain ⟨snap, hsnap, htotal, hlength⟩ := inspectNeeds_of_streamsUpTo haddr hdial hconn hstream
  refine ⟨_, apiNeeds_eq_ok_iff.mpr ⟨needsResponse shard snap now, ?_, rfl⟩, ?_, ?_⟩
  · refine needsHandler_eq_ok_iff.mpr
      ⟨h.coordinator, h.named, shards, hshards, haddr, snap, ?_, rfl⟩
    rw [needsLimit_params]
    exact hsnap
  · show toDouble snap.totalNeeds = toDouble total
    rw [htotal]
  · rw [scopedNeeds_allClusters, total_summary]
    show ((snap.needs.map toAPINeedView).map receivedNeed).length = min 2000 total
    rw [List.length_map, List.length_map, hlength]

/-- The summary accounts for all needs of the shard exactly when there are at most 2000. -/
theorem loadNeeds_complete_iff {s : Server} {shard : String} {total : ℕ} (h : Serves s shard total)
    (now : Int) :
    (∃ loaded, loadNeeds s shard now = .ok loaded ∧
      (summary (scopedNeeds loaded.needs allClusters)).total = total) ↔ total ≤ 2000 := by
  obtain ⟨loaded, hloaded, -, hcount⟩ := loadNeeds_total h now
  constructor
  · rintro ⟨other, hother, hcomplete⟩
    obtain rfl := Except.ok.inj (hloaded.symm.trans hother)
    omega
  · intro hle
    refine ⟨loaded, hloaded, ?_⟩
    omega

def sampleNeed : NeedViewMsg :=
  { clusterId := "payments"
    need := none
    satisfied := true
    residualDeficit := none
    claimedMachineCount := 1
    bootstrapCount := 0
    provisionCount := 0
    sameDomain := ""
    sameSatisfiable := false
    acquisitionParked := false
    parkedAgeCycles := 0
    ageCyclesUnmet := 0
    unmetReason := "UNMET_REASON_UNSPECIFIED"
    arrivalUnixNanos := 0
    profileFingerprint := ""
    matchingSupply := none
    preemption := none
    sameCandidates := [] }

/-- A shard of equal needs; without a limit it sends them all. -/
def sampleConn (total : ℕ) : Conn := fun req =>
  let sent := if 0 < req.limit then min req.limit.toNat total else total
  .ok ⟨.header ⟨88, 0, total⟩ :: (List.replicate sent sampleNeed).map .need, none⟩

/-- One shard is registered. -/
def needsServer (total : ℕ) : Server :=
  { Server.unwired with
    coord := {
      addr := "coordinator:7000"
      api := some {
        listShards := .ok [⟨"shard-a", "shard-a:7780", 0, 0⟩]
        listDomainAssignments := .ok []
        listShardReports := fun _ => .ok [] }
      dialled := by simp }
    shardNeeds := ⟨.ok (), fun _ => .ok (sampleConn total)⟩ }

theorem serves_needsServer (total : ℕ) : Serves (needsServer total) "shard-a" total := by
  constructor
  case coordinator => rfl
  case named => decide
  case streams =>
    refine ⟨_, sampleConn total, rfl, by decide, rfl, rfl, ?_⟩
    intro req _ hlimit
    refine ⟨⟨88, 0, total⟩, List.replicate (min req.limit.toNat total) sampleNeed, ?_, rfl, ?_⟩
    · simp [sampleConn, hlimit]
    · rw [List.length_replicate]
      omega

theorem loadNeeds_complete_small :
    ∃ loaded, loadNeeds (needsServer 2) "shard-a" 0 = .ok loaded ∧
      (summary (scopedNeeds loaded.needs allClusters)).total = 2 :=
  (loadNeeds_complete_iff (serves_needsServer 2) 0).mpr (by decide)

/-- One need past the default limit is missing from the summary. -/
theorem loadNeeds_not_complete :
    ¬ ∀ (s : Server) (shard : String) (total : ℕ) (now : Int), Serves s shard total →
      ∃ loaded, loadNeeds s shard now = .ok loaded ∧
        (summary (scopedNeeds loaded.needs allClusters)).total = total := by
  intro h
  obtain ⟨loaded, hloaded, hcomplete⟩ := h _ _ 2001 0 (serves_needsServer 2001)
  obtain ⟨other, hother, -, hcount⟩ := loadNeeds_total (serves_needsServer 2001) 0
  obtain rfl := Except.ok.inj (hloaded.symm.trans hother)
  omega

end BigfleetDashboard.Pages
