import BigfleetDashboard.ApiCalls
import BigfleetDashboard.TimeAxis

/-!
# Which backend a page needs

A handler starts with a guard: without its backend it answers that the backend is not
configured. The page reads from `/api/config` which backends there are, and asks for data
only if its own is among them. The two agree, and a handler whose backend is there fails
only for a reason that lies in the request or in the backend.
-/
namespace BigfleetDashboard.Web
open Go PromClient Handlers Clusters FinOps

/-! ## Failures -/

section FailsWith
variable {α β : Type} {P : Failure → Prop} {x : Except Failure α} {f : α → Except Failure β}

/-- Every failure is of this kind. -/
def FailsWith (P : Failure → Prop) (x : Except Failure α) : Prop := ∀ e, x = .error e → P e

theorem failsWith_ok (a : α) : FailsWith P (.ok a) := by
  intro e h
  cases h

theorem FailsWith.bind (hx : FailsWith P x) (hf : ∀ a, FailsWith P (f a)) :
    FailsWith P (x >>= f) := by
  cases x with
  | error e =>
    intro e' h
    obtain rfl := Except.error.inj h
    exact hx e rfl
  | ok a => exact hf a

theorem FailsWith.map {g : α → β} (hx : FailsWith P x) : FailsWith P (x.map g) := by
  cases x with
  | error e =>
    intro e' h
    obtain rfl := Except.error.inj h
    exact hx e rfl
  | ok a => exact failsWith_ok (g a)

end FailsWith

/-- A failure that tells what is wrong with the request or with a backend that is there. -/
inductive Reported : Failure → Prop
  | badRequest {message : String} (h : message ≠ "") : Reported (.response statusBadRequest message)
  | notFound {message : String} (h : message ≠ "") : Reported (.response statusNotFound message)
  | badGateway {message : String} (h : message ≠ "") : Reported (.response statusBadGateway message)
  | noLeader (context : String) :
      Reported (.response statusServiceUnavailable (context ++ CoordClient.CoordError.notLeader.text))

/-- A text that goes on is not empty. -/
theorem append_ne_empty {message : String} (h : (message == "") = false) (rest : String) :
    message ++ rest ≠ "" := by
  intro hempty
  exact ne_of_beq_false h (String.append_eq_empty_iff.mp hempty).1

theorem failsWith_orBadGateway {α : Type} {message : String} (x : Except String α)
    (h : (message == "") = false) : FailsWith Reported (orBadGateway message x) := by
  cases x with
  | ok a => exact failsWith_ok a
  | error err =>
    intro e he
    obtain rfl := Except.error.inj he
    exact .badGateway (append_ne_empty h err)

theorem failsWith_orCoordError {α : Type} {message : String}
    {x : Except CoordClient.CoordError α} (h : x ≠ .error .notConfigured)
    (hmessage : (message == "") = false) :
    FailsWith Reported (orCoordError message x) := by
  cases x with
  | ok a => exact failsWith_ok a
  | error err =>
    rintro e he
    obtain rfl := Except.error.inj he
    cases err with
    | notConfigured => exact absurd rfl h
    | notLeader => exact .noLeader message
    | other err => exact .badGateway (append_ne_empty hmessage _)

theorem failsWith_requirePodName (r : Request) : FailsWith Reported (requirePodName r) := by
  unfold requirePodName
  dsimp only
  split_ifs with h
  · exact failsWith_ok _
  · intro e he
    obtain rfl := Except.error.inj he
    exact .badRequest (by decide)

/-- The ranges that the handlers ask for divide into a number of slots that fits. -/
theorem failsWith_seriesRange (c : PromClient.Client) {message : String} (q label : String)
    (rt : Runtime) (r : Request) (now : Int) (hmessage : (message == "") = false) :
    FailsWith Reported
      (orBadGatewayRange message (queryRangeByLabel c q label (seriesRange rt r now))) := by
  obtain ⟨hr, hspan⟩ := seriesRange_valid rt r now
  generalize seriesRange rt r now = rng at *
  obtain ⟨hlast, hlo, -⟩ := last_spec hr
  have hle : rng.last ≤ rng.last * rng.step := le_mul_of_one_le_right hlast hr.step_pos
  have hday : 24 * hour < maxInt64 := by decide
  have hsteps : ¬ rangeSteps rng < 0 := by
    rw [rangeSteps_eq hr ⟨by omega, by omega⟩]
    omega
  have hstep : rng.step ≠ 0 := hr.step_pos.ne'
  rintro e h
  unfold queryRangeByLabel at h
  split at h
  · obtain rfl := Except.error.inj h
    exact .badGateway (append_ne_empty hmessage _)
  · simp only [if_neg hstep, if_neg hsteps] at h
    cases h
  · obtain rfl := Except.error.inj h
    exact .badGateway (append_ne_empty hmessage _)

/-! ## Sources -/

inductive Source
  | prometheus
  | coordinator
  | kubeconfig
  deriving DecidableEq

def Source.notConfigured : Source → Failure
  | .prometheus =>
    .response statusServiceUnavailable "prometheus not configured: pass --prometheus-url"
  | .coordinator =>
    .response statusServiceUnavailable "coordinator not configured: pass --coordinator-addr"
  | .kubeconfig =>
    .response statusServiceUnavailable "kubeconfig not configured: pass --kubeconfig"

/-- The backend that the first guard of a handler asks for. -/
def Handler.source : Handler → Option Source
  | .healthHandler => none
  | .configHandler => none
  | .fleetOverviewHandler => some .prometheus
  | .fleetActionsHandler => some .prometheus
  | .shardsListHandler => some .prometheus
  | .shardDetailHandler => some .prometheus
  | .shardTrendsHandler => some .prometheus
  | .clustersListHandler => some .kubeconfig
  | .clusterDetailHandler => some .kubeconfig
  | .availableCapacityHandler => some .kubeconfig
  | .topologyHandler => some .coordinator
  | .shardReportsHandler => some .coordinator
  | .needsHandler => some .coordinator
  | .finopsHandler => some .prometheus

/-- The backends that the server has. -/
def Dashboard.has (d : Dashboard) : Source → Bool
  | .prometheus => d.server.prom.configured
  | .coordinator => d.server.coord.configured
  | .kubeconfig => d.server.kube.configured

def ClientConfig.wired (c : ClientConfig) : Source → Bool
  | .prometheus => c.prometheusWired
  | .coordinator => c.coordinatorWired
  | .kubeconfig => c.kubeconfigWired

/-- A report is never mistaken for a missing backend. -/
theorem Reported.ne_notConfigured {e : Failure} (h : Reported e) (src : Source) :
    e ≠ src.notConfigured := by
  cases h with
  | badRequest h => cases src <;> simp [Source.notConfigured, statusBadRequest,
      statusServiceUnavailable]
  | notFound h => cases src <;> simp [Source.notConfigured, statusNotFound,
      statusServiceUnavailable]
  | badGateway h => cases src <;> simp [Source.notConfigured, statusBadGateway,
      statusServiceUnavailable]
  | noLeader context =>
    -- The texts end differently, whatever the context.
    have hsuffix : ∀ text : String, ¬ " Raft leader".toList <:+ text.toList →
        Failure.response statusServiceUnavailable
          (context ++ CoordClient.CoordError.notLeader.text) ≠
          .response statusServiceUnavailable text := by
      rintro text hno heq
      refine hno ?_
      rw [Failure.response.injEq] at heq
      rw [← heq.2, String.toList_append]
      refine List.IsSuffix.trans ?_ (List.suffix_append _ _)
      decide
    cases src with
    | prometheus => exact hsuffix _ (by decide)
    | coordinator => exact hsuffix _ (by decide)
    | kubeconfig => exact hsuffix _ (by decide)

/-! ## A handler without its backend -/

theorem requirePrometheus_of_missing {s : Server} (h : s.prom.configured = false) :
    requirePrometheus s = .error Source.prometheus.notConfigured := by
  rw [requirePrometheus, h]
  rfl

theorem requireCoordinator_of_missing {s : Server} (h : s.coord.configured = false) :
    requireCoordinator s = .error Source.coordinator.notConfigured := by
  rw [requireCoordinator, h]
  rfl

theorem requireKube_of_missing {kube : CountReader} (h : kube.configured = false) :
    requireKube kube = .error Source.kubeconfig.notConfigured := by
  rw [requireKube, h]
  rfl

theorem Dashboard.handle_of_missing {d : Dashboard} {h : Handler} {src : Source}
    (hsrc : h.source = some src) (hmissing : d.has src = false) (r : Request) (clock : Clock) :
    d.handle r clock h = .error src.notConfigured := by
  have hkube : src = .kubeconfig → d.counts.configured = false := by
    rintro rfl
    rw [d.one_client.1]
    exact hmissing
  cases h <;> cases hsrc
  case clustersListHandler =>
    rw [handle, clustersListHandler, hkube rfl]
    rfl
  case clusterDetailHandler =>
    rw [handle, clusterDetailHandler, requireKube_of_missing (hkube rfl)]
    rfl
  case availableCapacityHandler =>
    have hnot : d.server.kube.configured = false := hmissing
    rw [handle, availableCapacityHandler, hnot]
    rfl
  case topologyHandler =>
    rw [handle, topologyHandler, requireCoordinator_of_missing hmissing]
    rfl
  case shardReportsHandler =>
    rw [handle, shardReportsHandler, requireCoordinator_of_missing hmissing]
    rfl
  case needsHandler =>
    rw [handle, needsHandler, requireCoordinator_of_missing hmissing]
    rfl
  case fleetOverviewHandler =>
    rw [handle, fleetOverviewHandler, requirePrometheus_of_missing hmissing]
    rfl
  case fleetActionsHandler =>
    rw [handle, fleetActionsHandler, requirePrometheus_of_missing hmissing]
    rfl
  case shardsListHandler =>
    rw [handle, shardsListHandler, requirePrometheus_of_missing hmissing]
    rfl
  case shardDetailHandler =>
    rw [handle, shardDetailHandler, requirePrometheus_of_missing hmissing]
    rfl
  case shardTrendsHandler =>
    rw [handle, shardTrendsHandler, requirePrometheus_of_missing hmissing]
    rfl
  case finopsHandler =>
    rw [handle, finopsHandler, requirePrometheus_of_missing hmissing]
    rfl

/-! ## A handler with its backend -/

section Wired
variable {s : Server}

theorem failsWith_fleetOverviewHandler (h : s.prom.configured = true) (now : Int) :
    FailsWith Reported (fleetOverviewHandler s now) := by
  rw [fleetOverviewHandler, requirePrometheus_of_configured h, ok_bind]
  refine (failsWith_orBadGateway _ rfl).bind fun shards => ?_
  refine (failsWith_orBadGateway _ rfl).bind fun clusters => ?_
  refine (failsWith_orBadGateway _ rfl).bind fun shortfalls => ?_
  refine (failsWith_orBadGateway _ rfl).bind fun cycleP99 => ?_
  exact (failsWith_orBadGateway _ rfl).bind fun byState => failsWith_ok _

theorem failsWith_fleetActionsHandler (h : s.prom.configured = true) (r : Request) (now : Int) :
    FailsWith Reported (fleetActionsHandler s r now) := by
  rw [fleetActionsHandler, requirePrometheus_of_configured h, ok_bind]
  exact (failsWith_seriesRange _ _ _ _ _ _ rfl).bind fun ⟨timestamps, series⟩ => failsWith_ok _

theorem failsWith_shardsListHandler (h : s.prom.configured = true) (now : Int) :
    FailsWith Reported (shardsListHandler s now) := by
  rw [shardsListHandler, requirePrometheus_of_configured h, ok_bind]
  refine (failsWith_orBadGateway _ rfl).bind fun cycleP99 => ?_
  refine (failsWith_orBadGateway _ rfl).bind fun machines => ?_
  refine (failsWith_orBadGateway _ rfl).bind fun shortfalls => ?_
  exact (failsWith_orBadGateway _ rfl).bind fun sessions => failsWith_ok _

theorem failsWith_shardDetailHandler (h : s.prom.configured = true) (r : Request) (now : Int) :
    FailsWith Reported (shardDetailHandler s r now) := by
  rw [shardDetailHandler, requirePrometheus_of_configured h, ok_bind]
  refine (failsWith_requirePodName r).bind fun pod => ?_
  refine (failsWith_orBadGateway _ rfl).bind fun cycleP99 => ?_
  refine (failsWith_orBadGateway _ rfl).bind fun phaseP99 => ?_
  refine (failsWith_orBadGateway _ rfl).bind fun byState => ?_
  refine (failsWith_orBadGateway _ rfl).bind fun byCapacity => ?_
  refine (failsWith_orBadGateway _ rfl).bind fun shortfalls => ?_
  refine (failsWith_orBadGateway _ rfl).bind fun sessions => ?_
  refine (failsWith_orBadGateway _ rfl).bind fun actionsByKind => ?_
  refine (failsWith_orBadGateway _ rfl).bind fun occCommitted => ?_
  exact (failsWith_orBadGateway _ rfl).bind fun occConflict => failsWith_ok _

theorem failsWith_shardTrendsHandler (h : s.prom.configured = true) (r : Request) (now : Int) :
    FailsWith Reported (shardTrendsHandler s r now) := by
  rw [shardTrendsHandler, requirePrometheus_of_configured h, ok_bind]
  refine (failsWith_requirePodName r).bind fun pod => ?_
  refine (failsWith_seriesRange _ _ _ _ _ _ rfl).bind fun ⟨timestamps, cycleByPod⟩ => ?_
  exact (failsWith_seriesRange _ _ _ _ _ _ rfl).bind fun ⟨_, actionRates⟩ => failsWith_ok _

theorem failsWith_finopsHandler (h : s.prom.configured = true) (now : Int) :
    FailsWith Reported (finopsHandler s now) := by
  have hqueries : FailsWith Reported (finopsQueries s now) := by
    refine (failsWith_orBadGateway _ rfl).bind fun configuredByCap => ?_
    refine (failsWith_orBadGateway _ rfl).bind fun idleByCap => ?_
    refine (failsWith_orBadGateway _ rfl).bind fun samples => ?_
    refine (failsWith_orBadGateway _ rfl).bind fun demand => ?_
    refine (failsWith_orBadGateway _ rfl).bind fun configuredByBucket => ?_
    refine (failsWith_orBadGateway _ rfl).bind fun demandTotal => ?_
    exact (failsWith_orBadGateway _ rfl).bind fun actionRates => failsWith_ok _
  rw [finopsHandler, requirePrometheus_of_configured h, ok_bind]
  exact hqueries.bind fun answers => failsWith_ok _

theorem requireCoordinator_of_configured (h : s.coord.configured = true) :
    requireCoordinator s = .ok () := by
  rw [requireCoordinator, if_pos h]

theorem failsWith_topologyHandler (h : s.coord.configured = true) (now later : Int) :
    FailsWith Reported (topologyHandler s now later) := by
  rw [topologyHandler, requireCoordinator_of_configured h, ok_bind]
  refine (failsWith_orCoordError (CoordClient.Client.read_configured h _ _) rfl).bind fun shards => ?_
  exact (failsWith_orCoordError (CoordClient.Client.read_configured h _ _) rfl).bind
    fun domains => failsWith_ok _

theorem failsWith_shardReportsHandler (h : s.coord.configured = true) (r : Request) (now : Int) :
    FailsWith Reported (shardReportsHandler s r now) := by
  rw [shardReportsHandler, requireCoordinator_of_configured h, ok_bind]
  exact (failsWith_orCoordError (CoordClient.Client.read_configured h _ _) rfl).bind
    fun reports => failsWith_ok _

theorem failsWith_needsHandler (h : s.coord.configured = true) (r : Request) (now : Int) :
    FailsWith Reported (needsHandler s r now) := by
  have hshard : FailsWith Reported (requireShard (r.query "shard")) := by
    unfold requireShard
    split_ifs with hempty
    · rintro e he
      obtain rfl := Except.error.inj he
      exact .badRequest (by decide)
    · exact failsWith_ok _
  have haddress : ∀ addr, FailsWith Reported (requireAddress (r.query "shard") addr) := by
    intro addr
    unfold requireAddress
    split_ifs with hempty
    · rintro e he
      obtain rfl := Except.error.inj he
      exact .notFound (append_ne_empty rfl _)
    · exact failsWith_ok _
  rw [needsHandler, requireCoordinator_of_configured h, ok_bind]
  refine hshard.bind fun _ => ?_
  refine (failsWith_orCoordError (CoordClient.Client.read_configured h _ _) rfl).bind fun shards => ?_
  refine (haddress _).bind fun _ => ?_
  exact (failsWith_orBadGateway _ rfl).bind fun snap => failsWith_ok _

theorem failsWith_clusterDetailHandler {kube : CountReader} (h : kube.configured = true)
    (rt : Runtime) (r : Request) (now : Int) :
    FailsWith Reported (clusterDetailHandler rt kube r now) := by
  have hknown : FailsWith Reported (requireCluster kube (r.pathValue "id")) := by
    unfold requireCluster
    split_ifs with hknown
    · exact failsWith_ok _
    · rintro e he
      obtain rfl := Except.error.inj he
      exact .notFound (by decide)
  rw [clusterDetailHandler, requireKube, if_pos h, ok_bind]
  refine hknown.bind fun _ => ?_
  refine (failsWith_orBadGateway _ rfl).bind fun crByPhase => ?_
  exact (failsWith_orBadGateway _ rfl).bind fun unByPhase => failsWith_ok _

end Wired

/-- A handler whose backend is there fails only for a reason that it reports. -/
theorem Dashboard.failsWith_handle {d : Dashboard} {h : Handler}
    (hhas : ∀ src, h.source = some src → d.has src = true) (r : Request) (clock : Clock) :
    FailsWith Reported (d.handle r clock h) := by
  have hkube : h.source = some .kubeconfig → d.counts.configured = true := by
    intro hsrc
    rw [d.one_client.1]
    exact hhas _ hsrc
  cases h with
  | healthHandler => exact failsWith_ok _
  | configHandler => exact failsWith_ok _
  | fleetOverviewHandler => exact (failsWith_fleetOverviewHandler (hhas _ rfl) _).map
  | fleetActionsHandler => exact (failsWith_fleetActionsHandler (hhas _ rfl) _ _).map
  | shardsListHandler => exact (failsWith_shardsListHandler (hhas _ rfl) _).map
  | shardDetailHandler => exact (failsWith_shardDetailHandler (hhas _ rfl) _ _).map
  | shardTrendsHandler => exact (failsWith_shardTrendsHandler (hhas _ rfl) _ _).map
  | clustersListHandler =>
    rw [handle, clustersListHandler, if_pos (hkube rfl)]
    exact failsWith_ok _
  | clusterDetailHandler => exact (failsWith_clusterDetailHandler (hkube rfl) _ _ _).map
  | availableCapacityHandler =>
    have hconf : d.server.kube.configured = true := hhas _ rfl
    rw [handle, availableCapacityHandler, if_pos hconf]
    exact failsWith_ok _
  | topologyHandler => exact (failsWith_topologyHandler (hhas _ rfl) _ _).map
  | shardReportsHandler => exact (failsWith_shardReportsHandler (hhas _ rfl) _ _).map
  | needsHandler => exact (failsWith_needsHandler (hhas _ rfl) _ _).map
  | finopsHandler => exact (failsWith_finopsHandler (hhas _ rfl) _).map

/-! ## What `New` makes of the configuration -/

def Config.clientConfig (cfg : Config) : ClientConfig where
  grafanaUrl := cfg.grafanaURL
  prometheusWired := cfg.prometheusURL ≠ ""
  coordinatorWired := cfg.coordinatorAddr ≠ ""
  kubeconfigWired := cfg.kubeconfig ≠ ""

theorem Dashboard.handle_configHandler (d : Dashboard) (r : Request) (clock : Clock) :
    d.handle r clock .configHandler = .ok (.config d.cfg.clientConfig) := rfl

section New
variable {ρ : Type} {b : Backends ρ} {rt : Runtime}

theorem configured_newPromClient {baseURL : String} {c : PromClient.Client}
    (h : newPromClient b baseURL = .ok c) : c.configured = decide (baseURL ≠ "") := by
  unfold newPromClient at h
  split_ifs at h with hempty
  · obtain rfl := Except.ok.inj h
    simp [PromClient.Client.configured, hempty]
  · split at h
    · cases h
    · obtain rfl := Except.ok.inj h
      simp [PromClient.Client.configured, hempty]

theorem configured_newCoordClient {addr : String} {c : CoordClient.Client}
    (h : newCoordClient b addr = .ok c) : c.configured = decide (addr ≠ "") := by
  have haddr : c.addr = addr := by
    unfold newCoordClient at h
    split_ifs at h with hempty
    · exact congrArg CoordClient.Client.addr (Except.ok.inj h).symm
    · split at h
      · cases h
      · split at h
        · cases h
        · exact congrArg CoordClient.Client.addr (Except.ok.inj h).symm
  rw [CoordClient.Client.configured, haddr, Bool.eq_iff_iff, bne_iff_ne, decide_eq_true_eq]

theorem configured_newKubeClient {path : String} {c : KubeClient.Client}
    (h : newKubeClient b rt path = .ok c) : c.configured = decide (path ≠ "") := by
  unfold newKubeClient at h
  split at h
  · cases h
  · next made hmade =>
    obtain rfl := Except.ok.inj h
    obtain ⟨hpath, rfl⟩ | ⟨raw, configs, hpath, hload, hconfigs, rfl⟩ := KubeCache.new_cases hmade
    · rw [hpath]
      rfl
    · rfl

/-- A dashboard has the backends that its configuration names. -/
theorem has_of_new {shardNeeds : ShardClient.Client} {cfg : Config} {d : Dashboard}
    (h : New b rt shardNeeds cfg = .ok d) (src : Source) :
    d.cfg = cfg ∧ d.has src = cfg.clientConfig.wired src := by
  unfold New at h
  split at h
  · cases h
  · next prom hprom =>
    split at h
    · cases h
    · next coord hcoord =>
      split at h
      · cases h
      · next kube hkube =>
        obtain rfl := Except.ok.inj h
        refine ⟨rfl, ?_⟩
        cases src with
        | prometheus => exact configured_newPromClient hprom
        | coordinator => exact configured_newCoordClient hcoord
        | kubeconfig => exact configured_newKubeClient hkube

end New

/-! ## The pages -/

inductive Page
  | fleetOverview
  | shardsList
  | shardDetail (pod : String)
  | clustersList
  | clusterDetail (id : String)
  | availableCapacity
  | topology
  | shardReports
  | needs (shard : String)
  | finops

/-- A flag of a configuration; before there is one it is off. -/
def flag (data : Option ClientConfig) (f : ClientConfig → Bool) : Bool := (data.map f).getD false

def Page.wired (data : Option ClientConfig) : Page → Bool
  | .fleetOverview => flag data ClientConfig.prometheusWired
  | .shardsList => flag data ClientConfig.prometheusWired
  | .shardDetail _ => flag data ClientConfig.prometheusWired
  | .clustersList => flag data ClientConfig.kubeconfigWired
  | .clusterDetail _ => flag data ClientConfig.kubeconfigWired
  | .availableCapacity => flag data ClientConfig.kubeconfigWired
  | .topology => flag data ClientConfig.coordinatorWired
  | .shardReports => flag data ClientConfig.coordinatorWired
  | .needs _ => flag data ClientConfig.coordinatorWired
  | .finops => flag data ClientConfig.prometheusWired

/-- The calls of a page whose queries are enabled. -/
def Page.queries : Page → List Call
  | .fleetOverview => [.fleetOverview, .fleetActions "1h" "30s"]
  | .shardsList => [.shards]
  | .shardDetail pod => if pod ≠ "" then [.shard pod, .shardTrends pod "1h" "30s"] else []
  | .clustersList => [.clusters]
  | .clusterDetail id => if id ≠ "" then [.cluster id] else []
  | .availableCapacity => [.availableCapacity]
  | .topology => [.topology, .shardReports]
  | .shardReports => [.shardReports]
  | .needs shard => .topology :: (if shard ≠ "" then [.needs shard 0] else [])
  | .finops => [.finopsSnapshot]

/-- The calls that a page makes. -/
def Page.calls (data : Option ClientConfig) (page : Page) : List Call :=
  if page.wired data then page.queries else []

/-- A page looks at the flag of the backend that answers it. -/
theorem Page.source_of_mem {page : Page} {call : Call} (h : call ∈ page.queries)
    (data : ClientConfig) :
    ∃ src, call.handler.source = some src ∧ page.wired (some data) = data.wired src := by
  cases page with
  | shardDetail pod =>
    have hmem : call ∈ if pod ≠ "" then [Call.shard pod, .shardTrends pod "1h" "30s"] else [] := h
    split_ifs at hmem
    · obtain rfl | rfl := List.mem_pair.mp hmem
      · exact ⟨.prometheus, rfl, rfl⟩
      · exact ⟨.prometheus, rfl, rfl⟩
    · exact absurd hmem List.not_mem_nil
  | clusterDetail id =>
    have hmem : call ∈ if id ≠ "" then [Call.cluster id] else [] := h
    split_ifs at hmem
    · obtain rfl := List.mem_singleton.mp hmem
      exact ⟨.kubeconfig, rfl, rfl⟩
    · exact absurd hmem List.not_mem_nil
  | needs shard =>
    obtain rfl | h := List.mem_cons.mp h
    · exact ⟨.coordinator, rfl, rfl⟩
    · split_ifs at h
      · obtain rfl := List.mem_singleton.mp h
        exact ⟨.coordinator, rfl, rfl⟩
      · exact absurd h List.not_mem_nil
  | fleetOverview =>
    obtain rfl | rfl := List.mem_pair.mp h
    · exact ⟨.prometheus, rfl, rfl⟩
    · exact ⟨.prometheus, rfl, rfl⟩
  | topology =>
    obtain rfl | rfl := List.mem_pair.mp h
    · exact ⟨.coordinator, rfl, rfl⟩
    · exact ⟨.coordinator, rfl, rfl⟩
  | shardsList =>
    obtain rfl := List.mem_singleton.mp h
    exact ⟨.prometheus, rfl, rfl⟩
  | clustersList =>
    obtain rfl := List.mem_singleton.mp h
    exact ⟨.kubeconfig, rfl, rfl⟩
  | availableCapacity =>
    obtain rfl := List.mem_singleton.mp h
    exact ⟨.kubeconfig, rfl, rfl⟩
  | shardReports =>
    obtain rfl := List.mem_singleton.mp h
    exact ⟨.coordinator, rfl, rfl⟩
  | finops =>
    obtain rfl := List.mem_singleton.mp h
    exact ⟨.prometheus, rfl, rfl⟩

/-- What the page is told about the backends is what its calls meet. -/
structure Truthful (d : Dashboard) (data : ClientConfig) : Prop where
  told : ∀ r clock, d.handle r clock .configHandler = .ok (.config data)
  refused : ∀ h src, h.source = some src → ∀ r clock,
    d.handle r clock h = .error src.notConfigured ↔ data.wired src = false
  refusing : ∀ page : Page, page.wired (some data) = false → ∀ call ∈ page.queries, ∀ clock,
    ∃ src : Source, d.handle call.request clock call.handler = .error src.notConfigured
  reported : ∀ page : Page, ∀ call ∈ page.calls (some data), ∀ clock e,
    d.handle call.request clock call.handler = .error e → Reported e

/-- For every configuration that the server starts with, the page is told which backends
there are: a handler refuses as not configured exactly without its flag, a page whose flag
is off would only be refused, and a page whose flag is on is only told failures of the request and
of the backend. -/
theorem truthful_of_new {ρ : Type} {b : Backends ρ} {rt : Runtime} {shardNeeds : ShardClient.Client}
    {cfg : Config} {d : Dashboard} (h : New b rt shardNeeds cfg = .ok d) :
    Truthful d cfg.clientConfig := by
  have hhas := has_of_new h
  have hrefused : ∀ h src, h.source = some src → ∀ r clock,
      d.handle r clock h = .error src.notConfigured ↔ cfg.clientConfig.wired src = false := by
    intro h src hsrc r clock
    constructor
    · intro herr
      by_contra hwired
      have hall : ∀ src', h.source = some src' → d.has src' = true := by
        intro src' hsrc'
        rw [hsrc, Option.some.injEq] at hsrc'
        rw [← hsrc', (hhas src).2]
        exact eq_true_of_ne_false hwired
      exact (Dashboard.failsWith_handle hall r clock _ herr).ne_notConfigured src rfl
    · intro hwired
      exact Dashboard.handle_of_missing hsrc ((hhas src).2.trans hwired) r clock
  refine ⟨?_, hrefused, ?_, ?_⟩
  · intro r clock
    rw [Dashboard.handle_configHandler, (hhas .prometheus).1]
  · intro page hoff call hcall clock
    obtain ⟨src, hsrc, hflag⟩ := Page.source_of_mem hcall cfg.clientConfig
    exact ⟨src, (hrefused _ src hsrc _ _).mpr (hflag.symm.trans hoff)⟩
  · intro page call hcall clock e herr
    unfold Page.calls at hcall
    split_ifs at hcall with hon
    · obtain ⟨src, hsrc, hflag⟩ := Page.source_of_mem hcall cfg.clientConfig
      refine Dashboard.failsWith_handle ?_ _ _ e herr
      intro src' hsrc'
      rw [hsrc, Option.some.injEq] at hsrc'
      rw [← hsrc', (hhas src).2, ← hflag]
      exact hon
    · exact absurd hcall List.not_mem_nil

/-- Libraries that accept every address, and a kubeconfig with two contexts. -/
def plainBackends : Backends String where
  newPromAPI _ := .ok emptyApi
  dialOptions := .ok ()
  newCoordinator _ := .error "no such host"
  loadFromFile _ := .ok KubeCache.sampleConfig
  newForConfig _ := .error "no route to host"
  getters := KubeClient.plainGetters
  isPrint _ := true

theorem truthful_of_new_partly :
    ∃ d, New plainBackends Runtime.plain ⟨.ok (), fun _ => .error "no route to host"⟩
        ⟨":8080", "http://prometheus:9090", "", "kubeconfig", ""⟩ = .ok d ∧
      Truthful d ⟨"", true, false, true⟩ := by
  refine ⟨_, rfl, ?_⟩
  exact @truthful_of_new _ plainBackends Runtime.plain
    ⟨.ok (), fun _ => .error "no route to host"⟩
    ⟨":8080", "http://prometheus:9090", "", "kubeconfig", ""⟩ _ rfl

end BigfleetDashboard.Web
