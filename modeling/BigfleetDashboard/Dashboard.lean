import BigfleetDashboard.ClientCache
import BigfleetDashboard.Routes

/-!
# The dashboard

`New` makes the clients of the three backends from one configuration and mounts the
handlers. A request is answered by the handler its route leads to, or by the page, whose
files are part of the binary if it was built with them.
-/
namespace BigfleetDashboard.Web
open Go Handlers Clusters PathPatterns Percent

/-! ## The configuration -/

structure Config where
  listen : String
  prometheusURL : String
  coordinatorAddr : String
  kubeconfig : String
  grafanaURL : String

/-- What the libraries behind the clients make of their addresses. -/
structure Backends (ρ : Type) where
  newPromAPI : String → Except String PromClient.Api
  dialOptions : Except String Unit
  newCoordinator : String → Except String CoordClient.Api
  loadFromFile : String → Except String (KubeCache.RawConfig ρ)
  newForConfig : ρ → Except String KubeClient.DynamicClient
  getters : KubeClient.Getters
  isPrint : Char → Bool

/-- A server and the kube client behind its cluster pages, which is one client. -/
structure Dashboard where
  cfg : Config
  server : Server
  counts : CountReader
  one_client : counts.configured = server.kube.configured ∧ counts.clusters = server.kube.clusters

/-- `promclient.New`. -/
def newPromClient {ρ : Type} (b : Backends ρ) (baseURL : String) :
    Except String PromClient.Client :=
  if baseURL = "" then .ok ⟨none⟩
  else
    match b.newPromAPI baseURL with
    | .error err => .error ("prometheus client: " ++ err)
    | .ok api => .ok ⟨some api⟩

/-- `coordclient.New`. -/
def newCoordClient {ρ : Type} (b : Backends ρ) (addr : String) :
    Except String CoordClient.Client :=
  if h : addr = "" then .ok ⟨addr, none, by simp [h]⟩
  else
    match b.dialOptions with
    | .error err => .error ("coordinator dial options: " ++ err)
    | .ok () =>
      match b.newCoordinator addr with
      | .error err => .error ("dial coordinator: " ++ err)
      | .ok api => .ok ⟨addr, some api, by simp [h]⟩

/-- `kubeclient.New`, with its client as the handlers read it. -/
def newKubeClient {ρ : Type} (b : Backends ρ) (rt : Runtime) (kubeconfigPath : String) :
    Except String KubeClient.Client :=
  match KubeCache.Client.new (ν := KubeClient.DynamicClient) rt b.loadFromFile kubeconfigPath with
  | .error err => .error (err.text b.isPrint)
  | .ok c => .ok (c.reader b.isPrint b.newForConfig b.getters.nestedString)

/-- `server.New`. -/
def New {ρ : Type} (b : Backends ρ) (rt : Runtime) (shardNeeds : ShardClient.Client)
    (cfg : Config) : Except String Dashboard :=
  match newPromClient b cfg.prometheusURL with
  | .error err => .error err
  | .ok prom =>
    match newCoordClient b cfg.coordinatorAddr with
    | .error err => .error err
    | .ok coord =>
      match newKubeClient b rt cfg.kubeconfig with
      | .error err => .error err
      | .ok kube =>
        .ok {
          cfg := cfg
          server := {
            prom := prom
            coord := coord
            kube := kube.kubeReader b.getters rt
            shardNeeds := shardNeeds
            rt := rt }
          counts := readerOf kube
          one_client := ⟨rfl, rfl⟩ }

/-! ## The handlers -/

structure ClientConfig where
  grafanaUrl : String
  prometheusWired : Bool
  coordinatorWired : Bool
  kubeconfigWired : Bool
  deriving DecidableEq

/-- The body of an answer. -/
inductive Body
  | health (status : String)
  | config (c : ClientConfig)
  | fleetOverview (b : FleetOverview)
  | fleetActions (b : FleetActionsSeries)
  | shards (b : ShardsList)
  | shard (b : ShardDetail)
  | shardTrends (b : ShardTrends)
  | clusters (b : ClustersList)
  | cluster (b : ClusterDetail)
  | availableCapacity (b : AvailableCapacityResponse)
  | topology (b : Topology)
  | shardReports (b : ShardReportsList)
  | needs (b : NeedsResponse)
  | finops (b : FinOps.FinOpsSnapshot)

def Dashboard.healthHandler : Body := .health "ok"

def Dashboard.configHandler (d : Dashboard) : Body :=
  .config {
    grafanaUrl := d.cfg.grafanaURL
    prometheusWired := d.cfg.prometheusURL ≠ ""
    coordinatorWired := d.cfg.coordinatorAddr ≠ ""
    kubeconfigWired := d.cfg.kubeconfig ≠ "" }

/-- The clock is read when a handler starts and again before it answers. -/
structure Clock where
  now : Int
  later : Int

def Dashboard.handle (d : Dashboard) (r : Request) (clock : Clock) :
    Handler → Except Failure Body
  | .healthHandler => .ok Dashboard.healthHandler
  | .configHandler => .ok d.configHandler
  | .fleetOverviewHandler => (fleetOverviewHandler d.server clock.now).map .fleetOverview
  | .fleetActionsHandler => (fleetActionsHandler d.server r clock.now).map .fleetActions
  | .shardsListHandler => (shardsListHandler d.server clock.now).map .shards
  | .shardDetailHandler => (shardDetailHandler d.server r clock.now).map .shard
  | .shardTrendsHandler => (shardTrendsHandler d.server r clock.now).map .shardTrends
  | .clustersListHandler => (clustersListHandler d.server.rt d.counts clock.later).map .clusters
  | .clusterDetailHandler =>
    (clusterDetailHandler d.server.rt d.counts r clock.later).map .cluster
  | .availableCapacityHandler =>
    (availableCapacityHandler d.server clock.later).map .availableCapacity
  | .topologyHandler => (topologyHandler d.server clock.now clock.later).map .topology
  | .shardReportsHandler => (shardReportsHandler d.server r clock.later).map .shardReports
  | .needsHandler => (needsHandler d.server r clock.later).map .needs
  | .finopsHandler => (FinOps.finopsHandler d.server clock.now).map .finops

/-! ## The page -/

/-- A binary without the files of the page, or with them; `stat` tells which names the
files have. -/
inductive Bundle
  | notBuilt
  | embedded (stat : String → Bool)

inductive PageAnswer
  | notFound
  | placeholder
  | file (path : Bytes)
  deriving DecidableEq

/-- The path without its first slash. -/
def trimSlash (path : Bytes) : Bytes := if path.head? = some 47 then path.tail else path

/-- `spaHandler`: the answer, and the path that the request has afterwards. A path that is
no file of the page becomes the root, in the request that is logged too. -/
def spaHandler : Bundle → Bytes → PageAnswer × Bytes
  | .notBuilt, path => if path = bytesOf "/" then (.placeholder, path) else (.notFound, path)
  | .embedded stat, path =>
    if bytesOf "/api/" <+: path then (.notFound, path)
    else if trimSlash path = [] then (.file path, path)
    else
      match (textOf (trimSlash path)).map stat with
      | some true => (.file path, path)
      | _ => (.file (bytesOf "/"), bytesOf "/")

/-! ## Answers -/

inductive Response
  | json (body : Body)
  | error (f : Failure)
  | redirect (path rawQuery : List Char)
  | page (a : PageAnswer)
  | badRequest
  | notFound

/-- The values of the wildcards under their names. -/
def pathValue (names values : List String) (name : String) : String :=
  (((names.zip values).find? (fun e => e.1 = name)).map Prod.snd).getD ""

def requestOfURL (url : URL) (names values : List String) : Request where
  query := queryGet url.rawQuery
  pathValue := pathValue names values

/-- The answer to a request, and the path that is logged with it. -/
def Dashboard.answer (d : Dashboard) (bundle : Bundle) (routes : List (Route Target))
    (method : String) (url : URL) (clock : Clock) : Response × Bytes :=
  match findHandler routes method url.escapedPath with
  | .redirect path => (.redirect path url.rawQuery, url.path)
  | .notFound => (.notFound, url.path)
  | .target .spa _ => ((.page (spaHandler bundle url.path).1), (spaHandler bundle url.path).2)
  | .target (.api h names) values =>
    match d.handle (requestOfURL url names values) clock h with
    | .ok body => (.json body, url.path)
    | .error f => (.error f, url.path)

/-- The server refuses a target that it cannot read. -/
def Dashboard.serve (d : Dashboard) (bundle : Bundle) (routes : List (Route Target))
    (method : String) (target : List Char) (clock : Clock) : Response :=
  match parseRequestURI target with
  | none => .badRequest
  | some url => (d.answer bundle routes method url clock).1

end BigfleetDashboard.Web
