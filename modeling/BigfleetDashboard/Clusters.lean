import BigfleetDashboard.AvailableCapacity
import BigfleetDashboard.BoundedFanOut

/-!
# The cluster pages

The list of clusters and the available capacity read every managed cluster with
one goroutine each, at most five at a time, and every goroutine writes its own
slot of the answer. The detail page reads one cluster.
-/
namespace BigfleetDashboard.Clusters
open Go CoordClient Handlers FanOut

/-- The part of the kube client that the cluster pages use. -/
structure CountReader where
  configured : Bool
  clusters : List String
  countCapacityRequestsByPhase : String → Except String (GoMap Int)
  countUpcomingNodesByPhase : String → Except String (GoMap Int)

structure ClusterSummary where
  id : String
  capacityRequests : Int
  capacityRequestsPending : Int
  upcomingNodes : Int
  error : Option String

structure ClustersList where
  clusters : List ClusterSummary
  queriedAt : Int

structure ClusterDetail where
  id : String
  capacityRequestsByPhase : GoMap Int
  capacityRequestsTotal : Int
  upcomingNodesByPhase : GoMap Int
  upcomingNodesTotal : Int
  queriedAt : Int

def clustersListConcurrency : ℕ := 5

/-- The entries of a map; a nil map has none. -/
def entriesOf (rt : Runtime) (m : GoMap Int) : List (String × Int) :=
  rt.entries 0 (m.getD OrderedMap.empty)

def sumValues (rt : Runtime) (m : GoMap Int) : Int :=
  (entriesOf rt m).foldl (fun total e => wrapInt64 (total + e.2)) 0

/-- The count of a phase; a phase that the map lacks reads as zero. -/
def countOf (m : GoMap Int) (phase : String) : Int :=
  (m.getD OrderedMap.empty).getD phase 0

/-- The sum of a map in 64-bit arithmetic. -/
def total (m : GoMap Int) : Int := wrapInt64 (m.getD OrderedMap.empty).values.sum

/-- The order of the entries does not matter. -/
theorem sumValues_eq_total (rt : Runtime) (m : GoMap Int) : sumValues rt m = total m := by
  have hperm := (rt.mapOrder_perm 0 (m.getD OrderedMap.empty).entries).map Prod.snd
  rw [sumValues, foldl_wrapInt64, total]
  exact congrArg wrapInt64 hperm.sum_eq

/-! ## The list of clusters -/

inductive CountRead
  | capacityRequests
  | upcomingNodes

/-- What the kube client answers to a read of a cluster. -/
def CountReader.answer (kube : CountReader) (name : String) : CountRead → Except String (GoMap Int)
  | .capacityRequests => kube.countCapacityRequestsByPhase name
  | .upcomingNodes => kube.countUpcomingNodesByPhase name

/-- The zero value of a slot. -/
def ClusterSummary.zero : ClusterSummary := ⟨"", 0, 0, 0, none⟩

/-- The second half of a goroutine: an error of the first read is kept. -/
def upcomingNodesBody (rt : Runtime) :
    Body CountRead (Except String (GoMap Int)) ClusterSummary :=
  .read .upcomingNodes (fun answer =>
    match answer with
    | .ok uns => .write (fun c => { c with upcomingNodes := sumValues rt uns }) .ret
    | .error err =>
      .write (fun c => if c.error = none then { c with error := some err } else c) .ret)

/-- The goroutine of one cluster, between acquire and release. -/
def clusterBody (rt : Runtime) (name : String) :
    Body CountRead (Except String (GoMap Int)) ClusterSummary :=
  .write (fun _ => { ClusterSummary.zero with id := name })
    (.read .capacityRequests (fun answer =>
      match answer with
      | .ok crs =>
        .write (fun c => { c with capacityRequests := sumValues rt crs })
          (.write (fun c => { c with capacityRequestsPending := countOf crs "Pending" })
            (upcomingNodesBody rt))
      | .error err => .write (fun c => { c with error := some err }) (upcomingNodesBody rt)))

/-- Every cluster writes its own slot, so the slots do not depend on the schedule. -/
def clustersListHandler (rt : Runtime) (kube : CountReader) (now : Int) :
    Except Failure ClustersList :=
  if kube.configured then
    .ok {
      clusters := kube.clusters.map
        (fun name => (clusterBody rt name).run (kube.answer name) ClusterSummary.zero)
      queriedAt := now }
  else
    .error (.response statusServiceUnavailable "kubeconfig not configured: pass --kubeconfig")

/-! ## The detail of a cluster -/

def clusterIDKnown (kube : CountReader) (id : String) : Bool := kube.clusters.any (fun c => c = id)

def requireKube (kube : CountReader) : Except Failure Unit :=
  if kube.configured then .ok ()
  else .error (.response statusServiceUnavailable "kubeconfig not configured: pass --kubeconfig")

def requireCluster (kube : CountReader) (id : String) : Except Failure Unit :=
  if clusterIDKnown kube id then .ok ()
  else .error (.response statusNotFound "unknown cluster")

def clusterDetailHandler (rt : Runtime) (kube : CountReader) (r : Request) (now : Int) :
    Except Failure ClusterDetail := do
  requireKube kube
  let cluster := r.pathValue "id"
  requireCluster kube cluster
  let crByPhase ← orBadGateway "list capacityrequests: " (kube.countCapacityRequestsByPhase cluster)
  let unByPhase ← orBadGateway "list upcomingnodes: " (kube.countUpcomingNodesByPhase cluster)
  return {
    id := cluster
    capacityRequestsByPhase := crByPhase
    capacityRequestsTotal := sumValues rt crByPhase
    upcomingNodesByPhase := unByPhase
    upcomingNodesTotal := sumValues rt unByPhase
    queriedAt := now }

/-! ## The answer of one cluster -/

/-- The error of a read, if it failed. -/
def errorOf {α : Type} : Except String α → Option String
  | .ok _ => none
  | .error err => some err

/-- What a read says when it succeeded, and zero otherwise. -/
def valueOf {α : Type} (f : α → Int) : Except String α → Int
  | .ok a => f a
  | .error _ => 0

/-- A cluster read alone: every count is that of its read, and the first error is shown. -/
def summaryOf (name : String) (answer : CountRead → Except String (GoMap Int)) : ClusterSummary :=
  { id := name
    capacityRequests := valueOf total (answer .capacityRequests)
    capacityRequestsPending := valueOf (fun crs => countOf crs "Pending") (answer .capacityRequests)
    upcomingNodes := valueOf total (answer .upcomingNodes)
    error := (errorOf (answer .capacityRequests)).or (errorOf (answer .upcomingNodes)) }

theorem clusterBody_run (rt : Runtime) (name : String)
    (answer : CountRead → Except String (GoMap Int)) :
    (clusterBody rt name).run answer ClusterSummary.zero = summaryOf name answer := by
  cases hcr : answer .capacityRequests with
  | ok crs =>
    cases hun : answer .upcomingNodes with
    | ok uns =>
      simp [clusterBody, upcomingNodesBody, Body.run, summaryOf, hcr, hun, valueOf, errorOf,
        ClusterSummary.zero, sumValues_eq_total]
    | error err =>
      simp [clusterBody, upcomingNodesBody, Body.run, summaryOf, hcr, hun, valueOf, errorOf,
        ClusterSummary.zero, sumValues_eq_total]
  | error err =>
    cases hun : answer .upcomingNodes with
    | ok uns =>
      simp [clusterBody, upcomingNodesBody, Body.run, summaryOf, hcr, hun, valueOf, errorOf,
        ClusterSummary.zero, sumValues_eq_total]
    | error err' =>
      simp [clusterBody, upcomingNodesBody, Body.run, summaryOf, hcr, hun, valueOf, errorOf,
        ClusterSummary.zero]

/-! ## The available capacity -/

abbrev CapacityBody := Body Unit (Except String (List AvailableCapacity)) AvailableCapacityCluster

/-- The zero value of a slot. -/
def capacityZero : AvailableCapacityCluster := ⟨"", none, none⟩

/-- The loop over the items of a cluster. -/
def appendItems : List AvailableCapacity → CapacityBody
  | [] => .ret
  | it :: items => .write (fun c => { c with items := c.items.map (fun xs => xs ++ [it]) })
      (appendItems items)

/-- The goroutine of one cluster; a failed read returns early. -/
def capacityBody (name : String) : CapacityBody :=
  .write (fun _ => { capacityZero with id := name })
    (.read () (fun answer =>
      match answer with
      | .error err => .write (fun c => { c with error := some err }) .ret
      | .ok items => .write (fun c => { c with items := some [] }) (appendItems items)))

/-- A cluster read alone: its items, or its error. -/
def capacityOf (name : String) (answer : Except String (List AvailableCapacity)) :
    AvailableCapacityCluster :=
  { id := name, items := answer.toOption, error := errorOf answer }

theorem appendItems_run (items xs : List AvailableCapacity) (c : AvailableCapacityCluster)
    (answer : Unit → Except String (List AvailableCapacity)) :
    (appendItems items).run answer { c with items := some xs } =
      { c with items := some (xs ++ items) } := by
  induction items generalizing xs with
  | nil => simp [appendItems, Body.run]
  | cons it items ih =>
    show (appendItems items).run answer { c with items := some (xs ++ [it]) } = _
    rw [ih, List.append_assoc, List.singleton_append]

theorem capacityBody_run (name : String)
    (answer : Unit → Except String (List AvailableCapacity)) :
    (capacityBody name).run answer capacityZero = capacityOf name (answer ()) := by
  cases h : answer () with
  | error err => simp [capacityBody, Body.run, h, capacityOf, capacityZero, errorOf, Except.toOption]
  | ok items =>
    have hrun := appendItems_run items [] { capacityZero with id := name } answer
    simpa [capacityBody, Body.run, h, capacityOf, capacityZero, errorOf, Except.toOption] using hrun

/-! ## The schedule does not matter -/

/-- A response in any interleaving is the list that the handler computes cluster by cluster. -/
theorem clustersListHandler_of_reachable {kube : CountReader} {rt : Fin kube.clusters.length → Runtime}
    {s : State kube.clusters.length CountRead (Except String (GoMap Int)) ClusterSummary}
    {out : Fin kube.clusters.length → ClusterSummary} (hconf : kube.configured)
    (h : Reachable ⟨clustersListConcurrency, fun i => clusterBody (rt i) (kube.clusters.get i),
      ClusterSummary.zero, fun i => kube.answer (kube.clusters.get i)⟩ s)
    (hout : s.response = some out) (rt' : Runtime) (now : Int) :
    clustersListHandler rt' kube now = .ok ⟨List.ofFn out, now⟩ := by
  rw [clustersListHandler, if_pos hconf]
  congr 2
  apply List.ext_getElem
  · simp
  · intro i hi hi'
    rw [List.getElem_map, List.getElem_ofFn, response_eq h hout, clusterBody_run, clusterBody_run]
    rfl

theorem availableCapacityHandler_of_reachable {srv : Server}
    {s : State srv.kube.clusters.length Unit (Except String (List AvailableCapacity))
      AvailableCapacityCluster}
    {out : Fin srv.kube.clusters.length → AvailableCapacityCluster} (hconf : srv.kube.configured)
    (h : Reachable ⟨clustersListConcurrency, fun i => capacityBody (srv.kube.clusters.get i),
      capacityZero, fun i _ => srv.kube.listAvailableCapacity (srv.kube.clusters.get i)⟩ s)
    (hout : s.response = some out) (now : Int) :
    availableCapacityHandler srv now = .ok ⟨List.ofFn out, now⟩ := by
  have hread : ∀ name, readCluster srv.kube name =
      capacityOf name (srv.kube.listAvailableCapacity name) := by
    intro name
    unfold readCluster capacityOf
    cases srv.kube.listAvailableCapacity name <;> rfl
  rw [availableCapacityHandler, if_pos hconf]
  congr 2
  apply List.ext_getElem
  · simp
  · intro i hi hi'
    rw [List.getElem_map, List.getElem_ofFn, response_eq h hout, capacityBody_run, hread]
    rfl

/-- In every interleaving at most five goroutines of a handler read at once, the
handler answers, an entry is that of its cluster alone, and the answer is the one that is
computed cluster by cluster. -/
theorem clusters_scheduleIndependent (names : List String) :
    ScheduleIndependent clustersListConcurrency ClusterSummary.zero
      (fun (rt : Fin names.length → Runtime) i => clusterBody (rt i) (names.get i))
      (fun i => summaryOf (names.get i)) ∧
    ScheduleIndependent clustersListConcurrency capacityZero
      (fun (_ : Unit) i => capacityBody (names.get i))
      (fun i answer => capacityOf (names.get i) (answer ())) ∧
    (∀ (kube : CountReader) (rt : Fin kube.clusters.length → Runtime), kube.configured = true →
      ∀ s out, Reachable ⟨clustersListConcurrency,
        fun i => clusterBody (rt i) (kube.clusters.get i), ClusterSummary.zero,
        fun i => kube.answer (kube.clusters.get i)⟩ s → s.response = some out →
        ∀ rt' now, clustersListHandler rt' kube now = .ok ⟨List.ofFn out, now⟩) ∧
    (∀ srv : Server, srv.kube.configured = true →
      ∀ s out, Reachable ⟨clustersListConcurrency,
        fun i => capacityBody (srv.kube.clusters.get i), capacityZero,
        fun i _ => srv.kube.listAvailableCapacity (srv.kube.clusters.get i)⟩ s →
        s.response = some out →
        ∀ now, availableCapacityHandler srv now = .ok ⟨List.ofFn out, now⟩) := by
  have hcap : 0 < clustersListConcurrency := by decide
  refine ⟨?_, ?_, ?_, ?_⟩
  · exact scheduleIndependent hcap (fun rt i answer => clusterBody_run (rt i) (names.get i) answer)
  · exact scheduleIndependent hcap (fun _ i answer => capacityBody_run (names.get i) answer)
  · intro kube rt hconf s out hreach hout rt' now
    exact clustersListHandler_of_reachable hconf hreach hout rt' now
  · intro srv hconf s out hreach hout now
    exact availableCapacityHandler_of_reachable hconf hreach hout now

end BigfleetDashboard.Clusters
