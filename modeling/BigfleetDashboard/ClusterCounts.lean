import BigfleetDashboard.Clusters

/-!
# Counting the objects of a cluster

Package `kubeclient` lists the objects of a cluster and counts them by the phase in
their status; an object without a readable phase counts under a default. The list of
clusters and the detail page add the counts up again, each on its own.
-/
namespace BigfleetDashboard.KubeClient
open Go CoordClient

/-- What an object of the API server is made of. -/
inductive Content
  | null
  | bool (b : Bool)
  | int (n : Int)
  | float (x : ExtRat)
  | str (s : String)
  | list (xs : List Content)
  | map (fields : List (String × Content))

def Content.field? (v : Content) (name : String) : Option Content :=
  match v with
  | .map fields => (fields.find? (fun e => e.1 = name)).map Prod.snd
  | _ => none

/-- The content under a path of field names. -/
def Content.lookup : List String → Content → Option Content
  | [], v => some v
  | name :: path, v => (v.field? name).bind (Content.lookup path)

/-- `unstructured.NestedString` returns the text under a path, and the empty text when
there is nothing or something else; its other two results are not used. -/
structure ReadsNestedStrings (nestedString : Content → List String → String) : Prop where
  found : ∀ obj path s, obj.lookup path = some (.str s) → nestedString obj path = s
  missing : ∀ obj path, (∀ s, obj.lookup path ≠ some (.str s)) → nestedString obj path = ""

structure GroupVersionResource where
  group : String
  version : String
  resource : String

def capacityRequestsGVR : GroupVersionResource :=
  ⟨"bigfleet.lucy.sh", "v1alpha1", "capacityrequests"⟩
def upcomingNodesGVR : GroupVersionResource :=
  ⟨"bigfleet.lucy.sh", "v1alpha1", "upcomingnodes"⟩

/-- A slice of objects; its length is an `int`. -/
structure ObjectList where
  items : List Content
  length_le : (items.length : Int) ≤ maxInt64

/-- A client of one API server lists the objects of a resource at a resource version. -/
abbrev DynamicClient := GroupVersionResource → String → Except String ObjectList

/-- `clientFor` yields the client of a cluster, or the error why there is none. -/
structure Client where
  kubeconfig : String
  contexts : List String
  clientFor : String → Except String DynamicClient
  nestedString : Content → List String → String

def Client.configured (c : Client) : Bool := c.kubeconfig ≠ ""

def Client.clusters (c : Client) : List String := sortStrings c.contexts

/-- The loop body: count one object under its phase. -/
def countPhase (nestedString : Content → List String → String) (defaultPhase : String)
    (out : OrderedMap String Int) (obj : Content) : OrderedMap String Int :=
  let read := nestedString obj ["status", "phase"]
  let phase := if read = "" then defaultPhase else read
  out.set phase (wrapInt64 (out.getD phase 0 + 1))

/-- Version "0" reads from the watch cache of the API server. -/
def Client.countByStatusPhase (c : Client) (cluster : String) (gvr : GroupVersionResource)
    (defaultPhase : String) : Except String (GoMap Int) :=
  match c.clientFor cluster with
  | .error err => .error err
  | .ok cl =>
    match cl gvr "0" with
    | .error err => .error err
    | .ok list =>
      .ok (some (list.items.foldl (countPhase c.nestedString defaultPhase) OrderedMap.empty))

def Client.countCapacityRequestsByPhase (c : Client) (cluster : String) :
    Except String (GoMap Int) :=
  c.countByStatusPhase cluster capacityRequestsGVR "Pending"

def Client.countUpcomingNodesByPhase (c : Client) (cluster : String) : Except String (GoMap Int) :=
  c.countByStatusPhase cluster upcomingNodesGVR "Provisioning"

/-! ## The counts -/

/-- The phase an object counts under: the one in its status, unless that is empty,
missing or no text. -/
def statusPhase (defaultPhase : String) (obj : Content) : String :=
  match obj.lookup ["status", "phase"] with
  | some (.str s) => if s = "" then defaultPhase else s
  | _ => defaultPhase

/-- The map counts every object once, under its phase. -/
structure CountsOnce (defaultPhase : String) (objects : List Content) (m : OrderedMap String Int) :
    Prop where
  sum : m.values.sum = objects.length
  phase : ∀ phase, m.getD phase 0 = objects.countP (fun obj => statusPhase defaultPhase obj = phase)

theorem statusPhase_eq {nestedString : Content → List String → String}
    (h : ReadsNestedStrings nestedString) (defaultPhase : String) (obj : Content) :
    (if nestedString obj ["status", "phase"] = "" then defaultPhase
      else nestedString obj ["status", "phase"]) = statusPhase defaultPhase obj := by
  by_cases hfound : ∃ s, obj.lookup ["status", "phase"] = some (.str s)
  · obtain ⟨s, hs⟩ := hfound
    rw [h.found obj _ s hs, statusPhase, hs]
  · rw [not_exists] at hfound
    rw [h.missing obj _ hfound, if_pos rfl, statusPhase]
    split
    next s hs => exact absurd hs (hfound s)
    next => rfl

/-- Counting one more object keeps the count of the others; the sum stays an `int`. -/
theorem CountsOnce.countPhase {nestedString : Content → List String → String}
    (hns : ReadsNestedStrings nestedString) {defaultPhase : String} {objects : List Content}
    {m : OrderedMap String Int} (h : CountsOnce defaultPhase objects m) (obj : Content)
    (hlength : (objects.length : Int) + 1 ≤ maxInt64) :
    CountsOnce defaultPhase (objects ++ [obj]) (countPhase nestedString defaultPhase m obj) := by
  set phase := statusPhase defaultPhase obj with hphase
  have hcount := h.phase phase
  have hle : objects.countP (fun o => statusPhase defaultPhase o = phase) ≤ objects.length :=
    List.countP_le_length
  have hstep : KubeClient.countPhase nestedString defaultPhase m obj =
      m.set phase (m.getD phase 0 + 1) := by
    have hwrap : wrapInt64 (m.getD phase 0 + 1) = m.getD phase 0 + 1 := by
      apply wrapInt64_of_mem
      · simp only [minInt64]
        omega
      · omega
    simp only [KubeClient.countPhase]
    rw [statusPhase_eq hns, ← hphase, hwrap]
  rw [hstep]
  constructor
  case sum =>
    have hsum := m.sum_values_set phase (m.getD phase 0 + 1)
    have hold := h.sum
    rw [List.length_append, List.length_singleton]
    push_cast
    omega
  case phase =>
    intro other
    rw [List.countP_append, List.countP_singleton, OrderedMap.getD, OrderedMap.get?_set]
    by_cases hother : other = phase
    · rw [hother, if_pos rfl, Option.getD_some, hcount, if_pos (decide_eq_true hphase.symm)]
      push_cast
      rfl
    · have hne : ¬ statusPhase defaultPhase obj = other := fun heq => hother heq.symm
      have hkeep := h.phase other
      rw [OrderedMap.getD] at hkeep
      simp [hother, hne, hkeep]

end BigfleetDashboard.KubeClient

namespace BigfleetDashboard.Clusters
open Go CoordClient Handlers KubeClient

/-! ## The two pages -/

/-- What the cluster pages read is what the kube client counts. -/
def readerOf (c : KubeClient.Client) : CountReader :=
  { configured := c.configured
    clusters := c.clusters
    countCapacityRequestsByPhase := c.countCapacityRequestsByPhase
    countUpcomingNodesByPhase := c.countUpcomingNodesByPhase }

/-- A row of the list says the same as the detail. -/
structure Agrees (detail : ClusterDetail) (row : ClusterSummary) : Prop where
  capacityRequests : row.capacityRequests = detail.capacityRequestsTotal
  upcomingNodes : row.upcomingNodes = detail.upcomingNodesTotal
  capacityRequestsPending :
    row.capacityRequestsPending = countOf detail.capacityRequestsByPhase "Pending"

/-- Reads nested texts as documented. -/
def plainNestedString (obj : Content) (path : List String) : String :=
  match obj.lookup path with
  | some (.str s) => s
  | _ => ""

/-- An object with a phase of some kind. -/
def phased (phase : Content) : Content := .map [("status", .map [("phase", phase)])]

/-- A phase, an empty one, an ill-typed one and none. -/
def sampleObjects : ObjectList :=
  ⟨[phased (.str "Acknowledged"), phased (.str ""), phased (.int 3), .map []], by decide⟩

/-- One cluster that lists the same objects for every resource. -/
def sampleClient : KubeClient.Client :=
  { kubeconfig := "kubeconfig.yaml"
    contexts := ["eu"]
    clientFor := fun _ => .ok (fun _ _ => .ok sampleObjects)
    nestedString := plainNestedString }

end BigfleetDashboard.Clusters
