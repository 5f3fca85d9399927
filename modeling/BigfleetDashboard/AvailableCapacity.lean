import BigfleetDashboard.ScriptValues
import BigfleetDashboard.Server

/-!
# Available capacity, from the clusters to the page

The handler reads every managed cluster and reports a failed read inside that
cluster's entry. An entry is written in two steps, the identifier first and the
items after a successful read, so the items of a failed cluster stay a nil slice
and are encoded as `null`. The page asks every entry for `items.length`.
-/
namespace BigfleetDashboard.Handlers
open Go CoordClient Script

/-! ## The handler -/

structure AvailableCapacityCluster where
  id : String
  items : Option (List AvailableCapacity)
  error : Option String

structure AvailableCapacityResponse where
  clusters : List AvailableCapacityCluster
  queriedAt : Int

/-- The slot of one cluster. -/
def readCluster (kube : KubeReader) (name : String) : AvailableCapacityCluster :=
  match kube.listAvailableCapacity name with
  | .error err => { id := name, items := none, error := some err }
  | .ok items => { id := name, items := some items, error := none }

/-- Every cluster writes its own slot, so the slots do not depend on the schedule. -/
def availableCapacityHandler (s : Server) (now : Int) : Except Failure AvailableCapacityResponse :=
  if s.kube.configured then
    .ok { clusters := s.kube.clusters.map (readCluster s.kube), queriedAt := now }
  else
    .error (.response statusServiceUnavailable "kubeconfig not configured: pass --kubeconfig")

/-! ## The document -/

def AvailableCapacity.toValue (it : AvailableCapacity) : Value :=
  let resources := it.resources.map OrderedMap.entries |>.getD []
  .obj ([("name", .str it.name)] ++
    omitEmpty "resources" resources.isEmpty (ofMap .str it.resources) ++
    [("availableCount", ofInt it.availableCount), ("availability", .str it.availability),
      ("cost", .str it.cost)] ++
    omitEmpty "requirements" it.requirements.isEmpty (ofSlice .str (some it.requirements)))

def AvailableCapacityCluster.toValue (c : AvailableCapacityCluster) : Value :=
  .obj ([("id", .str c.id), ("items", ofSlice AvailableCapacity.toValue c.items)] ++
    omitEmpty "error" c.error.isNone (.str (c.error.getD "")))

/-- `timeText` is the text of an instant. -/
def AvailableCapacityResponse.toValue (timeText : Int → String) (b : AvailableCapacityResponse) :
    Value :=
  .obj [("clusters", ofSlice AvailableCapacityCluster.toValue (some b.clusters)),
    ("queriedAt", .str (timeText b.queriedAt))]

/-! ## The page -/

/-- A row of a card; resources that are missing are shown as a dash. -/
structure HintRow where
  name : Value
  resources : List (String × Value)
  availableCount : Value
  availability : Value
  cost : Value

/-- A card shows the error of its cluster, or its hints. -/
structure ClusterCard where
  id : Value
  error : Option Value
  rows : List HintRow

structure CapacityPage where
  noClusters : Bool
  noHints : Bool
  cards : List ClusterCard

/-- The entries of a resource map, unless it is missing. -/
def resourceEntries (m : Value) : Except String (List (String × Value)) :=
  if m.truthy then m.entries else .ok []

def hintRow (it : Value) : Except String HintRow := do
  let name ← it.get "name"
  let resources ← resourceEntries (← it.get "resources")
  return {
    name := name
    resources := resources
    availableCount := ← it.get "availableCount"
    availability := ← it.get "availability"
    cost := ← it.get "cost" }

def clusterCard (c : Value) : Except String ClusterCard := do
  let id ← c.get "id"
  let error ← c.get "error"
  if error.truthy then return { id := id, error := some error, rows := [] }
  else
    let items ← c.get "items"
    let _ ← items.get "length"
    return { id := id, error := none, rows := ← mapE hintRow (← items.elements) }

/-- `c.items.length > 0`. -/
def hasItems (c : Value) : Except String Bool := do
  let items ← c.get "items"
  return (← items.get "length").positive

/-- `c.items.length > 0 || c.error`. -/
def shown (c : Value) : Except String Bool := do
  if (← hasItems c) then return true
  else return (← c.get "error").truthy

/-- The page over a loaded document. The first pass stops at a cluster with items,
the second visits them all. -/
def capacityPage (data : Value) : Except String CapacityPage := do
  let clusters ← (← data.get "clusters").elements
  let anyItems ← someE hasItems clusters
  let visible ← filterE shown clusters
  return {
    noClusters := clusters.isEmpty
    noHints := !clusters.isEmpty && !anyItems
    cards := ← mapE clusterCard visible }

/-! ## Isolation of errors -/

/-- A cluster has something to show when its read failed or returned items. -/
def hasItemsOrError (kube : KubeReader) (name : String) : Bool :=
  match kube.listAvailableCapacity name with
  | .error _ => true
  | .ok items => !items.isEmpty

/-- The row that a hint is to have. -/
def AvailableCapacity.row (it : AvailableCapacity) : HintRow where
  name := .str it.name
  resources := propertyOrder
    ((it.resources.elim [] sortedEntries).map (fun e => (e.1, Value.str e.2)))
  availableCount := ofInt it.availableCount
  availability := .str it.availability
  cost := .str it.cost

/-- The card that a cluster is to have: a row for each hint, or the error. -/
def cardOf (kube : KubeReader) (name : String) : ClusterCard :=
  match kube.listAvailableCapacity name with
  | .error err => { id := .str name, error := some (.str err), rows := [] }
  | .ok items => { id := .str name, error := none, rows := items.map AvailableCapacity.row }

/-- The items of every cluster are an array, which is empty where there is an error, and the
page shows the card of every cluster that has items or an error. -/
structure ErrorsIsolated (kube : KubeReader) (data : Value) : Prop where
  arrays : ∃ clusters, data.get "clusters" = .ok (.arr clusters) ∧
    clusters.length = kube.clusters.length ∧
    ∀ c ∈ clusters, ∃ items, c.get "items" = .ok (.arr items) ∧
      ∀ error, c.get "error" = .ok error → error.truthy = true → items = []
  cards : ∃ page, capacityPage data = .ok page ∧
    page.cards = (kube.clusters.filter (hasItemsOrError kube)).map (cardOf kube)

theorem get_items (c : AvailableCapacityCluster) :
    c.toValue.get "items" = .ok (ofSlice AvailableCapacity.toValue c.items) := by
  simp [AvailableCapacityCluster.toValue]

theorem get_id (c : AvailableCapacityCluster) : c.toValue.get "id" = .ok (.str c.id) := by
  simp [AvailableCapacityCluster.toValue]

/-- The page's row of a hint; resources that were left out have no entries. -/
theorem hintRow_toValue (it : AvailableCapacity) : hintRow it.toValue = .ok it.row := by
  have hresources : ∃ v, it.toValue.get "resources" = .ok v ∧
      resourceEntries v = .ok it.row.resources := by
    cases hres : it.resources with
    | none =>
      refine ⟨.undefined, by simp [AvailableCapacity.toValue, hres], ?_⟩
      rw [AvailableCapacity.row, hres]
      rfl
    | some m =>
      cases hentries : m.entries with
      | nil =>
        refine ⟨.undefined, by simp [AvailableCapacity.toValue, hres, hentries], ?_⟩
        simp only [AvailableCapacity.row, hres, Option.elim_some, sortedEntries, hentries]
        rfl
      | cons e es =>
        refine ⟨ofMap .str (some m), by simp [AvailableCapacity.toValue, hres, hentries], ?_⟩
        rw [AvailableCapacity.row, hres]
        rfl
  obtain ⟨v, hv, hentries⟩ := hresources
  have hname : it.toValue.get "name" = .ok (.str it.name) := by simp [AvailableCapacity.toValue]
  have hcount : it.toValue.get "availableCount" = .ok (ofInt it.availableCount) := by
    simp [AvailableCapacity.toValue]
  have havailability : it.toValue.get "availability" = .ok (.str it.availability) := by
    simp [AvailableCapacity.toValue]
  have hcost : it.toValue.get "cost" = .ok (.str it.cost) := by simp [AvailableCapacity.toValue]
  simp only [hintRow, hname, hv, hcount, havailability, hcost, bind, Except.bind, hentries]
  rfl

section Healthy
variable {kube : KubeReader} {name : String} {items : List AvailableCapacity}

theorem readCluster_ok (h : kube.listAvailableCapacity name = .ok items) :
    readCluster kube name = { id := name, items := some items, error := none } := by
  simp only [readCluster, h]

theorem hasItems_ok (h : kube.listAvailableCapacity name = .ok items) :
    hasItems (readCluster kube name).toValue = .ok (hasItemsOrError kube name) := by
  have hlen : (Value.num ((items.map AvailableCapacity.toValue).length : ℕ)).positive =
      !items.isEmpty := by
    cases items with
    | nil => rfl
    | cons it items => simpa [Value.positive] using Nat.cast_add_one_pos (α := ℚ) items.length
  have hvalue : hasItemsOrError kube name = !items.isEmpty := by
    simp only [hasItemsOrError, h]
  rw [hasItems, get_items, readCluster_ok h, hvalue, ← hlen]
  rfl

theorem get_error_ok (h : kube.listAvailableCapacity name = .ok items) :
    (readCluster kube name).toValue.get "error" = .ok .undefined := by
  rw [readCluster_ok h]
  simp [AvailableCapacityCluster.toValue]

theorem shown_ok (h : kube.listAvailableCapacity name = .ok items) :
    shown (readCluster kube name).toValue = .ok (hasItemsOrError kube name) := by
  rw [shown, hasItems_ok h, get_error_ok h]
  cases hasItemsOrError kube name <;> rfl

theorem clusterCard_ok (h : kube.listAvailableCapacity name = .ok items) :
    clusterCard (readCluster kube name).toValue = .ok (cardOf kube name) := by
  have hrows : mapE hintRow (items.map AvailableCapacity.toValue) =
      .ok (items.map AvailableCapacity.row) := mapE_map (fun it _ => hintRow_toValue it)
  rw [clusterCard, get_error_ok h, get_id, get_items, readCluster_ok h, cardOf, h]
  change (do let rows ← mapE hintRow (items.map AvailableCapacity.toValue); pure _) = _
  rw [hrows]
  rfl

end Healthy

/-- Asking a failed cluster for its number of items throws. -/
theorem hasItems_failed {kube : KubeReader} {name err : String}
    (h : kube.listAvailableCapacity name = .error err) :
    ¬ Returns (hasItems (readCluster kube name).toValue) := by
  rw [hasItems, get_items, readCluster, h]
  exact not_returns_error _

theorem get_clusters (timeText : Int → String) (b : AvailableCapacityResponse) :
    (b.toValue timeText).get "clusters" =
      .ok (.arr (b.clusters.map AvailableCapacityCluster.toValue)) := by
  simp [AvailableCapacityResponse.toValue, ofSlice]

/-- The page over a document whose clusters are `values`. -/
theorem capacityPage_eq {data : Value} {values : List Value}
    (h : data.get "clusters" = .ok (.arr values)) :
    capacityPage data =
      (someE hasItems values >>= fun anyItems => filterE shown values >>= fun visible =>
        mapE clusterCard visible >>= fun cards =>
          .ok ⟨values.isEmpty, !values.isEmpty && !anyItems, cards⟩) := by
  rw [capacityPage, h]
  rfl

/-- With every read successful the page has the card of each cluster with items. -/
theorem capacityPage_ok {kube : KubeReader} {data : Value}
    (hdata : data.get "clusters" =
      .ok (.arr (kube.clusters.map (fun name => (readCluster kube name).toValue))))
    (hall : ∀ name ∈ kube.clusters, ∃ items, kube.listAvailableCapacity name = .ok items) :
    ∃ page, capacityPage data = .ok page ∧
      page.cards = (kube.clusters.filter (hasItemsOrError kube)).map (cardOf kube) := by
  have hsome := someE_map (fun name hname => hasItems_ok (hall name hname).choose_spec)
  have hfilter := filterE_map (fun name hname => shown_ok (hall name hname).choose_spec)
  have hcards : mapE clusterCard ((kube.clusters.filter (hasItemsOrError kube)).map
      (fun name => (readCluster kube name).toValue)) =
        .ok ((kube.clusters.filter (hasItemsOrError kube)).map (cardOf kube)) := by
    refine mapE_map fun name hname => ?_
    exact clusterCard_ok (hall name (List.mem_of_mem_filter hname)).choose_spec
  rw [capacityPage_eq hdata]
  exact ⟨_, bind_eq_ok_iff.mpr ⟨_, hsome, bind_eq_ok_iff.mpr ⟨_, hfilter,
    bind_eq_ok_iff.mpr ⟨_, hcards, rfl⟩⟩⟩, rfl⟩

/-- The page shows every cluster, and shows it rightly, exactly when no read failed. -/
theorem availableCapacity_isolated_iff {s : Server} (hk : s.kube.configured = true) (now : Int)
    (timeText : Int → String) :
    (∃ body, availableCapacityHandler s now = .ok body ∧
      ErrorsIsolated s.kube (body.toValue timeText)) ↔
    ∀ name ∈ s.kube.clusters, ∃ items, s.kube.listAvailableCapacity name = .ok items := by
  let cluster := fun name => (readCluster s.kube name).toValue
  let body : AvailableCapacityResponse := ⟨s.kube.clusters.map (readCluster s.kube), now⟩
  have hhandler : availableCapacityHandler s now = .ok body := if_pos hk
  have hdata : (body.toValue timeText).get "clusters" =
      .ok (.arr (s.kube.clusters.map cluster)) := by
    rw [get_clusters, List.map_map]
    rfl
  constructor
  · rintro ⟨body', hbody', hisolated⟩ name hname
    rw [Except.ok.inj (hbody'.symm.trans hhandler)] at hisolated
    obtain ⟨page, hpage, -⟩ := hisolated.cards
    rw [capacityPage_eq hdata, bind_eq_ok_iff] at hpage
    obtain ⟨anyItems, -, hpage⟩ := hpage
    have hshown : Returns (shown (cluster name)) :=
      returns_of_filterE (returns_bind ⟨page, hpage⟩) _ (List.mem_map.mpr ⟨name, hname, rfl⟩)
    cases hread : s.kube.listAvailableCapacity name with
    | ok items => exact ⟨items, rfl⟩
    | error err => exact absurd (returns_bind hshown) (hasItems_failed hread)
  · intro hall
    refine ⟨body, hhandler, ⟨_, hdata, List.length_map _, ?_⟩, capacityPage_ok hdata hall⟩
    intro c hc
    obtain ⟨name, hname, rfl⟩ := List.mem_map.mp hc
    obtain ⟨items, hitems⟩ := hall name hname
    refine ⟨_, by rw [get_items, readCluster_ok hitems]; rfl, ?_⟩
    -- no entry has an error here
    intro error herror htruthy
    rw [get_error_ok hitems, Except.ok.injEq] at herror
    rw [← herror] at htruthy
    cases htruthy

/-- Two clusters, of which the one called `broken` cannot be read. -/
def twoClusters (broken : String) : Server :=
  let hint : AvailableCapacity := ⟨"gpu", none, 3, "High", "1.5", []⟩
  { Server.unwired with
    kube := {
      configured := true
      clusters := ["east", "west"]
      listAvailableCapacity := fun name =>
        if name = broken then .error "connection refused" else .ok [hint] } }

theorem availableCapacity_isolated_healthy :
    ∃ body, availableCapacityHandler (twoClusters "none") 0 = .ok body ∧
      ErrorsIsolated (twoClusters "none").kube (body.toValue (fun _ => "")) := by
  have hall : ∀ name ∈ (twoClusters "none").kube.clusters,
      ∃ items, (twoClusters "none").kube.listAvailableCapacity name = .ok items := by
    intro name hname
    have hcases : name = "east" ∨ name = "west" := by simpa [twoClusters] using hname
    obtain rfl | rfl := hcases
    · exact ⟨_, rfl⟩
    · exact ⟨_, rfl⟩
  exact (availableCapacity_isolated_iff (s := twoClusters "none") rfl 0 (fun _ => "")).mpr hall

/-- One failing cluster keeps the page from rendering the other. -/
theorem availableCapacity_not_isolated :
    ¬ ∀ (s : Server) (now : Int) (timeText : Int → String), s.kube.configured = true →
      ∃ body, availableCapacityHandler s now = .ok body ∧
        ErrorsIsolated s.kube (body.toValue timeText) := by
  intro h
  obtain ⟨body, hbody, hisolated⟩ := h (twoClusters "west") 0 (fun _ => "") rfl
  obtain ⟨clusters, hclusters, -, hitems⟩ := hisolated.arrays
  rw [← Except.ok.inj hbody, get_clusters, Except.ok.injEq, Value.arr.injEq] at hclusters
  have hwest : (readCluster (twoClusters "west").kube "west").toValue ∈ clusters := by
    rw [← hclusters]
    exact List.mem_map.mpr ⟨_, List.mem_map.mpr ⟨"west", by decide, rfl⟩, rfl⟩
  obtain ⟨items, hnull, -⟩ := hitems _ hwest
  rw [get_items] at hnull
  cases hnull

end BigfleetDashboard.Handlers
