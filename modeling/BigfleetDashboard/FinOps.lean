import BigfleetDashboard.PromHandlers

/-!
# The FinOps snapshot

Seven instant queries are folded into one body: totals and fractions, the two
axes of the penalty matrix, its cells, and the red flags. The page draws the
matrix over the axes and decides for itself which cells to flag.
-/
namespace BigfleetDashboard.FinOps
open Go PromClient Handlers

def queryFinopsConfiguredByCapacity : String :=
  "sum by (capacity_type) (bigfleet_shard_inventory_machines\x7bstate=\"Configured\"\x7d)"
def queryFinopsIdleByCapacity : String :=
  "sum by (capacity_type) (bigfleet_shard_inventory_machines\x7bstate=\"Idle\"\x7d)"
def queryFinopsConfiguredByCapBucket : String :=
  "sum by (capacity_type, interruption_penalty_bucket) " ++
    "(bigfleet_shard_inventory_machines\x7bstate=\"Configured\"\x7d)"
def queryFinopsDemandByBucket : String :=
  "sum by (interruption_penalty_bucket) (bigfleet_shard_demand_machines)"
def queryFinopsConfiguredByBucket : String :=
  "sum by (interruption_penalty_bucket) " ++
    "(bigfleet_shard_inventory_machines\x7bstate=\"Configured\"\x7d)"
def queryFinopsDemandTotal : String := "sum(bigfleet_shard_demand_machines)"
def queryFinopsActionRates : String := "sum by (kind) (rate(bigfleet_shard_actions_total[5m]))"

def capacityTypeOrder : List String := ["BareMetal", "Reserved", "OnDemand", "Spot"]

/-- A set of names, as a map to true. -/
abbrev NameSet := OrderedMap String Bool

/-- A map of counts by name. -/
abbrev Counts := OrderedMap String ExtRat

structure FinOpsTotals where
  configuredMachines : Int
  idleMachines : Int
  demandMachines : Int
  spotConfiguredFraction : ExtRat
  pinnedConfiguredFraction : ExtRat

structure FinOpsRedFlag where
  severity : String
  capacityType : String
  bucket : String
  count : ExtRat
  message : String

structure FinOpsSnapshot where
  totals : FinOpsTotals
  capacityTypes : List String
  buckets : List String
  configuredByCapacityType : Counts
  idleByCapacityType : Counts
  configured : OrderedMap String Counts
  configuredByBucket : Counts
  demand : Counts
  actionRatesPerSec : Counts
  redFlags : List FinOpsRedFlag
  queriedAt : Int

/-! ## The fold over the matrix samples -/

structure MatrixFold where
  configured : OrderedMap String Counts
  capacitySet : NameSet
  bucketSet : NameSet

def MatrixFold.empty : MatrixFold := ⟨OrderedMap.empty, OrderedMap.empty, OrderedMap.empty⟩

/-- Reading a label that is absent yields the empty text. -/
def capacityLabel (s : LabelledSample) : String := s.labels.getD "capacity_type" ""
def bucketLabel (s : LabelledSample) : String := s.labels.getD "interruption_penalty_bucket" ""

/-- The loop body: a sample without both labels is skipped. -/
def MatrixFold.addSample (m : MatrixFold) (s : LabelledSample) : MatrixFold :=
  let ct := capacityLabel s
  let bk := bucketLabel s
  if ct = "" ∨ bk = "" then m
  else
    { configured := m.configured.set ct ((m.configured.getD ct OrderedMap.empty).set bk s.value)
      capacitySet := m.capacitySet.set ct true
      bucketSet := m.bucketSet.set bk true }

/-- A sample with both labels. -/
def Labelled (s : LabelledSample) : Prop := capacityLabel s ≠ "" ∧ bucketLabel s ≠ ""

instance : DecidablePred Labelled := fun _ => inferInstanceAs (Decidable (_ ∧ _))

/-- The cell of a capacity type and a bucket. -/
def MatrixFold.cell? (m : MatrixFold) (ct b : String) : Option ExtRat :=
  (m.configured.get? ct).bind (fun row => row.get? b)

theorem addSample_of_labelled {s : LabelledSample} (h : Labelled s) (m : MatrixFold) :
    m.addSample s =
      { configured := m.configured.set (capacityLabel s)
          ((m.configured.getD (capacityLabel s) OrderedMap.empty).set (bucketLabel s) s.value)
        capacitySet := m.capacitySet.set (capacityLabel s) true
        bucketSet := m.bucketSet.set (bucketLabel s) true } := by
  have hor : ¬ (capacityLabel s = "" ∨ bucketLabel s = "") := not_or.mpr h
  simp only [MatrixFold.addSample, hor, if_false]

theorem addSample_of_not_labelled {s : LabelledSample} (h : ¬ Labelled s) (m : MatrixFold) :
    m.addSample s = m := by
  have hor : capacityLabel s = "" ∨ bucketLabel s = "" := by
    simpa [Labelled, or_iff_not_imp_left] using h
  simp only [MatrixFold.addSample, hor, if_true]

theorem cell?_addSample (m : MatrixFold) (s : LabelledSample) (ct b : String) :
    (m.addSample s).cell? ct b =
      if Labelled s ∧ capacityLabel s = ct ∧ bucketLabel s = b then some s.value
      else m.cell? ct b := by
  by_cases hs : Labelled s
  · rw [addSample_of_labelled hs]
    simp only [MatrixFold.cell?, hs, true_and]
    by_cases hct : capacityLabel s = ct
    · subst hct
      rw [OrderedMap.get?_set_self, Option.bind_some, OrderedMap.get?_set]
      by_cases hb : bucketLabel s = b
      · simp [hb]
      · rw [if_neg (Ne.symm hb), if_neg (fun h => hb h.2)]
        cases hrow : m.configured.get? (capacityLabel s) with
        | none => simp [OrderedMap.getD, hrow]
        | some row => simp [OrderedMap.getD, hrow]
    · rw [OrderedMap.get?_set_of_ne _ _ (Ne.symm hct), if_neg (fun h => hct h.1)]
  · rw [addSample_of_not_labelled hs, if_neg (fun h => hs h.1)]

/-- After the loop a cell holds the last labelled sample of its labels. -/
theorem cell?_foldl_addSample (m : MatrixFold) (samples : List LabelledSample) (ct b : String) :
    (samples.foldl MatrixFold.addSample m).cell? ct b =
      (((samples.filter (fun s => Labelled s ∧ capacityLabel s = ct ∧
        bucketLabel s = b)).getLast?).map LabelledSample.value).or (m.cell? ct b) := by
  induction samples using List.reverseRecOn with
  | nil => simp
  | append_singleton samples s ih =>
    rw [List.foldl_append, List.foldl_cons, List.foldl_nil, cell?_addSample, List.filter_append]
    by_cases h : Labelled s ∧ capacityLabel s = ct ∧ bucketLabel s = b
    · simp [h]
    · rw [if_neg h, ih]
      simp [h]

theorem mem_keys_addSample (m : MatrixFold) (s : LabelledSample) (ct : String) :
    ct ∈ (m.addSample s).configured.keys ↔
      ct ∈ m.configured.keys ∨ (Labelled s ∧ capacityLabel s = ct) := by
  by_cases hs : Labelled s
  · rw [addSample_of_labelled hs, OrderedMap.mem_keys_set]
    constructor
    · rintro (rfl | h)
      · exact Or.inr ⟨hs, rfl⟩
      · exact Or.inl h
    · rintro (h | ⟨-, rfl⟩)
      · exact Or.inr h
      · exact Or.inl rfl
  · rw [addSample_of_not_labelled hs]
    simp [hs]

/-- The rows of the matrix are the capacity types of the labelled samples. -/
theorem mem_keys_foldl_addSample (m : MatrixFold) (samples : List LabelledSample) (ct : String) :
    ct ∈ (samples.foldl MatrixFold.addSample m).configured.keys ↔
      ct ∈ m.configured.keys ∨ ∃ s ∈ samples, Labelled s ∧ capacityLabel s = ct := by
  induction samples generalizing m with
  | nil => simp
  | cons s samples ih =>
    rw [List.foldl_cons, ih, mem_keys_addSample]
    simp only [List.mem_cons, exists_eq_or_imp, or_assoc]

/-- A loop that adds names to a set. -/
def markAll (set : NameSet) (names : List String) : NameSet :=
  names.foldl (fun m name => m.set name true) set

/-! ## Axes -/

/-- The known capacity types come first, in their order, the others after them. -/
def orderCapacityTypes (rt : Runtime) (set : NameSet) : List String :=
  let out := capacityTypeOrder.filter (fun c => set.getD c false)
  let used := markAll OrderedMap.empty out
  let extras := ((rt.entries 6 set).map Prod.fst).filter (fun c => !used.getD c false)
  out ++ sortStrings extras

/-- Pinned is last, numbers are ordered by value, other texts as texts. -/
def bucketLess (rt : Runtime) (a b : String) : Bool :=
  if a = b then false
  else if a = "pinned" then false
  else if b = "pinned" then true
  else
    match rt.parseFloat a, rt.parseFloat b with
    | some fa, some fb => decide (fa < fb)
    | _, _ => decide (a < b)

def orderBuckets (rt : Runtime) (set : NameSet) : List String :=
  rt.sortSlice (bucketLess rt) ((rt.entries 7 set).map Prod.fst)

/-! ## Fractions and red flags -/

def fraction (numerator denominator : ExtRat) : ExtRat :=
  if denominator = 0 then 0 else numerator / denominator

def redFlagMessage : String :=
  "Pinned-penalty workloads on Spot capacity. Phase 1 should not have allowed this; verify the " ++
    "provider's interruption_probability and the operator's PriorityClass → penalty mapping."

def detectRedFlags (configured : OrderedMap String Counts) : List FinOpsRedFlag :=
  match configured.get? "Spot" with
  | none => []
  | some spot =>
    let pinned := spot.getD "pinned" 0
    if 0 < pinned then
      [{ severity := "danger"
         capacityType := "Spot"
         bucket := "pinned"
         count := pinned
         message := redFlagMessage }]
    else []

/-! ## The handler -/

/-- What the seven queries answered. -/
structure Answers where
  configuredByCap : Counts
  idleByCap : Counts
  samples : List LabelledSample
  demand : Counts
  configuredByBucket : Counts
  demandTotal : ExtRat
  actionRates : Counts

def finopsQueries (s : Server) (now : Int) : Except Failure Answers := do
  let configuredByCap ← orBadGateway "prometheus query (configured by capacity_type): "
    (queryByLabel s.prom queryFinopsConfiguredByCapacity "capacity_type" now)
  let idleByCap ← orBadGateway "prometheus query (idle by capacity_type): "
    (queryByLabel s.prom queryFinopsIdleByCapacity "capacity_type" now)
  let samples ← orBadGateway "prometheus query (configured matrix): "
    (queryVector s.prom queryFinopsConfiguredByCapBucket now)
  let demand ← orBadGateway "prometheus query (demand by bucket): "
    (queryByLabel s.prom queryFinopsDemandByBucket "interruption_penalty_bucket" now)
  let configuredByBucket ← orBadGateway "prometheus query (configured by bucket): "
    (queryByLabel s.prom queryFinopsConfiguredByBucket "interruption_penalty_bucket" now)
  let demandTotal ← orBadGateway "prometheus query (demand total): "
    (queryScalar s.prom queryFinopsDemandTotal now)
  let actionRates ← orBadGateway "prometheus query (action rates): "
    (queryByLabel s.prom queryFinopsActionRates "kind" now)
  return ⟨configuredByCap, idleByCap, samples, demand, configuredByBucket, demandTotal, actionRates⟩

def capacitySet (rt : Runtime) (a : Answers) (m : MatrixFold) : NameSet :=
  let configured := markAll m.capacitySet ((rt.entries 0 a.configuredByCap).map Prod.fst)
  markAll configured ((rt.entries 1 a.idleByCap).map Prod.fst)

def bucketSet (rt : Runtime) (a : Answers) (m : MatrixFold) : NameSet :=
  let demand := markAll m.bucketSet ((rt.entries 2 a.demand).map Prod.fst)
  markAll demand ((rt.entries 3 a.configuredByBucket).map Prod.fst)

/-- The pinned cells of all rows. -/
def pinnedConfigured (rt : Runtime) (configured : OrderedMap String Counts) : ExtRat :=
  ExtRat.total ((rt.entries 5 configured).map (fun e => e.2.getD "pinned" 0))

/-- The body assembled from the answers. -/
def snapshot (rt : Runtime) (a : Answers) (now : Int) : FinOpsSnapshot :=
  let m := a.samples.foldl MatrixFold.addSample MatrixFold.empty
  let configuredTotal := sumValues rt 4 a.configuredByCap
  let idleTotal := sumValues rt 8 a.idleByCap
  { totals :=
      { configuredMachines := intOfFloat configuredTotal
        idleMachines := intOfFloat idleTotal
        demandMachines := intOfFloat a.demandTotal
        spotConfiguredFraction := fraction (a.configuredByCap.getD "Spot" 0) configuredTotal
        pinnedConfiguredFraction := fraction (pinnedConfigured rt m.configured) configuredTotal }
    capacityTypes := orderCapacityTypes rt (capacitySet rt a m)
    buckets := orderBuckets rt (bucketSet rt a m)
    configuredByCapacityType := a.configuredByCap
    idleByCapacityType := a.idleByCap
    configured := m.configured
    configuredByBucket := a.configuredByBucket
    demand := a.demand
    actionRatesPerSec := a.actionRates
    redFlags := detectRedFlags m.configured
    queriedAt := now }

def finopsHandler (s : Server) (now : Int) : Except Failure FinOpsSnapshot := do
  requirePrometheus s
  let answers ← finopsQueries s now
  return snapshot s.rt answers now

/-! ## The penalty matrix of the page -/

structure MatrixCell where
  capacityType : String
  bucket : String
  value : ExtRat
  flagged : Bool

/-- A missing row and a missing cell count as 0. -/
def cellValue (data : FinOpsSnapshot) (ct b : String) : ExtRat :=
  ((data.configured.get? ct).bind (fun row => row.get? b)).getD 0

/-- The cells of the table, row by row. -/
def matrixCells (data : FinOpsSnapshot) : List MatrixCell :=
  data.capacityTypes.flatMap (fun ct => data.buckets.map (fun b =>
    { capacityType := ct
      bucket := b
      value := cellValue data ct b
      flagged := ct = "Spot" && b = "pinned" && 0 < cellValue data ct b }))

end BigfleetDashboard.FinOps
