import BigfleetDashboard.ScriptArithmetic
import BigfleetDashboard.Server

/-!
# Shard reports, from the coordinator to the two pages that show them

A report passes through the projection of the coordinator client, the projection
of the handler, and its encoding; an empty map of the message comes out as `null`.
The shard-capacity page enumerates two maps of every summary, the topology page
one of them and the deficit of every shortfall.
-/
namespace BigfleetDashboard.Handlers
open Go CoordClient Script

/-! ## The handler -/

structure ApiReportSummary where
  totalMachines : Int
  freeMachines : Int
  instanceTypeCounts : GoMap Int
  zoneCounts : GoMap Int
  providerAddress : String

structure ApiReportShortfall where
  priority : Int
  deficit : GoMap String
  ageCycles : Int
  penaltyBucket : String

structure ApiShardReport where
  shardId : String
  cycle : Int
  receivedAtUnixNs : Int
  summary : Option ApiReportSummary
  shortfalls : List ApiReportShortfall

structure ShardReportsList where
  reports : List ApiShardReport
  queriedAt : Int

/-- A nil map stays nil. -/
def int32MapToInt (rt : Runtime) (input : GoMap Int) : GoMap Int :=
  match input with
  | none => none
  | some m => some ((rt.entries 0 m).foldl (fun out e => out.set e.1 e.2) OrderedMap.empty)

def toAPIShardReport (rt : Runtime) (rep : ShardReport) : ApiShardReport :=
  { shardId := rep.shardId
    cycle := rep.cycle
    receivedAtUnixNs := rep.receivedAtUnixNs
    summary := rep.summary.map (fun s =>
      { totalMachines := s.totalMachines
        freeMachines := s.freeMachines
        instanceTypeCounts := int32MapToInt rt s.instanceTypeCounts
        zoneCounts := int32MapToInt rt s.zoneCounts
        providerAddress := s.providerAddress })
    shortfalls := rep.shortfalls.map (fun sf =>
      { priority := sf.priority
        deficit := sf.deficit
        ageCycles := sf.ageCycles
        penaltyBucket := sf.penaltyBucket }) }

def shardReportsHandler (s : Server) (r : Request) (now : Int) :
    Except Failure ShardReportsList := do
  requireCoordinator s
  let reports ← orCoordError "coordinator ListShardReports: "
    (s.coord.listShardReports (r.query "shard"))
  return { reports := reports.map (toAPIShardReport s.rt), queriedAt := now }

end BigfleetDashboard.Handlers

namespace BigfleetDashboard.Pages
open Handlers Script StableSort

/-! ## The received document -/

structure ShardReportSummary where
  totalMachines : Int
  freeMachines : Int
  instanceTypeCounts : Option (List (String × Int))
  zoneCounts : Option (List (String × Int))
  providerAddress : String

structure ShardReportShortfall where
  priority : Int
  deficit : Option (List (String × String))
  ageCycles : Int
  penaltyBucket : String

/-- The summary and the shortfalls may be missing. -/
structure ShardReport where
  shardId : String
  cycle : Int
  receivedAtUnixNs : Int
  summary : Option ShardReportSummary
  shortfalls : Option (List ShardReportShortfall)

def receivedSummary (s : ApiReportSummary) : ShardReportSummary :=
  { totalMachines := toDouble s.totalMachines
    freeMachines := toDouble s.freeMachines
    instanceTypeCounts := parsedMap s.instanceTypeCounts
    zoneCounts := parsedMap s.zoneCounts
    providerAddress := s.providerAddress }

def receivedShortfall (sf : ApiReportShortfall) : ShardReportShortfall :=
  { priority := toDouble sf.priority
    deficit := parsedMap sf.deficit
    ageCycles := toDouble sf.ageCycles
    penaltyBucket := sf.penaltyBucket }

/-- An empty list of shortfalls is left out of the document. -/
def receivedReport (r : ApiShardReport) : ShardReport :=
  { shardId := r.shardId
    cycle := toDouble r.cycle
    receivedAtUnixNs := toDouble r.receivedAtUnixNs
    summary := r.summary.map receivedSummary
    shortfalls := if r.shortfalls.isEmpty then none else some (r.shortfalls.map receivedShortfall) }

/-! ## The shard-capacity page -/

inductive SortField
  | priority
  | age
  | bucket

/-- Drop the prefix of the enumeration. -/
def bucketShort (b : String) : String := ShardClient.trimPrefix b "PENALTY_BUCKET_"

def bucketRank (eng : Engine) (b : String) : ExtRat :=
  let s := bucketShort b
  if s = "PINNED" then .posInf
  else if s = "ZERO" then 0
  else if s = "HALF_DOLLAR" then .fin (1 / 2)
  else if s = "UNSPECIFIED" ∨ s = "" then .fin (-1)
  else
    let n := eng.number s
    if n.IsFinite then n else .fin (-1)

def sortShortfalls (eng : Engine) (rows : List ShardReportShortfall) (field : SortField) :
    List ShardReportShortfall :=
  eng.sorting.sort (fun a b =>
    match field with
    | .age => minus (.fin b.ageCycles) (.fin a.ageCycles)
    | .bucket => minus (bucketRank eng b.penaltyBucket) (bucketRank eng a.penaltyBucket)
    | .priority => minus (.fin b.priority) (.fin a.priority)) rows

/-- Entries in the order of a locale comparison of their names. -/
def byName (eng : Engine) (entries : List (String × String)) : List (String × String) :=
  eng.sorting.sort (fun a b => eng.localeCompare a.1 b.1) entries

/-- Entries by falling count. -/
def byCount (eng : Engine) (entries : List (String × Int)) : List (String × Int) :=
  eng.sorting.sort (fun a b => .fin (b.2 - a.2 : Int)) entries

def byShardId (eng : Engine) (reports : List ShardReport) : List ShardReport :=
  eng.sorting.sort (fun a b => eng.localeCompare a.shardId b.shardId) reports

def entriesText (entries : List (String × String)) : String :=
  String.intercalate " " (entries.map (fun e => e.1 ++ "=" ++ e.2))

/-- A missing map is shown as a dash, and so is an empty one. -/
def resStr (eng : Engine) (m : Option (List (String × String))) : Except String String :=
  match m with
  | none => .ok "—"
  | some _ => do
    let parts := byName eng (← objectEntries m)
    return if parts.isEmpty then "—" else entriesText parts

structure ShortfallRow where
  priority : Int
  penalty : String
  ageCycles : Int
  deficit : String

structure ShardCard where
  shardId : String
  providerAddr : String
  totalMachines : Int
  freeMachines : Int
  types : List (String × Int)
  zones : List (String × Int)
  shortfalls : List ShortfallRow

/-- The entries of a map of the summary, and none without a summary. -/
def summaryEntries (eng : Engine) (summary : Option ShardReportSummary)
    (field : ShardReportSummary → Option (List (String × Int))) :
    Except String (List (String × Int)) :=
  match summary with
  | none => .ok []
  | some s => (objectEntries (field s)).map (byCount eng)

def shortfallRow (eng : Engine) (sf : ShardReportShortfall) : Except String ShortfallRow := do
  return ⟨sf.priority, bucketShort sf.penaltyBucket, sf.ageCycles, ← resStr eng sf.deficit⟩

def shardCard (eng : Engine) (sort : SortField) (report : ShardReport) : Except String ShardCard := do
  let types ← summaryEntries eng report.summary ShardReportSummary.instanceTypeCounts
  let zones ← summaryEntries eng report.summary ShardReportSummary.zoneCounts
  let shortfalls := sortShortfalls eng (report.shortfalls.getD []) sort
  return {
    shardId := report.shardId
    providerAddr := (report.summary.map ShardReportSummary.providerAddress).getD ""
    totalMachines := (report.summary.map ShardReportSummary.totalMachines).getD 0
    freeMachines := (report.summary.map ShardReportSummary.freeMachines).getD 0
    types := types
    zones := zones
    shortfalls := ← mapE (shortfallRow eng) shortfalls }

def shardReportsPage (eng : Engine) (sort : SortField) (reports : List ShardReport) :
    Except String (List ShardCard) :=
  mapE (shardCard eng sort) (byShardId eng reports)

/-! ## The topology page -/

structure TopologyRow where
  key : String
  label : String
  deficit : String

structure TopologyReport where
  shardId : String
  freeMachines : Int
  totalMachines : Int
  types : List (String × Int)
  moreTypes : ℕ
  shortfalls : List TopologyRow

def formatDeficit (eng : Engine) (deficit : Option (List (String × String))) :
    Except String String := do
  let entries ← objectEntries deficit
  return if entries.isEmpty then "—" else entriesText (byName eng entries)

/-- `formatInt` is the locale's text of an integer. -/
def topologyRow (eng : Engine) (formatInt : Int → String) (s : ShardReportShortfall) :
    Except String TopologyRow := do
  let deficit ← formatDeficit eng s.deficit
  return {
    key := toString s.priority ++ "-" ++ s.penaltyBucket ++ "-" ++ deficit
    label := "shortfall p" ++ formatInt s.priority ++ " · bucket " ++ s.penaltyBucket ++
      " · age " ++ formatInt s.ageCycles
    deficit := deficit }

def topologyReport (eng : Engine) (formatInt : Int → String) (r : ShardReport) :
    Except String TopologyReport := do
  let types ← summaryEntries eng r.summary ShardReportSummary.instanceTypeCounts
  return {
    shardId := r.shardId
    freeMachines := (r.summary.map ShardReportSummary.freeMachines).getD 0
    totalMachines := (r.summary.map ShardReportSummary.totalMachines).getD 0
    types := types.take 6
    moreTypes := types.length - 6
    shortfalls := ← mapE (topologyRow eng formatInt) (r.shortfalls.getD []) }

/-- The shard-reports card over a loaded list. -/
def shardReportsCard (eng : Engine) (formatInt : Int → String) (reports : List ShardReport) :
    Except String (List TopologyReport) :=
  mapE (topologyReport eng formatInt) (byShardId eng reports)

/-! ## Null safety -/

/-- No map that a page enumerates is `null`, and neither page throws. -/
structure NullSafe (reports : List ShardReport) : Prop where
  counts : ∀ r ∈ reports, ∀ s, r.summary = some s →
    s.instanceTypeCounts.isSome ∧ s.zoneCounts.isSome
  deficits : ∀ r ∈ reports, ∀ sf ∈ r.shortfalls.getD [], sf.deficit.isSome
  capacityPage : ∀ eng sort, Returns (shardReportsPage eng sort reports)
  topologyPage : ∀ eng formatInt, Returns (shardReportsCard eng formatInt reports)

/-- A report whose summary has a machine type and a zone, and whose shortfalls all
name a resource. -/
structure Filled (rep : CoordClient.ReportMsg) : Prop where
  summary : ∀ s, rep.summary = some s →
    s.perInstanceTypeCounts.entries ≠ [] ∧ s.perZoneCounts.entries ≠ []
  shortfalls : ∀ sf ∈ rep.shortfalls, ∃ d, sf.deficit = some d ∧ d.entries ≠ []

theorem returns_objectEntries {α : Type} {m : Option (List (String × α))} (h : m.isSome) :
    Returns (objectEntries m) := by
  obtain ⟨fields, rfl⟩ := Option.isSome_iff_exists.mp h
  exact ⟨_, rfl⟩

theorem returns_summaryEntries (eng : Engine) {summary : Option ShardReportSummary}
    {field : ShardReportSummary → Option (List (String × Int))}
    (h : ∀ s, summary = some s → (field s).isSome) :
    Returns (summaryEntries eng summary field) := by
  cases summary with
  | none => exact ⟨[], rfl⟩
  | some s =>
    obtain ⟨entries, hentries⟩ := returns_objectEntries (h s rfl)
    exact ⟨byCount eng entries, by rw [summaryEntries, hentries]; rfl⟩

/-- The shard-capacity page guards the deficits, so it needs the counts only. -/
theorem returns_shardReportsPage {reports : List ShardReport}
    (h : ∀ r ∈ reports, ∀ s, r.summary = some s →
      s.instanceTypeCounts.isSome ∧ s.zoneCounts.isSome) (eng : Engine) (sort : SortField) :
    Returns (shardReportsPage eng sort reports) := by
  rw [shardReportsPage, returns_mapE_iff]
  intro r hr
  have hr' := h r ((eng.sorting.perm _ reports).mem_iff.mp hr)
  obtain ⟨types, htypes⟩ := returns_summaryEntries eng (fun s hs => (hr' s hs).1)
  obtain ⟨zones, hzones⟩ := returns_summaryEntries eng (fun s hs => (hr' s hs).2)
  have hrows : Returns (mapE (shortfallRow eng) (sortShortfalls eng (r.shortfalls.getD []) sort)) := by
    rw [returns_mapE_iff]
    intro sf _
    cases hdef : sf.deficit with
    | none => exact ⟨_, by rw [shortfallRow, hdef]; rfl⟩
    | some fields => exact ⟨_, by rw [shortfallRow, hdef]; rfl⟩
  obtain ⟨rows, hrows⟩ := hrows
  exact ⟨_, bind_eq_ok_iff.mpr ⟨types, htypes, bind_eq_ok_iff.mpr ⟨zones, hzones,
    bind_eq_ok_iff.mpr ⟨rows, hrows, rfl⟩⟩⟩⟩

theorem returns_shardReportsCard {reports : List ShardReport}
    (h : ∀ r ∈ reports, ∀ s, r.summary = some s →
      s.instanceTypeCounts.isSome ∧ s.zoneCounts.isSome)
    (hd : ∀ r ∈ reports, ∀ sf ∈ r.shortfalls.getD [], sf.deficit.isSome) (eng : Engine)
    (formatInt : Int → String) : Returns (shardReportsCard eng formatInt reports) := by
  rw [shardReportsCard, returns_mapE_iff]
  intro r hr
  have hmem := (eng.sorting.perm _ reports).mem_iff.mp hr
  obtain ⟨types, htypes⟩ := returns_summaryEntries eng (fun s hs => (h r hmem s hs).1)
  have hrows : Returns (mapE (topologyRow eng formatInt) (r.shortfalls.getD [])) := by
    rw [returns_mapE_iff]
    intro sf hsf
    obtain ⟨fields, hfields⟩ := Option.isSome_iff_exists.mp (hd r hmem sf hsf)
    exact ⟨_, by rw [topologyRow, formatDeficit, hfields]; rfl⟩
  obtain ⟨rows, hrows⟩ := hrows
  exact ⟨_, bind_eq_ok_iff.mpr ⟨types, htypes, bind_eq_ok_iff.mpr ⟨rows, hrows, rfl⟩⟩⟩

/-! ### The way of a map from the message to the page -/

theorem isSome_receivedCounts (rt : Go.Runtime) (field : OrderedMap String Int) :
    (parsedMap (int32MapToInt rt (CoordClient.getMap field))).isSome ↔ field.entries ≠ [] := by
  cases h : field.entries <;> simp [CoordClient.getMap, int32MapToInt, parsedMap, h]

theorem isSome_receivedDeficit (d : Option (OrderedMap String String)) :
    (parsedMap (d.bind CoordClient.getMap)).isSome ↔ ∃ m, d = some m ∧ m.entries ≠ [] := by
  cases d with
  | none => simp [parsedMap]
  | some m => cases h : m.entries <;> simp [CoordClient.getMap, parsedMap, h]

/-- The report of a message as the pages receive it. -/
def received (rt : Go.Runtime) (rep : CoordClient.ReportMsg) : ShardReport :=
  receivedReport (toAPIShardReport rt (CoordClient.toReport rep))

theorem getD_receivedShortfalls (rt : Go.Runtime) (rep : CoordClient.ReportMsg) :
    (((received rt rep).shortfalls.getD []).map ShardReportShortfall.deficit) =
      rep.shortfalls.map (fun sf => parsedMap (sf.deficit.bind CoordClient.getMap)) := by
  cases h : rep.shortfalls with
  | nil => simp [received, receivedReport, toAPIShardReport, CoordClient.toReport, h]
  | cons sf sfs =>
    simp [received, receivedReport, toAPIShardReport, CoordClient.toReport, h,
      CoordClient.toReportShortfall, receivedShortfall]

theorem filled_iff (rt : Go.Runtime) (rep : CoordClient.ReportMsg) :
    Filled rep ↔
      (∀ s, (received rt rep).summary = some s →
        s.instanceTypeCounts.isSome ∧ s.zoneCounts.isSome) ∧
      ∀ sf ∈ (received rt rep).shortfalls.getD [], sf.deficit.isSome := by
  have hdeficits : (∀ sf ∈ (received rt rep).shortfalls.getD [], sf.deficit.isSome) ↔
      ∀ sf ∈ rep.shortfalls, ∃ d, sf.deficit = some d ∧ d.entries ≠ [] := by
    have hmap := getD_receivedShortfalls rt rep
    calc (∀ sf ∈ (received rt rep).shortfalls.getD [], sf.deficit.isSome)
        ↔ ∀ d ∈ ((received rt rep).shortfalls.getD []).map ShardReportShortfall.deficit,
            d.isSome := by simp
      _ ↔ ∀ sf ∈ rep.shortfalls, (parsedMap (sf.deficit.bind CoordClient.getMap)).isSome := by
          rw [hmap]; simp
      _ ↔ _ := by simp only [isSome_receivedDeficit]
  have hcounts : (∀ s, (received rt rep).summary = some s →
        s.instanceTypeCounts.isSome ∧ s.zoneCounts.isSome) ↔
      ∀ s, rep.summary = some s →
        s.perInstanceTypeCounts.entries ≠ [] ∧ s.perZoneCounts.entries ≠ [] := by
    cases hs : rep.summary with
    | none => simp [received, receivedReport, toAPIShardReport, CoordClient.toReport, hs]
    | some s =>
      simp [received, receivedReport, toAPIShardReport, CoordClient.toReport, hs,
        CoordClient.toReportSummary, receivedSummary, isSome_receivedCounts]
  rw [hcounts, hdeficits]
  exact ⟨fun h => ⟨h.summary, h.shortfalls⟩, fun h => ⟨h.1, h.2⟩⟩

theorem nullSafe_iff (rt : Go.Runtime) (resp : List CoordClient.ReportMsg) :
    NullSafe (resp.map (received rt)) ↔ ∀ rep ∈ resp, Filled rep := by
  constructor
  · intro h rep hrep
    have hmem := List.mem_map_of_mem (f := received rt) hrep
    exact (filled_iff rt rep).mpr ⟨h.counts _ hmem, h.deficits _ hmem⟩
  · intro h
    have hcounts : ∀ r ∈ resp.map (received rt), ∀ s, r.summary = some s →
        s.instanceTypeCounts.isSome ∧ s.zoneCounts.isSome := by
      intro r hr
      obtain ⟨rep, hrep, rfl⟩ := List.mem_map.mp hr
      exact ((filled_iff rt rep).mp (h rep hrep)).1
    have hdeficits : ∀ r ∈ resp.map (received rt), ∀ sf ∈ r.shortfalls.getD [],
        sf.deficit.isSome := by
      intro r hr
      obtain ⟨rep, hrep, rfl⟩ := List.mem_map.mp hr
      exact ((filled_iff rt rep).mp (h rep hrep)).2
    exact ⟨hcounts, hdeficits, returns_shardReportsPage hcounts,
      returns_shardReportsCard hcounts hdeficits⟩

/-- The pages can render every answer of the coordinator exactly when no map in it
is empty. -/
theorem shardReports_nullSafe_iff {s : Server} {api : CoordClient.Api}
    (hapi : s.coord.api = some api) {r : Request} {resp : List CoordClient.ReportMsg}
    (hans : api.listShardReports (r.query "shard") = .ok resp) (now : Int) :
    (∃ body, shardReportsHandler s r now = .ok body ∧
      NullSafe (body.reports.map receivedReport)) ↔ ∀ rep ∈ resp, Filled rep := by
  have hcoord : requireCoordinator s = .ok () := by
    have haddr : s.coord.addr ≠ "" := s.coord.dialled.mp (by rw [hapi]; rfl)
    simp [requireCoordinator, CoordClient.Client.configured, haddr]
  have hlist : s.coord.listShardReports (r.query "shard") = .ok (resp.map CoordClient.toReport) :=
    (CoordClient.Client.read_eq_ok_iff _ _ _ _).mpr ⟨api, resp, hapi, hans, rfl⟩
  have hhandler : shardReportsHandler s r now =
      .ok ⟨(resp.map CoordClient.toReport).map (toAPIShardReport s.rt), now⟩ := by
    refine bind_eq_ok_iff.mpr ⟨(), hcoord, ?_⟩
    exact bind_eq_ok_iff.mpr ⟨_, (orCoordError_eq_ok_iff _ _ _).mpr hlist, rfl⟩
  rw [← nullSafe_iff s.rt]
  have hreceived : ((resp.map CoordClient.toReport).map (toAPIShardReport s.rt)).map receivedReport =
      resp.map (received s.rt) := by
    rw [List.map_map, List.map_map]
    rfl
  constructor
  · rintro ⟨body, hbody, hsafe⟩
    rw [← Except.ok.inj (hhandler.symm.trans hbody), hreceived] at hsafe
    exact hsafe
  · intro hsafe
    exact ⟨_, hhandler, by rw [hreceived]; exact hsafe⟩

def sampleReport (counts : OrderedMap String Int) : CoordClient.ReportMsg :=
  { shardId := "shard-0"
    cycle := 7
    receivedAtUnixNs := 0
    summary := some ⟨5, 5, counts, counts, ""⟩
    shortfalls := [] }

/-- The coordinator holds one report, of a shard with the given counts. -/
def reportingServer (counts : OrderedMap String Int) : Server :=
  { Server.unwired with
    coord := {
      addr := "coordinator:7000"
      api := some {
        listShards := .ok []
        listDomainAssignments := .ok []
        listShardReports := fun _ => .ok [sampleReport counts] }
      dialled := by simp } }

def anyShard : Request := ⟨fun _ => "", fun _ => ""⟩

theorem shardReports_nullSafe_inventory :
    ∃ body, shardReportsHandler (reportingServer (OrderedMap.empty.set "m5.large" 5)) anyShard 0 =
        .ok body ∧ NullSafe (body.reports.map receivedReport) := by
  have hfilled : ∀ rep ∈ [sampleReport (OrderedMap.empty.set "m5.large" 5)], Filled rep := by
    intro rep hrep
    rw [List.mem_singleton.mp hrep]
    constructor
    case summary =>
      intro s hs
      obtain rfl := Option.some.inj hs
      exact ⟨by decide, by decide⟩
    case shortfalls => simp [sampleReport]
  exact (shardReports_nullSafe_iff
    (s := reportingServer (OrderedMap.empty.set "m5.large" 5)) rfl rfl 0).mpr hfilled

/-- A shard that has just reported an empty inventory breaks both pages. -/
theorem shardReports_not_nullSafe :
    ¬ ∀ (s : Server) (api : CoordClient.Api) (r : Request) (resp : List CoordClient.ReportMsg)
      (now : Int), s.coord.api = some api → api.listShardReports (r.query "shard") = .ok resp →
      ∃ body, shardReportsHandler s r now = .ok body ∧
        NullSafe (body.reports.map receivedReport) := by
  intro h
  obtain ⟨body, hbody, hsafe⟩ :=
    h (reportingServer OrderedMap.empty) _ anyShard _ 0 rfl rfl
  obtain rfl := Except.ok.inj hbody
  have hcounts := hsafe.counts _ (List.mem_singleton_self _) _ rfl
  exact absurd hcounts.1 (by decide)

end BigfleetDashboard.Pages
