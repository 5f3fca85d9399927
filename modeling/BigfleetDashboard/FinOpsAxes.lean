import BigfleetDashboard.FinOps

/-!
# The penalty matrix shows everything and agrees with the alarms

The axes of the matrix are the capacity types and the buckets that occur in any
of the answers, collected in sets while the answers are folded. Every cell lies
on the grid the page draws, and the red flag of the body is the red cell of the
grid.
-/
namespace BigfleetDashboard.FinOps
open Go PromClient Handlers

/-! ## Sets of names -/

/-- The set holds exactly the names that satisfy `P`. -/
structure Marks (set : NameSet) (P : String → Prop) : Prop where
  getD_iff : ∀ k, set.getD k false = true ↔ P k
  keys_iff : ∀ k, k ∈ set.keys ↔ P k

theorem marks_empty : Marks OrderedMap.empty (fun _ => False) :=
  ⟨fun k => by simp [OrderedMap.getD], fun k => by simp⟩

theorem Marks.congr {set : NameSet} {P Q : String → Prop} (h : Marks set P) (hpq : ∀ k, P k ↔ Q k) :
    Marks set Q :=
  ⟨fun k => (h.getD_iff k).trans (hpq k), fun k => (h.keys_iff k).trans (hpq k)⟩

theorem Marks.set {set : NameSet} {P : String → Prop} (h : Marks set P) (name : String) :
    Marks (set.set name true) (fun k => k = name ∨ P k) := by
  constructor
  · intro k
    by_cases hk : k = name
    · subst hk
      rw [OrderedMap.getD_set_self]
      simp
    · have hget : (set.set name true).getD k false = set.getD k false := by
        simp only [OrderedMap.getD, OrderedMap.get?_set_of_ne _ _ hk]
      simpa [hk, hget] using h.getD_iff k
  · intro k
    rw [OrderedMap.mem_keys_set, h.keys_iff]

theorem Marks.markAll {set : NameSet} {P : String → Prop} (h : Marks set P) (names : List String) :
    Marks (markAll set names) (fun k => k ∈ names ∨ P k) := by
  induction names generalizing set P with
  | nil => exact h.congr (fun k => by simp)
  | cons name names ih =>
    refine (ih (h.set name)).congr (fun k => ?_)
    rw [List.mem_cons]
    tauto

/-- The loop over a map adds its keys, in whatever order it visits them. -/
theorem Marks.markKeys {ν : Type} {set : NameSet} {P : String → Prop} (h : Marks set P)
    (rt : Runtime) (loop : ℕ) (m : OrderedMap String ν) :
    Marks (FinOps.markAll set ((rt.entries loop m).map Prod.fst)) (fun k => k ∈ m.keys ∨ P k) := by
  have hperm := (rt.mapOrder_perm loop m.entries).map Prod.fst
  exact (h.markAll _).congr (fun k => or_congr_left hperm.mem_iff)

/-! ## The sets of the fold -/

/-- A bucket with a cell is a key of some row. -/
theorem MatrixFold.exists_cell_iff (m : MatrixFold) (b : String) :
    (∃ ct, (m.cell? ct b).isSome) ↔ ∃ ct row, m.configured.get? ct = some row ∧ b ∈ row.keys := by
  constructor
  · rintro ⟨ct, hct⟩
    obtain ⟨v, hv⟩ := Option.isSome_iff_exists.mp hct
    obtain ⟨row, hrow, hb⟩ := Option.bind_eq_some_iff.mp hv
    exact ⟨ct, row, hrow, (row.mem_keys_iff b).mpr (by rw [hb, Option.isSome_some])⟩
  · rintro ⟨ct, row, hrow, hb⟩
    refine ⟨ct, ?_⟩
    rw [MatrixFold.cell?, hrow, Option.bind_some]
    exact (row.mem_keys_iff b).mp hb

/-- The two sets name the rows and the columns of the matrix folded so far. -/
structure AxesOf (m : MatrixFold) : Prop where
  capacity : Marks m.capacitySet (fun ct => ct ∈ m.configured.keys)
  bucket : Marks m.bucketSet (fun b => ∃ ct, (m.cell? ct b).isSome)

theorem axesOf_empty : AxesOf MatrixFold.empty := by
  constructor
  · exact marks_empty.congr (fun ct => by simp [MatrixFold.empty])
  · exact marks_empty.congr (fun b => by simp [MatrixFold.empty, MatrixFold.cell?])

theorem AxesOf.addSample {m : MatrixFold} (h : AxesOf m) (s : LabelledSample) :
    AxesOf (m.addSample s) := by
  by_cases hs : Labelled s
  · constructor
    · have hset : (m.addSample s).capacitySet = m.capacitySet.set (capacityLabel s) true := by
        rw [addSample_of_labelled hs]
      rw [hset]
      refine (h.capacity.set (capacityLabel s)).congr (fun ct => ?_)
      rw [mem_keys_addSample]
      simp only [hs, true_and]
      rw [or_comm, eq_comm]
    · have hset : (m.addSample s).bucketSet = m.bucketSet.set (bucketLabel s) true := by
        rw [addSample_of_labelled hs]
      rw [hset]
      refine (h.bucket.set (bucketLabel s)).congr (fun b => ?_)
      constructor
      · rintro (rfl | ⟨ct, hct⟩)
        · exact ⟨capacityLabel s, by simp [cell?_addSample, hs]⟩
        · refine ⟨ct, ?_⟩
          rw [cell?_addSample]
          split_ifs
          · rfl
          · exact hct
      · rintro ⟨ct, hct⟩
        rw [cell?_addSample] at hct
        split_ifs at hct with hlabels
        · exact Or.inl hlabels.2.2.symm
        · exact Or.inr ⟨ct, hct⟩
  · rw [addSample_of_not_labelled hs]
    exact h

theorem AxesOf.foldl {m : MatrixFold} (h : AxesOf m) (samples : List LabelledSample) :
    AxesOf (samples.foldl MatrixFold.addSample m) := by
  induction samples generalizing m with
  | nil => exact h
  | cons s samples ih => exact ih (h.addSample s)

/-! ## The ordered axes -/

section Ordering
variable {set : NameSet} {P : String → Prop}

/-- The known types come first; the others follow in ascending order. -/
theorem orderCapacityTypes_eq (h : Marks set P) (rt : Runtime) :
    ∃ extras, orderCapacityTypes rt set =
        capacityTypeOrder.filter (fun c => set.getD c false) ++ extras ∧
      extras.Pairwise (· < ·) ∧ ∀ c, c ∈ extras ↔ P c ∧ c ∉ capacityTypeOrder := by
  set known := capacityTypeOrder.filter (fun c => set.getD c false) with hknown
  set unused := ((rt.entries 6 set).map Prod.fst).filter
    (fun c => !(markAll OrderedMap.empty known).getD c false) with hunused
  have hperm := (rt.mapOrder_perm 6 set.entries).map Prod.fst
  refine ⟨sortStrings unused, rfl, ?_, ?_⟩
  · have hnodup : (sortStrings unused).Nodup :=
      (sortStrings_perm unused).nodup_iff.mpr
        ((hperm.nodup_iff.mpr set.keys_nodup).filter _)
    exact (hnodup.and (sortStrings_sorted unused)).imp (fun h => lt_of_le_of_ne h.2 h.1)
  · intro c
    have hused := (marks_empty.markAll known).getD_iff c
    have hkeys : c ∈ (rt.entries 6 set).map Prod.fst ↔ P c := hperm.mem_iff.trans (h.keys_iff c)
    rw [(sortStrings_perm unused).mem_iff, hunused, List.mem_filter, hkeys]
    constructor
    · rintro ⟨hc, hnot⟩
      refine ⟨hc, fun hmem => ?_⟩
      have hknownc : c ∈ known := List.mem_filter.mpr ⟨hmem, (h.getD_iff c).mpr hc⟩
      simp [hused.mpr (Or.inl hknownc)] at hnot
    · rintro ⟨hc, hnot⟩
      refine ⟨hc, ?_⟩
      rw [Bool.not_eq_true', ← Bool.not_eq_true, hused]
      rintro (hmem | hmem)
      · exact hnot (List.mem_of_mem_filter hmem)
      · exact hmem

theorem mem_orderCapacityTypes (h : Marks set P) (rt : Runtime) (c : String) :
    c ∈ orderCapacityTypes rt set ↔ P c := by
  obtain ⟨extras, heq, -, hmem⟩ := orderCapacityTypes_eq h rt
  rw [heq, List.mem_append, List.mem_filter, hmem, h.getD_iff]
  tauto

theorem nodup_orderCapacityTypes (h : Marks set P) (rt : Runtime) :
    (orderCapacityTypes rt set).Nodup := by
  obtain ⟨extras, heq, hasc, hmem⟩ := orderCapacityTypes_eq h rt
  have hknown : (capacityTypeOrder.filter (fun c => set.getD c false)).Nodup :=
    List.Nodup.filter _ (by decide)
  rw [heq, List.nodup_append']
  refine ⟨hknown, hasc.imp (fun hlt => hlt.ne), ?_⟩
  intro c hc hc'
  exact ((hmem c).mp hc').2 (List.mem_of_mem_filter hc)

theorem orderBuckets_perm (rt : Runtime) : (orderBuckets rt set).Perm set.keys :=
  (rt.sortSlice_perm _ _).trans ((rt.mapOrder_perm 7 set.entries).map Prod.fst)

end Ordering

/-! ## The grid -/

/-- The axes name what occurs in the answers, once each; every cell lies on the grid;
the red flag is the flagged cell. -/
structure Charted (body : FinOpsSnapshot) : Prop where
  capacity_mem : ∀ ct, ct ∈ body.capacityTypes ↔ ct ∈ body.configuredByCapacityType.keys ∨
    ct ∈ body.idleByCapacityType.keys ∨ ct ∈ body.configured.keys
  capacity_nodup : body.capacityTypes.Nodup
  capacity_order : ∃ extras,
    body.capacityTypes = capacityTypeOrder.filter (fun c => c ∈ body.capacityTypes) ++ extras ∧
      extras.Pairwise (· < ·) ∧ ∀ c ∈ extras, c ∉ capacityTypeOrder
  bucket_mem : ∀ b, b ∈ body.buckets ↔
    (∃ ct row, body.configured.get? ct = some row ∧ b ∈ row.keys) ∨ b ∈ body.demand.keys ∨
      b ∈ body.configuredByBucket.keys
  bucket_nodup : body.buckets.Nodup
  on_grid : ∀ ct row b v, body.configured.get? ct = some row → row.get? b = some v →
    ∃ cell ∈ matrixCells body, cell.capacityType = ct ∧ cell.bucket = b ∧ cell.value = v
  redFlags_iff : body.redFlags ≠ [] ↔ ∃ cell ∈ matrixCells body, cell.flagged = true
  redFlags_count : ∀ flag ∈ body.redFlags, ∀ cell ∈ matrixCells body, cell.flagged = true →
    flag.count = cell.value

/-- The maps of the body are the answers; a cell is the last finite sample of its labels. -/
structure FromAnswers (s : Server) (now : Int) (body : FinOpsSnapshot) : Prop where
  configuredByCapacity : queryByLabel s.prom queryFinopsConfiguredByCapacity "capacity_type" now =
    .ok body.configuredByCapacityType
  idleByCapacity : queryByLabel s.prom queryFinopsIdleByCapacity "capacity_type" now =
    .ok body.idleByCapacityType
  demand : queryByLabel s.prom queryFinopsDemandByBucket "interruption_penalty_bucket" now =
    .ok body.demand
  configuredByBucket : queryByLabel s.prom queryFinopsConfiguredByBucket
    "interruption_penalty_bucket" now = .ok body.configuredByBucket
  matrix : ∃ samples, queryVector s.prom queryFinopsConfiguredByCapBucket now = .ok samples ∧
    (∀ ct, ct ∈ body.configured.keys ↔ ∃ x ∈ samples, Labelled x ∧ capacityLabel x = ct) ∧
    ∀ ct b, (body.configured.get? ct).bind (fun row => row.get? b) =
      (samples.filter (fun x => Labelled x ∧ capacityLabel x = ct ∧
        bucketLabel x = b)).getLast?.map LabelledSample.value

theorem mem_matrixCells (body : FinOpsSnapshot) (cell : MatrixCell) :
    cell ∈ matrixCells body ↔ ∃ ct ∈ body.capacityTypes, ∃ b ∈ body.buckets,
      cell = ⟨ct, b, cellValue body ct b, ct = "Spot" && b = "pinned" && 0 < cellValue body ct b⟩ := by
  simp only [matrixCells, List.mem_flatMap, List.mem_map, eq_comm]

/-- The one flag there can be, and when there is one. -/
theorem mem_detectRedFlags (configured : OrderedMap String Counts) (flag : FinOpsRedFlag) :
    flag ∈ detectRedFlags configured ↔
      ∃ v, ((configured.get? "Spot").bind (fun row => row.get? "pinned")) = some v ∧ 0 < v ∧
        flag = ⟨"danger", "Spot", "pinned", v, redFlagMessage⟩ := by
  have hirrefl : ¬ (0 : ExtRat) < 0 := by decide
  unfold detectRedFlags
  cases hspot : configured.get? "Spot" with
  | none => simp
  | some spot =>
    rw [Option.bind_some]
    dsimp only
    cases hpinned : spot.get? "pinned" with
    | none => simp [OrderedMap.getD, hpinned, hirrefl]
    | some v =>
      by_cases hv : 0 < v
      · simp [OrderedMap.getD, hpinned, hv]
      · simp [OrderedMap.getD, hpinned, hv]

/-- The cell the page draws is the cell of the fold. -/
theorem cellValue_eq (body : FinOpsSnapshot) (ct b : String) :
    cellValue body ct b =
      ((body.configured.get? ct).bind (fun row => row.get? b)).getD 0 := rfl

/-- A flagged cell is the pinned cell of the spot row, and it holds a positive count. -/
theorem flagged_cell {body : FinOpsSnapshot} {cell : MatrixCell} (hmem : cell ∈ matrixCells body)
    (hflagged : cell.flagged = true) :
    ∃ v, (body.configured.get? "Spot").bind (fun row => row.get? "pinned") = some v ∧ 0 < v ∧
      cell.value = v := by
  have hirrefl : ¬ (0 : ExtRat) < 0 := by decide
  obtain ⟨ct, -, b, -, rfl⟩ := (mem_matrixCells body cell).mp hmem
  simp only [Bool.and_eq_true, decide_eq_true_iff] at hflagged
  obtain ⟨⟨rfl, rfl⟩, hpos⟩ := hflagged
  rw [cellValue_eq] at hpos
  cases hget : (body.configured.get? "Spot").bind (fun row => row.get? "pinned") with
  | none =>
    rw [hget, Option.getD_none] at hpos
    exact absurd hpos hirrefl
  | some v =>
    rw [hget, Option.getD_some] at hpos
    refine ⟨v, rfl, hpos, ?_⟩
    show cellValue body "Spot" "pinned" = v
    rw [cellValue_eq, hget, Option.getD_some]

/-! ## The snapshot -/

/-- The fold over the matrix samples of the answers. -/
def Answers.matrix (a : Answers) : MatrixFold :=
  a.samples.foldl MatrixFold.addSample MatrixFold.empty

section Snapshot
variable (rt : Runtime) (a : Answers) (now : Int)

theorem marks_capacitySet :
    Marks (capacitySet rt a a.matrix) (fun ct => ct ∈ a.configuredByCap.keys ∨
      ct ∈ a.idleByCap.keys ∨ ct ∈ a.matrix.configured.keys) := by
  have haxes : AxesOf a.matrix := axesOf_empty.foldl a.samples
  exact ((haxes.capacity.markKeys rt 0 a.configuredByCap).markKeys rt 1 a.idleByCap).congr
    (fun ct => or_left_comm)

theorem marks_bucketSet :
    Marks (bucketSet rt a a.matrix) (fun b => (∃ ct, (a.matrix.cell? ct b).isSome) ∨
      b ∈ a.demand.keys ∨ b ∈ a.configuredByBucket.keys) := by
  have haxes : AxesOf a.matrix := axesOf_empty.foldl a.samples
  exact ((haxes.bucket.markKeys rt 2 a.demand).markKeys rt 3 a.configuredByBucket).congr
    (fun b => by tauto)

theorem mem_capacityTypes (ct : String) :
    ct ∈ (snapshot rt a now).capacityTypes ↔ ct ∈ a.configuredByCap.keys ∨
      ct ∈ a.idleByCap.keys ∨ ct ∈ a.matrix.configured.keys :=
  mem_orderCapacityTypes (marks_capacitySet rt a) rt ct

theorem mem_buckets (b : String) :
    b ∈ (snapshot rt a now).buckets ↔ (∃ ct, (a.matrix.cell? ct b).isSome) ∨
      b ∈ a.demand.keys ∨ b ∈ a.configuredByBucket.keys :=
  (orderBuckets_perm rt).mem_iff.trans ((marks_bucketSet rt a).keys_iff b)

/-- A stored cell is drawn with its value. -/
theorem stored_onGrid {ct b : String} {row : Counts} {v : ExtRat}
    (hrow : a.matrix.configured.get? ct = some row) (hv : row.get? b = some v) :
    ct ∈ (snapshot rt a now).capacityTypes ∧ b ∈ (snapshot rt a now).buckets ∧
      cellValue (snapshot rt a now) ct b = v := by
  have hct : ct ∈ a.matrix.configured.keys :=
    (a.matrix.configured.mem_keys_iff ct).mpr (by rw [hrow, Option.isSome_some])
  have hcell : a.matrix.cell? ct b = some v := by
    rw [MatrixFold.cell?, hrow, Option.bind_some, hv]
  refine ⟨(mem_capacityTypes rt a now ct).mpr (Or.inr (Or.inr hct)),
    (mem_buckets rt a now b).mpr (Or.inl ⟨ct, by rw [hcell, Option.isSome_some]⟩), ?_⟩
  show (a.matrix.cell? ct b).getD 0 = v
  rw [hcell, Option.getD_some]

/-- The known capacity types that occur come first, in their order. -/
theorem capacityTypes_order :
    ∃ extras, (snapshot rt a now).capacityTypes =
        capacityTypeOrder.filter (fun c => c ∈ (snapshot rt a now).capacityTypes) ++ extras ∧
      extras.Pairwise (· < ·) ∧ ∀ c ∈ extras, c ∉ capacityTypeOrder := by
  have hmarks := marks_capacitySet rt a
  obtain ⟨extras, heq, hasc, hmem⟩ := orderCapacityTypes_eq hmarks rt
  have hfilter : capacityTypeOrder.filter (fun c => (capacitySet rt a a.matrix).getD c false) =
      capacityTypeOrder.filter (fun c => c ∈ (snapshot rt a now).capacityTypes) := by
    apply List.filter_congr
    intro c _
    rw [Bool.eq_iff_iff, decide_eq_true_iff, mem_capacityTypes, hmarks.getD_iff]
  refine ⟨extras, ?_, hasc, fun c hc => ((hmem c).mp hc).2⟩
  rw [← hfilter]
  exact heq

theorem snapshot_charted : Charted (snapshot rt a now) := by
  constructor
  case capacity_mem => exact mem_capacityTypes rt a now
  case capacity_nodup => exact nodup_orderCapacityTypes (marks_capacitySet rt a) rt
  case capacity_order => exact capacityTypes_order rt a now
  case bucket_mem =>
    intro b
    rw [mem_buckets]
    exact or_congr_left (a.matrix.exists_cell_iff b)
  case bucket_nodup =>
    exact (orderBuckets_perm rt).nodup_iff.mpr (OrderedMap.keys_nodup _)
  case on_grid =>
    intro ct row b v hrow hv
    obtain ⟨hct, hb, hvalue⟩ := stored_onGrid rt a now hrow hv
    exact ⟨_, (mem_matrixCells _ _).mpr ⟨ct, hct, b, hb, rfl⟩, rfl, rfl, hvalue⟩
  case redFlags_iff =>
    constructor
    · intro hne
      obtain ⟨flag, hflag⟩ := List.exists_mem_of_ne_nil _ hne
      obtain ⟨v, hv, hpos, -⟩ := (mem_detectRedFlags a.matrix.configured flag).mp hflag
      obtain ⟨row, hrow, hpinned⟩ := Option.bind_eq_some_iff.mp hv
      obtain ⟨hct, hb, hvalue⟩ := stored_onGrid rt a now hrow hpinned
      refine ⟨_, (mem_matrixCells _ _).mpr ⟨"Spot", hct, "pinned", hb, rfl⟩, ?_⟩
      simp [hvalue, hpos]
    · rintro ⟨cell, hmem, hflagged⟩
      obtain ⟨v, hv, hpos, -⟩ := flagged_cell hmem hflagged
      exact List.ne_nil_of_mem
        ((mem_detectRedFlags a.matrix.configured _).mpr ⟨v, hv, hpos, rfl⟩)
  case redFlags_count =>
    intro flag hflag cell hmem hflagged
    obtain ⟨v, hv, -, rfl⟩ := (mem_detectRedFlags a.matrix.configured flag).mp hflag
    obtain ⟨w, hw, -, hvalue⟩ := flagged_cell hmem hflagged
    have hvw : some v = some w := hv.symm.trans hw
    rw [hvalue]
    exact Option.some.inj hvw

end Snapshot

theorem fromAnswers_snapshot {s : Server} {now : Int} {a : Answers}
    (h : finopsQueries s now = .ok a) : FromAnswers s now (snapshot s.rt a now) := by
  simp only [finopsQueries, bind_eq_ok_iff, orBadGateway_eq_ok_iff, pure_eq_ok_iff] at h
  obtain ⟨cap, hcap, idle, hidle, samples, hsamples, demand, hdemand, bucket, hbucket, _, -, _, -,
    rfl⟩ := h
  refine ⟨hcap, hidle, hdemand, hbucket, samples, hsamples, ?_, ?_⟩
  · intro ct
    refine (mem_keys_foldl_addSample MatrixFold.empty samples ct).trans ?_
    rw [MatrixFold.empty, OrderedMap.keys_empty]
    simp only [List.not_mem_nil, false_or]
  · intro ct b
    refine (cell?_foldl_addSample MatrixFold.empty samples ct b).trans ?_
    rw [MatrixFold.empty, MatrixFold.cell?, OrderedMap.get?_empty, Option.bind_none, Option.or_none]

/-- Whatever Prometheus answers, a snapshot that is returned charts all of it. -/
theorem finopsHandler_charted {s : Server} {now : Int} {body : FinOpsSnapshot}
    (h : finopsHandler s now = .ok body) : FromAnswers s now body ∧ Charted body := by
  obtain ⟨_, _, hqueries⟩ := bind_eq_ok_iff.mp h
  obtain ⟨answers, hanswers, hbody⟩ := bind_eq_ok_iff.mp hqueries
  rw [← pure_eq_ok_iff.mp hbody]
  exact ⟨fromAnswers_snapshot hanswers, snapshot_charted s.rt answers now⟩

/-- Every query is answered with one sample, of two machines, that names both labels. -/
def unconditionalApi : Api where
  query _ _ := .ok (.vector [⟨(OrderedMap.empty.set "capacity_type" "Spot").set
    "interruption_penalty_bucket" "pinned", .fin 2⟩])
  queryRange _ _ := .error ""

theorem finopsHandler_charted_spot :
    ∃ body, finopsHandler { Server.unwired with prom := ⟨some unconditionalApi⟩ } 0 = .ok body ∧
      FromAnswers { Server.unwired with prom := ⟨some unconditionalApi⟩ } 0 body ∧
      Charted body := by
  obtain ⟨body, hbody⟩ : ∃ body,
      finopsHandler { Server.unwired with prom := ⟨some unconditionalApi⟩ } 0 = .ok body := by
    refine ⟨_, rfl⟩
  exact ⟨body, hbody, finopsHandler_charted hbody⟩

end BigfleetDashboard.FinOps
