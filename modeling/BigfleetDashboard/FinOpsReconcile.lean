import BigfleetDashboard.ConditionalSums
import BigfleetDashboard.FinOps
import Mathlib.Algebra.Order.Field.Basic

/-!
# The FinOps snapshot reconciles

Prometheus answers `sum by (L)` with one sample for each tuple of values of the
labels `L` among the series, an absent label counting as an empty one. When the
queries of the snapshot are answered from one set of inventory series, the cells
of the penalty matrix add up to at most the totals shown beside them, and the
fractions are fractions.
-/
namespace BigfleetDashboard.FinOps
open Go PromClient Handlers

/-! ## Aggregation by labels -/

/-- The value of a label of a sample, empty if absent. -/
def sampleLabel (x : Sample) (l : String) : String := x.metric.getD l ""

/-- `vec` is the answer to `sum by (L)` over series with labels and weights. -/
structure SumBy {σ : Type} (label : σ → String → String) (weight : σ → ℚ) (L : List String)
    (series : List σ) (vec : List Sample) : Prop where
  distinct : (vec.map (fun x => L.map (sampleLabel x))).Nodup
  covers : ∀ tuple, tuple ∈ vec.map (fun x => L.map (sampleLabel x)) ↔
    ∃ s ∈ series, L.map (label s) = tuple
  labels : ∀ x ∈ vec, ∀ l v, x.metric.get? l = some v → l ∈ L ∧ v ≠ ""
  value : ∀ x ∈ vec,
    x.value = .fin (sumWhere weight (fun s => L.map (label s) = L.map (sampleLabel x)) series)

/-- A sum whose terms are given by the keys. -/
theorem total_entries {ν : Type} {m : OrderedMap String ν} {es : List (String × ν)}
    (hp : es.Perm m.entries) {g : ν → ExtRat} {f : String → ℚ}
    (h : ∀ k v, m.get? k = some v → g v = .fin (f k)) :
    ExtRat.total (es.map (fun e => g e.2)) = .fin ((m.keys.map f).sum) := by
  have hmap : es.map (fun e => g e.2) = (es.map (fun e => f e.1)).map ExtRat.fin := by
    rw [List.map_map]
    apply List.map_congr_left
    intro e he
    exact h e.1 e.2 ((m.get?_eq_some_iff e.1 e.2).mpr (hp.mem_iff.mp he))
  have hkeys : m.keys.map f = m.entries.map (fun e => f e.1) := by
    rw [OrderedMap.keys, List.map_map]
    rfl
  rw [hmap, ExtRat.total_fin, hkeys, (hp.map _).sum_eq]

namespace SumBy
variable {σ : Type} {label : σ → String → String} {weight : σ → ℚ} {series : List σ}
  {vec : List Sample}

/-- A label value of the answer is a value of the series. -/
theorem exists_series {l k : String} (h : SumBy label weight [l] series vec) :
    (∃ x ∈ vec, x.metric.get? l = some k) ↔ k ≠ "" ∧ ∃ s ∈ series, label s l = k := by
  have hcov := h.covers [k]
  simp only [List.map_cons, List.map_nil, List.mem_map, List.cons.injEq, and_true] at hcov
  constructor
  · rintro ⟨x, hx, hk⟩
    refine ⟨(h.labels x hx l k hk).2, hcov.mp ⟨x, hx, ?_⟩⟩
    rw [sampleLabel, OrderedMap.getD, hk, Option.getD_some]
  · rintro ⟨hne, hs⟩
    obtain ⟨x, hx, hk⟩ := hcov.mpr hs
    refine ⟨x, hx, ?_⟩
    rw [sampleLabel, OrderedMap.getD] at hk
    cases hget : x.metric.get? l with
    | none =>
      rw [hget, Option.getD_none] at hk
      exact absurd hk.symm hne
    | some v => rw [hget, Option.getD_some] at hk; rw [hk]

/-- The map of a query by one label holds the sum of every non-empty label value. -/
theorem get?_byLabel {l : String} (h : SumBy label weight [l] series vec) (k : String) :
    (vec.foldl (storeByLabel l) OrderedMap.empty).get? k =
      if k ≠ "" ∧ ∃ s ∈ series, label s l = k then
        some (.fin (sumWhere weight (fun s => label s l = k) series)) else none := by
  have hval : ∀ x ∈ vec, (x.value.isNaN || x.value.isInf) = false := by
    intro x hx
    rw [h.value x hx]
    rfl
  have hfilter : vec.filter (fun s => (if s.value.isNaN || s.value.isInf then none
        else s.metric.get? l) = some k) = vec.filter (fun s => s.metric.get? l = some k) := by
    apply List.filter_congr
    intro x hx
    simp only [hval x hx, Bool.false_eq_true, if_false]
  rw [storeByLabel_eq_store, OrderedMap.get?_foldl_store, OrderedMap.get?_empty, Option.or_none,
    hfilter]
  cases hlast : (vec.filter (fun s => s.metric.get? l = some k)).getLast? with
  | none =>
    rw [List.getLast?_eq_none_iff] at hlast
    have hno : ¬ ∃ x ∈ vec, x.metric.get? l = some k := by
      rintro ⟨x, hx, hk⟩
      have hmem : x ∈ vec.filter (fun s => s.metric.get? l = some k) :=
        List.mem_filter.mpr ⟨hx, by simpa using hk⟩
      rw [hlast] at hmem
      simp at hmem
    rw [h.exists_series] at hno
    rw [if_neg hno, Option.map_none]
  | some x =>
    have hx := List.mem_filter.mp (List.mem_of_getLast? hlast)
    have hk : x.metric.get? l = some k := by simpa using hx.2
    have hlabel : sampleLabel x l = k := by
      rw [sampleLabel, OrderedMap.getD, hk, Option.getD_some]
    rw [if_pos (h.exists_series.mp ⟨x, hx.1, hk⟩), Option.map_some, h.value x hx.1]
    simp [hlabel]

/-- Reading the map, with 0 for a value no series has. -/
theorem getD_byLabel {l : String} (h : SumBy label weight [l] series vec) (k : String) :
    (vec.foldl (storeByLabel l) OrderedMap.empty).getD k 0 =
      .fin (sumWhere weight (fun s => k ≠ "" ∧ label s l = k) series) := by
  rw [OrderedMap.getD, h.get?_byLabel]
  split_ifs with hk
  · rw [Option.getD_some]
    congr 1
    exact sumWhere_congr (fun s _ => by simp [hk.1])
  · rw [Option.getD_none, sumWhere_eq_zero, ExtRat.zero_def]
    rintro s hs ⟨hne, hsk⟩
    exact hk ⟨hne, s, hs, hsk⟩

/-- The values of the map add up to the series with a non-empty label. -/
theorem sumValues_byLabel {l : String} (h : SumBy label weight [l] series vec) (rt : Runtime)
    (loop : ℕ) : sumValues rt loop (vec.foldl (storeByLabel l) OrderedMap.empty) =
      .fin (sumWhere weight (fun s => label s l ≠ "") series) := by
  set m := vec.foldl (storeByLabel l) OrderedMap.empty with hm
  have hget := h.get?_byLabel
  have hentry : ∀ k v, m.get? k = some v →
      id v = .fin (sumWhere weight (fun s => True ∧ label s l = k) series) := by
    intro k v hv
    rw [hget] at hv
    split_ifs at hv with hk
    simpa using (Option.some.inj hv).symm
  have hkeys : ∀ s ∈ series, (True ∧ label s l ∈ m.keys ↔ label s l ≠ "") := by
    intro s hs
    rw [true_and, OrderedMap.mem_keys_iff, hget]
    by_cases hne : label s l = ""
    · simp [hne]
    · rw [if_pos ⟨hne, s, hs, rfl⟩]
      simp [hne]
  calc sumValues rt loop m = ExtRat.total ((rt.entries loop m).map (fun e => id e.2)) := rfl
    _ = .fin ((m.keys.map (fun k =>
          sumWhere weight (fun s => True ∧ label s l = k) series)).sum) :=
        total_entries (rt.mapOrder_perm loop m.entries) hentry
    _ = .fin (sumWhere weight (fun s => True ∧ label s l ∈ m.keys) series) := by
        rw [sum_map_sumWhere weight _ (fun s => label s l) m.keys m.keys_nodup]
    _ = .fin (sumWhere weight (fun s => label s l ≠ "") series) := by
        rw [sumWhere_congr hkeys]

end SumBy

/-! ## The penalty matrix -/

/-- The matrix folded from the answer to the two-label query. -/
def matrixOf (vec : List Sample) : MatrixFold :=
  ((vec.filter (fun x => x.value.IsFinite)).map toLabelled).foldl MatrixFold.addSample
    MatrixFold.empty

def matrixLabels : List String := ["capacity_type", "interruption_penalty_bucket"]

/-- The sum of one row of a matrix. -/
def rowTotal (configured : OrderedMap String Counts) (ct : String) : ExtRat :=
  ((configured.get? ct).map (fun row => ExtRat.total row.values)).getD 0

/-- The sum of one column of a matrix. -/
def columnTotal (configured : OrderedMap String Counts) (b : String) : ExtRat :=
  ExtRat.total (configured.entries.map (fun e => e.2.getD b 0))

theorem capacityLabel_toLabelled (x : Sample) :
    capacityLabel (toLabelled x) = sampleLabel x "capacity_type" := by
  rw [capacityLabel, OrderedMap.getD, get?_toLabelled, sampleLabel, OrderedMap.getD]

theorem bucketLabel_toLabelled (x : Sample) :
    bucketLabel (toLabelled x) = sampleLabel x "interruption_penalty_bucket" := by
  rw [bucketLabel, OrderedMap.getD, get?_toLabelled, sampleLabel, OrderedMap.getD]

namespace SumBy
variable {σ : Type} {label : σ → String → String} {weight : σ → ℚ} {series : List σ}
  {vec : List Sample}

/-- The samples of the answer are the pairs of label values among the series. -/
theorem exists_sample (h : SumBy label weight matrixLabels series vec) (ct b : String) :
    (∃ s ∈ (vec.filter (fun x => x.value.IsFinite)).map toLabelled,
      capacityLabel s = ct ∧ bucketLabel s = b) ↔
    ∃ s ∈ series, label s "capacity_type" = ct ∧ label s "interruption_penalty_bucket" = b := by
  have hcov := h.covers [ct, b]
  simp only [matrixLabels, List.map_cons, List.map_nil, List.mem_map, List.cons.injEq,
    and_true] at hcov
  rw [← hcov]
  constructor
  · rintro ⟨s, hs, hct, hb⟩
    obtain ⟨x, hx, rfl⟩ := List.mem_map.mp hs
    rw [capacityLabel_toLabelled] at hct
    rw [bucketLabel_toLabelled] at hb
    exact ⟨x, List.mem_of_mem_filter hx, hct, hb⟩
  · rintro ⟨x, hx, hct, hb⟩
    have hfin : x.value.IsFinite := by
      rw [h.value x hx]
      exact ExtRat.isFinite_fin _
    refine ⟨toLabelled x, List.mem_map.mpr ⟨x, List.mem_filter.mpr ⟨hx, by simpa using hfin⟩, rfl⟩,
      ?_, ?_⟩
    · rw [capacityLabel_toLabelled, hct]
    · rw [bucketLabel_toLabelled, hb]

/-- A cell is the sum of the series with its two labels. -/
theorem cell?_matrix (h : SumBy label weight matrixLabels series vec) (ct b : String) :
    (matrixOf vec).cell? ct b =
      if (ct ≠ "" ∧ b ≠ "") ∧ ∃ s ∈ series, label s "capacity_type" = ct ∧
          label s "interruption_penalty_bucket" = b then
        some (.fin (sumWhere weight (fun s => label s "capacity_type" = ct ∧
          label s "interruption_penalty_bucket" = b) series)) else none := by
  have hempty : MatrixFold.empty.cell? ct b = none := rfl
  rw [matrixOf, cell?_foldl_addSample, hempty, Option.or_none]
  set samples := (vec.filter (fun x => x.value.IsFinite)).map toLabelled with hsamples
  cases hlast : (samples.filter (fun s => Labelled s ∧ capacityLabel s = ct ∧
      bucketLabel s = b)).getLast? with
  | none =>
    rw [List.getLast?_eq_none_iff] at hlast
    rw [if_neg, Option.map_none]
    rintro ⟨hne, hs⟩
    obtain ⟨s, hs, hct, hb⟩ := (h.exists_sample ct b).mpr hs
    have hmem : s ∈ samples.filter (fun s => Labelled s ∧ capacityLabel s = ct ∧
        bucketLabel s = b) := by
      refine List.mem_filter.mpr ⟨hs, ?_⟩
      simp [Labelled, hct, hb, hne.1, hne.2]
    rw [hlast] at hmem
    simp at hmem
  | some s =>
    have hs := List.mem_filter.mp (List.mem_of_getLast? hlast)
    have hprop : Labelled s ∧ capacityLabel s = ct ∧ bucketLabel s = b := by simpa using hs.2
    obtain ⟨⟨hne, hne'⟩, hct, hb⟩ := hprop
    obtain ⟨x, hx, rfl⟩ := List.mem_map.mp hs.1
    have hsome := (h.exists_sample ct b).mp ⟨_, hs.1, hct, hb⟩
    rw [hct] at hne
    rw [hb] at hne'
    rw [capacityLabel_toLabelled] at hct
    rw [bucketLabel_toLabelled] at hb
    rw [if_pos ⟨⟨hne, hne'⟩, hsome⟩, Option.map_some]
    congr 1
    change x.value = _
    rw [h.value x (List.mem_of_mem_filter hx)]
    simp [matrixLabels, hct, hb]

theorem mem_keys_matrix (h : SumBy label weight matrixLabels series vec) (ct : String) :
    ct ∈ (matrixOf vec).configured.keys ↔
      ct ≠ "" ∧ ∃ s ∈ series, label s "capacity_type" = ct ∧
        label s "interruption_penalty_bucket" ≠ "" := by
  have hempty : ct ∉ MatrixFold.empty.configured.keys := by simp [MatrixFold.empty]
  rw [matrixOf, mem_keys_foldl_addSample]
  constructor
  · rintro (habs | ⟨s, hs, hlabelled, hct⟩)
    · exact absurd habs hempty
    · obtain ⟨t, ht, htct, htb⟩ := (h.exists_sample ct (bucketLabel s)).mp ⟨s, hs, hct, rfl⟩
      exact ⟨hct ▸ hlabelled.1, t, ht, htct, htb ▸ hlabelled.2⟩
  · rintro ⟨hne, t, ht, htct, htb⟩
    obtain ⟨s, hs, hct, hb⟩ := (h.exists_sample ct _).mpr ⟨t, ht, htct, rfl⟩
    exact Or.inr ⟨s, hs, ⟨hct ▸ hne, hb ▸ htb⟩, hct⟩

/-- A row adds up to the series of its capacity type that have a bucket. -/
theorem rowTotal_matrix (h : SumBy label weight matrixLabels series vec) (ct : String) :
    rowTotal (matrixOf vec).configured ct =
      .fin (sumWhere weight (fun s => ct ≠ "" ∧ label s "capacity_type" = ct ∧
        label s "interruption_penalty_bucket" ≠ "") series) := by
  cases hrow : (matrixOf vec).configured.get? ct with
  | none =>
    have hkeys := ((matrixOf vec).configured.get?_eq_none_iff ct).mp hrow
    rw [rowTotal, hrow, Option.map_none, Option.getD_none, sumWhere_eq_zero, ExtRat.zero_def]
    rintro s hs ⟨hne, hct, hb⟩
    exact hkeys ((h.mem_keys_matrix ct).mpr ⟨hne, s, hs, hct, hb⟩)
  | some row =>
    have hkeys := ((matrixOf vec).configured.mem_keys_iff ct).mpr (by rw [hrow, Option.isSome_some])
    have hne : ct ≠ "" := ((h.mem_keys_matrix ct).mp hkeys).1
    have hcell : ∀ b, row.get? b = (matrixOf vec).cell? ct b := by
      intro b
      rw [MatrixFold.cell?, hrow, Option.bind_some]
    have hentry : ∀ b v, row.get? b = some v → id v = .fin (sumWhere weight (fun s =>
        label s "capacity_type" = ct ∧ label s "interruption_penalty_bucket" = b) series) := by
      intro b v hv
      rw [hcell, h.cell?_matrix] at hv
      split_ifs at hv with hb
      exact (Option.some.inj hv).symm
    have hmem : ∀ s ∈ series, (label s "capacity_type" = ct ∧
        label s "interruption_penalty_bucket" ∈ row.keys ↔
        ct ≠ "" ∧ label s "capacity_type" = ct ∧ label s "interruption_penalty_bucket" ≠ "") := by
      intro s hs
      rw [OrderedMap.mem_keys_iff, hcell, h.cell?_matrix]
      constructor
      · rintro ⟨hct, hsome⟩
        split_ifs at hsome with hb
        · exact ⟨hne, hct, hb.1.2⟩
        · simp at hsome
      · rintro ⟨-, hct, hb⟩
        rw [if_pos ⟨⟨hne, hb⟩, s, hs, hct, rfl⟩]
        exact ⟨hct, rfl⟩
    rw [rowTotal, hrow, Option.map_some, Option.getD_some]
    calc ExtRat.total row.values = ExtRat.total (row.entries.map (fun e => id e.2)) := rfl
      _ = .fin ((row.keys.map (fun b => sumWhere weight (fun s =>
            label s "capacity_type" = ct ∧
              label s "interruption_penalty_bucket" = b) series)).sum) :=
          total_entries (List.Perm.refl _) hentry
      _ = .fin (sumWhere weight (fun s => label s "capacity_type" = ct ∧
            label s "interruption_penalty_bucket" ∈ row.keys) series) := by
          rw [sum_map_sumWhere weight _ (fun s => label s "interruption_penalty_bucket") row.keys
            row.keys_nodup]
      _ = _ := by rw [sumWhere_congr hmem]

/-- A column adds up to the series of its bucket that have a capacity type, in
whatever order the rows are visited. -/
theorem columnTotal_matrix (h : SumBy label weight matrixLabels series vec) (b : String)
    {es : List (String × Counts)} (hp : es.Perm (matrixOf vec).configured.entries) :
    ExtRat.total (es.map (fun e => e.2.getD b 0)) =
      .fin (sumWhere weight (fun s => (b ≠ "" ∧ label s "interruption_penalty_bucket" = b) ∧
        label s "capacity_type" ≠ "") series) := by
  have hentry : ∀ ct row, (matrixOf vec).configured.get? ct = some row → row.getD b 0 =
      .fin (sumWhere weight (fun s => (b ≠ "" ∧ label s "interruption_penalty_bucket" = b) ∧
        label s "capacity_type" = ct) series) := by
    intro ct row hrow
    have hkeys := ((matrixOf vec).configured.mem_keys_iff ct).mpr (by rw [hrow, Option.isSome_some])
    have hne : ct ≠ "" := ((h.mem_keys_matrix ct).mp hkeys).1
    have hcell : row.get? b = (matrixOf vec).cell? ct b := by
      rw [MatrixFold.cell?, hrow, Option.bind_some]
    rw [OrderedMap.getD, hcell, h.cell?_matrix]
    split_ifs with hb
    · rw [Option.getD_some]
      congr 1
      exact sumWhere_congr (fun s _ => by simp [hb.1.2, and_comm])
    · rw [Option.getD_none, sumWhere_eq_zero, ExtRat.zero_def]
      rintro s hs ⟨⟨hbne, hsb⟩, hct⟩
      exact hb ⟨⟨hne, hbne⟩, s, hs, hct, hsb⟩
  have hmem : ∀ s ∈ series, ((b ≠ "" ∧ label s "interruption_penalty_bucket" = b) ∧
      label s "capacity_type" ∈ (matrixOf vec).configured.keys ↔
      (b ≠ "" ∧ label s "interruption_penalty_bucket" = b) ∧ label s "capacity_type" ≠ "") := by
    intro s hs
    rw [and_congr_right_iff]
    rintro ⟨hne, hb⟩
    rw [h.mem_keys_matrix]
    exact ⟨fun hk => hk.1, fun hct => ⟨hct, s, hs, rfl, by rw [hb]; exact hne⟩⟩
  rw [total_entries hp hentry, sum_map_sumWhere weight _ (fun s => label s "capacity_type") _
    (OrderedMap.keys_nodup _), sumWhere_congr hmem]

end SumBy

/-! ## The inventory -/

inductive InventoryState
  | configured
  | idle
  deriving DecidableEq

/-- A series of the inventory gauge; an empty label is an absent one. -/
structure InventorySeries where
  capacityType : String
  bucket : String
  state : InventoryState
  value : ℚ
  nonneg : 0 ≤ value

def InventorySeries.label (s : InventorySeries) (l : String) : String :=
  if l = "capacity_type" then s.capacityType
  else if l = "interruption_penalty_bucket" then s.bucket
  else ""

/-- The series a selector on the state leaves. -/
def inState (state : InventoryState) (inv : List InventorySeries) : List InventorySeries :=
  inv.filter (fun s => s.state = state)

/-- Prometheus answers a query with `sum by (L)` over the series in a state. -/
def SumsInventory (api : Api) (now : Int) (inv : List InventorySeries) (q : String)
    (L : List String) (state : InventoryState) (vec : List Sample) : Prop :=
  api.query q now = .ok (.vector vec) ∧
    SumBy InventorySeries.label InventorySeries.value L (inState state inv) vec

/-- The four inventory queries are answered from one set of series; the demand and
action queries are answered. -/
structure AnswersFrom (api : Api) (now : Int) (inv : List InventorySeries) : Prop where
  configuredByCapacity : ∃ vec, SumsInventory api now inv queryFinopsConfiguredByCapacity
    ["capacity_type"] .configured vec
  idleByCapacity : ∃ vec, SumsInventory api now inv queryFinopsIdleByCapacity
    ["capacity_type"] .idle vec
  matrix : ∃ vec, SumsInventory api now inv queryFinopsConfiguredByCapBucket
    matrixLabels .configured vec
  configuredByBucket : ∃ vec, SumsInventory api now inv queryFinopsConfiguredByBucket
    ["interruption_penalty_bucket"] .configured vec
  demandByBucket : ∃ vec, api.query queryFinopsDemandByBucket now = .ok (.vector vec)
  demandTotal : ∃ vec, api.query queryFinopsDemandTotal now = .ok (.vector vec)
  actionRates : ∃ vec, api.query queryFinopsActionRates now = .ok (.vector vec)

/-- The cells add up to at most the totals beside them, with equality when no series
lacks the other label, and the fractions are fractions. -/
structure Reconciled (inv : List InventorySeries) (body : FinOpsSnapshot) : Prop where
  row_le : ∀ ct, rowTotal body.configured ct ≤ body.configuredByCapacityType.getD ct 0
  row_eq : ∀ ct, (∀ s ∈ inv, s.state = .configured → s.capacityType = ct → s.bucket ≠ "") →
    rowTotal body.configured ct = body.configuredByCapacityType.getD ct 0
  column_le : ∀ b, columnTotal body.configured b ≤ body.configuredByBucket.getD b 0
  column_eq : ∀ b, (∀ s ∈ inv, s.state = .configured → s.bucket = b → s.capacityType ≠ "") →
    columnTotal body.configured b = body.configuredByBucket.getD b 0
  spot : 0 ≤ body.totals.spotConfiguredFraction ∧ body.totals.spotConfiguredFraction ≤ 1
  pinned : 0 ≤ body.totals.pinnedConfiguredFraction ∧ body.totals.pinnedConfiguredFraction ≤ 1
  none_configured : (∀ s ∈ inv, s.state = .configured → s.value = 0) →
    body.totals.spotConfiguredFraction = 0 ∧ body.totals.pinnedConfiguredFraction = 0

/-- A part of a nonnegative total is a fraction of it. -/
theorem fraction_mem_unit {a b : ℚ} (ha : 0 ≤ a) (hab : a ≤ b) :
    0 ≤ fraction (.fin a) (.fin b) ∧ fraction (.fin a) (.fin b) ≤ 1 := by
  unfold fraction
  by_cases hb : b = 0
  · rw [if_pos (by rw [hb]; rfl)]
    exact ⟨by decide, by decide⟩
  · have hne : ¬ (ExtRat.fin b = 0) := fun h => hb (ExtRat.fin.inj h)
    have hpos : 0 < b := lt_of_le_of_ne (ha.trans hab) (Ne.symm hb)
    rw [if_neg hne, ExtRat.fin_div_fin a hb]
    exact ⟨div_nonneg ha hpos.le, (div_le_one hpos).mpr hab⟩

theorem fraction_zero (x : ExtRat) : fraction x (.fin 0) = 0 := if_pos rfl

theorem label_capacity (s : InventorySeries) : s.label "capacity_type" = s.capacityType := rfl

theorem label_bucket (s : InventorySeries) :
    s.label "interruption_penalty_bucket" = s.bucket := by
  simp [InventorySeries.label]

theorem forall_inState {inv : List InventorySeries} {p : InventorySeries → Prop} :
    (∀ s ∈ inState .configured inv, p s) ↔ ∀ s ∈ inv, s.state = .configured → p s := by
  simp [inState]

/-- The numbers of a body as sums over the configured series of an inventory. -/
structure SumsOf (inv : List InventorySeries) (body : FinOpsSnapshot) : Prop where
  row : ∀ ct, rowTotal body.configured ct = .fin (sumWhere InventorySeries.value
    (fun s => ct ≠ "" ∧ s.capacityType = ct ∧ s.bucket ≠ "") (inState .configured inv))
  capacity : ∀ ct, body.configuredByCapacityType.getD ct 0 = .fin (sumWhere InventorySeries.value
    (fun s => ct ≠ "" ∧ s.capacityType = ct) (inState .configured inv))
  column : ∀ b, columnTotal body.configured b = .fin (sumWhere InventorySeries.value
    (fun s => (b ≠ "" ∧ s.bucket = b) ∧ s.capacityType ≠ "") (inState .configured inv))
  bucket : ∀ b, body.configuredByBucket.getD b 0 = .fin (sumWhere InventorySeries.value
    (fun s => b ≠ "" ∧ s.bucket = b) (inState .configured inv))
  spot : body.totals.spotConfiguredFraction = fraction
    (.fin (sumWhere InventorySeries.value
      (fun s => "Spot" ≠ "" ∧ s.capacityType = "Spot") (inState .configured inv)))
    (.fin (sumWhere InventorySeries.value
      (fun s => s.capacityType ≠ "") (inState .configured inv)))
  pinned : body.totals.pinnedConfiguredFraction = fraction
    (.fin (sumWhere InventorySeries.value
      (fun s => ("pinned" ≠ "" ∧ s.bucket = "pinned") ∧ s.capacityType ≠ "")
      (inState .configured inv)))
    (.fin (sumWhere InventorySeries.value
      (fun s => s.capacityType ≠ "") (inState .configured inv)))

/-- The snapshot of answers that come from one inventory shows its sums. -/
theorem snapshot_sumsOf {inv : List InventorySeries} {cap cells bucket : List Sample}
    (hcap : SumBy InventorySeries.label InventorySeries.value ["capacity_type"]
      (inState .configured inv) cap)
    (hcells : SumBy InventorySeries.label InventorySeries.value matrixLabels
      (inState .configured inv) cells)
    (hbucket : SumBy InventorySeries.label InventorySeries.value ["interruption_penalty_bucket"]
      (inState .configured inv) bucket)
    (rt : Runtime) (now : Int) (a : Answers)
    (hacap : a.configuredByCap = cap.foldl (storeByLabel "capacity_type") OrderedMap.empty)
    (hacells : a.samples = (cells.filter (fun x => x.value.IsFinite)).map toLabelled)
    (habucket : a.configuredByBucket =
      bucket.foldl (storeByLabel "interruption_penalty_bucket") OrderedMap.empty) :
    SumsOf inv (snapshot rt a now) := by
  have hm : a.samples.foldl MatrixFold.addSample MatrixFold.empty = matrixOf cells := by
    rw [hacells, matrixOf]
  have hconfigured : (snapshot rt a now).configured = (matrixOf cells).configured := by
    rw [← hm]
    rfl
  have htotal : sumValues rt 4 a.configuredByCap =
      .fin (sumWhere InventorySeries.value (fun s => s.capacityType ≠ "")
        (inState .configured inv)) := by
    rw [hacap, hcap.sumValues_byLabel]
    rfl
  have hcapacity : ∀ ct, a.configuredByCap.getD ct 0 =
      .fin (sumWhere InventorySeries.value (fun s => ct ≠ "" ∧ s.capacityType = ct)
        (inState .configured inv)) := by
    intro ct
    rw [hacap, hcap.getD_byLabel]
    rfl
  constructor
  case row =>
    intro ct
    rw [hconfigured, hcells.rowTotal_matrix]
    simp only [label_capacity, label_bucket]
  case capacity => exact hcapacity
  case column =>
    intro b
    rw [hconfigured, columnTotal, hcells.columnTotal_matrix b (List.Perm.refl _)]
    simp only [label_capacity, label_bucket]
  case bucket =>
    intro b
    show a.configuredByBucket.getD b 0 = _
    rw [habucket, hbucket.getD_byLabel]
    simp only [label_bucket]
  case spot =>
    show fraction (a.configuredByCap.getD "Spot" 0) (sumValues rt 4 a.configuredByCap) = _
    rw [htotal, hcapacity]
  case pinned =>
    have hpinned := hcells.columnTotal_matrix "pinned" (rt.mapOrder_perm 5 _)
    simp only [label_capacity, label_bucket] at hpinned
    rw [← htotal, ← hpinned, ← hm]
    rfl

/-- Sums over one inventory of nonnegative series reconcile. -/
theorem SumsOf.reconciled {inv : List InventorySeries} {body : FinOpsSnapshot}
    (h : SumsOf inv body) : Reconciled inv body := by
  have hw : ∀ s ∈ inState .configured inv, 0 ≤ s.value := fun s _ => s.nonneg
  constructor
  case row_le =>
    intro ct
    rw [h.row, h.capacity, ExtRat.fin_le_fin]
    exact sumWhere_mono hw (fun s _ hs => ⟨hs.1, hs.2.1⟩)
  case row_eq =>
    intro ct hall
    rw [h.row, h.capacity]
    congr 1
    apply sumWhere_congr
    intro s hs
    have hbucket := forall_inState.mpr hall s hs
    exact ⟨fun h => ⟨h.1, h.2.1⟩, fun h => ⟨h.1, h.2, hbucket h.2⟩⟩
  case column_le =>
    intro b
    rw [h.column, h.bucket, ExtRat.fin_le_fin]
    exact sumWhere_mono hw (fun s _ hs => hs.1)
  case column_eq =>
    intro b hall
    rw [h.column, h.bucket]
    congr 1
    apply sumWhere_congr
    intro s hs
    have hcapacity := forall_inState.mpr hall s hs
    exact ⟨fun h => h.1, fun h => ⟨h, hcapacity h.2⟩⟩
  case spot =>
    rw [h.spot]
    refine fraction_mem_unit (sumWhere_nonneg hw) (sumWhere_mono hw ?_)
    intro s _ hs
    rw [hs.2]
    decide
  case pinned =>
    rw [h.pinned]
    exact fraction_mem_unit (sumWhere_nonneg hw) (sumWhere_mono hw (fun s _ hs => hs.2))
  case none_configured =>
    intro hall
    have hzero : sumWhere InventorySeries.value (fun s => s.capacityType ≠ "")
        (inState .configured inv) = 0 := by
      apply List.sum_eq_zero
      intro v hv
      obtain ⟨s, hs, rfl⟩ := List.mem_map.mp hv
      exact forall_inState.mpr hall s (List.mem_of_mem_filter hs)
    rw [h.spot, h.pinned, hzero]
    exact ⟨fraction_zero _, fraction_zero _⟩

/-- Whatever the inventory, the snapshot is returned, shows its sums and reconciles. -/
theorem finopsHandler_reconciled {s : Server} {api : Api} (hapi : s.prom.api = some api) {now : Int}
    {inv : List InventorySeries} (h : AnswersFrom api now inv) :
    ∃ body, finopsHandler s now = .ok body ∧ SumsOf inv body ∧ Reconciled inv body := by
  obtain ⟨cap, hcap, hcapSum⟩ := h.configuredByCapacity
  obtain ⟨idle, hidle, -⟩ := h.idleByCapacity
  obtain ⟨cells, hcells, hcellsSum⟩ := h.matrix
  obtain ⟨bucket, hbucket, hbucketSum⟩ := h.configuredByBucket
  obtain ⟨demand, hdemand⟩ := h.demandByBucket
  obtain ⟨demandTotal, hdemandTotal⟩ := h.demandTotal
  obtain ⟨rates, hrates⟩ := h.actionRates
  obtain ⟨total, htotal⟩ := queryScalar_vector hdemandTotal
  have hprom : s.prom = ⟨some api⟩ := by rw [← hapi]
  let answers : Answers :=
    { configuredByCap := cap.foldl (storeByLabel "capacity_type") OrderedMap.empty
      idleByCap := idle.foldl (storeByLabel "capacity_type") OrderedMap.empty
      samples := (cells.filter (fun x => x.value.IsFinite)).map toLabelled
      demand := demand.foldl (storeByLabel "interruption_penalty_bucket") OrderedMap.empty
      configuredByBucket :=
        bucket.foldl (storeByLabel "interruption_penalty_bucket") OrderedMap.empty
      demandTotal := total
      actionRates := rates.foldl (storeByLabel "kind") OrderedMap.empty }
  have hanswers : finopsQueries s now = .ok answers := by
    simp only [finopsQueries, hprom, bind_eq_ok_iff, orBadGateway_eq_ok_iff, pure_eq_ok_iff]
    exact ⟨_, queryByLabel_vector hcap _, _, queryByLabel_vector hidle _, _,
      queryVector_vector hcells, _, queryByLabel_vector hdemand _, _,
      queryByLabel_vector hbucket _, _, htotal, _, queryByLabel_vector hrates _, rfl⟩
  have hguard := requirePrometheus_of_api hapi
  have hsums : SumsOf inv (snapshot s.rt answers now) :=
    snapshot_sumsOf hcapSum hcellsSum hbucketSum s.rt now answers rfl rfl rfl
  refine ⟨snapshot s.rt answers now, ?_, hsums, hsums.reconciled⟩
  exact bind_eq_ok_iff.mpr ⟨(), hguard, bind_eq_ok_iff.mpr ⟨answers, hanswers, rfl⟩⟩

/-- Two pinned machines on spot capacity. -/
def pinnedOnSpot : InventorySeries := ⟨"Spot", "pinned", .configured, 2, by decide⟩

/-- The labels of the one sample a query of the snapshot is answered with. -/
def pinnedMetric (q : String) : Metric :=
  if q = queryFinopsConfiguredByCapacity then OrderedMap.empty.set "capacity_type" "Spot"
  else if q = queryFinopsConfiguredByBucket then
    OrderedMap.empty.set "interruption_penalty_bucket" "pinned"
  else if q = queryFinopsConfiguredByCapBucket then
    (OrderedMap.empty.set "capacity_type" "Spot").set "interruption_penalty_bucket" "pinned"
  else OrderedMap.empty

def pinnedApi : Api where
  query q _ :=
    if q = queryFinopsIdleByCapacity then .ok (.vector [])
    else .ok (.vector [⟨pinnedMetric q, .fin 2⟩])
  queryRange _ _ := .error ""

def pinnedServer : Server := { Server.unwired with prom := ⟨some pinnedApi⟩ }

/-- The aggregation of a single series is a single sample with its labels. -/
theorem sumBy_singleton {σ : Type} {label : σ → String → String} {weight : σ → ℚ}
    {L : List String} {s : σ} {metric : Metric} {v : ExtRat} (hv : v = .fin (weight s))
    (hlabels : L.map (fun l => metric.getD l "") = L.map (label s))
    (hentries : ∀ e ∈ metric.entries, e.1 ∈ L ∧ e.2 ≠ "") :
    SumBy label weight L [s] [⟨metric, v⟩] := by
  have htuple : L.map (sampleLabel ⟨metric, v⟩) = L.map (label s) := hlabels
  constructor
  case distinct => simp
  case covers =>
    intro tuple
    rw [List.map_singleton, List.mem_singleton, htuple]
    simp [eq_comm]
  case labels =>
    intro x hx l w hw
    rw [List.mem_singleton.mp hx] at hw
    exact hentries (l, w) ((metric.get?_eq_some_iff l w).mp hw)
  case value =>
    intro x hx
    rw [List.mem_singleton.mp hx, htuple, hv]
    simp [sumWhere]

theorem finopsHandler_reconciled_pinned :
    ∃ body, finopsHandler pinnedServer 0 = .ok body ∧ SumsOf [pinnedOnSpot] body ∧
      Reconciled [pinnedOnSpot] body := by
  have hanswers : AnswersFrom pinnedApi 0 [pinnedOnSpot] := by
    constructor
    case configuredByCapacity =>
      exact ⟨_, rfl, sumBy_singleton rfl (by decide) (by decide)⟩
    case idleByCapacity =>
      exact ⟨[], rfl, by simp, by simp [inState, pinnedOnSpot], by simp, by simp⟩
    case matrix =>
      exact ⟨_, rfl, sumBy_singleton rfl (by decide) (by decide)⟩
    case configuredByBucket =>
      exact ⟨_, rfl, sumBy_singleton rfl (by decide) (by decide)⟩
    case demandByBucket => exact ⟨_, rfl⟩
    case demandTotal => exact ⟨_, rfl⟩
    case actionRates => exact ⟨_, rfl⟩
  exact finopsHandler_reconciled (s := pinnedServer) rfl hanswers

end BigfleetDashboard.FinOps
