import BigfleetDashboard.KubeQuantity
import BigfleetDashboard.FirstMaximum

/-!
# The estimated number of chunks of a need

A need is served in machines of at least a minimal unit. The estimate is the largest
number of units that one resource takes, with the name of the first such resource.
-/
namespace BigfleetDashboard.Pages
open Script Handlers FallibleLoops FirstMaximum

/-! ## The estimate -/

structure Estimate where
  total : ExtRat
  bindingDim : String

/-- The loop body; `best` is the total so far and its resource. -/
def chunkStep (mu : List (String × String)) (best : ExtRat × String) (e : String × String) :
    Except String (ExtRat × String) := do
  let chunk ← parseQuantity (readProperty mu e.1)
  if chunk ≤ 0 then return best
  else
    let want ← parseQuantity (.own e.2)
    let c := mathCeil (want / chunk)
    return if best.1 < c then (c, e.1) else best

def chunkEstimate (n : NeedView) : Except String (Option Estimate) :=
  match n.minUnit with
  | none => .ok none
  | some mu =>
    if mu.isEmpty then .ok none
    else do
      let best ← (propertyOrder (n.aggregateResources.getD [])).foldlM (chunkStep mu) (0, "")
      return if 0 < best.1 then some ⟨best.1, best.2⟩ else none

/-! ## What it stands for -/

/-- The minimal unit of a resource; a resource that is not mentioned has none. -/
def unitOf (n : NeedView) (key : String) : ℚ := amountAt n.minUnit key

/-- As many minimal units cover the demand of every resource that comes in units. -/
def Suffices (n : NeedView) (count : ℚ) : Prop :=
  ∀ key, 0 < unitOf n key → demand n key ≤ count * unitOf n key

/-- The resource is the first that `count` units leave short. -/
def FirstShort (n : NeedView) (count : ℚ) (key : String) : Prop :=
  ∃ pre text post, propertyOrder (n.aggregateResources.getD []) = pre ++ (key, text) :: post ∧
    (0 < unitOf n key ∧ count * unitOf n key < demand n key) ∧
    ∀ e ∈ pre, ¬ (0 < unitOf n e.1 ∧ count * unitOf n e.1 < demand n e.1)

/-- An estimate is the least sufficient number, and names what makes one less too few. -/
structure EstimatesUnits (n : NeedView) (est : Option Estimate) : Prop where
  none_iff : est = none ↔ ¬ ∃ key, 0 < unitOf n key ∧ 0 < demand n key
  least : ∀ e, est = some e → ∃ count : ℕ, e.total = .fin count ∧
    IsLeast {count : ℕ | Suffices n count} count
  binding : ∀ e, est = some e → ∀ count : ℕ, e.total = .fin count →
    FirstShort n (count - 1) e.bindingDim

/-- The resources of the need, each once, with finite quantities that are not negative. -/
structure Sized (n : NeedView) : Prop where
  distinct : ((n.aggregateResources.getD []).map Prod.fst).Nodup
  aggregate : ∀ e ∈ n.aggregateResources.getD [],
    (quantityOf e.2).IsFinite ∧ 0 ≤ amount e.2
  minUnit : ∀ e ∈ n.minUnit.getD [], (quantityOf e.2).IsFinite ∧ 0 ≤ amount e.2

/-- The units of the resources are the need's own wherever they are read. -/
def UnitsOwn (n : NeedView) : Prop :=
  ∀ mu, n.minUnit = some mu → mu ≠ [] →
    ∀ key, Demands n key → key ∈ objectPrototype → key ∈ mu.map Prod.fst

/-- How many units the demand of a resource takes. -/
def unitsFor (n : NeedView) (key : String) : ℕ :=
  if 0 < unitOf n key then ⌈demand n key / unitOf n key⌉₊ else 0

section Units
variable {n : NeedView}

theorem unitsFor_le_iff (key : String) (count : ℕ) :
    unitsFor n key ≤ count ↔ (0 < unitOf n key → demand n key ≤ count * unitOf n key) := by
  unfold unitsFor
  split_ifs with hpos
  · rw [Nat.ceil_le, div_le_iff₀ hpos]
    simp [hpos]
  · simp [hpos]

theorem unitsFor_pos_iff (key : String) :
    0 < unitsFor n key ↔ 0 < unitOf n key ∧ 0 < demand n key := by
  unfold unitsFor
  split_ifs with hpos
  · rw [Nat.ceil_pos, div_pos_iff_of_pos_right hpos]
    simp [hpos]
  · simp [hpos]

/-- A number of units is sufficient if it is for every resource of the need. -/
theorem suffices_iff (count : ℕ) :
    Suffices n count ↔ ∀ e ∈ n.aggregateResources.getD [], unitsFor n e.1 ≤ count := by
  constructor
  · intro hsuffices e _
    rw [unitsFor_le_iff]
    exact hsuffices e.1
  · intro hall key hpos
    by_cases hdemand : 0 < demand n key
    · obtain ⟨text, hmem⟩ := demands_of_demand_pos hdemand
      have hle := hall _ hmem
      rw [unitsFor_le_iff] at hle
      exact hle hpos
    · exact (not_lt.mp hdemand).trans (mul_nonneg (Nat.cast_nonneg count) hpos.le)

theorem short_iff {count : ℕ} (hcount : 0 < count) (key : String) :
    (0 < unitOf n key ∧ ((count : ℚ) - 1) * unitOf n key < demand n key) ↔
      count ≤ unitsFor n key := by
  have hpred : ((count : ℚ) - 1) = ((count - 1 : ℕ) : ℚ) := by
    rw [Nat.cast_sub hcount, Nat.cast_one]
  have hle := unitsFor_le_iff (n := n) key (count - 1)
  rw [hpred]
  constructor
  · intro hshort
    by_contra hlt
    exact absurd (hle.mp (by omega) hshort.1) (not_le.mpr hshort.2)
  · intro hcover
    by_contra hshort
    have : unitsFor n key ≤ count - 1 := by
      refine hle.mpr fun hpos => ?_
      by_contra hdemand
      exact hshort ⟨hpos, not_le.mp hdemand⟩
    omega

end Units

/-! ## The loop -/

section Loop
variable {n : NeedView} {mu : List (String × String)}

theorem Sized.read_aggregate (h : Sized n) {e : String × String}
    (he : e ∈ n.aggregateResources.getD []) :
    quantityOf e.2 = .fin (demand n e.1) ∧ 0 ≤ demand n e.1 := by
  obtain ⟨hfinite, hnonneg⟩ := h.aggregate e he
  rw [demand_eq_amount h.distinct he]
  exact ⟨quantityOf_eq hfinite, hnonneg⟩

/-- What the loop reads as the unit of a resource. -/
theorem parse_unit (h : Sized n) (hmu : n.minUnit = some mu) (key : String) :
    parseQuantity (readProperty mu key) =
      if readProperty mu key = .inherited then .error "s.trim is not a function"
      else .ok (.fin (unitOf n key)) := by
  have hread := h.minUnit
  rw [hmu, Option.getD_some] at hread
  unfold unitOf amountAt textAt
  rw [hmu, Option.bind_some]
  obtain ⟨e, hfind, hown⟩ | ⟨hfind, hinherited | habsent⟩ := readProperty_cases mu key
  · rw [hown, hfind, parseQuantity_own,
      quantityOf_eq (hread e (List.mem_of_find?_eq_some hfind)).1]
    rfl
  · rw [hinherited]
    rfl
  · rw [habsent, hfind]
    rfl

/-- The state of the loop as numbers. -/
def asNumbers (best : ℕ × String) : ExtRat × String := (.fin best.1, best.2)

theorem chunkStep_eq (h : Sized n) (hmu : n.minUnit = some mu) {e : String × String}
    (he : e ∈ n.aggregateResources.getD []) (best : ℕ × String) :
    chunkStep mu (asNumbers best) e =
      if readProperty mu e.1 = .inherited then .error "s.trim is not a function"
      else .ok (asNumbers (keepLarger (fun e => unitsFor n e.1) Prod.fst best e)) := by
  obtain ⟨hwant, hnonneg⟩ := h.read_aggregate he
  rw [chunkStep, parse_unit h hmu]
  by_cases hinherited : readProperty mu e.1 = .inherited
  · rw [if_pos hinherited, if_pos hinherited, error_bind]
  · rw [if_neg hinherited, if_neg hinherited, ok_bind, parseQuantity_own, hwant, ok_bind]
    simp only [ExtRat.zero_def, ExtRat.fin_le_fin]
    by_cases hpos : 0 < unitOf n e.1
    · have hceil : mathCeil (.fin (demand n e.1) / .fin (unitOf n e.1)) =
          .fin (unitsFor n e.1 : ℕ) := by
        rw [ExtRat.fin_div_fin _ hpos.ne', unitsFor, if_pos hpos]
        have hquotient : 0 ≤ demand n e.1 / unitOf n e.1 := div_nonneg hnonneg hpos.le
        have hcast := Int.natCast_ceil_eq_ceil hquotient
        simp only [mathCeil, ← hcast, Int.cast_natCast]
      rw [if_neg (not_le.mpr hpos), hceil]
      simp only [asNumbers, keepLarger, ExtRat.fin_lt_fin, Nat.cast_lt]
      split_ifs
      · rfl
      · rfl
    · have hzero : unitsFor n e.1 = 0 := if_neg hpos
      rw [if_pos (not_lt.mp hpos), keepLarger, hzero, if_neg (Nat.not_lt_zero _)]
      rfl

theorem foldlM_chunkStep (h : Sized n) (hmu : n.minUnit = some mu)
    {es : List (String × String)} (hes : ∀ e ∈ es, e ∈ n.aggregateResources.getD [])
    (best : ℕ × String) :
    es.foldlM (chunkStep mu) (asNumbers best) =
      if ∃ e ∈ es, readProperty mu e.1 = .inherited then .error "s.trim is not a function"
      else .ok (asNumbers (es.foldl (keepLarger (fun e => unitsFor n e.1) Prod.fst) best)) := by
  refine foldlM_eq_ite (I := fun _ => True) ?_ (fun _ _ _ _ => trivial) trivial
  intro best _ e he
  exact chunkStep_eq h hmu (hes e he) best

end Loop

/-! ## The result -/

section Result
variable {n : NeedView}

/-- The total of the loop with its resource. -/
def mostUnits (n : NeedView) : ℕ × String :=
  (propertyOrder (n.aggregateResources.getD [])).foldl
    (keepLarger (fun e => unitsFor n e.1) Prod.fst) (0, "")

def estimateOf (n : NeedView) : Option Estimate :=
  if 0 < (mostUnits n).1 then some ⟨.fin (mostUnits n).1, (mostUnits n).2⟩ else none

theorem chunkEstimate_eq (h : Sized n) {mu : List (String × String)} (hmu : n.minUnit = some mu)
    (hne : mu ≠ []) :
    chunkEstimate n =
      if ∃ e ∈ n.aggregateResources.getD [], readProperty mu e.1 = .inherited then
        .error "s.trim is not a function"
      else .ok (estimateOf n) := by
  have hperm := propertyOrder_perm (n.aggregateResources.getD [])
  have hloop := foldlM_chunkStep h hmu (fun e he => hperm.mem_iff.mp he) (0, "")
  have hstart : asNumbers (0, "") = ((0 : ExtRat), "") := rfl
  have hempty : mu.isEmpty = false := by simpa using hne
  simp only [hperm.mem_iff, hstart] at hloop
  unfold chunkEstimate
  rw [hmu]
  dsimp only
  rw [hempty, if_neg Bool.false_ne_true, hloop]
  by_cases hinherited : ∃ e ∈ n.aggregateResources.getD [], readProperty mu e.1 = .inherited
  · rw [if_pos hinherited, if_pos hinherited, error_bind]
  · rw [if_neg hinherited, if_neg hinherited, ok_bind]
    have hpos : (0 : ExtRat) < (asNumbers (mostUnits n)).1 ↔ 0 < (mostUnits n).1 := by
      simp only [asNumbers, ExtRat.zero_def, ExtRat.fin_lt_fin, Nat.cast_pos]
    simp only [estimateOf, ← hpos]
    rfl

theorem minUnit_cases (n : NeedView) :
    (n.minUnit = none ∨ n.minUnit = some []) ∨ ∃ mu, n.minUnit = some mu ∧ mu ≠ [] := by
  cases n.minUnit with
  | none => exact Or.inl (Or.inl rfl)
  | some mu =>
    cases mu with
    | nil => exact Or.inl (Or.inr rfl)
    | cons e mu => exact Or.inr ⟨e :: mu, rfl, List.cons_ne_nil e mu⟩

theorem unitsOwn_of_no_units (h : n.minUnit = none ∨ n.minUnit = some []) : UnitsOwn n := by
  intro mu hmu hne
  rcases h with h | h
  · rw [h] at hmu
    cases hmu
  · exact absurd (Option.some.inj (hmu.symm.trans h)) hne

/-- Without units there is no estimate. -/
theorem chunkEstimate_of_no_units (h : n.minUnit = none ∨ n.minUnit = some []) :
    chunkEstimate n = .ok none ∧ ∀ key, unitOf n key = 0 := by
  unfold chunkEstimate unitOf amountAt textAt
  rcases h with h | h
  · simp [h]
  · simp [h]

theorem estimatesUnits_none (hunits : ∀ key, unitOf n key = 0) : EstimatesUnits n none where
  none_iff := by simp [hunits]
  least e he := by cases he
  binding e he := by cases he

theorem unitsFor_le_mostUnits {e : String × String} (he : e ∈ n.aggregateResources.getD []) :
    unitsFor n e.1 ≤ (mostUnits n).1 :=
  le_foldl_keepLarger (fun e : String × String => unitsFor n e.1) Prod.fst (0, "") _ e
    ((propertyOrder_perm _).mem_iff.mpr he)

/-- The total is reached first by the resource it is named after. -/
theorem mostUnits_cases (n : NeedView) :
    mostUnits n = (0, "") ∨
    ∃ pre e post, propertyOrder (n.aggregateResources.getD []) = pre ++ e :: post ∧
      mostUnits n = (unitsFor n e.1, e.1) ∧ 0 < unitsFor n e.1 ∧
      ∀ d ∈ pre, unitsFor n d.1 < unitsFor n e.1 := by
  rcases foldl_keepLarger (fun e : String × String => unitsFor n e.1) Prod.fst (0, "")
      (propertyOrder (n.aggregateResources.getD [])) with
    ⟨hkept, -⟩ | ⟨pre, e, post, hsplit, hkept, hpos, hpre, -⟩
  · exact Or.inl hkept
  · exact Or.inr ⟨pre, e, post, hsplit, hkept, hpos, hpre⟩

theorem estimatesUnits_estimateOf (n : NeedView) : EstimatesUnits n (estimateOf n) := by
  have hsome : ∀ e, estimateOf n = some e →
      0 < (mostUnits n).1 ∧ e = ⟨.fin (mostUnits n).1, (mostUnits n).2⟩ := by
    intro e he
    unfold estimateOf at he
    split_ifs at he with hpos
    exact ⟨hpos, (Option.some.inj he).symm⟩
  constructor
  case none_iff =>
    have hnone : estimateOf n = none ↔ ¬ 0 < (mostUnits n).1 := by
      unfold estimateOf
      split_ifs with hpos
      · simp [hpos]
      · simp [hpos]
    rw [hnone, not_iff_not]
    constructor
    · intro hpos
      rcases mostUnits_cases n with hzero | ⟨pre, e, post, -, -, he, -⟩
      · rw [hzero] at hpos
        exact absurd hpos (Nat.not_lt_zero 0)
      · exact ⟨e.1, (unitsFor_pos_iff e.1).mp he⟩
    · intro hboth
      obtain ⟨key, hunit, hdemand⟩ := hboth
      obtain ⟨text, hmem⟩ := demands_of_demand_pos hdemand
      have hpos : 0 < unitsFor n key := by
        rw [unitsFor_pos_iff]
        exact ⟨hunit, hdemand⟩
      have hle := unitsFor_le_mostUnits hmem
      exact hpos.trans_le hle
  case least =>
    intro est hest
    obtain ⟨hpos, rfl⟩ := hsome est hest
    refine ⟨(mostUnits n).1, rfl, ?_, ?_⟩
    · change Suffices n ((mostUnits n).1 : ℕ)
      rw [suffices_iff]
      exact fun e he => unitsFor_le_mostUnits he
    · intro count hcount
      rcases mostUnits_cases n with hzero | ⟨pre, e, post, hsplit, hmost, -, -⟩
      · rw [hzero]
        exact Nat.zero_le count
      · have hmem : e ∈ n.aggregateResources.getD [] := by
          rw [← (propertyOrder_perm _).mem_iff, hsplit]
          simp
        change Suffices n count at hcount
        rw [suffices_iff] at hcount
        rw [hmost]
        exact hcount e hmem
  case binding =>
    intro est hest count hcount
    obtain ⟨hpos, rfl⟩ := hsome est hest
    have hcount' : (mostUnits n).1 = count := by exact_mod_cast ExtRat.fin.inj hcount
    rcases mostUnits_cases n with hzero | ⟨pre, e, post, hsplit, hmost, he, hpre⟩
    · rw [hzero] at hpos
      exact absurd hpos (Nat.not_lt_zero 0)
    · rw [hmost] at hcount'
      dsimp only at hcount'
      subst hcount'
      rw [hmost]
      have hshort : ∀ key, (0 < unitOf n key ∧
          (((unitsFor n e.1 : ℕ) : ℚ) - 1) * unitOf n key < demand n key) ↔
          unitsFor n e.1 ≤ unitsFor n key := fun key => short_iff he key
      refine ⟨pre, e.2, post, hsplit, ?_, ?_⟩
      · rw [hshort]
      · intro d hd
        rw [hshort, not_le]
        exact hpre d hd

theorem unitsOwn_iff {mu : List (String × String)} (hmu : n.minUnit = some mu) (hne : mu ≠ []) :
    UnitsOwn n ↔ ¬ ∃ e ∈ n.aggregateResources.getD [], readProperty mu e.1 = .inherited := by
  simp only [readProperty_eq_inherited_iff]
  constructor
  · intro hown hblocked
    obtain ⟨e, he, hproto, hmissing⟩ := hblocked
    exact hmissing (hown mu hmu hne e.1 ⟨e.2, he⟩ hproto)
  · intro hfree mu' hmu' _ key hkey hproto
    obtain rfl := Option.some.inj (hmu.symm.trans hmu')
    obtain ⟨text, hmem⟩ := hkey
    by_contra hmissing
    exact hfree ⟨_, hmem, hproto, hmissing⟩

/-- The estimate is the least sufficient number of units exactly when no inherited property
stands in for the unit of a resource. -/
theorem chunkEstimate_least_iff (h : Sized n) :
    (∃ est, chunkEstimate n = .ok est ∧ EstimatesUnits n est) ↔ UnitsOwn n := by
  rcases minUnit_cases n with hunits | ⟨mu, hmu, hne⟩
  · obtain ⟨hnone, hzero⟩ := chunkEstimate_of_no_units hunits
    exact iff_of_true ⟨none, hnone, estimatesUnits_none hzero⟩ (unitsOwn_of_no_units hunits)
  · rw [chunkEstimate_eq h hmu hne, unitsOwn_iff hmu hne]
    by_cases hinherited : ∃ e ∈ n.aggregateResources.getD [], readProperty mu e.1 = .inherited
    · rw [if_pos hinherited]
      refine iff_of_false ?_ (fun hfree => hfree hinherited)
      intro hest
      obtain ⟨est, hest, -⟩ := hest
      cases hest
    · rw [if_neg hinherited]
      exact iff_of_true ⟨_, rfl, estimatesUnits_estimateOf n⟩ hinherited

end Result

/-- A need of one resource, served in units of two CPUs. -/
def unitNeed (key : String) : NeedView :=
  { (default : NeedView) with
    aggregateResources := some [(key, "7")]
    minUnit := some [("cpu", "2")] }

theorem sized_unitNeed (key : String) : Sized (unitNeed key) := by
  have hdemand : (quantityOf "7").IsFinite ∧ 0 ≤ amount "7" :=
    quantityOf_nonneg ⟨false, Numeral.ofNat 7, .none⟩
  have hunit : (quantityOf "2").IsFinite ∧ 0 ≤ amount "2" :=
    quantityOf_nonneg ⟨false, Numeral.ofNat 2, .none⟩
  constructor
  case distinct => exact List.nodup_singleton key
  case aggregate =>
    intro e he
    rw [List.mem_singleton.mp he]
    exact hdemand
  case minUnit =>
    intro e he
    rw [List.mem_singleton.mp he]
    exact hunit

theorem chunkEstimate_least_cpu :
    ∃ est, chunkEstimate (unitNeed "cpu") = .ok est ∧ EstimatesUnits (unitNeed "cpu") est := by
  refine (chunkEstimate_least_iff (sized_unitNeed "cpu")).mpr ?_
  intro mu _ _ key hkey hproto
  obtain ⟨text, hmem⟩ := hkey
  have hcpu : key = "cpu" := congrArg Prod.fst (List.mem_singleton.mp hmem)
  rw [hcpu] at hproto
  exact absurd hproto (by decide)

/-- A resource may be named like a property that every object inherits. -/
theorem chunkEstimate_not_least :
    ¬ ∀ n : NeedView, Sized n → ∃ est, chunkEstimate n = .ok est ∧ EstimatesUnits n est := by
  intro h
  obtain ⟨est, hest, -⟩ := h _ (sized_unitNeed "constructor")
  rw [chunkEstimate_eq (sized_unitNeed "constructor") rfl (by simp)] at hest
  rw [if_pos ⟨("constructor", "7"), List.mem_singleton.mpr rfl, by decide⟩] at hest
  cases hest

end BigfleetDashboard.Pages
