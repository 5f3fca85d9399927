import BigfleetDashboard.ScriptNumbers
import BigfleetDashboard.Competitors
import BigfleetDashboard.FallibleLoops
import Mathlib.Tactic.Linarith

/-!
# The coverage of a need

A need shows how much of its worst covered resource it holds, and one bar for each
resource. Both are computed from the texts of the aggregate and of the residual, by
two loops of their own.
-/
namespace BigfleetDashboard.Pages
open Script Handlers FallibleLoops

/-! ## Quantities -/

def qtySuffix : List (String × ℚ) :=
  [("", 1), ("m", 1 / 1000), ("k", 10 ^ 3), ("M", 10 ^ 6), ("G", 10 ^ 9), ("T", 10 ^ 12),
    ("P", 10 ^ 15), ("Ki", 1024), ("Mi", 1024 ^ 2), ("Gi", 1024 ^ 3), ("Ti", 1024 ^ 4),
    ("Pi", 1024 ^ 5)]

/-- The factor of a suffix. An inherited property is a function, which is no number. -/
def suffixFactor (suffix : String) : ExtRat :=
  match readProperty qtySuffix suffix with
  | .own factor => .fin factor
  | .inherited => .nan
  | .absent => 1

def isQuantityDigit (c : Char) : Bool := c.isDigit || c = '.'

/-- The expression `^([0-9.]+)\s*([a-zA-Z]*)$` and its two groups; no character is in
two of its classes. -/
def matchQuantity (s : List Char) : Option (List Char × List Char) :=
  let number := s.takeWhile isQuantityDigit
  let suffix := (s.dropWhile isQuantityDigit).dropWhile isSpace
  if number ≠ [] ∧ suffix.all Char.isAlpha then some (number, suffix) else none

/-- `parseQuantity` of a text. -/
def quantityOf (s : String) : ExtRat :=
  if s = "" then 0
  else
    match matchQuantity (trim s.toList) with
    | none => orZero (parseFloat s.toList)
    | some (number, suffix) => orZero (parseFloat number) * suffixFactor (String.ofList suffix)

/-- The argument is a property; an inherited one is not a text and has no `trim`. -/
def parseQuantity : Property String → Except String ExtRat
  | .absent => .ok 0
  | .own s => .ok (quantityOf s)
  | .inherited => .error "s.trim is not a function"

/-! ## The two displays -/

/-- `n.residualDeficit?.[key]`. -/
def residualOf (n : NeedView) (key : String) : Property String :=
  match n.residualDeficit with
  | none => .absent
  | some fields => readProperty fields key

/-- The loop body of `coverage`. -/
def coverStep (n : NeedView) (min : ExtRat) (e : String × String) : Except String ExtRat := do
  let want ← parseQuantity (.own e.2)
  if want ≤ 0 then return min
  else
    let residual ← parseQuantity (residualOf n e.1)
    let got := mathMax 0 (want - residual)
    return mathMin min (got / want)

def coverage (n : NeedView) : Except String ExtRat :=
  if n.satisfied then .ok 1
  else (propertyOrder (n.aggregateResources.getD [])).foldlM (coverStep n) 1

/-- One bar: what of it is filled, at least the width of a mark, and the shortfall that
stands beside it. -/
structure Bar where
  key : String
  frac : ExtRat
  full : Bool
  width : ExtRat
  short : Option ExtRat

def drawBar (key : String) (want short : ExtRat) : Bar :=
  let got := mathMax 0 (want - short)
  let frac := if 0 < want then got / want else 1
  { key := key
    frac := frac
    full := decide (1 ≤ frac)
    width := mathMax (.fin 2) (frac * .fin 100)
    short := if 0 < short then some short else none }

def resourceBar (n : NeedView) (key : String) : Except String Bar := do
  let want ← parseQuantity (readProperty (n.aggregateResources.getD []) key)
  let short ← if n.satisfied then .ok 0 else parseQuantity (residualOf n key)
  return drawBar key want short

/-- Without resources nothing is drawn. -/
def resourceCoverage (n : NeedView) : Except String (List Bar) :=
  mapE (resourceBar n) (sortTexts (resourceKeys n))

/-! ## The covered fraction of a resource -/

/-- A resource without demand is covered. -/
def fraction (want short : ℚ) : ℚ := if 0 < want then max 0 (want - short) / want else 1

theorem fraction_nonneg (want short : ℚ) : 0 ≤ fraction want short := by
  unfold fraction
  split_ifs with h
  · exact div_nonneg (le_max_left _ _) h.le
  · exact zero_le_one

theorem one_le_fraction_iff (want short : ℚ) : 1 ≤ fraction want short ↔ (0 < want → short ≤ 0) := by
  unfold fraction
  split_ifs with h
  · rw [le_div_iff₀ h, one_mul, le_max_iff]
    constructor
    · intro hle _
      obtain hle | hle := hle
      · exact absurd h (not_lt.mpr hle)
      · linarith
    · intro hle
      exact Or.inr (by linarith [hle h])
  · simp [h]

/-- A larger shortfall covers less. -/
theorem fraction_anti (want : ℚ) {short short' : ℚ} (h : short ≤ short') :
    fraction want short' ≤ fraction want short := by
  unfold fraction
  split_ifs with hwant
  · exact div_le_div_of_nonneg_right (max_le_max_left 0 (by linarith)) hwant.le
  · exact le_rfl

/-- The worst of some fractions, and 1 if none is below. -/
def worst (fractions : List ℚ) : ℚ := fractions.foldl min 1

theorem isLeast_foldl_min {α : Type} [LinearOrder α] (q : α) (qs : List α) :
    IsLeast {x | x = q ∨ x ∈ qs} (qs.foldl min q) := by
  induction qs generalizing q with
  | nil =>
    constructor
    · exact Or.inl rfl
    · intro x hx
      exact (hx.resolve_right List.not_mem_nil).ge
  | cons a qs ih =>
    obtain ⟨hmem, hlower⟩ := ih (min q a)
    rw [List.foldl_cons]
    constructor
    · obtain hmin | htail := hmem
      · rw [hmin]
        obtain hq | ha := min_choice q a
        · exact Or.inl hq
        · exact Or.inr (by simp [ha])
      · exact Or.inr (List.mem_cons_of_mem a htail)
    · intro x hx
      have hfirst : qs.foldl min (min q a) ≤ min q a := hlower (Or.inl rfl)
      obtain rfl | hx := hx
      · exact hfirst.trans (min_le_left x a)
      · cases hx with
        | head => exact hfirst.trans (min_le_right q a)
        | tail _ hx => exact hlower (Or.inr hx)

theorem isLeast_worst (qs : List ℚ) : IsLeast {x | x = 1 ∨ x ∈ qs} (worst qs) :=
  isLeast_foldl_min 1 qs

/-! ## Needs whose quantities are finite -/

/-- The resources of the need, each once, and the texts of its quantities are finite numbers. -/
structure Measured (n : NeedView) : Prop where
  distinct : ((n.aggregateResources.getD []).map Prod.fst).Nodup
  aggregate : ∀ e ∈ n.aggregateResources.getD [], (quantityOf e.2).IsFinite
  residual : ∀ e ∈ n.residualDeficit.getD [], (quantityOf e.2).IsFinite

/-- The resources of a received need are the keys of a map. -/
theorem receivedNeed_distinct (n : ApiNeedView) :
    (((receivedNeed n).aggregateResources.getD []).map Prod.fst).Nodup := by
  have haggregate : (receivedNeed n).aggregateResources =
      n.aggregateResources.map sortedEntries := rfl
  rw [haggregate]
  cases n.aggregateResources with
  | none => exact List.nodup_nil
  | some m =>
    have hperm : (sortedEntries m).Perm m.entries := List.perm_insertionSort _ _
    exact (hperm.map Prod.fst).nodup_iff.mpr m.nodup

/-- The text an object has of its own for a resource. -/
def textAt (fields : Option (List (String × String))) (key : String) : Option String :=
  (fields.bind (List.find? (fun e => e.1 = key))).map Prod.snd

/-- A finite quantity as a number. -/
def amount (s : String) : ℚ :=
  match quantityOf s with
  | .fin q => q
  | _ => 0

/-- The amount of a resource; a resource that is not mentioned amounts to nothing. -/
def amountAt (fields : Option (List (String × String))) (key : String) : ℚ :=
  ((textAt fields key).map amount).getD 0

def demand (n : NeedView) (key : String) : ℚ := amountAt n.aggregateResources key

def shortfall (n : NeedView) (key : String) : ℚ := amountAt n.residualDeficit key

/-- What the two displays count as lacking. -/
def shown (n : NeedView) (key : String) : ℚ := if n.satisfied then 0 else shortfall n key

/-- The fraction of a resource that the need holds. -/
def covered (n : NeedView) (key : String) : ℚ := fraction (demand n key) (shown n key)

theorem quantityOf_eq {s : String} (h : (quantityOf s).IsFinite) : quantityOf s = .fin (amount s) := by
  obtain ⟨q, hq⟩ := h
  simp only [amount, hq]

/-- The demand of a resource is the amount its text gives. -/
theorem demand_eq_amount {n : NeedView}
    (hdistinct : ((n.aggregateResources.getD []).map Prod.fst).Nodup) {key text : String}
    (hmem : (key, text) ∈ n.aggregateResources.getD []) : demand n key = amount text := by
  have hread := readProperty_of_mem hdistinct hmem
  rw [demand, amountAt, textAt]
  cases hfields : n.aggregateResources with
  | none => simp [hfields] at hmem
  | some fields =>
    rw [hfields, Option.getD_some] at hread
    obtain ⟨e, hfind, hown⟩ | ⟨-, hnone | hnone⟩ := readProperty_cases fields key
    · rw [hread, Property.own.injEq] at hown
      simp [hfind, hown]
    · simp [hread] at hnone
    · simp [hread] at hnone

theorem Measured.read_aggregate {n : NeedView} (h : Measured n) {key text : String}
    (hmem : (key, text) ∈ n.aggregateResources.getD []) :
    readProperty (n.aggregateResources.getD []) key = .own text ∧
      quantityOf text = .fin (demand n key) := by
  rw [demand_eq_amount h.distinct hmem]
  exact ⟨readProperty_of_mem h.distinct hmem, quantityOf_eq (h.aggregate _ hmem)⟩

/-- The residual for a resource is a text of the need's own, or the need has none. -/
theorem residualOf_cases (n : NeedView) (key : String) :
    (∃ e ∈ n.residualDeficit.getD [], textAt n.residualDeficit key = some e.2 ∧
      residualOf n key = .own e.2) ∨
    (textAt n.residualDeficit key = none ∧
      (residualOf n key = .inherited ∨ residualOf n key = .absent)) := by
  unfold textAt residualOf
  cases n.residualDeficit with
  | none => exact Or.inr ⟨rfl, Or.inr rfl⟩
  | some fields =>
    obtain ⟨e, hfind, hown⟩ | ⟨hfind, hnone⟩ := readProperty_cases fields key
    · exact Or.inl ⟨e, List.mem_of_find?_eq_some hfind, by simp [hfind], hown⟩
    · exact Or.inr ⟨by simp [hfind], hnone⟩

theorem parseQuantity_own (s : String) : parseQuantity (.own s) = .ok (quantityOf s) := rfl

theorem Measured.parse_residual {n : NeedView} (h : Measured n) (key : String) :
    parseQuantity (residualOf n key) =
      if residualOf n key = .inherited then .error "s.trim is not a function"
      else .ok (.fin (shortfall n key)) := by
  unfold shortfall amountAt
  obtain ⟨e, he, htext, hown⟩ | ⟨htext, hinherited | habsent⟩ := residualOf_cases n key
  · rw [hown, htext, parseQuantity_own, quantityOf_eq (h.residual e he)]
    rfl
  · rw [hinherited]
    rfl
  · rw [habsent, htext]
    rfl

/-! ## The loop of the coverage -/

/-- Reading the residual of a demanded resource finds an inherited property. -/
def Blocked (n : NeedView) (key : String) : Prop := 0 < demand n key ∧ residualOf n key = .inherited

instance (n : NeedView) : DecidablePred (Blocked n) := fun key =>
  inferInstanceAs (Decidable (0 < demand n key ∧ residualOf n key = .inherited))

theorem coverStep_eq {n : NeedView} (h : Measured n) (hsatisfied : n.satisfied = false)
    {e : String × String} (he : e ∈ n.aggregateResources.getD []) {m : ℚ} (hm : m ≤ 1) :
    coverStep n (.fin m) e =
      if Blocked n e.1 then .error "s.trim is not a function"
      else .ok (.fin (min m (covered n e.1))) := by
  have hwant : quantityOf e.2 = .fin (demand n e.1) := (h.read_aggregate he).2
  have hshown : shown n e.1 = shortfall n e.1 := by simp [shown, hsatisfied]
  simp only [coverStep, parseQuantity_own, hwant, ok_bind, ExtRat.zero_def, ExtRat.fin_le_fin]
  by_cases hpos : 0 < demand n e.1
  · rw [if_neg (not_le.mpr hpos), h.parse_residual]
    by_cases hinherited : residualOf n e.1 = .inherited
    · rw [if_pos hinherited, if_pos ⟨hpos, hinherited⟩, error_bind]
    · rw [if_neg hinherited, if_neg (fun hblocked => hinherited hblocked.2), ok_bind]
      simp only [ExtRat.fin_sub_fin, mathMax_fin, ExtRat.fin_div_fin _ hpos.ne', mathMin_fin,
        covered, fraction, hpos, if_true, hshown]
      rfl
  · rw [if_pos (not_lt.mp hpos), if_neg (fun hblocked => hpos hblocked.1)]
    simp only [covered, fraction, hpos, if_false, min_eq_left hm]
    rfl

/-- The loop keeps the worst fraction so far, and throws at a blocked resource. -/
theorem foldlM_coverStep {n : NeedView} (h : Measured n) (hsatisfied : n.satisfied = false)
    {es : List (String × String)} (hes : ∀ e ∈ es, e ∈ n.aggregateResources.getD []) {m : ℚ}
    (hm : m ≤ 1) :
    es.foldlM (coverStep n) (.fin m) =
      if ∃ e ∈ es, Blocked n e.1 then .error "s.trim is not a function"
      else .ok (.fin ((es.map (fun e => covered n e.1)).foldl min m)) := by
  rw [List.foldl_map]
  refine foldlM_eq_ite (I := fun m => m ≤ 1) ?_ ?_ hm
  · intro m hm e he
    exact coverStep_eq h hsatisfied (hes e he) hm
  · intro m hm e _
    exact (min_le_left m _).trans hm

/-- The worst of the fractions of the need's resources. -/
def worstCovered (n : NeedView) : ℚ :=
  worst ((propertyOrder (n.aggregateResources.getD [])).map (fun e => covered n e.1))

theorem isLeast_worstCovered (n : NeedView) :
    IsLeast {x | x = 1 ∨ ∃ e ∈ n.aggregateResources.getD [], covered n e.1 = x} (worstCovered n) := by
  have hleast := isLeast_worst
    ((propertyOrder (n.aggregateResources.getD [])).map (fun e => covered n e.1))
  simp only [List.mem_map, (propertyOrder_perm _).mem_iff] at hleast
  exact hleast

theorem covered_of_satisfied {n : NeedView} (h : n.satisfied = true) (key : String) :
    covered n key = 1 := by
  simp only [covered, shown, h, if_true, fraction, sub_zero]
  split_ifs with hpos
  · rw [max_eq_right hpos.le, div_self hpos.ne']
  · rfl

theorem worstCovered_of_satisfied {n : NeedView} (h : n.satisfied = true) : worstCovered n = 1 := by
  obtain hone | ⟨e, -, he⟩ := (isLeast_worstCovered n).1
  · exact hone
  · rw [← he, covered_of_satisfied h]

theorem coverage_eq {n : NeedView} (h : Measured n) :
    coverage n =
      if n.satisfied = false ∧ ∃ e ∈ n.aggregateResources.getD [], Blocked n e.1 then
        .error "s.trim is not a function"
      else .ok (.fin (worstCovered n)) := by
  unfold coverage
  cases hsatisfied : n.satisfied with
  | true =>
    simp only [if_true, Bool.true_eq_false, false_and, if_false,
      worstCovered_of_satisfied hsatisfied]
    rfl
  | false =>
    have hperm := propertyOrder_perm (n.aggregateResources.getD [])
    have hfold := foldlM_coverStep h hsatisfied (fun e he => hperm.mem_iff.mp he) le_rfl
    simp only [hperm.mem_iff] at hfold
    simp only [Bool.false_eq_true, if_false, true_and]
    exact hfold

/-- A raised residual does not raise the worst fraction. -/
theorem worstCovered_anti {n n' : NeedView}
    (hsame : n' = { n with residualDeficit := n'.residualDeficit })
    (h : ∀ key, shortfall n key ≤ shortfall n' key) : worstCovered n' ≤ worstCovered n := by
  have haggregate : n'.aggregateResources = n.aggregateResources := by rw [hsame]
  have hsatisfied : n'.satisfied = n.satisfied := by rw [hsame]
  have hcovered : ∀ key, covered n' key ≤ covered n key := by
    intro key
    have hshown : shown n key ≤ shown n' key := by
      unfold shown
      rw [hsatisfied]
      split_ifs
      · exact le_rfl
      · exact h key
    unfold covered demand
    rw [haggregate]
    exact fraction_anti _ hshown
  obtain ⟨-, hlower⟩ := isLeast_worstCovered n'
  obtain hone | ⟨e, he, hworst⟩ := (isLeast_worstCovered n).1
  · rw [hone]
    exact hlower (Or.inl rfl)
  · rw [← haggregate] at he
    rw [← hworst]
    exact (hlower (Or.inr ⟨e, he, rfl⟩)).trans (hcovered e.1)

/-! ## The bars -/

theorem frac_drawBar (key : String) (want short : ℚ) :
    (drawBar key (.fin want) (.fin short)).frac = .fin (fraction want short) := by
  unfold drawBar fraction
  simp only [ExtRat.zero_def, ExtRat.fin_lt_fin, ExtRat.fin_sub_fin, mathMax_fin]
  split_ifs with hpos
  · exact ExtRat.fin_div_fin _ hpos.ne'
  · rfl

/-- The bar of a resource. -/
def barOf (n : NeedView) (key : String) : Bar :=
  drawBar key (.fin (demand n key)) (.fin (shown n key))

theorem resourceBar_eq {n : NeedView} (h : Measured n) {key : String} (hkey : Demands n key) :
    resourceBar n key =
      if n.satisfied = false ∧ residualOf n key = .inherited then
        .error "s.trim is not a function"
      else .ok (barOf n key) := by
  obtain ⟨text, hmem⟩ := hkey
  obtain ⟨hread, hwant⟩ := h.read_aggregate hmem
  rw [resourceBar, hread, parseQuantity_own, hwant, ok_bind, h.parse_residual, barOf, shown]
  cases n.satisfied with
  | true => rfl
  | false =>
    by_cases hinherited : residualOf n key = .inherited
    · simp only [Bool.false_eq_true, if_false, hinherited, if_true, and_self]
      rfl
    · simp only [Bool.false_eq_true, if_false, hinherited, and_false]
      rfl

/-- The texts of the residual are the need's own wherever the bars read them. -/
def ResidualOwn (n : NeedView) : Prop :=
  n.satisfied = true ∨ ∀ fields, n.residualDeficit = some fields →
    ∀ key, Demands n key → key ∈ objectPrototype → key ∈ fields.map Prod.fst

theorem residualOf_eq_inherited_iff (n : NeedView) (key : String) :
    residualOf n key = .inherited ↔ ∃ fields, n.residualDeficit = some fields ∧
      key ∈ objectPrototype ∧ key ∉ fields.map Prod.fst := by
  unfold residualOf
  cases n.residualDeficit with
  | none => simp
  | some fields => simp only [Option.some.injEq, exists_eq_left', readProperty_eq_inherited_iff]

theorem residualOwn_iff (n : NeedView) :
    ResidualOwn n ↔
      ∀ key, Demands n key → ¬ (n.satisfied = false ∧ residualOf n key = .inherited) := by
  simp only [residualOf_eq_inherited_iff]
  constructor
  · intro h key hkey hblocked
    obtain ⟨hsatisfied, fields, hfields, hproto, hmissing⟩ := hblocked
    obtain htrue | howned := h
    · simp [hsatisfied] at htrue
    · exact hmissing (howned fields hfields key hkey hproto)
  · intro h
    cases hsatisfied : n.satisfied with
    | true => exact Or.inl hsatisfied
    | false =>
      refine Or.inr fun fields hfields key hkey hproto => ?_
      by_contra hmissing
      exact h key hkey ⟨hsatisfied, fields, hfields, hproto, hmissing⟩

theorem mem_barKeys (n : NeedView) (key : String) :
    key ∈ sortTexts (resourceKeys n) ↔ Demands n key := by
  rw [(sortTexts_perm _).mem_iff, mem_resourceKeys]

/-- Every bar is drawn exactly when no inherited property stands in for a residual. -/
theorem returns_resourceCoverage_iff {n : NeedView} (h : Measured n) :
    Returns (resourceCoverage n) ↔ ResidualOwn n := by
  rw [residualOwn_iff, resourceCoverage, returns_mapE_iff]
  simp only [mem_barKeys]
  refine forall₂_congr fun key hkey => ?_
  rw [resourceBar_eq h hkey]
  by_cases hblocked : n.satisfied = false ∧ residualOf n key = .inherited
  · rw [if_pos hblocked]
    exact iff_of_false (not_returns_error _) (fun hfree => hfree hblocked)
  · rw [if_neg hblocked]
    exact iff_of_true ⟨_, rfl⟩ hblocked

theorem resourceCoverage_eq {n : NeedView} (h : Measured n) (hown : ResidualOwn n) :
    resourceCoverage n = .ok ((sortTexts (resourceKeys n)).map (barOf n)) := by
  refine mapE_eq_map fun key hkey => ?_
  rw [mem_barKeys] at hkey
  rw [resourceBar_eq h hkey, if_neg ((residualOwn_iff n).mp hown key hkey)]

/-! ## The two displays agree -/

/-- `n'` is `n` with a larger quantity in the residual of one resource. -/
structure Raises (n n' : NeedView) (key : String) : Prop where
  same : n' = { n with residualDeficit := n'.residualDeficit }
  measured : Measured n'
  others : ∀ k, k ≠ key → textAt n'.residualDeficit k = textAt n.residualDeficit k
  raised : shortfall n key ≤ shortfall n' key

/-- The coverage `c` and the bars show the same fractions. -/
structure Consistent (n : NeedView) (c : ℚ) (bars : List Bar) : Prop where
  bounds : 0 ≤ c ∧ c ≤ 1
  keys : (bars.map Bar.key).Perm ((n.aggregateResources.getD []).map Prod.fst)
  drawn : ∀ bar ∈ bars, bar.frac.IsFinite
  worst : IsLeast {x | x = 1 ∨ ∃ bar ∈ bars, bar.frac = .fin x} c
  satisfied : n.satisfied = true → c = 1
  unsatisfied : n.satisfied = false → (c = 1 ↔ ∀ key, 0 < demand n key → shortfall n key ≤ 0)
  raises : ∀ key n', Raises n n' key → ∀ c', coverage n' = .ok c' → c' ≤ .fin c

/-- Both displays are drawn, and they agree. -/
def Agrees (n : NeedView) : Prop :=
  ∃ c bars, coverage n = .ok (.fin c) ∧ resourceCoverage n = .ok bars ∧ Consistent n c bars

theorem coverage_of_own {n : NeedView} (h : Measured n) (hown : ResidualOwn n) :
    coverage n = .ok (.fin (worstCovered n)) := by
  rw [coverage_eq h, if_neg]
  intro hblocked
  obtain ⟨hsatisfied, e, he, -, hinherited⟩ := hblocked
  exact (residualOwn_iff n).mp hown e.1 ⟨e.2, he⟩ ⟨hsatisfied, hinherited⟩

theorem coverage_eq_ok {n : NeedView} (h : Measured n) {c : ExtRat} (hc : coverage n = .ok c) :
    c = .fin (worstCovered n) := by
  rw [coverage_eq h] at hc
  split_ifs at hc
  exact (Except.ok.inj hc).symm

theorem demands_of_demand_pos {n : NeedView} {key : String} (h : 0 < demand n key) :
    Demands n key := by
  unfold demand amountAt textAt at h
  cases hfields : n.aggregateResources with
  | none => simp [hfields] at h
  | some fields =>
    cases hfind : fields.find? (fun e => e.1 = key) with
    | none => simp [hfields, hfind] at h
    | some e =>
      have hkey : e.1 = key := by simpa using List.find?_some hfind
      refine ⟨e.2, ?_⟩
      rw [hfields, Option.getD_some, ← hkey]
      exact List.mem_of_find?_eq_some hfind

/-- Nothing that is demanded is short exactly when the worst fraction is 1. -/
theorem worstCovered_eq_one_iff (n : NeedView) :
    worstCovered n = 1 ↔ ∀ key, 0 < demand n key → shown n key ≤ 0 := by
  obtain ⟨hmem, hlower⟩ := isLeast_worstCovered n
  constructor
  · intro hone key hpos
    obtain ⟨amount, hkey⟩ := demands_of_demand_pos hpos
    have hle : worstCovered n ≤ covered n key := hlower (Or.inr ⟨(key, amount), hkey, rfl⟩)
    rw [hone, covered, one_le_fraction_iff] at hle
    exact hle hpos
  · intro hall
    refine le_antisymm (hlower (Or.inl rfl)) ?_
    obtain hone | ⟨e, -, he⟩ := hmem
    · exact hone.ge
    · rw [← he, covered, one_le_fraction_iff]
      exact hall e.1

theorem worstCovered_bounds (n : NeedView) : 0 ≤ worstCovered n ∧ worstCovered n ≤ 1 := by
  obtain ⟨hmem, hlower⟩ := isLeast_worstCovered n
  refine ⟨?_, hlower (Or.inl rfl)⟩
  obtain hone | ⟨e, -, he⟩ := hmem
  · rw [hone]
    exact zero_le_one
  · rw [← he]
    exact fraction_nonneg _ _

/-- The bars show the fractions that the coverage is the worst of. -/
theorem isLeast_bars (n : NeedView) :
    IsLeast {x | x = 1 ∨ ∃ bar ∈ (sortTexts (resourceKeys n)).map (barOf n), bar.frac = .fin x}
      (worstCovered n) := by
  have hset : {x | x = 1 ∨ ∃ bar ∈ (sortTexts (resourceKeys n)).map (barOf n), bar.frac = .fin x} =
      {x | x = 1 ∨ ∃ e ∈ n.aggregateResources.getD [], covered n e.1 = x} := by
    ext x
    refine or_congr_right ?_
    constructor
    · intro hx
      obtain ⟨bar, hbar, hx⟩ := hx
      obtain ⟨key, hkey, rfl⟩ := List.mem_map.mp hbar
      obtain ⟨amount, hmem⟩ := (mem_barKeys n key).mp hkey
      rw [barOf, frac_drawBar, ExtRat.fin.injEq] at hx
      exact ⟨(key, amount), hmem, hx⟩
    · intro hx
      obtain ⟨e, he, rfl⟩ := hx
      have hkey := (mem_barKeys n e.1).mpr ⟨e.2, he⟩
      exact ⟨barOf n e.1, List.mem_map_of_mem hkey, frac_drawBar _ _ _⟩
  rw [hset]
  exact isLeast_worstCovered n

theorem consistent_worstCovered (n : NeedView) :
    Consistent n (worstCovered n) ((sortTexts (resourceKeys n)).map (barOf n)) := by
  constructor
  case bounds => exact worstCovered_bounds n
  case keys =>
    rw [List.map_map]
    have hkey : Bar.key ∘ barOf n = id := rfl
    rw [hkey, List.map_id]
    exact (sortTexts_perm _).trans ((propertyOrder_perm _).map Prod.fst)
  case drawn =>
    intro bar hbar
    obtain ⟨key, -, rfl⟩ := List.mem_map.mp hbar
    exact ⟨_, frac_drawBar key _ _⟩
  case worst => exact isLeast_bars n
  case satisfied => exact worstCovered_of_satisfied
  case unsatisfied =>
    intro hsatisfied
    have hshown : ∀ key, shown n key = shortfall n key := fun key => by simp [shown, hsatisfied]
    simp only [worstCovered_eq_one_iff, hshown]
  case raises =>
    intro key n' hraises c' hc'
    rw [coverage_eq_ok hraises.measured hc']
    refine worstCovered_anti hraises.same fun k => ?_
    by_cases hk : k = key
    · rw [hk]
      exact hraises.raised
    · unfold shortfall amountAt
      rw [hraises.others k hk]

/-- The displays agree exactly when no inherited property stands in for a residual. -/
theorem coverage_agrees_iff {n : NeedView} (h : Measured n) : Agrees n ↔ ResidualOwn n := by
  constructor
  · intro hagrees
    obtain ⟨c, bars, -, hbars, -⟩ := hagrees
    exact (returns_resourceCoverage_iff h).mp ⟨bars, hbars⟩
  · intro hown
    exact ⟨_, _, coverage_of_own h hown, resourceCoverage_eq h hown, consistent_worstCovered n⟩

/-- One resource in the aggregate, another in the residual too. -/
def shortNeed (key : String) : NeedView :=
  { (default : NeedView) with
    aggregateResources := some [(key, "4")]
    residualDeficit := some [("cpu", "1000m"), ("memory", "-2Gi")] }

theorem measured_shortNeed (key : String) : Measured (shortNeed key) := by
  have hfour : (quantityOf "4").IsFinite := by decide
  have hresidual : ∀ e ∈ [("cpu", "1000m"), ("memory", "-2Gi")], (quantityOf e.2).IsFinite := by
    decide
  constructor
  case distinct => exact List.nodup_singleton key
  case aggregate =>
    intro e he
    rw [List.mem_singleton.mp he]
    exact hfour
  case residual => exact hresidual

theorem coverage_agrees_cpu : Agrees (shortNeed "cpu") := by
  refine (coverage_agrees_iff (measured_shortNeed "cpu")).mpr (Or.inr ?_)
  intro fields _ key hkey hproto
  obtain ⟨text, hmem⟩ := hkey
  have hcpu : key = "cpu" := congrArg Prod.fst (List.mem_singleton.mp hmem)
  rw [hcpu] at hproto
  exact absurd hproto (by decide)

/-- A resource may be named like a property that every object inherits. -/
theorem coverage_not_agrees : ¬ ∀ n : NeedView, Measured n → Agrees n := by
  intro h
  obtain ⟨c, bars, -, hbars, -⟩ := h _ (measured_shortNeed "constructor")
  have hown := (returns_resourceCoverage_iff (measured_shortNeed "constructor")).mp ⟨bars, hbars⟩
  obtain hsatisfied | howned := hown
  · cases hsatisfied
  · have hmem := howned _ rfl "constructor" ⟨"4", List.mem_singleton.mpr rfl⟩ (by decide)
    exact absurd hmem (by decide)

end BigfleetDashboard.Pages
