import BigfleetDashboard.ChunkEstimate
import BigfleetDashboard.FixedPlaces

/-!
# The chunk meter of a need

The meter draws one square for each chunk of the estimate, up to a cap, and fills as
many of them as the coverage rounds to.
-/
namespace BigfleetDashboard.Pages
open Script Handlers FallibleLoops FixedPlaces

/-! ## The meter -/

def chunkCap : ExtRat := .fin 16

/-- The length of `Array.from({ length })`. -/
def arrayLength : ExtRat → ℕ
  | .fin q => ⌊q⌋.toNat
  | .posInf => 2 ^ 53 - 1
  | _ => 0

/-- The squares, filled or not, and how many chunks are not drawn. -/
structure Meter where
  chunks : List Bool
  more : Option ExtRat

/-- Without an estimate the need is one chunk. -/
def totalChunks : Option Estimate → ExtRat
  | some est => est.total
  | none => 1

def shownChunks (est : Option Estimate) : ExtRat := mathMin (totalChunks est) chunkCap

def chunkMeter (n : NeedView) : Except String Meter := do
  let est ← chunkEstimate n
  let cov ← coverage n
  let total := totalChunks est
  let shown := shownChunks est
  let covered := if n.satisfied then shown else mathRound (cov * shown)
  return {
    chunks := (List.range (arrayLength shown)).map (fun i : ℕ => decide (.fin i < covered))
    more := if chunkCap < total then some (total - chunkCap) else none }

/-- The number of filled squares. -/
def Meter.green (m : Meter) : ℕ := m.chunks.count true

/-- The meter of a need shows what is covered. -/
structure ShowsCoverage (n : NeedView) (m : Meter) : Prop where
  satisfied : n.satisfied = true → ∀ lit ∈ m.chunks, lit = true
  unmet : n.satisfied = false → ∀ cov, coverage n = .ok cov → cov < 1 → false ∈ m.chunks
  bounded : 0 ≤ m.green ∧ m.green ≤ m.chunks.length
  monotone : ∀ n' m', chunkMeter n' = .ok m' → m'.chunks.length = m.chunks.length →
    ∀ cov cov', coverage n = .ok cov → coverage n' = .ok cov' → cov ≤ cov' → m.green ≤ m'.green

/-! ## Steps that throw -/

/-- Reading a property throws if it is an inherited one. -/
theorem parseQuantity_returns_iff (p : Property String) :
    (∃ x, parseQuantity p = .ok x) ↔ p ≠ .inherited := by
  cases p with
  | own s => simp [parseQuantity]
  | absent => simp [parseQuantity]
  | inherited => simp [parseQuantity]

theorem chunkStep_returns_iff (mu : List (String × String)) (best : ExtRat × String)
    (e : String × String) :
    (∃ best', chunkStep mu best e = .ok best') ↔ readProperty mu e.1 ≠ .inherited := by
  rw [← parseQuantity_returns_iff]
  simp only [chunkStep, bind_eq_ok_iff, parseQuantity_own]
  constructor
  · intro h
    obtain ⟨best', chunk, hchunk, -⟩ := h
    exact ⟨chunk, hchunk⟩
  · intro h
    obtain ⟨chunk, hchunk⟩ := h
    by_cases hle : chunk ≤ 0
    · exact ⟨best, chunk, hchunk, if_pos hle⟩
    · exact ⟨_, chunk, hchunk, (if_neg hle).trans rfl⟩

theorem coverStep_returns_iff (n : NeedView) (min : ExtRat) (e : String × String) :
    (∃ min', coverStep n min e = .ok min') ↔
      (¬ quantityOf e.2 ≤ 0 → residualOf n e.1 ≠ .inherited) := by
  rw [← parseQuantity_returns_iff]
  simp only [coverStep, bind_eq_ok_iff, parseQuantity_own]
  by_cases hle : quantityOf e.2 ≤ 0
  · exact iff_of_true ⟨min, _, rfl, if_pos hle⟩ (fun h => absurd hle h)
  · constructor
    · intro h _
      obtain ⟨min', want, hwant, hrest⟩ := h
      obtain rfl := Except.ok.inj hwant
      rw [if_neg hle, bind_eq_ok_iff] at hrest
      obtain ⟨residual, hresidual, -⟩ := hrest
      exact ⟨residual, hresidual⟩
    · intro h
      obtain ⟨residual, hresidual⟩ := h hle
      refine ⟨mathMin min (mathMax 0 (quantityOf e.2 - residual) / quantityOf e.2), _, rfl, ?_⟩
      rw [if_neg hle, hresidual]
      rfl

/-! ## Needs that are drawn -/

/-- No inherited property is read as the residual of a demanded resource. -/
def ResidualsOwn (n : NeedView) : Prop :=
  n.satisfied = false → ∀ e ∈ n.aggregateResources.getD [], ¬ quantityOf e.2 ≤ 0 →
    residualOf n e.1 ≠ .inherited

theorem chunkEstimate_returns_iff (n : NeedView) :
    (∃ est, chunkEstimate n = .ok est) ↔ UnitsOwn n := by
  rcases minUnit_cases n with hunits | ⟨mu, hmu, hne⟩
  · exact iff_of_true ⟨none, (chunkEstimate_of_no_units hunits).1⟩ (unitsOwn_of_no_units hunits)
  · have hempty : mu.isEmpty = false := by simpa using hne
    have hloop := foldlM_returns_iff (l := propertyOrder (n.aggregateResources.getD []))
      (b := ((0 : ExtRat), "")) (chunkStep_returns_iff mu)
    rw [unitsOwn_iff hmu hne, chunkEstimate, hmu]
    simp only [hempty, Bool.false_eq_true, if_false, bind_eq_ok_iff, pure_eq_ok_iff]
    simp only [(propertyOrder_perm _).mem_iff] at hloop
    constructor
    · intro h
      obtain ⟨est, best, hbest, -⟩ := h
      intro hinherited
      obtain ⟨e, he, hread⟩ := hinherited
      exact hloop.mp ⟨best, hbest⟩ e he hread
    · intro h
      obtain ⟨best, hbest⟩ := hloop.mpr fun e he hread => h ⟨e, he, hread⟩
      exact ⟨_, best, hbest, rfl⟩

theorem coverage_returns_iff (n : NeedView) : (∃ cov, coverage n = .ok cov) ↔ ResidualsOwn n := by
  unfold coverage ResidualsOwn
  cases n.satisfied with
  | true => simp
  | false =>
    have hloop := foldlM_returns_iff (l := propertyOrder (n.aggregateResources.getD []))
      (b := (1 : ExtRat)) (coverStep_returns_iff n)
    simp only [(propertyOrder_perm _).mem_iff] at hloop
    simpa using hloop

/-! ## The numbers of the meter -/

/-- A number of chunks, or too many to count. -/
def WholeTotal (total : ExtRat) : Prop := (∃ count : ℕ, total = .fin count) ∨ total = .posInf

theorem mathCeil_whole {best x : ExtRat} (hbest : WholeTotal best) (h : best < mathCeil x) :
    WholeTotal (mathCeil x) := by
  cases x with
  | nan => exact absurd h (by cases best <;> exact id)
  | posInf => exact Or.inr rfl
  | negInf => exact absurd h (by cases best <;> exact id)
  | fin q =>
    rcases hbest with ⟨count, rfl⟩ | rfl
    · have hlt : (count : ℚ) < ⌈q⌉ := h
      have hnonneg : (0 : ℤ) ≤ ⌈q⌉ := by
        have hcast : ((count : ℤ) : ℚ) < (⌈q⌉ : ℤ) := by exact_mod_cast hlt
        have hint : (count : ℤ) < ⌈q⌉ := Int.cast_lt.mp hcast
        omega
      refine Or.inl ⟨⌈q⌉.toNat, ?_⟩
      have hcast : ((⌈q⌉.toNat : ℤ) : ℚ) = (⌈q⌉ : ℤ) := by rw [Int.toNat_of_nonneg hnonneg]
      rw [mathCeil, ← hcast, Int.cast_natCast]
    · exact absurd h id

theorem chunkStep_whole {mu : List (String × String)} (best : ExtRat × String)
    (e : String × String) (best' : ExtRat × String) (h : chunkStep mu best e = .ok best')
    (hwhole : WholeTotal best.1) : WholeTotal best'.1 := by
  simp only [chunkStep, bind_eq_ok_iff, parseQuantity_own] at h
  obtain ⟨chunk, -, hrest⟩ := h
  by_cases hle : chunk ≤ 0
  · rw [if_pos hle, pure_eq_ok_iff] at hrest
    rw [← hrest]
    exact hwhole
  · rw [if_neg hle, ok_bind, pure_eq_ok_iff] at hrest
    rw [← hrest]
    split_ifs with hlt
    · exact mathCeil_whole hwhole hlt
    · exact hwhole

/-- The squares of a meter are at least one and at most the cap. -/
theorem shownChunks_eq {n : NeedView} {est : Option Estimate} (h : chunkEstimate n = .ok est) :
    ∃ count : ℕ, 0 < count ∧ count ≤ 16 ∧ shownChunks est = .fin count := by
  have htotal : 0 < totalChunks est ∧ WholeTotal (totalChunks est) := by
    have hone : 0 < totalChunks none ∧ WholeTotal (totalChunks none) :=
      ⟨one_pos (α := ℚ), Or.inl ⟨1, congrArg ExtRat.fin Nat.cast_one.symm⟩⟩
    unfold chunkEstimate at h
    split at h
    · obtain rfl := Except.ok.inj h
      exact hone
    · split_ifs at h
      · obtain rfl := Except.ok.inj h
        exact hone
      · rw [bind_eq_ok_iff] at h
        obtain ⟨best, hloop, hbest⟩ := h
        have hwhole : WholeTotal best.1 :=
          foldlM_preserves (P := fun best => WholeTotal best.1) chunkStep_whole
            (Or.inl ⟨0, congrArg ExtRat.fin Nat.cast_zero.symm⟩) hloop
        rw [pure_eq_ok_iff] at hbest
        rw [← hbest]
        split_ifs with hpos
        · exact ⟨hpos, hwhole⟩
        · exact hone
  obtain ⟨hpos, ⟨count, hcount⟩ | hinf⟩ := htotal
  · have hcast : (0 : ℚ) < count := by
      rw [hcount] at hpos
      exact hpos
    refine ⟨min count 16, ?_, min_le_right count 16, ?_⟩
    · exact lt_min (Nat.cast_pos.mp hcast) (by norm_num)
    · rw [shownChunks, hcount, chunkCap, mathMin_fin]
      push_cast
      rfl
  · exact ⟨16, by norm_num, le_rfl, by rw [shownChunks, hinf]; rfl⟩

/-- A fraction of 1, or not a number. -/
def UnitRange (x : ExtRat) : Prop := x = .nan ∨ ∃ q : ℚ, x = .fin q ∧ 0 ≤ q ∧ q ≤ 1

theorem mathMin_unitRange {x y : ExtRat} (hx : UnitRange x) (hy : ¬ y < 0) :
    UnitRange (mathMin x y) := by
  rcases hx with rfl | ⟨q, rfl, hnonneg, hle⟩
  · exact Or.inl rfl
  · cases y with
    | nan => exact Or.inl rfl
    | posInf => exact Or.inr ⟨q, rfl, hnonneg, hle⟩
    | negInf => exact absurd trivial hy
    | fin r =>
      rw [mathMin_fin]
      exact Or.inr ⟨_, rfl, le_min hnonneg (not_lt.mp hy), (min_le_left q r).trans hle⟩

theorem mathMax_zero_nonneg (x : ExtRat) : ¬ mathMax 0 x < 0 := by
  cases x with
  | nan => exact id
  | posInf => exact id
  | negInf => exact lt_irrefl (0 : ℚ)
  | fin q =>
    rw [ExtRat.zero_def, mathMax_fin]
    exact not_lt.mpr (le_max_left 0 q)

theorem div_not_neg {x y : ExtRat} (hx : ¬ x < 0) (hy : ¬ y ≤ 0) : ¬ x / y < 0 := by
  cases x with
  | nan => exact id
  | negInf => exact absurd trivial hx
  | posInf =>
    cases y with
    | fin w =>
      have hw : (0 : ℚ) ≤ w := (not_le.mp hy).le
      change ¬ (if 0 ≤ w then ExtRat.posInf else ExtRat.negInf) < 0
      rw [if_pos hw]
      exact id
    | nan => exact id
    | posInf => exact id
    | negInf => exact id
  | fin q =>
    cases y with
    | fin w =>
      have hq : (0 : ℚ) ≤ q := not_lt.mp hx
      have hw : (0 : ℚ) < w := not_le.mp hy
      rw [ExtRat.fin_div_fin q hw.ne']
      exact not_lt.mpr (div_nonneg hq hw.le)
    | nan => exact id
    | posInf => exact lt_irrefl (0 : ℚ)
    | negInf => exact absurd trivial hy

theorem coverStep_unitRange {n : NeedView} (min : ExtRat) (e : String × String) (min' : ExtRat)
    (h : coverStep n min e = .ok min') (hmin : UnitRange min) : UnitRange min' := by
  simp only [coverStep, bind_eq_ok_iff, parseQuantity_own] at h
  obtain ⟨want, -, hrest⟩ := h
  by_cases hle : want ≤ 0
  · rw [if_pos hle, pure_eq_ok_iff] at hrest
    rw [← hrest]
    exact hmin
  · rw [if_neg hle, bind_eq_ok_iff] at hrest
    obtain ⟨residual, -, hnext⟩ := hrest
    rw [pure_eq_ok_iff] at hnext
    rw [← hnext]
    exact mathMin_unitRange hmin (div_not_neg (mathMax_zero_nonneg _) hle)

theorem coverage_unitRange {n : NeedView} {cov : ExtRat} (h : coverage n = .ok cov) :
    UnitRange cov := by
  have hone : UnitRange 1 := Or.inr ⟨1, rfl, zero_le_one, le_rfl⟩
  unfold coverage at h
  split_ifs at h
  · obtain rfl := Except.ok.inj h
    exact hone
  · exact foldlM_preserves coverStep_unitRange hone h

/-! ## The squares -/

/-- A row of squares, the first of them filled. -/
def squares (count filled : ℕ) : List Bool := (List.range count).map (fun i => decide (i < filled))

@[simp] theorem length_squares (count filled : ℕ) : (squares count filled).length = count := by
  simp [squares]

theorem squares_succ (count filled : ℕ) :
    squares (count + 1) filled = squares count filled ++ [decide (count < filled)] := by
  simp [squares, List.range_succ]

theorem count_squares (count filled : ℕ) : (squares count filled).count true = min count filled := by
  induction count with
  | zero => simp [squares]
  | succ count ih =>
    rw [squares_succ, List.count_append, ih]
    by_cases h : count < filled
    · simp only [h, decide_true, List.count_singleton_self]
      omega
    · simp only [h, decide_false]
      have hlast : [false].count true = 0 := rfl
      omega

theorem false_mem_squares_iff (count filled : ℕ) :
    false ∈ squares count filled ↔ filled < count := by
  simp only [squares, List.mem_map, List.mem_range, decide_eq_false_iff_not, not_lt]
  constructor
  · intro h
    obtain ⟨i, hi, hle⟩ := h
    omega
  · intro h
    exact ⟨filled, h, le_rfl⟩

/-- How many squares the coverage fills. -/
def filled (n : NeedView) (cov : ExtRat) (count : ℕ) : ℕ :=
  if n.satisfied then count
  else
    match cov with
    | .fin q => (steps 0 (q * count)).toNat
    | _ => 0

theorem filled_le {n : NeedView} {cov : ExtRat} (h : UnitRange cov) (count : ℕ) :
    filled n cov count ≤ count := by
  unfold filled
  split_ifs
  · exact le_rfl
  · rcases h with rfl | ⟨q, rfl, -, hle⟩
    · exact Nat.zero_le count
    · have hmul : q * count ≤ 1 * count := mul_le_mul_of_nonneg_right hle (Nat.cast_nonneg count)
      have hlt : steps 0 (q * count) < (count : ℤ) + 1 := by
        rw [steps_lt_iff]
        push_cast
        linarith
      dsimp only
      omega

/-- A square is left if more than half a chunk is missing. -/
theorem filled_lt_iff {n : NeedView} (hunmet : n.satisfied = false) {count : ℕ} (hpos : 0 < count)
    (q : ℚ) : filled n (.fin q) count < count ↔ ¬ (1 - q) * count ≤ 1 / 2 := by
  have htoNat : (steps 0 (q * count)).toNat < count ↔ steps 0 (q * count) < (count : ℤ) := by omega
  simp only [filled, hunmet, Bool.false_eq_true, if_false]
  rw [htoNat, steps_lt_iff, not_le, pow_zero, mul_one, Int.cast_natCast, sub_mul, one_mul]
  constructor
  · intro h
    linarith
  · intro h
    linarith

theorem filled_mono {n n' : NeedView} {cov cov' : ExtRat} (hcov : coverage n = .ok cov)
    (hcov' : coverage n' = .ok cov') (hle : cov ≤ cov') (count : ℕ) :
    filled n cov count ≤ filled n' cov' count := by
  rcases coverage_unitRange hcov with rfl | ⟨q, rfl, -, hq⟩
  · exact absurd hle id
  · rcases coverage_unitRange hcov' with rfl | ⟨q', rfl, -, hq'⟩
    · exact absurd hle id
    · have hqq : q ≤ q' := hle
      cases hmet' : n'.satisfied with
      | true =>
        have hfull : filled n' (.fin q') count = count := by simp [filled, hmet']
        rw [hfull]
        exact filled_le (coverage_unitRange hcov) count
      | false =>
        have hmul : q * count ≤ q' * count :=
          mul_le_mul_of_nonneg_right hqq (Nat.cast_nonneg count)
        have hsteps := Int.toNat_le_toNat (steps_mono 0 hmul)
        cases hmet : n.satisfied with
        | false => simpa [filled, hmet, hmet'] using hsteps
        | true =>
          have hone : q = 1 := by
            simp only [coverage, hmet, if_true, Except.ok.injEq] at hcov
            exact (ExtRat.fin.inj hcov).symm
          have hone' : q' = 1 := le_antisymm hq' (hone ▸ hqq)
          have hcount : steps 0 ((count : ℤ) : ℚ) = count := by
            have := steps_div (K := ℚ) 0 count
            rwa [pow_zero, div_one] at this
          rw [Int.cast_natCast] at hcount
          simp [filled, hmet, hmet', hone', hcount]

theorem arrayLength_natCast (count : ℕ) : arrayLength (.fin count) = count := by
  rw [arrayLength, Int.floor_natCast, Int.toNat_natCast]

/-- The squares of the meter, given what the estimate and the coverage return. -/
theorem chunkMeter_squares {n : NeedView} {est : Option Estimate} {cov : ExtRat} {count : ℕ}
    (hest : chunkEstimate n = .ok est) (hcov : coverage n = .ok cov)
    (hcount : shownChunks est = .fin count) :
    ∃ m, chunkMeter n = .ok m ∧ m.chunks = squares count (filled n cov count) := by
  refine ⟨_, by rw [chunkMeter, hest, ok_bind, hcov, ok_bind]; rfl, ?_⟩
  dsimp only
  rw [hcount, arrayLength_natCast, squares]
  refine List.map_congr_left fun i _ => ?_
  unfold filled
  split_ifs
  · simp
  · rcases coverage_unitRange hcov with rfl | ⟨q, rfl, hnonneg, -⟩
    · rfl
    · have hsteps : 0 ≤ steps 0 (q * count) :=
        steps_nonneg 0 (mul_nonneg hnonneg (Nat.cast_nonneg count))
      have hround : mathRound (.fin q * .fin count) = .fin (steps 0 (q * count) : ℤ) := by
        rw [ExtRat.fin_mul_fin, mathRound, steps, pow_zero, mul_one]
      have hlt : ((i : ℕ) : ℚ) < (steps 0 (q * count) : ℤ) ↔ i < (steps 0 (q * count)).toNat := by
        rw [← Int.cast_natCast, Int.cast_lt]
        omega
      rw [hround]
      exact decide_eq_decide.mpr hlt

/-- What a meter that is drawn shows. -/
theorem squares_of_chunkMeter {n : NeedView} {m : Meter} (h : chunkMeter n = .ok m) :
    ∃ est cov count, chunkEstimate n = .ok est ∧ coverage n = .ok cov ∧ 0 < count ∧
      shownChunks est = .fin (count : ℕ) ∧ m.chunks = squares count (filled n cov count) := by
  have hparts := h
  rw [chunkMeter, bind_eq_ok_iff] at hparts
  obtain ⟨est, hest, hrest⟩ := hparts
  obtain ⟨cov, hcov, -⟩ := bind_eq_ok_iff.mp hrest
  obtain ⟨count, hpos, -, hcount⟩ := shownChunks_eq hest
  obtain ⟨m', hm', hsquares⟩ := chunkMeter_squares hest hcov hcount
  obtain rfl := Except.ok.inj (h.symm.trans hm')
  exact ⟨est, cov, count, hest, hcov, hpos, hcount, hsquares⟩

theorem green_eq {n : NeedView} {m : Meter} {cov : ExtRat} {count : ℕ}
    (hcov : coverage n = .ok cov) (h : m.chunks = squares count (filled n cov count)) :
    m.green = filled n cov count := by
  rw [Meter.green, h, count_squares]
  exact min_eq_right (filled_le (coverage_unitRange hcov) count)

/-! ## What the meter shows -/

/-- The need is not satisfied, and at most half a chunk of it is missing. -/
def RoundsUp (n : NeedView) : Prop :=
  n.satisfied = false ∧ ∃ est cov, chunkEstimate n = .ok est ∧ coverage n = .ok cov ∧
    cov < 1 ∧ (1 - cov) * shownChunks est ≤ .fin (1 / 2)

/-- An unmet need with a covered part has a square left unless it rounds up. -/
theorem false_mem_iff {n : NeedView} {m : Meter} {est : Option Estimate} {cov : ExtRat} {count : ℕ}
    (hest : chunkEstimate n = .ok est) (hcov : coverage n = .ok cov) (hpos : 0 < count)
    (hcount : shownChunks est = .fin count) (hsquares : m.chunks = squares count (filled n cov count))
    (hunmet : n.satisfied = false) (hlt : cov < 1) : false ∈ m.chunks ↔ ¬ RoundsUp n := by
  have hrounds : RoundsUp n ↔ (1 - cov) * shownChunks est ≤ .fin (1 / 2) := by
    constructor
    · intro hup
      obtain ⟨-, est', cov', hest', hcov', -, hhalf⟩ := hup
      obtain rfl := Except.ok.inj (hest.symm.trans hest')
      obtain rfl := Except.ok.inj (hcov.symm.trans hcov')
      exact hhalf
    · intro hhalf
      exact ⟨hunmet, est, cov, hest, hcov, hlt, hhalf⟩
  rcases coverage_unitRange hcov with rfl | ⟨q, rfl, -, -⟩
  · exact absurd hlt id
  · have hone : (1 : ExtRat) = .fin 1 := rfl
    rw [hrounds, hcount, hone, ExtRat.fin_sub_fin, ExtRat.fin_mul_fin, ExtRat.fin_le_fin, hsquares,
      false_mem_squares_iff, filled_lt_iff hunmet hpos]

theorem not_showsCoverage {n : NeedView} {m : Meter} (hm : chunkMeter n = .ok m)
    (hup : RoundsUp n) : ¬ ShowsCoverage n m := by
  intro hshows
  obtain ⟨est, cov, count, hest, hcov, hpos, hcount, hsquares⟩ := squares_of_chunkMeter hm
  obtain ⟨hunmet, -, cov', -, hcov', hlt, -⟩ := id hup
  obtain rfl := Except.ok.inj (hcov.symm.trans hcov')
  have hiff := false_mem_iff hest hcov hpos hcount hsquares hunmet hlt
  exact hiff.mp (hshows.unmet hunmet cov hcov hlt) hup

/-- The meter shows what is covered exactly when it is drawn and no square is filled for a
chunk of which half or less is missing. -/
theorem chunkMeter_showsCoverage_iff (n : NeedView) :
    (∃ m, chunkMeter n = .ok m ∧ ShowsCoverage n m) ↔
      UnitsOwn n ∧ ResidualsOwn n ∧ ¬ RoundsUp n := by
  rw [← chunkEstimate_returns_iff, ← coverage_returns_iff]
  constructor
  · intro h
    obtain ⟨m, hm, hshows⟩ := h
    obtain ⟨est, cov, -, hest, hcov, -⟩ := squares_of_chunkMeter hm
    exact ⟨⟨est, hest⟩, ⟨cov, hcov⟩, fun hup => not_showsCoverage hm hup hshows⟩
  · intro h
    obtain ⟨⟨est, hest⟩, ⟨cov, hcov⟩, hup⟩ := h
    obtain ⟨count, hpos, -, hcount⟩ := shownChunks_eq hest
    obtain ⟨m, hm, hsquares⟩ := chunkMeter_squares hest hcov hcount
    refine ⟨m, hm, ?_⟩
    constructor
    case satisfied =>
      intro hmet lit hlit
      rw [hsquares] at hlit
      cases lit with
      | true => rfl
      | false =>
        rw [false_mem_squares_iff] at hlit
        simp [filled, hmet] at hlit
    case unmet =>
      intro hunmet cov' hcov' hlt
      obtain rfl := Except.ok.inj (hcov.symm.trans hcov')
      exact (false_mem_iff hest hcov hpos hcount hsquares hunmet hlt).mpr hup
    case bounded => exact ⟨Nat.zero_le _, List.count_le_length⟩
    case monotone =>
      intro n' m' hm' hlength cov₁ cov' hcov₁ hcov' hle
      obtain rfl := Except.ok.inj (hcov.symm.trans hcov₁)
      obtain ⟨-, cov₂, count', -, hcov₂, -, -, hsquares'⟩ := squares_of_chunkMeter hm'
      obtain rfl := Except.ok.inj (hcov'.symm.trans hcov₂)
      rw [hsquares, hsquares', length_squares, length_squares] at hlength
      subst hlength
      rw [green_eq hcov hsquares, green_eq hcov' hsquares']
      exact filled_mono hcov hcov' hle count'

/-- One chunk of four cores, of which one is missing. -/
def quarterShort : NeedView :=
  { (default : NeedView) with
    aggregateResources := some [("cpu", "4")]
    minUnit := some [("cpu", "4")]
    residualDeficit := some [("cpu", "1000m")] }

theorem quantityOf_four : quantityOf "4" = .fin 4 := by
  calc quantityOf "4" = _ := quantityOf_unsigned (Numeral.ofNat 4) .none
    _ = .fin 4 := by simp [KubeQuantity.readFactor]

theorem entries_quarterShort :
    propertyOrder (quarterShort.aggregateResources.getD []) = [("cpu", "4")] :=
  List.perm_singleton.mp (propertyOrder_perm _)

theorem coverage_quarterShort : coverage quarterShort = .ok (.fin (3 / 4)) := by
  have hresidual : quantityOf "1000m" = .fin 1 := by
    calc quantityOf "1000m" = _ := quantityOf_unsigned (Numeral.ofNat 1000) (.letters .m)
      _ = .fin 1 := by simp [KubeQuantity.readFactor, Letters.factor, Listed]
  have hread : residualOf quarterShort "cpu" = .own "1000m" := rfl
  have hstep : coverStep quarterShort 1 ("cpu", "4") = .ok (.fin (3 / 4)) := by
    have hpos : ¬ ExtRat.fin 4 ≤ 0 := by
      rw [ExtRat.zero_def, ExtRat.fin_le_fin]
      norm_num
    have hone : (1 : ExtRat) = .fin 1 := rfl
    simp only [coverStep, parseQuantity_own, quantityOf_four, ok_bind, hread, hresidual]
    rw [if_neg hpos, ExtRat.fin_sub_fin, ExtRat.zero_def, mathMax_fin,
      ExtRat.fin_div_fin _ (by norm_num), hone, mathMin_fin, pure_eq_ok_iff]
    norm_num
  have hunmet : quarterShort.satisfied = false := rfl
  rw [coverage, hunmet, if_neg Bool.false_ne_true, entries_quarterShort, List.foldlM_cons, hstep]
  rfl

theorem chunkEstimate_quarterShort : chunkEstimate quarterShort = .ok (some ⟨.fin 1, "cpu"⟩) := by
  have hread : readProperty [("cpu", "4")] "cpu" = .own "4" := rfl
  have hpos : ¬ ExtRat.fin 4 ≤ 0 := by
    rw [ExtRat.zero_def, ExtRat.fin_le_fin]
    norm_num
  have hceil : mathCeil (.fin 4 / .fin 4) = .fin 1 := by
    rw [ExtRat.fin_div_fin _ (by norm_num), div_self (by norm_num), mathCeil, Int.ceil_one]
    rfl
  have hless : (0 : ExtRat) < .fin 1 := one_pos (α := ℚ)
  have hstep : chunkStep [("cpu", "4")] (0, "") ("cpu", "4") = .ok (.fin 1, "cpu") := by
    simp only [chunkStep, hread, parseQuantity_own, quantityOf_four, ok_bind]
    rw [if_neg hpos, hceil, pure_eq_ok_iff, if_pos hless]
  have hunits : quarterShort.minUnit = some [("cpu", "4")] := rfl
  rw [chunkEstimate, hunits]
  dsimp only
  rw [entries_quarterShort, List.foldlM_cons, hstep]
  rfl

theorem roundsUp_quarterShort : RoundsUp quarterShort := by
  have hshown : shownChunks (some ⟨.fin 1, "cpu"⟩) = .fin 1 := by
    rw [shownChunks, chunkCap]
    exact (mathMin_fin 1 16).trans (congrArg ExtRat.fin (by norm_num))
  have hone : (1 : ExtRat) = .fin 1 := rfl
  refine ⟨rfl, _, _, chunkEstimate_quarterShort, coverage_quarterShort, ?_, ?_⟩
  · rw [hone, ExtRat.fin_lt_fin]
    norm_num
  · rw [hone, hshown, ExtRat.fin_sub_fin, ExtRat.fin_mul_fin, ExtRat.fin_le_fin]
    norm_num

/-- Three quarters of the only chunk are shown as all of it, and the meter of such a need is
drawn: it has an estimate. -/
theorem chunkMeter_not_showsCoverage :
    ¬ ∀ n : NeedView, (∃ est, chunkEstimate n = .ok (some est)) →
      ∃ m, chunkMeter n = .ok m ∧ ShowsCoverage n m := by
  intro h
  obtain ⟨m, hm, hshows⟩ := h quarterShort ⟨_, chunkEstimate_quarterShort⟩
  exact not_showsCoverage hm roundsUp_quarterShort hshows

end BigfleetDashboard.Pages
