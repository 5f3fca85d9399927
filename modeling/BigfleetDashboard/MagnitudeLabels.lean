import BigfleetDashboard.DurationLabels
import BigfleetDashboard.Mantissas
import Mathlib.Tactic.MkIffOfInductiveProp

/-!
# The labels of magnitudes

Bytes, priorities and penalties are labelled with a mantissa and a unit. The unit is the
largest one that the exact value reaches, and the mantissa is rounded afterwards.
-/
namespace BigfleetDashboard.Pages
open Script FixedPlaces

/-! ## The labels -/

def binaryUnits : List (String × ℚ) :=
  [("Pi", 1024 ^ 5), ("Ti", 1024 ^ 4), ("Gi", 1024 ^ 3), ("Mi", 1024 ^ 2), ("Ki", 1024)]

def fmtBytes (bytes : ExtRat) : String :=
  match binaryUnits.find? (fun e => .fin e.2 ≤ bytes) with
  | some (unit, mult) => String.ofList (trimNum (bytes / .fin mult) 1) ++ " " ++ unit
  | none => String.ofList (trimNum bytes 0) ++ " B"

/-- `toLocaleString()`. Numbers that are finite are written without letters. -/
structure Locale where
  text : ExtRat → String
  no_letters : ∀ q, ∀ c ∈ (text (.fin q)).toList, c.isAlpha = false

def formatPriorityCompact (locale : Locale) (p : Option ExtRat) : String :=
  match p with
  | none => "—"
  | some p =>
    if ¬ p.IsFinite then "—"
    else if .fin (10 ^ 9) ≤ mathAbs p then String.ofList (trimNum (p / .fin (10 ^ 9)) 1) ++ "B"
    else if .fin (10 ^ 6) ≤ mathAbs p then String.ofList (trimNum (p / .fin (10 ^ 6)) 1) ++ "M"
    else locale.text (mathRound p)

/-- `(n / unit).toFixed(n % unit === 0 ? 0 : 1)`. -/
def fixedIn (unit : ℚ) (n : ExtRat) : List Char :=
  toFixed (if remainder n (.fin unit) = 0 then 0 else 1) (n / .fin unit)

def formatPenaltyBucket (b : String) : String :=
  if b = "pinned" then "Pinned"
  else if b = "unspecified" then "unspec."
  else
    let n := toNumber b
    if ¬ n.IsFinite then b
    else if n = 0 then "$0"
    else if n < 1 then "$" ++ template n
    else if .fin (10 ^ 6) ≤ n then "$" ++ String.ofList (fixedIn (10 ^ 6) n) ++ "M"
    else if .fin (10 ^ 3) ≤ n then "$" ++ String.ofList (fixedIn (10 ^ 3) n) ++ "K"
    else "$" ++ template n

/-- Characters whose capitals are letters of the basic alphabet. Others stay as they are:
their capitals have a character that is not of that alphabet, no digit and no point. -/
def upperChar (c : Char) : List Char :=
  if c.isLower then [c.toUpper]
  else if c = 'ı' then ['I']
  else if c = 'ſ' then ['S']
  else if c = 'ß' then ['S', 'S']
  else if c = 'ﬀ' then ['F', 'F']
  else if c = 'ﬁ' then ['F', 'I']
  else if c = 'ﬂ' then ['F', 'L']
  else if c = 'ﬃ' then ['F', 'F', 'I']
  else if c = 'ﬄ' then ['F', 'F', 'L']
  else if c = 'ﬅ' ∨ c = 'ﬆ' then ['S', 'T']
  else [c]

def toUpperCase (s : String) : String := String.ofList (s.toList.flatMap upperChar)

/-- `parseFloat(b.replace(/[^0-9.]/g, ""))`. -/
def penaltyNumber (b : String) : ExtRat :=
  parseFloat (b.toList.filter (fun c => c.isDigit || c = '.'))

def formatPenalty (locale : Locale) (bucket : Option String) : String :=
  match bucket with
  | none => "unset"
  | some bucket =>
    let b := toUpperCase bucket
    if bucket = "" then "unset"
    else if b = "UNSPECIFIED" then "unset"
    else if b = "ZERO" ∨ b = "$0" then "$0"
    else if b = "HALF_DOLLAR" then "$0.50"
    else if b = "PINNED" then "pinned"
    else
      let n := penaltyNumber b
      if ¬ n.IsFinite then bucket
      else if .fin (10 ^ 6) ≤ n then "$" ++ String.ofList (trimNum (n / .fin (10 ^ 6)) 1) ++ "M"
      else if .fin (10 ^ 3) ≤ n then "$" ++ String.ofList (trimNum (n / .fin (10 ^ 3)) 1) ++ "K"
      else "$" ++ locale.text n

/-! ## Bytes -/

/-- A label in a unit smaller than Pi has a mantissa below 1024. -/
def BytesNormalised (bytes : ExtRat) : Prop :=
  (readAmount (fmtBytes bytes)).2 ≠ " Pi" → (readAmount (fmtBytes bytes)).1 < .fin 1024

/-- The value is not within half a printed step of 1024 of its unit. -/
def BytesFit (q : ℚ) : Prop :=
  match binaryUnits.find? (fun e => e.2 ≤ q) with
  | some (unit, mult) => unit = "Pi" ∨ q < (1024 - 1 / 20) * mult
  | none => q < 1024 - 1 / 2

theorem le_of_mem_binaryUnits {e : String × ℚ} (h : e ∈ binaryUnits) : 1024 ≤ e.2 := by
  simp only [binaryUnits, List.mem_cons, List.not_mem_nil, or_false] at h
  rcases h with rfl | rfl | rfl | rfl | rfl
  all_goals norm_num

/-- Only values of at least a Pi are labelled in it. -/
theorem lt_of_find {q : ℚ} {e : String × ℚ}
    (h : binaryUnits.find? (fun e => e.2 ≤ q) = some e) (hunit : e.1 ≠ "Pi") : q < 1024 ^ 5 := by
  by_contra hle
  rw [binaryUnits, List.find?_cons_of_pos (by simpa using hle)] at h
  obtain rfl := Option.some.inj h
  exact hunit rfl

theorem readAmount_bytes (bytes : ExtRat) :
    readAmount (fmtBytes bytes) =
      match binaryUnits.find? (fun e => .fin e.2 ≤ bytes) with
      | some (unit, mult) => (parseFloat (trimNum (bytes / .fin mult) 1), " " ++ unit)
      | none => (parseFloat (trimNum bytes 0), " B") := by
  unfold fmtBytes
  cases binaryUnits.find? (fun e => .fin e.2 ≤ bytes) with
  | none => exact readAmount_append (isNumberChar_trimNum _ _) (isUnit_space "B")
  | some e =>
    dsimp only
    rw [String.append_assoc]
    exact readAmount_append (isNumberChar_trimNum _ _) (isUnit_space e.1)

theorem readAmount_infinite {bytes : ExtRat} (h : ¬ bytes.IsFinite) :
    (readAmount (fmtBytes bytes)).2 = " Pi" ∨ (readAmount (fmtBytes bytes)).1 = .fin 0 := by
  have hzero : ∀ n, ¬ n.IsFinite → ∀ dp, parseFloat (trimNum n dp) = .fin 0 := by
    intro n hn dp
    rw [trimNum, if_pos hn]
    exact (parseFloat_toDigits 0).trans (congrArg ExtRat.fin Nat.cast_zero)
  rw [readAmount_bytes]
  cases bytes with
  | fin q => exact absurd (ExtRat.isFinite_fin q) h
  | posInf => exact Or.inl rfl
  | nan => exact Or.inr (hzero _ h 0)
  | negInf => exact Or.inr (hzero _ h 0)

theorem bytesNormalised_fin_iff (q : ℚ) : BytesNormalised (.fin q) ↔ BytesFit q := by
  have hread := readAmount_bytes (.fin q)
  simp only [ExtRat.fin_le_fin] at hread
  unfold BytesNormalised BytesFit
  rw [hread]
  cases hfind : binaryUnits.find? (fun e => e.2 ≤ q) with
  | none =>
    have hsmall : q < 1024 := by
      have hki := List.find?_eq_none.mp hfind ("Ki", 1024) (by simp [binaryUnits])
      simpa using hki
    dsimp only
    rw [imp_iff_right (by decide)]
    by_cases hlarge : |q| < 10 ^ 21
    · rw [parseFloat_trimNum 0 hlarge, ExtRat.fin_lt_fin]
      by_cases hneg : q < 0
      · have hrounded := rounded_nonneg 0 (abs_nonneg q)
        rw [fixedValue, if_pos hneg]
        exact iff_of_true (by linarith) (by linarith)
      · rw [fixedValue_of_nonneg 0 (not_lt.mp hneg), rounded_lt_ofNat]
        norm_num
    · have hneg : q ≤ -10 ^ 21 := by
        rcases le_abs.mp (not_lt.mp hlarge) with h | h
        · linarith
        · linarith
      obtain ⟨v, hv, hle⟩ := trimNum_neg hneg 0
      rw [hv, ExtRat.fin_lt_fin]
      exact iff_of_true (by linarith) (by linarith)
  | some e =>
    have hmem := List.mem_of_find?_eq_some hfind
    have hmult := le_of_mem_binaryUnits hmem
    have hpos : 0 < e.2 := by linarith
    have hle : e.2 ≤ q := by simpa using List.find?_some hfind
    dsimp only
    by_cases hunit : e.1 = "Pi"
    · refine iff_of_true (fun h => absurd ?_ h) (Or.inl hunit)
      rw [hunit]
      rfl
    · have hlt := lt_of_find hfind hunit
      have hne : " " ++ e.1 ≠ " Pi" := by
        intro h
        have hpi : " " ++ e.1 = " " ++ "Pi" := h
        exact hunit ((String.append_right_inj " ").mp hpi)
      have hquotient : 0 ≤ q / e.2 := div_nonneg (by linarith) hpos.le
      have hsmall : |q / e.2| < 10 ^ 21 := by
        rw [abs_of_nonneg hquotient, div_lt_iff₀ hpos]
        nlinarith
      rw [imp_iff_right hne, or_iff_right hunit, ExtRat.fin_div_fin _ hpos.ne',
        parseFloat_trimNum 1 hsmall, ExtRat.fin_lt_fin, fixedValue_of_nonneg 1 hquotient,
        rounded_lt_ofNat, div_lt_iff₀ hpos]
      norm_num

theorem bytesNormalised_iff (bytes : ExtRat) :
    BytesNormalised bytes ↔ ∀ q, bytes = .fin q → BytesFit q := by
  by_cases hfinite : bytes.IsFinite
  · obtain ⟨q, rfl⟩ := hfinite
    rw [bytesNormalised_fin_iff]
    simp
  · refine iff_of_true ?_ ?_
    · intro hunit
      rcases readAmount_infinite hfinite with h | h
      · exact absurd h hunit
      · rw [h, ExtRat.fin_lt_fin]
        norm_num
    · rintro q rfl
      exact absurd (ExtRat.isFinite_fin q) hfinite

/-! ## Priorities -/

/-- A label in millions has a mantissa whose absolute value is below 1000. -/
def PriorityNormalised (locale : Locale) (p : Option ExtRat) : Prop :=
  (readAmount (formatPriorityCompact locale p)).2 = "M" →
    mathAbs (readAmount (formatPriorityCompact locale p)).1 < .fin 1000

/-- Below the end of a window, all but the window is below its start. -/
theorem lt_iff_not_window {x a b : ℚ} (h : x < b) : x < a ↔ ¬ (a ≤ x ∧ x < b) := by
  rw [not_and, not_lt]
  constructor
  · intro hlt hle
    exact absurd hlt (not_lt.mpr hle)
  · intro hwindow
    by_contra hge
    exact absurd h (not_lt.mpr (hwindow (not_lt.mp hge)))

theorem isUnit_letter {unit : String} (h : unit ∈ ["", "B", "K", "M"]) : IsUnit unit := by
  revert unit
  simp only [List.forall_mem_cons]
  refine ⟨?_, isUnit_of_head rfl (by decide), isUnit_of_head rfl (by decide),
    isUnit_of_head rfl (by decide), by simp⟩
  intro c hc
  cases hc

theorem priorityNormalised_fin_iff (locale : Locale) (q : ℚ) :
    PriorityNormalised locale (some (.fin q)) ↔
      ¬ (999950000 ≤ |q| ∧ |q| < 1000000000) := by
  have hfinite : ¬ ¬ (ExtRat.fin q).IsFinite := not_not.mpr (ExtRat.isFinite_fin q)
  unfold PriorityNormalised formatPriorityCompact
  dsimp only
  rw [if_neg hfinite, mathAbs]
  simp only [ExtRat.fin_le_fin]
  by_cases hbillion : (10 : ℚ) ^ 9 ≤ |q|
  · rw [if_pos hbillion, readAmount_append (isNumberChar_trimNum _ _) (isUnit_letter (by simp))]
    refine iff_of_true (fun h => absurd h (show ¬ "B" = "M" by decide)) ?_
    intro hwindow
    linarith [hwindow.2]
  · rw [if_neg hbillion]
    by_cases hmillion : (10 : ℚ) ^ 6 ≤ |q|
    · have habs : |q / 10 ^ 6| = |q| / 10 ^ 6 := by
        rw [abs_div, abs_of_nonneg (by norm_num : (0 : ℚ) ≤ 10 ^ 6)]
      have hsmall : |q / 10 ^ 6| < 10 ^ 21 := by
        rw [habs, div_lt_iff₀ (by norm_num)]
        linarith
      have hbound : (1000 - 1 / (2 * 10 ^ 1)) * 10 ^ 6 = (999950000 : ℚ) := by norm_num
      rw [if_pos hmillion, readAmount_append (isNumberChar_trimNum _ _) (isUnit_letter (by simp)),
        imp_iff_right rfl, ExtRat.fin_div_fin _ (by norm_num), parseFloat_trimNum 1 hsmall, mathAbs,
        ExtRat.fin_lt_fin, abs_fixedValue, habs, rounded_lt_ofNat, div_lt_iff₀ (by norm_num), hbound]
      exact lt_iff_not_window (by linarith)
    · rw [if_neg hmillion]
      refine iff_of_true (fun h => ?_) (fun hwindow => by linarith [hwindow.1])
      rw [mathRound] at h
      exact absurd h (unit_ne_of_no_letters (locale.no_letters _) (c := 'M') (by decide) (by decide))

theorem priorityNormalised_iff (locale : Locale) (p : Option ExtRat) :
    PriorityNormalised locale p ↔
      ∀ q, p = some (.fin q) → ¬ (999950000 ≤ |q| ∧ |q| < 1000000000) := by
  have hdash : (readAmount "—").2 ≠ "M" := by decide
  cases p with
  | none => exact iff_of_true (fun h => absurd h hdash) (by simp)
  | some x =>
    by_cases hfinite : x.IsFinite
    · obtain ⟨q, rfl⟩ := hfinite
      rw [priorityNormalised_fin_iff]
      simp
    · have htext : formatPriorityCompact locale (some x) = "—" := if_pos hfinite
      refine iff_of_true ?_ ?_
      · unfold PriorityNormalised
        rw [htext]
        exact fun h => absurd h hdash
      · rintro q hq
        obtain rfl := Option.some.inj hq
        exact absurd (ExtRat.isFinite_fin q) hfinite

/-! ## Penalties -/

/-- A label in thousands has a mantissa below 1000. -/
@[mk_iff] structure ThousandsNormalised (text : String) : Prop where
  below : (readAmount text).2 = "K" → (readAmount text).1 < .fin 1000

theorem isNumberChar_fixedIn {unit : ℚ} (hunit : unit ≠ 0) (n : ℚ) :
    ∀ c ∈ fixedIn unit (.fin n), isNumberChar c = true := by
  unfold fixedIn
  rw [ExtRat.fin_div_fin _ hunit]
  exact isNumberChar_toFixed _ _

section Thousands
variable {number : List Char}

theorem thousandsNormalised_label (hnumber : ∀ c ∈ number, isNumberChar c = true) {v : ℚ}
    (hread : parseFloat number = .fin v) :
    ThousandsNormalised ("$" ++ String.ofList number ++ "K") ↔ v < 1000 := by
  rw [thousandsNormalised_iff, readAmount_dollar hnumber (isUnit_letter (by simp)),
    imp_iff_right rfl, hread, ExtRat.fin_lt_fin]

/-- A label in another unit is no label in thousands. -/
theorem thousandsNormalised_of_ne (hnumber : ∀ c ∈ number, isNumberChar c = true) {unit : String}
    (hunit : unit ∈ ["", "B", "K", "M"]) (hne : unit ≠ "K") :
    ThousandsNormalised ("$" ++ String.ofList number ++ unit) := by
  constructor
  intro h
  rw [readAmount_dollar hnumber (isUnit_letter hunit)] at h
  exact absurd h hne

end Thousands

theorem thousandsNormalised_template (q : ℚ) : ThousandsNormalised ("$" ++ template (.fin q)) := by
  have hnone : "" ≠ "K" := by decide
  have hlabel := thousandsNormalised_of_ne (isNumberChar_exactText q) (by simp) hnone
  rw [String.append_empty] at hlabel
  exact hlabel

theorem thousand_bounds {n : ℚ} (hle : 10 ^ 3 ≤ n) (hlt : n < 10 ^ 6) :
    0 ≤ n / 10 ^ 3 ∧ |n / 10 ^ 3| < 10 ^ 21 := by
  have hquotient : 0 ≤ n / 10 ^ 3 := by
    have hn : (0 : ℚ) ≤ n := by linarith
    positivity
  refine ⟨hquotient, ?_⟩
  rw [abs_of_nonneg hquotient, div_lt_iff₀ (by norm_num)]
  linarith

/-- A multiple of 1000 is printed without places, and is below the window. -/
theorem fixedIn_thousand {n : ℚ} (hle : 10 ^ 3 ≤ n) (hlt : n < 10 ^ 6) :
    ∃ v, parseFloat (fixedIn (10 ^ 3) (.fin n)) = .fin v ∧ (v < 1000 ↔ n < 999950) := by
  obtain ⟨hquotient, hsmall⟩ := thousand_bounds hle hlt
  have hremainder : remainder (.fin n) (.fin (10 ^ 3)) =
      .fin (n - 10 ^ 3 * ⌊n / 10 ^ 3⌋) := by
    rw [remainder, if_neg (by norm_num), if_neg (not_lt.mpr hquotient)]
  unfold fixedIn
  rw [hremainder, ExtRat.fin_div_fin _ (by norm_num), ExtRat.zero_def]
  refine ⟨_, parseFloat_toFixed _ hsmall, ?_⟩
  rw [fixedValue_of_nonneg _ hquotient]
  split_ifs with hmultiple
  · have hzero : n - 10 ^ 3 * ⌊n / 10 ^ 3⌋ = 0 := ExtRat.fin.inj hmultiple
    have hvalue : n / 10 ^ 3 = (⌊n / 10 ^ 3⌋ : ℤ) := by
      rw [div_eq_iff (by norm_num)]
      linarith
    have hcount : ⌊n / 10 ^ 3⌋ < 1000 := by
      rw [Int.floor_lt, div_lt_iff₀ (by norm_num)]
      norm_num
      linarith
    have hbelow : (⌊n / 10 ^ 3⌋ : ℚ) ≤ (999 : ℤ) := by
      rw [Int.cast_le]
      omega
    rw [rounded_eq_self 0 (z := ⌊n / 10 ^ 3⌋) (by rw [pow_zero, mul_one]; exact hvalue)]
    exact iff_of_true (by linarith) (by linarith)
  · rw [rounded_lt_ofNat, div_lt_iff₀ (by norm_num)]
    norm_num

theorem trimNum_thousand {n : ℚ} (hle : 10 ^ 3 ≤ n) (hlt : n < 10 ^ 6) :
    ∃ v, parseFloat (trimNum (.fin n / .fin (10 ^ 3)) 1) = .fin v ∧ (v < 1000 ↔ n < 999950) := by
  obtain ⟨hquotient, hsmall⟩ := thousand_bounds hle hlt
  have hbound : (1000 - 1 / (2 * 10 ^ 1)) * 10 ^ 3 = (999950 : ℚ) := by norm_num
  rw [ExtRat.fin_div_fin _ (by norm_num)]
  refine ⟨_, parseFloat_trimNum 1 hsmall, ?_⟩
  rw [fixedValue_of_nonneg 1 hquotient, rounded_lt_ofNat, div_lt_iff₀ (by norm_num), hbound]

theorem thousandsNormalised_of_not_mem {text : String} (h : 'K' ∉ text.toList) :
    ThousandsNormalised text := by
  constructor
  intro hunit
  have hmem : 'K' ∈ (readAmount text).2.toList := by
    rw [hunit]
    decide
  exact absurd (mem_of_mem_unit hmem) h

/-- The number of a bucket is not in the window below a million. A bucket without a number
is printed by its name or as it is, and then it is the text that has to be in thousands. -/
def PenaltyFits (b : String) (n : ExtRat) : Prop :=
  match n with
  | .fin n => ¬ (999950 ≤ n ∧ n < 1000000)
  | _ => ThousandsNormalised b

theorem penaltyFits_of_not_isFinite {b : String} {n : ExtRat} (h : ¬ n.IsFinite) :
    PenaltyFits b n ↔ ThousandsNormalised b := by
  cases n with
  | fin q => exact absurd (ExtRat.isFinite_fin q) h
  | posInf => rfl
  | negInf => rfl
  | nan => rfl

theorem penaltyBucket_fin_iff {b : String} {n : ℚ} (hn : toNumber b = .fin n) :
    ThousandsNormalised (formatPenaltyBucket b) ↔ ¬ (999950 ≤ n ∧ n < 1000000) := by
  have hfinite : ¬ ¬ (ExtRat.fin n).IsFinite := not_not.mpr (ExtRat.isFinite_fin n)
  have hone : (1 : ExtRat) = .fin 1 := rfl
  have hpinned : b ≠ "pinned" := by
    rintro rfl
    cases hn
  have hunspecified : b ≠ "unspecified" := by
    rintro rfl
    cases hn
  unfold formatPenaltyBucket
  dsimp only
  rw [if_neg hpinned, if_neg hunspecified, hn, if_neg hfinite]
  simp only [ExtRat.zero_def, hone, ExtRat.fin.injEq, ExtRat.fin_lt_fin, ExtRat.fin_le_fin]
  split_ifs with hzero hsmall hmillion hthousand
  · refine iff_of_true (thousandsNormalised_of_not_mem (by decide)) ?_
    intro hwindow
    linarith [hwindow.1]
  · refine iff_of_true (thousandsNormalised_template n) ?_
    intro hwindow
    linarith [hwindow.1]
  · have hunit : (10 : ℚ) ^ 6 ≠ 0 := by norm_num
    have hother : "M" ≠ "K" := by decide
    refine iff_of_true
      (thousandsNormalised_of_ne (isNumberChar_fixedIn hunit n) (by simp) hother) ?_
    intro hwindow
    linarith [hwindow.2]
  · obtain ⟨v, hread, hiff⟩ := fixedIn_thousand hthousand (not_le.mp hmillion)
    rw [thousandsNormalised_label (isNumberChar_fixedIn (by norm_num) n) hread, hiff]
    exact lt_iff_not_window (by linarith)
  · refine iff_of_true (thousandsNormalised_template n) ?_
    intro hwindow
    linarith [hwindow.1]

theorem penaltyBucket_normalised_iff (b : String) :
    ThousandsNormalised (formatPenaltyBucket b) ↔ PenaltyFits b (toNumber b) := by
  by_cases hfinite : (toNumber b).IsFinite
  · obtain ⟨n, hn⟩ := hfinite
    rw [hn]
    exact penaltyBucket_fin_iff hn
  · rw [penaltyFits_of_not_isFinite hfinite]
    unfold formatPenaltyBucket
    dsimp only
    rw [if_pos hfinite]
    split_ifs with hpinned hunspecified
    · rw [hpinned]
      exact iff_of_true (thousandsNormalised_of_not_mem (by decide))
        (thousandsNormalised_of_not_mem (by decide))
    · rw [hunspecified]
      exact iff_of_true (thousandsNormalised_of_not_mem (by decide))
        (thousandsNormalised_of_not_mem (by decide))
    · rfl

/-- Of the named buckets only `$0` has a number. -/
theorem penaltyNumber_named {b : String} {n : ℚ} (hn : penaltyNumber b = .fin n)
    (h : b ∈ ["", "UNSPECIFIED", "ZERO", "$0", "HALF_DOLLAR", "PINNED"]) : n = 0 := by
  have hdollar : penaltyNumber "$0" = .fin 0 := by
    calc penaltyNumber "$0" = parseFloat (Nat.toDigits 10 0) := congrArg parseFloat (by decide)
      _ = .fin 0 := (parseFloat_toDigits 0).trans (congrArg ExtRat.fin Nat.cast_zero)
  simp only [List.mem_cons, List.not_mem_nil, or_false] at h
  rcases h with rfl | rfl | rfl | rfl | rfl | rfl
  · cases hn
  · cases hn
  · cases hn
  · exact ExtRat.fin.inj (hn.symm.trans hdollar)
  · cases hn
  · cases hn

theorem penalty_fin_iff (locale : Locale) {bucket : String} {n : ℚ}
    (hn : penaltyNumber (toUpperCase bucket) = .fin n) :
    ThousandsNormalised (formatPenalty locale (some bucket)) ↔
      ¬ (999950 ≤ n ∧ n < 1000000) := by
  have hfinite : ¬ ¬ (ExtRat.fin n).IsFinite := not_not.mpr (ExtRat.isFinite_fin n)
  have hnamed : ∀ text : String, 'K' ∉ text.toList →
      toUpperCase bucket ∈ ["", "UNSPECIFIED", "ZERO", "$0", "HALF_DOLLAR", "PINNED"] →
      (ThousandsNormalised text ↔ ¬ (999950 ≤ n ∧ n < 1000000)) := by
    intro text htext hb
    refine iff_of_true (thousandsNormalised_of_not_mem htext) ?_
    rw [penaltyNumber_named hn hb]
    norm_num
  unfold formatPenalty
  dsimp only
  rw [hn, if_neg hfinite]
  simp only [ExtRat.fin_le_fin]
  split_ifs with hempty hunspecified hzero hhalf hpinned hmillion hthousand
  · refine hnamed _ (by decide) ?_
    rw [hempty]
    decide
  · exact hnamed _ (by decide) (by simp [hunspecified])
  · refine hnamed _ (by decide) ?_
    rcases hzero with h | h
    · simp [h]
    · simp [h]
  · exact hnamed _ (by decide) (by simp [hhalf])
  · exact hnamed _ (by decide) (by simp [hpinned])
  · refine iff_of_true
      (thousandsNormalised_of_ne (isNumberChar_trimNum _ _) (by simp) (by decide)) ?_
    intro hwindow
    linarith [hwindow.2]
  · obtain ⟨v, hread, hiff⟩ := trimNum_thousand hthousand (not_le.mp hmillion)
    rw [thousandsNormalised_label (isNumberChar_trimNum _ _) hread, hiff]
    exact lt_iff_not_window (by linarith)
  · have hmem : 'K' ∉ ("$" ++ locale.text (.fin n)).toList := by
      intro h
      rw [String.toList_append] at h
      rcases List.mem_append.mp h with h | h
      · exact absurd h (by decide)
      · exact absurd (locale.no_letters n 'K' h) (by decide)
    refine iff_of_true (thousandsNormalised_of_not_mem hmem) ?_
    intro hwindow
    linarith [hwindow.1]

/-- Capitals stay capitals. -/
theorem mem_toUpperCase {s : String} (h : 'K' ∈ s.toList) : 'K' ∈ (toUpperCase s).toList := by
  rw [toUpperCase, String.toList_ofList, List.mem_flatMap]
  exact ⟨'K', h, by decide⟩

theorem penalty_unnumbered_iff (locale : Locale) {bucket : String}
    (hfinite : ¬ (penaltyNumber (toUpperCase bucket)).IsFinite) :
    ThousandsNormalised (formatPenalty locale (some bucket)) ↔ ThousandsNormalised bucket := by
  have hnamed : ∀ text : String, 'K' ∉ text.toList → 'K' ∉ (toUpperCase bucket).toList →
      (ThousandsNormalised text ↔ ThousandsNormalised bucket) := by
    intro text htext hb
    have hbucket : 'K' ∉ bucket.toList := fun h => hb (mem_toUpperCase h)
    exact iff_of_true (thousandsNormalised_of_not_mem htext)
      (thousandsNormalised_of_not_mem hbucket)
  unfold formatPenalty
  dsimp only
  rw [if_pos hfinite]
  split_ifs with hempty hunspecified hzero hhalf hpinned
  · refine hnamed _ (by decide) ?_
    rw [hempty]
    decide
  · refine hnamed _ (by decide) ?_
    rw [hunspecified]
    decide
  · refine hnamed _ (by decide) ?_
    rcases hzero with h | h
    · rw [h]
      decide
    · rw [h]
      decide
  · refine hnamed _ (by decide) ?_
    rw [hhalf]
    decide
  · refine hnamed _ (by decide) ?_
    rw [hpinned]
    decide
  · rfl

theorem penalty_normalised_iff (locale : Locale) (bucket : Option String) :
    ThousandsNormalised (formatPenalty locale bucket) ↔
      ∀ b, bucket = some b → PenaltyFits b (penaltyNumber (toUpperCase b)) := by
  cases bucket with
  | none =>
    have hunset : ThousandsNormalised "unset" := thousandsNormalised_of_not_mem (by decide)
    exact iff_of_true hunset (by simp)
  | some bucket =>
    simp only [Option.some.injEq, forall_eq']
    by_cases hfinite : (penaltyNumber (toUpperCase bucket)).IsFinite
    · obtain ⟨n, hn⟩ := hfinite
      rw [hn]
      exact penalty_fin_iff locale hn
    · rw [penaltyFits_of_not_isFinite hfinite]
      exact penalty_unnumbered_iff locale hfinite

/-! ## The labels as a whole -/

/-- When mantissas stay below the next unit. -/
theorem magnitudes_normalised_iff (locale : Locale) :
    (∀ bytes, BytesNormalised bytes ↔ ∀ q, bytes = .fin q → BytesFit q) ∧
    (∀ p, PriorityNormalised locale p ↔
      ∀ q, p = some (.fin q) → ¬ (999950000 ≤ |q| ∧ |q| < 1000000000)) ∧
    (∀ b, ThousandsNormalised (formatPenaltyBucket b) ↔ PenaltyFits b (toNumber b)) ∧
    ∀ bucket, ThousandsNormalised (formatPenalty locale bucket) ↔
      ∀ b, bucket = some b → PenaltyFits b (penaltyNumber (toUpperCase b)) :=
  ⟨bytesNormalised_iff, priorityNormalised_iff locale, penaltyBucket_normalised_iff,
    penalty_normalised_iff locale⟩

/-- Digits in groups of three, from the end of the number. -/
def groupDigits : List Char → List Char
  | a :: b :: c :: d :: rest => a :: b :: c :: ',' :: groupDigits (d :: rest)
  | digits => digits

theorem mem_groupDigits {digits : List Char} {c : Char} (h : c ∈ groupDigits digits) :
    c ∈ digits ∨ c = ',' := by
  fun_induction groupDigits digits with
  | case1 a b d e rest ih =>
    simp only [List.mem_cons] at h ih ⊢
    tauto
  | case2 digits => exact Or.inl h

/-- A locale as it writes whole numbers. -/
def groupedLocale : Locale where
  text
    | .fin q =>
      let digits := (groupDigits (Nat.toDigits 10 (steps 0 |q|).toNat).reverse).reverse
      String.ofList ((if q < 0 then ['-'] else []) ++ digits)
    | _ => "∞"
  no_letters q c hc := by
    rw [String.toList_ofList, List.mem_append, List.mem_reverse] at hc
    rcases hc with hc | hc
    · split_ifs at hc
      · rw [List.mem_singleton.mp hc]
        decide
      · cases hc
    · rcases mem_groupDigits hc with hc | rfl
      · exact isAlpha_of_isDigit (isDigit_of_mem_toDigits (List.mem_reverse.mp hc))
      · decide

theorem magnitudes_normalised_4096 :
    ThousandsNormalised (formatPenaltyBucket "4096") ∧
      ThousandsNormalised (formatPenalty groupedLocale (some "4096")) := by
  obtain ⟨-, -, hbucket, hpenalty⟩ := magnitudes_normalised_iff groupedLocale
  have hnumber : toNumber "4096" = .fin (4096 : ℕ) := by
    rw [← Numeral.value_ofNat]
    exact toNumber_numeral (Numeral.ofNat 4096)
  have hupper : toUpperCase "4096" = "4096" := by decide
  have hpenaltyNumber : penaltyNumber (toUpperCase "4096") = .fin (4096 : ℕ) := by
    rw [hupper]
    calc penaltyNumber "4096" = parseFloat (Nat.toDigits 10 4096) := congrArg parseFloat (by decide)
      _ = .fin (4096 : ℕ) := parseFloat_toDigits 4096
  have hwindow : ¬ ((999950 : ℚ) ≤ (4096 : ℕ) ∧ ((4096 : ℕ) : ℚ) < 1000000) := by norm_num
  refine ⟨(hbucket "4096").mpr ?_, (hpenalty (some "4096")).mpr ?_⟩
  · rw [hnumber]
    exact hwindow
  · intro b hb
    obtain rfl := Option.some.inj hb
    rw [hpenaltyNumber]
    exact hwindow

/-- One byte less than a Mi is printed as 1024 Ki. -/
theorem magnitudes_not_normalised : ¬ ∀ bytes, BytesNormalised bytes := by
  intro h
  have hfit := (bytesNormalised_fin_iff 1048575).mp (h _)
  have hfind : binaryUnits.find? (fun e => e.2 ≤ (1048575 : ℚ)) = some ("Ki", 1024) := by
    norm_num [binaryUnits]
  rw [BytesFit, hfind] at hfit
  norm_num at hfit
  exact absurd hfit (by decide)

end BigfleetDashboard.Pages
