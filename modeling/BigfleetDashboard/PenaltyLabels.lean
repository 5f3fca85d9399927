import BigfleetDashboard.MagnitudeLabels
import BigfleetDashboard.ScriptArithmetic
import BigfleetDashboard.TrimmedZeros

/-!
# The two labels of a penalty

The FinOps page and the needs page label a penalty each with a function of its own. One
drops the place of a mantissa if the penalty is a multiple of its unit, the other if the
place is a zero, so the labels differ where the mantissa is only rounded to a whole number.
-/
namespace BigfleetDashboard.Pages
open Script FixedPlaces BinaryRounding

/-! ## The labels with rounding -/

section Labels
variable (a : Arithmetic)

def trimNumIn (n : ExtRat) (dp : ℕ) : List Char :=
  if ¬ n.IsFinite then ['0'] else replaceZeros (a.toFixed dp n)

/-- `(n / unit).toFixed(n % unit === 0 ? 0 : 1)`. -/
def fixedUnit (unit : ℚ) (n : ExtRat) : List Char :=
  a.toFixed (if remainder n (.fin unit) = 0 then 0 else 1) (a.div n (.fin unit))

def formatPenaltyBucketIn (b : String) : String :=
  if b = "pinned" then "Pinned"
  else if b = "unspecified" then "unspec."
  else
    let n := a.value (toNumber b)
    if ¬ n.IsFinite then b
    else if n = 0 then "$0"
    else if n < 1 then "$" ++ String.ofList (a.textOf n)
    else if .fin (10 ^ 6) ≤ n then "$" ++ String.ofList (fixedUnit a (10 ^ 6) n) ++ "M"
    else if .fin (10 ^ 3) ≤ n then "$" ++ String.ofList (fixedUnit a (10 ^ 3) n) ++ "K"
    else "$" ++ String.ofList (a.textOf n)

def formatPenaltyIn (locale : Locale) (bucket : Option String) : String :=
  match bucket with
  | none => "unset"
  | some bucket =>
    let b := toUpperCase bucket
    if bucket = "" then "unset"
    else if b = "UNSPECIFIED" then "unset"
    else if b = "ZERO" ∨ b = "$0" then "$0"
    else if b = "HALF_DOLLAR" then "$0.50"
    else if b = "PINNED" then "pinned"
    else
      let n := a.value (penaltyNumber b)
      if ¬ n.IsFinite then bucket
      else if .fin (10 ^ 6) ≤ n then
        "$" ++ String.ofList (trimNumIn a (a.div n (.fin (10 ^ 6))) 1) ++ "M"
      else if .fin (10 ^ 3) ≤ n then
        "$" ++ String.ofList (trimNumIn a (a.div n (.fin (10 ^ 3))) 1) ++ "K"
      else "$" ++ locale.text n

end Labels

/-! ## Without rounding -/

section Exact

theorem exact_value (x : ExtRat) : Arithmetic.exact.value x = x := by
  cases x <;> rfl

theorem exact_textOf (x : ExtRat) : Arithmetic.exact.textOf x = exactText x := by
  cases x <;> rfl

theorem exact_toFixed (places : ℕ) (x : ExtRat) :
    Arithmetic.exact.toFixed places x = toFixed places x := by
  cases x with
  | fin q =>
    unfold Arithmetic.toFixed toFixed signed
    simp only [decide_eq_true_eq]
    rfl
  | nan => rfl
  | posInf => rfl
  | negInf => rfl

theorem trimNumIn_exact (x : ExtRat) (dp : ℕ) : trimNumIn .exact x dp = trimNum x dp := by
  rw [trimNumIn, trimNum, exact_toFixed, replaceZeros_eq]

theorem formatPenaltyBucketIn_exact (b : String) :
    formatPenaltyBucketIn .exact b = formatPenaltyBucket b := by
  unfold formatPenaltyBucketIn formatPenaltyBucket fixedUnit fixedIn Arithmetic.div template
  simp only [exact_value, exact_textOf, exact_toFixed]

theorem formatPenaltyIn_exact (locale : Locale) (bucket : Option String) :
    formatPenaltyIn .exact locale bucket = formatPenalty locale bucket := by
  cases bucket with
  | none => rfl
  | some b =>
    unfold formatPenaltyIn formatPenalty Arithmetic.div
    simp only [exact_value, trimNumIn_exact]

end Exact

/-! ## Whole numbers -/

/-- The decimal text of a natural number. -/
def decimalText (n : ℕ) : String := String.ofList (Nat.toDigits 10 n)

theorem toNumber_decimalText (n : ℕ) : toNumber (decimalText n) = .fin n := by
  have hread := toNumber_numeral (Numeral.ofNat n)
  rwa [Numeral.chars_ofNat, Numeral.value_ofNat] at hread

theorem upperChar_of_isDigit {c : Char} (h : c.isDigit = true) : upperChar c = [c] := by
  have hother : ∀ d : Char, d.isDigit = false → c ≠ d := by
    intro d hd heq
    rw [heq, hd] at h
    cases h
  have hlower : c.isLower = false := by
    have halpha := isAlpha_of_isDigit h
    exact (Bool.or_eq_false_iff.mp halpha).2
  unfold upperChar
  rw [if_neg (by rw [hlower]; exact Bool.false_ne_true), if_neg (hother _ rfl),
    if_neg (hother _ rfl), if_neg (hother _ rfl), if_neg (hother _ rfl), if_neg (hother _ rfl),
    if_neg (hother _ rfl), if_neg (hother _ rfl), if_neg (hother _ rfl)]
  exact if_neg (fun hor => hor.elim (hother _ rfl) (hother _ rfl))

theorem toUpperCase_decimalText (n : ℕ) : toUpperCase (decimalText n) = decimalText n := by
  have hdigits : ∀ s : List Char, (∀ c ∈ s, c.isDigit = true) → s.flatMap upperChar = s := by
    intro s hs
    induction s with
    | nil => rfl
    | cons c s ih =>
      rw [List.forall_mem_cons] at hs
      rw [List.flatMap_cons, upperChar_of_isDigit hs.1, ih hs.2, List.singleton_append]
  rw [toUpperCase, decimalText, String.toList_ofList,
    hdigits _ (fun c hc => isDigit_of_mem_toDigits hc)]

theorem penaltyNumber_decimalText (n : ℕ) : penaltyNumber (decimalText n) = .fin n := by
  have hfilter : (Nat.toDigits 10 n).filter (fun c => c.isDigit || c = '.') =
      Nat.toDigits 10 n := by
    rw [List.filter_eq_self]
    intro c hc
    simp [isDigit_of_mem_toDigits hc]
  rw [penaltyNumber, decimalText, String.toList_ofList, hfilter, parseFloat_toDigits]

/-- A text with another character is no decimal text. -/
theorem decimalText_ne {n : ℕ} {s : String} {c : Char} (hc : c ∈ s.toList)
    (hdigit : c.isDigit = false) : decimalText n ≠ s := by
  intro h
  rw [← h, decimalText, String.toList_ofList] at hc
  rw [isDigit_of_mem_toDigits hc] at hdigit
  cases hdigit

theorem decimalText_ne_empty (n : ℕ) : decimalText n ≠ "" := by
  intro h
  have hlist := congrArg String.toList h
  rw [decimalText, String.toList_ofList] at hlist
  exact Nat.toDigits_ne_nil hlist

/-! ## Mantissas with one place -/

theorem not_all_exponent {p : Char → Bool} (hp : p 'e' = false) (s t : List Char) :
    ¬ (s ++ 'e' :: t).all p = true := by
  intro hall
  have he := List.all_eq_true.mp hall 'e' (by simp)
  rw [hp] at he
  cases he

section Exponent
variable (s : List Char) {t : List Char} (ht : '.' ∉ t)
include ht

theorem notMem_exponent : '.' ∉ 'e' :: t := by
  rw [List.mem_cons, not_or]
  exact ⟨by decide, ht⟩

theorem dropZeroFraction_exponent : dropZeroFraction (s ++ 'e' :: t) = s ++ 'e' :: t := by
  induction s with
  | nil => exact dropZeroFraction_eq_self (notMem_exponent ht)
  | cons c s ih =>
    have hzeros : ¬ (s ++ 'e' :: t).all (fun c => c = '0') = true := not_all_exponent rfl s t
    rw [List.cons_append, dropZeroFraction, if_neg (fun h => hzeros h.2.2), ih]

theorem dropFractionZeros_exponent : dropFractionZeros (s ++ 'e' :: t) = s ++ 'e' :: t := by
  induction s with
  | nil => exact dropFractionZeros_eq_self (notMem_exponent ht)
  | cons c s ih =>
    have hdigits : ¬ (s ++ 'e' :: t).all Char.isDigit = true := not_all_exponent rfl s t
    rw [List.cons_append, dropFractionZeros, if_neg (fun h => hdigits h.2.1), ih]

/-- A text with an exponent is not trimmed: no row of digits behind its point ends it. -/
theorem replaceZeros_exponent : replaceZeros (s ++ 'e' :: t) = s ++ 'e' :: t := by
  rw [replaceZeros_eq, dropZeroFraction_exponent s ht, dropFractionZeros_exponent s ht]

end Exponent

/-- The one place of a mantissa. -/
theorem fraction_one (m : ℕ) :
    ∃ c, (fixedNumeral 1 m).fraction = some [c] ∧ (c = '0' ↔ 10 ∣ m) := by
  have hlength := le_length_padded 2 m
  have hdrop : ((paddedDigits 2 m).drop ((paddedDigits 2 m).length - 1)).length = 1 := by
    rw [List.length_drop]
    omega
  obtain ⟨c, hc⟩ := List.length_eq_one_iff.mp hdrop
  refine ⟨c, congrArg some hc, ?_⟩
  have hmem : c ∈ (paddedDigits 2 m).drop ((paddedDigits 2 m).length - 1) := by
    rw [hc]
    exact List.mem_singleton_self c
  have hdigit : c.isDigit = true := isDigit_of_mem_padded (List.mem_of_mem_drop hmem)
  have hrange : 48 ≤ c.toNat ∧ c.toNat ≤ 57 := Char.isDigit_iff_toNat.mp hdigit
  have hvalue := digitsValue_padded 2 m
  rw [← List.take_append_drop ((paddedDigits 2 m).length - 1) (paddedDigits 2 m), hc,
    digitsValue_append] at hvalue
  have hplace : digitsValue [c] = c.toNat - 48 := by simp [digitsValue]
  rw [hplace, List.length_singleton, pow_one] at hvalue
  have hzero : c = '0' ↔ c.toNat = 48 := by
    constructor
    · intro h
      rw [h]
      rfl
    · intro h
      exact Char.toNat_inj.mp h
  rw [hzero]
  omega

theorem signed_inj {negative : Bool} {d d' : Numeral} :
    signed negative d = signed negative d' ↔ d.chars = d'.chars := by
  cases negative with
  | true => exact ⟨fun h => (List.cons.inj h).2, fun h => congrArg ('-' :: ·) h⟩
  | false => exact Iff.rfl

/-- Trimming takes the place away if it is a zero. -/
theorem chars_trimmed_place {d : Numeral} (h : d.whole ≠ []) {c : Char}
    (hfraction : d.fraction = some [c]) :
    (trimmed d h).chars = if c = '0' then d.whole else d.chars := by
  have hplaces : d.places = [c] := by rw [Numeral.places, hfraction, Option.getD_some]
  unfold Numeral.chars Numeral.pointed trimmed
  dsimp only
  rw [hplaces, hfraction]
  by_cases hc : c = '0'
  · have hnil : trimZeros [c] = [] := by
      rw [hc]
      rfl
    rw [hnil, if_pos rfl, if_pos hc, List.append_nil]
  · have hself : trimZeros [c] = [c] := trimZeros_eq_self (by simpa using hc)
    rw [hself, if_neg (List.cons_ne_nil c []), if_neg hc]

section Mantissa
variable (negative : Bool)

theorem replaceZeros_fixedNumeral (places m : ℕ) :
    replaceZeros (signed negative (fixedNumeral places m)) =
      signed negative (trimmed (fixedNumeral places m) (whole_fixedNumeral_ne_nil places m)) := by
  rw [replaceZeros_eq, trim_signed _ _ (fraction_fixedNumeral_ne places m)]

/-- A mantissa with one place is not trimmed unless the place is a zero. -/
theorem replaceZeros_place_iff (m : ℕ) :
    replaceZeros (signed negative (fixedNumeral 1 m)) = signed negative (fixedNumeral 1 m) ↔
      ¬ 10 ∣ m := by
  obtain ⟨c, hfraction, hzero⟩ := fraction_one m
  rw [replaceZeros_fixedNumeral, signed_inj, chars_trimmed_place _ hfraction, ← hzero]
  split_ifs with hc
  · refine iff_of_false (fun h => ?_) (not_not.mpr hc)
    have hlength := congrArg List.length h
    simp [Numeral.chars, Numeral.pointed, hfraction] at hlength
  · exact iff_of_true rfl hc

theorem toDigits_ten_mul {j : ℕ} (h : 0 < j) :
    Nat.toDigits 10 (10 * j) = Nat.toDigits 10 j ++ ['0'] :=
  (Nat.toDigits_append_toDigits (by decide) h (by decide : 0 < 10)).symm

/-- A whole number with one place is trimmed to what it is without a place. -/
theorem replaceZeros_whole (j : ℕ) :
    replaceZeros (signed negative (fixedNumeral 1 (10 * j))) =
      signed negative (fixedNumeral 0 j) := by
  obtain ⟨c, hfraction, hzero⟩ := fraction_one (10 * j)
  have hchars : (fixedNumeral 0 j).chars = paddedDigits 1 j := by
    simp [Numeral.chars, Numeral.pointed, fixedNumeral]
  have hwhole : (fixedNumeral 1 (10 * j)).whole = paddedDigits 1 j := by
    rcases Nat.eq_zero_or_pos j with rfl | hj
    · rfl
    · have hpos := Nat.length_toDigits_pos (b := 10) (n := j)
      have hlong : paddedDigits 2 (10 * j) = Nat.toDigits 10 j ++ ['0'] := by
        rw [paddedDigits, toDigits_ten_mul hj, List.length_append, List.length_singleton,
          Nat.sub_eq_zero_of_le (by omega)]
        rfl
      have hshort : paddedDigits 1 j = Nat.toDigits 10 j := by
        rw [paddedDigits, Nat.sub_eq_zero_of_le (by omega)]
        rfl
      have htake : (fixedNumeral 1 (10 * j)).whole =
          (paddedDigits 2 (10 * j)).take ((paddedDigits 2 (10 * j)).length - 1) := rfl
      rw [htake, hlong, hshort, List.length_append, List.length_singleton, Nat.add_sub_cancel,
        List.take_left']
      rfl
  rw [replaceZeros_fixedNumeral, signed_inj, chars_trimmed_place _ hfraction,
    if_pos (hzero.mpr (Nat.dvd_mul_right 10 j)), hwhole, hchars]

end Mantissa

/-! ## When the labels are one -/

theorem remainder_eq_zero_iff {unit x : ℚ} (hunit : 0 < unit) (hx : 0 ≤ x) :
    remainder (.fin x) (.fin unit) = 0 ↔ ∃ m : ℤ, x = unit * m := by
  have hquotient : 0 ≤ x / unit := div_nonneg hx hunit.le
  rw [remainder, if_neg hunit.ne', if_neg (not_lt.mpr hquotient), ExtRat.zero_def,
    ExtRat.fin.injEq, sub_eq_zero]
  constructor
  · intro h
    exact ⟨_, h⟩
  · intro h
    obtain ⟨m, rfl⟩ := h
    rw [mul_div_cancel_left₀ _ hunit.ne', Int.floor_intCast]

/-- A whole number of steps. -/
theorem steps_natCast (places j : ℕ) : steps places (j : ℚ) = j * 10 ^ places := by
  have hquotient : (j : ℚ) = ((j * 10 ^ places : ℤ) : ℚ) / 10 ^ places := by
    push_cast
    rw [mul_div_cancel_right₀ _ (by positivity)]
  rw [hquotient, steps_div]

section Agreement
variable (a : Arithmetic)

/-- The mantissa of `x` is too large for places, `x` is a multiple of the unit, or the one
place of the mantissa is no zero. -/
def OneMantissa (unit x : ℚ) : Prop :=
  match a.round (x / unit) with
  | .fin y => 10 ^ 21 ≤ |y| ∨ (∃ m : ℤ, x = unit * m) ∨ ¬ (10 : ℤ) ∣ steps 1 |y|
  | _ => False

theorem trimNumIn_fin (y : ℚ) : trimNumIn a (.fin y) 1 = replaceZeros (a.toFixed 1 (.fin y)) :=
  if_neg (not_not.mpr (ExtRat.isFinite_fin y))

/-- Both functions print a mantissa that is a whole number without places. -/
theorem toFixed_whole {j : ℕ} (h : |(j : ℚ)| < 10 ^ 21) :
    a.toFixed 0 (.fin j) = replaceZeros (a.toFixed 1 (.fin j)) := by
  have hnonneg : (0 : ℚ) ≤ j := Nat.cast_nonneg j
  have hsteps : (steps 0 |(j : ℚ)|).toNat = j := by
    rw [abs_of_nonneg hnonneg, steps_natCast, pow_zero, mul_one, Int.toNat_natCast]
  have hplaces : (steps 1 |(j : ℚ)|).toNat = 10 * j := by
    rw [abs_of_nonneg hnonneg, steps_natCast]
    omega
  rw [a.toFixed_of_small 0 h, a.toFixed_of_small 1 h, hsteps, hplaces, replaceZeros_whole]

theorem toFixed_place_iff {y : ℚ} (h : |y| < 10 ^ 21) :
    a.toFixed 1 (.fin y) = replaceZeros (a.toFixed 1 (.fin y)) ↔ ¬ (10 : ℤ) ∣ steps 1 |y| := by
  have hnonneg := steps_nonneg 1 (abs_nonneg y)
  have hdvd : 10 ∣ (steps 1 |y|).toNat ↔ (10 : ℤ) ∣ steps 1 |y| := by omega
  rw [a.toFixed_of_small 1 h, eq_comm, replaceZeros_place_iff, hdvd]

/-- A quotient that is a multiple of the unit is rounded to a whole number. -/
theorem toFixed_multiple {unit : ℚ} (hunit : 0 < unit) {k : ℕ} {m : ℤ} (hm : (k : ℚ) = unit * m)
    {y : ℚ} (hround : a.round (k / unit) = .fin y) (hsmall : |y| < 10 ^ 21) :
    a.toFixed 0 (.fin y) = replaceZeros (a.toFixed 1 (.fin y)) := by
  have hm_nonneg : (0 : ℚ) ≤ m := by
    rw [← mul_nonneg_iff_of_pos_left hunit, ← hm]
    exact Nat.cast_nonneg k
  obtain ⟨j, rfl⟩ := Int.eq_ofNat_of_zero_le (Int.cast_nonneg_iff.mp hm_nonneg)
  rw [hm, mul_div_cancel_left₀ _ hunit.ne', Int.cast_natCast] at hround
  rcases a.round_natCast j with hinfinite | ⟨i, hi⟩
  · rw [hround] at hinfinite
    exact absurd (ExtRat.isFinite_fin y) hinfinite
  · rw [hround] at hi
    obtain rfl := ExtRat.fin.inj hi
    exact toFixed_whole a hsmall

/-- A mantissa that is no number is printed as a word by one function only. -/
theorem toFixed_ne_trimNumIn (places : ℕ) {x : ExtRat} (hx : ¬ x.IsFinite) :
    a.toFixed places x ≠ trimNumIn a x 1 := by
  rw [trimNumIn, if_pos hx]
  cases x with
  | fin q => exact absurd (ExtRat.isFinite_fin q) hx
  | nan => exact (by decide : exactText .nan ≠ ['0'])
  | posInf => exact (by decide : exactText .posInf ≠ ['0'])
  | negInf => exact (by decide : exactText .negInf ≠ ['0'])

theorem fixedUnit_eq_iff {unit : ℚ} (hunit : 0 < unit) (k : ℕ) :
    fixedUnit a unit (.fin k) = trimNumIn a (a.div (.fin k) (.fin unit)) 1 ↔
      OneMantissa a unit k := by
  have hquotient : a.div (.fin k) (.fin unit) = a.round (k / unit) := by
    rw [Arithmetic.div, ExtRat.fin_div_fin _ hunit.ne']
    rfl
  unfold fixedUnit OneMantissa
  rw [hquotient]
  cases hround : a.round (k / unit) with
  | fin y =>
    dsimp only
    rw [trimNumIn_fin]
    by_cases hlarge : 10 ^ 21 ≤ |y|
    · obtain ⟨s, t, htext, ht⟩ := a.text_large y hlarge
      refine iff_of_true ?_ (Or.inl hlarge)
      rw [a.toFixed_of_large _ hlarge, a.toFixed_of_large _ hlarge, htext,
        replaceZeros_exponent s ht]
    · rw [or_iff_right hlarge, ← remainder_eq_zero_iff hunit (Nat.cast_nonneg k)]
      rw [not_le] at hlarge
      by_cases hmultiple : remainder (.fin k) (.fin unit) = 0
      · rw [if_pos hmultiple]
        refine iff_of_true ?_ (Or.inl hmultiple)
        obtain ⟨m, hm⟩ := (remainder_eq_zero_iff hunit (Nat.cast_nonneg k)).mp hmultiple
        exact toFixed_multiple a hunit hm hround hlarge
      · rw [if_neg hmultiple, or_iff_right hmultiple]
        exact toFixed_place_iff a hlarge
  | nan => exact iff_of_false (toFixed_ne_trimNumIn a _ (by decide)) not_false
  | posInf => exact iff_of_false (toFixed_ne_trimNumIn a _ (by decide)) not_false
  | negInf => exact iff_of_false (toFixed_ne_trimNumIn a _ (by decide)) not_false

/-- The page's number of a penalty is below a thousand and the locale writes its digits, or
its mantissa is written in one way. A number that is too large is no part of a label. -/
def OneLabel (locale : Locale) (n : ℕ) : Prop :=
  match a.round n with
  | .fin x =>
    if x < 10 ^ 3 then locale.text (.fin x) = String.ofList (a.text x)
    else if x < 10 ^ 6 then OneMantissa a (10 ^ 3) x
    else OneMantissa a (10 ^ 6) x
  | _ => True

/-- The units from the smallest up. -/
theorem units_ascending {α : Type} (x : ℚ) (ones thousands millions : α) :
    (if 10 ^ 6 ≤ x then millions else if 10 ^ 3 ≤ x then thousands else ones) =
      if x < 10 ^ 3 then ones else if x < 10 ^ 6 then thousands else millions := by
  by_cases hthousand : x < 10 ^ 3
  · have hmillion : ¬ 10 ^ 6 ≤ x := by linarith
    rw [if_pos hthousand, if_neg hmillion, if_neg (not_le.mpr hthousand)]
  · rw [if_neg hthousand, if_pos (not_lt.mp hthousand)]
    by_cases hmillion : x < 10 ^ 6
    · rw [if_pos hmillion, if_neg (not_le.mpr hmillion)]
    · rw [if_neg hmillion, if_pos (not_lt.mp hmillion)]

/-- A decimal text is no name of a bucket. -/
theorem formatPenaltyBucketIn_decimalText (n : ℕ) :
    formatPenaltyBucketIn a (decimalText n) =
      if ¬ (a.round n).IsFinite then decimalText n
      else if a.round n = 0 then "$0"
      else if a.round n < 1 then "$" ++ String.ofList (a.textOf (a.round n))
      else if .fin (10 ^ 6) ≤ a.round n then
        "$" ++ String.ofList (fixedUnit a (10 ^ 6) (a.round n)) ++ "M"
      else if .fin (10 ^ 3) ≤ a.round n then
        "$" ++ String.ofList (fixedUnit a (10 ^ 3) (a.round n)) ++ "K"
      else "$" ++ String.ofList (a.textOf (a.round n)) := by
  have hpinned : decimalText n ≠ "pinned" := decimalText_ne (c := 'p') (by decide) rfl
  have hunspecified : decimalText n ≠ "unspecified" := decimalText_ne (c := 'u') (by decide) rfl
  unfold formatPenaltyBucketIn
  rw [if_neg hpinned, if_neg hunspecified, toNumber_decimalText]
  rfl

theorem formatPenaltyIn_decimalText (locale : Locale) (n : ℕ) :
    formatPenaltyIn a locale (some (decimalText n)) =
      if ¬ (a.round n).IsFinite then decimalText n
      else if .fin (10 ^ 6) ≤ a.round n then
        "$" ++ String.ofList (trimNumIn a (a.div (a.round n) (.fin (10 ^ 6))) 1) ++ "M"
      else if .fin (10 ^ 3) ≤ a.round n then
        "$" ++ String.ofList (trimNumIn a (a.div (a.round n) (.fin (10 ^ 3))) 1) ++ "K"
      else "$" ++ locale.text (a.round n) := by
  have hunspecified : decimalText n ≠ "UNSPECIFIED" := decimalText_ne (c := 'U') (by decide) rfl
  have hzero : decimalText n ≠ "ZERO" := decimalText_ne (c := 'Z') (by decide) rfl
  have hdollar : decimalText n ≠ "$0" := decimalText_ne (c := '$') (by decide) rfl
  have hhalf : decimalText n ≠ "HALF_DOLLAR" := decimalText_ne (c := 'H') (by decide) rfl
  have hpinned : decimalText n ≠ "PINNED" := decimalText_ne (c := 'P') (by decide) rfl
  unfold formatPenaltyIn
  dsimp only
  rw [toUpperCase_decimalText, if_neg (decimalText_ne_empty n), if_neg hunspecified,
    if_neg (not_or.mpr ⟨hzero, hdollar⟩), if_neg hhalf, if_neg hpinned, penaltyNumber_decimalText]
  rfl

section Whole
variable {n k : ℕ} (h : a.round n = .fin k)
include h

theorem formatPenaltyBucketIn_whole :
    formatPenaltyBucketIn a (decimalText n) =
      if (k : ℚ) < 10 ^ 3 then "$" ++ String.ofList (a.text k)
      else if (k : ℚ) < 10 ^ 6 then
        "$" ++ String.ofList (fixedUnit a (10 ^ 3) (.fin k)) ++ "K"
      else "$" ++ String.ofList (fixedUnit a (10 ^ 6) (.fin k)) ++ "M" := by
  have hfinite : ¬ ¬ (ExtRat.fin (k : ℚ)).IsFinite := not_not.mpr (ExtRat.isFinite_fin _)
  have hone : (1 : ExtRat) = .fin 1 := rfl
  rw [formatPenaltyBucketIn_decimalText, h, if_neg hfinite]
  simp only [ExtRat.zero_def, hone, ExtRat.fin.injEq, ExtRat.fin_lt_fin, ExtRat.fin_le_fin]
  by_cases hzero : (k : ℚ) = 0
  · have hnat : k = 0 := by exact_mod_cast hzero
    have htext := a.text_natCast 0 (by decide)
    rw [if_pos hzero, hnat, if_pos (by norm_num), htext]
    rfl
  · have hpos : (1 : ℚ) ≤ k := by
      have hnat : k ≠ 0 := by exact_mod_cast hzero
      exact_mod_cast Nat.one_le_iff_ne_zero.mpr hnat
    rw [if_neg hzero, if_neg (not_lt.mpr hpos)]
    exact units_ascending (k : ℚ) _ _ _

theorem formatPenaltyIn_whole (locale : Locale) :
    formatPenaltyIn a locale (some (decimalText n)) =
      if (k : ℚ) < 10 ^ 3 then "$" ++ locale.text (.fin k)
      else if (k : ℚ) < 10 ^ 6 then
        "$" ++ String.ofList (trimNumIn a (a.div (.fin k) (.fin (10 ^ 3))) 1) ++ "K"
      else "$" ++ String.ofList (trimNumIn a (a.div (.fin k) (.fin (10 ^ 6))) 1) ++ "M" := by
  have hfinite : ¬ ¬ (ExtRat.fin (k : ℚ)).IsFinite := not_not.mpr (ExtRat.isFinite_fin _)
  rw [formatPenaltyIn_decimalText, h, if_neg hfinite]
  simp only [ExtRat.fin_le_fin]
  exact units_ascending (k : ℚ) _ _ _

end Whole

/-- When the labels of a number that is rounded to a whole number are one. -/
theorem labels_whole_iff {n k : ℕ} (h : a.round n = .fin k) (locale : Locale) :
    formatPenaltyBucketIn a (decimalText n) = formatPenaltyIn a locale (some (decimalText n)) ↔
      if (k : ℚ) < 10 ^ 3 then locale.text (.fin k) = String.ofList (a.text k)
      else if (k : ℚ) < 10 ^ 6 then OneMantissa a (10 ^ 3) k
      else OneMantissa a (10 ^ 6) k := by
  rw [formatPenaltyBucketIn_whole a h, formatPenaltyIn_whole a h]
  split_ifs
  · rw [String.append_right_inj, eq_comm]
  · rw [String.append_left_inj, String.append_right_inj, String.ofList_inj,
      fixedUnit_eq_iff a (by norm_num)]
  · rw [String.append_left_inj, String.append_right_inj, String.ofList_inj,
      fixedUnit_eq_iff a (by norm_num)]

/-- When the labels of a whole number are one. -/
theorem penaltyLabels_eq_iff (locale : Locale) (n : ℕ) :
    formatPenaltyBucketIn a (decimalText n) = formatPenaltyIn a locale (some (decimalText n)) ↔
      OneLabel a locale n := by
  unfold OneLabel
  rcases a.round_natCast n with hinfinite | ⟨k, hk⟩
  · rw [formatPenaltyBucketIn_decimalText, formatPenaltyIn_decimalText, if_pos hinfinite,
      if_pos hinfinite]
    cases hround : a.round n with
    | fin x =>
      rw [hround] at hinfinite
      exact absurd (ExtRat.isFinite_fin x) hinfinite
    | nan => exact iff_of_true rfl trivial
    | posInf => exact iff_of_true rfl trivial
    | negInf => exact iff_of_true rfl trivial
  · rw [labels_whole_iff a hk, hk]

end Agreement

/-! ## With doubles -/

section Doubles
variable (a : Arithmetic)

/-- The mantissa of a number that is a double. -/
theorem round_mantissa {unit k : ℕ} (hunit : 0 < unit) (hle : unit ≤ k) (hlt : k < 2 ^ 53) :
    ∃ y : ℚ, a.doubles.round (k / unit) = .fin y ∧ |y - k / unit| < 1 / unit ∧ 0 < y ∧
      y < 10 ^ 21 := by
  have hpos : (0 : ℚ) < unit := Nat.cast_pos.mpr hunit
  have hunitOne : (1 : ℚ) ≤ unit := Nat.one_le_cast.mpr hunit
  have hbound : (k : ℚ) < 2 ^ 53 := by exact_mod_cast hlt
  have hone : (1 : ℚ) ≤ k / unit := (one_le_div hpos).mpr (Nat.cast_le.mpr hle)
  have hsmall : (k : ℚ) / unit ≤ k := div_le_self (Nat.cast_nonneg k) hunitOne
  have hinverse : (1 : ℚ) / unit ≤ 1 := (div_le_one hpos).mpr hunitOne
  have hnormal : (2 : ℚ) ^ (-1074 + (53 : ℕ) - 1 : ℤ) ≤ k / unit :=
    (zpow_le_one_of_nonpos₀ one_le_two (by decide)).trans hone
  have herror : |nearest 53 (-1074) ((k : ℚ) / unit) - k / unit| < 1 / unit := by
    calc |nearest 53 (-1074) ((k : ℚ) / unit) - k / unit| ≤ k / unit / 2 ^ 53 :=
          abs_nearest_sub_le_div (zero_lt_one.trans_le hone) hnormal
      _ = k / 2 ^ 53 / unit := div_right_comm _ _ _
      _ < 1 / unit := by
        rw [div_lt_div_iff_of_pos_right hpos, div_lt_one (by positivity)]
        exact hbound
  obtain ⟨hlow, hhigh⟩ := abs_lt.mp herror
  have hpositive : 0 < nearest 53 (-1074) ((k : ℚ) / unit) := by linarith
  have hbits : (2 : ℚ) ^ 53 + 1 ≤ 10 ^ 21 := by norm_num
  have hplaces : nearest 53 (-1074) ((k : ℚ) / unit) < 10 ^ 21 := by linarith
  have hrange : |nearest 53 (-1074) ((k : ℚ) / unit)| < 2 ^ 1024 := by
    rw [abs_of_pos hpositive]
    calc nearest 53 (-1074) ((k : ℚ) / unit) < 2 ^ 54 := by
          have hdouble : (2 : ℚ) ^ 53 + 1 ≤ 2 ^ 54 := by norm_num
          linarith
      _ ≤ 2 ^ 1024 := pow_le_pow_right₀ one_le_two (by decide)
  exact ⟨_, nearestDouble_of_lt hrange, herror, hpositive, hplaces⟩

/-- The number of places ends in a zero close to a multiple of ten. -/
theorem ten_dvd_place_iff {h : ℕ} (hh : 0 < h) (k : ℕ) :
    10 ∣ (k + h) / (2 * h) ↔ k % (20 * h) < h ∨ 19 * h ≤ k % (20 * h) := by
  have hless := Nat.mod_lt k (by omega : 20 * h > 0)
  have hplaces : (k + h) / (2 * h) = 10 * (k / (20 * h)) + (k % (20 * h) + h) / (2 * h) := by
    have hsplit : k + h = k % (20 * h) + h + 2 * h * (10 * (k / (20 * h))) := by
      conv_lhs => rw [← Nat.div_add_mod k (20 * h)]
      ring
    rw [hsplit, Nat.add_mul_div_left _ _ (by omega), add_comm]
  rw [hplaces, Nat.dvd_add_right (Nat.dvd_mul_right 10 _)]
  have hmost : (k % (20 * h) + h) / (2 * h) ≤ 10 := by
    rw [Nat.div_le_iff_le_mul (by omega)]
    omega
  have hnone : (k % (20 * h) + h) / (2 * h) = 0 ↔ k % (20 * h) < h := by
    rw [Nat.div_eq_zero_iff_lt (by omega)]
    omega
  have hten : 10 ≤ (k % (20 * h) + h) / (2 * h) ↔ 19 * h ≤ k % (20 * h) := by
    rw [Nat.le_div_iff_mul_le (by omega)]
    omega
  generalize (k % (20 * h) + h) / (2 * h) = place at hmost hnone hten
  omega

/-- The number of places of a mantissa that is close to a twentieth of `k / h`. -/
theorem steps_mantissa {h k : ℕ} {y : ℚ} (hh : 0 < h)
    (herror : |y - k / (20 * h : ℕ)| < 1 / (20 * h : ℕ)) (htie : k % (2 * h) ≠ h) :
    steps 1 y = ((k + h) / (2 * h) : ℕ) := by
  refine steps_of_abs_sub_lt 1 hh ?_ htie
  have hscale : y * 10 ^ 1 - k / (2 * h) = (y - k / (20 * h : ℕ)) * 10 := by
    push_cast
    field_simp
    ring
  rw [hscale, abs_mul, abs_of_pos (by norm_num : (0 : ℚ) < 10)]
  calc |y - k / (20 * h : ℕ)| * 10 < 1 / (20 * h : ℕ) * 10 :=
        mul_lt_mul_of_pos_right herror (by norm_num)
    _ = 1 / (2 * h) := by
      push_cast
      field_simp
      norm_num

theorem multiple_iff (unit k : ℕ) : (∃ m : ℤ, (k : ℚ) = unit * m) ↔ k % unit = 0 := by
  rw [← Nat.dvd_iff_mod_eq_zero, ← Int.natCast_dvd_natCast]
  constructor
  · intro h
    obtain ⟨m, hm⟩ := h
    exact ⟨m, by exact_mod_cast hm⟩
  · intro h
    obtain ⟨m, hm⟩ := h
    exact ⟨m, by exact_mod_cast hm⟩

/-- The residue of a number says if its mantissa is written in one way, unless the number
is in the middle between two places. -/
theorem oneMantissa_doubles_iff {h k : ℕ} (hh : 0 < h) (hle : 20 * h ≤ k) (hlt : k < 2 ^ 53)
    (htie : k % (2 * h) ≠ h) :
    OneMantissa a.doubles (20 * h : ℕ) k ↔
      k % (20 * h) = 0 ∨ (h < k % (20 * h) ∧ k % (20 * h) < 19 * h) := by
  obtain ⟨y, hround, herror, hpos, hplaces⟩ := round_mantissa a (by omega) hle hlt
  have hdigit : (10 : ℤ) ∣ ((k + h) / (2 * h) : ℕ) ↔
      k % (20 * h) < h ∨ 19 * h ≤ k % (20 * h) := by
    exact_mod_cast ten_dvd_place_iff hh k
  have hmiddle : k % (20 * h) ≠ h := by
    intro heq
    have hplace : k % (20 * h) % (2 * h) = k % (2 * h) :=
      Nat.mod_mod_of_dvd k ⟨10, by ring⟩
    rw [heq, Nat.mod_eq_of_lt (by omega)] at hplace
    exact htie hplace.symm
  unfold OneMantissa
  rw [hround]
  dsimp only
  rw [abs_of_pos hpos, or_iff_right (not_le.mpr hplaces), multiple_iff,
    steps_mantissa hh herror htie, hdigit]
  omega

/-- From a thousand on, the labels are one if the number is a multiple of its unit or at
least half a place away from the next multiple. -/
theorem labels_doubles_iff (locale : Locale) {n h : ℕ}
    (hunit : h = if n < 10 ^ 6 then 50 else 50000) (hle : 10 ^ 3 ≤ n) (hlt : n < 2 ^ 53)
    (htie : n % (2 * h) ≠ h) :
    formatPenaltyBucketIn a.doubles (decimalText n) =
        formatPenaltyIn a.doubles locale (some (decimalText n)) ↔
      n % (20 * h) = 0 ∨ (h < n % (20 * h) ∧ n % (20 * h) < 19 * h) := by
  have hthousand : ¬ (n : ℚ) < 10 ^ 3 := by exact_mod_cast not_lt.mpr hle
  have hmillion : (n : ℚ) < 10 ^ 6 ↔ n < 10 ^ 6 := by exact_mod_cast Iff.rfl
  rw [labels_whole_iff a.doubles (nearestDouble_natCast hlt), if_neg hthousand]
  by_cases hbelow : n < 10 ^ 6
  · rw [if_pos hbelow] at hunit
    subst hunit
    rw [if_pos (hmillion.mpr hbelow)]
    exact_mod_cast oneMantissa_doubles_iff a (by decide) hle hlt htie
  · rw [if_neg hbelow] at hunit
    subst hunit
    rw [if_neg (fun h => hbelow (hmillion.mp h))]
    exact_mod_cast oneMantissa_doubles_iff a (by decide) (not_lt.mp hbelow) hlt htie

end Doubles

/-- The first penalty of the ladder of powers of two that has two labels. -/
theorem penaltyLabels_not_one :
    ¬ ∃ (a : Arithmetic) (locale : Locale),
      formatPenaltyBucketIn a.doubles "1024" = formatPenaltyIn a.doubles locale (some "1024") := by
  rintro ⟨a, locale, h⟩
  have htext : "1024" = decimalText 1024 := by decide
  have hresidue : ¬ (1024 % (20 * 50) = 0 ∨ (50 < 1024 % (20 * 50) ∧ 1024 % (20 * 50) < 19 * 50)) :=
    by decide
  rw [htext, labels_doubles_iff a locale (h := 50) rfl (by decide) (by decide) (by decide)] at h
  exact hresidue h

end BigfleetDashboard.Pages
