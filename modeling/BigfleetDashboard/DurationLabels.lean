import BigfleetDashboard.NumberTexts
import Mathlib.Order.Monotone.Basic

/-!
# The labels of durations

A duration is labelled in the unit that its exact value calls for, and rounded to that
unit afterwards. A label is read back as its numbers and its unit.
-/
namespace BigfleetDashboard.Pages
open Script FixedPlaces

/-! ## The labels -/

/-- The text of `${x}`. -/
def template (x : ExtRat) : String := String.ofList (exactText x)

def formatDuration (seconds : Option ExtRat) : String :=
  match seconds with
  | none => "—"
  | some x =>
    if ¬ x.IsFinite ∨ x < 0 then "—"
    else if x < .fin (1 / 10 ^ 3) then template (mathRound (x * .fin (10 ^ 6))) ++ " µs"
    else if x < 1 then template (mathRound (x * .fin (10 ^ 3))) ++ " ms"
    else if x < .fin 60 then String.ofList (toFixed 2 x) ++ " s"
    else
      let m := mathFloor (x / .fin 60)
      let s := mathRound (x - m * .fin 60)
      template m ++ "m " ++ template s ++ "s"

def formatRelative (unixSec : Option ExtRat) (nowSec : ExtRat) : String :=
  match unixSec with
  | none => "—"
  | some x =>
    if x ≤ 0 ∨ ¬ x.IsFinite then "—"
    else
      let delta := nowSec - x
      if delta < .fin 60 then template (mathRound delta) ++ "s ago"
      else if delta < .fin 3600 then template (mathRound (delta / .fin 60)) ++ "m ago"
      else if delta < .fin 86400 then template (mathRound (delta / .fin 3600)) ++ "h ago"
      else template (mathRound (delta / .fin 86400)) ++ "d ago"

/-! ## What the labels say -/

inductive DurationLabel
  | micro (n : ℚ)
  | milli (n : ℚ)
  | seconds (n : ℚ)
  | minutes (m s : ℚ)

namespace DurationLabel

/-- The numbers are in range for their unit. -/
def InRange : DurationLabel → Prop
  | micro n => (∃ z : ℤ, n = z) ∧ n < 1000
  | milli n => (∃ z : ℤ, n = z) ∧ n < 1000
  | seconds n => n < 60
  | minutes _ s => 0 ≤ s ∧ s < 60

/-- The time a label denotes, in seconds. -/
def time : DurationLabel → ℚ
  | micro n => n / 10 ^ 6
  | milli n => n / 10 ^ 3
  | seconds n => n
  | minutes m s => 60 * m + s

end DurationLabel

def readDuration (text : String) : Option DurationLabel :=
  match readNumber text.toList with
  | (.fin n, unit) =>
    if unit = " µs".toList then some (.micro n)
    else if unit = " ms".toList then some (.milli n)
    else if unit = " s".toList then some (.seconds n)
    else if unit.take 2 = "m ".toList then
      match readNumber (unit.drop 2) with
      | (.fin s, rest) => if rest = "s".toList then some (.minutes n s) else none
      | _ => none
    else none
  | _ => none

inductive AgeUnit
  | seconds | minutes | hours | days
  deriving DecidableEq

def AgeUnit.text : AgeUnit → String
  | seconds => "s ago"
  | minutes => "m ago"
  | hours => "h ago"
  | days => "d ago"

def AgeUnit.length : AgeUnit → ℚ
  | seconds => 1
  | minutes => 60
  | hours => 3600
  | days => 86400

/-- How long ago something was, in one unit. -/
structure AgeLabel where
  count : ℚ
  unit : AgeUnit

namespace AgeLabel

def InRange (l : AgeLabel) : Prop :=
  match l.unit with
  | .seconds => l.count < 60
  | .minutes => l.count < 60
  | .hours => l.count < 24
  | .days => True

def time (l : AgeLabel) : ℚ := l.count * l.unit.length

end AgeLabel

def readRelative (text : String) : Option AgeLabel :=
  match readNumber text.toList with
  | (.fin n, rest) =>
    ([.seconds, .minutes, .hours, .days].find? (fun unit : AgeUnit => rest = unit.text.toList)).map
      (AgeLabel.mk n)
  | _ => none

/-! ## Printing and reading back -/

theorem mathRound_fin (q : ℚ) : mathRound (.fin q) = .fin (rounded 0 q) := by
  rw [mathRound, rounded, steps, pow_zero, mul_one, div_one]

/-- What is not negative is rounded to a natural number. -/
theorem rounded_zero_nat {q : ℚ} (h : 0 ≤ q) : ∃ n : ℕ, rounded 0 q = n := by
  refine ⟨(steps 0 q).toNat, ?_⟩
  have hcast : ((steps 0 q).toNat : ℤ) = steps 0 q := Int.toNat_of_nonneg (steps_nonneg 0 h)
  rw [rounded, pow_zero, div_one, ← hcast, Int.cast_natCast, Int.toNat_natCast]

theorem readNumber_nat (n : ℕ) (rest : String)
    (hrest : ∀ c ∈ rest.toList.head?, isNumberChar c = false) :
    readNumber (template (.fin n) ++ rest).toList = (.fin n, rest.toList) := by
  rw [template, String.toList_append, String.toList_ofList, readNumber_natCast n hrest]

/-- A text whose first character is no part of a number. -/
theorem head_of_text {text : String} {c : Char} (htext : text.toList.head? = some c)
    (hc : isNumberChar c = false) : ∀ d ∈ text.toList.head?, isNumberChar d = false := by
  intro d hd
  rw [htext] at hd
  obtain rfl := Option.some.inj hd
  exact hc

/-- A rounded number with a text behind it. -/
theorem readNumber_template {q : ℚ} (h : 0 ≤ q) (unit : String)
    (hunit : ∀ c ∈ unit.toList.head?, isNumberChar c = false) :
    readNumber (template (mathRound (.fin q)) ++ unit).toList =
      (.fin (rounded 0 q), unit.toList) := by
  obtain ⟨n, hn⟩ := rounded_zero_nat h
  rw [mathRound_fin, hn, readNumber_nat n unit hunit]

theorem readNumber_toFixed {q : ℚ} (places : ℕ) (h : 0 ≤ q) (hlt : q < 10 ^ 21) (unit : String)
    (hunit : ∀ c ∈ unit.toList.head?, isNumberChar c = false) :
    readNumber (String.ofList (toFixed places (.fin q)) ++ unit).toList =
      (.fin (rounded places q), unit.toList) := by
  have hsmall : |q| < 10 ^ 21 := by rwa [abs_of_nonneg h]
  rw [String.toList_append, String.toList_ofList, readNumber_append (isNumberChar_toFixed _ q) hunit,
    parseFloat_toFixed places hsmall, fixedValue_of_nonneg places h]

/-! ## The label of a duration -/

/-- The label that `formatDuration` prints. -/
def durationLabel (q : ℚ) : DurationLabel :=
  if q < 1 / 10 ^ 3 then .micro (rounded 0 (q * 10 ^ 6))
  else if q < 1 then .milli (rounded 0 (q * 10 ^ 3))
  else if q < 60 then .seconds (rounded 2 q)
  else .minutes ⌊q / 60⌋ (rounded 0 (q - ⌊q / 60⌋ * 60))

/-- Behind the minutes a label goes on with the seconds. -/
theorem readDuration_minutes (m : ℕ) {rest : String} {s : ℚ}
    (h : readNumber rest.toList = (.fin s, "s".toList)) :
    readDuration (template (.fin m) ++ ("m " ++ rest)) = some (.minutes m s) := by
  have hlist : ("m " ++ rest).toList = 'm' :: ' ' :: rest.toList := by
    rw [String.toList_append]
    rfl
  have hother : ∀ s : List Char, s.head? = some ' ' → ¬ 'm' :: ' ' :: rest.toList = s := by
    intro s hs heq
    rw [← heq] at hs
    exact absurd (Option.some.inj hs) (by decide)
  have hhead : ∀ c ∈ ("m " ++ rest).toList.head?, isNumberChar c = false := by
    refine head_of_text (c := 'm') ?_ rfl
    rw [hlist]
    rfl
  have htake : ('m' :: ' ' :: rest.toList).take 2 = "m ".toList := rfl
  rw [readDuration, readNumber_nat m _ hhead, hlist]
  dsimp only
  rw [if_neg (hother " µs".toList rfl), if_neg (hother " ms".toList rfl),
    if_neg (hother " s".toList rfl), if_pos htake, List.drop_succ_cons, List.drop_succ_cons,
    List.drop_zero, h]
  rfl

theorem readDuration_formatDuration {q : ℚ} (h : 0 ≤ q) :
    readDuration (formatDuration (some (.fin q))) = some (durationLabel q) := by
  have hvalid : ¬ (¬ (ExtRat.fin q).IsFinite ∨ ExtRat.fin q < 0) := by
    rw [ExtRat.zero_def, ExtRat.fin_lt_fin]
    simpa using h
  have hone : (1 : ExtRat) = .fin 1 := rfl
  unfold formatDuration durationLabel
  dsimp only
  rw [if_neg hvalid]
  simp only [hone, ExtRat.fin_lt_fin]
  split_ifs with hmicro hmilli hseconds
  · have hread := readNumber_template (q := q * 10 ^ 6) (by positivity) " µs" (head_of_text rfl rfl)
    rw [readDuration, ExtRat.fin_mul_fin, hread]
    rfl
  · have hread := readNumber_template (q := q * 10 ^ 3) (by positivity) " ms" (head_of_text rfl rfl)
    rw [readDuration, ExtRat.fin_mul_fin, hread]
    rfl
  · have hlt : q < 10 ^ 21 := hseconds.trans (by norm_num)
    rw [readDuration, readNumber_toFixed 2 h hlt " s" (head_of_text rfl rfl)]
    rfl
  · have hquotient : 0 ≤ q / 60 := by positivity
    have hrest : 0 ≤ q - ⌊q / 60⌋ * 60 := by
      have hfloor : (⌊q / 60⌋ : ℚ) ≤ q / 60 := Int.floor_le _
      linarith
    obtain ⟨m, hm⟩ := Int.eq_ofNat_of_zero_le (Int.floor_nonneg.mpr hquotient)
    have hfloor : mathFloor (.fin q / .fin 60) = .fin (m : ℕ) := by
      rw [ExtRat.fin_div_fin _ (by norm_num), mathFloor, hm]
      rfl
    rw [hm, Int.cast_natCast] at hrest ⊢
    have hseconds' := readNumber_template hrest "s" (head_of_text rfl rfl)
    rw [hfloor, ExtRat.fin_mul_fin, ExtRat.fin_sub_fin, String.append_assoc, String.append_assoc,
      readDuration_minutes m hseconds']

/-- The label that `formatRelative` prints. -/
def ageLabel (delta : ℚ) : AgeLabel :=
  if delta < 60 then ⟨rounded 0 delta, .seconds⟩
  else if delta < 3600 then ⟨rounded 0 (delta / 60), .minutes⟩
  else if delta < 86400 then ⟨rounded 0 (delta / 3600), .hours⟩
  else ⟨rounded 0 (delta / 86400), .days⟩

theorem readRelative_template {q : ℚ} (h : 0 ≤ q) (unit : AgeUnit) :
    readRelative (template (mathRound (.fin q)) ++ unit.text) = some ⟨rounded 0 q, unit⟩ := by
  have hunit : ∀ c ∈ unit.text.toList.head?, isNumberChar c = false := by
    cases unit <;> exact head_of_text rfl rfl
  rw [readRelative, readNumber_template h unit.text hunit]
  cases unit <;> rfl

theorem readRelative_formatRelative {unixSec nowSec : ℚ} (hpos : 0 < unixSec)
    (hle : unixSec ≤ nowSec) :
    readRelative (formatRelative (some (.fin unixSec)) (.fin nowSec)) =
      some (ageLabel (nowSec - unixSec)) := by
  have hvalid : ¬ (ExtRat.fin unixSec ≤ 0 ∨ ¬ (ExtRat.fin unixSec).IsFinite) := by
    rw [ExtRat.zero_def, ExtRat.fin_le_fin]
    simpa using hpos
  have hdelta : 0 ≤ nowSec - unixSec := sub_nonneg.mpr hle
  have hquotient : ∀ u : ℚ, 0 < u → 0 ≤ (nowSec - unixSec) / u :=
    fun u hu => div_nonneg hdelta hu.le
  unfold formatRelative ageLabel
  dsimp only
  rw [if_neg hvalid, ExtRat.fin_sub_fin, ExtRat.fin_div_fin _ (by norm_num),
    ExtRat.fin_div_fin _ (by norm_num), ExtRat.fin_div_fin _ (by norm_num)]
  simp only [ExtRat.fin_lt_fin]
  split_ifs
  · exact readRelative_template hdelta .seconds
  · exact readRelative_template (hquotient 60 (by norm_num)) .minutes
  · exact readRelative_template (hquotient 3600 (by norm_num)) .hours
  · exact readRelative_template (hquotient 86400 (by norm_num)) .days

/-! ## Order -/

theorem time_durationLabel (q : ℚ) :
    (durationLabel q).time =
      if q < 1 / 10 ^ 3 then rounded 6 q
      else if q < 1 then rounded 3 q
      else if q < 60 then rounded 2 q
      else rounded 0 q := by
  unfold durationLabel
  split_ifs
  · exact rounded_zero_mul 6 q
  · exact rounded_zero_mul 3 q
  · rfl
  · have hwhole : (⌊q / 60⌋ : ℚ) * 60 = ((⌊q / 60⌋ * 60 : ℤ) : ℚ) := by push_cast; rfl
    rw [DurationLabel.time, hwhole, rounded_zero_sub, ← hwhole]
    ring

/-- Each unit goes on where the one before ends. -/
theorem time_durationLabel_mono : Monotone (fun q => (durationLabel q).time) := by
  simp only [time_durationLabel]
  refine monotone_ite_lt (fun x y => rounded_mono 6) (monotone_ite_lt (fun x y => rounded_mono 3)
    (monotone_ite_lt (fun x y => rounded_mono 2) (fun x y => rounded_mono 0) 60 ?_) 1 ?_) _ ?_
  · rw [rounded_eq_self 2 (z := 6000) (by norm_num), rounded_eq_self 0 (z := 60) (by norm_num)]
  · rw [if_pos (by norm_num), rounded_eq_self 3 (z := 1000) (by norm_num),
      rounded_eq_self 2 (z := 100) (by norm_num)]
  · rw [if_pos (by norm_num), rounded_eq_self 6 (z := 1000) (by norm_num),
      rounded_eq_self 3 (z := 1) (by norm_num)]

/-- Rounding to a multiple of a unit. -/
theorem rounded_unit_mono {u : ℚ} (h : 0 < u) : Monotone (fun q => rounded 0 (q / u) * u) := by
  intro x y hxy
  exact mul_le_mul_of_nonneg_right (rounded_mono 0 (div_le_div_of_nonneg_right hxy h.le)) h.le

theorem rounded_unit_eq {u : ℚ} (h : 0 < u) {q : ℚ} {z : ℤ} (hq : q = z * u) :
    rounded 0 (q / u) * u = q := by
  have hquotient : q / u = z := by rw [hq, mul_div_cancel_right₀ _ h.ne']
  rw [rounded_eq_self 0 (z := z) (by rw [hquotient, pow_zero, mul_one]), div_mul_cancel₀ _ h.ne']

theorem time_ageLabel (delta : ℚ) :
    (ageLabel delta).time =
      if delta < 60 then rounded 0 (delta / 1) * 1
      else if delta < 3600 then rounded 0 (delta / 60) * 60
      else if delta < 86400 then rounded 0 (delta / 3600) * 3600
      else rounded 0 (delta / 86400) * 86400 := by
  unfold ageLabel
  split_ifs
  · rw [div_one]
    rfl
  · rfl
  · rfl
  · rfl

theorem time_ageLabel_mono : Monotone (fun delta => (ageLabel delta).time) := by
  simp only [time_ageLabel]
  have h1 : (0 : ℚ) < 1 := by norm_num
  have h60 : (0 : ℚ) < 60 := by norm_num
  have h3600 : (0 : ℚ) < 3600 := by norm_num
  have h86400 : (0 : ℚ) < 86400 := by norm_num
  refine monotone_ite_lt (rounded_unit_mono h1) (monotone_ite_lt (rounded_unit_mono h60)
    (monotone_ite_lt (rounded_unit_mono h3600) (rounded_unit_mono h86400) 86400 ?_) 3600 ?_) 60 ?_
  · rw [rounded_unit_eq h3600 (z := 24) (by norm_num), rounded_unit_eq h86400 (z := 1) (by norm_num)]
  · rw [if_pos (by norm_num), rounded_unit_eq h60 (z := 60) (by norm_num),
      rounded_unit_eq h3600 (z := 1) (by norm_num)]
  · rw [if_pos (by norm_num), rounded_unit_eq h1 (z := 60) (by norm_num),
      rounded_unit_eq h60 (z := 1) (by norm_num)]

/-! ## Range -/

/-- The duration is not within half a step of the end of its unit; from a minute on, not
within half a second of the next minute. -/
def DurationFits (q : ℚ) : Prop :=
  if q < 1 / 10 ^ 3 then q < 9995 / 10 ^ 7
  else if q < 1 then q < 9995 / 10 ^ 4
  else if q < 60 then q < 59995 / 10 ^ 3
  else q - ⌊q / 60⌋ * 60 < 119 / 2

/-- The same for what is long ago; days have no end. -/
def AgeFits (delta : ℚ) : Prop :=
  if delta < 60 then delta < 119 / 2
  else if delta < 3600 then delta < 3570
  else if delta < 86400 then delta < 84600
  else True

theorem rounded_zero_whole (q : ℚ) : ∃ z : ℤ, rounded 0 q = z :=
  ⟨steps 0 q, by rw [rounded, pow_zero, div_one]⟩

/-- A whole number of smaller units stays below a thousand. -/
theorem whole_lt_iff (q : ℚ) {scale : ℚ} (hscale : 0 < scale) :
    ((∃ z : ℤ, rounded 0 (q * scale) = z) ∧ rounded 0 (q * scale) < 1000) ↔
      q < (1000 - 1 / (2 * 10 ^ 0)) / scale := by
  rw [and_iff_right (rounded_zero_whole _), rounded_lt_ofNat, lt_div_iff₀ hscale]

theorem durationLabel_inRange_iff (q : ℚ) : (durationLabel q).InRange ↔ DurationFits q := by
  unfold durationLabel DurationFits
  split_ifs
  · rw [DurationLabel.InRange, whole_lt_iff q (by norm_num)]
    norm_num
  · rw [DurationLabel.InRange, whole_lt_iff q (by norm_num)]
    norm_num
  · rw [DurationLabel.InRange, rounded_lt_ofNat]
    norm_num
  · have hnonneg : 0 ≤ rounded 0 (q - ⌊q / 60⌋ * 60) := by
      have hfloor : (⌊q / 60⌋ : ℚ) ≤ q / 60 := Int.floor_le _
      exact rounded_nonneg 0 (by linarith)
    rw [DurationLabel.InRange, and_iff_right hnonneg, rounded_lt_ofNat]
    norm_num

theorem ageLabel_inRange_iff (delta : ℚ) : (ageLabel delta).InRange ↔ AgeFits delta := by
  unfold ageLabel AgeFits
  split_ifs
  · rw [AgeLabel.InRange, rounded_lt_ofNat]
    norm_num
  · rw [AgeLabel.InRange, rounded_lt_ofNat, div_lt_iff₀ (by norm_num)]
    norm_num
  · rw [AgeLabel.InRange]
    have hiff := rounded_lt_ofNat 0 (delta / 3600) 24
    rw [hiff, div_lt_iff₀ (by norm_num)]
    norm_num
  · exact iff_of_true trivial trivial

/-! ## The labels as a whole -/

/-- A duration is printed with its numbers in range. -/
def PrintsDuration (q : ℚ) : Prop :=
  ∃ l, readDuration (formatDuration (some (.fin q))) = some l ∧ l.InRange

def PrintsAge (unixSec nowSec : ℚ) : Prop :=
  ∃ l, readRelative (formatRelative (some (.fin unixSec)) (.fin nowSec)) = some l ∧ l.InRange

theorem printsDuration_iff {q : ℚ} (h : 0 ≤ q) : PrintsDuration q ↔ DurationFits q := by
  rw [PrintsDuration, readDuration_formatDuration h, ← durationLabel_inRange_iff]
  simp

theorem printsAge_iff {unixSec nowSec : ℚ} (hpos : 0 < unixSec) (hle : unixSec ≤ nowSec) :
    PrintsAge unixSec nowSec ↔ AgeFits (nowSec - unixSec) := by
  rw [PrintsAge, readRelative_formatRelative hpos hle, ← ageLabel_inRange_iff]
  simp

section Labels
variable {q unixSec nowSec : ℚ}

/-- When labels are in range; they never fall as the time grows. -/
theorem labels_normalised_iff (hq : 0 ≤ q) (hpos : 0 < unixSec) (hle : unixSec ≤ nowSec) :
    (PrintsDuration q ↔ DurationFits q) ∧
    (∀ q', q ≤ q' → ∃ l l',
      readDuration (formatDuration (some (.fin q))) = some l ∧
      readDuration (formatDuration (some (.fin q'))) = some l' ∧ l.time ≤ l'.time) ∧
    (PrintsAge unixSec nowSec ↔ AgeFits (nowSec - unixSec)) ∧
    ∀ unixSec' nowSec', 0 < unixSec' → nowSec - unixSec ≤ nowSec' - unixSec' → ∃ l l',
      readRelative (formatRelative (some (.fin unixSec)) (.fin nowSec)) = some l ∧
      readRelative (formatRelative (some (.fin unixSec')) (.fin nowSec')) = some l' ∧
      l.time ≤ l'.time := by
  refine ⟨printsDuration_iff hq, ?_, printsAge_iff hpos hle, ?_⟩
  · intro q' hlonger
    exact ⟨_, _, readDuration_formatDuration hq, readDuration_formatDuration (hq.trans hlonger),
      time_durationLabel_mono hlonger⟩
  · intro unixSec' nowSec' hpos' hdelta
    have hle' : unixSec' ≤ nowSec' := by linarith
    exact ⟨_, _, readRelative_formatRelative hpos hle, readRelative_formatRelative hpos' hle',
      time_ageLabel_mono hdelta⟩

end Labels

/-- A minute and a half, and three hours. -/
theorem labels_normalised_ninety :
    PrintsDuration 90 ∧
    (∃ l l', readDuration (formatDuration (some (.fin 90))) = some l ∧
      readDuration (formatDuration (some (.fin 10800))) = some l' ∧ l.time ≤ l'.time) ∧
    PrintsAge 1000 1090 ∧
    ∃ l l', readRelative (formatRelative (some (.fin 1000)) (.fin 1090)) = some l ∧
      readRelative (formatRelative (some (.fin 1000)) (.fin 11800)) = some l' ∧
      l.time ≤ l'.time := by
  have hninety : (0 : ℚ) ≤ 90 := by norm_num
  have hstart : (0 : ℚ) < 1000 := by norm_num
  have hage : (1000 : ℚ) ≤ 1090 := by norm_num
  obtain ⟨hduration, horder, hrelative, hrelativeOrder⟩ :=
    labels_normalised_iff hninety hstart hage
  have hfloor : ⌊(90 : ℚ) / 60⌋ = 1 := Int.floor_eq_iff.mpr ⟨by norm_num, by norm_num⟩
  refine ⟨hduration.mpr ?_, horder 10800 (by norm_num), hrelative.mpr ?_,
    hrelativeOrder 1000 11800 hstart (by norm_num)⟩
  · rw [DurationFits, hfloor]
    norm_num
  · rw [AgeFits]
    norm_num

/-- Just below a minute 60 seconds are printed. -/
theorem labels_not_normalised : ¬ ∀ q : ℚ, 0 ≤ q → PrintsDuration q := by
  intro h
  have hprints := h (59999 / 1000) (by norm_num)
  rw [printsDuration_iff (by norm_num), DurationFits, if_neg (by norm_num), if_neg (by norm_num),
    if_pos (by norm_num)] at hprints
  norm_num at hprints

end BigfleetDashboard.Pages
