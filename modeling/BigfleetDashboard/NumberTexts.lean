import BigfleetDashboard.DecimalNumerals
import BigfleetDashboard.FixedPlaces
import Mathlib.Data.List.DropRight

/-!
# The texts of numbers

A number is written with the digits it has, or with a given number of digits behind the
point. Both texts are read back: the first as the number, the second as what it is
rounded to.
-/
namespace BigfleetDashboard.Script
open FixedPlaces

/-! ## Zeros at the end of a row of digits -/

def trimZeros (s : List Char) : List Char := s.rdropWhile (fun c => c = '0')

/-- The zeros that were trimmed. -/
theorem trimZeros_append (s : List Char) :
    trimZeros s ++ List.replicate (s.length - (trimZeros s).length) '0' = s := by
  have hsplit := List.rdropWhile_append_rtakeWhile (p := fun c => decide (c = '0')) (l := s)
  have hzeros : s.rtakeWhile (fun c => c = '0') =
      List.replicate (s.length - (trimZeros s).length) '0' := by
    rw [List.eq_replicate_iff]
    constructor
    · have hlength := congrArg List.length hsplit
      rw [List.length_append] at hlength
      rw [trimZeros]
      omega
    · intro c hc
      simpa using List.mem_rtakeWhile_imp hc
  rw [← hzeros]
  exact hsplit

theorem length_trimZeros_le (s : List Char) : (trimZeros s).length ≤ s.length :=
  (List.rdropWhile_prefix _ s).length_le

theorem mem_of_mem_trimZeros {s : List Char} {c : Char} (h : c ∈ trimZeros s) : c ∈ s :=
  (List.rdropWhile_prefix _ s).mem h

/-- Trimming zeros divides by their power of ten. -/
theorem digitsValue_trimZeros (s : List Char) :
    digitsValue s = digitsValue (trimZeros s) * 10 ^ (s.length - (trimZeros s).length) := by
  have hvalue := congrArg digitsValue (trimZeros_append s)
  rw [digitsValue_append, digitsValue_replicate, List.length_replicate, add_zero] at hvalue
  exact hvalue.symm

/-! ## Numbers with the digits they have -/

/-- How many digits behind the point a decimal fraction has. -/
def decimalPlaces (q : ℚ) : ℕ :=
  ((List.range (q.den + 1)).find? (fun places => q.den ∣ 10 ^ places)).getD 0

/-- The text of a positive number with the given digits, the point behind the first
`point` of them. -/
def digitsText (digits : List Char) (point : Int) : List Char :=
  if digits.length ≤ point ∧ point ≤ 21 then
    digits ++ List.replicate (point.toNat - digits.length) '0'
  else if 0 < point ∧ point ≤ 21 then
    digits.take point.toNat ++ '.' :: digits.drop point.toNat
  else if -6 < point ∧ point ≤ 0 then
    '0' :: '.' :: (List.replicate point.natAbs '0' ++ digits)
  else
    digits.take 1 ++ (if digits.length = 1 then [] else '.' :: digits.drop 1) ++
      'e' :: (if point - 1 < 0 then '-' else '+') :: Nat.toDigits 10 (point - 1).natAbs

def unsignedText (q : ℚ) : List Char :=
  let places := decimalPlaces q
  let digits := Nat.toDigits 10 ⌊q * 10 ^ places⌋.toNat
  if q = 0 then ['0'] else digitsText (trimZeros digits) (digits.length - places)

/-- The text of a number in a template, with exact arithmetic in place of rounding. -/
def exactText : ExtRat → List Char
  | .fin q => if q < 0 then '-' :: unsignedText (-q) else unsignedText q
  | .nan => "NaN".toList
  | .posInf => "Infinity".toList
  | .negInf => "-Infinity".toList

/-- The characters of the text of a finite number. -/
def isNumberChar (c : Char) : Bool := c.isDigit || c = '.' || c = 'e' || c = '+' || c = '-'

theorem isNumberChar_of_isDigit {c : Char} (h : c.isDigit = true) : isNumberChar c = true := by
  simp [isNumberChar, h]

theorem isNumberChar_toDigits {n : ℕ} : ∀ c ∈ Nat.toDigits 10 n, isNumberChar c = true :=
  fun _ hc => isNumberChar_of_isDigit (isDigit_of_mem_toDigits hc)

theorem isNumberChar_replicate {n : ℕ} : ∀ c ∈ List.replicate n '0', isNumberChar c = true := by
  intro c hc
  rw [List.eq_of_mem_replicate hc]
  rfl

theorem isNumberChar_digitsText {digits : List Char} (h : ∀ c ∈ digits, isNumberChar c = true)
    (point : Int) : ∀ c ∈ digitsText digits point, isNumberChar c = true := by
  have htake : ∀ n, ∀ c ∈ digits.take n, isNumberChar c = true :=
    fun n c hc => h c (List.mem_of_mem_take hc)
  have hdrop : ∀ n, ∀ c ∈ '.' :: digits.drop n, isNumberChar c = true :=
    fun n => List.forall_mem_cons.mpr ⟨rfl, fun c hc => h c (List.mem_of_mem_drop hc)⟩
  unfold digitsText
  split_ifs
  · exact List.forall_mem_append.mpr ⟨h, isNumberChar_replicate⟩
  · exact List.forall_mem_append.mpr ⟨htake _, hdrop _⟩
  · refine List.forall_mem_cons.mpr ⟨rfl, List.forall_mem_cons.mpr ⟨rfl, ?_⟩⟩
    exact List.forall_mem_append.mpr ⟨isNumberChar_replicate, h⟩
  all_goals
    refine List.forall_mem_append.mpr ⟨List.forall_mem_append.mpr ⟨htake 1, ?_⟩, ?_⟩
    · first
      | exact hdrop 1
      | simp
    · exact List.forall_mem_cons.mpr ⟨rfl, List.forall_mem_cons.mpr ⟨rfl, isNumberChar_toDigits⟩⟩

theorem isNumberChar_exactText (q : ℚ) : ∀ c ∈ exactText (.fin q), isNumberChar c = true := by
  have hunsigned : ∀ r : ℚ, ∀ c ∈ unsignedText r, isNumberChar c = true := by
    intro r
    unfold unsignedText
    dsimp only
    split_ifs
    · simp [isNumberChar]
    · refine isNumberChar_digitsText (fun c hc => ?_) _
      exact isNumberChar_toDigits c (mem_of_mem_trimZeros hc)
  unfold exactText
  dsimp only
  split_ifs
  · exact List.forall_mem_cons.mpr ⟨rfl, hunsigned _⟩
  · exact hunsigned q

/-! ## Reading whole numbers back -/

theorem decimalPlaces_natCast (n : ℕ) : decimalPlaces n = 0 := by
  rw [decimalPlaces, Rat.den_natCast]
  rfl

theorem exactText_natCast (n : ℕ) :
    exactText (.fin n) = if n = 0 then ['0']
      else digitsText (trimZeros (Nat.toDigits 10 n)) (Nat.toDigits 10 n).length := by
  have hneg : ¬ (n : ℚ) < 0 := not_lt.mpr (Nat.cast_nonneg n)
  unfold exactText
  dsimp only
  rw [if_neg hneg, unsignedText, decimalPlaces_natCast, pow_zero, mul_one, Int.floor_natCast,
    Int.toNat_natCast]
  simp only [Nat.cast_eq_zero, Nat.cast_zero, sub_zero]

/-- Up to 21 digits there is no exponent. -/
theorem exactText_of_length_le {n : ℕ} (h : (Nat.toDigits 10 n).length ≤ 21) :
    exactText (.fin n) = Nat.toDigits 10 n := by
  rw [exactText_natCast]
  split_ifs with hzero
  · rw [hzero]
    rfl
  · have hle := length_trimZeros_le (Nat.toDigits 10 n)
    rw [digitsText, if_pos ⟨by omega, by omega⟩, Int.toNat_natCast]
    exact trimZeros_append _

theorem digitsText_large (digits : List Char) {length : ℕ} (h : 21 < length) :
    digitsText digits length =
      digits.take 1 ++ (if digits.length = 1 then [] else '.' :: digits.drop 1) ++
        'e' :: '+' :: Nat.toDigits 10 (length - 1) := by
  have hnatAbs : ((length : Int) - 1).natAbs = length - 1 := by omega
  have hsign : (if (length : Int) - 1 < 0 then '-' else '+') = '+' := if_neg (by omega)
  rw [digitsText, if_neg (by omega), if_neg (by omega), if_neg (by omega), hnatAbs, hsign]

theorem exponent_plus (k : ℕ) : exponent ('e' :: '+' :: Nat.toDigits 10 k) = k := by
  have hdigits : (Nat.toDigits 10 k).takeWhile Char.isDigit = Nat.toDigits 10 k := by
    have := span_append (fun c hc => isDigit_of_mem_toDigits (n := k) hc) (r := []) (by simp)
    simpa using this.1
  simp [exponent, afterSign, hdigits]

/-- The digits of a number with an exponent, the first of them in front of the point. -/
def scientific (c : Char) (digits : List Char) (hc : c.isDigit = true)
    (hdigits : ∀ c ∈ digits, c.isDigit = true) : Numeral where
  whole := [c]
  fraction := if digits = [] then none else some digits
  whole_digits := by simpa using hc
  fraction_digits := by
    split_ifs
    · simp
    · exact hdigits
  nonempty := by simp

theorem value_scientific (c : Char) (digits : List Char) (hc : c.isDigit = true)
    (hdigits : ∀ c ∈ digits, c.isDigit = true) :
    (scientific c digits hc hdigits).value = digitsValue (c :: digits) / 10 ^ digits.length := by
  unfold Numeral.value Numeral.places scientific
  by_cases h : digits = []
  · simp [h]
  · simp [h]

/-- A whole number is read back from its text. -/
theorem parseFloat_exactText (n : ℕ) : parseFloat (exactText (.fin n)) = .fin n := by
  have hdigit : ∀ c ∈ trimZeros (Nat.toDigits 10 n), c.isDigit = true :=
    fun c hc => isDigit_of_mem_toDigits (mem_of_mem_trimZeros hc)
  have hvalue := digitsValue_trimZeros (Nat.toDigits 10 n)
  have hle := length_trimZeros_le (Nat.toDigits 10 n)
  rw [digitsValue_toDigits] at hvalue
  by_cases hlength : (Nat.toDigits 10 n).length ≤ 21
  · rw [exactText_of_length_le hlength, parseFloat_toDigits]
  · have hzero : n ≠ 0 := by
      rintro rfl
      exact hlength (by decide)
    cases htrim : trimZeros (Nat.toDigits 10 n) with
    | nil =>
      rw [htrim] at hvalue
      simp [digitsValue] at hvalue
      exact absurd hvalue hzero
    | cons c digits =>
      rw [htrim, List.length_cons] at hvalue hle
      rw [htrim, List.forall_mem_cons] at hdigit
      have htext : exactText (.fin n) = (scientific c digits hdigit.1 hdigit.2).chars ++
          'e' :: '+' :: Nat.toDigits 10 ((Nat.toDigits 10 n).length - 1) := by
        rw [exactText_natCast, if_neg hzero, htrim, digitsText_large _ (by omega)]
        unfold scientific Numeral.chars Numeral.pointed
        by_cases hnil : digits = []
        · simp [hnil]
        · simp [hnil]
      have hends : Ends ('e' :: '+' :: Nat.toDigits 10 ((Nat.toDigits 10 n).length - 1)) := by
        intro c hc
        obtain rfl : 'e' = c := by simpa using hc
        decide
      have hcount : (Nat.toDigits 10 n).length - 1 =
          ((Nat.toDigits 10 n).length - (digits.length + 1)) + digits.length := by omega
      have hcast : (n : ℚ) = digitsValue (c :: digits) *
          10 ^ ((Nat.toDigits 10 n).length - (digits.length + 1)) := by exact_mod_cast hvalue
      rw [htext, parseFloat_numeral _ hends, exponent_plus, value_scientific, hcount, zpow_natCast,
        pow_add, ExtRat.fin.injEq, hcast]
      field_simp

/-! ## Numbers below zero -/

theorem digitsText_head (c : Char) (digits : List Char) (hc : c.isDigit = true) (point : Int) :
    ∃ d rest, digitsText (c :: digits) point = d :: rest ∧ d.isDigit = true := by
  unfold digitsText
  split_ifs with _ hpoint
  · exact ⟨c, _, rfl, hc⟩
  · obtain ⟨k, hk⟩ := Nat.exists_eq_succ_of_ne_zero (n := point.toNat) (by omega)
    rw [hk]
    exact ⟨c, _, rfl, hc⟩
  · exact ⟨'0', _, rfl, rfl⟩
  all_goals exact ⟨c, _, rfl, hc⟩

/-- The text of a number from 1 on starts with a digit. -/
theorem unsignedText_head {r : ℚ} (h : 1 ≤ r) :
    ∃ c rest, unsignedText r = c :: rest ∧ c.isDigit = true := by
  have hzero : r ≠ 0 := by
    rintro rfl
    norm_num at h
  have hscaled : (1 : ℚ) ≤ r * 10 ^ decimalPlaces r := by
    have hpower : (1 : ℚ) ≤ 10 ^ decimalPlaces r := one_le_pow₀ (by norm_num)
    nlinarith
  have hfloor : 0 < ⌊r * 10 ^ decimalPlaces r⌋.toNat := by
    have hone : 1 ≤ ⌊r * 10 ^ decimalPlaces r⌋ := Int.le_floor.mpr (by exact_mod_cast hscaled)
    omega
  unfold unsignedText
  dsimp only
  rw [if_neg hzero]
  cases htrim : trimZeros (Nat.toDigits 10 ⌊r * 10 ^ decimalPlaces r⌋.toNat) with
  | nil =>
    have hvalue := digitsValue_trimZeros (Nat.toDigits 10 ⌊r * 10 ^ decimalPlaces r⌋.toNat)
    rw [htrim, digitsValue_toDigits] at hvalue
    simp [digitsValue] at hvalue
    omega
  | cons c digits =>
    have hmem : c ∈ Nat.toDigits 10 ⌊r * 10 ^ decimalPlaces r⌋.toNat :=
      mem_of_mem_trimZeros (by rw [htrim]; exact List.mem_cons_self)
    exact digitsText_head c digits (isDigit_of_mem_toDigits hmem) _

theorem decimal_of_digit {c : Char} (hc : c.isDigit = true) (rest : List Char) :
    ∃ v, decimal (c :: rest) = some v ∧ 0 ≤ v := by
  have hwhole : (c :: rest).takeWhile Char.isDigit ≠ [] := by
    rw [List.takeWhile_cons_of_pos hc]
    exact List.cons_ne_nil _ _
  unfold decimal
  dsimp only
  rw [if_neg (fun h => hwhole h.1)]
  exact ⟨_, rfl, mul_nonneg (Nat.cast_nonneg _) (zpow_nonneg (by norm_num) _)⟩

/-- A minus sign in front of a digit is read as a number that is not positive. -/
theorem parseFloat_minus_digit {c : Char} (hc : c.isDigit = true) (rest : List Char) :
    ∃ v, parseFloat ('-' :: c :: rest) = .fin v ∧ v ≤ 0 := by
  obtain ⟨v, hdecimal, hv⟩ := decimal_of_digit hc rest
  have hsign : afterSign (('-' :: c :: rest).dropWhile isSpace) = (true, c :: rest) := by
    rw [List.dropWhile_cons_of_neg (by decide)]
    rfl
  have hinfinity : "Infinity".toList = 'I' :: "nfinity".toList := rfl
  have hword : ¬ "Infinity".toList <+: c :: rest := by
    intro h
    rw [hinfinity] at h
    exact (start_cases (Or.inl hc)).2.2.2 (List.cons_prefix_cons.mp h).1.symm
  refine ⟨-v, ?_, neg_nonpos.mpr hv⟩
  rw [parseFloat_eq hsign hword hdecimal]
  rfl

theorem exactText_neg {q : ℚ} (h : q ≤ -1) :
    ∃ c rest, exactText (.fin q) = '-' :: c :: rest ∧ c.isDigit = true := by
  have hneg : q < 0 := by linarith
  have hone : 1 ≤ -q := by linarith
  obtain ⟨c, rest, htext, hc⟩ := unsignedText_head hone
  refine ⟨c, rest, ?_, hc⟩
  unfold exactText
  dsimp only
  rw [if_pos hneg, htext]

/-! ## Numbers with a given number of places -/

theorem le_length_padded (k n : ℕ) : k ≤ (paddedDigits k n).length := by
  rw [paddedDigits, List.length_append, List.length_replicate]
  omega

/-- The numeral of a number of steps of size `10 ^ -places`. -/
def fixedNumeral (places n : ℕ) : Numeral where
  whole := (paddedDigits (places + 1) n).take ((paddedDigits (places + 1) n).length - places)
  fraction := if places = 0 then none
    else some ((paddedDigits (places + 1) n).drop ((paddedDigits (places + 1) n).length - places))
  whole_digits c hc := isDigit_of_mem_padded (List.mem_of_mem_take hc)
  fraction_digits c hc := by
    split_ifs at hc with h
    · cases hc
    · exact isDigit_of_mem_padded (List.mem_of_mem_drop hc)
  nonempty := by
    have hlength := le_length_padded (places + 1) n
    refine List.append_ne_nil_of_left_ne_nil (List.ne_nil_of_length_pos ?_) _
    rw [List.length_take]
    omega

theorem value_fixedNumeral (places n : ℕ) : (fixedNumeral places n).value = n / 10 ^ places := by
  have hlength := le_length_padded (places + 1) n
  unfold Numeral.value Numeral.places fixedNumeral
  by_cases h : places = 0
  · subst h
    simp [digitsValue_padded]
  · have hdrop : (paddedDigits (places + 1) n).length -
        ((paddedDigits (places + 1) n).length - places) = places := by omega
    simp only [if_neg h, Option.getD_some, List.take_append_drop, digitsValue_padded,
      List.length_drop, hdrop]

/-- `x.toFixed(places)`; halves are rounded away from zero. -/
def toFixed (places : ℕ) : ExtRat → List Char
  | .fin q =>
    if 10 ^ 21 ≤ |q| then exactText (.fin q)
    else
      let digits := (fixedNumeral places (steps places |q|).toNat).chars
      if q < 0 then '-' :: digits else digits
  | x => exactText x

theorem isNumberChar_numeral (d : Numeral) : ∀ c ∈ d.chars, isNumberChar c = true := by
  intro c hc
  rcases d.mem_chars hc with h | rfl
  · exact isNumberChar_of_isDigit h
  · rfl

/-- What a mantissa says: the absolute value is rounded, and keeps the sign. -/
def fixedValue (places : ℕ) (q : ℚ) : ℚ :=
  if q < 0 then -rounded places |q| else rounded places |q|

theorem abs_fixedValue (places : ℕ) (q : ℚ) : |fixedValue places q| = rounded places |q| := by
  have hnonneg := rounded_nonneg places (abs_nonneg q)
  unfold fixedValue
  split_ifs
  · rw [abs_neg, abs_of_nonneg hnonneg]
  · exact abs_of_nonneg hnonneg

theorem fixedValue_of_nonneg (places : ℕ) {q : ℚ} (h : 0 ≤ q) :
    fixedValue places q = rounded places q := by
  rw [fixedValue, if_neg (not_lt.mpr h), abs_of_nonneg h]

/-- A numeral with a sign or without. -/
def signed (negative : Bool) (d : Numeral) : List Char :=
  if negative then '-' :: d.chars else d.chars

theorem parseFloat_signed (negative : Bool) (d : Numeral) :
    parseFloat (signed negative d) = .fin (if negative then -d.value else d.value) := by
  cases negative with
  | true =>
    have hread := parseFloat_minus d ends_nil
    rw [List.append_nil] at hread
    simpa [signed, exponent] using hread
  | false => exact parseFloat_chars d

theorem toFixed_eq_signed (places : ℕ) {q : ℚ} (h : |q| < 10 ^ 21) :
    toFixed places (.fin q) = signed (q < 0) (fixedNumeral places (steps places |q|).toNat) := by
  unfold toFixed signed
  dsimp only
  rw [if_neg (not_le.mpr h)]
  simp only [decide_eq_true_eq]

theorem value_fixedNumeral_steps (places : ℕ) (q : ℚ) :
    (fixedNumeral places (steps places |q|).toNat).value = rounded places |q| := by
  have hcast : (((steps places |q|).toNat : ℕ) : ℚ) = (steps places |q| : ℤ) := by
    exact_mod_cast Int.toNat_of_nonneg (steps_nonneg places (abs_nonneg q))
  rw [value_fixedNumeral, hcast, rounded]

theorem parseFloat_toFixed (places : ℕ) {q : ℚ} (h : |q| < 10 ^ 21) :
    parseFloat (toFixed places (.fin q)) = .fin (fixedValue places q) := by
  rw [toFixed_eq_signed places h, parseFloat_signed, value_fixedNumeral_steps, fixedValue]
  simp only [decide_eq_true_eq]

theorem isNumberChar_toFixed (places : ℕ) (q : ℚ) :
    ∀ c ∈ toFixed places (.fin q), isNumberChar c = true := by
  have hdigits := isNumberChar_numeral (fixedNumeral places (steps places |q|).toNat)
  unfold toFixed
  dsimp only
  split_ifs
  · exact isNumberChar_exactText q
  · exact List.forall_mem_cons.mpr ⟨rfl, hdigits⟩
  · exact hdigits

/-! ## Numbers at the start of a text -/

/-- The number a text begins with, and the text behind it. -/
def readNumber (s : List Char) : ExtRat × List Char :=
  (parseFloat (s.takeWhile isNumberChar), s.dropWhile isNumberChar)

theorem readNumber_append {s r : List Char} (hs : ∀ c ∈ s, isNumberChar c = true)
    (hr : ∀ c ∈ r.head?, isNumberChar c = false) : readNumber (s ++ r) = (parseFloat s, r) := by
  obtain ⟨htake, hdrop⟩ := span_append hs hr
  rw [readNumber, htake, hdrop]

theorem readNumber_natCast (n : ℕ) {r : List Char} (hr : ∀ c ∈ r.head?, isNumberChar c = false) :
    readNumber (exactText (.fin n) ++ r) = (.fin n, r) := by
  rw [readNumber_append (isNumberChar_exactText n) hr, parseFloat_exactText]

end BigfleetDashboard.Script
