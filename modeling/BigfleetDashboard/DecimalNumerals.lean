import BigfleetDashboard.ScriptNumbers
import Mathlib.Algebra.Order.Field.Basic
import Mathlib.Tactic.FieldSimp
import Mathlib.Tactic.Ring
import Mathlib.Tactic.Positivity

/-!
# Decimal numbers as they are written

A numeral is a row of digits with at most one point in it. Reading a text that starts
with a numeral finds the number it denotes, times the power of ten that may follow.
-/
namespace BigfleetDashboard.Script

/-! ## Digits -/

theorem digitsValue_eq (ds : List Char) : digitsValue ds = Nat.ofDigitChars 10 ds 0 :=
  Nat.ofDigitChars_eq_foldl.symm

theorem digitsValue_append (as bs : List Char) :
    digitsValue (as ++ bs) = digitsValue as * 10 ^ bs.length + digitsValue bs := by
  rw [digitsValue_eq, digitsValue_eq, digitsValue_eq, Nat.ofDigitChars_append,
    Nat.ofDigitChars_eq_ofDigitChars_zero, mul_comm]

@[simp] theorem digitsValue_toDigits (n : ℕ) : digitsValue (Nat.toDigits 10 n) = n := by
  rw [digitsValue_eq, Nat.ofDigitChars_toDigits (by decide) (by decide)]

@[simp] theorem digitsValue_replicate (k : ℕ) : digitsValue (List.replicate k '0') = 0 := by
  rw [digitsValue_eq, Nat.ofDigitChars_replicate_zero, mul_zero]

/-- The decimal digits of a number, with zeros in front if they are fewer than `k`. -/
def paddedDigits (k n : ℕ) : List Char :=
  List.replicate (k - (Nat.toDigits 10 n).length) '0' ++ Nat.toDigits 10 n

theorem digitsValue_padded (k n : ℕ) : digitsValue (paddedDigits k n) = n := by
  rw [paddedDigits, digitsValue_append, digitsValue_replicate, digitsValue_toDigits]
  omega

theorem isDigit_of_mem_toDigits {n : ℕ} {c : Char} (hc : c ∈ Nat.toDigits 10 n) :
    c.isDigit = true := Nat.isDigit_of_mem_toDigits (by decide) (by decide) hc

theorem isDigit_of_mem_padded {k n : ℕ} {c : Char} (hc : c ∈ paddedDigits k n) :
    c.isDigit = true := by
  rcases List.mem_append.mp hc with h | h
  · rw [List.eq_of_mem_replicate h]
    rfl
  · exact isDigit_of_mem_toDigits h

/-- Digits are no letters. -/
theorem isAlpha_of_isDigit {c : Char} (hc : c.isDigit = true) : c.isAlpha = false := by
  have hrange : 48 ≤ c.toNat ∧ c.toNat ≤ 57 := Char.isDigit_iff_toNat.mp hc
  by_contra hletter
  rw [Bool.not_eq_false] at hletter
  have hcases : c.isUpper = true ∨ c.isLower = true := Bool.or_eq_true_iff.mp hletter
  rcases hcases with hupper | hlower
  · have hval : 'A'.val ≤ c.val ∧ c.val ≤ 'Z'.val := of_decide_eq_true hupper
    have hle : 65 ≤ c.toNat := UInt32.le_iff_toNat_le.mp hval.1
    omega
  · have hval : 'a'.val ≤ c.val := of_decide_eq_true (Bool.and_eq_true_iff.mp hlower).1
    have hle : 97 ≤ c.toNat := UInt32.le_iff_toNat_le.mp hval
    omega

/-- A text is split where the characters of a class end. -/
theorem span_append {p : Char → Bool} {ds r : List Char} (hds : ∀ c ∈ ds, p c = true)
    (hr : ∀ c ∈ r.head?, p c = false) :
    (ds ++ r).takeWhile p = ds ∧ (ds ++ r).dropWhile p = r := by
  rw [List.takeWhile_append_of_pos hds, List.dropWhile_append_of_pos hds]
  cases r with
  | nil => simp
  | cons c r => simp [hr c rfl]

/-! ## Numerals -/

structure Numeral where
  whole : List Char
  fraction : Option (List Char)
  whole_digits : ∀ c ∈ whole, c.isDigit = true
  fraction_digits : ∀ c ∈ fraction.getD [], c.isDigit = true
  nonempty : whole ++ fraction.getD [] ≠ []

namespace Numeral

/-- The digits behind the point. -/
def places (d : Numeral) : List Char := d.fraction.getD []

/-- The point and what stands behind it. -/
def pointed (d : Numeral) : List Char :=
  match d.fraction with
  | none => []
  | some fraction => '.' :: fraction

def chars (d : Numeral) : List Char := d.whole ++ d.pointed

def value (d : Numeral) : ℚ := digitsValue (d.whole ++ d.places) / 10 ^ d.places.length

theorem value_nonneg (d : Numeral) : 0 ≤ d.value := by
  unfold value
  positivity

/-- The whole number of a row of digits. -/
def ofNat (n : ℕ) : Numeral where
  whole := Nat.toDigits 10 n
  fraction := none
  whole_digits _ hc := isDigit_of_mem_toDigits hc
  fraction_digits := by simp
  nonempty := by simp

@[simp] theorem chars_ofNat (n : ℕ) : (ofNat n).chars = Nat.toDigits 10 n := List.append_nil _

@[simp] theorem value_ofNat (n : ℕ) : (ofNat n).value = n := by
  simp [value, ofNat, places]

/-- A numeral starts with a digit or the point. -/
theorem exists_head (d : Numeral) :
    ∃ c rest, d.chars = c :: rest ∧ (c.isDigit = true ∨ c = '.') := by
  unfold chars pointed
  cases hwhole : d.whole with
  | cons c whole =>
    exact ⟨c, _, rfl, Or.inl (d.whole_digits c (by rw [hwhole]; exact List.mem_cons_self))⟩
  | nil =>
    cases hfraction : d.fraction with
    | none => exact absurd (by rw [hwhole, hfraction]; rfl) d.nonempty
    | some fraction => exact ⟨'.', fraction, rfl, Or.inr rfl⟩

/-- The characters of a numeral are digits and points. -/
theorem mem_chars {d : Numeral} {c : Char} (hc : c ∈ d.chars) : c.isDigit = true ∨ c = '.' := by
  unfold chars pointed at hc
  rcases List.mem_append.mp hc with h | h
  · exact Or.inl (d.whole_digits c h)
  · cases hfraction : d.fraction with
    | none => simp [hfraction] at h
    | some fraction =>
      rw [hfraction] at h
      rcases List.mem_cons.mp h with rfl | h
      · exact Or.inr rfl
      · exact Or.inl (d.fraction_digits c (by rw [hfraction]; exact h))

end Numeral

/-- A text that does not go on with a numeral in front of it. -/
def Ends (rest : List Char) : Prop := ∀ c ∈ rest.head?, c.isDigit = false ∧ c ≠ '.'

theorem ends_nil : Ends [] := by simp [Ends]

/-! ## Reading -/

theorem decimal_numeral (d : Numeral) {rest : List Char} (hrest : Ends rest) :
    decimal (d.chars ++ rest) = some (d.value * 10 ^ exponent rest) := by
  have hpower : (10 : ℚ) ^ (exponent rest - d.places.length) =
      10 ^ exponent rest / 10 ^ d.places.length := by
    rw [zpow_sub₀ (by norm_num), zpow_natCast]
  cases hfraction : d.fraction with
  | none =>
    have hpieces := span_append d.whole_digits (fun c hc => (hrest c hc).1)
    have hplaces : d.places = [] := by rw [Numeral.places, hfraction]; rfl
    have hwhole : d.whole ≠ [] := by
      have := d.nonempty
      rwa [hfraction, Option.getD_none, List.append_nil] at this
    have hpoint : ¬ rest.head? = some '.' := fun h => (hrest '.' h).2 rfl
    have hchars : d.chars ++ rest = d.whole ++ rest := by
      simp only [Numeral.chars, Numeral.pointed, hfraction, List.append_nil]
    rw [hplaces] at hpower
    unfold decimal
    rw [hchars, hpieces.1, hpieces.2]
    dsimp only
    rw [if_neg hpoint, if_neg hpoint, if_neg (by simp [hwhole]), hpower, Numeral.value, hplaces,
      mul_div_assoc', div_mul_eq_mul_div]
  | some fraction =>
    have hplaces : d.places = fraction := by rw [Numeral.places, hfraction]; rfl
    have hdigits : ∀ c ∈ fraction, c.isDigit = true := by
      have := d.fraction_digits
      rwa [hfraction] at this
    have hpieces := span_append d.whole_digits (r := '.' :: (fraction ++ rest)) (by simp)
    have hrests := span_append hdigits (fun c hc => (hrest c hc).1)
    have hchars : d.chars ++ rest = d.whole ++ '.' :: (fraction ++ rest) := by
      simp only [Numeral.chars, Numeral.pointed, hfraction, List.append_assoc, List.cons_append]
    have hnonempty : ¬ (d.whole = [] ∧ fraction = []) := by
      intro h
      exact d.nonempty (by rw [h.1, hfraction, h.2]; rfl)
    rw [hplaces] at hpower
    unfold decimal
    rw [hchars, hpieces.1, hpieces.2]
    dsimp only
    rw [List.head?_cons, if_pos rfl, if_pos rfl, List.tail_cons, hrests.1, hrests.2,
      if_neg hnonempty, hpower, Numeral.value, hplaces, mul_div_assoc', div_mul_eq_mul_div]

/-- Whether a character may start a numeral. -/
theorem start_cases {c : Char} (hc : c.isDigit = true ∨ c = '.') :
    isSpace c = false ∧ c ≠ '-' ∧ c ≠ '+' ∧ c ≠ 'I' := by
  rcases hc with h | rfl
  · have hrange : 48 ≤ c.toNat ∧ c.toNat ≤ 57 := Char.isDigit_iff_toNat.mp h
    refine ⟨?_, ?_, ?_, ?_⟩
    · simp only [isSpace]
      simp only [Bool.or_eq_false_iff, Bool.and_eq_false_iff, decide_eq_false_iff_not]
      omega
    · rintro rfl
      revert h
      decide
    · rintro rfl
      revert h
      decide
    · rintro rfl
      revert h
      decide
  · decide

theorem afterSign_of_ne {c : Char} (rest : List Char) (hminus : c ≠ '-') (hplus : c ≠ '+') :
    afterSign (c :: rest) = (false, c :: rest) := by
  unfold afterSign
  split
  · exact absurd (List.cons.inj ‹_›).1 hminus
  · exact absurd (List.cons.inj ‹_›).1 hplus
  · rfl

theorem parseFloat_eq {s body : List Char} {negative : Bool} {q : ℚ}
    (hsign : afterSign (s.dropWhile isSpace) = (negative, body))
    (hword : ¬ "Infinity".toList <+: body) (hdecimal : decimal body = some q) :
    parseFloat s = .fin (if negative then -q else q) := by
  unfold parseFloat
  rw [hsign]
  dsimp only
  rw [if_neg hword, hdecimal]

/-- A text that starts like a numeral is no infinity. -/
theorem not_infinity (d : Numeral) (rest : List Char) :
    ¬ "Infinity".toList <+: d.chars ++ rest := by
  obtain ⟨c, tail, hchars, hc⟩ := d.exists_head
  have hinfinity : "Infinity".toList = 'I' :: "nfinity".toList := rfl
  intro h
  rw [hchars, List.cons_append, hinfinity] at h
  exact (start_cases hc).2.2.2 (List.cons_prefix_cons.mp h).1.symm

theorem parseFloat_numeral (d : Numeral) {rest : List Char} (hrest : Ends rest) :
    parseFloat (d.chars ++ rest) = .fin (d.value * 10 ^ exponent rest) := by
  obtain ⟨c, tail, hchars, hc⟩ := d.exists_head
  obtain ⟨hspace, hminus, hplus, -⟩ := start_cases hc
  have hsign : afterSign ((d.chars ++ rest).dropWhile isSpace) = (false, d.chars ++ rest) := by
    rw [hchars, List.cons_append, List.dropWhile_cons_of_neg (by simp [hspace])]
    exact afterSign_of_ne _ hminus hplus
  rw [parseFloat_eq hsign (not_infinity d rest) (decimal_numeral d hrest)]
  rfl

theorem parseFloat_chars (d : Numeral) : parseFloat d.chars = .fin d.value := by
  have hread := parseFloat_numeral d ends_nil
  simpa [exponent] using hread

theorem parseFloat_toDigits (n : ℕ) : parseFloat (Nat.toDigits 10 n) = .fin n := by
  have hread := parseFloat_chars (Numeral.ofNat n)
  rwa [Numeral.chars_ofNat, Numeral.value_ofNat] at hread

theorem parseFloat_plus (d : Numeral) {rest : List Char} (hrest : Ends rest) :
    parseFloat ('+' :: (d.chars ++ rest)) = .fin (d.value * 10 ^ exponent rest) := by
  have hsign : afterSign (('+' :: (d.chars ++ rest)).dropWhile isSpace) =
      (false, d.chars ++ rest) := by
    rw [List.dropWhile_cons_of_neg (by decide)]
    rfl
  rw [parseFloat_eq hsign (not_infinity d rest) (decimal_numeral d hrest)]
  rfl

theorem parseFloat_minus (d : Numeral) {rest : List Char} (hrest : Ends rest) :
    parseFloat ('-' :: (d.chars ++ rest)) = .fin (-(d.value * 10 ^ exponent rest)) := by
  have hsign : afterSign (('-' :: (d.chars ++ rest)).dropWhile isSpace) =
      (true, d.chars ++ rest) := by
    rw [List.dropWhile_cons_of_neg (by decide)]
    rfl
  rw [parseFloat_eq hsign (not_infinity d rest) (decimal_numeral d hrest)]
  rfl

/-! ## Whole texts as numbers -/

/-- The text behind the exponent it begins with. -/
def afterExponent : List Char → List Char
  | [] => []
  | c :: rest =>
    if c = 'e' || c = 'E' then
      let digits := (afterSign rest).2
      if digits.takeWhile Char.isDigit = [] then c :: rest else digits.dropWhile Char.isDigit
    else c :: rest

/-- The text behind the decimal number it begins with. -/
def afterDecimal (s : List Char) : List Char :=
  let rest := s.dropWhile Char.isDigit
  afterExponent (if rest.head? = some '.' then rest.tail.dropWhile Char.isDigit else rest)

/-- A whole text that is a decimal number with or without a sign. -/
def signedDecimal (s : List Char) : ExtRat :=
  let (negative, body) := afterSign s
  if body = "Infinity".toList then (if negative then .negInf else .posInf)
  else
    match decimal body with
    | none => .nan
    | some q => if afterDecimal body = [] then .fin (if negative then -q else q) else .nan

/-- The radix that a letter behind a leading zero stands for. -/
def radixOf (c : Char) : Option ℕ :=
  if c = 'x' || c = 'X' then some 16
  else if c = 'o' || c = 'O' then some 8
  else if c = 'b' || c = 'B' then some 2
  else none

/-- The value of a letter or a digit; other characters have no place in any radix. -/
def placeValue (c : Char) : ℕ :=
  if c.isDigit then c.toNat - 48
  else if c.isAlpha then c.toLower.toNat - 87
  else 36

def radixNumber (radix : ℕ) (digits : List Char) : ExtRat :=
  if digits ≠ [] ∧ digits.all (fun c => placeValue c < radix) then
    .fin (digits.foldl (fun n c => radix * n + placeValue c) 0 : ℕ)
  else .nan

/-- `Number(s)`. -/
def toNumber (s : String) : ExtRat :=
  match trim s.toList with
  | [] => 0
  | '0' :: c :: digits =>
    match radixOf c with
    | some radix => radixNumber radix digits
    | none => signedDecimal ('0' :: c :: digits)
  | text => signedDecimal text

theorem trim_of_no_space {s : List Char} (h : ∀ c ∈ s, isSpace c = false) : trim s = s := by
  have hkeep : ∀ t : List Char, (∀ c ∈ t, isSpace c = false) → t.dropWhile isSpace = t := by
    intro t ht
    cases t with
    | nil => rfl
    | cons c t => exact List.dropWhile_cons_of_neg (by simp [ht c List.mem_cons_self])
  rw [trim, hkeep s h, hkeep s.reverse (fun c hc => h c (List.mem_reverse.mp hc)),
    List.reverse_reverse]

theorem trim_numeral (d : Numeral) : trim d.chars = d.chars :=
  trim_of_no_space fun _ hc => (start_cases (d.mem_chars hc)).1

theorem afterDecimal_numeral (d : Numeral) : afterDecimal d.chars = [] := by
  unfold afterDecimal
  cases hfraction : d.fraction with
  | none =>
    have hpieces := span_append d.whole_digits (r := []) (by simp)
    have hchars : d.chars = d.whole ++ [] := by
      simp only [Numeral.chars, Numeral.pointed, hfraction]
    rw [hchars, hpieces.2]
    rfl
  | some fraction =>
    have hdigits : ∀ c ∈ fraction, c.isDigit = true := by
      have := d.fraction_digits
      rwa [hfraction] at this
    have hpieces := span_append d.whole_digits (r := '.' :: fraction) (by simp)
    have hrests := span_append hdigits (r := []) (by simp)
    have hchars : d.chars = d.whole ++ '.' :: fraction := by
      simp only [Numeral.chars, Numeral.pointed, hfraction]
    rw [List.append_nil] at hrests
    rw [hchars, hpieces.2]
    dsimp only
    rw [List.head?_cons, if_pos rfl, List.tail_cons, hrests.2]
    rfl

theorem signedDecimal_numeral (d : Numeral) : signedDecimal d.chars = .fin d.value := by
  have hdecimal := decimal_numeral d ends_nil
  have hinfinity := not_infinity d []
  rw [List.append_nil] at hdecimal hinfinity
  have hsign : afterSign d.chars = (false, d.chars) := by
    obtain ⟨c, tail, hchars, hc⟩ := d.exists_head
    obtain ⟨-, hminus, hplus, -⟩ := start_cases hc
    rw [hchars]
    exact afterSign_of_ne _ hminus hplus
  have hne : d.chars ≠ "Infinity".toList := fun h => hinfinity (h ▸ List.prefix_rfl)
  unfold signedDecimal
  rw [hsign]
  dsimp only
  rw [if_neg hne, hdecimal]
  dsimp only
  rw [if_pos (afterDecimal_numeral d)]
  simp [exponent]

/-- A text that is a numeral is read as the number it denotes. -/
theorem toNumber_numeral (d : Numeral) : toNumber (String.ofList d.chars) = .fin d.value := by
  unfold toNumber
  rw [String.toList_ofList, trim_numeral]
  split
  · rename_i hnil
    obtain ⟨c, tail, hchars, -⟩ := d.exists_head
    rw [hchars] at hnil
    cases hnil
  · rename_i c digits hchars
    have hmem : c ∈ d.chars := by
      rw [hchars]
      simp
    have hradix : radixOf c = none := by
      rcases d.mem_chars hmem with h | rfl
      · have hletter : ∀ l : Char, l.isDigit = false → c ≠ l := by
          intro l hl heq
          rw [heq, hl] at h
          cases h
        simp [radixOf, hletter 'x' rfl, hletter 'X' rfl, hletter 'o' rfl, hletter 'O' rfl,
          hletter 'b' rfl, hletter 'B' rfl]
      · rfl
    rw [hradix, ← hchars]
    exact signedDecimal_numeral d
  · exact signedDecimal_numeral d

end BigfleetDashboard.Script
