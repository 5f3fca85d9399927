import BigfleetDashboard.Coverage
import BigfleetDashboard.DecimalNumerals
import Mathlib.Data.Bool.AllAny

/-!
# Reading Kubernetes quantities

A quantity is a decimal number with a decimal exponent or a suffix, or alone. The page
reads a number with letters behind it by a table of suffixes, and everything else up to
where a decimal number ends.
-/
namespace BigfleetDashboard.Pages
open Script

/-! ## The grammar -/

/-- A decimal exponent: a letter, a sign or none, and digits. -/
structure ExponentText where
  marker : Char
  sign : List Char
  digits : List Char
  marker_mem : marker = 'e' ∨ marker = 'E'
  sign_mem : sign = [] ∨ sign = ['+'] ∨ sign = ['-']
  all_digits : ∀ c ∈ digits, c.isDigit = true
  nonempty : digits ≠ []

def ExponentText.chars (x : ExponentText) : List Char := x.marker :: (x.sign ++ x.digits)

def ExponentText.value (x : ExponentText) : Int :=
  if x.sign = ['-'] then -digitsValue x.digits else digitsValue x.digits

/-- The suffixes that are letters: decimal and binary ones. -/
inductive Letters
  | n | u | m | k | M | G | T | P | E
  | Ki | Mi | Gi | Ti | Pi | Ei
  deriving DecidableEq

def Letters.text : Letters → String
  | .n => "n"
  | .u => "u"
  | .m => "m"
  | .k => "k"
  | .M => "M"
  | .G => "G"
  | .T => "T"
  | .P => "P"
  | .E => "E"
  | .Ki => "Ki"
  | .Mi => "Mi"
  | .Gi => "Gi"
  | .Ti => "Ti"
  | .Pi => "Pi"
  | .Ei => "Ei"

def Letters.factor : Letters → ℚ
  | .n => 1 / 10 ^ 9
  | .u => 1 / 10 ^ 6
  | .m => 1 / 1000
  | .k => 10 ^ 3
  | .M => 10 ^ 6
  | .G => 10 ^ 9
  | .T => 10 ^ 12
  | .P => 10 ^ 15
  | .E => 10 ^ 18
  | .Ki => 1024
  | .Mi => 1024 ^ 2
  | .Gi => 1024 ^ 3
  | .Ti => 1024 ^ 4
  | .Pi => 1024 ^ 5
  | .Ei => 1024 ^ 6

inductive Suffix
  | none
  | exponent (x : ExponentText)
  | letters (l : Letters)

def Suffix.chars : Suffix → List Char
  | .none => []
  | .exponent x => x.chars
  | .letters l => l.text.toList

def Suffix.factor : Suffix → ℚ
  | .none => 1
  | .exponent x => 10 ^ x.value
  | .letters l => l.factor

/-- A quantity that is not negative. -/
structure KubeQuantity where
  plus : Bool
  number : Numeral
  suffix : Suffix

namespace KubeQuantity

def unsigned (q : KubeQuantity) : List Char := q.number.chars ++ q.suffix.chars

def text (q : KubeQuantity) : String :=
  String.ofList (if q.plus then '+' :: q.unsigned else q.unsigned)

/-- The number a quantity denotes. -/
def denoted (q : KubeQuantity) : ℚ := q.number.value * q.suffix.factor

end KubeQuantity

/-! ## What is read -/

/-- The suffixes of the table. -/
def Listed : Letters → Bool
  | .n => false
  | .u => false
  | .E => false
  | .Ei => false
  | _ => true

theorem suffixFactor_letters (l : Letters) :
    suffixFactor l.text = .fin (if Listed l then l.factor else 1) := by
  cases l <;> rfl

theorem letters_alpha (l : Letters) : ∀ c ∈ l.text.toList, c.isAlpha = true := by
  have hall : l.text.toList.all Char.isAlpha = true := by
    cases l <;> decide
  exact List.all_eq_true.mp hall

theorem letters_spec (l : Letters) :
    ∀ c ∈ l.text.toList, c.isDigit = false ∧ c ≠ '.' ∧ isSpace c = false := by
  have hall : l.text.toList.all (fun c => c.isDigit = false ∧ c ≠ '.' ∧ isSpace c = false) := by
    cases l <;> decide
  exact List.all_iff_forall_prop.mp hall

/-- Without digits behind the letter there is no exponent. -/
theorem exponent_letters (l : Letters) : exponent l.text.toList = 0 := by
  cases l <;> rfl

theorem exists_digit (x : ExponentText) :
    ∃ c digits, x.digits = c :: digits ∧ c.isDigit = true := by
  obtain ⟨c, digits, hcons⟩ := List.exists_cons_of_ne_nil x.nonempty
  exact ⟨c, digits, hcons, x.all_digits c (by rw [hcons]; exact List.mem_cons_self)⟩

theorem exponent_chars (x : ExponentText) : exponent x.chars = x.value := by
  have hmarker : (x.marker = 'e' || x.marker = 'E') = true := by
    simpa using x.marker_mem
  have hdigits := span_append x.all_digits (r := []) (by simp)
  rw [List.append_nil] at hdigits
  unfold ExponentText.chars exponent ExponentText.value
  dsimp only
  rw [if_pos hmarker]
  rcases x.sign_mem with hsign | hsign | hsign
  · obtain ⟨c, digits, hcons, hc⟩ := exists_digit x
    obtain ⟨-, hminus, hplus, -⟩ := start_cases (Or.inl hc)
    have hafter : afterSign x.digits = (false, x.digits) := by
      rw [hcons]
      exact afterSign_of_ne digits hminus hplus
    simp [hsign, hafter, hdigits.1]
  · simp [hsign, afterSign, hdigits.1]
  · simp [hsign, afterSign, hdigits.1]

/-- The letter of an exponent ends a row of digits and is no white space. -/
theorem marker_spec (x : ExponentText) :
    x.marker.isDigit = false ∧ x.marker ≠ '.' ∧ isSpace x.marker = false := by
  rcases x.marker_mem with h | h
  · rw [h]
    decide
  · rw [h]
    decide

theorem marker_of_mem {x : ExponentText} {c : Char} (hc : c ∈ x.chars.head?) :
    c.isDigit = false ∧ c ≠ '.' := by
  obtain rfl : x.marker = c := by simpa [ExponentText.chars] using hc
  obtain ⟨hdigit, hpoint, -⟩ := marker_spec x
  exact ⟨hdigit, hpoint⟩

theorem ends_suffix (s : Suffix) : Ends s.chars := by
  intro c hc
  cases s with
  | none => cases hc
  | exponent x => exact marker_of_mem hc
  | letters l =>
    obtain ⟨hdigit, hpoint, -⟩ := letters_spec l c (List.mem_of_mem_head? hc)
    exact ⟨hdigit, hpoint⟩

/-! ## Reading a quantity -/

/-- The factor the page applies; behind a sign it drops letters. -/
def KubeQuantity.readFactor (q : KubeQuantity) : ℚ :=
  match q.suffix with
  | .none => 1
  | .exponent x => 10 ^ x.value
  | .letters l => if !q.plus && Listed l then l.factor else 1

section Reading
variable (d : Numeral)

theorem quantityDigit_of_mem {c : Char} (hc : c ∈ d.chars) : isQuantityDigit c = true := by
  rcases d.mem_chars hc with h | rfl
  · simp [isQuantityDigit, h]
  · rfl

theorem chars_ne_nil : d.chars ≠ [] := by
  obtain ⟨c, tail, hchars, -⟩ := d.exists_head
  rw [hchars]
  exact List.cons_ne_nil c tail

theorem span_quantity (s : Suffix) :
    (d.chars ++ s.chars).takeWhile isQuantityDigit = d.chars ∧
      (d.chars ++ s.chars).dropWhile isQuantityDigit = s.chars := by
  refine span_append (fun c hc => quantityDigit_of_mem d hc) ?_
  intro c hc
  obtain ⟨hdigit, hpoint⟩ := ends_suffix s c hc
  simp [isQuantityDigit, hdigit, hpoint]

/-- A number with letters behind it matches the expression. -/
theorem matchQuantity_letters (l : Letters) :
    matchQuantity (d.chars ++ (Suffix.letters l).chars) = some (d.chars, l.text.toList) := by
  obtain ⟨htake, hdrop⟩ := span_quantity d (.letters l)
  have hspace : l.text.toList.dropWhile isSpace = l.text.toList := by
    cases l <;> decide
  have halpha : l.text.toList.all Char.isAlpha = true := List.all_eq_true.mpr (letters_alpha l)
  unfold matchQuantity
  rw [htake, hdrop]
  dsimp only [Suffix.chars]
  rw [hspace, if_pos ⟨chars_ne_nil d, halpha⟩]

theorem matchQuantity_none : matchQuantity d.chars = some (d.chars, []) := by
  obtain ⟨htake, hdrop⟩ := span_quantity d .none
  simp only [Suffix.chars, List.append_nil] at htake hdrop
  unfold matchQuantity
  rw [htake, hdrop]
  simp [chars_ne_nil d]

/-- The digits of an exponent are no letters. -/
theorem matchQuantity_exponent (x : ExponentText) :
    matchQuantity (d.chars ++ x.chars) = none := by
  obtain ⟨htake, hdrop⟩ := span_quantity d (.exponent x)
  obtain ⟨c, digits, hcons, hc⟩ := exists_digit x
  have hspace : x.chars.dropWhile isSpace = x.chars := by
    refine List.dropWhile_cons_of_neg ?_
    rw [(marker_spec x).2.2]
    exact Bool.false_ne_true
  have hmem : c ∈ x.chars := by
    simp [ExponentText.chars, hcons]
  have halpha : c.isAlpha = false := isAlpha_of_isDigit hc
  have hnot : ¬ (x.chars.all Char.isAlpha = true) := by
    rw [List.all_eq_true]
    intro hall
    rw [hall c hmem] at halpha
    cases halpha
  unfold matchQuantity
  change (d.chars ++ x.chars).takeWhile isQuantityDigit = d.chars at htake
  change (d.chars ++ x.chars).dropWhile isQuantityDigit = x.chars at hdrop
  rw [htake, hdrop, hspace]
  exact if_neg (fun h => hnot h.2)

theorem orZero_fin (q : ℚ) : orZero (.fin q) = .fin q := rfl

theorem ofList_ne_empty {s : List Char} (h : s ≠ []) : String.ofList s ≠ "" := by
  intro heq
  exact h (String.ofList_injective heq)

/-- A number with nothing or letters behind it goes through the table. -/
theorem quantityOf_matched {s number suffix : List Char} (hspace : ∀ c ∈ s, isSpace c = false)
    (hmatch : matchQuantity s = some (number, suffix)) :
    quantityOf (String.ofList s) =
      orZero (parseFloat number) * suffixFactor (String.ofList suffix) := by
  have hne : s ≠ [] := by
    rintro rfl
    simp [matchQuantity] at hmatch
  unfold quantityOf
  rw [if_neg (ofList_ne_empty hne), String.toList_ofList, trim_of_no_space hspace, hmatch]

theorem quantityOf_unmatched {s : List Char} (hspace : ∀ c ∈ s, isSpace c = false) (hne : s ≠ [])
    (hmatch : matchQuantity s = none) :
    quantityOf (String.ofList s) = orZero (parseFloat s) := by
  unfold quantityOf
  rw [if_neg (ofList_ne_empty hne), String.toList_ofList, trim_of_no_space hspace, hmatch]

end Reading

theorem isSpace_of_isDigit {c : Char} (hc : c.isDigit = true) : isSpace c = false :=
  (start_cases (Or.inl hc)).1

theorem suffix_no_space (s : Suffix) : ∀ c ∈ s.chars, isSpace c = false := by
  intro c hc
  cases s with
  | none => cases hc
  | exponent x =>
    rcases List.mem_cons.mp hc with rfl | hc
    · exact (marker_spec x).2.2
    · rcases List.mem_append.mp hc with hc | hc
      · rcases x.sign_mem with h | h | h
        · rw [h] at hc
          cases hc
        · rw [h] at hc
          rw [List.mem_singleton.mp hc]
          decide
        · rw [h] at hc
          rw [List.mem_singleton.mp hc]
          decide
      · exact isSpace_of_isDigit (x.all_digits c hc)
  | letters l => exact (letters_spec l c hc).2.2

theorem unsigned_no_space (q : KubeQuantity) : ∀ c ∈ q.unsigned, isSpace c = false := by
  intro c hc
  rcases List.mem_append.mp hc with hc | hc
  · exact (start_cases (q.number.mem_chars hc)).1
  · exact suffix_no_space q.suffix c hc

/-- A sign keeps a quantity from matching the expression. -/
theorem quantityOf_plus (d : Numeral) (s : Suffix) :
    quantityOf (String.ofList ('+' :: (d.chars ++ s.chars))) =
      .fin (d.value * 10 ^ exponent s.chars) := by
  have hspace : ∀ c ∈ '+' :: (d.chars ++ s.chars), isSpace c = false :=
    List.forall_mem_cons.mpr ⟨by decide, unsigned_no_space ⟨true, d, s⟩⟩
  have hmatch : matchQuantity ('+' :: (d.chars ++ s.chars)) = none := by
    have htake : ('+' :: (d.chars ++ s.chars)).takeWhile isQuantityDigit = [] :=
      List.takeWhile_cons_of_neg (by decide)
    unfold matchQuantity
    rw [htake]
    exact if_neg (fun h => h.1 rfl)
  rw [quantityOf_unmatched hspace (List.cons_ne_nil _ _) hmatch,
    parseFloat_plus d (ends_suffix s), orZero_fin]

theorem quantityOf_unsigned (d : Numeral) (s : Suffix) :
    quantityOf (String.ofList (d.chars ++ s.chars)) =
      .fin (d.value * (KubeQuantity.mk false d s).readFactor) := by
  have hspace : ∀ c ∈ d.chars ++ s.chars, isSpace c = false := unsigned_no_space ⟨false, d, s⟩
  cases s with
  | none =>
    have hempty : suffixFactor (String.ofList []) = .fin 1 := rfl
    rw [Suffix.chars, List.append_nil, quantityOf_matched (fun c hc =>
      hspace c (List.mem_append_left _ hc)) (matchQuantity_none d), parseFloat_chars, hempty]
    rfl
  | exponent x =>
    have hne : d.chars ++ x.chars ≠ [] := by simp [chars_ne_nil d]
    have hread := parseFloat_numeral d (ends_suffix (.exponent x))
    rw [Suffix.chars] at hspace hread
    rw [Suffix.chars, quantityOf_unmatched hspace hne (matchQuantity_exponent d x), hread,
      orZero_fin, exponent_chars]
    rfl
  | letters l =>
    rw [quantityOf_matched hspace (matchQuantity_letters d l), parseFloat_chars,
      String.ofList_toList, suffixFactor_letters, orZero_fin, ExtRat.fin_mul_fin]
    simp [KubeQuantity.readFactor]

theorem quantityOf_text (q : KubeQuantity) :
    quantityOf q.text = .fin (q.number.value * q.readFactor) := by
  cases q with
  | mk plus d s =>
    cases plus with
    | false => exact quantityOf_unsigned d s
    | true =>
      refine (quantityOf_plus d s).trans ?_
      cases s with
      | none => rfl
      | exponent x => rw [Suffix.chars, exponent_chars]; rfl
      | letters l => rw [Suffix.chars, exponent_letters]; rfl

theorem readFactor_nonneg (q : KubeQuantity) : 0 ≤ q.readFactor := by
  unfold KubeQuantity.readFactor
  cases q.suffix with
  | none => exact zero_le_one
  | exponent x => exact zpow_nonneg (by norm_num) x.value
  | letters l =>
    dsimp only
    split_ifs
    · cases l <;> norm_num [Letters.factor]
    · exact zero_le_one

/-- A text of the grammar is read as a finite number that is not negative. -/
theorem quantityOf_nonneg (q : KubeQuantity) :
    (quantityOf q.text).IsFinite ∧ 0 ≤ amount q.text := by
  rw [amount, quantityOf_text]
  exact ⟨ExtRat.isFinite_fin _, mul_nonneg q.number.value_nonneg (readFactor_nonneg q)⟩

/-! ## Quantities that are read right -/

/-- The quantity is zero, or has no letters, or letters of the table and no sign. -/
def ReadRight (q : KubeQuantity) : Prop :=
  q.number.value = 0 ∨ ∀ l, q.suffix = .letters l → q.plus = false ∧ Listed l = true

theorem factor_ne_one (l : Letters) : l.factor ≠ 1 := by
  cases l <;> norm_num [Letters.factor]

theorem readFactor_eq_iff (q : KubeQuantity) :
    q.readFactor = q.suffix.factor ↔
      ∀ l, q.suffix = .letters l → q.plus = false ∧ Listed l = true := by
  unfold KubeQuantity.readFactor Suffix.factor
  cases q.suffix with
  | none => simp
  | exponent x => simp
  | letters l =>
    simp only [Suffix.letters.injEq, forall_eq']
    cases q.plus with
    | true => simp [(factor_ne_one l).symm]
    | false =>
      cases Listed l with
      | true => simp
      | false => simp [(factor_ne_one l).symm]

theorem quantityOf_eq_denoted_iff (q : KubeQuantity) :
    quantityOf q.text = .fin q.denoted ↔ ReadRight q := by
  rw [quantityOf_text, KubeQuantity.denoted, ExtRat.fin.injEq, mul_eq_mul_left_iff, or_comm,
    readFactor_eq_iff, ReadRight]

/-- Which quantities are read as the number they denote; they compare as these numbers do. -/
theorem parseQuantity_denoted_iff (q : KubeQuantity) :
    (parseQuantity (.own q.text) = .ok (.fin q.denoted) ↔ ReadRight q) ∧
    ∀ q' : KubeQuantity, ReadRight q → ReadRight q' →
      ∃ x x', parseQuantity (.own q.text) = .ok x ∧ parseQuantity (.own q'.text) = .ok x' ∧
        (x ≤ x' ↔ q.denoted ≤ q'.denoted) := by
  constructor
  · rw [parseQuantity_own, Except.ok.injEq, quantityOf_eq_denoted_iff]
  · intro q' hq hq'
    refine ⟨_, _, parseQuantity_own _, parseQuantity_own _, ?_⟩
    rw [(quantityOf_eq_denoted_iff q).mpr hq, (quantityOf_eq_denoted_iff q').mpr hq',
      ExtRat.fin_le_fin]

/-- A whole number with letters. -/
def wholeQuantity (n : ℕ) (l : Letters) : KubeQuantity := ⟨false, Numeral.ofNat n, .letters l⟩

theorem readRight_wholeQuantity (n : ℕ) {l : Letters} (h : Listed l = true) :
    ReadRight (wholeQuantity n l) := by
  refine Or.inr fun l' hl' => ⟨rfl, ?_⟩
  obtain rfl := Suffix.letters.inj hl'
  exact h

theorem parseQuantity_denoted_memory :
    ∃ x x', parseQuantity (.own (wholeQuantity 512 .Mi).text) = .ok x ∧
      parseQuantity (.own (wholeQuantity 1 .Gi).text) = .ok x' ∧
      (x ≤ x' ↔ (wholeQuantity 512 .Mi).denoted ≤ (wholeQuantity 1 .Gi).denoted) :=
  (parseQuantity_denoted_iff (wholeQuantity 512 .Mi)).2 (wholeQuantity 1 .Gi)
    (readRight_wholeQuantity 512 rfl) (readRight_wholeQuantity 1 rfl)

/-- Two exabytes are read as two bytes. -/
theorem parseQuantity_not_denoted :
    ¬ ∀ q : KubeQuantity, parseQuantity (.own q.text) = .ok (.fin q.denoted) := by
  intro h
  have hread := h (wholeQuantity 2 .E)
  rw [parseQuantity_own, Except.ok.injEq, quantityOf_eq_denoted_iff] at hread
  rcases hread with hzero | hlisted
  · simp [wholeQuantity] at hzero
  · exact Bool.false_ne_true (hlisted .E rfl).2

end BigfleetDashboard.Pages
