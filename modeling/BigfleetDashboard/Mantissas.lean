import BigfleetDashboard.NumberTexts

/-!
# Mantissas

A mantissa is a number with a fixed number of places whose zeros at the end are trimmed by
two replacements. Trimming does not change the number that a label starts with.
-/
namespace BigfleetDashboard.Pages
open Script FixedPlaces

/-! ## Trimming -/

/-- `s.replace(/\.0+$/, "")`. -/
def dropZeroFraction : List Char → List Char
  | [] => []
  | c :: rest =>
    if c = '.' ∧ rest ≠ [] ∧ rest.all (fun c => c = '0') then [] else c :: dropZeroFraction rest

/-- `s.replace(/(\.[0-9]*?)0+$/, "$1")`. -/
def dropFractionZeros : List Char → List Char
  | [] => []
  | c :: rest =>
    if c = '.' ∧ rest.all Char.isDigit ∧ rest.getLast? = some '0' then '.' :: trimZeros rest
    else c :: dropFractionZeros rest

def trimNum (n : ExtRat) (dp : ℕ) : List Char :=
  if ¬ n.IsFinite then ['0'] else dropFractionZeros (dropZeroFraction (toFixed dp n))

theorem dropZeroFraction_append {s : List Char} (hs : '.' ∉ s) (r : List Char) :
    dropZeroFraction (s ++ r) = s ++ dropZeroFraction r := by
  induction s with
  | nil => rfl
  | cons c s ih =>
    rw [List.mem_cons, not_or] at hs
    rw [List.cons_append, dropZeroFraction, if_neg (fun h => hs.1 h.1.symm), ih hs.2]
    rfl

theorem dropFractionZeros_append {s : List Char} (hs : '.' ∉ s) (r : List Char) :
    dropFractionZeros (s ++ r) = s ++ dropFractionZeros r := by
  induction s with
  | nil => rfl
  | cons c s ih =>
    rw [List.mem_cons, not_or] at hs
    rw [List.cons_append, dropFractionZeros, if_neg (fun h => hs.1 h.1.symm), ih hs.2]
    rfl

theorem dropZeroFraction_eq_self {s : List Char} (hs : '.' ∉ s) : dropZeroFraction s = s := by
  have happend := dropZeroFraction_append hs []
  rwa [List.append_nil, dropZeroFraction, List.append_nil] at happend

theorem dropFractionZeros_eq_self {s : List Char} (hs : '.' ∉ s) : dropFractionZeros s = s := by
  have happend := dropFractionZeros_append hs []
  rwa [List.append_nil, dropFractionZeros, List.append_nil] at happend

theorem mem_of_mem_dropZeroFraction {s : List Char} {c : Char} (h : c ∈ dropZeroFraction s) :
    c ∈ s := by
  induction s with
  | nil => exact h
  | cons d s ih =>
    unfold dropZeroFraction at h
    split_ifs at h
    · cases h
    · rcases List.mem_cons.mp h with rfl | h
      · exact List.mem_cons_self
      · exact List.mem_cons_of_mem d (ih h)

theorem mem_of_mem_dropFractionZeros {s : List Char} {c : Char} (h : c ∈ dropFractionZeros s) :
    c ∈ s := by
  induction s with
  | nil => exact h
  | cons d s ih =>
    unfold dropFractionZeros at h
    split_ifs at h with hpoint
    · rw [hpoint.1]
      rcases List.mem_cons.mp h with rfl | h
      · exact List.mem_cons_self
      · exact List.mem_cons_of_mem _ (mem_of_mem_trimZeros h)
    · rcases List.mem_cons.mp h with rfl | h
      · exact List.mem_cons_self
      · exact List.mem_cons_of_mem d (ih h)

theorem notMem_of_isDigit {s : List Char} (hs : ∀ c ∈ s, c.isDigit = true) : '.' ∉ s :=
  fun h => absurd (hs '.' h) (by decide)

/-- Digits without a zero at their end are not trimmed. -/
theorem trimZeros_eq_self {s : List Char} (h : s.getLast? ≠ some '0') : trimZeros s = s := by
  rw [trimZeros, List.rdropWhile_eq_self_iff]
  intro hne hzero
  rw [decide_eq_true_eq] at hzero
  exact h (by rw [List.getLast?_eq_some_getLast hne, hzero])

theorem trimZeros_eq_nil_iff (s : List Char) :
    trimZeros s = [] ↔ s.all (fun c => c = '0') = true := by
  rw [trimZeros, List.rdropWhile_eq_nil_iff, List.all_eq_true]

/-- What both replacements leave of digits with a fraction. -/
theorem trim_pointed {w f : List Char} (hw : ∀ c ∈ w, c.isDigit = true)
    (hf : ∀ c ∈ f, c.isDigit = true) (hne : f ≠ []) :
    dropFractionZeros (dropZeroFraction (w ++ '.' :: f)) =
      w ++ (if trimZeros f = [] then [] else '.' :: trimZeros f) := by
  have hwpoint := notMem_of_isDigit hw
  have hfpoint := notMem_of_isDigit hf
  rw [dropZeroFraction_append hwpoint, dropZeroFraction]
  by_cases hzeros : trimZeros f = []
  · rw [if_pos ⟨rfl, hne, (trimZeros_eq_nil_iff f).mp hzeros⟩, if_pos hzeros, List.append_nil,
      dropFractionZeros_eq_self hwpoint]
  · have hdigits : f.all Char.isDigit = true := List.all_eq_true.mpr hf
    rw [if_neg (fun h => hzeros ((trimZeros_eq_nil_iff f).mpr h.2.2)), if_neg hzeros,
      dropZeroFraction_eq_self hfpoint, dropFractionZeros_append hwpoint, dropFractionZeros]
    by_cases hlast : f.getLast? = some '0'
    · rw [if_pos ⟨rfl, hdigits, hlast⟩]
    · rw [if_neg (fun h => hlast h.2.2), dropFractionZeros_eq_self hfpoint,
        trimZeros_eq_self hlast]

/-- A numeral without the zeros at the end of its fraction. -/
def trimmed (d : Numeral) (h : d.whole ≠ []) : Numeral where
  whole := d.whole
  fraction := if trimZeros d.places = [] then none else some (trimZeros d.places)
  whole_digits := d.whole_digits
  fraction_digits c hc := by
    split_ifs at hc
    · cases hc
    · exact d.fraction_digits c (mem_of_mem_trimZeros hc)
  nonempty := List.append_ne_nil_of_left_ne_nil h _

theorem places_trimmed (d : Numeral) (h : d.whole ≠ []) :
    (trimmed d h).places = trimZeros d.places := by
  unfold Numeral.places trimmed
  dsimp only
  split_ifs with hzeros
  · exact hzeros.symm
  · rfl

theorem value_trimmed (d : Numeral) (h : d.whole ≠ []) : (trimmed d h).value = d.value := by
  have happend := trimZeros_append d.places
  have hvalue := congrArg (fun s => digitsValue (d.whole ++ s)) happend
  have hlength := congrArg List.length happend
  rw [← List.append_assoc, digitsValue_append, digitsValue_replicate, List.length_replicate,
    add_zero] at hvalue
  rw [List.length_append, List.length_replicate] at hlength
  have hwhole : (trimmed d h).whole = d.whole := rfl
  have hpower : (10 : ℚ) ^ d.places.length = 10 ^ (trimZeros d.places).length *
      10 ^ (d.places.length - (trimZeros d.places).length) := by
    rw [← pow_add, hlength]
  rw [Numeral.value, Numeral.value, hwhole, places_trimmed, ← hvalue, hpower]
  push_cast
  rw [mul_div_mul_right _ _ (by positivity)]

/-- What both replacements leave of a numeral. -/
theorem trim_numeral {d : Numeral} (h : d.whole ≠ []) (hfraction : d.fraction ≠ some []) :
    dropFractionZeros (dropZeroFraction d.chars) = (trimmed d h).chars := by
  have hplaces : d.places = d.fraction.getD [] := rfl
  unfold trimmed Numeral.chars Numeral.pointed
  dsimp only
  cases hcases : d.fraction with
  | none =>
    have hpoint := notMem_of_isDigit d.whole_digits
    have hnil : trimZeros [] = [] := rfl
    rw [hcases, Option.getD_none] at hplaces
    rw [hplaces, if_pos hnil, List.append_nil, dropZeroFraction_eq_self hpoint,
      dropFractionZeros_eq_self hpoint]
  | some f =>
    have hdigits := d.fraction_digits
    rw [hcases, Option.getD_some] at hplaces hdigits
    rw [hcases] at hfraction
    have hne : f ≠ [] := fun hnil => hfraction (by rw [hnil])
    dsimp only
    rw [trim_pointed d.whole_digits hdigits hne, hplaces]
    split_ifs
    · rfl
    · rfl

/-- A sign stays in front. -/
theorem trim_signed (negative : Bool) {d : Numeral} (h : d.whole ≠ [])
    (hfraction : d.fraction ≠ some []) :
    dropFractionZeros (dropZeroFraction (signed negative d)) = signed negative (trimmed d h) := by
  cases negative with
  | true =>
    have hminus : '.' ∉ ['-'] := by decide
    simp only [signed, if_true]
    rw [← List.singleton_append, dropZeroFraction_append hminus, dropFractionZeros_append hminus,
      trim_numeral h hfraction]
    rfl
  | false => exact trim_numeral h hfraction

/-! ## The numbers of mantissas -/

theorem whole_fixedNumeral_ne_nil (places n : ℕ) : (fixedNumeral places n).whole ≠ [] := by
  have hlength := le_length_padded (places + 1) n
  refine List.ne_nil_of_length_pos ?_
  simp only [fixedNumeral, List.length_take]
  omega

theorem fraction_fixedNumeral_ne (places n : ℕ) : (fixedNumeral places n).fraction ≠ some [] := by
  have hlength := le_length_padded (places + 1) n
  unfold fixedNumeral
  dsimp only
  split_ifs with hplaces
  · simp
  · intro h
    have hdrop := congrArg List.length (Option.some.inj h)
    rw [List.length_drop, List.length_nil] at hdrop
    omega

/-- Trimming does not change what a mantissa says. -/
theorem parseFloat_trimNum (dp : ℕ) {q : ℚ} (h : |q| < 10 ^ 21) :
    parseFloat (trimNum (.fin q) dp) = .fin (fixedValue dp q) := by
  have hwhole := whole_fixedNumeral_ne_nil dp (steps dp |q|).toNat
  have hfraction := fraction_fixedNumeral_ne dp (steps dp |q|).toNat
  have hfinite : ¬ ¬ (ExtRat.fin q).IsFinite := not_not.mpr (ExtRat.isFinite_fin q)
  have htrim : trimNum (.fin q) dp = signed (q < 0) (trimmed _ hwhole) := by
    rw [trimNum, if_neg hfinite, toFixed_eq_signed dp h, trim_signed _ hwhole hfraction]
  rw [htrim, parseFloat_signed, value_trimmed, value_fixedNumeral_steps, fixedValue]
  simp only [decide_eq_true_eq]

theorem isNumberChar_trimNum (x : ExtRat) (dp : ℕ) : ∀ c ∈ trimNum x dp, isNumberChar c = true := by
  intro c hc
  unfold trimNum at hc
  split_ifs at hc with hfinite
  · obtain ⟨q, rfl⟩ := hfinite
    exact isNumberChar_toFixed dp q c
      (mem_of_mem_dropZeroFraction (mem_of_mem_dropFractionZeros hc))
  · rw [List.mem_singleton.mp hc]
    rfl

/-- Far below zero a trimmed text still starts with its sign and a digit. -/
theorem trimNum_neg {q : ℚ} (h : q ≤ -10 ^ 21) (dp : ℕ) :
    ∃ v, parseFloat (trimNum (.fin q) dp) = .fin v ∧ v ≤ 0 := by
  have habs : 10 ^ 21 ≤ |q| := le_abs.mpr (Or.inr (by linarith))
  have hfinite : ¬ ¬ (ExtRat.fin q).IsFinite := not_not.mpr (ExtRat.isFinite_fin q)
  obtain ⟨c, rest, htext, hc⟩ := exactText_neg (q := q) (by linarith)
  have hfixed : toFixed dp (.fin q) = exactText (.fin q) := if_pos habs
  have hhead : '.' ∉ ['-', c] := by
    simp only [List.mem_cons, List.not_mem_nil, or_false, not_or]
    refine ⟨by decide, ?_⟩
    rintro rfl
    exact absurd hc (by decide)
  have hcons : '-' :: c :: rest = ['-', c] ++ rest := rfl
  rw [trimNum, if_neg hfinite, hfixed, htext, hcons, dropZeroFraction_append hhead,
    dropFractionZeros_append hhead]
  exact parseFloat_minus_digit hc _

/-! ## Labels -/

/-- The number of a label, and the unit behind it. -/
def readAmount (text : String) : ExtRat × String :=
  let s := text.toList
  let (number, unit) := readNumber (if s.head? = some '$' then s.tail else s)
  (number, String.ofList unit)

/-- A unit that neither goes on with the number nor starts a label. -/
def IsUnit (unit : String) : Prop :=
  ∀ c ∈ unit.toList.head?, isNumberChar c = false ∧ c ≠ '$'

theorem isUnit_of_head {unit : String} {c : Char} (h : unit.toList.head? = some c)
    (hc : isNumberChar c = false ∧ c ≠ '$') : IsUnit unit := by
  intro d hd
  rw [h] at hd
  obtain rfl := Option.some.inj hd
  exact hc

theorem isUnit_space (unit : String) : IsUnit (" " ++ unit) := by
  refine isUnit_of_head (c := ' ') ?_ (by decide)
  rw [String.toList_append]
  rfl

section Reading
variable {number : List Char} {unit : String}

theorem readNumber_unit (hnumber : ∀ c ∈ number, isNumberChar c = true) (hunit : IsUnit unit) :
    readNumber (number ++ unit.toList) = (parseFloat number, unit.toList) :=
  readNumber_append hnumber fun c hc => (hunit c hc).1

theorem readAmount_append (hnumber : ∀ c ∈ number, isNumberChar c = true) (hunit : IsUnit unit) :
    readAmount (String.ofList number ++ unit) = (parseFloat number, unit) := by
  have hhead : ¬ (number ++ unit.toList).head? = some '$' := by
    cases number with
    | nil =>
      intro h
      exact (hunit '$' h).2 rfl
    | cons c number =>
      intro h
      obtain rfl := Option.some.inj h
      exact absurd (hnumber '$' List.mem_cons_self) (by decide)
  unfold readAmount
  dsimp only
  rw [String.toList_append, String.toList_ofList, if_neg hhead, readNumber_unit hnumber hunit]
  simp only [String.ofList_toList]

theorem readAmount_dollar (hnumber : ∀ c ∈ number, isNumberChar c = true) (hunit : IsUnit unit) :
    readAmount ("$" ++ String.ofList number ++ unit) = (parseFloat number, unit) := by
  have hlist : ("$" ++ String.ofList number ++ unit).toList = '$' :: (number ++ unit.toList) := by
    simp [String.toList_append]
  unfold readAmount
  dsimp only
  rw [hlist, List.head?_cons, if_pos rfl, List.tail_cons, readNumber_unit hnumber hunit]
  simp only [String.ofList_toList]

/-- The characters of a unit are characters of the label. -/
theorem mem_of_mem_unit {text : String} {c : Char} (h : c ∈ (readAmount text).2.toList) :
    c ∈ text.toList := by
  unfold readAmount readNumber at h
  dsimp only at h
  rw [String.toList_ofList] at h
  have hmem := (List.dropWhile_sublist _).mem h
  split_ifs at hmem
  · exact List.mem_of_mem_tail hmem
  · exact hmem

end Reading

/-- A label without letters has no letter in its unit. -/
theorem unit_ne_of_no_letters {text unit : String} (h : ∀ c ∈ text.toList, c.isAlpha = false)
    {c : Char} (hc : c ∈ unit.toList) (halpha : c.isAlpha = true) : (readAmount text).2 ≠ unit := by
  intro hunit
  have hmem : c ∈ text.toList := mem_of_mem_unit (by rw [hunit]; exact hc)
  rw [h c hmem] at halpha
  cases halpha

end BigfleetDashboard.Pages
