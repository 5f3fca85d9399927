import BigfleetDashboard.BacktrackingRegex
import BigfleetDashboard.Mantissas

/-!
# The replacements that trim zeros

The zeros at the end of a fraction are trimmed by two regular expressions, of which the
second repeats lazily. Both start at the point, and of the ways they backtrack through
at most one reaches the end of the text.
-/
namespace BigfleetDashboard.Pages
open Script FixedPlaces BacktrackingRegex

/-! ## The expressions -/

/-- `/\.0+$/`. -/
def zeroFraction : Regex Char := .cat (.cls (· = '.')) (.cat (.plus true (· = '0')) .endText)

/-- `/(\.[0-9]*?)0+$/`. -/
def fractionZeros : Regex Char :=
  .cat (.group (.cat (.cls (· = '.')) (.star false Char.isDigit)))
    (.cat (.plus true (· = '0')) .endText)

/-- `s.replace(/\.0+$/, "").replace(/(\.[0-9]*?)0+$/, "$1")`. -/
def replaceZeros (s : List Char) : List Char :=
  fractionZeros.replace (fun groups => groups.headD []) (zeroFraction.replace (fun _ => []) s)

theorem matchHere_zeroFraction (c : Char) (s : List Char) :
    zeroFraction.matchHere (c :: s) =
      if c = '.' ∧ s ≠ [] ∧ s.all (fun c => c = '0') then some ([], []) else none := by
  have hzeros := run_plus_endText true (fun c : Char => c = '0') s []
    (fun rest gs => some (gs, rest))
  unfold Regex.matchHere zeroFraction
  rw [Regex.run, Regex.run, hzeros]
  by_cases hc : c = '.'
  · simp [hc]
  · simp [hc]

theorem replace_zeroFraction (s : List Char) :
    zeroFraction.replace (fun _ => []) s = dropZeroFraction s := by
  induction s with
  | nil => rfl
  | cons c s ih =>
    rw [Regex.replace, matchHere_zeroFraction, dropZeroFraction, ih]
    split_ifs
    · rfl
    · rfl

theorem trimZeros_cons {c : Char} {s : List Char} (h : ¬ ∀ d ∈ c :: s, d = '0') :
    trimZeros (c :: s) = c :: trimZeros s := by
  unfold trimZeros List.rdropWhile
  rw [List.reverse_cons, List.dropWhile_append]
  split_ifs with hzeros
  · rw [List.isEmpty_iff, List.dropWhile_eq_nil_iff] at hzeros
    have hs : ∀ d ∈ s, d = '0' := by
      intro d hd
      simpa using hzeros d (List.mem_reverse.mpr hd)
    have hc : c ≠ '0' := fun hc => h (List.forall_mem_cons.mpr ⟨hc, hs⟩)
    have hnil : s.reverse.dropWhile (fun c => decide (c = '0')) = [] :=
      List.dropWhile_eq_nil_iff.mpr hzeros
    rw [List.dropWhile_cons_of_neg (by simpa using hc), hnil]
    rfl
  · rw [List.reverse_append]
    rfl

theorem trimZeros_of_zeros {s : List Char} (h : ∀ c ∈ s, c = '0') : trimZeros s = [] := by
  rw [trimZeros_eq_nil_iff, List.all_eq_true]
  simpa using h

/-- Of the ways of the lazy repetition the first in front of zeros leaves all of them. -/
theorem findSome?_zeros {β : Type} (f : List Char → β) (s : List Char) :
    (ways Char.isDigit s).findSome?
        (fun rest => if rest ≠ [] ∧ rest.all (fun c => c = '0') then some (f rest) else none) =
      if s.all Char.isDigit ∧ s.getLast? = some '0' then some (f (s.drop (trimZeros s).length))
      else none := by
  induction s with
  | nil => rfl
  | cons c s ih =>
    by_cases hall : (c :: s).all (fun c => c = '0') = true
    · have hzeros : ∀ d ∈ c :: s, d = '0' := by
        simpa only [List.all_eq_true, decide_eq_true_eq] using hall
      have hdigits : (c :: s).all Char.isDigit = true := by
        rw [List.all_eq_true]
        intro d hd
        rw [hzeros d hd]
        rfl
      have hlast : (c :: s).getLast? = some '0' := by
        rw [List.getLast?_eq_some_getLast (List.cons_ne_nil c s)]
        exact congrArg some (hzeros _ (List.getLast_mem _))
      have hc : c.isDigit = true := List.all_eq_true.mp hdigits c List.mem_cons_self
      rw [ways, if_pos hc, List.findSome?_cons, if_pos ⟨List.cons_ne_nil c s, hall⟩,
        if_pos ⟨hdigits, hlast⟩, trimZeros_of_zeros hzeros]
      rfl
    · have hzeros : ¬ ∀ d ∈ c :: s, d = '0' := by
        simpa only [List.all_eq_true, decide_eq_true_eq] using hall
      have hfirst : ¬ (c :: s ≠ [] ∧ (c :: s).all (fun c => c = '0') = true) := fun h => hall h.2
      rw [ways, trimZeros_cons hzeros, List.length_cons, List.drop_succ_cons, List.all_cons]
      by_cases hc : c.isDigit = true
      · rw [if_pos hc, List.findSome?_cons, if_neg hfirst, hc, Bool.true_and]
        refine ih.trans (if_congr (and_congr_right fun _ => ?_) rfl rfl)
        cases s with
        | nil =>
          have hne : c ≠ '0' := fun h => hzeros (by simpa using h)
          simpa using hne
        | cons d s => rw [List.getLast?_cons_cons]
      · rw [if_neg hc, List.findSome?_cons, if_neg hfirst, List.findSome?_nil]
        simp [hc]

theorem matchHere_fractionZeros (c : Char) (s : List Char) :
    fractionZeros.matchHere (c :: s) =
      if c = '.' ∧ s.all Char.isDigit ∧ s.getLast? = some '0' then some (['.' :: trimZeros s], [])
      else none := by
  have htaken : (c :: s).take ((c :: s).length - (s.drop (trimZeros s).length).length) =
      c :: trimZeros s := by
    have hle := length_trimZeros_le s
    have hcount : (c :: s).length - (s.drop (trimZeros s).length).length =
        (trimZeros s).length + 1 := by
      rw [List.length_cons, List.length_drop]
      omega
    rw [hcount, List.take_succ_cons]
    exact congrArg (c :: ·) (List.prefix_iff_eq_take.mp (List.rdropWhile_prefix _ s)).symm
  unfold Regex.matchHere fractionZeros
  rw [Regex.run, Regex.run, Regex.run, Regex.run]
  simp only [run_plus_endText, decide_eq_true_eq]
  by_cases hc : c = '.'
  · subst hc
    rw [if_pos rfl, Regex.run, if_neg Bool.false_ne_true, findSome?_zeros, htaken]
    simp
  · simp [hc]

theorem replace_fractionZeros (s : List Char) :
    fractionZeros.replace (fun groups => groups.headD []) s = dropFractionZeros s := by
  induction s with
  | nil => rfl
  | cons c s ih =>
    rw [Regex.replace, matchHere_fractionZeros, dropFractionZeros, ih]
    split_ifs
    · simp
    · rfl

theorem replaceZeros_eq (s : List Char) :
    replaceZeros s = dropFractionZeros (dropZeroFraction s) := by
  rw [replaceZeros, replace_zeroFraction, replace_fractionZeros]

/-- `trimNum` prints a number with its places and replaces. -/
theorem trimNum_eq {n : ExtRat} (h : n.IsFinite) (dp : ℕ) :
    trimNum n dp = replaceZeros (toFixed dp n) := by
  rw [trimNum, if_neg (not_not.mpr h), replaceZeros_eq]

/-! ## Texts with a fixed number of places -/

/-- What `toFixed(dp)` prints of a number below `1e21`. -/
structure FixedText (dp : ℕ) where
  negative : Bool
  numeral : Numeral
  whole_ne : numeral.whole ≠ []
  fraction_length : numeral.fraction.map List.length = if dp = 0 then none else some dp

def FixedText.chars {dp : ℕ} (t : FixedText dp) : List Char := signed t.negative t.numeral

theorem FixedText.fraction_ne {dp : ℕ} (t : FixedText dp) : t.numeral.fraction ≠ some [] := by
  intro h
  have hlength := t.fraction_length
  rw [h] at hlength
  split_ifs at hlength with hdp
  · cases hlength
  · exact hdp (Option.some.inj hlength).symm

theorem toFixed_eq_chars (dp : ℕ) {q : ℚ} (h : |q| < 10 ^ 21) :
    ∃ t : FixedText dp, toFixed dp (.fin q) = t.chars := by
  have hlength : (fixedNumeral dp (steps dp |q|).toNat).fraction.map List.length =
      if dp = 0 then none else some dp := by
    have hpadded := le_length_padded (dp + 1) (steps dp |q|).toNat
    unfold fixedNumeral
    dsimp only
    split_ifs with hdp
    · rfl
    · rw [Option.map_some, List.length_drop]
      congr 1
      omega
  exact ⟨⟨decide (q < 0), _, whole_fixedNumeral_ne_nil dp _, hlength⟩, toFixed_eq_signed dp h⟩

/-- The text is a numeral with a sign or without, and denotes `q`. -/
def Denotes (s : List Char) (q : ℚ) : Prop :=
  ∃ negative d, s = signed negative d ∧ q = if negative then -d.value else d.value

theorem denotes_signed_iff (negative : Bool) (d : Numeral) (q : ℚ) :
    Denotes (signed negative d) q ↔ q = if negative then -d.value else d.value := by
  constructor
  · intro h
    obtain ⟨negative', d', hs, rfl⟩ := h
    have hread := parseFloat_signed negative d
    rw [hs, parseFloat_signed] at hread
    exact ExtRat.fin.inj hread
  · intro h
    exact ⟨negative, d, rfl, h⟩

/-- What is left of a text by trimming. -/
structure IsTrimmed (s trimmed : List Char) : Prop where
  denotes : ∀ q, Denotes trimmed q ↔ Denotes s q
  whole : trimmed.takeWhile (fun c => c ≠ '.') = s.takeWhile (fun c => c ≠ '.')
  no_point : trimmed.getLast? ≠ some '.'
  no_zero : '.' ∈ trimmed → trimmed.getLast? ≠ some '0'

/-- The part of a numeral in front of the point. -/
theorem takeWhile_signed (negative : Bool) (d : Numeral) :
    (signed negative d).takeWhile (fun c => c ≠ '.') =
      if negative then '-' :: d.whole else d.whole := by
  have hwhole : d.chars.takeWhile (fun c => c ≠ '.') = d.whole := by
    have hdigits : ∀ c ∈ d.whole, decide (c ≠ '.') = true := by
      intro c hc
      have hpoint := notMem_of_isDigit d.whole_digits
      exact decide_eq_true fun h => hpoint (by rw [← h]; exact hc)
    have hend : ∀ c ∈ d.pointed.head?, decide (c ≠ '.') = false := by
      intro c hc
      unfold Numeral.pointed at hc
      cases hfraction : d.fraction with
      | none => simp [hfraction] at hc
      | some f =>
        obtain rfl : '.' = c := by simpa [hfraction] using hc
        rfl
    exact (span_append hdigits hend).1
  cases negative with
  | true =>
    simp only [signed, if_true]
    rw [List.takeWhile_cons_of_pos (by decide), hwhole]
  | false => exact hwhole

/-! ## The end of a trimmed text -/

theorem mem_signed {negative : Bool} {d : Numeral} {c : Char} (h : c ∈ signed negative d) :
    c = '-' ∨ c ∈ d.chars := by
  cases negative with
  | true => exact List.mem_cons.mp h
  | false => exact Or.inr h

theorem getLast?_signed (negative : Bool) {d : Numeral} (h : d.chars ≠ []) :
    (signed negative d).getLast? = d.chars.getLast? := by
  cases negative with
  | true =>
    obtain ⟨c, rest, hchars⟩ := List.exists_cons_of_ne_nil h
    simp only [signed, if_true]
    rw [hchars, List.getLast?_cons_cons]
  | false => rfl

/-- A numeral without a fraction ends in a digit and has no point. -/
theorem last_of_fraction_none {d : Numeral} (h : d.fraction = none) :
    '.' ∉ d.chars ∧ d.chars.getLast? ≠ some '.' := by
  have hchars : d.chars = d.whole := by
    simp only [Numeral.chars, Numeral.pointed, h, List.append_nil]
  have hpoint := notMem_of_isDigit d.whole_digits
  rw [hchars]
  exact ⟨hpoint, fun hlast => hpoint (List.mem_of_getLast? hlast)⟩

theorem last_of_fraction_some {d : Numeral} {f : List Char} (h : d.fraction = some f)
    (hne : f ≠ []) : d.chars.getLast? = f.getLast? := by
  obtain ⟨c, rest, rfl⟩ := List.exists_cons_of_ne_nil hne
  simp only [Numeral.chars, Numeral.pointed, h]
  rw [List.getLast?_append_of_ne_nil _ (List.cons_ne_nil _ _), List.getLast?_cons_cons]

theorem getLast?_trimZeros_ne (s : List Char) : (trimZeros s).getLast? ≠ some '0' := by
  intro h
  have hne : trimZeros s ≠ [] := by
    intro hnil
    rw [hnil] at h
    cases h
  rw [List.getLast?_eq_some_getLast hne] at h
  have hlast := List.rdropWhile_last_not (fun c : Char => decide (c = '0')) s hne
  exact hlast (decide_eq_true (Option.some.inj h))

theorem fraction_trimmed (d : Numeral) (h : d.whole ≠ []) :
    (trimmed d h).fraction = none ∨
      ∃ f, (trimmed d h).fraction = some f ∧ f ≠ [] ∧ f.getLast? ≠ some '0' := by
  unfold trimmed
  dsimp only
  split_ifs with hzeros
  · exact Or.inl rfl
  · exact Or.inr ⟨_, rfl, hzeros, getLast?_trimZeros_ne d.places⟩

theorem trimmed_trimmed (d : Numeral) (h : d.whole ≠ []) :
    (trimmed (trimmed d h) h).chars = (trimmed d h).chars := by
  have hagain : trimZeros (trimZeros d.places) = trimZeros d.places :=
    trimZeros_eq_self (getLast?_trimZeros_ne d.places)
  have hplaces := places_trimmed d h
  unfold Numeral.chars Numeral.pointed trimmed
  unfold trimmed at hplaces
  dsimp only at hplaces ⊢
  rw [hplaces, hagain]

section Trimming
variable {dp : ℕ} (t : FixedText dp)

theorem replaceZeros_chars :
    replaceZeros t.chars = signed t.negative (trimmed t.numeral t.whole_ne) := by
  rw [replaceZeros_eq, FixedText.chars, trim_signed _ t.whole_ne t.fraction_ne]

theorem isTrimmed_chars : IsTrimmed t.chars (replaceZeros t.chars) := by
  rw [replaceZeros_chars]
  have hne : (trimmed t.numeral t.whole_ne).chars ≠ [] :=
    List.append_ne_nil_of_left_ne_nil t.whole_ne _
  constructor
  case denotes =>
    intro q
    rw [FixedText.chars, denotes_signed_iff, denotes_signed_iff, value_trimmed]
  case whole =>
    rw [FixedText.chars, takeWhile_signed, takeWhile_signed]
    rfl
  case no_point =>
    rw [getLast?_signed _ hne]
    rcases fraction_trimmed t.numeral t.whole_ne with hnone | ⟨f, hsome, hf, -⟩
    · exact (last_of_fraction_none hnone).2
    · rw [last_of_fraction_some hsome hf]
      intro hlast
      have hdigits := (trimmed t.numeral t.whole_ne).fraction_digits
      rw [hsome] at hdigits
      exact notMem_of_isDigit hdigits (List.mem_of_getLast? hlast)
  case no_zero =>
    intro hpoint
    rw [getLast?_signed _ hne]
    rcases fraction_trimmed t.numeral t.whole_ne with hnone | ⟨f, hsome, hf, hzero⟩
    · rcases mem_signed hpoint with hsign | hmem
      · exact absurd hsign (by decide)
      · exact absurd hmem (last_of_fraction_none hnone).1
    · rw [last_of_fraction_some hsome hf]
      exact hzero

/-- The replacements trim a text, and have nothing to do on what they leave. -/
theorem replaceZeros_trims :
    IsTrimmed t.chars (replaceZeros t.chars) ∧
      replaceZeros (replaceZeros t.chars) = replaceZeros t.chars := by
  refine ⟨isTrimmed_chars t, ?_⟩
  have hfraction : (trimmed t.numeral t.whole_ne).fraction ≠ some [] := by
    intro hempty
    rcases fraction_trimmed t.numeral t.whole_ne with hnone | ⟨f, hsome, hf, -⟩
    · rw [hnone] at hempty
      cases hempty
    · rw [hsome] at hempty
      exact hf (Option.some.inj hempty)
  have hwhole : (trimmed t.numeral t.whole_ne).whole ≠ [] := t.whole_ne
  rw [replaceZeros_chars, replaceZeros_eq, trim_signed _ hwhole hfraction]
  unfold signed
  rw [trimmed_trimmed t.numeral t.whole_ne]

end Trimming

example : replaceZeros "-100.0500".toList = "-100.05".toList := by decide

end BigfleetDashboard.Pages
