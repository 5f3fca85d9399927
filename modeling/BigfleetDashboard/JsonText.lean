import BigfleetDashboard.OrderedMap
import Mathlib.Data.List.Basic
import Mathlib.Data.List.TakeWhile
import Mathlib.Tactic.SplitIfs

/-!
# Texts of documents

A document is written without blanks and on one line, and read by recursive descent with
blanks between its tokens. Which characters of a text are written as escapes beyond those
that have to be is a parameter of the writer; the reader does not need to know it. A text
that was written is read back as the document it was written from.
-/
namespace BigfleetDashboard.JsonText

/-! ## Numerals -/

def afterDigits : List Char → Option (List Char)
  | [] => none
  | c :: rest => if c.isDigit then some (rest.dropWhile Char.isDigit) else none

/-- A whole part has no leading zeros. -/
def afterWhole : List Char → Option (List Char)
  | '0' :: rest => some rest
  | rest => afterDigits rest

def afterFraction : List Char → Option (List Char)
  | '.' :: rest => afterDigits rest
  | rest => some rest

def afterSign : List Char → List Char
  | '+' :: rest => rest
  | '-' :: rest => rest
  | rest => rest

def afterExponent : List Char → Option (List Char)
  | 'e' :: rest => afterDigits (afterSign rest)
  | 'E' :: rest => afterDigits (afterSign rest)
  | rest => some rest

def afterMinus : List Char → List Char
  | '-' :: rest => rest
  | rest => rest

def isNumeral (text : List Char) : Bool :=
  ((afterWhole (afterMinus text)).bind afterFraction).bind afterExponent = some []

/-- A character that a numeral may have. -/
def numeralChar (c : Char) : Bool :=
  c.isDigit || c = '+' || c = '-' || c = '.' || c = 'e' || c = 'E'

/-- The text of a number. -/
structure Numeral where
  text : List Char
  valid : isNumeral text = true
  deriving DecidableEq

/-- What is left of a text after characters of a numeral. -/
def Leaves (text rest : List Char) : Prop := ∃ pre, text = pre ++ rest ∧ pre.all numeralChar = true

theorem Leaves.refl (text : List Char) : Leaves text text := ⟨[], rfl, rfl⟩

theorem Leaves.trans {a b c : List Char} (h : Leaves a b) (h' : Leaves b c) : Leaves a c := by
  obtain ⟨pre, rfl, hpre⟩ := h
  obtain ⟨mid, rfl, hmid⟩ := h'
  exact ⟨pre ++ mid, by rw [List.append_assoc], by rw [List.all_append, hpre, hmid]; rfl⟩

theorem Leaves.cons {c : Char} (hc : numeralChar c = true) (text : List Char) :
    Leaves (c :: text) text :=
  ⟨[c], rfl, by simp [hc]⟩

theorem numeralChar_of_isDigit {c : Char} (h : c.isDigit = true) : numeralChar c = true := by
  simp [numeralChar, h]

theorem leaves_dropWhile (text : List Char) : Leaves text (text.dropWhile Char.isDigit) := by
  refine ⟨text.takeWhile Char.isDigit, List.takeWhile_append_dropWhile.symm, ?_⟩
  rw [List.all_eq_true]
  intro c hc
  exact numeralChar_of_isDigit (List.mem_takeWhile_imp hc)

theorem leaves_afterDigits {text rest : List Char} (h : afterDigits text = some rest) :
    Leaves text rest := by
  cases text with
  | nil => cases h
  | cons c text =>
    rw [afterDigits] at h
    split_ifs at h with hc
    obtain rfl := Option.some.inj h
    exact (Leaves.cons (numeralChar_of_isDigit hc) text).trans (leaves_dropWhile text)

theorem leaves_afterWhole {text rest : List Char} (h : afterWhole text = some rest) :
    Leaves text rest := by
  unfold afterWhole at h
  split at h
  · obtain rfl := Option.some.inj h
    exact Leaves.cons rfl _
  · exact leaves_afterDigits h

theorem leaves_afterFraction {text rest : List Char} (h : afterFraction text = some rest) :
    Leaves text rest := by
  unfold afterFraction at h
  split at h
  · exact (Leaves.cons rfl _).trans (leaves_afterDigits h)
  · obtain rfl := Option.some.inj h
    exact Leaves.refl _

theorem leaves_afterSign (text : List Char) : Leaves text (afterSign text) := by
  unfold afterSign
  split
  · exact Leaves.cons rfl _
  · exact Leaves.cons rfl _
  · exact Leaves.refl _

theorem leaves_afterExponent {text rest : List Char} (h : afterExponent text = some rest) :
    Leaves text rest := by
  unfold afterExponent at h
  split at h
  · exact ((Leaves.cons rfl _).trans (leaves_afterSign _)).trans (leaves_afterDigits h)
  · exact ((Leaves.cons rfl _).trans (leaves_afterSign _)).trans (leaves_afterDigits h)
  · obtain rfl := Option.some.inj h
    exact Leaves.refl _

theorem leaves_afterMinus (text : List Char) : Leaves text (afterMinus text) := by
  unfold afterMinus
  split
  · exact Leaves.cons rfl _
  · exact Leaves.refl _

theorem numeralChar_of_isNumeral {text : List Char} (h : isNumeral text = true) :
    text.all numeralChar = true := by
  rw [isNumeral, decide_eq_true_eq, Option.bind_eq_some_iff] at h
  obtain ⟨fraction, h, hexponent⟩ := h
  obtain ⟨whole, hwhole, hfraction⟩ := Option.bind_eq_some_iff.mp h
  obtain ⟨pre, hpre, hall⟩ :=
    (((leaves_afterMinus text).trans (leaves_afterWhole hwhole)).trans
      (leaves_afterFraction hfraction)).trans (leaves_afterExponent hexponent)
  rw [hpre, List.append_nil]
  exact hall

/-- A numeral starts with a minus sign or a digit. -/
theorem exists_head_of_isNumeral {text : List Char} (h : isNumeral text = true) :
    ∃ c rest, text = c :: rest ∧ (c = '-' ∨ c.isDigit = true) := by
  cases text with
  | nil => exact absurd h (by decide)
  | cons c rest =>
    refine ⟨c, rest, rfl, ?_⟩
    by_contra hc
    obtain ⟨hminus, hdigit⟩ := not_or.mp hc
    have hzero : c ≠ '0' := fun hz => hdigit (by rw [hz]; rfl)
    rw [isNumeral, afterMinus] at h
    · rw [afterWhole, afterDigits, if_neg hdigit] at h
      · exact absurd h (by decide)
      · intro rest' h'
        exact hzero (List.cons.inj h').1
    · intro rest' h'
      exact hminus (List.cons.inj h').1

/-! ## Whole numbers -/

theorem exists_head_toDigits (n : ℕ) :
    ∃ c rest, Nat.toDigits 10 n = c :: rest ∧ (n ≠ 0 → c ≠ '0') := by
  induction n using Nat.strong_induction_on with
  | _ n ih =>
    rcases Nat.lt_or_ge n 10 with hlt | hge
    · refine ⟨n.digitChar, [], Nat.toDigits_of_lt_base hlt, ?_⟩
      have hdigit : ∀ k < 10, k ≠ 0 → k.digitChar ≠ '0' := by decide
      exact hdigit n hlt
    · obtain ⟨c, rest, hdigits, hc⟩ := ih (n / 10) (by omega)
      refine ⟨c, rest ++ [(n % 10).digitChar], ?_, fun _ => hc (by omega)⟩
      rw [Nat.toDigits_of_base_le (by decide) hge, hdigits]
      rfl

theorem afterDigits_toDigits (n : ℕ) : afterDigits (Nat.toDigits 10 n) = some [] := by
  have hall : ∀ c ∈ Nat.toDigits 10 n, c.isDigit = true :=
    fun c hc => Nat.isDigit_of_mem_toDigits (by decide) (by decide) hc
  obtain ⟨c, rest, hdigits, -⟩ := exists_head_toDigits n
  rw [hdigits, List.forall_mem_cons] at hall
  rw [hdigits, afterDigits, if_pos hall.1, List.dropWhile_eq_nil_iff.mpr hall.2]

theorem afterWhole_toDigits (n : ℕ) : afterWhole (Nat.toDigits 10 n) = some [] := by
  rcases Nat.eq_zero_or_pos n with rfl | hpos
  · rfl
  · have hread := afterDigits_toDigits n
    obtain ⟨c, rest, hdigits, hc⟩ := exists_head_toDigits n
    rw [hdigits] at hread ⊢
    unfold afterWhole
    split
    · rename_i heq
      exact absurd (List.cons.inj heq).1 (hc hpos.ne')
    · exact hread

theorem afterMinus_toDigits (n : ℕ) : afterMinus (Nat.toDigits 10 n) = Nat.toDigits 10 n := by
  unfold afterMinus
  split
  · rename_i rest heq
    have hmem : '-' ∈ Nat.toDigits 10 n := by rw [heq]; exact List.mem_cons_self
    exact absurd (Nat.isDigit_of_mem_toDigits (by decide) (by decide) hmem) (by decide)
  · rfl

/-- The text of an integer. -/
def intText (n : Int) : List Char :=
  if n < 0 then '-' :: Nat.toDigits 10 n.natAbs else Nat.toDigits 10 n.natAbs

theorem isNumeral_intText (n : Int) : isNumeral (intText n) = true := by
  have hminus : afterMinus (intText n) = Nat.toDigits 10 n.natAbs := by
    unfold intText
    split_ifs
    · rfl
    · exact afterMinus_toDigits _
  rw [isNumeral, hminus, afterWhole_toDigits]
  rfl

def Numeral.ofInt (n : Int) : Numeral := ⟨intText n, isNumeral_intText n⟩

/-! ## Documents -/

inductive Json
  | null
  | bool (b : Bool)
  | num (n : Numeral)
  | str (s : String)
  | arr (xs : List Json)
  | obj (fields : List (String × Json))

/-- No object of the document repeats a name. -/
inductive Distinct : Json → Prop
  | null : Distinct .null
  | bool (b : Bool) : Distinct (.bool b)
  | num (n : Numeral) : Distinct (.num n)
  | str (s : String) : Distinct (.str s)
  | arr {xs : List Json} (h : ∀ x ∈ xs, Distinct x) : Distinct (.arr xs)
  | obj {fields : List (String × Json)} (hnames : (fields.map Prod.fst).Nodup)
      (h : ∀ e ∈ fields, Distinct e.2) : Distinct (.obj fields)

/-! ## Writing -/

section Writing
variable (escaped : Char → Bool)

/-- The escapes of one character, with what they stand for. -/
def shortEscapes : List (Char × Char) :=
  [('"', '"'), ('\\', '\\'), ('b', Char.ofNat 8), ('f', Char.ofNat 12), ('n', '\n'),
    ('r', '\r'), ('t', '\t')]

/-- A code unit in four hexadecimal digits. -/
def escapeUnit (u : ℕ) : List Char :=
  ['\\', 'u', Nat.digitChar (u / 4096 % 16), Nat.digitChar (u / 256 % 16),
    Nat.digitChar (u / 16 % 16), Nat.digitChar (u % 16)]

def encodeChar (c : Char) : List Char :=
  match shortEscapes.find? (fun e => e.2 = c) with
  | some e => ['\\', e.1]
  | none =>
    if c.toNat < 32 ∨ (escaped c = true ∧ c.toNat < 65536) then escapeUnit c.toNat else [c]

def encodeString (s : String) : List Char := '"' :: (s.toList.flatMap (encodeChar escaped) ++ ['"'])

mutual
def encode : Json → List Char
  | .null => "null".toList
  | .bool true => "true".toList
  | .bool false => "false".toList
  | .num n => n.text
  | .str s => encodeString escaped s
  | .arr xs => '[' :: (encodeElements xs ++ [']'])
  | .obj fields => '{' :: (encodeFields fields ++ ['}'])

def encodeElements : List Json → List Char
  | [] => []
  | [x] => encode x
  | x :: y :: xs => encode x ++ ',' :: encodeElements (y :: xs)

def encodeFields : List (String × Json) → List Char
  | [] => []
  | [(k, v)] => encodeString escaped k ++ ':' :: encode v
  | (k, v) :: e :: fields => encodeString escaped k ++ ':' :: (encode v ++ ',' :: encodeFields (e :: fields))
end

end Writing

/-! ## Reading -/

def blank (c : Char) : Bool := c = ' ' || c = '\t' || c = '\n' || c = '\r'

def skipBlanks (text : List Char) : List Char := text.dropWhile blank

def hexValue (c : Char) : Option ℕ :=
  if c.isDigit then some (c.toNat - 48)
  else if 'a' ≤ c ∧ c ≤ 'f' then some (c.toNat - 87)
  else if 'A' ≤ c ∧ c ≤ 'F' then some (c.toNat - 55)
  else none

def readUnit : List Char → Option (ℕ × List Char)
  | a :: b :: c :: d :: rest => do
    let a ← hexValue a
    let b ← hexValue b
    let c ← hexValue c
    let d ← hexValue d
    some (a * 4096 + b * 256 + c * 16 + d, rest)
  | _ => none

/-- A character beyond the basic plane is escaped as two units; one of the two alone is no
character. -/
def readUnicode (text : List Char) : Option (Char × List Char) := do
  let (high, rest) ← readUnit text
  if high < 55296 ∨ 57343 < high then some (Char.ofNat high, rest)
  else
    match rest with
    | '\\' :: 'u' :: rest => do
      let (low, rest) ← readUnit rest
      if high < 56320 ∧ 56320 ≤ low ∧ low ≤ 57343 then
        some (Char.ofNat (65536 + (high - 55296) * 1024 + (low - 56320)), rest)
      else none
    | _ => none

def readEscape : List Char → Option (Char × List Char)
  | [] => none
  | 'u' :: rest => readUnicode rest
  | '/' :: rest => some ('/', rest)
  | c :: rest => (shortEscapes.find? (fun e => e.1 = c)).map (fun e => (e.2, rest))

/-- The characters up to the closing quote. -/
def parseChars : ℕ → List Char → Option (List Char × List Char)
  | 0, _ => none
  | _ + 1, [] => none
  | fuel + 1, c :: rest =>
    if c = '"' then some ([], rest)
    else do
      let (c, rest) ←
        if c = '\\' then readEscape rest else if c.toNat < 32 then none else some (c, rest)
      let (cs, rest) ← parseChars fuel rest
      some (c :: cs, rest)

def parseString : List Char → Option (String × List Char)
  | '"' :: rest => (parseChars rest.length rest).map (fun r => (String.ofList r.1, r.2))
  | _ => none

def parseWord (word : List Char) (d : Json) (text : List Char) : Option (Json × List Char) :=
  if word <+: text then some (d, text.drop word.length) else none

def parseNumber (text : List Char) : Option (Json × List Char) :=
  if h : isNumeral (text.takeWhile numeralChar) = true then
    some (.num ⟨_, h⟩, text.dropWhile numeralChar)
  else none

mutual
def parseValue : ℕ → List Char → Option (Json × List Char)
  | 0, _ => none
  | fuel + 1, text =>
    match skipBlanks text with
    | '"' :: rest => (parseString ('"' :: rest)).map (fun r => (.str r.1, r.2))
    | '[' :: rest =>
      match skipBlanks rest with
      | ']' :: rest => some (.arr [], rest)
      | rest => (parseElements fuel rest).map (fun r => (.arr r.1, r.2))
    | '{' :: rest =>
      match skipBlanks rest with
      | '}' :: rest => some (.obj [], rest)
      | rest => (parseFields fuel rest).map (fun r => (.obj r.1, r.2))
    | 'n' :: rest => parseWord "null".toList .null ('n' :: rest)
    | 't' :: rest => parseWord "true".toList (.bool true) ('t' :: rest)
    | 'f' :: rest => parseWord "false".toList (.bool false) ('f' :: rest)
    | rest => parseNumber rest

/-- One element or more, and the closing bracket. -/
def parseElements : ℕ → List Char → Option (List Json × List Char)
  | 0, _ => none
  | fuel + 1, text => do
    let (x, rest) ← parseValue fuel text
    match skipBlanks rest with
    | ',' :: rest => (parseElements fuel rest).map (fun r => (x :: r.1, r.2))
    | ']' :: rest => some ([x], rest)
    | _ => none

/-- One field or more, and the closing brace. -/
def parseFields : ℕ → List Char → Option (List (String × Json) × List Char)
  | 0, _ => none
  | fuel + 1, text => do
    let (k, rest) ← parseString (skipBlanks text)
    match skipBlanks rest with
    | ':' :: rest => do
      let (v, rest) ← parseValue fuel rest
      match skipBlanks rest with
      | ',' :: rest => (parseFields fuel rest).map (fun r => ((k, v) :: r.1, r.2))
      | '}' :: rest => some ([(k, v)], rest)
      | _ => none
    | _ => none
end

/-- A text is one document, with blanks around it. -/
def parse (text : List Char) : Option Json := do
  let (d, rest) ← parseValue (text.length + 1) text
  if skipBlanks rest = [] then some d else none

/-! ## Texts that were written -/

section RoundTrip
variable {escaped : Char → Bool}

theorem hexValue_digitChar : ∀ n < 16, hexValue (Nat.digitChar n) = some n := by decide

theorem readUnit_digits {u : ℕ} (hu : u < 65536) (rest : List Char) :
    readUnit ((escapeUnit u).drop 2 ++ rest) = some (u, rest) := by
  have hsum : u / 4096 % 16 * 4096 + u / 256 % 16 * 256 + u / 16 % 16 * 16 + u % 16 = u := by omega
  show readUnit (_ :: _ :: _ :: _ :: rest) = _
  simp only [readUnit, hexValue_digitChar _ (Nat.mod_lt _ (by decide : 0 < 16))]
  exact congrArg (fun n => some (n, rest)) hsum

theorem toNat_apart (c : Char) : c.toNat < 55296 ∨ 57343 < c.toNat := by
  rcases c.valid with h | h
  · exact .inl h
  · exact .inr h.1

theorem readUnicode_digits {c : Char} (hc : c.toNat < 65536) (rest : List Char) :
    readUnicode ((escapeUnit c.toNat).drop 2 ++ rest) = some (c, rest) := by
  rw [readUnicode, readUnit_digits hc]
  show (if c.toNat < 55296 ∨ 57343 < c.toNat then _ else _) = _
  rw [if_pos (toNat_apart c), Char.ofNat_toNat]

theorem readEscape_short {e : Char × Char} (he : e ∈ shortEscapes) (rest : List Char) :
    readEscape (e.1 :: rest) = some (e.2, rest) := by
  simp only [shortEscapes, List.mem_cons, List.not_mem_nil, or_false] at he
  rcases he with rfl | rfl | rfl | rfl | rfl | rfl | rfl <;> rfl

theorem parseChars_escape {text : List Char} {c : Char} {rest : List Char}
    (h : readEscape text = some (c, rest)) (fuel : ℕ) :
    parseChars (fuel + 1) ('\\' :: text) =
      (parseChars fuel rest).map (fun r => (c :: r.1, r.2)) := by
  rw [parseChars, if_neg (by decide), if_pos rfl, h]
  show (parseChars fuel rest).bind _ = _
  rw [Option.map_eq_bind]
  rfl

/-- Reading takes one character off what was written for it. -/
theorem parseChars_encodeChar (c : Char) (fuel : ℕ) (rest : List Char) :
    parseChars (fuel + 1) (encodeChar escaped c ++ rest) =
      (parseChars fuel rest).map (fun r => (c :: r.1, r.2)) := by
  unfold encodeChar
  cases hfind : shortEscapes.find? (fun e => e.2 = c) with
  | some e =>
    obtain rfl : e.2 = c := by simpa using List.find?_some hfind
    exact parseChars_escape (readEscape_short (List.mem_of_find?_eq_some hfind) rest) fuel
  | none =>
    have hshort : ∀ e ∈ shortEscapes, ¬ e.2 = c := by
      intro e he
      simpa using List.find?_eq_none.mp hfind e he
    have hquote : c ≠ '"' := fun h => hshort ('"', '"') (by decide) h.symm
    have hbackslash : c ≠ '\\' := fun h => hshort ('\\', '\\') (by decide) h.symm
    dsimp only
    split_ifs with hunit
    · have hlt : c.toNat < 65536 := by omega
      have hread : readEscape ((escapeUnit c.toNat).tail ++ rest) = some (c, rest) :=
        readUnicode_digits hlt rest
      exact parseChars_escape hread fuel
    · have hplain : ¬ c.toNat < 32 := by omega
      show parseChars (fuel + 1) (c :: rest) = _
      rw [parseChars, if_neg hquote, if_neg hbackslash, if_neg hplain, Option.map_eq_bind]
      rfl

theorem encodeChar_ne_nil (c : Char) : encodeChar escaped c ≠ [] := by
  unfold encodeChar
  split
  · exact List.cons_ne_nil _ _
  · split_ifs
    · exact List.cons_ne_nil _ _
    · exact List.cons_ne_nil _ _

theorem parseChars_encode (cs rest : List Char) {fuel : ℕ} (hfuel : cs.length < fuel) :
    parseChars fuel (cs.flatMap (encodeChar escaped) ++ '"' :: rest) = some (cs, rest) := by
  induction cs generalizing fuel with
  | nil =>
    obtain ⟨fuel, rfl⟩ : ∃ k, fuel = k + 1 := ⟨fuel - 1, by omega⟩
    rw [List.flatMap_nil, List.nil_append, parseChars, if_pos rfl]
  | cons c cs ih =>
    obtain ⟨fuel, rfl⟩ : ∃ k, fuel = k + 1 := ⟨fuel - 1, by omega⟩
    rw [List.flatMap_cons, List.append_assoc, parseChars_encodeChar,
      ih (by rw [List.length_cons] at hfuel; omega)]
    rfl

theorem length_le_flatMap (cs : List Char) : cs.length ≤ (cs.flatMap (encodeChar escaped)).length := by
  induction cs with
  | nil => exact Nat.le_refl 0
  | cons c cs ih =>
    have hpos := List.length_pos_of_ne_nil (@encodeChar_ne_nil escaped c)
    rw [List.flatMap_cons, List.length_append, List.length_cons]
    omega

theorem parseString_encode (s : String) (rest : List Char) :
    parseString (encodeString escaped s ++ rest) = some (s, rest) := by
  have hlen := @length_le_flatMap escaped s.toList
  rw [encodeString, List.cons_append, List.append_assoc, parseString, List.singleton_append,
    parseChars_encode s.toList rest (by rw [List.length_append, List.length_cons]; omega)]
  show some (String.ofList s.toList, rest) = _
  rw [String.ofList_toList]

/-- A numeral that is followed by this text ends where the text starts. -/
def Ends (rest : List Char) : Prop := ∀ c ∈ rest.head?, numeralChar c = false

theorem ends_cons {c : Char} (h : numeralChar c = false) (rest : List Char) : Ends (c :: rest) := by
  intro d hd
  obtain rfl : c = d := Option.some.inj hd
  exact h

theorem takeWhile_ends {rest : List Char} (h : Ends rest) : rest.takeWhile numeralChar = [] := by
  cases rest with
  | nil => rfl
  | cons c rest => rw [List.takeWhile_cons, h c rfl]; rfl

theorem dropWhile_ends {rest : List Char} (h : Ends rest) : rest.dropWhile numeralChar = rest := by
  cases rest with
  | nil => rfl
  | cons c rest => rw [List.dropWhile_cons, h c rfl]; rfl

theorem parseNumber_text (n : Numeral) {rest : List Char} (h : Ends rest) :
    parseNumber (n.text ++ rest) = some (.num n, rest) := by
  have hall : ∀ c ∈ n.text, numeralChar c = true :=
    List.all_eq_true.mp (numeralChar_of_isNumeral n.valid)
  have htake : (n.text ++ rest).takeWhile numeralChar = n.text := by
    rw [List.takeWhile_append_of_pos hall, takeWhile_ends h, List.append_nil]
  have hdrop : (n.text ++ rest).dropWhile numeralChar = rest := by
    rw [List.dropWhile_append_of_pos hall, dropWhile_ends h]
  unfold parseNumber
  rw [dif_pos (by rw [htake]; exact n.valid), hdrop]
  congr 3
  exact Numeral.mk.injEq .. |>.mpr htake

/-- A character that a value starts with. -/
def startChar (c : Char) : Bool := c.isDigit || "-\"[\x7bntf".toList.contains c

theorem exists_head_encode (d : Json) :
    ∃ c rest, encode escaped d = c :: rest ∧ startChar c = true := by
  cases d with
  | null => exact ⟨_, _, rfl, rfl⟩
  | bool b => cases b <;> exact ⟨_, _, rfl, rfl⟩
  | num n =>
    obtain ⟨c, rest, htext, hc⟩ := exists_head_of_isNumeral n.valid
    refine ⟨c, rest, by rw [encode, htext], ?_⟩
    rcases hc with rfl | hc
    · rfl
    · simp [startChar, hc]
  | str s => exact ⟨_, _, rfl, rfl⟩
  | arr xs => exact ⟨_, _, rfl, rfl⟩
  | obj fields => exact ⟨_, _, rfl, rfl⟩

theorem exists_head_encodeElements (x : Json) (xs : List Json) :
    ∃ c rest, encodeElements escaped (x :: xs) = c :: rest ∧ startChar c = true := by
  obtain ⟨c, rest, hx, hc⟩ := @exists_head_encode escaped x
  cases xs with
  | nil => exact ⟨c, rest, by rw [encodeElements, hx], hc⟩
  | cons y xs => exact ⟨c, _, by rw [encodeElements, hx, List.cons_append], hc⟩

theorem exists_tail_encodeFields (e : String × Json) (fields : List (String × Json)) :
    ∃ rest, encodeFields escaped (e :: fields) = '"' :: rest := by
  cases fields with
  | nil => exact ⟨_, rfl⟩
  | cons e' fields => exact ⟨_, rfl⟩

theorem blank_of_startChar {c : Char} (h : startChar c = true) : blank c = false := by
  by_contra hb
  simp only [blank, Bool.not_eq_false, Bool.or_eq_true, decide_eq_true_eq] at hb
  rcases hb with ((rfl | rfl) | rfl) | rfl <;> exact absurd h (by decide)

theorem skipBlanks_cons {c : Char} (h : blank c = false) (rest : List Char) :
    skipBlanks (c :: rest) = c :: rest := by
  rw [skipBlanks, List.dropWhile_cons, h]
  rfl

theorem skipBlanks_encodeString (s : String) (rest : List Char) :
    skipBlanks (encodeString escaped s ++ rest) = encodeString escaped s ++ rest :=
  skipBlanks_cons rfl _

theorem parseValue_string (fuel : ℕ) (s : String) (rest : List Char) :
    parseValue (fuel + 1) (encodeString escaped s ++ rest) = some (.str s, rest) := by
  have hread := @parseString_encode escaped s rest
  rw [encodeString, List.cons_append] at hread ⊢
  rw [parseValue, skipBlanks_cons rfl]
  show (parseString _).map _ = _
  rw [hread]
  rfl

theorem parseValue_number (fuel : ℕ) (n : Numeral) {rest : List Char} (h : Ends rest) :
    parseValue (fuel + 1) (n.text ++ rest) = some (.num n, rest) := by
  have hread := parseNumber_text n h
  obtain ⟨c, text, htext, hc⟩ := exists_head_of_isNumeral n.valid
  have hstart : startChar c = true := by
    rcases hc with rfl | hc
    · rfl
    · simp [startChar, hc]
  rw [htext, List.cons_append] at hread ⊢
  rw [parseValue, skipBlanks_cons (blank_of_startChar hstart)]
  split
  case h_7 => exact hread
  all_goals
    rename_i heq
    obtain rfl := (List.cons.inj heq).1
    exact absurd hc (by decide)

theorem parseValue_elements (fuel : ℕ) {c : Char} (hc : startChar c = true) (text : List Char) :
    parseValue (fuel + 1) ('[' :: c :: text) =
      (parseElements fuel (c :: text)).map (fun r => (.arr r.1, r.2)) := by
  rw [parseValue, skipBlanks_cons rfl]
  show (match skipBlanks (c :: text) with
    | ']' :: rest => some (Json.arr [], rest)
    | rest => (parseElements fuel rest).map (Prod.map Json.arr id)) = _
  rw [skipBlanks_cons (blank_of_startChar hc)]
  split
  · rename_i heq
    obtain rfl := (List.cons.inj heq).1
    exact absurd hc (by decide)
  · rfl

theorem parseValue_fields (fuel : ℕ) (text : List Char) :
    parseValue (fuel + 1) ('\x7b' :: '"' :: text) =
      (parseFields fuel ('"' :: text)).map (fun r => (.obj r.1, r.2)) := by
  rw [parseValue, skipBlanks_cons rfl]
  show (match skipBlanks ('"' :: text) with
    | '}' :: rest => some (Json.obj [], rest)
    | rest => (parseFields fuel rest).map (Prod.map Json.obj id)) = _
  rw [skipBlanks_cons rfl]
  rfl

mutual
/-- A value is read off the text that was written for it. -/
theorem parseValue_encode (d : Json) {fuel : ℕ} (hfuel : (encode escaped d).length < fuel)
    {rest : List Char} (hends : Ends rest) :
    parseValue fuel (encode escaped d ++ rest) = some (d, rest) := by
  obtain ⟨fuel, rfl⟩ : ∃ k, fuel = k + 1 := ⟨fuel - 1, by omega⟩
  cases d with
  | null => rfl
  | bool b => cases b <;> rfl
  | num n => exact parseValue_number fuel n hends
  | str s => exact parseValue_string fuel s rest
  | arr xs =>
    cases xs with
    | nil => rfl
    | cons x xs =>
      rw [encode, List.length_cons, List.length_append, List.length_singleton] at hfuel
      have hlen : (encodeElements escaped (x :: xs)).length + 1 < fuel := by omega
      have hread := parseElements_encode x xs hlen rest
      obtain ⟨c, text, htext, hc⟩ := @exists_head_encodeElements escaped x xs
      rw [htext] at hread
      rw [encode, htext, List.cons_append, List.append_assoc, List.cons_append,
        parseValue_elements fuel hc, ← List.cons_append, List.singleton_append, hread]
      rfl
  | obj fields =>
    cases fields with
    | nil => rfl
    | cons e fields =>
      rw [encode, List.length_cons, List.length_append, List.length_singleton] at hfuel
      have hlen : (encodeFields escaped (e :: fields)).length + 1 < fuel := by omega
      have hread := parseFields_encode e fields hlen rest
      obtain ⟨text, htext⟩ := @exists_tail_encodeFields escaped e fields
      rw [htext] at hread
      rw [encode, htext, List.cons_append, List.append_assoc, List.cons_append,
        parseValue_fields fuel, ← List.cons_append, List.singleton_append, hread]
      rfl
termination_by fuel

theorem parseElements_encode (x : Json) (xs : List Json) {fuel : ℕ}
    (hfuel : (encodeElements escaped (x :: xs)).length + 1 < fuel) (rest : List Char) :
    parseElements fuel (encodeElements escaped (x :: xs) ++ ']' :: rest) =
      some (x :: xs, rest) := by
  obtain ⟨fuel, rfl⟩ : ∃ k, fuel = k + 1 := ⟨fuel - 1, by omega⟩
  cases xs with
  | nil =>
    rw [encodeElements] at hfuel ⊢
    rw [parseElements, parseValue_encode x (by omega) (ends_cons rfl rest)]
    rfl
  | cons y xs =>
    rw [encodeElements, List.length_append, List.length_cons] at hfuel
    rw [encodeElements, parseElements, List.append_assoc, List.cons_append,
      parseValue_encode x (by omega) (ends_cons rfl _)]
    show (parseElements fuel _).map _ = _
    rw [parseElements_encode y xs (by omega) rest]
    rfl
termination_by fuel

theorem parseFields_encode (e : String × Json) (fields : List (String × Json)) {fuel : ℕ}
    (hfuel : (encodeFields escaped (e :: fields)).length + 1 < fuel) (rest : List Char) :
    parseFields fuel (encodeFields escaped (e :: fields) ++ '\x7d' :: rest) =
      some (e :: fields, rest) := by
  obtain ⟨fuel, rfl⟩ : ∃ k, fuel = k + 1 := ⟨fuel - 1, by omega⟩
  obtain ⟨k, v⟩ := e
  cases fields with
  | nil =>
    rw [encodeFields, List.length_append, List.length_cons] at hfuel
    rw [encodeFields, parseFields, List.append_assoc, List.cons_append]
    rw [skipBlanks_encodeString, parseString_encode]
    show (parseValue fuel _).bind _ = _
    rw [parseValue_encode v (by omega) (ends_cons rfl rest)]
    rfl
  | cons e' fields =>
    rw [encodeFields, List.length_append, List.length_cons, List.length_append,
      List.length_cons] at hfuel
    rw [encodeFields, parseFields, List.append_assoc, List.cons_append, List.append_assoc,
      List.cons_append]
    rw [skipBlanks_encodeString, parseString_encode]
    show (parseValue fuel _).bind _ = _
    rw [parseValue_encode v (by omega) (ends_cons rfl _)]
    show (parseFields fuel _).map _ = _
    rw [parseFields_encode e' fields (by omega) rest]
    rfl
termination_by fuel
end

/-- A document is read back from its text, with a line end after it or without. -/
theorem parse_encode (d : Json) {rest : List Char} (hrest : rest.all blank = true) :
    parse (encode escaped d ++ rest) = some d := by
  have hends : Ends rest := by
    intro c hc
    have hblank := List.all_eq_true.mp hrest c (List.mem_of_mem_head? hc)
    simp only [blank, Bool.or_eq_true, decide_eq_true_eq] at hblank
    rcases hblank with ((rfl | rfl) | rfl) | rfl <;> rfl
  have hskip : skipBlanks rest = [] := List.dropWhile_eq_nil_iff.mpr (List.all_eq_true.mp hrest)
  rw [parse, parseValue_encode d (by rw [List.length_append]; omega) hends]
  show (if skipBlanks rest = [] then some d else none) = some d
  rw [if_pos hskip]

end RoundTrip

/-! ## What a text never has -/

section Written
variable {escaped : Char → Bool}

/-- A character of the basic plane that the writer leaves as it is. -/
def Written (escaped : Char → Bool) (c : Char) : Prop :=
  ¬ (c.toNat < 32 ∨ (escaped c = true ∧ c.toNat < 65536))

/-- The characters that a document has beside those of its texts. -/
def frameChar (c : Char) : Bool := c.isAlphanum || "\"\\,:[]\x7b\x7d+-.".toList.contains c

theorem frameChar_digitChar : ∀ n < 16, frameChar (Nat.digitChar n) = true := by decide

theorem frameChar_of_numeralChar {c : Char} (h : numeralChar c = true) : frameChar c = true := by
  simp only [numeralChar, Bool.or_eq_true, decide_eq_true_eq] at h
  rcases h with ((((h | rfl) | rfl) | rfl) | rfl) | rfl
  · simp [frameChar, Char.isAlphanum, h]
  all_goals rfl

theorem frameChar_words :
    ["null", "true", "false"].all (fun w => w.toList.all frameChar) = true := by rfl

theorem frameChar_word {w : String} (hw : w ∈ ["null", "true", "false"]) :
    ∀ c ∈ w.toList, frameChar c = true :=
  List.all_eq_true.mp (List.all_eq_true.mp frameChar_words w hw)

/-- The characters of a document itself are written as they are. -/
def Frame (escaped : Char → Bool) : Prop := ∀ c, frameChar c = true → Written escaped c

theorem written_encodeChar (hf : Frame escaped) (c : Char) :
    ∀ d ∈ encodeChar escaped c, Written escaped d := by
  intro d hd
  unfold encodeChar at hd
  cases hfind : shortEscapes.find? (fun e => e.2 = c) with
  | some e =>
    have hshort : ∀ e ∈ shortEscapes, frameChar e.1 = true := by decide
    rw [hfind] at hd
    rcases List.mem_cons.mp hd with rfl | hd
    · exact hf _ rfl
    · obtain rfl := List.mem_singleton.mp hd
      exact hf _ (hshort e (List.mem_of_find?_eq_some hfind))
  | none =>
    rw [hfind] at hd
    dsimp only at hd
    split_ifs at hd with hunit
    · simp only [escapeUnit, List.mem_cons, List.not_mem_nil, or_false] at hd
      have hdigit := fun n => hf _ (frameChar_digitChar (n % 16) (Nat.mod_lt n (by decide)))
      rcases hd with rfl | rfl | rfl | rfl | rfl | rfl
      · exact hf _ rfl
      · exact hf _ rfl
      all_goals exact hdigit _
    · obtain rfl := List.mem_singleton.mp hd
      exact hunit

theorem written_encodeString (hf : Frame escaped) (s : String) :
    ∀ d ∈ encodeString escaped s, Written escaped d := by
  intro d hd
  rw [encodeString, List.mem_cons, List.mem_append, List.mem_flatMap, List.mem_singleton] at hd
  rcases hd with rfl | ⟨c, -, hd⟩ | rfl
  · exact hf _ rfl
  · exact written_encodeChar hf c d hd
  · exact hf _ rfl

mutual
theorem written_encode (hf : Frame escaped) (d : Json) :
    ∀ c ∈ encode escaped d, Written escaped c := by
  intro c hc
  match d with
  | .null => exact hf c (frameChar_word (w := "null") (by simp) c hc)
  | .bool true => exact hf c (frameChar_word (w := "true") (by simp) c hc)
  | .bool false => exact hf c (frameChar_word (w := "false") (by simp) c hc)
  | .num n =>
    exact hf c (frameChar_of_numeralChar
      (List.all_eq_true.mp (numeralChar_of_isNumeral n.valid) c hc))
  | .str s => exact written_encodeString hf s c hc
  | .arr xs =>
    rw [encode, List.mem_cons, List.mem_append, List.mem_singleton] at hc
    rcases hc with rfl | hc | rfl
    · exact hf _ rfl
    · exact written_encodeElements hf xs c hc
    · exact hf _ rfl
  | .obj fields =>
    rw [encode, List.mem_cons, List.mem_append, List.mem_singleton] at hc
    rcases hc with rfl | hc | rfl
    · exact hf _ rfl
    · exact written_encodeFields hf fields c hc
    · exact hf _ rfl

theorem written_encodeElements (hf : Frame escaped) (xs : List Json) :
    ∀ c ∈ encodeElements escaped xs, Written escaped c := by
  intro c hc
  match xs with
  | [] => cases hc
  | [x] => exact written_encode hf x c hc
  | x :: y :: xs =>
    rw [encodeElements, List.mem_append, List.mem_cons] at hc
    rcases hc with hc | rfl | hc
    · exact written_encode hf x c hc
    · exact hf _ rfl
    · exact written_encodeElements hf (y :: xs) c hc

theorem written_encodeFields (hf : Frame escaped) (fields : List (String × Json)) :
    ∀ c ∈ encodeFields escaped fields, Written escaped c := by
  intro c hc
  match fields with
  | [] => cases hc
  | [(k, v)] =>
    rw [encodeFields, List.mem_append, List.mem_cons] at hc
    rcases hc with hc | rfl | hc
    · exact written_encodeString hf k c hc
    · exact hf _ rfl
    · exact written_encode hf v c hc
  | (k, v) :: e :: fields =>
    rw [encodeFields, List.mem_append, List.mem_cons, List.mem_append, List.mem_cons] at hc
    rcases hc with hc | rfl | hc | rfl | hc
    · exact written_encodeString hf k c hc
    · exact hf _ rfl
    · exact written_encode hf v c hc
    · exact hf _ rfl
    · exact written_encodeFields hf (e :: fields) c hc
end

end Written

/-! ## Records -/

section Records
variable {α : Type} {fields : List (String × Option Json)} {name : String}

/-- An object with the fields that are not left out. -/
def record (fields : List (String × Option Json)) : Json :=
  .obj (fields.filterMap (fun e => e.2.map (Prod.mk e.1)))

def ofList (f : α → Json) (xs : List α) : Json := .arr (xs.map f)

/-- An object with one field for each entry. -/
def ofEntries (f : α → Json) (entries : List (String × α)) : Json :=
  .obj (entries.map (fun e => (e.1, f e.2)))

/-- A repeated name stands for its last value. -/
def Json.field (name : String) : Json → Option Json
  | .obj fields => (fields.reverse.find? (fun e => e.1 = name)).map Prod.snd
  | _ => none

theorem names_record_sublist (fields : List (String × Option Json)) :
    ((fields.filterMap (fun e => e.2.map (Prod.mk e.1))).map Prod.fst).Sublist
      (fields.map Prod.fst) := by
  induction fields with
  | nil => exact List.Sublist.slnil
  | cons e fields ih =>
    obtain ⟨k, v⟩ := e
    cases v with
    | none => exact ih.cons k
    | some v => exact ih.cons_cons k

theorem mem_record {v : Json} :
    (name, v) ∈ fields.filterMap (fun e => e.2.map (Prod.mk e.1)) ↔ (name, some v) ∈ fields := by
  rw [List.mem_filterMap]
  constructor
  · rintro ⟨⟨k, w⟩, he, h⟩
    obtain ⟨v', rfl, h⟩ := Option.map_eq_some_iff.mp h
    obtain ⟨rfl, rfl⟩ := Prod.mk.inj h
    exact he
  · intro h
    exact ⟨(name, some v), h, rfl⟩

theorem field_obj_eq_some_iff {fields : List (String × Json)}
    (hnames : (fields.map Prod.fst).Nodup) {v : Json} :
    (Json.obj fields).field name = some v ↔ (name, v) ∈ fields := by
  have hreverse : (fields.reverse.map Prod.fst).Nodup := by
    rw [List.map_reverse]
    exact List.nodup_reverse.mpr hnames
  have hget := (⟨fields.reverse, hreverse⟩ : OrderedMap String Json).get?_eq_some_iff name v
  exact hget.trans List.mem_reverse

/-- A field of a record is what was put under its name, or missing if nothing was. -/
theorem field_record (hnames : (fields.map Prod.fst).Nodup) {v : Option Json}
    (h : (name, v) ∈ fields) : (record fields).field name = v := by
  have hiff : ∀ w, (record fields).field name = some w ↔ (name, some w) ∈ fields := fun w =>
    (field_obj_eq_some_iff (hnames.sublist (names_record_sublist fields))).trans mem_record
  have hunique : ∀ w, (name, w) ∈ fields → w = v := by
    intro w hw
    exact (Prod.mk.inj (List.inj_on_of_nodup_map hnames hw h rfl)).2
  apply Option.ext
  intro w
  rw [hiff w]
  constructor
  · exact fun hw => (hunique _ hw).symm
  · intro hv
    rw [← hv]
    exact h

theorem distinct_record (hnames : (fields.map Prod.fst).Nodup)
    (h : ∀ e ∈ fields, ∀ v ∈ e.2, Distinct v) : Distinct (record fields) := by
  refine .obj (hnames.sublist (names_record_sublist fields)) ?_
  rintro ⟨name, v⟩ he
  exact h _ (mem_record.mp he) v rfl

theorem distinct_ofList {f : α → Json} {xs : List α} (h : ∀ x ∈ xs, Distinct (f x)) :
    Distinct (ofList f xs) := by
  refine .arr ?_
  intro d hd
  obtain ⟨x, hx, rfl⟩ := List.mem_map.mp hd
  exact h x hx

theorem distinct_ofEntries {f : α → Json} {entries : List (String × α)}
    (hnames : (entries.map Prod.fst).Nodup) (h : ∀ e ∈ entries, Distinct (f e.2)) :
    Distinct (ofEntries f entries) := by
  refine .obj (by rwa [List.map_map]) ?_
  intro d hd
  obtain ⟨e, he, rfl⟩ := List.mem_map.mp hd
  exact h e he

end Records

end BigfleetDashboard.JsonText
