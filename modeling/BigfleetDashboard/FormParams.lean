import BigfleetDashboard.PercentEncoding

/-!
# Parameters of a query

A query is a list of settings. Setting a name replaces its first setting and removes the
others; the settings of other names stay where they are. The list is written as a form: a
blank as a plus sign, and every byte that is not kept as an escape. Reading is lenient, a
percent sign that starts no escape stands for itself, and reads back what was written.
-/
namespace BigfleetDashboard.FormParams
open Percent

abbrev Params := List (String × String)

/-! ## Settings -/

section Settings
variable {k name : String} {v : String} {ps : Params}

def get (ps : Params) (name : String) : Option String :=
  (ps.find? (fun e => e.1 = name)).map Prod.snd

def getAll (ps : Params) (name : String) : List String :=
  (ps.filter (fun e => e.1 = name)).map Prod.snd

def set (name v : String) : Params → Params
  | [] => [(name, v)]
  | e :: ps =>
    if e.1 = name then (name, v) :: ps.filter (fun e => e.1 ≠ name) else e :: set name v ps

def delete (name : String) (ps : Params) : Params := ps.filter (fun e => e.1 ≠ name)

theorem get_eq_head? (ps : Params) (name : String) : get ps name = (getAll ps name).head? := by
  rw [get, getAll, List.head?_map, List.head?_filter]

theorem getAll_eq_nil_of_filter (ps : Params) (name : String) :
    getAll (ps.filter (fun e => e.1 ≠ name)) name = [] := by
  rw [getAll, List.filter_filter, List.map_eq_nil_iff, List.filter_eq_nil_iff]
  intro e _
  simp

@[simp] theorem getAll_set_self (name v : String) (ps : Params) :
    getAll (set name v ps) name = [v] := by
  induction ps with
  | nil => simp [set, getAll]
  | cons e ps ih =>
    rw [set]
    split_ifs with he
    · have hrest := getAll_eq_nil_of_filter ps name
      rw [getAll] at hrest ⊢
      rw [List.filter_cons_of_pos (by simp), List.map_cons, hrest]
    · rw [getAll] at ih ⊢
      rw [List.filter_cons_of_neg (by simpa using he), ih]

@[simp] theorem getAll_delete_self (name : String) (ps : Params) :
    getAll (delete name ps) name = [] := getAll_eq_nil_of_filter ps name

/-- What is asked only of other names does not notice that a name is set. -/
theorem filter_set {p : String × String → Bool} (hp : ∀ w, p (name, w) = false) (v : String)
    (ps : Params) : (set name v ps).filter p = ps.filter p := by
  have hkeep : ∀ qs : Params, (qs.filter (fun e => e.1 ≠ name)).filter p = qs.filter p := by
    intro qs
    rw [List.filter_filter]
    apply List.filter_congr
    rintro ⟨k, w⟩ _
    by_cases hk : k = name
    · rw [hk, hp w]
      rfl
    · simp [hk]
  induction ps with
  | nil => simp [set, hp]
  | cons e ps ih =>
    rw [set]
    split_ifs with he
    · obtain ⟨k, w⟩ := e
      obtain rfl : k = name := he
      rw [List.filter_cons_of_neg (by simp [hp]), List.filter_cons_of_neg (by simp [hp]), hkeep]
    · rw [List.filter_cons, List.filter_cons, ih]

theorem filter_delete {p : String × String → Bool} (hp : ∀ w, p (name, w) = false) (ps : Params) :
    (delete name ps).filter p = ps.filter p := by
  rw [delete, List.filter_filter]
  apply List.filter_congr
  rintro ⟨k, w⟩ _
  by_cases hk : k = name
  · rw [hk, hp w]
    rfl
  · simp [hk]

theorem getAll_congr {ps qs : Params}
    (h : ps.filter (fun e => e.1 = name) = qs.filter (fun e => e.1 = name)) :
    getAll ps name = getAll qs name := by
  rw [getAll, getAll, h]

end Settings

/-! ## Writing -/

/-- The bytes that a form keeps. -/
def formByte (b : UInt8) : Bool :=
  b.toNat < 128 && ((Char.ofNat b.toNat).isAlphanum || "*-._".toList.contains (Char.ofNat b.toNat))

def formEncodeByte (b : UInt8) : List Char := if b = 32 then ['+'] else encodeByte formByte b

def formEncode (s : String) : List Char := (bytesOf s).flatMap formEncodeByte

def settingText (e : String × String) : List Char := formEncode e.1 ++ '=' :: formEncode e.2

def serialize (ps : Params) : List Char := ['&'].intercalate (ps.map settingText)

/-! ## Reading -/

/-- Bytes are decoded with a replacement for what is no text. -/
structure TextDecoder where
  decode : Bytes → String
  decode_bytesOf : ∀ s, decode (bytesOf s) = s

/-- The byte of an escape, whose two digits start the text. -/
def escapedByte : List Char → Option UInt8
  | high :: low :: _ =>
    (hexValue high).bind (fun x => (hexValue low).map (fun y => UInt8.ofNat (16 * x + y)))
  | _ => none

/-- The bytes of a text after the characters that belong to an escape before it. -/
def decodeAfter : ℕ → List Char → Bytes
  | _, [] => []
  | skip + 1, _ :: rest => decodeAfter skip rest
  | 0, c :: rest =>
    if c = '%' then
      match escapedByte rest with
      | some b => b :: decodeAfter 2 rest
      | none => 37 :: decodeAfter 0 rest
    else if c = '+' then 32 :: decodeAfter 0 rest
    else bytesOf (String.singleton c) ++ decodeAfter 0 rest

def lenientDecode (text : List Char) : Bytes := decodeAfter 0 text

def parseSetting (dec : TextDecoder) (text : List Char) : String × String :=
  (dec.decode (lenientDecode (text.takeWhile (fun c => c ≠ '='))),
    dec.decode (lenientDecode ((text.dropWhile (fun c => c ≠ '=')).drop 1)))

/-- Empty pieces between ampersands are skipped. -/
def parse (dec : TextDecoder) (text : List Char) : Params :=
  ((text.splitOn '&').filter (fun piece => !piece.isEmpty)).map (parseSetting dec)

/-! ## Reading what was written -/

section RoundTrip
variable (dec : TextDecoder)

/-- What a form keeps is neither a sign of the form nor an escape. -/
theorem formByte_spec {b : UInt8} (h : formByte b = true) :
    b.toNat < 128 ∧ ∀ c ∈ "%+&=".toList, Char.ofNat b.toNat ≠ c := by
  rw [formByte, Bool.and_eq_true, decide_eq_true_eq] at h
  refine ⟨h.1, ?_⟩
  rintro c hc heq
  have hsigns : "%+&=".toList.all
      (fun c => !(c.isAlphanum || "*-._".toList.contains c)) = true := rfl
  have hsign := List.all_eq_true.mp hsigns c hc
  rw [heq] at h
  rw [h.2] at hsign
  exact Bool.false_ne_true hsign

theorem lenientDecode_formEncodeByte (b : UInt8) (rest : List Char) :
    lenientDecode (formEncodeByte b ++ rest) = b :: lenientDecode rest := by
  have hlt : b.toNat < 256 := UInt8.toNat_lt_size b
  rw [formEncodeByte]
  split_ifs with hblank
  · rw [hblank]
    rfl
  · rw [encodeByte]
    split_ifs with hkept
    · obtain ⟨hascii, hsigns⟩ := formByte_spec hkept
      rw [List.singleton_append, lenientDecode, decodeAfter, if_neg (hsigns '%' (by simp)),
        if_neg (hsigns '+' (by simp)), bytesOf_byte hascii]
      rfl
    · have hvalue : 16 * (b.toNat / 16) + b.toNat % 16 = b.toNat := Nat.div_add_mod _ _
      have hhigh : b.toNat / 16 < 16 := by omega
      have hlow : b.toNat % 16 < 16 := by omega
      have hescape : ∀ text, escapedByte
          (hexDigit (b.toNat / 16) :: hexDigit (b.toNat % 16) :: text) = some b := by
        intro text
        rw [escapedByte, hexValue_hexDigit hhigh, hexValue_hexDigit hlow, Option.bind_some,
          Option.map_some, hvalue, UInt8.ofNat_toNat]
      rw [List.cons_append, List.cons_append, List.cons_append, List.nil_append, lenientDecode,
        decodeAfter, if_pos rfl, hescape]
      rfl

theorem lenientDecode_formEncode (s : String) : lenientDecode (formEncode s) = bytesOf s := by
  have hbytes : ∀ bs : Bytes, lenientDecode (bs.flatMap formEncodeByte) = bs := by
    intro bs
    induction bs with
    | nil => rfl
    | cons b bs ih => rw [List.flatMap_cons, lenientDecode_formEncodeByte, ih]
  exact hbytes (bytesOf s)

theorem hexDigit_ne_sign : ∀ n < 16, hexDigit n ≠ '&' ∧ hexDigit n ≠ '=' := by decide

theorem notMem_formEncode (s : String) : '&' ∉ formEncode s ∧ '=' ∉ formEncode s := by
  have hbyte : ∀ b : UInt8, '&' ∉ formEncodeByte b ∧ '=' ∉ formEncodeByte b := by
    intro b
    have hlt : b.toNat < 256 := UInt8.toNat_lt_size b
    rw [formEncodeByte]
    split_ifs with hblank
    · decide
    · rw [encodeByte]
      split_ifs with hkept
      · have hsigns := (formByte_spec hkept).2
        rw [List.mem_singleton, List.mem_singleton]
        exact ⟨(hsigns '&' (by simp)).symm, (hsigns '=' (by simp)).symm⟩
      · have hhigh := hexDigit_ne_sign (b.toNat / 16) (by omega)
        have hlow := hexDigit_ne_sign (b.toNat % 16) (by omega)
        simp only [List.mem_cons, List.not_mem_nil, or_false, not_or]
        exact ⟨⟨by decide, hhigh.1.symm, hlow.1.symm⟩, ⟨by decide, hhigh.2.symm, hlow.2.symm⟩⟩
  constructor
  · intro h
    obtain ⟨b, -, hb⟩ := List.mem_flatMap.mp h
    exact (hbyte b).1 hb
  · intro h
    obtain ⟨b, -, hb⟩ := List.mem_flatMap.mp h
    exact (hbyte b).2 hb

theorem parseSetting_settingText (e : String × String) : parseSetting dec (settingText e) = e := by
  have hname : ∀ c ∈ formEncode e.1, decide (c ≠ '=') = true := by
    intro c hc
    rw [decide_eq_true_eq]
    rintro rfl
    exact (notMem_formEncode e.1).2 hc
  have htake : (settingText e).takeWhile (fun c => c ≠ '=') = formEncode e.1 := by
    rw [settingText, List.takeWhile_append_of_pos hname, List.takeWhile_cons]
    simp
  have hdrop : (settingText e).dropWhile (fun c => c ≠ '=') = '=' :: formEncode e.2 := by
    rw [settingText, List.dropWhile_append_of_pos hname, List.dropWhile_cons]
    simp
  rw [parseSetting, htake, hdrop, List.drop_one, List.tail_cons, lenientDecode_formEncode,
    lenientDecode_formEncode, dec.decode_bytesOf, dec.decode_bytesOf]

theorem notMem_settingText (e : String × String) : '&' ∉ settingText e := by
  rw [settingText, List.mem_append, List.mem_cons]
  rintro (h | h | h)
  · exact (notMem_formEncode e.1).1 h
  · exact absurd h (by decide)
  · exact (notMem_formEncode e.2).1 h

theorem settingText_ne_nil (e : String × String) : settingText e ≠ [] :=
  List.append_ne_nil_of_right_ne_nil _ (List.cons_ne_nil _ _)

/-- Parameters are read back from their text, in order and with repetitions. -/
theorem parse_serialize (ps : Params) : parse dec (serialize ps) = ps := by
  cases ps with
  | nil => rfl
  | cons e ps =>
    have hsep : ∀ piece ∈ (e :: ps).map settingText, '&' ∉ piece := by
      rintro piece hpiece
      obtain ⟨e', -, rfl⟩ := List.mem_map.mp hpiece
      exact notMem_settingText e'
    have hkeep : ((e :: ps).map settingText).filter (fun piece => !piece.isEmpty) =
        (e :: ps).map settingText := by
      rw [List.filter_eq_self]
      rintro piece hpiece
      obtain ⟨e', -, rfl⟩ := List.mem_map.mp hpiece
      simp [settingText_ne_nil e']
    rw [parse, serialize, List.splitOn_intercalate '&' hsep (by simp), hkeep, List.map_map]
    exact (List.map_congr_left fun e' _ => parseSetting_settingText dec e').trans (List.map_id _)

end RoundTrip

end BigfleetDashboard.FormParams
