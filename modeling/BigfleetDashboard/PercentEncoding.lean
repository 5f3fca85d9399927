import Mathlib.Data.List.Basic
import Mathlib.Tactic.IntervalCases

/-!
# Percent-encoding

A text is written as its bytes, with a percent sign and two hexadecimal digits in place of
every byte that is not kept. Reading such a text back yields the bytes again, whatever is
read of the characters that are kept, as long as those that stand for a kept byte stand for
themselves.
-/
namespace BigfleetDashboard.Percent

abbrev Bytes := List UInt8

/-- The bytes of a text in UTF-8. -/
def bytesOf (s : String) : Bytes := s.toByteArray.data.toList

/-- The text that has these bytes, if they are UTF-8. -/
def textOf (bs : Bytes) : Option String := String.fromUTF8? ⟨bs.toArray⟩

@[simp] theorem textOf_bytesOf (s : String) : textOf (bytesOf s) = some s := by
  have hbytes : (⟨(bytesOf s).toArray⟩ : ByteArray) = s.toByteArray := rfl
  rw [textOf, hbytes, String.fromUTF8?, dif_pos s.isValidUTF8]
  rfl

@[simp] theorem bytesOf_append (s t : String) : bytesOf (s ++ t) = bytesOf s ++ bytesOf t := by
  simp [bytesOf]

theorem bytesOf_ofList_cons (c : Char) (cs : List Char) :
    bytesOf (String.ofList (c :: cs)) =
      bytesOf (String.singleton c) ++ bytesOf (String.ofList cs) := by
  rw [← bytesOf_append]
  congr 1
  rw [← String.toList_inj, String.toList_append]
  simp

/-- A character of one byte. -/
theorem bytesOf_singleton {c : Char} (h : c.toNat < 128) :
    bytesOf (String.singleton c) = [UInt8.ofNat c.toNat] := by
  have hle : c.toNat ≤ 127 := by omega
  have hlt : ¬ 127 < c.toNat := by omega
  simp [bytesOf, String.toByteArray_singleton, List.utf8Encode, String.utf8EncodeChar, hlt]

theorem toNat_ofNat_byte {b : UInt8} (h : b.toNat < 128) :
    (Char.ofNat b.toNat).toNat = b.toNat := by
  have hvalid : b.toNat.isValidChar := Or.inl (by omega)
  unfold Char.ofNat
  rw [dif_pos hvalid]
  rfl

/-- The character of a byte below 128 has that byte. -/
theorem bytesOf_byte {b : UInt8} (h : b.toNat < 128) :
    bytesOf (String.singleton (Char.ofNat b.toNat)) = [b] := by
  have hnat := toNat_ofNat_byte h
  rw [bytesOf_singleton (by rw [hnat]; exact h), hnat, UInt8.ofNat_toNat]

def hexDigit (n : ℕ) : Char := Char.ofNat (if n < 10 then 48 + n else 55 + n)

def hexValue (c : Char) : Option ℕ :=
  if '0' ≤ c ∧ c ≤ '9' then some (c.toNat - 48)
  else if 'A' ≤ c ∧ c ≤ 'F' then some (c.toNat - 55)
  else if 'a' ≤ c ∧ c ≤ 'f' then some (c.toNat - 87)
  else none

theorem hexValue_hexDigit {n : ℕ} (h : n < 16) : hexValue (hexDigit n) = some n := by
  interval_cases n <;> decide

/-! ## Writing -/

section
variable (kept : UInt8 → Bool)

def encodeByte (b : UInt8) : List Char :=
  if kept b then [Char.ofNat b.toNat]
  else ['%', hexDigit (b.toNat / 16), hexDigit (b.toNat % 16)]

def encode (bs : Bytes) : List Char := bs.flatMap (encodeByte kept)

/-- A character of an encoded text stands for a kept byte or belongs to an escape. -/
theorem mem_encode {bs : Bytes} {c : Char} (h : c ∈ encode kept bs) :
    (∃ b, kept b = true ∧ c = Char.ofNat b.toNat) ∨ c = '%' ∨ ∃ n < 16, c = hexDigit n := by
  rw [encode, List.mem_flatMap] at h
  obtain ⟨b, -, hc⟩ := h
  rw [encodeByte] at hc
  split_ifs at hc with hb
  · rw [List.mem_singleton] at hc
    exact Or.inl ⟨b, hb, hc⟩
  · have hlt : b.toNat < 256 := UInt8.toNat_lt_size b
    simp only [List.mem_cons, List.not_mem_nil, or_false] at hc
    obtain rfl | rfl | rfl := hc
    · exact Or.inr (Or.inl rfl)
    · exact Or.inr (Or.inr ⟨b.toNat / 16, by omega, rfl⟩)
    · exact Or.inr (Or.inr ⟨b.toNat % 16, by omega, rfl⟩)

end

/-! ## Reading -/

section
variable (literal : Char → Bytes)

/-- A percent sign without two hexadecimal digits after it is an error. -/
def decode : List Char → Option Bytes
  | [] => some []
  | c :: rest =>
    if c = '%' then
      match rest with
      | high :: low :: rest' =>
        (hexValue high).bind (fun x => (hexValue low).bind (fun y =>
          (decode rest').map (fun bs => UInt8.ofNat (16 * x + y) :: bs)))
      | _ => none
    else (decode rest).map (fun bs => literal c ++ bs)

theorem decode_cons_of_ne {c : Char} (h : c ≠ '%') (rest : List Char) :
    decode literal (c :: rest) = (decode literal rest).map (fun bs => literal c ++ bs) := by
  rw [decode.eq_def]
  exact if_neg h

/-- What follows a text without a percent sign is read on its own. -/
theorem decode_plain_append {pre : List Char} (h : '%' ∉ pre) (rest : List Char) :
    decode literal (pre ++ rest) = (decode literal rest).map (fun bs => pre.flatMap literal ++ bs) := by
  induction pre with
  | nil => cases hrest : decode literal rest <;> simp [hrest]
  | cons c pre ih =>
    rw [List.mem_cons, not_or] at h
    rw [List.cons_append, decode_cons_of_ne literal (Ne.symm h.1), ih h.2, Option.map_map]
    congr 1
    funext bs
    simp

theorem decode_escape {x y : ℕ} (hx : x < 16) (hy : y < 16) (rest : List Char) :
    decode literal ('%' :: hexDigit x :: hexDigit y :: rest) =
      (decode literal rest).map (fun bs => UInt8.ofNat (16 * x + y) :: bs) := by
  rw [decode, if_pos rfl]
  simp only [hexValue_hexDigit hx, hexValue_hexDigit hy, Option.bind_some]

/-- A reader takes the characters of kept bytes for these bytes. -/
def Reads (kept : UInt8 → Bool) : Prop :=
  ∀ b, kept b = true → Char.ofNat b.toNat ≠ '%' ∧ literal (Char.ofNat b.toNat) = [b]

variable {literal} {kept : UInt8 → Bool}

theorem decode_encodeByte (h : Reads literal kept) (b : UInt8) (rest : List Char) :
    decode literal (encodeByte kept b ++ rest) = (decode literal rest).map (fun bs => b :: bs) := by
  rw [encodeByte]
  split_ifs with hb
  · obtain ⟨hne, hlit⟩ := h b hb
    rw [List.cons_append, List.nil_append, decode_cons_of_ne literal hne, hlit]
    rfl
  · have hlt : b.toNat < 256 := UInt8.toNat_lt_size b
    have hvalue : 16 * (b.toNat / 16) + b.toNat % 16 = b.toNat := Nat.div_add_mod _ _
    simp only [List.cons_append, List.nil_append]
    rw [decode_escape literal (by omega) (by omega), hvalue, UInt8.ofNat_toNat]

/-- What follows an encoded text is read on its own. -/
theorem decode_encode_append (h : Reads literal kept) (bs : Bytes) (rest : List Char) :
    decode literal (encode kept bs ++ rest) = (decode literal rest).map (fun cs => bs ++ cs) := by
  induction bs with
  | nil => cases hrest : decode literal rest <;> simp [encode, hrest]
  | cons b bs ih =>
    have hsplit : encode kept (b :: bs) = encodeByte kept b ++ encode kept bs := rfl
    rw [hsplit, List.append_assoc, decode_encodeByte h, ih, Option.map_map]
    rfl

/-- A text is read back as its bytes. -/
theorem decode_encode (h : Reads literal kept) (bs : Bytes) :
    decode literal (encode kept bs) = some bs := by
  have happend := decode_encode_append h bs []
  rw [List.append_nil, decode] at happend
  rw [happend]
  simp

end

end BigfleetDashboard.Percent
