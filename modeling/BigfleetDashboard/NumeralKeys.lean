import Mathlib.Data.List.Basic
import Mathlib.Data.String.Basic

/-!
# Texts built around a numeral

A text that is joined with a decimal numeral by a separator determines both parts,
whatever characters the text has, as long as the separator is not a digit: from
the numeral's side the first separator is the one that was put there.
-/
namespace BigfleetDashboard.NumeralKeys

section Separators
variable {α : Type} {c : α} {as as' bs bs' : List α}

/-- Splitting at the first separator. -/
theorem append_separator_inj_left (ha : c ∉ as) (ha' : c ∉ as')
    (h : as ++ c :: bs = as' ++ c :: bs') : as = as' ∧ bs = bs' := by
  induction as generalizing as' with
  | nil =>
    cases as' with
    | nil => simpa using h
    | cons x as' =>
      have hx : c = x := (List.cons.inj h).1
      exact absurd (hx ▸ List.mem_cons_self) ha'
  | cons x as ih =>
    cases as' with
    | nil =>
      have hx : x = c := (List.cons.inj h).1
      exact absurd (hx ▸ List.mem_cons_self) ha
    | cons y as' =>
      obtain ⟨hxy, htail⟩ := List.cons.inj h
      obtain ⟨has, hbs⟩ := ih (fun hc => ha (List.mem_cons_of_mem _ hc))
        (fun hc => ha' (List.mem_cons_of_mem _ hc)) htail
      exact ⟨by rw [hxy, has], hbs⟩

/-- Splitting at the last separator. -/
theorem append_separator_inj_right (hb : c ∉ bs) (hb' : c ∉ bs')
    (h : as ++ c :: bs = as' ++ c :: bs') : as = as' ∧ bs = bs' := by
  have hreverse : bs.reverse ++ c :: as.reverse = bs'.reverse ++ c :: as'.reverse := by
    simpa using congrArg List.reverse h
  obtain ⟨hbs, has⟩ := append_separator_inj_left (by simpa using hb) (by simpa using hb') hreverse
  exact ⟨List.reverse_injective has, List.reverse_injective hbs⟩

end Separators

theorem toList_numeral (n : ℕ) : (toString n).toList = Nat.toDigits 10 n := Nat.toList_repr

/-- A numeral consists of digits. -/
theorem notMem_numeral {c : Char} (hc : c.isDigit = false) (n : ℕ) : c ∉ (toString n).toList := by
  intro hmem
  rw [toList_numeral] at hmem
  have hdigit := Nat.isDigit_of_mem_toDigits (by decide) (by decide) hmem
  exact Bool.false_ne_true (hc.symm.trans hdigit)

theorem numeral_inj {m n : ℕ} (h : (toString m).toList = (toString n).toList) : m = n := by
  rw [toList_numeral, toList_numeral] at h
  rw [← Nat.ofDigitChars_ten_toDigits (n := m), h, Nat.ofDigitChars_ten_toDigits]

/-- A numeral behind a text. -/
theorem text_numeral_inj {sep : String} {c : Char} (hsep : sep.toList = [c])
    (hc : c.isDigit = false) {s t : String} {m n : ℕ}
    (h : s ++ sep ++ toString m = t ++ sep ++ toString n) : s = t ∧ m = n := by
  have hlist : s.toList ++ c :: (toString m).toList = t.toList ++ c :: (toString n).toList := by
    simpa [String.toList_append, hsep] using congrArg String.toList h
  obtain ⟨htext, hnumeral⟩ :=
    append_separator_inj_right (notMem_numeral hc m) (notMem_numeral hc n) hlist
  exact ⟨String.toList_injective htext, numeral_inj hnumeral⟩

/-- A numeral in front of a text. -/
theorem numeral_text_inj {sep : String} {c : Char} (hsep : sep.toList = [c])
    (hc : c.isDigit = false) {s t : String} {m n : ℕ}
    (h : toString m ++ sep ++ s = toString n ++ sep ++ t) : m = n ∧ s = t := by
  have hlist : (toString m).toList ++ c :: s.toList = (toString n).toList ++ c :: t.toList := by
    simpa [String.toList_append, hsep] using congrArg String.toList h
  obtain ⟨hnumeral, htext⟩ :=
    append_separator_inj_left (notMem_numeral hc m) (notMem_numeral hc n) hlist
  exact ⟨numeral_inj hnumeral, String.toList_injective htext⟩

theorem toString_negSucc_ne (m n : ℕ) (s t : String) :
    toString (Int.ofNat m) ++ s ≠ toString (Int.negSucc n) ++ t := by
  intro h
  have hneg : toString (Int.negSucc n) = "-" ++ toString (n + 1) := rfl
  have hlist := congrArg String.toList h
  rw [hneg, String.append_assoc, String.toList_append, String.toList_append] at hlist
  change (toString m).toList ++ s.toList = '-' :: ("" ++ (toString (n + 1) ++ t)).toList at hlist
  cases hnumeral : (toString m).toList with
  | nil =>
    rw [toList_numeral] at hnumeral
    exact Nat.toDigits_ne_nil hnumeral
  | cons c digits =>
    rw [hnumeral, List.cons_append] at hlist
    refine notMem_numeral (c := '-') (by decide) m ?_
    rw [hnumeral, (List.cons.inj hlist).1]
    exact List.mem_cons_self

/-- An integer in front of a text; its own sign is in front of its digits. -/
theorem integer_text_inj {p q : Int} {s t : String}
    (h : toString p ++ "-" ++ s = toString q ++ "-" ++ t) : p = q ∧ s = t := by
  cases p with
  | ofNat m =>
    cases q with
    | ofNat n =>
      obtain ⟨hmn, hst⟩ := numeral_text_inj (show "-".toList = ['-'] from rfl) (by decide) (m := m) (n := n) h
      exact ⟨congrArg Int.ofNat hmn, hst⟩
    | negSucc n =>
      rw [String.append_assoc, String.append_assoc] at h
      exact absurd h (toString_negSucc_ne m n _ _)
  | negSucc m =>
    cases q with
    | ofNat n =>
      rw [String.append_assoc, String.append_assoc] at h
      exact absurd h.symm (toString_negSucc_ne n m _ _)
    | negSucc n =>
      have hneg : ∀ k : ℕ, toString (Int.negSucc k) = "-" ++ toString (k + 1) := fun _ => rfl
      rw [hneg, hneg, String.append_assoc, String.append_assoc, String.append_assoc,
        String.append_assoc] at h
      have htail : toString (m + 1) ++ "-" ++ s = toString (n + 1) ++ "-" ++ t := by
        rw [String.append_assoc, String.append_assoc]
        exact String.append_right_inj "-" |>.mp h
      obtain ⟨hmn, hst⟩ := numeral_text_inj (show "-".toList = ['-'] from rfl) (by decide) htail
      exact ⟨congrArg Int.negSucc (Nat.succ_injective hmn), hst⟩

/-! ## Joined texts -/

/-- Texts that are joined by a character none of them has can be told apart again. -/
theorem join_inj {sep : String} {c : Char} (hsep : sep.toList = [c]) {xs ys : List String}
    (hxs : ∀ x ∈ xs, c ∉ x.toList) (hys : ∀ y ∈ ys, c ∉ y.toList) (hx : xs ≠ []) (hy : ys ≠ [])
    (h : sep.intercalate xs = sep.intercalate ys) : xs = ys := by
  have hlist := congrArg (fun s : String => s.toList.splitOn c) h
  simp only [String.toList_intercalate, hsep] at hlist
  have hsplit : ∀ zs : List String, (∀ z ∈ zs, c ∉ z.toList) → zs ≠ [] →
      ([c].intercalate (zs.map String.toList)).splitOn c = zs.map String.toList := by
    intro zs hzs hne
    refine List.splitOn_intercalate c ?_ (by simpa using hne)
    intro l hl
    obtain ⟨z, hz, rfl⟩ := List.mem_map.mp hl
    exact hzs z hz
  rw [hsplit xs hxs hx, hsplit ys hys hy] at hlist
  exact List.map_injective_iff.mpr (fun _ _ heq => String.toList_injective heq) hlist

/-- A name and a value around a character that the name does not have. -/
theorem pair_inj {sep : String} {c : Char} (hsep : sep.toList = [c]) {k k' v v' : String}
    (hk : c ∉ k.toList) (hk' : c ∉ k'.toList) (h : k ++ sep ++ v = k' ++ sep ++ v') :
    k = k' ∧ v = v' := by
  have hlist : k.toList ++ c :: v.toList = k'.toList ++ c :: v'.toList := by
    simpa [String.toList_append, hsep] using congrArg String.toList h
  obtain ⟨hname, hvalue⟩ := append_separator_inj_left hk hk' hlist
  exact ⟨String.toList_injective hname, String.toList_injective hvalue⟩

end BigfleetDashboard.NumeralKeys
