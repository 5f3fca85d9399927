import BigfleetDashboard.NeedsWalk

/-!
# The items of a walk

What the page draws for a walk, read back from the items alone: the rows are the
needs of the walk, no key occurs twice, and every header is followed by the rows it
announces.
-/
namespace BigfleetDashboard.Pages
open NumeralKeys Script

/-- At least two needs of one shape. -/
structure Cohort where
  fingerprint : String
  needs : List NeedView
  contended : 2 ≤ needs.length
  shared : ∀ n ∈ needs, Pages.fingerprint n = fingerprint

/-- Cohorts of different shapes, and the needs of no cohort. -/
structure Walk where
  cohorts : List Cohort
  tail : List NeedView
  distinct : (cohorts.map Cohort.fingerprint).Nodup
  apart : ∀ n ∈ tail, fingerprint n ∉ cohorts.map Cohort.fingerprint

def Cohort.items (c : Cohort) : List WalkItem := cohortItems c.fingerprint c.needs

def Walk.items (w : Walk) : List WalkItem := w.cohorts.flatMap Cohort.items ++ tailItems w.tail

def Walk.needs (w : Walk) : List NeedView := w.cohorts.flatMap Cohort.needs ++ w.tail

/-! ## Rows -/

@[simp] theorem needsOf_append (xs ys : List WalkItem) :
    needsOf (xs ++ ys) = needsOf xs ++ needsOf ys :=
  List.filterMap_append

theorem needsOf_flatMap {α : Type} (f : α → List WalkItem) (xs : List α) :
    needsOf (xs.flatMap f) = xs.flatMap (fun x => needsOf (f x)) := by
  induction xs with
  | nil => rfl
  | cons x xs ih => rw [List.flatMap_cons, needsOf_append, ih, List.flatMap_cons]

theorem needsOf_cohortRow (fp : String) (g : List NeedView) (row : NeedView × ℕ) :
    needsOf (cohortRow fp g row) = [row.1] := by
  unfold cohortRow
  split_ifs with h
  · rfl
  · rfl

/-- The cut-line is no row. -/
theorem needsOf_cohortRows (fp : String) (g : List NeedView) : needsOf (cohortRows fp g) = g := by
  rw [cohortRows, needsOf_flatMap]
  simp only [needsOf_cohortRow]
  rw [← List.map_eq_flatMap]
  simp

theorem needsOf_cohortItems (fp : String) (g : List NeedView) : needsOf (cohortItems fp g) = g :=
  needsOf_cohortRows fp g

theorem needsOf_tailItems (flat : List NeedView) : needsOf (tailItems flat) = flat := by
  have hrow : (WalkItem.need? ∘ fun x : NeedView × ℕ => WalkItem.row (tailKey x.2 x.1) x.1) =
      some ∘ Prod.fst := rfl
  rw [needsOf, tailItems, List.mapIdx_eq_zipIdx_map, List.filterMap_map, hrow,
    List.filterMap_eq_map, List.zipIdx_map_fst]

/-- The keys of a cohort's items. -/
def IsCohortKey (fp k : String) : Prop := k = headerKey fp ∨ k = cutlineKey fp ∨ ∃ i, k = rowKey fp i

/-- The first letter tells the kinds of items apart. -/
def letter (k : String) : Option Char := k.toList.head?

@[simp] theorem letter_headerKey (fp : String) : letter (headerKey fp) = some 'h' := by
  simp [letter, headerKey]

@[simp] theorem letter_rowKey (fp : String) (i : ℕ) : letter (rowKey fp i) = some 'r' := by
  simp [letter, rowKey]

@[simp] theorem letter_cutlineKey (fp : String) : letter (cutlineKey fp) = some 'c' := by
  simp [letter, cutlineKey]

@[simp] theorem letter_tailKey (i : ℕ) (n : NeedView) : letter (tailKey i n) = some 'f' := by
  simp [letter, tailKey]

theorem headerKey_inj {fp fp' : String} (h : headerKey fp = headerKey fp') : fp = fp' := by
  simpa [headerKey] using h

theorem cutlineKey_inj {fp fp' : String} (h : cutlineKey fp = cutlineKey fp') : fp = fp' := by
  simpa [cutlineKey] using h

theorem colon : ":".toList = [':'] := rfl

theorem rowKey_inj {fp fp' : String} {i j : ℕ} (h : rowKey fp i = rowKey fp' j) :
    fp = fp' ∧ i = j := by
  unfold rowKey at h
  obtain ⟨htext, hij⟩ := text_numeral_inj colon (by decide) h
  exact ⟨(String.append_right_inj "r:").mp htext, hij⟩

theorem tailKey_inj {i j : ℕ} {m n : NeedView} (h : tailKey i m = tailKey j n) : i = j := by
  have hsplit : toString i ++ ":" ++ (m.clusterId ++ (":" ++ numberText m.priority)) =
      toString j ++ ":" ++ (n.clusterId ++ (":" ++ numberText n.priority)) := by
    simpa only [tailKey, String.append_assoc, String.append_right_inj] using h
  exact (numeral_text_inj colon (by decide) hsplit).1

/-- A key tells which cohort it belongs to. -/
theorem IsCohortKey.unique {fp fp' k : String} (h : IsCohortKey fp k) (h' : IsCohortKey fp' k) :
    fp = fp' := by
  rcases h with rfl | rfl | ⟨i, rfl⟩
  · rcases h' with h' | h' | ⟨j, h'⟩
    · exact headerKey_inj h'
    · simpa using congrArg letter h'
    · simpa using congrArg letter h'
  · rcases h' with h' | h' | ⟨j, h'⟩
    · simpa using congrArg letter h'
    · exact cutlineKey_inj h'
    · simpa using congrArg letter h'
  · rcases h' with h' | h' | ⟨j, h'⟩
    · simpa using congrArg letter h'
    · simpa using congrArg letter h'
    · exact (rowKey_inj h').1

theorem IsCohortKey.letter_ne {fp k : String} (h : IsCohortKey fp k) : letter k ≠ some 'f' := by
  rcases h with rfl | rfl | ⟨i, rfl⟩
  · simp
  · simp
  · simp

/-- The keys of one row, and of the cut-line below it. -/
theorem map_key_cohortRow (fp : String) (g : List NeedView) (row : NeedView × ℕ) :
    (cohortRow fp g row).map WalkItem.key =
      rowKey fp row.2 :: (if cutIndex g = some row.2 then [cutlineKey fp] else []) := by
  unfold cohortRow
  split_ifs with h
  · rfl
  · rfl

theorem mem_key_cohortRow {fp : String} {g : List NeedView} {row : NeedView × ℕ} {k : String}
    (h : k ∈ (cohortRow fp g row).map WalkItem.key) :
    k = rowKey fp row.2 ∨ (k = cutlineKey fp ∧ cutIndex g = some row.2) := by
  rw [map_key_cohortRow] at h
  split_ifs at h with hcut
  · simpa [hcut] using h
  · simpa [hcut] using h

theorem isCohortKey_of_mem {fp : String} {g : List NeedView} {k : String}
    (h : k ∈ (cohortItems fp g).map WalkItem.key) : IsCohortKey fp k := by
  rw [cohortItems, List.map_cons, List.mem_cons, cohortRows, List.map_flatMap, List.mem_flatMap] at h
  rcases h with rfl | ⟨row, -, hrow⟩
  · exact Or.inl rfl
  · rcases mem_key_cohortRow hrow with rfl | ⟨rfl, -⟩
    · exact Or.inr (Or.inr ⟨row.2, rfl⟩)
    · exact Or.inr (Or.inl rfl)

/-- The rows have different positions, and only one of them is above the cut-line. -/
theorem nodup_keys_cohortRows (fp : String) (g : List NeedView) :
    ((cohortRows fp g).map WalkItem.key).Nodup := by
  rw [cohortRows, List.map_flatMap, List.nodup_flatMap]
  constructor
  · intro row _
    rw [map_key_cohortRow]
    split_ifs with hcut
    · have hne : rowKey fp row.2 ≠ cutlineKey fp := by
        intro heq
        simpa using congrArg letter heq
      simp [hne]
    · simp
  · have hpositions : g.zipIdx.Pairwise (fun a b => a.2 ≠ b.2) :=
      List.pairwise_map.mp (by rw [List.zipIdx_map_snd]; exact List.nodup_range' 1)
    refine hpositions.imp ?_
    intro a b hab k ha hb
    rcases mem_key_cohortRow ha with rfl | ⟨rfl, hcut⟩
    · rcases mem_key_cohortRow hb with hb | ⟨hb, -⟩
      · exact hab (rowKey_inj hb).2
      · simpa using congrArg letter hb
    · rcases mem_key_cohortRow hb with hb | ⟨-, hcut'⟩
      · simpa using congrArg letter hb
      · exact hab (Option.some.inj (hcut.symm.trans hcut'))

theorem nodup_keys_cohortItems (fp : String) (g : List NeedView) :
    ((cohortItems fp g).map WalkItem.key).Nodup := by
  rw [cohortItems, List.map_cons, List.nodup_cons]
  refine ⟨?_, nodup_keys_cohortRows fp g⟩
  intro hmem
  rw [cohortRows, List.map_flatMap, List.mem_flatMap] at hmem
  obtain ⟨row, -, hrow⟩ := hmem
  rcases mem_key_cohortRow hrow with heq | ⟨heq, -⟩
  · simpa [cohortHeader, WalkItem.key] using congrArg letter heq
  · simpa [cohortHeader, WalkItem.key] using congrArg letter heq

theorem map_key_tailItems (flat : List NeedView) :
    (tailItems flat).map WalkItem.key = flat.mapIdx tailKey := by
  apply List.ext_getElem
  · simp [tailItems]
  · intro i hi hi'
    simp [tailItems, WalkItem.key]

theorem nodup_keys_tailItems (flat : List NeedView) :
    ((tailItems flat).map WalkItem.key).Nodup := by
  rw [map_key_tailItems, List.nodup_iff_injective_getElem]
  intro i j hij
  simp only [List.getElem_mapIdx] at hij
  exact Fin.ext (tailKey_inj hij)

/-- No key occurs twice, whatever fingerprints and clusters are called. -/
theorem nodup_keys_items (w : Walk) : (w.items.map WalkItem.key).Nodup := by
  rw [Walk.items, List.map_append, List.nodup_append', List.map_flatMap, List.nodup_flatMap]
  refine ⟨⟨fun c _ => nodup_keys_cohortItems c.fingerprint c.needs, ?_⟩, nodup_keys_tailItems w.tail, ?_⟩
  · refine (List.pairwise_map.mp w.distinct).imp ?_
    intro c d hcd k hc hd
    exact hcd ((isCohortKey_of_mem hc).unique (isCohortKey_of_mem hd))
  · intro k hcohorts htail
    obtain ⟨c, -, hc⟩ := List.mem_flatMap.mp hcohorts
    rw [map_key_tailItems] at htail
    obtain ⟨i, hi, rfl⟩ := List.mem_mapIdx.mp htail
    exact (isCohortKey_of_mem hc).letter_ne (letter_tailKey i _)

/-! ## Headers -/

/-- The rows below a header that announces `count` needs of one shape: they start and
end with a row, and a cut-line may stand between two of them. -/
structure CohortBlock (fp : String) (count : ℕ) (block : List WalkItem) : Prop where
  rows : (needsOf block).length = count
  shared : ∀ n ∈ needsOf block, fingerprint n = fp
  headerless : ∀ item ∈ block, item.header? = none
  cutlines : block.countP WalkItem.isCutline ≤ 1
  first : ∃ key n more, block = .row key n :: more
  last : ∃ more key n, block = more ++ [.row key n]

/-- The cut-line is above the last row. -/
theorem cutIndex_lt {g : List NeedView} {i : ℕ} (h : cutIndex g = some i) : i + 1 < g.length := by
  obtain ⟨hi, -⟩ := List.findIdx?_eq_some_iff_getElem.mp h
  rw [List.length_zip, List.length_tail] at hi
  omega

theorem mem_cohortRow {fp : String} {g : List NeedView} {row : NeedView × ℕ} {item : WalkItem}
    (h : item ∈ cohortRow fp g row) :
    item = .row (rowKey fp row.2) row.1 ∨ ∃ below, item = .cutline (cutlineKey fp) below := by
  unfold cohortRow at h
  split_ifs at h with hcut
  · rcases List.mem_cons.mp h with rfl | h
    · exact Or.inl rfl
    · exact Or.inr ⟨_, List.mem_singleton.mp h⟩
  · exact Or.inl (List.mem_singleton.mp h)

theorem mem_cohortRows {fp : String} {g : List NeedView} {item : WalkItem}
    (h : item ∈ cohortRows fp g) :
    (∃ key n, item = .row key n) ∨ ∃ below, item = .cutline (cutlineKey fp) below := by
  obtain ⟨row, -, hrow⟩ := List.mem_flatMap.mp h
  rcases mem_cohortRow hrow with hitem | hitem
  · exact Or.inl ⟨_, _, hitem⟩
  · exact Or.inr hitem

/-- All cut-lines of a cohort would have the same key. -/
theorem countP_cutline_cohortRows (fp : String) (g : List NeedView) :
    (cohortRows fp g).countP WalkItem.isCutline ≤ 1 := by
  have hkeys : (((cohortRows fp g).filter WalkItem.isCutline).map WalkItem.key).Nodup :=
    (nodup_keys_cohortRows fp g).sublist (List.filter_sublist.map _)
  have hsame : ∀ k ∈ ((cohortRows fp g).filter WalkItem.isCutline).map WalkItem.key,
      k = cutlineKey fp := by
    intro k hk
    obtain ⟨item, hitem, rfl⟩ := List.mem_map.mp hk
    obtain ⟨hmem, hcutline⟩ := List.mem_filter.mp hitem
    rcases mem_cohortRows hmem with ⟨key, n, rfl⟩ | ⟨below, rfl⟩
    · exact absurd hcutline (by simp [WalkItem.isCutline])
    · rfl
  rw [List.eq_replicate_of_mem hsame, List.nodup_replicate, List.length_map] at hkeys
  rw [List.countP_eq_length_filter]
  exact hkeys

theorem Cohort.block (c : Cohort) :
    CohortBlock c.fingerprint c.needs.length (cohortRows c.fingerprint c.needs) := by
  have hlength := c.contended
  constructor
  case rows => rw [needsOf_cohortRows]
  case shared =>
    rw [needsOf_cohortRows]
    exact c.shared
  case headerless =>
    intro item hitem
    rcases mem_cohortRows hitem with ⟨key, n, rfl⟩ | ⟨below, rfl⟩
    · rfl
    · rfl
  case cutlines => exact countP_cutline_cohortRows _ _
  case first =>
    cases hneeds : c.needs with
    | nil => simp [hneeds] at hlength
    | cons n more =>
      rw [cohortRows, List.zipIdx_cons, List.flatMap_cons, cohortRow, List.cons_append]
      exact ⟨_, _, _, rfl⟩
  case last =>
    rcases List.eq_nil_or_concat c.needs with hneeds | ⟨more, n, hneeds⟩
    · simp [hneeds] at hlength
    · have hcut : cutIndex c.needs ≠ some more.length := by
        intro hcut
        have hlt := cutIndex_lt hcut
        rw [hneeds] at hlt
        simp at hlt
      have hrow : cohortRow c.fingerprint c.needs (n, more.length) =
          [.row (rowKey c.fingerprint more.length) n] := by
        rw [cohortRow, if_neg hcut]
      have hzip : c.needs.zipIdx = more.zipIdx ++ [(n, more.length)] := by
        rw [hneeds, List.concat_eq_append, List.zipIdx_append]
        simp
      rw [cohortRows, hzip, List.flatMap_append, List.flatMap_singleton, hrow]
      exact ⟨_, _, _, rfl⟩

theorem mem_tailItems {flat : List NeedView} {item : WalkItem} (h : item ∈ tailItems flat) :
    ∃ key n, item = .row key n := by
  obtain ⟨i, hi, rfl⟩ := List.mem_mapIdx.mp h
  exact ⟨_, _, rfl⟩

/-- The needs behind a cohort. -/
theorem needsOf_after (after : List Cohort) (tail : List NeedView) :
    needsOf (after.flatMap Cohort.items ++ tailItems tail) = after.flatMap Cohort.needs ++ tail := by
  simp only [needsOf_append, needsOf_flatMap, needsOf_tailItems, Cohort.items, needsOf_cohortItems]

/-- They have other shapes. -/
theorem fingerprint_ne_after {w : Walk} {before after : List Cohort} {c : Cohort}
    (hcohorts : w.cohorts = before ++ c :: after) :
    ∀ n ∈ after.flatMap Cohort.needs ++ w.tail, fingerprint n ≠ c.fingerprint := by
  have hdistinct := w.distinct
  rw [hcohorts, List.map_append, List.map_cons, List.nodup_middle, List.nodup_cons] at hdistinct
  intro n hn heq
  rcases List.mem_append.mp hn with hn | hn
  · obtain ⟨d, hd, hn⟩ := List.mem_flatMap.mp hn
    rw [d.shared n hn] at heq
    apply hdistinct.1
    rw [← heq]
    exact List.mem_append_right _ (List.mem_map_of_mem hd)
  · apply w.apart n hn
    rw [heq, hcohorts]
    simp

end BigfleetDashboard.Pages
