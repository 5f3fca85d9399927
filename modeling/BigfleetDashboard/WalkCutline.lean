import BigfleetDashboard.WalkComplete

/-!
# The cut-line of a cohort

The page draws a line where supply ran out: below the first need that claimed
machines while the next one, unmet, claimed none. It says how many needs are below,
and it is right about them exactly when no later need of the cohort got anything.
-/
namespace BigfleetDashboard.Pages
open StableSort

/-- The need got at least one machine. -/
def Claims (n : NeedView) : Prop := 0 < n.claimedMachineCount

/-- The need is unmet and got nothing. -/
def Starved (n : NeedView) : Prop := n.satisfied = false ∧ n.claimedMachineCount = 0

/-- Once an unmet need without machines directly follows one with machines, no later
need is met or has any. -/
def SupplyEnds (g : List NeedView) : Prop :=
  ∀ pre a b post, g = pre ++ a :: b :: post → Claims a → Starved b → ∀ m ∈ post, Starved m

/-- Every cut-line stands below a need that claimed, counts the needs of its shape
that follow, and these are starved. -/
def CutlinesTruthful (items : List WalkItem) : Prop :=
  ∀ pre key below post, items = pre ++ .cutline key below :: post →
    ∃ front rowKey n, pre = front ++ [.row rowKey n] ∧ Claims n ∧
      (∀ m ∈ ofShape (needsOf post) (fingerprint n), Starved m) ∧
      below = (ofShape (needsOf post) (fingerprint n)).length

/-! ## The search -/

/-- The test of the loop, at one position. -/
def cutsAt (pair : NeedView × NeedView) : Bool :=
  0 < pair.1.claimedMachineCount && !pair.2.satisfied && pair.2.claimedMachineCount = 0

theorem cutsAt_iff (a b : NeedView) : cutsAt (a, b) = true ↔ Claims a ∧ Starved b := by
  simp [cutsAt, Claims, Starved, and_assoc]

theorem cutIndex_eq (g : List NeedView) : cutIndex g = (g.zip g.tail).findIdx? cutsAt := rfl

/-- The line is drawn between a need that claimed and a starved one. -/
theorem cutIndex_split {g : List NeedView} {i : ℕ} (h : cutIndex g = some i) :
    ∃ pre a b post, g = pre ++ a :: b :: post ∧ pre.length = i ∧ Claims a ∧ Starved b := by
  have hlt := cutIndex_lt h
  obtain ⟨hi, hcuts, -⟩ := List.findIdx?_eq_some_iff_getElem.mp (cutIndex_eq g ▸ h)
  rw [List.getElem_zip, List.getElem_tail, cutsAt_iff] at hcuts
  refine ⟨g.take i, g[i], g[i + 1], g.drop (i + 2), ?_, ?_, hcuts.1, hcuts.2⟩
  · rw [List.getElem_cons_drop, List.getElem_cons_drop, List.take_append_drop]
  · rw [List.length_take]
    omega

/-- The first place that cuts is found. -/
theorem exists_cutIndex {g pre post : List NeedView} {a b : NeedView} (hg : g = pre ++ a :: b :: post)
    (ha : Claims a) (hb : Starved b) : ∃ i ≤ pre.length, cutIndex g = some i := by
  have hlength : pre.length < (g.zip g.tail).length := by
    rw [List.length_zip, List.length_tail, hg]
    simp
  have hpair : (g.zip g.tail)[pre.length] = (a, b) := by
    subst hg
    rw [List.getElem_zip, List.getElem_tail]
    simp
  have hcuts : cutsAt (g.zip g.tail)[pre.length] = true := by
    rw [hpair, cutsAt_iff]
    exact ⟨ha, hb⟩
  refine ⟨(g.zip g.tail).findIdx cutsAt, ?_, ?_⟩
  · by_contra hgt
    rw [List.not_of_lt_findIdx (not_le.mp hgt)] at hcuts
    cases hcuts
  · rw [cutIndex_eq]
    exact List.findIdx?_eq_some_of_exists ⟨_, List.getElem_mem hlength, hcuts⟩

/-- The loop stops at the first place, and supply ends where it stops. -/
theorem supplyEnds_iff (g : List NeedView) :
    SupplyEnds g ↔ ∀ i, cutIndex g = some i → ∀ m ∈ g.drop (i + 1), Starved m := by
  constructor
  · intro h i hcut m hm
    obtain ⟨pre, a, b, post, hg, rfl, ha, hb⟩ := cutIndex_split hcut
    have hdrop : g.drop (pre.length + 1) = b :: post := by
      rw [hg]
      simp
    rw [hdrop, List.mem_cons] at hm
    rcases hm with rfl | hm
    · exact hb
    · exact h pre a b post hg ha hb m hm
  · intro h pre a b post hg ha hb m hm
    obtain ⟨i, hle, hcut⟩ := exists_cutIndex hg ha hb
    have hpost : g.drop (pre.length + 2) = post := by
      rw [hg]
      simp
    refine h i hcut m ?_
    rw [← hpost] at hm
    exact (List.drop_sublist_drop_left g (by omega : i + 1 ≤ pre.length + 2)).subset hm

/-! ## The line among the items -/

/-- The rows of a part of a cohort, from position `k` on. -/
def rowsFrom (fp : String) (g part : List NeedView) (k : ℕ) : List WalkItem :=
  (part.zipIdx k).flatMap (cohortRow fp g)

theorem needsOf_rowsFrom (fp : String) (g part : List NeedView) (k : ℕ) :
    needsOf (rowsFrom fp g part k) = part := by
  rw [rowsFrom, needsOf_flatMap]
  simp only [needsOf_cohortRow]
  rw [← List.map_eq_flatMap, List.zipIdx_map_fst]

/-- The rows above the line, the line, and the rows below. -/
theorem cohortRows_split {fp : String} {g pre post : List NeedView} {a : NeedView}
    (hg : g = pre ++ a :: post) (hcut : cutIndex g = some pre.length) :
    cohortRows fp g = (rowsFrom fp g pre 0 ++ [.row (rowKey fp pre.length) a]) ++
      .cutline (cutlineKey fp) post.length :: rowsFrom fp g post (pre.length + 1) := by
  have hrow : cohortRow fp g (a, pre.length) =
      [.row (rowKey fp pre.length) a, .cutline (cutlineKey fp) post.length] := by
    have hlength : g.length - pre.length - 1 = post.length := by
      rw [hg]
      simp
    rw [cohortRow, if_pos hcut, hlength]
  have hzip : g.zipIdx = pre.zipIdx ++ (a, pre.length) :: post.zipIdx (pre.length + 1) := by
    rw [hg, List.zipIdx_append, List.zipIdx_cons]
    simp
  rw [cohortRows, hzip, List.flatMap_append, List.flatMap_cons, hrow]
  simp [rowsFrom]

theorem cutline_mem_cohortItems {fp key : String} {g : List NeedView} {below : ℕ}
    (h : .cutline key below ∈ cohortItems fp g) :
    ∃ i, cutIndex g = some i ∧ key = cutlineKey fp := by
  rcases List.mem_cons.mp h with h | h
  · cases h
  · obtain ⟨row, -, hrow⟩ := List.mem_flatMap.mp h
    unfold cohortRow at hrow
    split_ifs at hrow with hcut
    · simp only [List.mem_cons, reduceCtorEq, false_or, List.not_mem_nil, or_false] at hrow
      injection hrow with hkey
      exact ⟨row.2, hcut, hkey⟩
    · simp at hrow

namespace Walk
variable {w : Walk}

/-- A line belongs to a cohort. -/
theorem cutline_mem {key : String} {below : ℕ} (h : .cutline key below ∈ w.items) :
    ∃ c ∈ w.cohorts, ∃ i, cutIndex c.needs = some i ∧ key = cutlineKey c.fingerprint := by
  rcases List.mem_append.mp h with h | h
  · obtain ⟨c, hc, hitem⟩ := List.mem_flatMap.mp h
    exact ⟨c, hc, cutline_mem_cohortItems hitem⟩
  · obtain ⟨rowKey, n, hrow⟩ := mem_tailItems h
    cases hrow

/-- What follows a cohort has other shapes. -/
theorem ofShape_after {before after : List Cohort} {c : Cohort}
    (hcohorts : w.cohorts = before ++ c :: after) :
    ofShape (after.flatMap Cohort.needs ++ w.tail) c.fingerprint = [] := by
  rw [ofShape, List.filter_eq_nil_iff]
  intro n hn
  rw [decide_eq_true_iff]
  exact fingerprint_ne_after hcohorts n hn

/-- The items split at the line of a cohort. -/
theorem split_cutline {c : Cohort} (hc : c ∈ w.cohorts) {pre post : List NeedView} {a : NeedView}
    (hneeds : c.needs = pre ++ a :: post) (hcut : cutIndex c.needs = some pre.length) :
    ∃ front back, w.items = (front ++ [.row (rowKey c.fingerprint pre.length) a]) ++
        .cutline (cutlineKey c.fingerprint) post.length :: back ∧
      ofShape (needsOf back) c.fingerprint = post := by
  obtain ⟨before, after, hcohorts⟩ := List.append_of_mem hc
  let rest := after.flatMap Cohort.items ++ tailItems w.tail
  refine ⟨before.flatMap Cohort.items ++ cohortHeader c.fingerprint c.needs ::
      rowsFrom c.fingerprint c.needs pre 0,
    rowsFrom c.fingerprint c.needs post (pre.length + 1) ++ rest, ?_, ?_⟩
  · simp [Walk.items, hcohorts, Cohort.items, cohortItems, cohortRows_split hneeds hcut, rest]
  · have hneedsOf : needsOf rest = after.flatMap Cohort.needs ++ w.tail :=
      needsOf_after after w.tail
    have hshape : ofShape post c.fingerprint = post := by
      rw [ofShape, List.filter_eq_self]
      intro n hn
      have hmem : n ∈ c.needs := by
        rw [hneeds]
        simp [hn]
      exact decide_eq_true (c.shared n hmem)
    rw [needsOf_append, needsOf_rowsFrom, hneedsOf, ofShape, List.filter_append]
    have hafter := ofShape_after hcohorts
    rw [ofShape] at hafter hshape
    rw [hafter, hshape, List.append_nil]

/-- The lines of a walk are truthful exactly when supply ends in every cohort. -/
theorem cutlinesTruthful_iff (w : Walk) :
    CutlinesTruthful w.items ↔ ∀ c ∈ w.cohorts, SupplyEnds c.needs := by
  constructor
  · intro h c hc
    rw [supplyEnds_iff]
    intro i hcut m hm
    obtain ⟨pre, a, b, post, hneeds, rfl, ha, -⟩ := cutIndex_split hcut
    obtain ⟨front, back, hitems, hback⟩ := split_cutline hc hneeds hcut
    obtain ⟨front', key, n, hfront, -, hstarved, -⟩ := h _ _ _ _ hitems
    have hlast := List.append_inj_right' hfront rfl
    simp only [List.cons.injEq, WalkItem.row.injEq, and_true] at hlast
    have ha_shape : fingerprint a = c.fingerprint := c.shared a (by rw [hneeds]; simp)
    rw [← hlast.2, ha_shape, hback] at hstarved
    have hdrop : c.needs.drop (pre.length + 1) = b :: post := by
      rw [hneeds]
      simp
    rw [hdrop] at hm
    exact hstarved m hm
  · intro h pre key below post hsplit
    have hmem : WalkItem.cutline key below ∈ w.items := by
      rw [hsplit]
      simp
    obtain ⟨c, hc, i, hcut, rfl⟩ := cutline_mem hmem
    obtain ⟨above, a, b, rest, hneeds, rfl, ha, hb⟩ := cutIndex_split hcut
    obtain ⟨front, back, hitems, hback⟩ := split_cutline hc hneeds hcut
    -- the keys are distinct, so the two ways of splitting at the line agree
    have hsame : pre = front ++ [.row (rowKey c.fingerprint above.length) a] ∧
        below = (b :: rest).length ∧ post = back := by
      have hkeys := nodup_keys_items w
      have hline : WalkItem.cutline (cutlineKey c.fingerprint) below =
          .cutline (cutlineKey c.fingerprint) (b :: rest).length :=
        List.inj_on_of_nodup_map hkeys hmem (by rw [hitems]; simp) rfl
      have hnodup := hkeys.of_map _
      rw [hitems, List.nodup_middle, List.nodup_cons, List.mem_append, not_or] at hnodup
      rw [hline] at hsplit
      have heq := (List.append_cons_inj_of_notMem hnodup.1.1 hnodup.1.2).mp (hitems.symm.trans hsplit)
      exact ⟨heq.1.symm, (WalkItem.cutline.inj hline).2, heq.2.2.symm⟩
    obtain ⟨rfl, rfl, rfl⟩ := hsame
    have ha_shape : fingerprint a = c.fingerprint := c.shared a (by rw [hneeds]; simp)
    refine ⟨front, _, a, rfl, ha, ?_, ?_⟩
    · rw [ha_shape, hback]
      intro m hm
      have hends := (supplyEnds_iff c.needs).mp (h c hc) _ hcut m
      apply hends
      rw [hneeds]
      simpa using hm
    · rw [ha_shape, hback]

end Walk

/-! ## The page -/

/-- The cut-lines of the page are truthful exactly when, in every cohort in its order
of precedence, supply ends at the first starved need below one that claimed. -/
theorem buildWalk_cutlinesTruthful_iff (sorting : ComparisonSort) (rows : List NeedView)
    (showCluster : Bool) :
    CutlinesTruthful (buildWalk sorting rows showCluster) ↔
      ∀ fp, Headed rows showCluster fp →
        SupplyEnds (ofShape (sorting.sort byPrecedence rows) fp) := by
  rw [buildWalk_eq_items, Walk.cutlinesTruthful_iff]
  have hcohorts : (drawnCohorts sorting rows showCluster).map (fun c => (c.fingerprint, c.needs)) =
      cohortEntries sorting rows showCluster := by
    have hmap := map_drawnCohorts sorting rows showCluster id
    rwa [List.map_id] at hmap
  constructor
  · intro h fp hheaded
    have hentry := (mem_cohortEntries sorting rows showCluster fp _).mpr
      ⟨hheaded.1, hheaded.2.1, hheaded.2.2, rfl⟩
    rw [← hcohorts] at hentry
    obtain ⟨c, hc, hpair⟩ := List.mem_map.mp hentry
    rw [← (Prod.mk.inj hpair).2]
    exact h c hc
  · intro h c hc
    have hentry : (c.fingerprint, c.needs) ∈ cohortEntries sorting rows showCluster := by
      rw [← hcohorts]
      exact List.mem_map_of_mem (f := fun c : Cohort => (c.fingerprint, c.needs)) hc
    obtain ⟨hs, hfp, hlength, hneeds⟩ := (mem_cohortEntries sorting rows showCluster _ _).mp hentry
    rw [hneeds]
    exact h c.fingerprint ⟨hs, hfp, hlength⟩

/-- A need of one shape. -/
def shapedNeed (priority : Int) (satisfied : Bool) (claimed : Int) : NeedView :=
  { (default : NeedView) with
    priority := priority
    satisfied := satisfied
    claimedMachineCount := claimed
    profileFingerprint := some "shape" }

/-- A later need is satisfied: the line claims two needs below that supply never reached. -/
theorem buildWalk_cutline_false :
    ¬ ∀ (sorting : ComparisonSort) (rows : List NeedView) (showCluster : Bool),
      CutlinesTruthful (buildWalk sorting rows showCluster) := by
  intro h
  have hitems : buildWalk ComparisonSort.insertion
      [shapedNeed 3 true 1, shapedNeed 2 false 0, shapedNeed 1 true 1] false =
      [.header "h:shape" "shape" 3 true none, .row "r:shape:0" (shapedNeed 3 true 1)] ++
        .cutline "c:shape" 2 ::
          [.row "r:shape:1" (shapedNeed 2 false 0), .row "r:shape:2" (shapedNeed 1 true 1)] := by
    decide
  obtain ⟨front, key, n, hfront, -, hstarved, -⟩ := h _ _ _ _ _ _ _ hitems
  have hsplit : [WalkItem.header "h:shape" "shape" 3 true none] ++
      [.row "r:shape:0" (shapedNeed 3 true 1)] = front ++ [.row key n] := hfront
  have hlast := List.append_inj_right' hsplit rfl
  simp only [List.cons.injEq, WalkItem.row.injEq, and_true] at hlast
  rw [← hlast.2] at hstarved
  have hbad := hstarved (shapedNeed 1 true 1) (by decide)
  exact absurd hbad.1 (by decide)

end BigfleetDashboard.Pages
