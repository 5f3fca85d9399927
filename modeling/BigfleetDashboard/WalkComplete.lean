import BigfleetDashboard.WalkItems

/-!
# The walk shows every need once

What the page builds are the items of a walk whose needs are the rows. The two
sorts, the grouping and the two ways into the tail are followed one by one; each
hands on a permutation of what it was given.
-/
namespace BigfleetDashboard.Pages
open StableSort

/-- The needs of one shape. -/
def ofShape (rows : List NeedView) (fp : String) : List NeedView :=
  rows.filter (fun n => fingerprint n = fp)

/-- Whether the loop puts the need in a group. -/
def joins (showCluster : Bool) (n : NeedView) : Bool := fingerprint n ≠ "" && !showCluster

/-! ## The groups -/

theorem splitRows_eq (showCluster : Bool) (sorted : List NeedView) :
    splitRows showCluster sorted =
      ⟨OrderedMap.groupBy fingerprint (sorted.filter (joins showCluster)),
        sorted.filter (fun n => !joins showCluster n)⟩ := by
  induction sorted using List.reverseRecOn with
  | nil => rfl
  | append_singleton sorted n ih =>
    have hstep : splitRows showCluster (sorted ++ [n]) =
        (splitRows showCluster sorted).add showCluster n := by
      simp [splitRows]
    rw [hstep, ih, WalkGroups.add, List.filter_append, List.filter_append]
    by_cases h : fingerprint n = "" ∨ showCluster = true
    · have hjoins : joins showCluster n = false := by
        simpa [joins, or_iff_not_imp_left] using h
      simp [h, hjoins]
    · have hjoins : joins showCluster n = true := by
        simpa [joins, not_or] using h
      simp [h, hjoins, OrderedMap.groupBy]

section
variable {showCluster : Bool} {sorted : List NeedView}

/-- A group holds all needs of its shape. -/
theorem mem_groups (fp : String) (g : List NeedView) :
    (fp, g) ∈ (splitRows showCluster sorted).groups.entries ↔
      showCluster = false ∧ fp ≠ "" ∧ (∃ n ∈ sorted, fingerprint n = fp) ∧ g = ofShape sorted fp := by
  have hgroup : ∀ hs : showCluster = false, fp ≠ "" →
      (sorted.filter (joins showCluster)).filter (fun n => fingerprint n = fp) = ofShape sorted fp := by
    intro hs hfp
    rw [List.filter_filter, ofShape]
    apply List.filter_congr
    intro n _
    by_cases hn : fingerprint n = fp
    · simp [joins, hs, hn, hfp]
    · simp [hn]
  rw [splitRows_eq, OrderedMap.mem_entries_groupBy]
  constructor
  · rintro ⟨⟨n, hn, hfp⟩, hg⟩
    obtain ⟨hmem, hjoins⟩ := List.mem_filter.mp hn
    have hjoins' : fp ≠ "" ∧ showCluster = false := by simpa [joins, hfp] using hjoins
    rw [hgroup hjoins'.2 hjoins'.1] at hg
    exact ⟨hjoins'.2, hjoins'.1, ⟨n, hmem, hfp⟩, hg⟩
  · rintro ⟨hs, hfp, ⟨n, hn, hnfp⟩, hg⟩
    refine ⟨⟨n, List.mem_filter.mpr ⟨hn, ?_⟩, hnfp⟩, ?_⟩
    · simp [joins, hs, hnfp, hfp]
    · rw [hgroup hs hfp, hg]

theorem mem_contended (fp : String) (g : List NeedView) :
    (fp, g) ∈ contended (splitRows showCluster sorted).groups ↔
      showCluster = false ∧ fp ≠ "" ∧ 2 ≤ (ofShape sorted fp).length ∧ g = ofShape sorted fp := by
  rw [contended, List.mem_filter, mem_groups, decide_eq_true_iff]
  constructor
  · rintro ⟨⟨hs, hfp, -, rfl⟩, hlength⟩
    exact ⟨hs, hfp, hlength, rfl⟩
  · rintro ⟨hs, hfp, hlength, rfl⟩
    obtain ⟨n, hn⟩ := List.exists_mem_of_length_pos (lt_of_lt_of_le Nat.zero_lt_two hlength)
    obtain ⟨hmem, hnfp⟩ := List.mem_filter.mp hn
    exact ⟨⟨hs, hfp, ⟨n, hmem, of_decide_eq_true hnfp⟩, rfl⟩, hlength⟩

/-- The keys of the cohorts are looked up by name, which finds the groups of two or more. -/
theorem uncontended_eq :
    uncontended (splitRows showCluster sorted).groups =
      ((splitRows showCluster sorted).groups.entries.filter
        (fun e => !decide (2 ≤ e.2.length))).flatMap Prod.snd := by
  rw [uncontended]
  congr 1
  apply List.filter_congr
  rintro ⟨fp, g⟩ he
  obtain ⟨hs, hfp, -, hg⟩ := (mem_groups fp g).mp he
  have hkey : fp ∈ (contended (splitRows showCluster sorted).groups).map Prod.fst ↔
      2 ≤ g.length := by
    constructor
    · intro hmem
      obtain ⟨⟨fp', g'⟩, he', rfl⟩ := List.mem_map.mp hmem
      obtain ⟨-, -, hlength, -⟩ := (mem_contended fp' g').mp he'
      rwa [hg]
    · intro hlength
      rw [hg] at hlength
      exact List.mem_map_of_mem (f := Prod.fst) ((mem_contended fp g).mpr ⟨hs, hfp, hlength, hg⟩)
  simp only [hkey, decide_not]

/-- Cohorts, small groups and ungrouped needs together are the sorted rows. -/
theorem split_perm :
    ((contended (splitRows showCluster sorted).groups).flatMap Prod.snd ++
      ((splitRows showCluster sorted).flat ++
        uncontended (splitRows showCluster sorted).groups)).Perm sorted := by
  set split := splitRows showCluster sorted with hsplit
  have hgroups : ((contended split.groups).flatMap Prod.snd ++ uncontended split.groups).Perm
      (sorted.filter (joins showCluster)) := by
    rw [hsplit, uncontended_eq, contended, ← List.flatMap_append]
    refine ((List.filter_append_perm _ _).flatMap_right _).trans ?_
    have hvalues := OrderedMap.flatten_values_groupBy fingerprint
      (sorted.filter (joins showCluster))
    rw [splitRows_eq]
    rwa [OrderedMap.values, ← List.flatMap_def] at hvalues
  have hflat : split.flat = sorted.filter (fun n => !joins showCluster n) := by
    rw [hsplit, splitRows_eq]
  have hswap : ((contended split.groups).flatMap Prod.snd ++
      (split.flat ++ uncontended split.groups)).Perm
      (((contended split.groups).flatMap Prod.snd ++ uncontended split.groups) ++ split.flat) := by
    rw [List.append_assoc]
    exact List.perm_append_comm.append_left _
  rw [hflat] at hswap ⊢
  exact hswap.trans ((hgroups.append_right _).trans (List.filter_append_perm _ _))

end

/-! ## The walk of the rows -/

section
variable (sorting : ComparisonSort) (rows : List NeedView) (showCluster : Bool)

def sortedSplit : WalkGroups := splitRows showCluster (sorting.sort byPrecedence rows)

/-- The groups in the order in which they are drawn. -/
def cohortEntries : List (String × List NeedView) :=
  sorting.sort byFirst (contended (sortedSplit sorting rows showCluster).groups)

def flatRows : List NeedView :=
  sorting.sort byPrecedence ((sortedSplit sorting rows showCluster).flat ++
    uncontended (sortedSplit sorting rows showCluster).groups)

/-- Membership in a shape is not affected by sorting. -/
theorem length_ofShape_sorted (fp : String) :
    (ofShape (sorting.sort byPrecedence rows) fp).length = (ofShape rows fp).length :=
  ((sorting.perm byPrecedence rows).filter _).length_eq

theorem mem_cohortEntries (fp : String) (g : List NeedView) :
    (fp, g) ∈ cohortEntries sorting rows showCluster ↔
      showCluster = false ∧ fp ≠ "" ∧ 2 ≤ (ofShape rows fp).length ∧
        g = ofShape (sorting.sort byPrecedence rows) fp := by
  rw [cohortEntries, (sorting.perm byFirst _).mem_iff, sortedSplit, mem_contended,
    length_ofShape_sorted]

theorem cohortEntries_shape : ∀ e ∈ cohortEntries sorting rows showCluster,
    2 ≤ e.2.length ∧ ∀ n ∈ e.2, fingerprint n = e.1 := by
  rintro ⟨fp, g⟩ he
  obtain ⟨-, -, hlength, rfl⟩ := (mem_cohortEntries sorting rows showCluster fp g).mp he
  rw [← length_ofShape_sorted sorting] at hlength
  exact ⟨hlength, fun n hn => of_decide_eq_true (List.mem_filter.mp hn).2⟩

theorem nodup_cohortEntries : ((cohortEntries sorting rows showCluster).map Prod.fst).Nodup := by
  have hperm := (sorting.perm byFirst
    (contended (sortedSplit sorting rows showCluster).groups)).map Prod.fst
  refine hperm.nodup_iff.mpr ?_
  exact (sortedSplit sorting rows showCluster).groups.keys_nodup.sublist
    (List.filter_sublist.map Prod.fst)

/-- The cohorts of the drawn groups. -/
def drawnCohorts : List Cohort :=
  (cohortEntries sorting rows showCluster).pmap (fun e h => ⟨e.1, e.2, h.1, h.2⟩)
    (cohortEntries_shape sorting rows showCluster)

/-- What is read off the cohorts is read off the entries. -/
theorem map_drawnCohorts {β : Type} (f : String × List NeedView → β) :
    (drawnCohorts sorting rows showCluster).map (fun c => f (c.fingerprint, c.needs)) =
      (cohortEntries sorting rows showCluster).map f := by
  rw [drawnCohorts, List.map_pmap]
  exact List.pmap_eq_map _

theorem map_fingerprint_drawnCohorts :
    (drawnCohorts sorting rows showCluster).map Cohort.fingerprint =
      (cohortEntries sorting rows showCluster).map Prod.fst :=
  map_drawnCohorts sorting rows showCluster Prod.fst

/-- A need is drawn in a cohort. -/
def Headed (rows : List NeedView) (showCluster : Bool) (fp : String) : Prop :=
  showCluster = false ∧ fp ≠ "" ∧ 2 ≤ (ofShape rows fp).length

theorem mem_fingerprints (fp : String) :
    fp ∈ (drawnCohorts sorting rows showCluster).map Cohort.fingerprint ↔
      Headed rows showCluster fp := by
  rw [map_fingerprint_drawnCohorts, List.mem_map]
  constructor
  · rintro ⟨⟨fp', g⟩, he, rfl⟩
    obtain ⟨hs, hfp, hlength, -⟩ := (mem_cohortEntries sorting rows showCluster fp' g).mp he
    exact ⟨hs, hfp, hlength⟩
  · rintro ⟨hs, hfp, hlength⟩
    exact ⟨_, (mem_cohortEntries sorting rows showCluster fp _).mpr ⟨hs, hfp, hlength, rfl⟩, rfl⟩

/-- Neither an ungrouped need nor one of a small group has a cohort. -/
theorem not_headed_of_mem_flatRows {n : NeedView} (h : n ∈ flatRows sorting rows showCluster) :
    ¬ Headed rows showCluster (fingerprint n) := by
  rintro ⟨hs, hfp, hlength⟩
  rw [flatRows, (sorting.perm byPrecedence _).mem_iff, List.mem_append] at h
  rcases h with h | h
  · rw [sortedSplit, splitRows_eq] at h
    have hjoins := (List.mem_filter.mp h).2
    simp [joins, hs, hfp] at hjoins
  · rw [sortedSplit, uncontended_eq, List.mem_flatMap] at h
    obtain ⟨⟨fp, g⟩, he, hn⟩ := h
    obtain ⟨hmem, hsmall⟩ := List.mem_filter.mp he
    obtain ⟨-, -, -, rfl⟩ := (mem_groups fp g).mp hmem
    have hn' : fingerprint n = fp := of_decide_eq_true (List.mem_filter.mp hn).2
    rw [hn', ← length_ofShape_sorted sorting] at hlength
    simp [hlength] at hsmall

def walkOf : Walk where
  cohorts := drawnCohorts sorting rows showCluster
  tail := flatRows sorting rows showCluster
  distinct := by
    rw [map_fingerprint_drawnCohorts]
    exact nodup_cohortEntries sorting rows showCluster
  apart n hn := by
    rw [mem_fingerprints]
    exact not_headed_of_mem_flatRows sorting rows showCluster hn

/-- The page builds the items of the walk. -/
theorem buildWalk_eq_items :
    buildWalk sorting rows showCluster = (walkOf sorting rows showCluster).items := by
  have hitems : (drawnCohorts sorting rows showCluster).map Cohort.items = _ :=
    map_drawnCohorts sorting rows showCluster (fun e => cohortItems e.1 e.2)
  show (cohortEntries sorting rows showCluster).flatMap (fun e => cohortItems e.1 e.2) ++
      tailItems (flatRows sorting rows showCluster) =
    (drawnCohorts sorting rows showCluster).flatMap Cohort.items ++
      tailItems (flatRows sorting rows showCluster)
  rw [List.flatMap_def, List.flatMap_def, hitems]

/-- The walk holds the rows, each once. -/
theorem needs_walkOf_perm : (walkOf sorting rows showCluster).needs.Perm rows := by
  have hneeds : (drawnCohorts sorting rows showCluster).map Cohort.needs = _ :=
    map_drawnCohorts sorting rows showCluster Prod.snd
  have hcohorts : ((drawnCohorts sorting rows showCluster).flatMap Cohort.needs).Perm
      ((contended (sortedSplit sorting rows showCluster).groups).flatMap Prod.snd) := by
    rw [List.flatMap_def, hneeds, ← List.flatMap_def]
    exact (sorting.perm byFirst _).flatMap_right _
  have htail := sorting.perm byPrecedence ((sortedSplit sorting rows showCluster).flat ++
    uncontended (sortedSplit sorting rows showCluster).groups)
  exact (hcohorts.append htail).trans (split_perm.trans (sorting.perm byPrecedence rows))

end

/-! ## The items of the page -/

end BigfleetDashboard.Pages
