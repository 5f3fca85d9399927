import BigfleetDashboard.WalkComplete

/-!
# The walk is ordered by precedence

Precedence is a strict weak order, so the rows of a cohort, the tail and the first
needs of the cohorts come out in order. Needs that never tie are sorted into one list
whatever order they arrived in, and the walk is a function of the sorted list.
-/
namespace BigfleetDashboard.Pages
open StableSort

/-! ## Precedence -/

theorem precedes_iff (a b : NeedView) :
    precedes a b = true ↔
      b.priority < a.priority ∨ (a.priority = b.priority ∧ arrival a < arrival b) := by
  unfold precedes
  split_ifs with h
  · rw [decide_eq_true_iff]
    exact ⟨Or.inl, fun h' => h'.resolve_right (fun hab => h hab.1)⟩
  · have hpriority : a.priority = b.priority := not_not.mp h
    simp [hpriority]

theorem precedes_isWeakOrder : IsWeakOrder precedes where
  irrefl a := by
    rw [precedes_iff]
    omega
  trans a b c := by
    simp only [precedes_iff]
    omega
  incomp_trans a b c := by
    simp only [precedes_iff]
    omega

/-- Needs that tie have the same priority and the same arrival. -/
theorem eq_of_not_precedes {a b : NeedView} (hab : precedes a b = false)
    (hba : precedes b a = false) : (a.priority, arrival a) = (b.priority, arrival b) := by
  rw [← Bool.not_eq_true, precedes_iff] at hab hba
  rw [Prod.mk.injEq]
  omega

theorem before_byPrecedence : before byPrecedence = precedes := by
  refine before_ite fun a b => ?_
  split_ifs
  · decide
  · decide

theorem before_byFirst :
    before byFirst = fun a b => precedes a.2.headI b.2.headI :=
  before_ite fun _ _ => by decide

/-! ## The order of a walk -/

/-- No need is followed by one that precedes it. -/
def InOrder (needs : List NeedView) : Prop := needs.Pairwise (fun a b => precedes b a = false)

theorem sorted_inOrder (sorting : ComparisonSort) (needs : List NeedView) :
    InOrder (sorting.sort byPrecedence needs) := by
  have hsorted := sorting.sorted byPrecedence needs
    (by rw [before_byPrecedence]; exact precedes_isWeakOrder)
  rwa [before_byPrecedence] at hsorted

theorem Cohort.needs_ne_nil (c : Cohort) : c.needs ≠ [] :=
  List.ne_nil_of_length_pos (lt_of_lt_of_le Nat.zero_lt_two c.contended)

def Cohort.first (c : Cohort) : NeedView := c.needs.head c.needs_ne_nil

theorem headI_eq_head {needs : List NeedView} (h : needs ≠ []) : needs.headI = needs.head h := by
  cases needs with
  | nil => exact absurd rfl h
  | cons n needs => rfl

theorem Cohort.headI_needs (c : Cohort) : c.needs.headI = c.first := headI_eq_head c.needs_ne_nil

structure Walk.Ordered (w : Walk) : Prop where
  cohorts : ∀ c ∈ w.cohorts, InOrder c.needs
  tail : InOrder w.tail
  firsts : w.cohorts.Pairwise (fun c d => precedes d.first c.first = false)

theorem walkOf_ordered (sorting : ComparisonSort) (rows : List NeedView) (showCluster : Bool) :
    (walkOf sorting rows showCluster).Ordered := by
  have hentries := map_drawnCohorts sorting rows showCluster id
  rw [List.map_id] at hentries
  constructor
  case cohorts =>
    intro c hc
    have hmem : (c.fingerprint, c.needs) ∈ cohortEntries sorting rows showCluster := by
      rw [← hentries]
      exact List.mem_map_of_mem hc
    obtain ⟨-, -, -, hneeds⟩ := (mem_cohortEntries sorting rows showCluster _ _).mp hmem
    rw [hneeds]
    exact (sorted_inOrder sorting rows).filter _
  case tail => exact sorted_inOrder sorting _
  case firsts =>
    have hweak : IsWeakOrder (before byFirst) := by
      rw [before_byFirst]
      exact precedes_isWeakOrder.comap (fun e : String × List NeedView => e.2.headI)
    have hsorted := sorting.sorted byFirst
      (contended (sortedSplit sorting rows showCluster).groups) hweak
    rw [before_byFirst] at hsorted
    change (cohortEntries sorting rows showCluster).Pairwise _ at hsorted
    rw [← hentries, List.pairwise_map] at hsorted
    refine hsorted.imp ?_
    intro c d hcd
    rw [← c.headI_needs, ← d.headI_needs]
    exact hcd

/-! ## Reading a walk off its items -/

theorem tailItems_injective {flat flat' : List NeedView} (h : tailItems flat = tailItems flat') :
    flat = flat' := by
  rw [← needsOf_tailItems flat, h, needsOf_tailItems]

/-- The count of a header tells where its rows end. -/
theorem items_cohorts_injective {cohorts cohorts' : List Cohort} {tail tail' : List NeedView}
    (h : cohorts.flatMap Cohort.items ++ tailItems tail =
      cohorts'.flatMap Cohort.items ++ tailItems tail') : cohorts = cohorts' ∧ tail = tail' := by
  have hheaderless : ∀ (c : Cohort) (more : List WalkItem) (flat : List NeedView),
      c.items ++ more ≠ tailItems flat := by
    intro c more flat heq
    have hmem : cohortHeader c.fingerprint c.needs ∈ tailItems flat := by
      rw [← heq]
      exact List.mem_append_left _ List.mem_cons_self
    obtain ⟨key, n, hrow⟩ := mem_tailItems hmem
    cases hrow
  induction cohorts generalizing cohorts' with
  | nil =>
    cases cohorts' with
    | nil => exact ⟨rfl, tailItems_injective h⟩
    | cons c' cohorts' =>
      rw [List.flatMap_cons, List.append_assoc] at h
      exact absurd h.symm (hheaderless c' _ tail)
  | cons c cohorts ih =>
    cases cohorts' with
    | nil =>
      rw [List.flatMap_cons, List.append_assoc] at h
      exact absurd h (hheaderless c _ tail')
    | cons c' cohorts' =>
      rw [List.flatMap_cons, List.flatMap_cons, List.append_assoc, List.append_assoc] at h
      have hheader : cohortHeader c.fingerprint c.needs = cohortHeader c'.fingerprint c'.needs :=
        (List.cons.inj h).1
      obtain ⟨-, hfp, hlength, -, -⟩ := WalkItem.header.inj hheader
      have hneeds : c.needs = c'.needs := by
        have hrows := congrArg needsOf h
        simp only [needsOf_append, Cohort.items, needsOf_cohortItems] at hrows
        exact (List.append_inj hrows hlength).1
      have hitems : c.items = c'.items := by
        rw [Cohort.items, Cohort.items, hfp, hneeds]
      obtain ⟨hcohorts, htail⟩ := ih (List.append_cancel_left (hitems ▸ h))
      have hcohort : c = c' := by
        cases c
        cases c'
        cases hfp
        cases hneeds
        rfl
      exact ⟨by rw [hcohort, hcohorts], htail⟩

theorem items_injective {w w' : Walk} (h : w.items = w'.items) : w = w' := by
  obtain ⟨hcohorts, htail⟩ := items_cohorts_injective h
  cases w
  cases w'
  cases hcohorts
  cases htail
  rfl

/-! ## Independence of the order of arrival -/

/-- Needs without ties are sorted into one list. -/
theorem sort_eq_of_perm (sorting : ComparisonSort) {rows rows' : List NeedView}
    (hperm : rows.Perm rows') (hdistinct : (rows.map (fun n => (n.priority, arrival n))).Nodup) :
    sorting.sort byPrecedence rows = sorting.sort byPrecedence rows' := by
  have hsort := sorting.perm byPrecedence rows
  refine sorted_unique (hsort.trans (hperm.trans (sorting.perm byPrecedence rows').symm))
    (sorted_inOrder sorting rows) (sorted_inOrder sorting rows') ?_
  intro a ha b hb hab hba
  exact List.inj_on_of_nodup_map hdistinct (hsort.mem_iff.mp ha) (hsort.mem_iff.mp hb)
    (eq_of_not_precedes hab hba)

/-- The walk of the page is one of the rows and in order, and does not depend on the order
of the rows unless two of them tie. -/
theorem buildWalk_ordered (sorting : ComparisonSort) (showCluster : Bool) :
    IsWeakOrder precedes ∧
    (∀ rows, (∃ w : Walk, buildWalk sorting rows showCluster = w.items) ∧
      ∀ w : Walk, buildWalk sorting rows showCluster = w.items → w.needs.Perm rows ∧ w.Ordered) ∧
    ∀ rows rows' : List NeedView, rows.Perm rows' →
      (rows.map (fun n => (n.priority, arrival n))).Nodup →
      buildWalk sorting rows showCluster = buildWalk sorting rows' showCluster := by
  refine ⟨precedes_isWeakOrder, ?_, ?_⟩
  · intro rows
    have hitems := buildWalk_eq_items sorting rows showCluster
    refine ⟨⟨_, hitems⟩, ?_⟩
    intro w hw
    rw [← items_injective (hitems.symm.trans hw)]
    exact ⟨needs_walkOf_perm sorting rows showCluster, walkOf_ordered sorting rows showCluster⟩
  · intro rows rows' hperm hdistinct
    simp only [buildWalk, sort_eq_of_perm sorting hperm hdistinct]

def arrivedAt (nanos : Int) : NeedView :=
  { (default : NeedView) with
    clusterId := "payments"
    priority := 1000
    arrivalUnixNanos := some nanos
    profileFingerprint := some "gpu" }

theorem buildWalk_ordered_swap :
    buildWalk ComparisonSort.insertion [arrivedAt 2, arrivedAt 1] false =
      buildWalk ComparisonSort.insertion [arrivedAt 1, arrivedAt 2] false :=
  (buildWalk_ordered ComparisonSort.insertion false).2.2 _ _ (List.Perm.swap _ _ _) (by decide)

end BigfleetDashboard.Pages
