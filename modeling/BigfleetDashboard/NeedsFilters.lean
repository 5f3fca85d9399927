import BigfleetDashboard.NeedsPage
import BigfleetDashboard.WalkComplete

/-!
# The filters of the needs page

The drop-down of clusters, the summary bar, the rows and the walk are four passes over
the needs that were received. What the drop-down and the bar count is what the filters
leave.
-/
namespace BigfleetDashboard.Pages
open Script StableSort

/-! ## The drop-down of clusters -/

structure ClusterTally where
  total : ℕ
  unmet : ℕ

structure ClusterOption where
  id : String
  total : ℕ
  unmet : ℕ

/-- The loop body. -/
def tallyCluster (m : OrderedMap String ClusterTally) (n : NeedView) :
    OrderedMap String ClusterTally :=
  let e := m.getD n.clusterId ⟨0, 0⟩
  m.set n.clusterId ⟨e.total + 1, if n.satisfied then e.unmet else e.unmet + 1⟩

/-- The comparator of the drop-down: most unmet needs first, then by name. -/
def byUnmet (eng : Engine) (a b : ClusterOption) : ExtRat :=
  let difference : ExtRat := .fin (b.unmet - a.unmet)
  if difference ≠ 0 then difference else eng.localeCompare a.id b.id

def clusterOptions (eng : Engine) (all : List NeedView) : List ClusterOption :=
  let tally := all.foldl tallyCluster OrderedMap.empty
  eng.sorting.sort (byUnmet eng) (tally.entries.map (fun e => ⟨e.1, e.2.total, e.2.unmet⟩))

/-! ## Rows -/

inductive StatusFilter
  | all
  | satisfied
  | unmet
  deriving DecidableEq

/-- A reason that is empty filters nothing. -/
def byReason (reasonFilter : Option String) (needs : List NeedView) : List NeedView :=
  match reasonFilter with
  | none => needs
  | some reason =>
    if reason ≠ "" then needs.filter (fun n => !n.satisfied && n.unmetReason = reason) else needs

section Tally
variable (m : OrderedMap String ClusterTally) (n : NeedView)

end Tally

end BigfleetDashboard.Pages
