import BigfleetDashboard.NumeralKeys
import BigfleetDashboard.ShardNeeds

/-!
# The walk of the needs page

The rows are sorted by precedence, the needs that share a shape are drawn as
cohorts under a header, and the others follow as a tail. `Walk` is what the list of
items stands for; `buildWalk` computes the items of a walk, and the needs of that
walk are the rows.
-/
namespace BigfleetDashboard.Pages
open Script StableSort

/-! ## Precedence -/

/-- A need without an arrival counts as arrived at 0. -/
def arrival (n : NeedView) : Int := n.arrivalUnixNanos.getD 0

def precedes (a b : NeedView) : Bool :=
  if a.priority ≠ b.priority then b.priority < a.priority else arrival a < arrival b

/-- The comparator of the rows. -/
def byPrecedence (a b : NeedView) : ExtRat :=
  if precedes a b then .fin (-1) else if precedes b a then .fin 1 else 0

/-! ## Items -/

inductive WalkItem
  | header (key fingerprint : String) (count : ℕ) (contested : Bool) (supply : Option MatchingSupply)
  | cutline (key : String) (below : ℕ)
  | row (key : String) (need : NeedView)
  deriving DecidableEq

def WalkItem.key : WalkItem → String
  | .header key .. => key
  | .cutline key _ => key
  | .row key _ => key

def WalkItem.need? : WalkItem → Option NeedView
  | .row _ n => some n
  | _ => none

/-- The fingerprint and the count of a header. -/
def WalkItem.header? : WalkItem → Option (String × ℕ)
  | .header _ fp count .. => some (fp, count)
  | _ => none

def WalkItem.isCutline : WalkItem → Bool
  | .cutline .. => true
  | _ => false

/-- The needs of the rows among the items. -/
def needsOf (items : List WalkItem) : List NeedView := items.filterMap WalkItem.need?

def headerKey (fp : String) : String := "h:" ++ fp
def rowKey (fp : String) (i : ℕ) : String := "r:" ++ fp ++ ":" ++ toString i
def cutlineKey (fp : String) : String := "c:" ++ fp
def tailKey (i : ℕ) (n : NeedView) : String :=
  "f:" ++ toString i ++ ":" ++ n.clusterId ++ ":" ++ numberText n.priority

/-- The first row that claimed machines while the next one, unmet, claimed none. -/
def cutIndex (g : List NeedView) : Option ℕ :=
  (g.zip g.tail).findIdx? (fun pair =>
    0 < pair.1.claimedMachineCount && !pair.2.satisfied && pair.2.claimedMachineCount = 0)

/-- A row of a cohort, with the cut-line if it is drawn after this row. -/
def cohortRow (fp : String) (g : List NeedView) (row : NeedView × ℕ) : List WalkItem :=
  .row (rowKey fp row.2) row.1 ::
    (if cutIndex g = some row.2 then [.cutline (cutlineKey fp) (g.length - row.2 - 1)] else [])

def cohortRows (fp : String) (g : List NeedView) : List WalkItem :=
  g.zipIdx.flatMap (cohortRow fp g)

def cohortHeader (fp : String) (g : List NeedView) : WalkItem :=
  let contested := g.any (fun m => !m.satisfied)
  let pool := g.findSome? NeedView.matchingSupply
  .header (headerKey fp) fp g.length contested pool

/-- The items of a group of needs. -/
def cohortItems (fp : String) (g : List NeedView) : List WalkItem :=
  cohortHeader fp g :: cohortRows fp g

def tailItems (flat : List NeedView) : List WalkItem :=
  flat.mapIdx (fun i n => .row (tailKey i n) n)

/-! ## The walk as it is built -/

/-- A missing fingerprint counts as empty. -/
def fingerprint (n : NeedView) : String := n.profileFingerprint.getD ""

/-- The groups by fingerprint, and the needs that join none. -/
structure WalkGroups where
  groups : OrderedMap String (List NeedView)
  flat : List NeedView

def WalkGroups.empty : WalkGroups := ⟨OrderedMap.empty, []⟩

/-- The loop body. -/
def WalkGroups.add (showCluster : Bool) (w : WalkGroups) (n : NeedView) : WalkGroups :=
  if fingerprint n = "" ∨ showCluster then { w with flat := w.flat ++ [n] }
  else { w with groups := w.groups.push (fingerprint n) n }

def splitRows (showCluster : Bool) (sorted : List NeedView) : WalkGroups :=
  sorted.foldl (WalkGroups.add showCluster) WalkGroups.empty

/-- The groups that become cohorts. -/
def contended (groups : OrderedMap String (List NeedView)) : List (String × List NeedView) :=
  groups.entries.filter (fun e => 2 ≤ e.2.length)

/-- The needs of the other groups. -/
def uncontended (groups : OrderedMap String (List NeedView)) : List NeedView :=
  let cohortKeys := (contended groups).map Prod.fst
  (groups.entries.filter (fun e => e.1 ∉ cohortKeys)).flatMap Prod.snd

/-- The comparator of the cohorts has no ties. It reads the first need of a group, and a
group is not empty. -/
def byFirst (a b : String × List NeedView) : ExtRat :=
  if precedes a.2.headI b.2.headI then .fin (-1) else .fin 1

def buildWalk (sorting : ComparisonSort) (rows : List NeedView) (showCluster : Bool) :
    List WalkItem :=
  let sorted := sorting.sort byPrecedence rows
  let split := splitRows showCluster sorted
  let cohorts := sorting.sort byFirst (contended split.groups)
  let flat := sorting.sort byPrecedence (split.flat ++ uncontended split.groups)
  cohorts.flatMap (fun e => cohortItems e.1 e.2) ++ tailItems flat

end BigfleetDashboard.Pages
