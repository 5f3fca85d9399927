import BigfleetDashboard.QueueHead
import BigfleetDashboard.WalkOrder

/-!
# Who is ahead of a need

The decision report of a need lists up to eight needs that claimed machines ahead of
it. The needs are objects, told apart by reference: `view` reads the object at a
reference, and two references may show equal needs.
-/
namespace BigfleetDashboard.Pages
open StableSort Script

/-- `Object.keys(n.aggregateResources ?? {})`. -/
def resourceKeys (n : NeedView) : List String :=
  (propertyOrder (n.aggregateResources.getD [])).map Prod.fst

def shapesOverlap (a b : NeedView) : Bool := (resourceKeys a).any (fun k => k ∈ resourceKeys b)

/-- The need demands some amount of the resource. -/
def Demands (n : NeedView) (key : String) : Prop :=
  ∃ amount, (key, amount) ∈ n.aggregateResources.getD []

theorem mem_resourceKeys (n : NeedView) (key : String) : key ∈ resourceKeys n ↔ Demands n key := by
  rw [resourceKeys, ((propertyOrder_perm _).map Prod.fst).mem_iff, List.mem_map]
  constructor
  · intro h
    obtain ⟨⟨k, amount⟩, hmem, rfl⟩ := h
    exact ⟨amount, hmem⟩
  · intro h
    obtain ⟨amount, hmem⟩ := h
    exact ⟨(key, amount), hmem, rfl⟩

theorem shapesOverlap_iff (a b : NeedView) :
    shapesOverlap a b = true ↔ ∃ key, Demands a key ∧ Demands b key := by
  simp only [shapesOverlap, List.any_eq_true, decide_eq_true_eq, mem_resourceKeys]

section References
variable {α : Type} [DecidableEq α]

/-- The condition of the filter. -/
def competes (view : α → NeedView) (n o : α) : Bool :=
  o ≠ n && 0 < (view o).claimedMachineCount && precedes (view o) (view n) &&
    shapesOverlap (view o) (view n)

/-- The comparator has no ties. -/
def byAhead (view : α → NeedView) (x y : α) : ExtRat :=
  if precedes (view x) (view y) then .fin (-1) else .fin 1

def competitorsFor (sorting : ObliviousSort) (view : α → NeedView) (n : α) (all : List α) : List α :=
  (sorting.sort (byAhead view) (all.filter (competes view n))).take 8

/-! ## The head of the queue -/

/-- Another need that claimed a machine, with higher priority or the same priority and an
earlier arrival, and with a resource that both demand. -/
structure Eligible (view : α → NeedView) (n o : α) : Prop where
  other : o ≠ n
  claimed : 0 < (view o).claimedMachineCount
  ahead : (view n).priority < (view o).priority ∨
    ((view o).priority = (view n).priority ∧ arrival (view o) < arrival (view n))
  overlaps : ∃ key, Demands (view o) key ∧ Demands (view n) key

omit [DecidableEq α] in
theorem before_byAhead (view : α → NeedView) :
    before (byAhead view) = fun x y => precedes (view x) (view y) :=
  before_ite fun _ _ => by decide

theorem competes_iff (view : α → NeedView) (n o : α) :
    competes view n o = true ↔ Eligible view n o := by
  simp only [competes, Bool.and_eq_true, decide_eq_true_eq, precedes_iff, shapesOverlap_iff]
  constructor
  · intro h
    exact ⟨h.1.1.1, h.1.1.2, h.1.2, h.2⟩
  · intro h
    exact ⟨⟨⟨h.other, h.claimed⟩, h.ahead⟩, h.overlaps⟩

/-- The result holds the first eight of the eligible needs. -/
theorem competitorsFor_isHead (sorting : ObliviousSort) (view : α → NeedView) (n : α)
    (all : List α) :
    ∃ order : List (Fin all.length), competitorsFor sorting view n all = order.map all.get ∧
      IsHead (fun x y => precedes (view x) (view y)) (Eligible view n) 8 all order := by
  have hweak : IsWeakOrder (before (byAhead view)) := by
    rw [before_byAhead]
    exact precedes_isWeakOrder.comap view
  obtain ⟨order, hvalues, hhead⟩ := sorting.take_isHead hweak (competes view n) 8 all
  simp only [competes_iff, before_byAhead] at hhead
  exact ⟨order, hvalues, hhead⟩

end References
end BigfleetDashboard.Pages
