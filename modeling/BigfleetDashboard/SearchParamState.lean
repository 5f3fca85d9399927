import BigfleetDashboard.FormParams
import Mathlib.Data.List.Induction
import Mathlib.Data.List.Nodup

/-!
# State in the query of the page's address

A filter of a page is bound to a parameter of the address, so an address can be shared. Its
value is the first setting of the parameter, or its fallback; writing the fallback or the
empty text removes the parameter. A write starts from the parameters as they were rendered
and replaces the whole query.
-/
namespace BigfleetDashboard.Pages
open FormParams

/-- `useSearchParamState(key, fallback)`. -/
structure Hook where
  key : String
  fallback : String
  deriving DecidableEq

namespace Hook

/-- The value that is rendered for a query. -/
def value (h : Hook) (params : Params) : String := (get params h.key).getD h.fallback

/-- The parameters after a write. -/
def write (h : Hook) (v : String) (prev : Params) : Params :=
  if v ≠ "" ∧ v ≠ h.fallback then FormParams.set h.key v prev else delete h.key prev

/-- `setValue`: the query of the address that is navigated to. -/
def setValue (h : Hook) (v : String) (rendered : Params) : List Char := serialize (h.write v rendered)

/-- What the hook reads after a value was written. -/
def shown (h : Hook) (v : String) : String := if v = "" then h.fallback else v

section Write
variable (h : Hook) (v : String) (params : Params)

theorem getAll_write :
    getAll (h.write v params) h.key = if v = "" ∨ v = h.fallback then [] else [v] := by
  unfold write
  by_cases hv : v = "" ∨ v = h.fallback
  · rw [if_neg (fun hw => hv.elim hw.1 hw.2), if_pos hv, getAll_delete_self]
  · rw [if_pos (not_or.mp hv), if_neg hv, getAll_set_self]

theorem value_write : h.value (h.write v params) = h.shown v := by
  rw [value, get_eq_head?, getAll_write, shown]
  by_cases hempty : v = ""
  · rw [if_pos (Or.inl hempty), if_pos hempty]
    rfl
  · rw [if_neg hempty]
    by_cases hfallback : v = h.fallback
    · rw [if_pos (Or.inr hfallback), hfallback]
      rfl
    · rw [if_neg (fun hv => hv.elim hempty hfallback)]
      rfl

/-- What is asked only of other names does not notice a write. -/
theorem filter_write {p : String × String → Bool} (hp : ∀ w, p (h.key, w) = false) :
    (h.write v params).filter p = params.filter p := by
  unfold write
  split_ifs
  · exact filter_set hp v params
  · exact filter_delete hp params

theorem getAll_write_of_ne {name : String} (hne : name ≠ h.key) :
    getAll (h.write v params) name = getAll params name := by
  apply getAll_congr
  apply filter_write
  intro w
  exact decide_eq_false (Ne.symm hne)

theorem value_write_of_ne {h' : Hook} (hne : h'.key ≠ h.key) :
    h'.value (h.write v params) = h'.value params := by
  rw [value, value, get_eq_head?, get_eq_head?, getAll_write_of_ne h v params hne]

end Write

end Hook

/-! ## Runs of writes -/

section Runs
variable (dec : TextDecoder)

/-- Every write is rendered before the next one: its address is parsed again. -/
def searchAfter (search : List Char) : List (Hook × String) → List Char
  | [] => search
  | (h, v) :: writes => searchAfter (h.setValue v (parse dec search)) writes

/-- The last value written to a name. -/
def lastWrite (name : String) (writes : List (Hook × String)) : Option String :=
  ((writes.filter (fun w => w.1.key = name)).getLast?).map Prod.snd

theorem searchAfter_append (search : List Char) (writes writes' : List (Hook × String)) :
    searchAfter dec search (writes ++ writes') =
      searchAfter dec (searchAfter dec search writes) writes' := by
  induction writes generalizing search with
  | nil => rfl
  | cons w writes ih => exact ih _

/-- A write shows in the parameters that are rendered next. -/
theorem parse_setValue (h : Hook) (v : String) (rendered : Params) :
    parse dec (h.setValue v rendered) = h.write v rendered := parse_serialize dec _

/-- What a run of writes leaves in the address. -/
structure Bound (hooks : List Hook) (search : List Char) (writes : List (Hook × String)) :
    Prop where
  value : ∀ h ∈ hooks, h.value (parse dec (searchAfter dec search writes)) =
    match lastWrite h.key writes with
    | none => h.value (parse dec search)
    | some v => h.shown v
  settings : ∀ h ∈ hooks, getAll (parse dec (searchAfter dec search writes)) h.key =
    match lastWrite h.key writes with
    | none => getAll (parse dec search) h.key
    | some v => if v = "" ∨ v = h.fallback then [] else [v]
  others : (parse dec (searchAfter dec search writes)).filter
      (fun e => e.1 ∉ hooks.map Hook.key) =
    (parse dec search).filter (fun e => e.1 ∉ hooks.map Hook.key)

theorem lastWrite_append_self {h : Hook} {v : String} (writes : List (Hook × String)) :
    lastWrite h.key (writes ++ [(h, v)]) = some v := by
  simp [lastWrite]

theorem lastWrite_append_of_ne {h : Hook} {v name : String} (hne : h.key ≠ name)
    (writes : List (Hook × String)) :
    lastWrite name (writes ++ [(h, v)]) = lastWrite name writes := by
  simp [lastWrite, hne]

/-- Every hook reads what was last written to it, and the other parameters stay. -/
theorem searchParams_bound {hooks : List Hook} (hkeys : (hooks.map Hook.key).Nodup)
    (search : List Char) {writes : List (Hook × String)} (hwrites : ∀ w ∈ writes, w.1 ∈ hooks) :
    Bound dec hooks search writes := by
  induction writes using List.reverseRecOn with
  | nil =>
    constructor
    case value => intro h _; rfl
    case settings => intro h _; rfl
    case others => rfl
  | append_singleton writes w ih =>
    obtain ⟨h, v⟩ := w
    have hmem : h ∈ hooks := hwrites (h, v) (by simp)
    have hprev := ih fun w hw => hwrites w (List.mem_append_left _ hw)
    have hafter : parse dec (searchAfter dec search (writes ++ [(h, v)])) =
        h.write v (parse dec (searchAfter dec search writes)) := by
      rw [searchAfter_append]
      exact parse_setValue dec h v _
    -- Another hook has another key.
    have hother : ∀ h' ∈ hooks, h' ≠ h → h.key ≠ h'.key := by
      intro h' hh' hne hkey
      exact hne (List.inj_on_of_nodup_map hkeys hh' hmem hkey.symm)
    constructor
    case value =>
      intro h' hh'
      rw [hafter]
      by_cases hsame : h' = h
      · rw [hsame, Hook.value_write, lastWrite_append_self]
      · have hne := hother h' hh' hsame
        rw [Hook.value_write_of_ne h v _ (Ne.symm hne), lastWrite_append_of_ne hne]
        exact hprev.value h' hh'
    case settings =>
      intro h' hh'
      rw [hafter]
      by_cases hsame : h' = h
      · rw [hsame, Hook.getAll_write, lastWrite_append_self]
      · have hne := hother h' hh' hsame
        rw [Hook.getAll_write_of_ne h v _ (Ne.symm hne), lastWrite_append_of_ne hne]
        exact hprev.settings h' hh'
    case others =>
      rw [hafter, Hook.filter_write, hprev.others]
      intro w
      exact decide_eq_false (not_not.mpr (List.mem_map_of_mem hmem))

/-- Bytes that are no text decode to the replacement character. -/
def replacingDecoder : TextDecoder where
  decode bs := (Percent.textOf bs).getD "\uFFFD"
  decode_bytesOf s := by rw [Percent.textOf_bytesOf]; rfl

theorem searchParams_bound_twice :
    Bound replacingDecoder [⟨"shard", ""⟩, ⟨"status", "all"⟩] "shard=a%20b&x=1&status=unmet".toList
      [(⟨"status", "all"⟩, "all"), (⟨"shard", ""⟩, "s&1"), (⟨"shard", ""⟩, "s=2")] :=
  searchParams_bound replacingDecoder (by decide) _ (by decide)

end Runs

end BigfleetDashboard.Pages
