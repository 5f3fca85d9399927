import Mathlib.Data.List.Basic
import Mathlib.Logic.Function.Basic

/-!
# Caches that build on demand

A value is asked for under a key. The call that builds the value stores it, and later
calls return what is stored; a build may fail, and then nothing is stored. The calls of a
run come from any number of callers, in the order in which they reach the cache.
-/
namespace BuildOnce

variable {κ ν ε : Type}

/-- The key that was asked for, the value that was built, if any, and what was returned. -/
structure Call (κ ν ε : Type) where
  key : κ
  built : Option ν
  result : Except ε ν

section
variable [DecidableEq κ]

inductive Step (cache : κ → Option ν) : Call κ ν ε → (κ → Option ν) → Prop
  | hit {k : κ} {v : ν} (stored : cache k = some v) : Step cache ⟨k, none, .ok v⟩ cache
  | fail {k : κ} {err : ε} (missing : cache k = none) : Step cache ⟨k, none, .error err⟩ cache
  | build {k : κ} {v : ν} (missing : cache k = none) :
      Step cache ⟨k, some v, .ok v⟩ (Function.update cache k (some v))

inductive Run : (κ → Option ν) → List (Call κ ν ε) → (κ → Option ν) → Prop
  | nil (cache : κ → Option ν) : Run cache [] cache
  | cons {cache next final : κ → Option ν} {call : Call κ ν ε} {calls : List (Call κ ν ε)}
      (first : Step cache call next) (rest : Run next calls final) :
      Run cache (call :: calls) final

/-- The number of values that were built under a key. -/
def builds (k : κ) (calls : List (Call κ ν ε)) : ℕ :=
  calls.countP (fun call => call.key = k ∧ call.built.isSome)

/-! ## One call -/

section Step
variable {cache next : κ → Option ν} {call : Call κ ν ε} (h : Step cache call next)
include h

/-- What is stored stays. -/
theorem Step.stored {k : κ} {v : ν} (hk : cache k = some v) : next k = some v := by
  cases h with
  | hit => exact hk
  | fail => exact hk
  | build missing =>
    rw [Function.update_of_ne, hk]
    intro heq
    rw [heq, missing] at hk
    cases hk

/-- What is returned is stored. -/
theorem Step.returned {v : ν} (hresult : call.result = .ok v) : next call.key = some v := by
  cases h with
  | hit stored => rw [stored, Except.ok.inj hresult]
  | fail => cases hresult
  | build => rw [Function.update_self, Except.ok.inj hresult]

/-- What is stored is returned, and nothing is built. -/
theorem Step.repeats {v : ν} (hstored : cache call.key = some v) :
    call.result = .ok v ∧ call.built = none := by
  cases h with
  | hit stored => exact ⟨congrArg Except.ok (Option.some.inj (stored.symm.trans hstored)), rfl⟩
  | fail missing => cases missing.symm.trans hstored
  | build missing => cases missing.symm.trans hstored

/-- A value that is built is returned. -/
theorem Step.returns_built {v : ν} (hbuilt : call.built = some v) : call.result = .ok v := by
  cases h with
  | hit => cases hbuilt
  | fail => cases hbuilt
  | build => rw [Option.some.inj hbuilt]

end Step

/-! ## Runs -/

theorem Run.append_iff {cache final : κ → Option ν} {before after : List (Call κ ν ε)} :
    Run cache (before ++ after) final ↔
      ∃ middle, Run cache before middle ∧ Run middle after final := by
  induction before generalizing cache with
  | nil =>
    constructor
    · intro h
      exact ⟨cache, .nil cache, h⟩
    · intro ⟨middle, hbefore, hafter⟩
      cases hbefore
      exact hafter
  | cons call before ih =>
    constructor
    · intro h
      cases h with
      | cons first rest =>
        obtain ⟨middle, hbefore, hafter⟩ := ih.mp rest
        exact ⟨middle, .cons first hbefore, hafter⟩
    · intro ⟨middle, hbefore, hafter⟩
      cases hbefore with
      | cons first rest => exact .cons first (ih.mpr ⟨middle, rest, hafter⟩)

theorem Run.snoc {cache middle final : κ → Option ν} {calls : List (Call κ ν ε)}
    {call : Call κ ν ε} (h : Run cache calls middle) (last : Step middle call final) :
    Run cache (calls ++ [call]) final :=
  Run.append_iff.mpr ⟨middle, h, .cons last (.nil final)⟩

section Run
variable {cache final : κ → Option ν} {calls : List (Call κ ν ε)}

theorem Run.stored (h : Run cache calls final) {k : κ} {v : ν} (hk : cache k = some v) :
    final k = some v := by
  induction h with
  | nil => exact hk
  | cons first _ ih => exact ih (first.stored hk)

/-- Every call for a stored value returns it. -/
theorem Run.repeats (h : Run cache calls final) {k : κ} {v : ν} (hk : cache k = some v) :
    ∀ call ∈ calls, call.key = k → call.result = .ok v ∧ call.built = none := by
  induction h with
  | nil => simp
  | cons first _ ih =>
    rw [List.forall_mem_cons]
    refine ⟨fun hkey => ?_, ih (first.stored hk)⟩
    rw [← hkey] at hk
    exact first.repeats hk

/-- After a success the value is stored. -/
theorem Run.stored_of_ok {before after : List (Call κ ν ε)} {call : Call κ ν ε} {v : ν}
    (h : Run cache (before ++ call :: after) final) (hresult : call.result = .ok v) :
    final call.key = some v := by
  obtain ⟨middle, -, hafter⟩ := Run.append_iff.mp h
  cases hafter with
  | cons first rest => exact rest.stored (first.returned hresult)

/-- After a success every call for the key returns the same value and builds none. -/
theorem Run.repeats_of_ok {before after : List (Call κ ν ε)} {call : Call κ ν ε} {v : ν}
    (h : Run cache (before ++ call :: after) final) (hresult : call.result = .ok v) :
    ∀ later ∈ after, later.key = call.key → later.result = .ok v ∧ later.built = none := by
  obtain ⟨middle, -, hafter⟩ := Run.append_iff.mp h
  cases hafter with
  | cons first rest => exact rest.repeats (first.returned hresult)

theorem Run.builds_eq_zero (h : Run cache calls final) {k : κ} {v : ν} (hk : cache k = some v) :
    builds k calls = 0 := by
  rw [builds, List.countP_eq_zero]
  intro call hcall
  rw [decide_eq_true_eq, not_and]
  intro hkey
  rw [(h.repeats hk call hcall hkey).2]
  exact Bool.false_ne_true

/-- No second value is built under a key. -/
theorem Run.builds_le_one (h : Run cache calls final) (k : κ) : builds k calls ≤ 1 := by
  induction h with
  | nil => exact Nat.zero_le 1
  | @cons cache next final call calls first rest ih =>
    rw [builds, List.countP_cons]
    split_ifs with hbuilt
    · rw [decide_eq_true_eq] at hbuilt
      obtain ⟨v, hv⟩ := Option.isSome_iff_exists.mp hbuilt.2
      have hstored := first.returned (first.returns_built hv)
      rw [hbuilt.1] at hstored
      have hnone := rest.builds_eq_zero hstored
      rw [builds] at hnone
      omega
    · exact ih

/-- What holds of every value that is built holds of every value stored or returned. -/
theorem Run.invariant {P : κ → ν → Prop} (h : Run cache calls final)
    (hcache : ∀ k v, cache k = some v → P k v)
    (hbuilt : ∀ call ∈ calls, ∀ v, call.built = some v → P call.key v) :
    (∀ k v, final k = some v → P k v) ∧
      ∀ call ∈ calls, ∀ v, call.result = .ok v → P call.key v := by
  induction h with
  | nil => exact ⟨hcache, by simp⟩
  | @cons cache next final call calls first rest ih =>
    rw [List.forall_mem_cons] at hbuilt ⊢
    have hnext : ∀ k v, next k = some v → P k v := by
      cases first with
      | hit => exact hcache
      | fail => exact hcache
      | @build k v missing =>
        intro x w hx
        by_cases hkey : x = k
        · subst hkey
          rw [Function.update_self] at hx
          exact hbuilt.1 w hx
        · rw [Function.update_of_ne hkey] at hx
          exact hcache x w hx
    obtain ⟨hstored, hreturned⟩ := ih hnext hbuilt.2
    exact ⟨hstored, fun v hv => hnext _ _ (first.returned hv), hreturned⟩

end Run

end

end BuildOnce
