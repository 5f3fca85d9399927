import Mathlib.Algebra.Order.BigOperators.Group.Finset
import Mathlib.Data.Fintype.BigOperators
import Mathlib.Logic.Relation
import Mathlib.Tactic.Linarith

/-!
# Bounded fan-out over slots

A caller starts one worker for each slot of an array and waits until all have
finished. A worker takes a token from a channel of fixed capacity, runs a body
that reads the outside and writes its own slot, returns the token, and reports
that it is done. The steps of the workers interleave in any order.

The answers of the outside are given for each worker, so the result of a run can
be compared with the evaluation of each body alone.
-/
namespace BigfleetDashboard.FanOut
open scoped BigOperators

variable {κ α σ : Type} {n : ℕ}

/-! ## Bodies -/

/-- What a worker does while it holds a token: it writes its slot, or it asks `κ`
and goes on with the answer. An early return is a branch that ends. -/
inductive Body (κ α σ : Type) where
  | ret
  | write (f : σ → σ) (rest : Body κ α σ)
  | read (q : κ) (rest : α → Body κ α σ)

/-- The slot after the body ran alone. -/
def Body.run (answer : κ → α) : Body κ α σ → σ → σ
  | .ret, x => x
  | .write f rest, x => rest.run answer (f x)
  | .read q rest, x => (rest (answer q)).run answer x

/-- Where a worker is. It holds a token exactly while it runs. -/
inductive Phase (κ α σ : Type) where
  | unstarted
  | waiting
  | running (rest : Body κ α σ)
  | released
  | finished

/-- The tokens a worker holds. -/
def Phase.held : Phase κ α σ → ℕ
  | .running _ => 1
  | _ => 0

/-- What a worker contributes to the count the caller waits for. -/
def Phase.counted : Phase κ α σ → ℕ
  | .unstarted => 0
  | .finished => 0
  | _ => 1

/-- The part of the body that is still to run. -/
def Phase.remaining (body : Body κ α σ) : Phase κ α σ → Body κ α σ
  | .unstarted => body
  | .waiting => body
  | .running rest => rest
  | .released => .ret
  | .finished => .ret

/-! ## States and steps -/

/-- The program: the capacity of the channel, one body for each slot, the content of
a fresh slot, and the answers each worker gets. -/
structure Program (n : ℕ) (κ α σ : Type) where
  capacity : ℕ
  body : Fin n → Body κ α σ
  zero : σ
  answer : Fin n → κ → α

/-- `tokens` is the fill of the channel, `count` the number the caller waits to
become zero, and `response` what it sent once it stopped waiting. -/
structure State (n : ℕ) (κ α σ : Type) where
  spawned : ℕ
  phase : Fin n → Phase κ α σ
  tokens : ℕ
  count : ℕ
  slots : Fin n → σ
  response : Option (Fin n → σ)

def Program.init (p : Program n κ α σ) : State n κ α σ :=
  { spawned := 0
    phase := fun _ => .unstarted
    tokens := 0
    count := 0
    slots := fun _ => p.zero
    response := none }

/-- Move worker `i` to another phase. -/
def State.move (s : State n κ α σ) (i : Fin n) (ph : Phase κ α σ) : State n κ α σ :=
  { s with phase := Function.update s.phase i ph }

@[simp] theorem State.move_self (s : State n κ α σ) (i : Fin n) (ph : Phase κ α σ) :
    (s.move i ph).phase i = ph := by
  simp [State.move]

theorem State.move_of_ne (s : State n κ α σ) {i j : Fin n} (h : j ≠ i) (ph : Phase κ α σ) :
    (s.move i ph).phase j = s.phase j := by
  simp [State.move, h]

/-- One step of the caller or of a worker. Returning a token blocks on an empty
channel, and a count of zero cannot go down. -/
inductive Step (p : Program n κ α σ) : State n κ α σ → State n κ α σ → Prop
  | spawn {s : State n κ α σ} (i : Fin n) (next : s.spawned = i) :
      Step p s { s.move i .waiting with spawned := s.spawned + 1, count := s.count + 1 }
  | acquire {s : State n κ α σ} (i : Fin n) (at_wait : s.phase i = .waiting)
      (free : s.tokens < p.capacity) :
      Step p s { s.move i (.running (p.body i)) with tokens := s.tokens + 1 }
  | write {s : State n κ α σ} (i : Fin n) (f : σ → σ) (rest : Body κ α σ)
      (at_write : s.phase i = .running (.write f rest)) :
      Step p s { s.move i (.running rest) with
        slots := Function.update s.slots i (f (s.slots i)) }
  | read {s : State n κ α σ} (i : Fin n) (q : κ) (rest : α → Body κ α σ)
      (at_read : s.phase i = .running (.read q rest)) :
      Step p s (s.move i (.running (rest (p.answer i q))))
  | release {s : State n κ α σ} (i : Fin n) (at_ret : s.phase i = .running .ret)
      (filled : 0 < s.tokens) :
      Step p s { s.move i .released with tokens := s.tokens - 1 }
  | done {s : State n κ α σ} (i : Fin n) (at_done : s.phase i = .released)
      (positive : 0 < s.count) :
      Step p s { s.move i .finished with count := s.count - 1 }
  | respond {s : State n κ α σ} (all : s.spawned = n) (waited : s.count = 0)
      (open_ : s.response = none) :
      Step p s { s with response := some s.slots }

def Reachable (p : Program n κ α σ) : State n κ α σ → Prop :=
  Relation.ReflTransGen (Step p) p.init

/-- The number of workers between acquire and release. -/
def State.holders (s : State n κ α σ) : ℕ := ∑ i, (s.phase i).held

/-! ## The invariant -/

/-- Tokens and count say where the workers are, and what is left of each body turns
its slot into the result of the whole body. -/
structure Inv (p : Program n κ α σ) (s : State n κ α σ) : Prop where
  unstarted : ∀ i : Fin n, s.phase i = .unstarted ↔ s.spawned ≤ i
  spawned_le : s.spawned ≤ n
  tokens_eq : s.tokens = s.holders
  tokens_le : s.tokens ≤ p.capacity
  count_eq : s.count = ∑ i, (s.phase i).counted
  slots : ∀ i, ((s.phase i).remaining (p.body i)).run (p.answer i) (s.slots i) =
    (p.body i).run (p.answer i) p.zero
  response : ∀ out, s.response = some out → (∀ i, s.phase i = .finished) ∧ out = s.slots

/-- A move changes one summand. -/
theorem sum_move {s : State n κ α σ} {i : Fin n} {ph : Phase κ α σ} (h : s.phase i = ph)
    (ph' : Phase κ α σ) (w : Fin n → Phase κ α σ → ℕ) :
    ∑ j, w j ((s.move i ph').phase j) + w i ph = ∑ j, w j (s.phase j) + w i ph' := by
  have hafter := Finset.add_sum_erase _ (fun j => w j ((s.move i ph').phase j)) (Finset.mem_univ i)
  have hbefore := Finset.add_sum_erase _ (fun j => w j (s.phase j)) (Finset.mem_univ i)
  have hrest : ∑ j ∈ Finset.univ.erase i, w j ((s.move i ph').phase j) =
      ∑ j ∈ Finset.univ.erase i, w j (s.phase j) := by
    apply Finset.sum_congr rfl
    intro j hj
    rw [s.move_of_ne (Finset.ne_of_mem_erase hj)]
  rw [s.move_self] at hafter
  rw [h] at hbefore
  omega

theorem inv_init (p : Program n κ α σ) : Inv p p.init := by
  constructor
  case unstarted => simp [Program.init]
  case spawned_le => exact Nat.zero_le n
  case tokens_eq => simp [Program.init, State.holders, Phase.held]
  case tokens_le => exact Nat.zero_le p.capacity
  case count_eq => simp [Program.init, Phase.counted]
  case slots => exact fun i => rfl
  case response => simp [Program.init]

/-- What holds of the moved worker and of the others holds of all. -/
theorem forall_move {s : State n κ α σ} {i : Fin n} {ph : Phase κ α σ}
    {P : Fin n → Phase κ α σ → Prop} (hi : P i ph) (h : ∀ j, j ≠ i → P j (s.phase j)) (j : Fin n) :
    P j ((s.move i ph).phase j) := by
  by_cases hj : j = i
  · subst hj
    rw [s.move_self]
    exact hi
  · rw [s.move_of_ne hj]
    exact h j hj

namespace Inv
variable {p : Program n κ α σ} {s : State n κ α σ}

/-- Nobody moves once the caller has responded. -/
theorem response_none (h : Inv p s) {i : Fin n} (hi : s.phase i ≠ .finished) :
    s.response = none := by
  cases hout : s.response with
  | none => rfl
  | some out => exact absurd ((h.response out hout).1 i) hi

/-- A worker that was started and moves on stays started. -/
theorem unstarted_move (h : Inv p s) {i : Fin n} {ph : Phase κ α σ} (hi : s.phase i ≠ .unstarted)
    (hph : ph ≠ .unstarted) (j : Fin n) :
    (s.move i ph).phase j = .unstarted ↔ s.spawned ≤ j := by
  refine forall_move (P := fun j ph => ph = .unstarted ↔ s.spawned ≤ j) ?_ (fun j _ => h.unstarted j) j
  constructor
  · exact fun hbad => absurd hbad hph
  · exact fun hle => absurd ((h.unstarted i).mpr hle) hi

/-- A move that keeps what is left to run keeps the outcome of every slot. -/
theorem slots_move (h : Inv p s) {i : Fin n} {ph : Phase κ α σ}
    (hi : (ph.remaining (p.body i)).run (p.answer i) (s.slots i) =
      ((s.phase i).remaining (p.body i)).run (p.answer i) (s.slots i)) (j : Fin n) :
    (((s.move i ph).phase j).remaining (p.body j)).run (p.answer j) (s.slots j) =
      (p.body j).run (p.answer j) p.zero := by
  refine forall_move (P := fun j ph => (ph.remaining (p.body j)).run (p.answer j) (s.slots j) =
    (p.body j).run (p.answer j) p.zero) ?_ (fun j _ => h.slots j) j
  rw [hi]
  exact h.slots i

/-- A step of a started worker that has not finished: what it changes of tokens and
count is what its phases hold and count. -/
theorem of_move (h : Inv p s) {s' : State n κ α σ} (i : Fin n) (ph : Phase κ α σ)
    (hstarted : s.phase i ≠ .unstarted) (hopen : s.phase i ≠ .finished) (hph : ph ≠ .unstarted)
    (hphase : s'.phase = (s.move i ph).phase) (hspawned : s'.spawned = s.spawned)
    (hresponse : s'.response = s.response)
    (htokens : s'.tokens + (s.phase i).held = s.tokens + ph.held)
    (hcapacity : s'.tokens ≤ p.capacity)
    (hcount : s'.count + (s.phase i).counted = s.count + ph.counted)
    (hslots : ∀ j, ((s'.phase j).remaining (p.body j)).run (p.answer j) (s'.slots j) =
      (p.body j).run (p.answer j) p.zero) : Inv p s' := by
  constructor
  case unstarted =>
    intro j
    rw [hphase, hspawned]
    exact h.unstarted_move hstarted hph j
  case spawned_le => exact hspawned ▸ h.spawned_le
  case tokens_eq =>
    have hsum := sum_move (s := s) (i := i) rfl ph (fun _ => Phase.held)
    have heq := h.tokens_eq
    rw [State.holders] at heq
    rw [State.holders, hphase]
    omega
  case tokens_le => exact hcapacity
  case count_eq =>
    have hsum := sum_move (s := s) (i := i) rfl ph (fun _ => Phase.counted)
    have heq := h.count_eq
    rw [hphase]
    omega
  case slots => exact hslots
  case response =>
    intro out hout
    rw [hresponse, h.response_none hopen] at hout
    cases hout

/-- Once all are started and the count is zero, all have finished. -/
theorem finished (h : Inv p s) (hall : s.spawned = n) (hcount : s.count = 0) (i : Fin n) :
    s.phase i = .finished := by
  have hstarted : s.phase i ≠ .unstarted := by
    intro hbad
    have hle := (h.unstarted i).mp hbad
    omega
  have hsum : ∑ j, (s.phase j).counted = 0 := by rw [← h.count_eq, hcount]
  have hzero := (Finset.sum_eq_zero_iff.mp hsum) i (Finset.mem_univ i)
  cases hphase : s.phase i with
  | unstarted => exact absurd hphase hstarted
  | finished => rfl
  | waiting => simp [hphase, Phase.counted] at hzero
  | running rest => simp [hphase, Phase.counted] at hzero
  | released => simp [hphase, Phase.counted] at hzero

theorem spawn (h : Inv p s) (i : Fin n) (next : s.spawned = i) :
    Inv p { s.move i .waiting with spawned := s.spawned + 1, count := s.count + 1 } := by
  have hi : s.phase i = .unstarted := (h.unstarted i).mpr (by omega)
  constructor
  case unstarted =>
    refine forall_move (P := fun j ph => ph = .unstarted ↔ s.spawned + 1 ≤ j) ?_ ?_
    · simp only [reduceCtorEq, false_iff]
      omega
    · intro j hj
      have hne : (j : ℕ) ≠ i := fun hval => hj (Fin.ext hval)
      rw [h.unstarted j]
      omega
  case spawned_le =>
    show s.spawned + 1 ≤ n
    omega
  case tokens_eq =>
    have hsum : ∑ j, ((s.move i .waiting).phase j).held + 0 = s.holders + 0 :=
      sum_move hi .waiting (fun _ => Phase.held)
    show s.tokens = ∑ j, ((s.move i .waiting).phase j).held
    rw [h.tokens_eq]
    omega
  case tokens_le => exact h.tokens_le
  case count_eq =>
    have hsum : ∑ j, ((s.move i .waiting).phase j).counted + 0 = ∑ j, (s.phase j).counted + 1 :=
      sum_move hi .waiting (fun _ => Phase.counted)
    show s.count + 1 = ∑ j, ((s.move i .waiting).phase j).counted
    rw [h.count_eq]
    omega
  case slots => exact h.slots_move (by rw [hi]; rfl)
  case response =>
    intro out hout
    have hnone := h.response_none (i := i) (by rw [hi]; exact fun hbad => by cases hbad)
    rw [show s.response = some out from hout] at hnone
    cases hnone

/-- Every step keeps the invariant. -/
theorem step (h : Inv p s) {s' : State n κ α σ} (hstep : Step p s s') : Inv p s' := by
  cases hstep with
  | spawn i next => exact h.spawn i next
  | acquire i at_wait free =>
    refine h.of_move i (.running (p.body i)) ?_ ?_ ?_ rfl rfl rfl ?_ free ?_ ?_
    · simp [at_wait]
    · simp [at_wait]
    · simp
    · simp [at_wait, Phase.held]
    · simp [at_wait, Phase.counted, State.move]
    · exact h.slots_move (by rw [at_wait]; rfl)
  | write i f rest at_write =>
    refine h.of_move i (.running rest) ?_ ?_ ?_ rfl rfl rfl ?_ h.tokens_le ?_ ?_
    · simp [at_write]
    · simp [at_write]
    · simp
    · simp [at_write, Phase.held, State.move]
    · simp [at_write, Phase.counted, State.move]
    · intro j
      have hj := h.slots j
      by_cases hji : j = i
      · subst hji
        rw [at_write] at hj
        simpa [State.move, Phase.remaining, Body.run] using hj
      · simpa [State.move, hji] using hj
  | read i q rest at_read =>
    refine h.of_move i (.running (rest (p.answer i q))) ?_ ?_ ?_ rfl rfl rfl ?_
      h.tokens_le ?_ ?_
    · simp [at_read]
    · simp [at_read]
    · simp
    · simp [at_read, Phase.held, State.move]
    · simp [at_read, Phase.counted, State.move]
    · exact h.slots_move (by rw [at_read]; rfl)
  | release i at_ret filled =>
    have hle := h.tokens_le
    refine h.of_move i .released ?_ ?_ ?_ rfl rfl rfl ?_ ?_ ?_ ?_
    · simp [at_ret]
    · simp [at_ret]
    · simp
    · simp only [at_ret, Phase.held]
      omega
    · simp only
      omega
    · simp [at_ret, Phase.counted, State.move]
    · exact h.slots_move (by rw [at_ret]; rfl)
  | done i at_done positive =>
    refine h.of_move i .finished ?_ ?_ ?_ rfl rfl rfl ?_ h.tokens_le ?_ ?_
    · simp [at_done]
    · simp [at_done]
    · simp
    · simp [at_done, Phase.held, State.move]
    · simp only [at_done, Phase.counted]
      omega
    · exact h.slots_move (by rw [at_done]; rfl)
  | respond all waited open_ =>
    exact { h with
      response := fun out hout => ⟨h.finished all waited, (Option.some.inj hout).symm⟩ }

end Inv

theorem inv_of_reachable {p : Program n κ α σ} {s : State n κ α σ} (h : Reachable p s) :
    Inv p s := by
  induction h with
  | refl => exact inv_init p
  | tail _ hstep ih => exact ih.step hstep

/-! ## Every run ends -/

/-- The steps of a body. -/
def Body.steps (answer : κ → α) : Body κ α σ → ℕ
  | .ret => 0
  | .write _ rest => rest.steps answer + 1
  | .read q rest => (rest (answer q)).steps answer + 1

/-- The steps a worker has left. -/
def Phase.left (answer : κ → α) (body : Body κ α σ) : Phase κ α σ → ℕ
  | .unstarted => body.steps answer + 4
  | .waiting => body.steps answer + 3
  | .running rest => rest.steps answer + 2
  | .released => 1
  | .finished => 0

/-- The steps that workers and caller have left. -/
def State.left (p : Program n κ α σ) (s : State n κ α σ) : ℕ :=
  ∑ i, (s.phase i).left (p.answer i) (p.body i) + if s.response.isNone then 1 else 0

/-- A move to the next phase takes one of the steps left. -/
theorem left_move {p : Program n κ α σ} {s s' : State n κ α σ} {i : Fin n} {ph ph' : Phase κ α σ}
    (hi : s.phase i = ph) (hphase : s'.phase = (s.move i ph').phase)
    (hresponse : s'.response = s.response)
    (hleft : ph'.left (p.answer i) (p.body i) + 1 = ph.left (p.answer i) (p.body i)) :
    s'.left p + 1 = s.left p := by
  have hsum := sum_move hi ph' (fun j => Phase.left (p.answer j) (p.body j))
  simp only [State.left, hphase, hresponse]
  omega

theorem Step.left_succ {p : Program n κ α σ} {s s' : State n κ α σ} (h : Inv p s)
    (hstep : Step p s s') : s'.left p + 1 = s.left p := by
  cases hstep with
  | spawn i next => exact left_move ((h.unstarted i).mpr (by omega)) rfl rfl rfl
  | acquire i at_wait free => exact left_move at_wait rfl rfl rfl
  | write i f rest at_write => exact left_move at_write rfl rfl rfl
  | read i q rest at_read => exact left_move at_read rfl rfl rfl
  | release i at_ret filled => exact left_move at_ret rfl rfl rfl
  | done i at_done positive => exact left_move at_done rfl rfl rfl
  | respond all waited open_ => simp [State.left, open_]

/-- The steps taken and the steps left add up to those of the start. -/
theorem run_left {p : Program n κ α σ} {run : ℕ → State n κ α σ} (hinit : run 0 = p.init)
    (hrun : ∀ k, Step p (run k) (run (k + 1))) (k : ℕ) :
    Inv p (run k) ∧ (run k).left p + k = p.init.left p := by
  induction k with
  | zero =>
    rw [hinit]
    exact ⟨inv_init p, rfl⟩
  | succ k ih =>
    obtain ⟨hinv, hleft⟩ := ih
    have hstep := (hrun k).left_succ hinv
    exact ⟨hinv.step (hrun k), by omega⟩

theorem no_endless_run {p : Program n κ α σ} {run : ℕ → State n κ α σ} (hinit : run 0 = p.init) :
    ¬ ∀ k, Step p (run k) (run (k + 1)) := by
  intro hrun
  have hleft := (run_left hinit hrun (p.init.left p + 1)).2
  omega

/-! ## What every run has -/

section Runs
variable {p : Program n κ α σ} {s : State n κ α σ}

/-- The channel bounds how many workers run at once. -/
theorem holders_le (h : Reachable p s) : s.holders ≤ p.capacity := by
  have hinv := inv_of_reachable h
  rw [← hinv.tokens_eq]
  exact hinv.tokens_le

/-- A worker that holds a token has a step. -/
theorem Inv.running_step (h : Inv p s) {i : Fin n} {rest : Body κ α σ}
    (hi : s.phase i = .running rest) : ∃ s', Step p s s' := by
  cases rest with
  | write f rest => exact ⟨_, .write i f rest hi⟩
  | read q rest => exact ⟨_, .read i q rest hi⟩
  | ret =>
    have hpos : 0 < s.tokens := by
      rw [h.tokens_eq]
      have hle := Finset.single_le_sum (f := fun j => (s.phase j).held) (fun j _ => Nat.zero_le _)
        (Finset.mem_univ i)
      simp only [hi, Phase.held] at hle
      exact hle
    exact ⟨_, .release i hi hpos⟩

/-- Until the caller has responded, somebody can move. -/
theorem progress (hcap : 0 < p.capacity) (h : Reachable p s) (hopen : s.response = none) :
    ∃ s', Step p s s' := by
  have hinv := inv_of_reachable h
  by_cases hspawned : s.spawned < n
  · exact ⟨_, .spawn ⟨s.spawned, hspawned⟩ rfl⟩
  have hall : s.spawned = n := by
    have hle := hinv.spawned_le
    omega
  by_cases hcount : s.count = 0
  · exact ⟨_, .respond hall hcount hopen⟩
  have hpos : ∑ i, (s.phase i).counted ≠ 0 := by
    rw [← hinv.count_eq]
    exact hcount
  obtain ⟨i, -, hi⟩ := Finset.exists_ne_zero_of_sum_ne_zero hpos
  cases hphase : s.phase i with
  | unstarted => simp [hphase, Phase.counted] at hi
  | finished => simp [hphase, Phase.counted] at hi
  | running rest => exact hinv.running_step hphase
  | released => exact ⟨_, .done i hphase (Nat.pos_of_ne_zero hcount)⟩
  | waiting =>
    -- either the channel has room, or somebody holds a token and can go on
    by_cases hfree : s.tokens < p.capacity
    · exact ⟨_, .acquire i hphase hfree⟩
    have hheld : s.holders ≠ 0 := by
      rw [← hinv.tokens_eq]
      omega
    obtain ⟨j, -, hj⟩ := Finset.exists_ne_zero_of_sum_ne_zero hheld
    cases hphase_j : s.phase j with
    | running rest => exact hinv.running_step hphase_j
    | unstarted => simp [hphase_j, Phase.held] at hj
    | waiting => simp [hphase_j, Phase.held] at hj
    | released => simp [hphase_j, Phase.held] at hj
    | finished => simp [hphase_j, Phase.held] at hj

/-- The response holds in every slot what its worker alone would have left there. -/
theorem response_eq (h : Reachable p s) {out : Fin n → σ} (hout : s.response = some out)
    (i : Fin n) : out i = (p.body i).run (p.answer i) p.zero := by
  have hinv := inv_of_reachable h
  obtain ⟨hfinished, rfl⟩ := hinv.response out hout
  have hslot := hinv.slots i
  rw [hfinished i] at hslot
  exact hslot

end Runs

/-- What a caller can rely on, whatever the schedule and whatever the bodies leave
open (`ω`): at most `capacity` workers run, somebody can move until the response is
sent and no run is endless, entry `i` is the evaluation of worker `i` alone, and it
does not depend on what another worker was answered. -/
structure ScheduleIndependent {ω : Type*} (capacity : ℕ) (zero : σ) (body : ω → Fin n → Body κ α σ)
    (entry : Fin n → (κ → α) → σ) : Prop where
  bounded : ∀ (o : ω) (answer : Fin n → κ → α) (s : State n κ α σ),
    Reachable ⟨capacity, body o, zero, answer⟩ s → s.holders ≤ capacity
  live : ∀ (o : ω) (answer : Fin n → κ → α) (s : State n κ α σ),
    Reachable ⟨capacity, body o, zero, answer⟩ s → s.response = none →
      ∃ s', Step ⟨capacity, body o, zero, answer⟩ s s'
  ends : ∀ (o : ω) (answer : Fin n → κ → α) (run : ℕ → State n κ α σ),
    run 0 = Program.init ⟨capacity, body o, zero, answer⟩ →
      ¬ ∀ k, Step ⟨capacity, body o, zero, answer⟩ (run k) (run (k + 1))
  sequential : ∀ (o : ω) (answer : Fin n → κ → α) (s : State n κ α σ) (out : Fin n → σ),
    Reachable ⟨capacity, body o, zero, answer⟩ s → s.response = some out →
      ∀ i, out i = entry i (answer i)
  isolated : ∀ (o o' : ω) (answer answer' : Fin n → κ → α) (j : Fin n),
    (∀ i, i ≠ j → answer i = answer' i) →
      ∀ (s s' : State n κ α σ) (out out' : Fin n → σ),
        Reachable ⟨capacity, body o, zero, answer⟩ s → s.response = some out →
        Reachable ⟨capacity, body o', zero, answer'⟩ s' → s'.response = some out' →
          ∀ i, i ≠ j → out i = out' i

/-- A caller relies on its workers once each body alone evaluates to its entry. -/
theorem scheduleIndependent {ω : Type*} {capacity : ℕ} {zero : σ} {body : ω → Fin n → Body κ α σ}
    {entry : Fin n → (κ → α) → σ} (hcap : 0 < capacity)
    (hrun : ∀ o i answer, (body o i).run answer zero = entry i answer) :
    ScheduleIndependent capacity zero body entry := by
  constructor
  case bounded => exact fun o answer s h => holders_le h
  case live => exact fun o answer s h hopen => progress hcap h hopen
  case ends => exact fun o answer run hinit => no_endless_run hinit
  case sequential =>
    intro o answer s out h hout i
    rw [response_eq h hout i]
    exact hrun o i (answer i)
  case isolated =>
    intro o o' answer answer' j hsame s s' out out' h hout h' hout' i hi
    rw [response_eq h hout i, response_eq h' hout' i]
    show (body o i).run (answer i) zero = (body o' i).run (answer' i) zero
    rw [hrun, hrun, hsame i hi]

end BigfleetDashboard.FanOut
