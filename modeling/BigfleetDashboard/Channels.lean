import Mathlib.Data.List.Basic

/-!
# Buffered channels

A channel keeps the values sent to it in order, at most `capacity` of them. A send to a full
channel blocks and so does a receive from an empty one. A send to a closed channel panics, as
does closing it again; a closed channel that is empty yields no value, at once.
-/
namespace Channels

variable {α σ : Type} {capacity : ℕ}

structure Chan (α : Type) (capacity : ℕ) where
  buffer : List α
  closed : Bool
  fits : buffer.length ≤ capacity

inductive Outcome (σ : Type)
  | proceeds (next : σ)
  | blocks
  | panics

def Chan.make (α : Type) (capacity : ℕ) : Chan α capacity := ⟨[], false, Nat.zero_le capacity⟩

def Chan.send (ch : Chan α capacity) (v : α) : Outcome (Chan α capacity) :=
  if ch.closed then .panics
  else if room : ch.buffer.length < capacity then
    .proceeds ⟨ch.buffer ++ [v], false, by rw [List.length_append]; exact room⟩
  else .blocks

def Chan.close (ch : Chan α capacity) : Outcome (Chan α capacity) :=
  if ch.closed then .panics else .proceeds { ch with closed := true }

/-- What a receive yields, or nothing if it blocks. -/
def Chan.receive (ch : Chan α capacity) : Option (Option α × Chan α capacity) :=
  match h : ch.buffer with
  | v :: rest =>
    some (some v, ⟨rest, ch.closed, by
      have hfits := ch.fits
      rw [h, List.length_cons] at hfits
      omega⟩)
  | [] => if ch.closed then some (none, ch) else none

theorem Chan.receive_eq_some {ch next : Chan α capacity} {got : Option α}
    (h : ch.receive = some (got, next)) :
    (∃ v, got = some v ∧ ch.buffer = v :: next.buffer ∧ next.closed = ch.closed) ∨
      (got = none ∧ ch.buffer = [] ∧ ch.closed = true ∧ next = ch) := by
  unfold receive at h
  split at h
  next v rest hbuffer =>
    obtain ⟨rfl, rfl⟩ := Prod.mk.inj (Option.some.inj h)
    exact Or.inl ⟨v, rfl, hbuffer, rfl⟩
  next hbuffer =>
    split_ifs at h with hclosed
    obtain ⟨rfl, rfl⟩ := Prod.mk.inj (Option.some.inj h)
    exact Or.inr ⟨rfl, hbuffer, hclosed, rfl⟩

theorem Chan.receive_isSome {ch : Chan α capacity} (h : ch.buffer ≠ []) :
    ch.receive.isSome = true := by
  unfold receive
  split
  next => rfl
  next hbuffer => exact absurd hbuffer h

/-! ## A sender with room -/

/-- The channel is open and has room for `n` more values. -/
structure Chan.Room (ch : Chan α capacity) (n : ℕ) : Prop where
  isOpen : ch.closed = false
  enough : ch.buffer.length + n ≤ capacity

theorem Chan.room_make : (Chan.make α capacity).Room capacity := ⟨rfl, by simp [make]⟩

section Room
variable {ch next : Chan α capacity} {m n : ℕ}

theorem Chan.Room.mono (h : ch.Room n) (hmn : m ≤ n) : ch.Room m :=
  ⟨h.isOpen, Nat.le_trans (Nat.add_le_add_left hmn _) h.enough⟩

/-- A send that has room proceeds. -/
theorem Chan.Room.send (h : ch.Room (n + 1)) (v : α) :
    ∃ sent, ch.send v = .proceeds sent ∧ sent.buffer = ch.buffer ++ [v] ∧ sent.Room n := by
  have henough := h.enough
  have hroom : ch.buffer.length < capacity := by omega
  refine ⟨⟨ch.buffer ++ [v], false, by rw [List.length_append]; exact hroom⟩, ?_, rfl, rfl, ?_⟩
  · rw [Chan.send, if_neg (by rw [h.isOpen]; exact Bool.false_ne_true), dif_pos hroom]
  · rw [List.length_append, List.length_singleton]
    omega

theorem Chan.Room.close (h : ch.Room n) : ch.close = .proceeds { ch with closed := true } := by
  rw [Chan.close, if_neg (by rw [h.isOpen]; exact Bool.false_ne_true)]

/-- Whatever others receive, the room stays. -/
theorem Chan.Room.receive {got : Option α} (h : ch.Room n)
    (hreceive : ch.receive = some (got, next)) : next.Room n := by
  obtain ⟨v, -, hbuffer, hclosed⟩ | ⟨-, -, hclosed, -⟩ := Chan.receive_eq_some hreceive
  · have henough := h.enough
    rw [hbuffer, List.length_cons] at henough
    exact ⟨hclosed.trans h.isOpen, by omega⟩
  · rw [h.isOpen] at hclosed
    cases hclosed

end Room

end Channels
