import Mathlib.Data.List.Basic

/-!
# Computations with a log of requests

A computation that fails or returns, next to the list of the requests it sent.
The first failure ends it, so what was sent is a part of what would be sent by a
run without failures: `Follows` says that this part is an initial one.
-/
namespace BigfleetDashboard.RequestLog

variable {Q ε α β : Type}

/-- The requests in the order they were sent, and how the computation ended. -/
structure Logged (Q ε α : Type) where
  sent : List Q
  result : Except ε α

def Logged.bind (x : Logged Q ε α) (f : α → Logged Q ε β) : Logged Q ε β :=
  match x.result with
  | .ok a => ⟨x.sent ++ (f a).sent, (f a).result⟩
  | .error e => ⟨x.sent, .error e⟩

instance : Monad (Logged Q ε) where
  pure a := ⟨[], .ok a⟩
  bind := Logged.bind

/-- A step that sends nothing. -/
def check (x : Except ε α) : Logged Q ε α := ⟨[], x⟩

/-- A step that sends one request, with the outcome `x`. -/
def send (q : Q) (x : Except ε α) : Logged Q ε α := ⟨[q], x⟩

theorem result_pure (a : α) : (pure a : Logged Q ε α).result = pure a := rfl

/-- Forgetting the log gives the computation itself. -/
theorem result_bind (x : Logged Q ε α) (f : α → Logged Q ε β) :
    (x >>= f).result = x.result >>= fun a => (f a).result := by
  obtain ⟨sent, result⟩ := x
  cases result with
  | ok a => rfl
  | error e => rfl

theorem result_bind_congr {x : Logged Q ε α} {y : Except ε α} {f : α → Logged Q ε β}
    {g : α → Except ε β} (hxy : x.result = y) (hfg : ∀ a, (f a).result = g a) :
    (x >>= f).result = y >>= g := by
  rw [result_bind, hxy]
  exact congrArg (y >>= ·) (funext hfg)

theorem check_error_bind (e : ε) (f : α → Logged Q ε β) :
    ((check (.error e) : Logged Q ε α) >>= f) = ⟨[], .error e⟩ := rfl

theorem check_ok_bind (a : α) (f : α → Logged Q ε β) :
    ((check (.ok a) : Logged Q ε α) >>= f) = f a := rfl

/-- The requests `qs` are sent in order, and all of them unless the computation fails. -/
structure Follows (x : Logged Q ε α) (qs : List Q) : Prop where
  initial : x.sent <+: qs
  complete : ∀ a, x.result = .ok a → x.sent = qs

theorem follows_pure (a : α) : Follows (pure a : Logged Q ε α) [] :=
  ⟨List.prefix_rfl, fun _ _ => rfl⟩

theorem follows_send {q : Q} {qs : List Q} {x : Except ε α} {f : α → Logged Q ε β}
    (h : ∀ a, Follows (f a) qs) : Follows (send q x >>= f) (q :: qs) := by
  cases x with
  | ok a =>
    constructor
    · exact List.cons_prefix_cons.mpr ⟨rfl, (h a).initial⟩
    · intro b hb
      exact congrArg (q :: ·) ((h a).complete b hb)
  | error e =>
    constructor
    · exact List.prefix_append [q] qs
    · intro b hb
      have hresult : (send q (.error e) >>= f).result = .error e := rfl
      rw [hresult] at hb
      cases hb

end BigfleetDashboard.RequestLog
