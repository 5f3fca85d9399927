import BigfleetDashboard.PromClient
import BigfleetDashboard.ShardClient

/-!
# The server

What the handlers share: the backends they read, requests and failures, and the
translation of a backend's error into a response.
-/
namespace BigfleetDashboard.Handlers
open Go PromClient CoordClient

/-- One hint of a cluster about the capacity it could provision. -/
structure AvailableCapacity where
  name : String
  resources : GoMap String
  availableCount : Int
  availability : String
  cost : String
  requirements : List String

/-- The part of the kube client that the handlers use. -/
structure KubeReader where
  configured : Bool
  clusters : List String
  listAvailableCapacity : String → Except String (List AvailableCapacity)

/-- A kube client without a kubeconfig. -/
def KubeReader.unconfigured : KubeReader where
  configured := false
  clusters := []
  listAvailableCapacity _ := .error "kube client not configured: pass --kubeconfig"

structure Server where
  prom : PromClient.Client
  coord : CoordClient.Client
  kube : KubeReader
  shardNeeds : ShardClient.Client
  rt : Runtime

/-- A server that reaches no backend. -/
def Server.unwired : Server where
  prom := ⟨none⟩
  coord := CoordClient.Client.unconfigured
  kube := KubeReader.unconfigured
  shardNeeds := ⟨.ok (), fun _ => .error "no transport"⟩
  rt := Runtime.plain

/-- What the handlers read of a request: query parameters and path segments, empty if absent. -/
structure Request where
  query : String → String
  pathValue : String → String

/-- A handler that does not answer with a body wrote an error response, or panicked. -/
inductive Failure
  | response (status : ℕ) (message : String)
  | panic (message : String)
  deriving DecidableEq

def statusBadRequest : ℕ := 400
def statusNotFound : ℕ := 404
def statusBadGateway : ℕ := 502
def statusServiceUnavailable : ℕ := 503

theorem ok_bind {ε α β : Type} (a : α) (f : α → Except ε β) : (Except.ok a >>= f) = f a := rfl

theorem error_bind {ε α β : Type} (e : ε) (f : α → Except ε β) :
    ((Except.error e : Except ε α) >>= f) = .error e := rfl

/-- A step of a handler after which the rest runs only if it succeeded. -/
theorem bind_eq_ok_iff {ε α β : Type} {x : Except ε α} {f : α → Except ε β} {b : β} :
    (x >>= f) = .ok b ↔ ∃ a, x = .ok a ∧ f a = .ok b := by
  cases x with
  | error e => simp [error_bind]
  | ok a => simp [ok_bind]

theorem pure_eq_ok_iff {ε α : Type} {a b : α} : (pure a : Except ε α) = .ok b ↔ a = b := by
  change Except.ok a = .ok b ↔ a = b
  rw [Except.ok.injEq]

/-! ## Guards and errors of the backends -/

/-- The guard of every handler that needs Prometheus. -/
def requirePrometheus (s : Server) : Except Failure Unit :=
  if s.prom.configured then .ok ()
  else .error (.response statusServiceUnavailable
    "prometheus not configured: pass --prometheus-url")

theorem requirePrometheus_of_configured {s : Server} (h : s.prom.configured = true) :
    requirePrometheus s = .ok () := by
  simp only [requirePrometheus, h, if_true]

theorem requirePrometheus_of_api {s : Server} {api : PromClient.Api}
    (hapi : s.prom.api = some api) : requirePrometheus s = .ok () := by
  have hconfigured : s.prom.configured = true := by
    rw [PromClient.Client.configured, hapi]
    rfl
  exact requirePrometheus_of_configured hconfigured

/-- A failed query becomes a bad gateway naming the query. -/
def orBadGateway {α : Type} (message : String) : Except String α → Except Failure α
  | .ok a => .ok a
  | .error err => .error (.response statusBadGateway (message ++ err))

def orBadGatewayRange {α : Type} (message : String) : Except Abort α → Except Failure α
  | .ok a => .ok a
  | .error (.error err) => .error (.response statusBadGateway (message ++ err))
  | .error (.panic msg) => .error (.panic msg)

@[simp] theorem orBadGateway_eq_ok_iff {α : Type} (message : String) (x : Except String α) (a : α) :
    orBadGateway message x = .ok a ↔ x = .ok a := by
  cases x <;> simp [orBadGateway]

@[simp] theorem orBadGatewayRange_eq_ok_iff {α : Type} (message : String) (x : Except Abort α)
    (a : α) : orBadGatewayRange message x = .ok a ↔ x = .ok a := by
  cases x with
  | ok b => simp [orBadGatewayRange]
  | error e => cases e <;> simp [orBadGatewayRange]

def statusFromCoordErr : CoordError → ℕ
  | .notLeader => statusServiceUnavailable
  | .notConfigured => statusServiceUnavailable
  | .other _ => statusBadGateway

def requireCoordinator (s : Server) : Except Failure Unit :=
  if s.coord.configured then .ok ()
  else .error (.response statusServiceUnavailable
    "coordinator not configured: pass --coordinator-addr")

/-- A failed coordinator call becomes a response whose status tells a missing leader apart. -/
def orCoordError {α : Type} (message : String) : Except CoordError α → Except Failure α
  | .ok a => .ok a
  | .error err => .error (.response (statusFromCoordErr err) (message ++ err.text))

@[simp] theorem orCoordError_eq_ok_iff {α : Type} (message : String) (x : Except CoordError α)
    (a : α) : orCoordError message x = .ok a ↔ x = .ok a := by
  cases x <;> simp [orCoordError]

end BigfleetDashboard.Handlers
