import BigfleetDashboard.BuildOnce
import BigfleetDashboard.ClusterCounts
import BigfleetDashboard.FallibleLoops
import BigfleetDashboard.PodQueries

/-!
# The clients of the clusters

Package `kubeclient` makes a REST config for every context of a kubeconfig at the start,
and the client of a cluster when it is first asked for. The clients are kept under a lock
that all requests share.
-/
namespace BigfleetDashboard.KubeCache
open Go BuildOnce
open Handlers (quoteRunes)

variable {ρ ν : Type}

/-! ## The client of all clusters -/

/-- A kubeconfig. `clientConfig` makes the REST config of a context. -/
structure RawConfig (ρ : Type) where
  contexts : List String
  nodup : contexts.Nodup
  clientConfig : String → Except String ρ

inductive NewError
  | load (err : String)
  | restConfig (context err : String)
  deriving DecidableEq

def NewError.text (isPrint : Char → Bool) : NewError → String
  | .load err => "load kubeconfig: " ++ err
  | .restConfig context err =>
    "build REST config for context " ++ quoteRunes isPrint context ++ ": " ++ err

inductive ClientError
  | notConfigured
  | unknownCluster (cluster : String)
  | build (cluster err : String)
  deriving DecidableEq

def ClientError.text (isPrint : Char → Bool) : ClientError → String
  | .notConfigured => "kube client not configured: pass --kubeconfig"
  | .unknownCluster cluster => "unknown cluster " ++ quoteRunes isPrint cluster
  | .build cluster err => "build dynamic client for " ++ quoteRunes isPrint cluster ++ ": " ++ err

structure Client (ρ ν : Type) where
  kubeconfig : String
  configs : OrderedMap String ρ
  clients : OrderedMap String ν
  deriving DecidableEq

/-- The body of the loop over the contexts. -/
def addConfig (raw : RawConfig ρ) (configs : OrderedMap String ρ) (name : String) :
    Except NewError (OrderedMap String ρ) :=
  match raw.clientConfig name with
  | .error err => .error (.restConfig name err)
  | .ok cfg => .ok (configs.set name cfg)

def Client.new (rt : Runtime) (loadFromFile : String → Except String (RawConfig ρ))
    (kubeconfigPath : String) : Except NewError (Client ρ ν) :=
  if kubeconfigPath = "" then .ok ⟨"", .empty, .empty⟩
  else
    match loadFromFile kubeconfigPath with
    | .error err => .error (.load err)
    | .ok raw =>
      match (rt.mapOrder 0 raw.contexts).foldlM (addConfig raw) .empty with
      | .error err => .error err
      | .ok configs => .ok ⟨kubeconfigPath, configs, .empty⟩

def Client.configured (c : Client ρ ν) : Bool := c.kubeconfig ≠ ""

/-- What a call of `clientFor` returns, the client that was built for it, if any, and what
it leaves behind. -/
structure Outcome (ρ ν : Type) where
  result : Except ClientError ν
  built : Option ν
  client : Client ρ ν

/-- The part of `clientFor` under the lock. -/
def Client.locked (newForConfig : ρ → Except String ν) (c : Client ρ ν) (cluster : String) :
    Outcome ρ ν :=
  match c.clients.get? cluster with
  | some cl => ⟨.ok cl, none, c⟩
  | none =>
    match c.configs.get? cluster with
    | none => ⟨.error (.unknownCluster cluster), none, c⟩
    | some cfg =>
      match newForConfig cfg with
      | .error err => ⟨.error (.build cluster err), none, c⟩
      | .ok cl => ⟨.ok cl, some cl, { c with clients := c.clients.set cluster cl }⟩

def Client.clientFor (newForConfig : ρ → Except String ν) (c : Client ρ ν) (cluster : String) :
    Outcome ρ ν :=
  if c.configured then c.locked newForConfig cluster
  else ⟨.error .notConfigured, none, c⟩

/-! ## What a kubeconfig yields -/

/-- The names of the contexts that the kubeconfig at a path has. -/
def contextNames (loadFromFile : String → Except String (RawConfig ρ)) (kubeconfigPath : String) :
    List String :=
  if kubeconfigPath = "" then []
  else
    match loadFromFile kubeconfigPath with
    | .error _ => []
    | .ok raw => raw.contexts

/-- The loop stores the REST config of every name. -/
theorem get?_addConfigs {raw : RawConfig ρ} {names : List String} {m r : OrderedMap String ρ}
    (h : names.foldlM (addConfig raw) m = .ok r) (name : String) :
    r.get? name = if name ∈ names then (raw.clientConfig name).toOption else m.get? name := by
  induction names generalizing m with
  | nil =>
    obtain rfl := Except.ok.inj h
    rw [if_neg List.not_mem_nil]
  | cons first names ih =>
    obtain ⟨m', hfirst, hrest⟩ := FallibleLoops.foldlM_cons_eq_ok_iff.mp h
    rw [ih hrest]
    unfold addConfig at hfirst
    split at hfirst
    · cases hfirst
    · next cfg hcfg =>
      obtain rfl := Except.ok.inj hfirst
      rw [OrderedMap.get?_set]
      by_cases hname : name = first
      · have hmem : name ∈ first :: names := by
          rw [hname]
          exact List.mem_cons_self
        rw [if_pos hname, if_pos hmem, hname, hcfg]
        exact ite_self _
      · rw [if_neg hname]
        simp only [List.mem_cons, hname, false_or]

theorem addConfigs_returns_iff {raw : RawConfig ρ} {names : List String} {m : OrderedMap String ρ} :
    (∃ r, names.foldlM (addConfig raw) m = .ok r) ↔
      ∀ name ∈ names, ∃ cfg, raw.clientConfig name = .ok cfg := by
  refine FallibleLoops.foldlM_returns_iff fun configs name => ?_
  unfold addConfig
  cases raw.clientConfig name with
  | error err => simp
  | ok cfg => simp

section New
variable {rt : Runtime} {loadFromFile : String → Except String (RawConfig ρ)}
  {kubeconfigPath : String} {c : Client ρ ν}

theorem new_cases (h : Client.new rt loadFromFile kubeconfigPath = .ok c) :
    (kubeconfigPath = "" ∧ c = ⟨"", .empty, .empty⟩) ∨
      ∃ raw configs, kubeconfigPath ≠ "" ∧ loadFromFile kubeconfigPath = .ok raw ∧
        (rt.mapOrder 0 raw.contexts).foldlM (addConfig raw) .empty = .ok configs ∧
        c = ⟨kubeconfigPath, configs, .empty⟩ := by
  unfold Client.new at h
  split_ifs at h with hpath
  · exact Or.inl ⟨hpath, (Except.ok.inj h).symm⟩
  · split at h
    · cases h
    · next raw hload =>
      split at h
      · cases h
      · next configs hconfigs =>
        exact Or.inr ⟨raw, configs, hpath, hload, hconfigs, (Except.ok.inj h).symm⟩

/-- The kubeconfig is read if every context has a REST config. -/
theorem new_returns_iff :
    (∃ c : Client ρ ν, Client.new rt loadFromFile kubeconfigPath = .ok c) ↔
      kubeconfigPath = "" ∨ ∃ raw, loadFromFile kubeconfigPath = .ok raw ∧
        ∀ name ∈ raw.contexts, ∃ cfg, raw.clientConfig name = .ok cfg := by
  unfold Client.new
  split_ifs with hpath
  · exact iff_of_true ⟨_, rfl⟩ (Or.inl hpath)
  · rw [or_iff_right hpath]
    cases hload : loadFromFile kubeconfigPath with
    | error err => simp
    | ok raw =>
      have hloop : (∃ r, (rt.mapOrder 0 raw.contexts).foldlM (addConfig raw) .empty = .ok r) ↔
          ∀ name ∈ rt.mapOrder 0 raw.contexts, ∃ cfg, raw.clientConfig name = .ok cfg :=
        addConfigs_returns_iff
      simp only [(rt.mapOrder_perm 0 raw.contexts).mem_iff] at hloop
      simp only [Except.ok.injEq, exists_eq_left', ← hloop]
      constructor
      · intro ⟨c, hc⟩
        split at hc
        · cases hc
        · next configs hconfigs => exact ⟨configs, hconfigs⟩
      · intro ⟨configs, hconfigs⟩
        rw [hconfigs]
        exact ⟨_, rfl⟩

/-- There is a REST config for exactly the contexts of the kubeconfig. -/
theorem mem_configs_new (h : Client.new rt loadFromFile kubeconfigPath = .ok c) (name : String) :
    name ∈ c.configs.keys ↔ name ∈ contextNames loadFromFile kubeconfigPath := by
  unfold contextNames
  rcases new_cases h with ⟨hpath, rfl⟩ | ⟨raw, configs, hpath, hload, hconfigs, rfl⟩
  · rw [if_pos hpath]
    exact Iff.rfl
  · rw [if_neg hpath, hload]
    have hall := addConfigs_returns_iff.mp ⟨configs, hconfigs⟩
    have hperm := (rt.mapOrder_perm 0 raw.contexts).mem_iff (a := name)
    rw [OrderedMap.mem_keys_iff, get?_addConfigs hconfigs, ← hperm]
    split_ifs with hmem
    · obtain ⟨cfg, hcfg⟩ := hall name hmem
      rw [hcfg]
      exact iff_of_true rfl hmem
    · exact iff_of_false Bool.false_ne_true hmem

end New

/-! ## Calls that share the cache -/

/-- A call that is over. -/
abbrev Done (ν : Type) := Call String ν ClientError

def Outcome.done (o : Outcome ρ ν) (cluster : String) : Done ν := ⟨cluster, o.built, o.result⟩

/-- The client, and the clusters of the calls that wait for the lock. -/
structure System (ρ ν : Type) where
  client : Client ρ ν
  waiting : List String

/-- A call without a kubeconfig is over at once; another one waits, and then runs the part
under the lock as one step. Each call may fare differently with `newForConfig`. -/
inductive Step : System ρ ν → Option (Done ν) → System ρ ν → Prop
  | refuse {s : System ρ ν} (cluster : String) (h : s.client.configured = false) :
      Step s (some ⟨cluster, none, .error .notConfigured⟩) s
  | wait {s : System ρ ν} (cluster : String) (h : s.client.configured = true) :
      Step s none { s with waiting := cluster :: s.waiting }
  | serve {s : System ρ ν} (newForConfig : ρ → Except String ν) (before : List String)
      (cluster : String) (after : List String) (h : s.waiting = before ++ cluster :: after) :
      Step s (some ((s.client.locked newForConfig cluster).done cluster))
        ⟨(s.client.locked newForConfig cluster).client, before ++ after⟩

/-- The calls that are over, in their order at the lock, and the state they leave. -/
inductive Run (c : Client ρ ν) : List (Done ν) → System ρ ν → Prop
  | start : Run c [] ⟨c, []⟩
  | step {calls : List (Done ν)} {s s' : System ρ ν} {done : Option (Done ν)}
      (run : Run c calls s) (next : Step s done s') : Run c (calls ++ done.toList) s'

/-! ## One call -/

section Locked
variable (newForConfig : ρ → Except String ν) (c : Client ρ ν) (cluster : String)

/-- The two ways to succeed under the lock, and to fail. -/
theorem locked_cases :
    (∃ cl, c.clients.get? cluster = some cl ∧
      c.locked newForConfig cluster = ⟨.ok cl, none, c⟩) ∨
    (c.clients.get? cluster = none ∧
      ∃ err, c.locked newForConfig cluster = ⟨.error err, none, c⟩) ∨
    (c.clients.get? cluster = none ∧ cluster ∈ c.configs.keys ∧
      ∃ cl, c.locked newForConfig cluster =
        ⟨.ok cl, some cl, { c with clients := c.clients.set cluster cl }⟩) := by
  unfold Client.locked
  cases hcached : c.clients.get? cluster with
  | some cl => exact Or.inl ⟨cl, rfl, rfl⟩
  | none =>
    refine Or.inr ?_
    cases hconfig : c.configs.get? cluster with
    | none => exact Or.inl ⟨rfl, _, rfl⟩
    | some cfg =>
      dsimp only
      cases hbuild : newForConfig cfg with
      | error err => exact Or.inl ⟨rfl, _, rfl⟩
      | ok cl =>
        have hmem : cluster ∈ c.configs.keys := by
          rw [OrderedMap.mem_keys_iff, hconfig]
          rfl
        exact Or.inr ⟨rfl, hmem, cl, rfl⟩

/-- Only the clients change. -/
theorem locked_frame :
    (c.locked newForConfig cluster).client.kubeconfig = c.kubeconfig ∧
      (c.locked newForConfig cluster).client.configs = c.configs := by
  rcases locked_cases newForConfig c cluster with ⟨cl, -, heq⟩ | ⟨-, err, heq⟩ | ⟨-, -, cl, heq⟩
  · rw [heq]
    exact ⟨rfl, rfl⟩
  · rw [heq]
    exact ⟨rfl, rfl⟩
  · rw [heq]
    exact ⟨rfl, rfl⟩

theorem locked_of_error {err : ClientError}
    (h : (c.locked newForConfig cluster).result = .error err) :
    (c.locked newForConfig cluster).client = c := by
  rcases locked_cases newForConfig c cluster with ⟨cl, -, heq⟩ | ⟨-, err', heq⟩ | ⟨-, -, cl, heq⟩
  · rw [heq]
  · rw [heq]
  · rw [heq] at h
    cases h

/-- A call that fails leaves the client as it was. -/
theorem clientFor_of_error {err : ClientError}
    (h : (c.clientFor newForConfig cluster).result = .error err) :
    (c.clientFor newForConfig cluster).client = c := by
  unfold Client.clientFor at h ⊢
  split_ifs at h ⊢
  · exact locked_of_error newForConfig c cluster h
  · rfl

/-- A client that is kept is returned. -/
theorem clientFor_of_cached (hconfigured : c.configured = true) {cl : ν}
    (h : c.clients.get? cluster = some cl) :
    c.clientFor newForConfig cluster = ⟨.ok cl, none, c⟩ := by
  unfold Client.clientFor Client.locked
  rw [if_pos hconfigured, h]

end Locked

/-! ## What holds in every state -/

/-- Without a kubeconfig there is no REST config, and a client is kept for contexts only. -/
structure Client.Valid (c : Client ρ ν) : Prop where
  unconfigured : c.configured = false → c.configs.keys = []
  cached : ∀ name ∈ c.clients.keys, name ∈ c.configs.keys

theorem valid_new {rt : Runtime} {loadFromFile : String → Except String (RawConfig ρ)}
    {kubeconfigPath : String} {c : Client ρ ν}
    (h : Client.new rt loadFromFile kubeconfigPath = .ok c) : c.Valid ∧ c.clients = .empty := by
  rcases new_cases h with ⟨-, rfl⟩ | ⟨raw, configs, hpath, -, -, rfl⟩
  · exact ⟨⟨fun _ => rfl, fun _ h => absurd h List.not_mem_nil⟩, rfl⟩
  · refine ⟨⟨fun hfalse => ?_, fun _ h => absurd h List.not_mem_nil⟩, rfl⟩
    exact absurd hpath (of_decide_eq_false hfalse)

/-- Nothing is kept without a kubeconfig. -/
theorem Client.Valid.get?_of_unconfigured {c : Client ρ ν} (hvalid : c.Valid)
    (h : c.configured = false) (name : String) : c.clients.get? name = none := by
  rw [OrderedMap.get?_eq_none_iff]
  intro hmem
  have hconfig := hvalid.cached name hmem
  rw [hvalid.unconfigured h] at hconfig
  exact List.not_mem_nil hconfig

section Step
variable {s s' : System ρ ν} {done : Option (Done ν)}

theorem Step.frame (h : Step s done s') :
    s'.client.kubeconfig = s.client.kubeconfig ∧ s'.client.configs = s.client.configs := by
  cases h with
  | refuse => exact ⟨rfl, rfl⟩
  | wait => exact ⟨rfl, rfl⟩
  | serve newForConfig before cluster => exact locked_frame newForConfig s.client cluster

theorem Step.valid (h : Step s done s') (hvalid : s.client.Valid) : s'.client.Valid := by
  cases h with
  | refuse => exact hvalid
  | wait => exact hvalid
  | serve newForConfig before cluster after h =>
    rcases locked_cases newForConfig s.client cluster with
      ⟨cl, -, heq⟩ | ⟨-, err, heq⟩ | ⟨-, hmem, cl, heq⟩
    · rw [heq]
      exact hvalid
    · rw [heq]
      exact hvalid
    · rw [heq]
      refine ⟨hvalid.unconfigured, fun name hname => ?_⟩
      rcases (OrderedMap.mem_keys_set _ _ _ _).mp hname with rfl | hname
      · exact hmem
      · exact hvalid.cached name hname

/-- A step of the system is a call of a cache that builds on demand, or leaves the cache
alone. -/
theorem Step.simulates (h : Step s done s') (hvalid : s.client.Valid) :
    match done with
    | none => s'.client = s.client
    | some call => BuildOnce.Step s.client.clients.get? call s'.client.clients.get? := by
  cases h with
  | refuse cluster h => exact .fail (hvalid.get?_of_unconfigured h cluster)
  | wait => rfl
  | serve newForConfig before cluster after h =>
    unfold Outcome.done
    dsimp only
    rcases locked_cases newForConfig s.client cluster with
      ⟨cl, hcached, heq⟩ | ⟨hmissing, err, heq⟩ | ⟨hmissing, -, cl, heq⟩
    · rw [heq]
      exact .hit hcached
    · rw [heq]
      exact .fail hmissing
    · rw [heq]
      have hupdate : (s.client.clients.set cluster cl).get? =
          Function.update s.client.clients.get? cluster (some cl) := by
        funext name
        rw [OrderedMap.get?_set, Function.update_apply]
      dsimp only
      rw [hupdate]
      exact .build hmissing

/-- A call that fails leaves the clients as they were. -/
theorem Step.unchanged {call : Done ν} (h : Step s (some call) s') {err : ClientError}
    (hresult : call.result = .error err) : s'.client = s.client := by
  cases h with
  | refuse => rfl
  | serve newForConfig before cluster =>
    exact locked_of_error newForConfig s.client cluster hresult

end Step

section Run
variable {c : Client ρ ν} {calls : List (Done ν)} {s : System ρ ν}

/-- Every run is one of the cache, over the kubeconfig that was read at the start. -/
theorem Run.simulates (h : Run c calls s) (hvalid : c.Valid) (hempty : c.clients = .empty) :
    s.client.Valid ∧ s.client.configured = c.configured ∧ s.client.configs = c.configs ∧
      BuildOnce.Run (fun _ => none) calls s.client.clients.get? := by
  induction h with
  | start =>
    refine ⟨hvalid, rfl, rfl, ?_⟩
    rw [hempty]
    exact .nil _
  | @step calls s s' done run next ih =>
    obtain ⟨hinv, hpath, hconfigs, hrun⟩ := ih
    obtain ⟨hkeepPath, hkeepConfigs⟩ := next.frame
    refine ⟨next.valid hinv, ?_, hkeepConfigs.trans hconfigs, ?_⟩
    · unfold Client.configured at hpath ⊢
      rw [hkeepPath, hpath]
    · have hstep := next.simulates hinv
      cases done with
      | none =>
        have hsame : s'.client = s.client := hstep
        rw [hsame, Option.toList_none, List.append_nil]
        exact hrun
      | some call => exact hrun.snoc hstep

/-- A call that succeeded kept its client. -/
theorem Run.cached_of_ok (h : Run c calls s) (hvalid : c.Valid) (hempty : c.clients = .empty)
    {call : Done ν} (hmem : call ∈ calls) {cl : ν} (hresult : call.result = .ok cl) :
    s.client.configured = true ∧ s.client.clients.get? call.key = some cl := by
  obtain ⟨hinv, -, -, hrun⟩ := h.simulates hvalid hempty
  obtain ⟨before, after, rfl⟩ := List.append_of_mem hmem
  have hcached := hrun.stored_of_ok hresult
  refine ⟨?_, hcached⟩
  by_contra hfalse
  have hmissing := hinv.get?_of_unconfigured (Bool.eq_false_of_not_eq_true hfalse) call.key
  rw [hcached] at hmissing
  cases hmissing

end Run

/-- What callers rely on after the calls that are over. -/
structure Consistent (names : List String) (calls : List (Done ν)) (s : System ρ ν) : Prop where
  cached : ∀ name ∈ s.client.clients.keys, name ∈ names
  /-- Once a call for a name has succeeded, the calls for it return the same client. -/
  repeats : ∀ before call after, calls = before ++ call :: after → ∀ cl, call.result = .ok cl →
    ∀ later ∈ after, later.key = call.key → later.result = .ok cl ∧ later.built = none
  /-- So does the next one, whether or not a client could be built. -/
  next : ∀ call ∈ calls, ∀ cl, call.result = .ok cl → ∀ newForConfig,
    s.client.clientFor newForConfig call.key = ⟨.ok cl, none, s.client⟩
  built_once : ∀ name, builds name calls ≤ 1
  /-- A call that fails changes nothing, run at once or step by step. -/
  unchanged : ∀ newForConfig cluster err,
    (s.client.clientFor newForConfig cluster).result = .error err →
      (s.client.clientFor newForConfig cluster).client = s.client
  step_unchanged : ∀ call s', Step s (some call) s' → ∀ err, call.result = .error err →
    s'.client = s.client

/-- The cache is consistent for every kubeconfig, whatever calls share it. -/
theorem clientCache_consistent {rt : Runtime}
    {loadFromFile : String → Except String (RawConfig ρ)} {kubeconfigPath : String}
    {c : Client ρ ν} (hnew : Client.new rt loadFromFile kubeconfigPath = .ok c)
    {calls : List (Done ν)} {s : System ρ ν} (hrun : Run c calls s) :
    Consistent (contextNames loadFromFile kubeconfigPath) calls s := by
  obtain ⟨hvalid, hempty⟩ := valid_new hnew
  obtain ⟨hinv, -, hconfigs, hcache⟩ := hrun.simulates hvalid hempty
  constructor
  · intro name hname
    have hconfig := hinv.cached name hname
    rw [hconfigs] at hconfig
    exact (mem_configs_new hnew name).mp hconfig
  · intro before call after hcalls cl hresult
    rw [hcalls] at hcache
    exact hcache.repeats_of_ok hresult
  · intro call hcall cl hresult newForConfig
    obtain ⟨hconfigured, hcached⟩ := hrun.cached_of_ok hvalid hempty hcall hresult
    exact clientFor_of_cached newForConfig s.client call.key hconfigured hcached
  · exact hcache.builds_le_one
  · intro newForConfig cluster err
    exact clientFor_of_error newForConfig s.client cluster
  · intro call s' hstep err
    exact hstep.unchanged

/-- Two clusters: a client that could not be built at first, and a name without a context. -/
def sampleConfig : RawConfig String where
  contexts := ["prod", "staging"]
  nodup := by decide
  clientConfig name := .ok ("config of " ++ name)

def sampleClient : Client String ℕ :=
  ⟨"kubeconfig", (OrderedMap.empty.set "prod" "config of prod").set "staging" "config of staging",
    .empty⟩

/-- Three requests wait while the first one fails; the client of `prod` is built once. -/
theorem sampleRun :
    Run sampleClient
      [⟨"prod", none, .error (.build "prod" "no route to host")⟩, ⟨"prod", some 7, .ok 7⟩,
        ⟨"edge", none, .error (.unknownCluster "edge")⟩, ⟨"prod", none, .ok 7⟩]
      ⟨{ sampleClient with clients := OrderedMap.empty.set "prod" 7 }, []⟩ := by
  have hwait : Run sampleClient [] ⟨sampleClient, ["prod", "edge", "prod", "prod"]⟩ :=
    (((Run.start.step (.wait "prod" rfl)).step (.wait "prod" rfl)).step (.wait "edge" rfl)).step
      (.wait "prod" rfl)
  have hfail := hwait.step
    (.serve (fun _ => .error "no route to host") [] "prod" ["edge", "prod", "prod"] rfl)
  have hbuild := hfail.step (.serve (fun _ => .ok 7) ["edge"] "prod" ["prod"] rfl)
  have hunknown := hbuild.step (.serve (fun _ => .ok 8) [] "edge" ["prod"] rfl)
  exact hunknown.step (.serve (fun _ => .ok 9) [] "prod" [] rfl)

theorem clientCache_consistent_sample :
    Consistent ["prod", "staging"]
      [⟨"prod", none, .error (.build "prod" "no route to host")⟩, ⟨"prod", some 7, .ok 7⟩,
        ⟨"edge", none, .error (.unknownCluster "edge")⟩, ⟨"prod", none, .ok 7⟩]
      (⟨{ sampleClient with clients := OrderedMap.empty.set "prod" 7 }, []⟩ : System String ℕ) := by
  have hnew : Client.new Runtime.plain (fun _ => .ok sampleConfig) "kubeconfig" =
      .ok sampleClient := rfl
  exact clientCache_consistent hnew sampleRun

/-! ## What the cache saves -/

/-- The answers of `clientFor` without a cache. -/
def Client.direct (newForConfig : ρ → Except String ν) (c : Client ρ ν) (cluster : String) :
    Except ClientError ν :=
  if c.configured then
    match c.configs.get? cluster with
    | none => .error (.unknownCluster cluster)
    | some cfg =>
      match newForConfig cfg with
      | .error err => .error (.build cluster err)
      | .ok cl => .ok cl
  else .error .notConfigured

/-- The client is the one that `newForConfig` builds for the cluster. -/
def Client.BuiltFor (newForConfig : ρ → Except String ν) (c : Client ρ ν) (cluster : String)
    (cl : ν) : Prop :=
  ∃ cfg, c.configs.get? cluster = some cfg ∧ newForConfig cfg = .ok cl

/-- If every client was built by one and the same function, then the cache does not show. -/
theorem Run.result_eq_direct {c : Client ρ ν} {calls : List (Done ν)} {s : System ρ ν}
    (h : Run c calls s) (hvalid : c.Valid) (hempty : c.clients = .empty)
    {newForConfig : ρ → Except String ν}
    (hbuilt : ∀ call ∈ calls, ∀ cl, call.built = some cl → c.BuiltFor newForConfig call.key cl)
    (cluster : String) :
    (s.client.clientFor newForConfig cluster).result = c.direct newForConfig cluster := by
  obtain ⟨-, hpath, hconfigs, hrun⟩ := h.simulates hvalid hempty
  obtain ⟨hcached, -⟩ := hrun.invariant (P := c.BuiltFor newForConfig) (by simp) hbuilt
  unfold Client.clientFor Client.direct Client.locked
  rw [hpath, hconfigs]
  split_ifs
  · cases hget : s.client.clients.get? cluster with
    | some cl =>
      obtain ⟨cfg, hcfg, hbuild⟩ := hcached cluster cl hget
      dsimp only
      rw [hcfg]
      dsimp only
      rw [hbuild]
    | none =>
      dsimp only
      cases c.configs.get? cluster with
      | none => rfl
      | some cfg =>
        dsimp only
        cases newForConfig cfg with
        | error err => rfl
        | ok cl => rfl
  · rfl

/-- The client as the functions that count the objects of a cluster take it. -/
def Client.reader (isPrint : Char → Bool)
    (newForConfig : ρ → Except String KubeClient.DynamicClient)
    (nestedString : KubeClient.Content → List String → String)
    (c : Client ρ KubeClient.DynamicClient) : KubeClient.Client where
  kubeconfig := c.kubeconfig
  contexts := c.configs.keys
  clientFor cluster := (c.direct newForConfig cluster).mapError (ClientError.text isPrint)
  nestedString := nestedString

/-- Whatever calls came before, a count gets the client that the reader has. -/
theorem Run.clientFor_reader {c : Client ρ KubeClient.DynamicClient}
    {calls : List (Done KubeClient.DynamicClient)} {s : System ρ KubeClient.DynamicClient}
    (h : Run c calls s) (hvalid : c.Valid) (hempty : c.clients = .empty)
    {newForConfig : ρ → Except String KubeClient.DynamicClient}
    (hbuilt : ∀ call ∈ calls, ∀ cl, call.built = some cl → c.BuiltFor newForConfig call.key cl)
    (isPrint : Char → Bool) (nestedString : KubeClient.Content → List String → String)
    (cluster : String) :
    (s.client.clientFor newForConfig cluster).result.mapError (ClientError.text isPrint) =
      (c.reader isPrint newForConfig nestedString).clientFor cluster := by
  rw [h.result_eq_direct hvalid hempty hbuilt]
  rfl

end BigfleetDashboard.KubeCache
