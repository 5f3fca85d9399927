import BigfleetDashboard.PromHandlers

/-!
# Topology and the order of the series

The pending instructions of a shard are read from a query that is not aggregated.
When several series carry the label of one shard, the last one listed counts, so the
answer does not depend on their order only if they agree.
-/
namespace BigfleetDashboard.Handlers
open Go PromClient CoordClient

/-- Prometheus answers the query for pending instructions by a vector, and every other
query as `api` does; map entries are visited as `rt` says. -/
def withPending (s : Server) (api : PromClient.Api) (rt : Runtime) (vec : List Sample) : Server :=
  { s with
    rt := rt
    prom := ⟨some { api with
      query := fun q t => if q = queryPendingInstructions then .ok (.vector vec) else api.query q t }⟩ }

/-- The coordinator answers both calls of the handler. -/
structure CoordinatorAnswers (s : Server) : Prop where
  configured : requireCoordinator s = .ok ()
  shards : ∃ shards, s.coord.listShards = .ok shards
  domains : ∃ domains, s.coord.listDomainAssignments = .ok domains

/-- Finite samples of one shard have the same whole part. -/
def SeriesAgree (vec : List Sample) : Prop :=
  ∀ x ∈ vec, ∀ y ∈ vec, x.value.IsFinite → y.value.IsFinite → ∀ shard,
    x.metric.get? "shard" = some shard → y.metric.get? "shard" = some shard →
      intOfFloat x.value = intOfFloat y.value

def pendingByShard (vec : List Sample) : OrderedMap String ExtRat :=
  vec.foldl (storeByLabel "shard") OrderedMap.empty

/-- A topology with the pending instructions filled in. -/
def fillPending (base : Topology) (shards : List ShardRegistryEntry) (rt : Runtime)
    (pending : OrderedMap String ExtRat) : Topology :=
  { base with
    coordinator := { base.coordinator with pendingInstructionsTotal := pendingTotal rt pending }
    shards := shards.map (fun sd => {
      shardId := sd.shardId
      address := sd.address
      registeredAtUnixSec := sd.registeredAtUnixNs.tdiv second
      lastHeartbeatUnixSec := sd.lastHeartbeatUnixNs.tdiv second
      pendingInstructions := intOfFloat (pending.getD sd.shardId 0) }) }

/-- Only the pending instructions depend on the vector. -/
theorem topologyHandler_withPending {s : Server} (h : CoordinatorAnswers s) (api : PromClient.Api)
    (now later : Int) : ∃ base shards, ∀ rt vec,
      topologyHandler (withPending s api rt vec) now later =
        .ok (fillPending base shards rt (pendingByShard vec)) := by
  obtain ⟨shards, hshards⟩ := h.shards
  obtain ⟨domains, hdomains⟩ := h.domains
  let term := orWarn "prometheus query (raft term): " 0
    ((queryScalar ⟨some api⟩ queryRaftTerm now).map intOfFloat)
  let rate := orWarn "prometheus query (apply rate): " 0
    (queryScalar ⟨some api⟩ queryApplySuccessRate now)
  let errorRate := orWarn "prometheus query (apply error rate): " 0
    (queryScalar ⟨some api⟩ queryApplyErrorRate now)
  let base : Topology :=
    { coordinator := ⟨term.1, rate.1, errorRate.1, 0⟩
      shards := []
      domainAssignments := domains.map (fun d => ⟨d.topologyKey, d.topologyValue, d.shardId⟩)
      warnings := term.2 ++ rate.2 ++ errorRate.2 ++ []
      queriedAt := later }
  refine ⟨base, shards, fun rt vec => ?_⟩
  have hconf : requireCoordinator (withPending s api rt vec) = .ok () := h.configured
  have hscalar : ∀ q, q ≠ queryPendingInstructions →
      queryScalar (withPending s api rt vec).prom q now = queryScalar ⟨some api⟩ q now := by
    intro q hq
    simp only [queryScalar, withPending, Client.query, if_neg hq]
  have hpending : queryByLabel (withPending s api rt vec).prom queryPendingInstructions "shard" now =
      .ok (pendingByShard vec) :=
    queryByLabel_vector (by simp) "shard"
  have hhealth : coordinatorHealth (withPending s api rt vec) now =
      ({ base.coordinator with
          pendingInstructionsTotal := pendingTotal rt (pendingByShard vec) },
        pendingByShard vec, base.warnings) := by
    have hprom : (withPending s api rt vec).prom.configured = true := rfl
    simp only [coordinatorHealth, hprom, if_true, hpending, hscalar queryRaftTerm (by decide),
      hscalar queryApplySuccessRate (by decide), hscalar queryApplyErrorRate (by decide)]
    rfl
  simp only [topologyHandler, hconf, ok_bind, hhealth]
  simp only [withPending, hshards, hdomains, orCoordError, ok_bind]
  rfl

/-! ## The last series of a shard -/

/-- The shard under which a sample is stored. -/
def storedUnder (x : Sample) : Option String :=
  if x.value.isNaN || x.value.isInf then none else x.metric.get? "shard"

theorem storedUnder_eq_some_iff (x : Sample) (shard : String) :
    storedUnder x = some shard ↔ x.value.IsFinite ∧ x.metric.get? "shard" = some shard := by
  unfold storedUnder
  split_ifs with h
  · have hfin : ¬ x.value.IsFinite := (ExtRat.not_isFinite_iff _).mpr h
    simp [hfin]
  · have hfin : x.value.IsFinite := by
      by_contra hbad
      exact h ((ExtRat.not_isFinite_iff _).mp hbad)
    simp [hfin]

theorem get?_pendingByShard (vec : List Sample) (shard : String) :
    (pendingByShard vec).get? shard =
      ((vec.filter (fun x => storedUnder x = some shard)).getLast?).map Sample.value := by
  rw [pendingByShard, storeByLabel_eq_store, OrderedMap.get?_foldl_store, OrderedMap.get?_empty,
    Option.or_none]
  rfl

theorem pendingTotal_eq (rt : Runtime) (m : OrderedMap String ExtRat) :
    pendingTotal rt m = wrapInt64 (m.values.map intOfFloat).sum := by
  have hperm := ((rt.mapOrder_perm 0 m.entries).map Prod.snd).map intOfFloat
  rw [pendingTotal, foldl_wrapInt64]
  rw [List.map_map] at hperm
  exact congrArg wrapInt64 hperm.sum_eq

/-- Elements that all read the same give the last one no say. -/
theorem getLast?_map_perm {α β : Type} {f : α → β} {xs ys : List α} (h : xs.Perm ys)
    (hsame : ∀ x ∈ ys, ∀ y ∈ ys, f x = f y) : xs.getLast?.map f = ys.getLast?.map f := by
  cases hx : xs.getLast? with
  | none =>
    rw [List.getLast?_eq_none_iff] at hx
    rw [hx] at h
    rw [h.nil_eq.symm]
    rfl
  | some x =>
    cases hy : ys.getLast? with
    | none =>
      rw [List.getLast?_eq_none_iff] at hy
      rw [hy, List.perm_nil] at h
      rw [h] at hx
      cases hx
    | some y =>
      have hxmem := h.mem_iff.mp (List.mem_of_getLast? hx)
      exact congrArg some (hsame x hxmem y (List.mem_of_getLast? hy))

/-- Series that agree leave the same whole part under every shard, in any order. -/
theorem SeriesAgree.get?_perm {vec vec' : List Sample} (h : SeriesAgree vec) (hp : vec'.Perm vec)
    (shard : String) : ((pendingByShard vec').get? shard).map intOfFloat =
      ((pendingByShard vec).get? shard).map intOfFloat := by
  rw [get?_pendingByShard, get?_pendingByShard, Option.map_map, Option.map_map]
  apply getLast?_map_perm (hp.filter _)
  intro x hx y hy
  obtain ⟨hxmem, hxs⟩ := List.mem_filter.mp hx
  obtain ⟨hymem, hys⟩ := List.mem_filter.mp hy
  obtain ⟨hxfin, hxs⟩ := (storedUnder_eq_some_iff x shard).mp (of_decide_eq_true hxs)
  obtain ⟨hyfin, hys⟩ := (storedUnder_eq_some_iff y shard).mp (of_decide_eq_true hys)
  exact h x hxmem y hymem hxfin hyfin shard hxs hys

/-- Every series of a shard can be listed last; then its value counts. -/
theorem exists_perm_last {vec : List Sample} {x : Sample} {shard : String} (hx : x ∈ vec)
    (hshard : storedUnder x = some shard) : ∃ vec', vec'.Perm vec ∧ ∀ k,
      (pendingByShard vec').get? k = ((pendingByShard vec).set shard x.value).get? k := by
  obtain ⟨before, after, rfl⟩ := List.append_of_mem hx
  refine ⟨before ++ after ++ [x], ?_, ?_⟩
  · rw [List.append_assoc]
    exact (List.perm_append_singleton x after).append_left before
  · intro k
    rw [OrderedMap.get?_set]
    by_cases hk : k = shard
    · subst hk
      simp [get?_pendingByShard, hshard]
    · have hne : ¬ shard = k := fun h => hk h.symm
      simp [get?_pendingByShard, hshard, hk, hne]

/-- With that series listed last the total differs from the other totals by its whole part. -/
theorem pendingTotal_last {vec : List Sample} {x : Sample} {shard : String} (hx : x ∈ vec)
    (hshard : storedUnder x = some shard) : ∃ vec', vec'.Perm vec ∧ ∀ rt,
      pendingTotal rt (pendingByShard vec') =
        wrapInt64 (((pendingByShard vec).values.map intOfFloat).sum + intOfFloat x.value -
          (((pendingByShard vec).get? shard).map intOfFloat).getD 0) := by
  obtain ⟨vec', hperm, hget⟩ := exists_perm_last hx hshard
  refine ⟨vec', hperm, fun rt => ?_⟩
  have hvalues := OrderedMap.map_values_perm (f := intOfFloat) (fun k => congrArg _ (hget k))
  have hsum := OrderedMap.sum_map_values_set intOfFloat (pendingByShard vec) shard x.value
  rw [pendingTotal_eq, hvalues.sum_eq]
  congr 1
  omega

/-! ## The answer -/

/-- Whole parts that shift a total alike are equal. -/
theorem eq_of_wrapInt64_add {a b c : Int} (ha : minInt64 ≤ a ∧ a ≤ maxInt64)
    (hb : minInt64 ≤ b ∧ b ≤ maxInt64) (h : wrapInt64 (c + a) = wrapInt64 (c + b)) : a = b := by
  simp only [minInt64, maxInt64] at ha hb
  simp only [wrapInt64] at h
  omega

/-- The topology is the same for every order of the series exactly when the series of
each shard agree on the whole part. -/
theorem topology_orderFree_iff {s : Server} (h : CoordinatorAnswers s) (api : PromClient.Api)
    (rt : Runtime) (vec : List Sample) (now later : Int) :
    (∀ rt' vec', vec'.Perm vec →
      topologyHandler (withPending s api rt' vec') now later =
        topologyHandler (withPending s api rt vec) now later) ↔ SeriesAgree vec := by
  obtain ⟨base, shards, hbody⟩ := topologyHandler_withPending h api now later
  simp only [hbody, Except.ok.injEq]
  constructor
  · intro hsame x hx y hy hxfin hyfin shard hxs hys
    obtain ⟨vx, hpx, htx⟩ := pendingTotal_last hx ((storedUnder_eq_some_iff x shard).mpr ⟨hxfin, hxs⟩)
    obtain ⟨vy, hpy, hty⟩ := pendingTotal_last hy ((storedUnder_eq_some_iff y shard).mpr ⟨hyfin, hys⟩)
    have hbodies := (hsame rt vx hpx).trans (hsame rt vy hpy).symm
    have htotal : pendingTotal rt (pendingByShard vx) = pendingTotal rt (pendingByShard vy) :=
      congrArg (fun t => t.coordinator.pendingInstructionsTotal) hbodies
    rw [htx, hty] at htotal
    apply eq_of_wrapInt64_add (intOfFloat_mem x.value) (intOfFloat_mem y.value)
      (c := ((pendingByShard vec).values.map intOfFloat).sum -
        (((pendingByShard vec).get? shard).map intOfFloat).getD 0)
    rw [sub_add_eq_add_sub, sub_add_eq_add_sub]
    exact htotal
  · intro hagree rt' vec' hperm
    have hget := hagree.get?_perm hperm
    have htotal : pendingTotal rt' (pendingByShard vec') = pendingTotal rt (pendingByShard vec) := by
      rw [pendingTotal_eq, pendingTotal_eq, (OrderedMap.map_values_perm hget).sum_eq]
    have hshard : ∀ k, intOfFloat ((pendingByShard vec').getD k 0) =
        intOfFloat ((pendingByShard vec).getD k 0) := by
      intro k
      rw [OrderedMap.getD, OrderedMap.getD, ← Option.getD_map intOfFloat,
        ← Option.getD_map intOfFloat, hget]
    simp only [fillPending, htotal, hshard]

/-- A coordinator with one shard, and no other backend. -/
def coordinatedServer : Server :=
  { Server.unwired with
    coord := {
      addr := "localhost:7000"
      api := some {
        listShards := .ok [⟨"shard-a", "shard-a:7780", 0, 0⟩]
        listDomainAssignments := .ok []
        listShardReports := fun _ => .ok [] }
      dialled := by simp } }

theorem coordinatedServer_answers : CoordinatorAnswers coordinatedServer :=
  ⟨rfl, ⟨_, rfl⟩, ⟨_, rfl⟩⟩

/-- Prometheus knows no other series. -/
def emptyProm : PromClient.Api := ⟨fun _ _ => .ok (.vector []), fun _ _ => .ok (.matrix [])⟩

/-- What one replica of the coordinator exports about the shard. -/
def replicaSample (instance_ : String) (pending : ℚ) : Sample :=
  { metric := ⟨[("instance", instance_), ("shard", "shard-a")], by simp⟩, value := .fin pending }

/-- The leader counts 3 pending instructions, a follower none. -/
def replicaSeries : List Sample :=
  [replicaSample "coordinator-0" 3, replicaSample "coordinator-1" 0]

/-- Both replicas count the same instructions. -/
def agreeingSeries : List Sample :=
  [replicaSample "coordinator-0" 3, replicaSample "coordinator-1" 3]

theorem topology_orderFree_agreeing :
    topologyHandler (withPending coordinatedServer emptyProm Runtime.plain agreeingSeries.reverse)
      0 0 = topologyHandler (withPending coordinatedServer emptyProm Runtime.plain agreeingSeries)
        0 0 := by
  have hvalue : ∀ x ∈ agreeingSeries, x.value = .fin 3 := by decide
  have hagree : SeriesAgree agreeingSeries := by
    intro x hx y hy _ _ shard _ _
    rw [hvalue x hx, hvalue y hy]
  exact (topology_orderFree_iff coordinatedServer_answers emptyProm Runtime.plain agreeingSeries
    0 0).mpr hagree Runtime.plain _ (List.reverse_perm _)

/-- Two replicas disagree, and the replica listed last decides. -/
theorem topology_not_orderFree :
    ¬ ∀ (s : Server) (api : PromClient.Api) (rt : Runtime) (vec : List Sample) (now later : Int),
      CoordinatorAnswers s → ∀ rt' vec', vec'.Perm vec →
        topologyHandler (withPending s api rt' vec') now later =
          topologyHandler (withPending s api rt vec) now later := by
  intro h
  have hsame := h coordinatedServer emptyProm Runtime.plain replicaSeries 0 0
    coordinatedServer_answers Runtime.plain replicaSeries.reverse (List.reverse_perm _)
  obtain ⟨base, shards, hbody⟩ := topologyHandler_withPending coordinatedServer_answers emptyProm 0 0
  rw [hbody, hbody] at hsame
  have htotal : pendingTotal Runtime.plain (pendingByShard replicaSeries.reverse) =
      pendingTotal Runtime.plain (pendingByShard replicaSeries) :=
    congrArg (fun t => t.coordinator.pendingInstructionsTotal) (Except.ok.inj hsame)
  have hlast : pendingTotal Runtime.plain (pendingByShard replicaSeries.reverse) = 3 := by decide
  have hfirst : pendingTotal Runtime.plain (pendingByShard replicaSeries) = 0 := by decide
  rw [hlast, hfirst] at htotal
  exact absurd htotal (by decide)

end BigfleetDashboard.Handlers
