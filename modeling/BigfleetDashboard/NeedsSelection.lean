import BigfleetDashboard.NeedsFilters
import BigfleetDashboard.SearchParamState

/-!
# What the needs page has selected

The shard, the cluster and the status are parameters of the address. An effect selects the
first registered shard if there is no shard, another one the first cluster of the drop-down
if there is no cluster. Both start from the parameters of the same render, so if both wrote,
the first write would be lost. The page asks for the needs of the selected shard only.
-/
namespace BigfleetDashboard.Pages
open FormParams Script

def shardHook : Hook := ⟨"shard", ""⟩
def clusterHook : Hook := ⟨"cluster", ""⟩
def statusHook : Hook := ⟨"status", "all"⟩

/-- The state that the page is rendered from: the query of its address, the shards of the
topology, and the needs that were answered for a shard. -/
structure NeedsState where
  wired : Bool
  search : List Char
  shards : List String
  cache : String → Option (List NeedView)
  asked : List String

inductive Event
  | config (wired : Bool)
  | topology (shards : List String)
  | needs (shard : String) (answer : List NeedView)
  | forget (shard : String)
  | setShard (v : String)
  | setCluster (v : String)
  | setStatus (v : String)
  | navigate (search : List Char)

section Page
variable (eng : Engine) (dec : TextDecoder)

namespace NeedsState

/-! ## Rendering -/

def params (s : NeedsState) : Params := parse dec s.search

def shard (s : NeedsState) : String := shardHook.value (s.params dec)

def cluster (s : NeedsState) : String := clusterHook.value (s.params dec)

def statusRaw (s : NeedsState) : String := statusHook.value (s.params dec)

/-- A status that is none of the three shows all. -/
def status (s : NeedsState) : StatusFilter :=
  if s.statusRaw dec = "satisfied" then .satisfied
  else if s.statusRaw dec = "unmet" then .unmet
  else .all

/-- The needs of the shard. -/
def all (s : NeedsState) : List NeedView := (s.cache (s.shard dec)).getD []

/-- A query that is enabled asks for the needs of the shard. -/
def ask (s : NeedsState) : NeedsState :=
  if s.wired = true ∧ s.shard dec ≠ "" then { s with asked := s.shard dec :: s.asked } else s

/-- The effect that selects a shard: the address it navigates to, if it does. -/
def shardEffect (s : NeedsState) : Option (List Char) :=
  match s.shards with
  | [] => none
  | first :: _ => if s.shard dec = "" then some (shardHook.setValue first (s.params dec)) else none

/-- The effect that selects a cluster. -/
def clusterEffect (s : NeedsState) : Option (List Char) :=
  match clusterOptions eng (s.all dec) with
  | [] => none
  | first :: _ =>
    if s.cluster dec = "" then some (clusterHook.setValue first.id (s.params dec)) else none

/-- One render with its effects, in their order; the last navigation stands. -/
def commit (s : NeedsState) : NeedsState :=
  let next := ((s.clusterEffect eng dec).or (s.shardEffect dec)).getD s.search
  { s.ask dec with search := next }

/-- An event is handled when the effects of the render before it have run. -/
def handle (s : NeedsState) : Event → NeedsState
  | .config wired => { s with wired := wired }
  | .topology shards => if s.wired then { s with shards := shards } else s
  | .needs shard answer =>
    if shard ∈ s.asked then { s with cache := Function.update s.cache shard (some answer) } else s
  | .forget shard => { s with cache := Function.update s.cache shard none }
  | .setShard v => { s with search := shardHook.setValue v (s.params dec) }
  | .setCluster v => { s with search := clusterHook.setValue v (s.params dec) }
  | .setStatus v => { s with search := statusHook.setValue v (s.params dec) }
  | .navigate search => { s with search := search }

/-- The renders that follow an event. -/
def step (s : NeedsState) (e : Event) : NeedsState :=
  ((s.handle dec e).commit eng dec).commit eng dec

end NeedsState

/-! ## What a render keeps -/

section Commit
variable {eng dec} {s : NeedsState}

/-- No needs are asked for without a shard, and none are there that were not asked for. -/
structure Sound (s : NeedsState) : Prop where
  asked : "" ∉ s.asked
  answered : ∀ shard, (s.cache shard).isSome → shard ∈ s.asked

theorem keys_apart :
    shardHook.key ≠ clusterHook.key ∧ shardHook.key ≠ statusHook.key ∧
      clusterHook.key ≠ statusHook.key := by decide

theorem Sound.cache (hs : Sound s) : s.cache "" = none := by
  cases h : s.cache "" with
  | none => rfl
  | some all => exact absurd (hs.answered "" (by rw [h]; rfl)) hs.asked

theorem all_of_no_shard (hs : Sound s) (h : s.shard dec = "") : s.all dec = [] := by
  rw [NeedsState.all, h, hs.cache]
  rfl

theorem clusterOptions_nil (eng : Engine) : clusterOptions eng [] = [] :=
  List.Perm.eq_nil (eng.sorting.perm _ _)

theorem clusterEffect_of_no_shard (hs : Sound s) (h : s.shard dec = "") :
    s.clusterEffect eng dec = none := by
  rw [NeedsState.clusterEffect, all_of_no_shard hs h, clusterOptions_nil]

theorem shardEffect_of_shard (h : s.shard dec ≠ "") : s.shardEffect dec = none := by
  unfold NeedsState.shardEffect
  split
  · rfl
  · rw [if_neg h]

/-- The two effects never run in one render. -/
theorem effects_apart (hs : Sound s) :
    s.shardEffect dec = none ∨ s.clusterEffect eng dec = none := by
  by_cases h : s.shard dec = ""
  · exact Or.inr (clusterEffect_of_no_shard hs h)
  · exact Or.inl (shardEffect_of_shard h)

theorem sound_ask (hs : Sound s) : Sound (s.ask dec) := by
  unfold NeedsState.ask
  split_ifs with h
  · refine ⟨?_, fun shard hshard => List.mem_cons_of_mem _ (hs.answered shard hshard)⟩
    rw [List.mem_cons, not_or]
    exact ⟨Ne.symm h.2, hs.asked⟩
  · exact hs

@[simp] theorem shards_commit : (s.commit eng dec).shards = s.shards := by
  unfold NeedsState.commit NeedsState.ask
  split_ifs <;> rfl

@[simp] theorem cache_commit : (s.commit eng dec).cache = s.cache := by
  unfold NeedsState.commit NeedsState.ask
  split_ifs <;> rfl

theorem sound_commit (hs : Sound s) : Sound (s.commit eng dec) :=
  have hask : Sound (s.ask dec) := sound_ask hs
  ⟨hask.asked, hask.answered⟩

theorem search_commit :
    (s.commit eng dec).search =
      ((s.clusterEffect eng dec).or (s.shardEffect dec)).getD s.search := rfl

/-- The effects read the address, the shards and the cache. -/
theorem search_commit_congr {t : NeedsState} (hsearch : s.search = t.search)
    (hshards : s.shards = t.shards) (hcache : s.cache = t.cache) :
    (s.commit eng dec).search = (t.commit eng dec).search := by
  have hparams : s.params dec = t.params dec := by rw [NeedsState.params, NeedsState.params, hsearch]
  have hshard : s.shard dec = t.shard dec := by rw [NeedsState.shard, NeedsState.shard, hparams]
  have hcluster : s.cluster dec = t.cluster dec := by
    rw [NeedsState.cluster, NeedsState.cluster, hparams]
  have hall : s.all dec = t.all dec := by rw [NeedsState.all, NeedsState.all, hshard, hcache]
  rw [search_commit, search_commit, NeedsState.clusterEffect, NeedsState.clusterEffect,
    NeedsState.shardEffect, NeedsState.shardEffect, hall, hcluster, hparams, hshard, hshards, hsearch]

theorem params_of_search {h : Hook} {v : String} {ps : Params} (hsearch : s.search = h.setValue v ps) :
    s.params dec = h.write v ps := by
  rw [NeedsState.params, hsearch, parse_setValue]

/-! ## One render -/

/-- The first cluster of the drop-down, if there is one. -/
def firstCluster (eng : Engine) (needs : List NeedView) : String :=
  ((clusterOptions eng needs).head?.map ClusterOption.id).getD ""

theorem commit_of_no_shard (hs : Sound s) (h : s.shard dec = "") :
    (s.commit eng dec).shard dec = s.shards.head?.getD "" ∧
    (s.commit eng dec).cluster dec = s.cluster dec := by
  have hsearch := @search_commit eng dec s
  rw [clusterEffect_of_no_shard hs h, Option.none_or, NeedsState.shardEffect] at hsearch
  cases hshards : s.shards with
  | nil =>
    rw [hshards] at hsearch
    have hparams : (s.commit eng dec).params dec = s.params dec := by
      rw [NeedsState.params, hsearch]
      rfl
    rw [NeedsState.shard, NeedsState.cluster, hparams]
    exact ⟨h, rfl⟩
  | cons first rest =>
    rw [hshards] at hsearch
    simp only [if_pos h, Option.getD_some] at hsearch
    rw [NeedsState.shard, NeedsState.cluster, params_of_search hsearch, Hook.value_write,
      Hook.value_write_of_ne shardHook _ _ keys_apart.1.symm]
    refine ⟨?_, rfl⟩
    show (if first = "" then "" else first) = first
    split_ifs with hfirst
    · exact hfirst.symm
    · rfl

theorem commit_of_shard (h : s.shard dec ≠ "") :
    (s.commit eng dec).shard dec = s.shard dec ∧
    (s.commit eng dec).cluster dec =
      if s.cluster dec = "" then firstCluster eng (s.all dec) else s.cluster dec := by
  have hsearch := @search_commit eng dec s
  rw [shardEffect_of_shard h, Option.or_none, NeedsState.clusterEffect] at hsearch
  rw [firstCluster]
  have hquiet : (s.commit eng dec).search = s.search →
      (s.commit eng dec).shard dec = s.shard dec ∧
      (s.commit eng dec).cluster dec = s.cluster dec := by
    intro heq
    have hparams : (s.commit eng dec).params dec = s.params dec := by
      rw [NeedsState.params, heq]
      rfl
    rw [NeedsState.shard, NeedsState.cluster, hparams]
    exact ⟨rfl, rfl⟩
  cases hoptions : clusterOptions eng (s.all dec) with
  | nil =>
    rw [hoptions] at hsearch
    obtain ⟨hshard, hcluster⟩ := hquiet hsearch
    refine ⟨hshard, ?_⟩
    rw [hcluster]
    split_ifs with hempty
    · exact hempty
    · rfl
  | cons first rest =>
    rw [hoptions] at hsearch
    by_cases hempty : s.cluster dec = ""
    · simp only [if_pos hempty, Option.getD_some] at hsearch
      rw [NeedsState.shard, NeedsState.cluster, params_of_search hsearch, Hook.value_write,
        Hook.value_write_of_ne clusterHook _ _ keys_apart.1, if_pos hempty]
      refine ⟨rfl, ?_⟩
      show (if first.id = "" then "" else first.id) = first.id
      split_ifs with hid
      · exact hid.symm
      · rfl
    · simp only [if_neg hempty, Option.getD_none] at hsearch
      obtain ⟨hshard, hcluster⟩ := hquiet hsearch
      rw [if_neg hempty]
      exact ⟨hshard, hcluster⟩

theorem all_commit (h : s.shard dec ≠ "") : (s.commit eng dec).all dec = s.all dec := by
  rw [NeedsState.all, NeedsState.all, (commit_of_shard h).1, cache_commit]

/-- A render writes one of the two parameters, or nothing. -/
theorem params_commit (eng : Engine) (dec : TextDecoder) (s : NeedsState) :
    (s.commit eng dec).params dec = s.params dec ∨
      ∃ h ∈ [shardHook, clusterHook], ∃ v, (s.commit eng dec).params dec = h.write v (s.params dec) := by
  have hsearch := @search_commit eng dec s
  cases hcluster : s.clusterEffect eng dec with
  | some search =>
    obtain ⟨v, rfl⟩ : ∃ v, search = clusterHook.setValue v (s.params dec) := by
      unfold NeedsState.clusterEffect at hcluster
      split at hcluster
      · cases hcluster
      · split_ifs at hcluster
        exact ⟨_, (Option.some.inj hcluster).symm⟩
    rw [hcluster] at hsearch
    exact Or.inr ⟨clusterHook, by simp, v, params_of_search hsearch⟩
  | none =>
    rw [hcluster, Option.none_or] at hsearch
    cases hshard : s.shardEffect dec with
    | some search =>
      obtain ⟨v, rfl⟩ : ∃ v, search = shardHook.setValue v (s.params dec) := by
        unfold NeedsState.shardEffect at hshard
        split at hshard
        · cases hshard
        · split_ifs at hshard
          exact ⟨_, (Option.some.inj hshard).symm⟩
      rw [hshard] at hsearch
      exact Or.inr ⟨shardHook, by simp, v, params_of_search hsearch⟩
    | none =>
      rw [hshard] at hsearch
      refine Or.inl ?_
      rw [NeedsState.params, hsearch]
      rfl

theorem filter_commit {p : String × String → Bool} (hshard : ∀ w, p (shardHook.key, w) = false)
    (hcluster : ∀ w, p (clusterHook.key, w) = false) :
    ((s.commit eng dec).params dec).filter p = (s.params dec).filter p := by
  obtain hsame | ⟨h, hh, v, hwrite⟩ := params_commit eng dec s
  · rw [hsame]
  · rw [hwrite]
    apply Hook.filter_write
    rcases List.mem_pair.mp hh with rfl | rfl
    · exact hshard
    · exact hcluster

theorem status_commit : (s.commit eng dec).statusRaw dec = s.statusRaw dec := by
  obtain hsame | ⟨h, hh, v, hwrite⟩ := params_commit eng dec s
  · rw [NeedsState.statusRaw, hsame, NeedsState.statusRaw]
  · rw [NeedsState.statusRaw, hwrite, NeedsState.statusRaw]
    apply Hook.value_write_of_ne
    rcases List.mem_pair.mp hh with rfl | rfl
    · exact keys_apart.2.1.symm
    · exact keys_apart.2.2.symm

/-! ## Renders come to rest -/

theorem write_empty_write (h : Hook) (ps : Params) : h.write "" (h.write "" ps) = h.write "" ps := by
  have hwrite : ∀ qs, h.write "" qs = delete h.key qs := fun qs =>
    if_neg (fun hne => hne.1 rfl)
  rw [hwrite, hwrite, delete, delete, List.filter_filter]
  simp

theorem search_commit_of_selected (hshard : s.shard dec ≠ "") (hcluster : s.cluster dec ≠ "") :
    (s.commit eng dec).search = s.search := by
  have hnone : s.clusterEffect eng dec = none := by
    unfold NeedsState.clusterEffect
    split
    · rfl
    · rw [if_neg hcluster]
  rw [search_commit, hnone, shardEffect_of_shard hshard]
  rfl

theorem commit_commit_of_shard (h : s.shard dec ≠ "") :
    ((s.commit eng dec).commit eng dec).search = (s.commit eng dec).search := by
  obtain ⟨hshard, hcluster⟩ := @commit_of_shard eng dec _ h
  have hsearch := @search_commit eng dec s
  rw [shardEffect_of_shard h, Option.or_none, NeedsState.clusterEffect] at hsearch
  have hquiet : (s.commit eng dec).search = s.search →
      ((s.commit eng dec).commit eng dec).search = (s.commit eng dec).search := fun heq =>
    search_commit_congr heq shards_commit cache_commit
  by_cases hempty : s.cluster dec = ""
  · cases hoptions : clusterOptions eng (s.all dec) with
    | nil =>
      rw [hoptions] at hsearch
      exact hquiet hsearch
    | cons first rest =>
      rw [hoptions] at hsearch
      simp only [if_pos hempty, Option.getD_some] at hsearch
      rw [if_pos hempty, firstCluster, hoptions] at hcluster
      by_cases hid : first.id = ""
      · -- A cluster without a name is selected again, to no effect.
        have hagain : ((s.commit eng dec).commit eng dec).search =
            clusterHook.setValue first.id ((s.commit eng dec).params dec) := by
          rw [search_commit, shardEffect_of_shard (by rw [hshard]; exact h), Option.or_none,
            NeedsState.clusterEffect, all_commit h, hoptions]
          simp only [if_pos (hcluster.trans hid), Option.getD_some]
        rw [hagain, params_of_search hsearch, hsearch, Hook.setValue, Hook.setValue, hid,
          write_empty_write]
      · refine search_commit_of_selected ?_ ?_
        · rw [hshard]
          exact h
        · rw [hcluster]
          exact hid
  · apply hquiet
    exact search_commit_of_selected h hempty

/-- After two renders the address does not change any more. -/
theorem commit_settles (hs : Sound s) :
    (((s.commit eng dec).commit eng dec).commit eng dec).search =
      ((s.commit eng dec).commit eng dec).search := by
  by_cases h : s.shard dec = ""
  · obtain ⟨hshard, -⟩ := @commit_of_no_shard eng dec _ hs h
    by_cases hnext : (s.commit eng dec).shard dec = ""
    · have hstill : ((s.commit eng dec).commit eng dec).search = (s.commit eng dec).search := by
        have hsearch := @search_commit eng dec s
        rw [clusterEffect_of_no_shard hs h, Option.none_or, NeedsState.shardEffect] at hsearch
        cases hshards : s.shards with
        | nil =>
          rw [hshards] at hsearch
          exact search_commit_congr hsearch shards_commit cache_commit
        | cons first rest =>
          rw [hshards] at hsearch
          simp only [if_pos h, Option.getD_some] at hsearch
          have hfirst : first = "" := by
            rw [hshards] at hshard
            exact hshard.symm.trans hnext
          have hagain : ((s.commit eng dec).commit eng dec).search =
              shardHook.setValue first ((s.commit eng dec).params dec) := by
            rw [search_commit, clusterEffect_of_no_shard (sound_commit hs) hnext, Option.none_or,
              NeedsState.shardEffect, shards_commit, hshards]
            simp only [if_pos hnext, Option.getD_some]
          rw [hagain, params_of_search hsearch, hsearch, Hook.setValue, Hook.setValue, hfirst,
            write_empty_write]
      exact search_commit_congr hstill shards_commit cache_commit
    · exact commit_commit_of_shard hnext
  · exact search_commit_congr (commit_commit_of_shard h) shards_commit cache_commit

theorem wired_commit : (s.commit eng dec).wired = s.wired := by
  unfold NeedsState.commit NeedsState.ask
  split_ifs <;> rfl

/-- A render asks for the needs of its shard. -/
theorem asks_commit (hwired : s.wired = true) (h : s.shard dec ≠ "") :
    s.shard dec ∈ (s.commit eng dec).asked := by
  have hask : (s.commit eng dec).asked = s.shard dec :: s.asked := by
    unfold NeedsState.commit NeedsState.ask
    rw [if_pos ⟨hwired, h⟩]
  rw [hask]
  exact List.mem_cons_self

end Commit

/-! ## Events -/

/-- The parameter that an event writes, and the value. -/
def Event.write? : Event → Option (Hook × String)
  | .setShard v => some (shardHook, v)
  | .setCluster v => some (clusterHook, v)
  | .setStatus v => some (statusHook, v)
  | _ => none

/-- The parameters after an event, before the effects. -/
def Event.params (e : Event) (ps : Params) : Params :=
  match e with
  | .navigate search => parse dec search
  | e =>
    match e.write? with
    | some (h, v) => h.write v ps
    | none => ps

section Events
variable {eng dec} {s : NeedsState}

theorem params_handle (s : NeedsState) (e : Event) :
    (s.handle dec e).params dec = e.params dec (s.params dec) := by
  cases e with
  | config wired => rfl
  | topology shards =>
    unfold NeedsState.handle
    dsimp only
    split_ifs <;> rfl
  | needs shard answer =>
    unfold NeedsState.handle
    dsimp only
    split_ifs <;> rfl
  | forget shard => rfl
  | setShard v => exact parse_setValue dec _ _ _
  | setCluster v => exact parse_setValue dec _ _ _
  | setStatus v => exact parse_setValue dec _ _ _
  | navigate search => rfl

theorem sound_handle (hs : Sound s) (e : Event) : Sound (s.handle dec e) := by
  cases e with
  | config wired => exact ⟨hs.asked, hs.answered⟩
  | topology shards =>
    unfold NeedsState.handle
    dsimp only
    split_ifs
    · exact ⟨hs.asked, hs.answered⟩
    · exact hs
  | needs shard answer =>
    unfold NeedsState.handle
    dsimp only
    split_ifs with hasked
    · refine ⟨hs.asked, ?_⟩
      intro other hother
      change (Function.update s.cache shard (some answer) other).isSome at hother
      by_cases heq : other = shard
      · rw [heq]
        exact hasked
      · exact hs.answered other (by rwa [Function.update_of_ne heq] at hother)
    · exact hs
  | forget shard =>
    refine ⟨hs.asked, ?_⟩
    intro other hother
    change (Function.update s.cache shard none other).isSome at hother
    have hne : other ≠ shard := by
      rintro rfl
      rw [Function.update_self] at hother
      cases hother
    exact hs.answered other (by rwa [Function.update_of_ne hne] at hother)
  | setShard v => exact ⟨hs.asked, hs.answered⟩
  | setCluster v => exact ⟨hs.asked, hs.answered⟩
  | setStatus v => exact ⟨hs.asked, hs.answered⟩
  | navigate search => exact ⟨hs.asked, hs.answered⟩

theorem sound_step (hs : Sound s) (e : Event) : Sound (s.step eng dec e) :=
  sound_commit (sound_commit (sound_handle hs e))

end Events

/-! ## Runs -/

/-- The page as it is opened at an address. -/
def NeedsState.opened (search : List Char) : NeedsState where
  wired := false
  search := search
  shards := []
  cache _ := none
  asked := []

def NeedsState.run (search : List Char) (events : List Event) : NeedsState :=
  events.foldl (NeedsState.step eng dec) (NeedsState.opened search)

/-- A parameter that is none of the page's own. -/
def foreign (e : String × String) : Bool :=
  e.1 ∉ [shardHook.key, clusterHook.key, statusHook.key]

/-- What the page has selected after an event: what the parameters say, and otherwise the
first shard and the first cluster. -/
structure Selects (s s' : NeedsState) (e : Event) : Prop where
  shard : s'.shard dec =
    if shardHook.value (e.params dec (s.params dec)) = "" then s'.shards.head?.getD ""
    else shardHook.value (e.params dec (s.params dec))
  cluster : s'.cluster dec =
    if clusterHook.value (e.params dec (s.params dec)) = "" then firstCluster eng (s'.all dec)
    else clusterHook.value (e.params dec (s.params dec))
  statusRaw : s'.statusRaw dec = statusHook.value (e.params dec (s.params dec))
  status : s'.status dec = (s.handle dec e).status dec
  foreign : (s'.params dec).filter foreign = (e.params dec (s.params dec)).filter foreign
  settled : (s'.commit eng dec).search = s'.search
  apart : ∀ t ∈ [s.handle dec e, (s.handle dec e).commit eng dec],
    t.shardEffect dec = none ∨ t.clusterEffect eng dec = none
  asked : ∀ shard ∈ s'.asked, shard ≠ ""
  asks : s'.wired = true → s'.shard dec ≠ "" → s'.shard dec ∈ s'.asked
  answered : ∀ shard, (s'.cache shard).isSome → shard ∈ s'.asked ∧ shard ≠ ""

/-- Two renders give the selection by its rule. -/
theorem commit_commit {t : NeedsState} (ht : Sound t) :
    ((t.commit eng dec).commit eng dec).shard dec =
      (if t.shard dec = "" then t.shards.head?.getD "" else t.shard dec) ∧
    ((t.commit eng dec).commit eng dec).cluster dec =
      (if t.cluster dec = "" then firstCluster eng (((t.commit eng dec).commit eng dec).all dec)
      else t.cluster dec) := by
  have hc : Sound (t.commit eng dec) := sound_commit ht
  have hnothing : firstCluster eng [] = "" := by
    rw [firstCluster, clusterOptions_nil]
    rfl
  by_cases h : t.shard dec = ""
  · obtain ⟨hshard, hcluster⟩ := @commit_of_no_shard eng dec _ ht h
    rw [if_pos h]
    by_cases hnext : (t.commit eng dec).shard dec = ""
    · obtain ⟨hshard', hcluster'⟩ := @commit_of_no_shard eng dec _ hc hnext
      rw [shards_commit] at hshard'
      have hempty : ((t.commit eng dec).commit eng dec).shard dec = "" := by
        rw [hshard', ← hshard, hnext]
      refine ⟨hshard', ?_⟩
      rw [all_of_no_shard (sound_commit hc) hempty, hnothing, hcluster', hcluster]
      split_ifs with hcl
      · exact hcl
      · rfl
    · obtain ⟨hshard', hcluster'⟩ := @commit_of_shard eng dec _ hnext
      refine ⟨hshard'.trans hshard, ?_⟩
      rw [hcluster', hcluster, all_commit hnext]
  · obtain ⟨hshard, hcluster⟩ := @commit_of_shard eng dec _ h
    have hnext : (t.commit eng dec).shard dec ≠ "" := by
      rw [hshard]
      exact h
    obtain ⟨hshard', hcluster'⟩ := @commit_of_shard eng dec _ hnext
    refine ⟨by rw [hshard', hshard, if_neg h], ?_⟩
    rw [hcluster', all_commit hnext, all_commit h, hcluster]
    by_cases hcl : t.cluster dec = ""
    · rw [if_pos hcl]
      split_ifs with hfirst
      · rfl
      · rfl
    · rw [if_neg hcl, if_neg hcl]

theorem selects_of_sound {s : NeedsState} (hs : Sound s) (e : Event) :
    Selects eng dec s (s.step eng dec e) e := by
  have ht : Sound (s.handle dec e) := sound_handle hs e
  have hc : Sound ((s.handle dec e).commit eng dec) := sound_commit ht
  have hs' : Sound (s.step eng dec e) := sound_step hs e
  have hparams := @params_handle dec s e
  obtain ⟨hshard, hcluster⟩ := commit_commit eng dec ht
  have hforeign : ∀ h ∈ [shardHook, clusterHook], ∀ w, foreign (h.key, w) = false := by
    intro h hh w
    rcases List.mem_pair.mp hh with rfl | rfl <;> rfl
  constructor
  case shard =>
    rw [← hparams, NeedsState.step, shards_commit, shards_commit]
    exact hshard
  case cluster =>
    rw [← hparams]
    exact hcluster
  case statusRaw =>
    rw [← hparams, NeedsState.step, status_commit, status_commit]
    rfl
  case status =>
    rw [NeedsState.step, NeedsState.status, status_commit, status_commit]
    rfl
  case foreign =>
    have hkeep := fun t => @filter_commit eng dec t _
      (hforeign shardHook (by simp)) (hforeign clusterHook (by simp))
    rw [← hparams, NeedsState.step, hkeep, hkeep]
  case settled => exact commit_settles ht
  case apart =>
    intro t hmem
    rcases List.mem_pair.mp hmem with rfl | rfl
    · exact effects_apart ht
    · exact effects_apart hc
  case asked =>
    rintro shard hasked rfl
    exact hs'.asked hasked
  case asks =>
    intro hwired hne
    have hnext : ((s.handle dec e).commit eng dec).shard dec ≠ "" := by
      intro hempty
      obtain ⟨hstay, -⟩ := @commit_of_no_shard eng dec _ hc hempty
      by_cases h : (s.handle dec e).shard dec = ""
      · rw [shards_commit, ← (@commit_of_no_shard eng dec _ ht h).1] at hstay
        exact hne (hstay.trans hempty)
      · exact h ((@commit_of_shard eng dec _ h).1.symm.trans hempty)
    rw [NeedsState.step] at hwired ⊢
    rw [(commit_of_shard hnext).1]
    exact asks_commit (by rwa [wired_commit] at hwired) hnext
  case answered =>
    intro shard hanswered
    have hasked := hs'.answered shard hanswered
    refine ⟨hasked, ?_⟩
    rintro rfl
    exact hs'.asked hasked

/-- From any address and through any events, the page selects what its parameters say and
otherwise the first of what it offers, and never asks without a shard. -/
theorem needs_selection (search : List Char) (events : List Event) (e : Event) :
    Selects eng dec (NeedsState.run eng dec search events)
      ((NeedsState.run eng dec search events).step eng dec e) e := by
  apply selects_of_sound
  rw [NeedsState.run]
  have hopened : Sound (NeedsState.opened search) := by
    refine ⟨?_, ?_⟩
    · exact List.not_mem_nil
    · intro shard h
      cases h
  generalize NeedsState.opened search = s at hopened
  induction events generalizing s with
  | nil => exact hopened
  | cons e events ih => exact ih _ (sound_step hopened e)

end Page

end BigfleetDashboard.Pages
