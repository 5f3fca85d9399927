import BigfleetDashboard.ClusterCounts
import BigfleetDashboard.NumeralKeys

/-!
# Listing the available capacity of a cluster

Package `kubeclient` turns every AvailableCapacity object into a hint, renders its
requirements as texts and sorts the hints. The sort is not stable and the API server may
list the objects in any order, so what a page shows is settled by the comparison alone.
-/
namespace BigfleetDashboard.KubeClient
open Go CoordClient Handlers StableSort NumeralKeys

def availableCapacityGVR : GroupVersionResource :=
  ⟨"bigfleet.lucy.sh", "v1alpha1", "availablecapacities"⟩

/-- The readers of package `unstructured`. Where the caller does not look at their other
results, nothing found and something ill-typed read as the zero value. -/
structure Getters where
  getName : Content → String
  nestedString : Content → List String → String
  nestedInt64 : Content → List String → Option Int
  nestedStringMap : Content → List String → GoMap String
  nestedSlice : Content → List String → Option (List Content)
  nestedStringSlice : Content → List String → List String

/-! ## Requirements -/

/-- `unicode.IsSpace`. -/
def isSpace (c : Char) : Bool :=
  ['\t', '\n', Char.ofNat 0x0B, Char.ofNat 0x0C, '\r', ' ', Char.ofNat 0x85, Char.ofNat 0xA0,
    Char.ofNat 0x1680, Char.ofNat 0x2028, Char.ofNat 0x2029, Char.ofNat 0x202F, Char.ofNat 0x205F,
    Char.ofNat 0x3000].contains c ||
  (0x2000 ≤ c.toNat && c.toNat ≤ 0x200A)

/-- `strings.TrimSpace`. -/
def trimSpace (s : String) : String :=
  String.ofList (((s.toList.dropWhile isSpace).reverse.dropWhile isSpace).reverse)

structure Requirement where
  key : String
  operator : String
  values : List String
  deriving DecidableEq

/-- The text of a requirement; one without a key and without values has none. -/
def Requirement.text (r : Requirement) : Option String :=
  if r.values ≠ [] then
    some (r.key ++ " " ++ r.operator ++ " [" ++ ",".intercalate r.values ++ "]")
  else if r.key ≠ "" then some (trimSpace (r.key ++ " " ++ r.operator))
  else none

def readRequirement (g : Getters) (m : Content) : Requirement where
  key := g.nestedString m ["key"]
  operator := g.nestedString m ["operator"]
  values := g.nestedStringSlice m ["values"]

/-- The requirements of an object; an entry that is no map is skipped. -/
def requirements (g : Getters) (obj : Content) : List Requirement :=
  ((g.nestedSlice obj ["spec", "requirements"]).getD []).filterMap (fun r =>
    match r with
    | .map fields => some (readRequirement g (.map fields))
    | _ => none)

def formatRequirements (g : Getters) (obj : Content) : List String :=
  (requirements g obj).filterMap Requirement.text

/-! ## Readers and objects that are as documented -/

/-- The texts of a list of texts, unless something else is among them. -/
def stringElements : List Content → Option (List String)
  | [] => some []
  | .str s :: rest => (stringElements rest).map (fun ss => s :: ss)
  | _ :: _ => none

def plainGetters : Getters where
  getName obj := Clusters.plainNestedString obj ["metadata", "name"]
  nestedString := Clusters.plainNestedString
  nestedInt64 obj path :=
    match obj.lookup path with
    | some (.int n) => some n
    | _ => none
  nestedStringMap obj path :=
    match obj.lookup path with
    | some (.map fields) =>
      (stringElements (fields.map Prod.snd)).map (fun values =>
        ((fields.map Prod.fst).zip values).foldl (fun m e => m.set e.1 e.2) OrderedMap.empty)
    | _ => none
  nestedSlice obj path :=
    match obj.lookup path with
    | some (.list xs) => some xs
    | _ => none
  nestedStringSlice obj path :=
    match obj.lookup path with
    | some (.list xs) => (stringElements xs).getD []
    | _ => []

/-- An object with a name, a count and one requirement. -/
def hintObject (name : String) (count : Int) (key operator : String) (values : List String) :
    Content :=
  .map [("metadata", .map [("name", .str name)]),
    ("spec", .map [("availableCount", .int count),
      ("requirements", .list [.map [("key", .str key), ("operator", .str operator),
        ("values", .list (values.map Content.str))]])])]

def spot : Content := hintObject "spot" 4 "zone" "In" ["a", "b"]
def reserved : Content := hintObject "reserved" 4 "zone" "Exists" []

/-! ## What the texts tell -/

/-- A requirement in the syntax of labels: no blank in its key and its operator, and no
comma in a value. -/
structure Requirement.Labelled (r : Requirement) : Prop where
  key_ne : r.key ≠ ""
  operator_ne : r.operator ≠ ""
  key : r.key.toList.any isSpace = false
  operator : r.operator.toList.any isSpace = false
  values : ∀ v ∈ r.values, ',' ∉ v.toList

theorem blank_notMem {s : String} (h : s.toList.any isSpace = false) : ' ' ∉ s.toList := by
  intro hmem
  exact List.any_eq_false.mp h ' ' hmem (by decide)

/-- Nothing is trimmed between two characters that are no blanks. -/
theorem trimSpace_of_ends {s : String} (hfirst : ∀ c ∈ s.toList.head?, isSpace c = false)
    (hlast : ∀ c ∈ s.toList.getLast?, isSpace c = false) : trimSpace s = s := by
  have hdrop : ∀ l : List Char, (∀ c ∈ l.head?, isSpace c = false) → l.dropWhile isSpace = l := by
    intro l hl
    cases l with
    | nil => rfl
    | cons c l => rw [List.dropWhile_cons, hl c rfl, if_neg Bool.false_ne_true]
  rw [trimSpace, hdrop s.toList hfirst, hdrop s.toList.reverse (by rwa [List.head?_reverse]),
    List.reverse_reverse, String.ofList_toList]

theorem Requirement.Labelled.text_of_nil {r : Requirement} (h : r.Labelled) (hv : r.values = []) :
    r.text = some (r.key ++ " " ++ r.operator) := by
  have hkey : r.key.toList ≠ [] := fun hnil => h.key_ne (String.toList_eq_nil_iff.mp hnil)
  have hop : r.operator.toList ≠ [] := fun hnil => h.operator_ne (String.toList_eq_nil_iff.mp hnil)
  rw [Requirement.text, if_neg (by simp [hv]), if_pos h.key_ne, trimSpace_of_ends]
  · intro c hc
    rw [String.toList_append, String.toList_append, List.append_assoc,
      List.head?_append_of_ne_nil _ hkey] at hc
    exact Bool.eq_false_iff.mpr (List.any_eq_false.mp h.key c (List.mem_of_mem_head? hc))
  · intro c hc
    rw [String.toList_append, List.getLast?_append_of_ne_nil _ hop] at hc
    exact Bool.eq_false_iff.mpr (List.any_eq_false.mp h.operator c (List.mem_of_mem_getLast? hc))

theorem Requirement.text_of_ne_nil {r : Requirement} (hv : r.values ≠ []) :
    r.text = some (r.key ++ " " ++ (r.operator ++ " " ++ ("[" ++ ",".intercalate r.values ++ "]"))) := by
  rw [Requirement.text, if_pos hv]
  simp only [Option.some.injEq, ← String.toList_inj, String.toList_append, List.append_assoc]
  rfl

/-- The text of a requirement tells which one it is. -/
theorem Requirement.text_inj {r r' : Requirement} (h : r.Labelled) (h' : r'.Labelled)
    (htext : r.text = r'.text) : r = r' := by
  have hblank : " ".toList = [' '] := rfl
  by_cases hv : r.values = []
  · by_cases hv' : r'.values = []
    · rw [h.text_of_nil hv, h'.text_of_nil hv', Option.some.injEq] at htext
      obtain ⟨hkey, hop⟩ := pair_inj hblank (blank_notMem h.key) (blank_notMem h'.key) htext
      cases r
      cases r'
      simp_all
    · rw [h.text_of_nil hv, text_of_ne_nil hv', Option.some.injEq] at htext
      obtain ⟨-, hop⟩ := pair_inj hblank (blank_notMem h.key) (blank_notMem h'.key) htext
      refine absurd ?_ (blank_notMem h.operator)
      rw [hop]
      simp
  · by_cases hv' : r'.values = []
    · rw [text_of_ne_nil hv, h'.text_of_nil hv', Option.some.injEq] at htext
      obtain ⟨-, hop⟩ := pair_inj hblank (blank_notMem h.key) (blank_notMem h'.key) htext
      refine absurd ?_ (blank_notMem h'.operator)
      rw [← hop]
      simp
    · rw [text_of_ne_nil hv, text_of_ne_nil hv', Option.some.injEq] at htext
      obtain ⟨hkey, hrest⟩ := pair_inj hblank (blank_notMem h.key) (blank_notMem h'.key) htext
      obtain ⟨hop, hvalues⟩ :=
        pair_inj hblank (blank_notMem h.operator) (blank_notMem h'.operator) hrest
      have hjoin : ",".intercalate r.values = ",".intercalate r'.values := by
        rw [String.append_left_inj, String.append_right_inj] at hvalues
        exact hvalues
      have hsame := join_inj (show ",".toList = [','] from rfl) h.values h'.values hv hv' hjoin
      cases r
      cases r'
      simp_all

theorem Requirement.Labelled.text_isSome {r : Requirement} (h : r.Labelled) :
    ∃ t, r.text = some t := by
  by_cases hv : r.values = []
  · exact ⟨_, h.text_of_nil hv⟩
  · exact ⟨_, text_of_ne_nil hv⟩

theorem length_texts {rs : List Requirement} (h : ∀ r ∈ rs, r.Labelled) :
    (rs.filterMap Requirement.text).length = rs.length := by
  induction rs with
  | nil => rfl
  | cons r rs ih =>
    obtain ⟨t, ht⟩ := (h r List.mem_cons_self).text_isSome
    rw [List.filterMap_cons_some ht, List.length_cons, List.length_cons,
      ih (fun x hx => h x (List.mem_cons_of_mem r hx))]

theorem texts_inj {rs rs' : List Requirement} (h : ∀ r ∈ rs, r.Labelled)
    (h' : ∀ r ∈ rs', r.Labelled)
    (heq : rs.filterMap Requirement.text = rs'.filterMap Requirement.text) : rs = rs' := by
  induction rs generalizing rs' with
  | nil =>
    have hlen := length_texts h'
    rw [← heq] at hlen
    exact (List.length_eq_zero_iff.mp hlen.symm).symm
  | cons r rs ih =>
    cases rs' with
    | nil =>
      have hlen := length_texts h
      rw [heq] at hlen
      exact absurd hlen (by simp)
    | cons r' rs' =>
      have hr := h r List.mem_cons_self
      have hr' := h' r' List.mem_cons_self
      obtain ⟨t, ht⟩ := hr.text_isSome
      obtain ⟨t', ht'⟩ := hr'.text_isSome
      rw [List.filterMap_cons_some ht, List.filterMap_cons_some ht', List.cons.injEq] at heq
      have hhead : r = r' := Requirement.text_inj hr hr' (by rw [ht, ht', heq.1])
      rw [hhead, ih (fun x hx => h x (List.mem_cons_of_mem r hx))
        (fun x hx => h' x (List.mem_cons_of_mem r' hx)) heq.2]

/-- No requirement of an object is dropped, and the texts of two objects differ as soon as
their requirements do. -/
theorem formatRequirements_faithful {g : Getters} {obj obj' : Content}
    (h : ∀ r ∈ requirements g obj, r.Labelled) (h' : ∀ r ∈ requirements g obj', r.Labelled) :
    (formatRequirements g obj).length = (requirements g obj).length ∧
      (formatRequirements g obj = formatRequirements g obj' ↔
        requirements g obj = requirements g obj') := by
  refine ⟨length_texts h, ?_, ?_⟩
  · intro heq
    exact texts_inj h h' heq
  · intro heq
    rw [formatRequirements, formatRequirements, heq]

theorem formatRequirements_faithful_spot :
    (formatRequirements plainGetters spot).length = (requirements plainGetters spot).length ∧
      (formatRequirements plainGetters spot = formatRequirements plainGetters reserved ↔
        requirements plainGetters spot = requirements plainGetters reserved) := by
  have hspot : requirements plainGetters spot = [⟨"zone", "In", ["a", "b"]⟩] := rfl
  have hreserved : requirements plainGetters reserved = [⟨"zone", "Exists", []⟩] := rfl
  refine formatRequirements_faithful ?_ ?_
  · rw [hspot]
    intro r hr
    rw [List.mem_singleton.mp hr]
    exact ⟨by decide, by decide, rfl, rfl, by decide⟩
  · rw [hreserved]
    intro r hr
    rw [List.mem_singleton.mp hr]
    exact ⟨by decide, by decide, rfl, rfl, by decide⟩

/-! ## The listing -/

/-- The projection of one object. -/
def toAvailableCapacity (g : Getters) (obj : Content) : AvailableCapacity where
  name := g.getName obj
  resources := g.nestedStringMap obj ["spec", "resources"]
  availableCount := (g.nestedInt64 obj ["spec", "availableCount"]).getD 0
  availability := g.nestedString obj ["spec", "availability"]
  cost := g.nestedString obj ["spec", "cost"]
  requirements := formatRequirements g obj

/-- The most hints first, and the names in order among equal counts. -/
def hintLess (a b : AvailableCapacity) : Bool :=
  if a.availableCount ≠ b.availableCount then b.availableCount < a.availableCount
  else a.name < b.name

/-- What the API server of a cluster lists. -/
def Client.listed (c : Client) (cluster : String) : Except String ObjectList :=
  match c.clientFor cluster with
  | .error err => .error err
  | .ok cl => cl availableCapacityGVR "0"

def Client.listAvailableCapacity (g : Getters) (rt : Runtime) (c : Client) (cluster : String) :
    Except String (List AvailableCapacity) :=
  match c.listed cluster with
  | .error err => .error err
  | .ok list => .ok (rt.sortSlice hintLess (list.items.map (toAvailableCapacity g)))

/-- The kube client as the handler of the available capacity takes it. -/
def Client.kubeReader (g : Getters) (rt : Runtime) (c : Client) : KubeReader where
  configured := c.configured
  clusters := c.clusters
  listAvailableCapacity := c.listAvailableCapacity g rt

/-! ## The order of the hints -/

theorem hintLess_iff (a b : AvailableCapacity) :
    hintLess a b = true ↔ b.availableCount < a.availableCount ∨
      (a.availableCount = b.availableCount ∧ a.name < b.name) := by
  unfold hintLess
  split_ifs with h
  · simp [h]
  · rw [not_not] at h
    simp [h]

theorem hintLess_weakOrder : IsWeakOrder hintLess where
  irrefl a := by
    rw [hintLess_iff]
    simp
  trans a b c := by
    simp only [hintLess_iff]
    intro hab hbc
    obtain hab | ⟨hab, hname⟩ := hab
    · left
      obtain hbc | ⟨hbc, -⟩ := hbc
      all_goals omega
    · obtain hbc | ⟨hbc, hname'⟩ := hbc
      · left
        omega
      · exact Or.inr ⟨hab.trans hbc, hname.trans hname'⟩
  incomp_trans a b c := by
    have hties : ∀ x y : AvailableCapacity, (¬ hintLess x y = true ∧ ¬ hintLess y x = true) ↔
        x.availableCount = y.availableCount ∧ x.name = y.name := by
      intro x y
      simp only [hintLess_iff, not_or, not_and, not_lt]
      constructor
      · intro h
        have hcount : x.availableCount = y.availableCount := by omega
        exact ⟨hcount, le_antisymm (h.2.2 hcount.symm) (h.1.2 hcount)⟩
      · intro h
        rw [h.1, h.2]
        simp
    rw [hties, hties, hties]
    intro hab hbc
    exact ⟨hab.1.trans hbc.1, hab.2.trans hbc.2⟩

/-- Hints that tie have the same name. -/
theorem name_eq_of_tie {a b : AvailableCapacity} (hab : hintLess a b = false)
    (hba : hintLess b a = false) : a.name = b.name := by
  rw [← Bool.not_eq_true, hintLess_iff, not_or, not_and, not_lt, not_lt] at hab hba
  have hcount : a.availableCount = b.availableCount := le_antisymm hab.1 hba.1
  exact le_antisymm (hba.2 hcount.symm) (hab.2 hcount)

/-! ## What a listing settles -/

/-- The answers of two API servers that hold the same objects. -/
def SameObjects : Except String ObjectList → Except String ObjectList → Prop
  | .error err, .error err' => err = err'
  | .ok list, .ok list' => list.items.Perm list'.items
  | _, _ => False

/-- The objects of a cluster are told apart by their names. -/
def DistinctNames (g : Getters) : Except String ObjectList → Prop
  | .error _ => True
  | .ok list => (list.items.map g.getName).Nodup

/-- Two clients that reach the same clusters, whose servers hold the same objects. -/
structure Client.Agrees (c c' : Client) : Prop where
  kubeconfig : c.kubeconfig = c'.kubeconfig
  contexts : c.contexts.Perm c'.contexts
  objects : ∀ cluster, SameObjects (c.listed cluster) (c'.listed cluster)

/-- The hints of a listing are those of its objects, in the order of the page. -/
structure Arranged (g : Getters) (list : ObjectList) (hints : List AvailableCapacity) : Prop where
  each : hints.Perm (list.items.map (toAvailableCapacity g))
  ordered : hints.Pairwise (fun a b => b.availableCount < a.availableCount ∨
    (a.availableCount = b.availableCount ∧ a.name ≤ b.name))

/-- A slot of the answer shows the error of its cluster or the hints of its objects. -/
def SlotShows (g : Getters) (slot : AvailableCapacityCluster) : Except String ObjectList → Prop
  | .error err => slot.items = none ∧ slot.error = some err
  | .ok list => slot.error = none ∧ ∃ hints, slot.items = some hints ∧ Arranged g list hints

theorem sortSlice_arranged (g : Getters) (rt : Runtime) (list : ObjectList) :
    Arranged g list (rt.sortSlice hintLess (list.items.map (toAvailableCapacity g))) := by
  refine ⟨rt.sortSlice_perm _ _, ?_⟩
  refine (rt.sortSlice_sorted _ _ hintLess_weakOrder).imp ?_
  intro a b hba
  rw [← Bool.not_eq_true, hintLess_iff, not_or, not_and, not_lt, not_lt] at hba
  obtain hlt | heq := hba.1.lt_or_eq
  · exact Or.inl hlt
  · exact Or.inr ⟨heq.symm, hba.2 heq⟩

/-- Neither the order of the listing nor that of tied hints is left open. -/
theorem listAvailableCapacity_agrees {g : Getters} {c c' : Client} {cluster : String}
    (hobjects : SameObjects (c.listed cluster) (c'.listed cluster))
    (hnames : DistinctNames g (c.listed cluster)) (rt rt' : Runtime) :
    c.listAvailableCapacity g rt cluster = c'.listAvailableCapacity g rt' cluster := by
  unfold Client.listAvailableCapacity
  cases hlist : c.listed cluster with
  | error err =>
    cases hlist' : c'.listed cluster with
    | error err' =>
      rw [hlist, hlist'] at hobjects
      exact congrArg Except.error hobjects
    | ok list' =>
      rw [hlist, hlist'] at hobjects
      exact hobjects.elim
  | ok list =>
    cases hlist' : c'.listed cluster with
    | error err' =>
      rw [hlist, hlist'] at hobjects
      exact hobjects.elim
    | ok list' =>
      rw [hlist, hlist'] at hobjects
      rw [hlist] at hnames
      have hperm : (rt.sortSlice hintLess (list.items.map (toAvailableCapacity g))).Perm
          (rt'.sortSlice hintLess (list'.items.map (toAvailableCapacity g))) :=
        (rt.sortSlice_perm _ _).trans
          ((List.Perm.map _ hobjects).trans (rt'.sortSlice_perm _ _).symm)
      refine congrArg Except.ok (sorted_unique hperm (rt.sortSlice_sorted _ _ hintLess_weakOrder)
        (rt'.sortSlice_sorted _ _ hintLess_weakOrder) ?_)
      intro a ha b hb hab hba
      rw [(rt.sortSlice_perm _ _).mem_iff] at ha hb
      obtain ⟨x, hx, rfl⟩ := List.mem_map.mp ha
      obtain ⟨y, hy, rfl⟩ := List.mem_map.mp hb
      have hname : g.getName x = g.getName y := name_eq_of_tie hab hba
      rw [List.inj_on_of_nodup_map hnames hx hy hname]

theorem readCluster_id (g : Getters) (rt : Runtime) (c : Client) (cluster : String) :
    (readCluster (c.kubeReader g rt) cluster).id = cluster := by
  unfold readCluster
  split
  · rfl
  · rfl

theorem readCluster_shows (g : Getters) (rt : Runtime) (c : Client) (cluster : String) :
    SlotShows g (readCluster (c.kubeReader g rt) cluster) (c.listed cluster) := by
  unfold readCluster Client.kubeReader Client.listAvailableCapacity
  dsimp only
  cases hlist : c.listed cluster with
  | error err => exact ⟨rfl, rfl⟩
  | ok list => exact ⟨rfl, _, rfl, sortSlice_arranged g rt list⟩

/-- The answer of a configured client. -/
def Client.response (g : Getters) (rt : Runtime) (c : Client) (now : Int) :
    AvailableCapacityResponse :=
  { clusters := c.clusters.map (readCluster (c.kubeReader g rt)), queriedAt := now }

theorem availableCapacityHandler_eq {g : Getters} {s : Server} {rt : Runtime} {c : Client}
    (hs : s.kube = c.kubeReader g rt) (hconfigured : c.configured = true) (now : Int) :
    availableCapacityHandler s now = .ok (c.response g rt now) := by
  rw [availableCapacityHandler, hs]
  exact if_pos hconfigured

theorem response_ids (g : Getters) (rt : Runtime) (c : Client) (now : Int) :
    (c.response g rt now).clusters.map AvailableCapacityCluster.id = sortStrings c.contexts := by
  rw [Client.response, List.map_map]
  exact (List.map_congr_left (fun cluster _ => readCluster_id g rt c cluster)).trans
    (List.map_id _)

/-- Clients that reach the same clusters answer alike if their servers hold the same objects
and names tell the objects of a managed cluster apart. -/
theorem response_agrees {g : Getters} {c c' : Client} (hagree : c.Agrees c')
    (hnames : ∀ cluster ∈ c.contexts, DistinctNames g (c.listed cluster)) (rt rt' : Runtime)
    (now : Int) : c'.response g rt' now = c.response g rt now := by
  have hclusters : c'.clusters = c.clusters := by
    refine List.Perm.eq_of_pairwise (fun a b _ _ hab hba => le_antisymm hab hba)
      (sortStrings_sorted _) (sortStrings_sorted _) ?_
    exact (sortStrings_perm _).trans (hagree.contexts.symm.trans (sortStrings_perm _).symm)
  rw [Client.response, Client.response, hclusters]
  congr 1
  refine List.map_congr_left ?_
  intro cluster hmem
  have hcluster : cluster ∈ c.contexts := (sortStrings_perm _).mem_iff.mp hmem
  unfold readCluster Client.kubeReader
  dsimp only
  rw [listAvailableCapacity_agrees (hagree.objects cluster) (hnames cluster hcluster) rt rt']

/-- The answer lists every managed cluster once, in the order of the names, and in it every
object of the cluster once, in the order of the page. With names that tell the objects of a
cluster apart, servers that hold the same objects lead to the same answer, whatever the
order they list them in and whatever the sort does with ties. -/
theorem availableCapacity_settled {g : Getters} {s : Server} {rt : Runtime} {c : Client}
    (hs : s.kube = c.kubeReader g rt) (hconfigured : c.configured = true) (now : Int) :
    ∃ res, availableCapacityHandler s now = .ok res ∧
      res.clusters.map AvailableCapacityCluster.id = sortStrings c.contexts ∧
      (c.contexts.Nodup → (res.clusters.map AvailableCapacityCluster.id).Nodup) ∧
      (∀ slot ∈ res.clusters, SlotShows g slot (c.listed slot.id)) ∧
      ∀ (s' : Server) (rt' : Runtime) (c' : Client), s'.kube = c'.kubeReader g rt' →
        c.Agrees c' → (∀ cluster ∈ c.contexts, DistinctNames g (c.listed cluster)) →
        availableCapacityHandler s' now = .ok res := by
  refine ⟨c.response g rt now, availableCapacityHandler_eq hs hconfigured now,
    response_ids g rt c now, ?_, ?_, ?_⟩
  · intro hnodup
    rw [response_ids]
    exact (sortStrings_perm _).nodup_iff.mpr hnodup
  · intro slot hmem
    obtain ⟨cluster, -, rfl⟩ := List.mem_map.mp hmem
    rw [readCluster_id]
    exact readCluster_shows g rt c cluster
  · intro s' rt' c' hs' hagree hnames
    have hconfigured' : c'.configured = true := by
      rw [← hconfigured, Client.configured, Client.configured, hagree.kubeconfig]
    rw [availableCapacityHandler_eq hs' hconfigured', response_agrees hagree hnames rt rt']

/-- A client of one cluster that lists these objects. -/
def hintsOf (objects : List Content) (h : (objects.length : Int) ≤ maxInt64) : Client where
  kubeconfig := "kubeconfig.yaml"
  contexts := ["eu"]
  clientFor _ := .ok (fun _ _ => .ok ⟨objects, h⟩)
  nestedString := Clusters.plainNestedString

def hintsServer (objects : List Content) (h : (objects.length : Int) ≤ maxInt64) : Server :=
  { Server.unwired with kube := (hintsOf objects h).kubeReader plainGetters Runtime.plain }

theorem hintsOf_listed (objects : List Content) (h : (objects.length : Int) ≤ maxInt64)
    (cluster : String) : (hintsOf objects h).listed cluster = .ok ⟨objects, h⟩ := rfl

/-- The same two objects, listed either way round. -/
theorem availableCapacity_settled_swapped :
    ∃ res,
      availableCapacityHandler (hintsServer [spot, reserved] (by decide)) 7 = .ok res ∧
      res.clusters.map AvailableCapacityCluster.id = sortStrings ["eu"] ∧
      (res.clusters.map AvailableCapacityCluster.id).Nodup ∧
      (∀ slot ∈ res.clusters,
        SlotShows plainGetters slot ((hintsOf [spot, reserved] (by decide)).listed slot.id)) ∧
      availableCapacityHandler (hintsServer [reserved, spot] (by decide)) 7 = .ok res := by
  have hagree : (hintsOf [spot, reserved] (by decide)).Agrees
      (hintsOf [reserved, spot] (by decide)) := by
    refine ⟨rfl, List.Perm.refl _, ?_⟩
    intro cluster
    rw [hintsOf_listed, hintsOf_listed]
    exact List.Perm.swap reserved spot []
  obtain ⟨res, hres, hids, hnodup, hslots, hsame⟩ :=
    @availableCapacity_settled plainGetters (hintsServer [spot, reserved] (by decide))
      Runtime.plain (hintsOf [spot, reserved] (by decide)) rfl rfl 7
  refine ⟨res, hres, hids, hnodup (List.nodup_singleton "eu"), hslots, ?_⟩
  refine hsame (hintsServer [reserved, spot] (by decide)) Runtime.plain
    (hintsOf [reserved, spot] (by decide)) rfl hagree ?_
  intro cluster _
  rw [hintsOf_listed]
  show (["spot", "reserved"] : List String).Nodup
  decide

end BigfleetDashboard.KubeClient
