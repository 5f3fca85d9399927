import BigfleetDashboard.CapacityListing
import BigfleetDashboard.FinOps
import BigfleetDashboard.PathPatterns
import BigfleetDashboard.PercentEncoding
import BigfleetDashboard.ShardNeeds
import BigfleetDashboard.ShardReports

/-!
# The routes of the server

Every entry of the route table is mounted under `/api`, which the bundled page calls, and
under `/api/v1`, the contract for other tools; every other path belongs to the page. The
table is a map, so the entries are registered in any order.
-/
namespace BigfleetDashboard.Web
open Go Handlers Clusters PathPatterns Percent

/-! ## Requests -/

/-- A decoded text; one that is not UTF-8 reads as the replacement character. -/
def goString (bs : Bytes) : String := (textOf bs).getD "\uFFFD"

/-- In a path every character that is no escape stands for itself. -/
def pathLiteral (c : Char) : Bytes := bytesOf (String.singleton c)

/-- In a query a plus sign stands for a blank. -/
def queryLiteral (c : Char) : Bytes := if c = '+' then [32] else pathLiteral c

def pathUnescape (text : List Char) : String :=
  match decode pathLiteral text with
  | some bs => goString bs
  | none => String.ofList text

/-- The characters that `shouldEscape` keeps in a path. -/
def keptInPath (c : Char) : Bool := c.isAlphanum || "-_.~$&+,/:;=@".toList.contains c

/-- The bytes that `escape` keeps in a path. -/
def keptByte (b : UInt8) : Bool := b.toNat < 128 && keptInPath (Char.ofNat b.toNat)

/-- `validEncoded`: a path that is left as it was sent. -/
def validEncoded (path : List Char) : Bool :=
  path.all (fun c => keptInPath c || "!'()*[]%".toList.contains c)

structure URL where
  path : Bytes
  escapedPath : List Char
  rawQuery : List Char
  deriving DecidableEq

/-- The target of a request line: a path, and a query after the first question mark. A
path with an escape that is none is refused. -/
def parseRequestURI (target : List Char) : Option URL :=
  let path := target.takeWhile (fun c => c ≠ '?')
  (decode pathLiteral path).map (fun bs =>
    { path := bs
      escapedPath :=
        if validEncoded path then path
        else encode keptByte bs
      rawQuery := (target.dropWhile (fun c => c ≠ '?')).drop 1 })

/-- One setting of a query; a semicolon or a bad escape makes it void. -/
def parseSetting (text : List Char) : Option (String × String) :=
  if text.contains ';' || text.isEmpty then none
  else
    match decode queryLiteral (text.takeWhile (fun c => c ≠ '=')),
      decode queryLiteral ((text.dropWhile (fun c => c ≠ '=')).drop 1) with
    | some key, some value => some (goString key, goString value)
    | _, _ => none

/-- `url.Query().Get(name)`: the first value, or the empty text. -/
def queryGet (rawQuery : List Char) (name : String) : String :=
  ((((rawQuery.splitOn '&').filterMap parseSetting).find? (fun e => e.1 = name)).map
    Prod.snd).getD ""

/-! ## Paths -/

/-- The texts between the slashes of a path that starts with one. -/
def segmentsOf (path : List Char) : List (List Char) := (path.drop 1).splitOn '/'

/-- The body of the loop of `path.Clean`. -/
def pushSegment (stack : List (List Char)) (seg : List Char) : List (List Char) :=
  if seg = [] ∨ seg = ['.'] then stack
  else if seg = ['.', '.'] then stack.dropLast
  else stack ++ [seg]

/-- A clean path ends in a slash if it did before. -/
def cleanSegments (segs : List (List Char)) : List (List Char) :=
  let clean := segs.foldl pushSegment []
  if clean = [] then [[]]
  else if segs.getLast? = some [] then clean ++ [[]]
  else clean

def cleanPath (path : List Char) : List Char :=
  '/' :: ['/'].intercalate (cleanSegments (segmentsOf path))

/-- The segments that the router sees; the slash at the end of a path is one of them. -/
def muxSegments : List (List Char) → List String
  | [] => []
  | seg :: rest =>
    if seg = [] ∧ rest = [] then [slash] else pathUnescape seg :: muxSegments rest

/-! ## The table -/

/-- The handlers of the table, under the names of the functions. -/
inductive Handler
  | healthHandler
  | configHandler
  | fleetOverviewHandler
  | fleetActionsHandler
  | shardsListHandler
  | shardDetailHandler
  | shardTrendsHandler
  | clustersListHandler
  | clusterDetailHandler
  | availableCapacityHandler
  | topologyHandler
  | shardReportsHandler
  | needsHandler
  | finopsHandler
  deriving DecidableEq

/-- A key of the table, such as `GET /shards/\x7bpod\x7d/trends`, taken apart. -/
structure Key where
  method : String
  path : Pattern
  deriving DecidableEq

def apiTable : List (Key × Handler) :=
  [(⟨"GET", [.literal "health"]⟩, .healthHandler),
    (⟨"GET", [.literal "config"]⟩, .configHandler),
    (⟨"GET", [.literal "fleet", .literal "overview"]⟩, .fleetOverviewHandler),
    (⟨"GET", [.literal "fleet", .literal "actions"]⟩, .fleetActionsHandler),
    (⟨"GET", [.literal "shards"]⟩, .shardsListHandler),
    (⟨"GET", [.literal "shards", .wildcard "pod"]⟩, .shardDetailHandler),
    (⟨"GET", [.literal "shards", .wildcard "pod", .literal "trends"]⟩, .shardTrendsHandler),
    (⟨"GET", [.literal "clusters"]⟩, .clustersListHandler),
    (⟨"GET", [.literal "clusters", .wildcard "id"]⟩, .clusterDetailHandler),
    (⟨"GET", [.literal "available-capacity"]⟩, .availableCapacityHandler),
    (⟨"GET", [.literal "topology"]⟩, .topologyHandler),
    (⟨"GET", [.literal "shard-reports"]⟩, .shardReportsHandler),
    (⟨"GET", [.literal "needs"]⟩, .needsHandler),
    (⟨"GET", [.literal "finops", .literal "snapshot"]⟩, .finopsHandler)]

def apiHandlers : OrderedMap Key Handler := ⟨apiTable, by decide⟩

/-- What a route leads to; a handler of the API learns the names of its wildcards. -/
inductive Target
  | api (h : Handler) (names : List String)
  | spa
  deriving DecidableEq

def wildcardNames (p : Pattern) : List String :=
  p.filterMap (fun s =>
    match s with
    | .wildcard name => some name
    | _ => none)

/-- The two routes of an entry. -/
def mount (e : Key × Handler) : List (Route Target) :=
  [⟨some e.1.method, .literal "api" :: e.1.path, .api e.2 (wildcardNames e.1.path)⟩,
    ⟨some e.1.method, .literal "api" :: .literal "v1" :: e.1.path,
      .api e.2 (wildcardNames e.1.path)⟩]

def registerRoutes (rt : Runtime) : List (Route Target) :=
  (rt.entries 0 apiHandlers).flatMap mount ++ [⟨none, [.rest], .spa⟩]

/-- Where the router sends a request. -/
inductive Found
  | redirect (path : List Char)
  | target (t : Target) (values : List String)
  | notFound
  deriving DecidableEq

/-- A path that is not clean is redirected, unless the method is CONNECT. -/
def findHandler (routes : List (Route Target)) (method : String) (escapedPath : List Char) :
    Found :=
  if method ≠ "CONNECT" ∧ cleanPath escapedPath ≠ escapedPath then
    .redirect (cleanPath escapedPath)
  else
    match dispatch routes method (muxSegments (segmentsOf escapedPath)) with
    | some (t, values) => .target t values
    | none => .notFound

/-! ## Where a request goes -/

/-- The routes in the order of the source. -/
def routes : List (Route Target) := apiTable.flatMap mount ++ [⟨none, [.rest], .spa⟩]

/-- No two routes of a method match the same paths, so none is refused. -/
theorem routes_registrable : Registrable routes := registrable_of_nodup (by decide)

theorem dispatch_registerRoutes (rt : Runtime) (method : String) (path : List String) :
    dispatch (registerRoutes rt) method path = dispatch routes method path := by
  refine (dispatch_perm routes_registrable ?_ method path).symm
  exact ((rt.mapOrder_perm 0 apiHandlers.entries).symm.flatMap_right mount).append_right _

/-- The tree of the routes of the API. -/
def getTree : Node Target := (apiTable.flatMap mount).map (fun r => (r.pattern, r.target))

theorem methodTree_get : methodTree (some "GET") routes = getTree := rfl

theorem methodTree_any : methodTree none routes = [([.rest], .spa)] := rfl

theorem methodTree_other {method : String} (h : method ≠ "GET") :
    methodTree (some method) routes = [] := by
  refine List.filterMap_eq_nil_iff.mpr ?_
  intro r hr
  have hall : ∀ r ∈ routes, r.method = some "GET" ∨ r.method = none := by decide
  refine if_neg ?_
  obtain hr | hr := hall r hr
  · rw [hr, Option.some.injEq]
    exact h.symm
  · rw [hr]
    simp

/-- No path matches two routes of the API. -/
theorem getTree_apart : getTree.Apart := by
  unfold Node.Apart
  decide

/-- A path belongs to an entry of the table below one of the two mounts. -/
def Belongs (path : List String) (e : Key × Handler) (values : List String) : Prop :=
  ∃ below, (path = "api" :: below ∨ path = "api" :: "v1" :: below) ∧
    matchPath e.1.path below = some values

theorem mem_getTree {p : Pattern} {t : Target} :
    (p, t) ∈ getTree ↔ ∃ e ∈ apiTable, t = .api e.2 (wildcardNames e.1.path) ∧
      (p = .literal "api" :: e.1.path ∨ p = .literal "api" :: .literal "v1" :: e.1.path) := by
  rw [getTree, List.map_flatMap, List.mem_flatMap]
  constructor
  · intro h
    obtain ⟨e, he, hmem⟩ := h
    simp only [mount, List.map_cons, List.map_nil, List.mem_cons, List.not_mem_nil, or_false,
      Prod.mk.injEq] at hmem
    obtain ⟨hp, ht⟩ | ⟨hp, ht⟩ := hmem
    · exact ⟨e, he, ht, Or.inl hp⟩
    · exact ⟨e, he, ht, Or.inr hp⟩
  · intro h
    obtain ⟨e, he, ht, hp⟩ := h
    refine ⟨e, he, ?_⟩
    simp only [mount, List.map_cons, List.map_nil, List.mem_cons, List.not_mem_nil, or_false,
      Prod.mk.injEq]
    obtain hp | hp := hp
    · exact Or.inl ⟨hp, ht⟩
    · exact Or.inr ⟨hp, ht⟩

theorem matchPath_literal_eq_some_iff {text : String} {p : Pattern} {path values : List String} :
    matchPath (.literal text :: p) path = some values ↔
      ∃ below, path = text :: below ∧ matchPath p below = some values := by
  cases path with
  | nil => simp
  | cons seg path =>
    rw [matchPath_literal]
    split_ifs with h
    · simp [h]
    · simp [Ne.symm h]

theorem search_getTree_iff {path : List String} {t : Target} {values : List String} :
    getTree.search path = some (t, values) ↔
      ∃ e ∈ apiTable, t = .api e.2 (wildcardNames e.1.path) ∧ Belongs path e values := by
  rw [getTree_apart.search_eq_some_iff]
  constructor
  · intro h
    obtain ⟨p, hmem, hmatch⟩ := h
    obtain ⟨e, he, ht, rfl | rfl⟩ := mem_getTree.mp hmem
    · obtain ⟨below, hpath, hbelow⟩ := matchPath_literal_eq_some_iff.mp hmatch
      exact ⟨e, he, ht, below, Or.inl hpath, hbelow⟩
    · obtain ⟨below, hpath, hbelow⟩ := matchPath_literal_eq_some_iff.mp hmatch
      obtain ⟨below', hpath', hbelow'⟩ := matchPath_literal_eq_some_iff.mp hbelow
      exact ⟨e, he, ht, below', Or.inr (by rw [hpath, hpath']), hbelow'⟩
  · intro h
    obtain ⟨e, he, ht, below, hpath, hbelow⟩ := h
    obtain hpath | hpath := hpath
    · refine ⟨_, mem_getTree.mpr ⟨e, he, ht, Or.inl rfl⟩, ?_⟩
      exact matchPath_literal_eq_some_iff.mpr ⟨below, hpath, hbelow⟩
    · refine ⟨_, mem_getTree.mpr ⟨e, he, ht, Or.inr rfl⟩, ?_⟩
      exact matchPath_literal_eq_some_iff.mpr
        ⟨_, hpath, matchPath_literal_eq_some_iff.mpr ⟨below, rfl, hbelow⟩⟩

/-- The methods that read. -/
def Reading (method : String) : Prop := method = "GET" ∨ method = "HEAD"

instance (method : String) : Decidable (Reading method) := by
  unfold Reading
  infer_instance

/-- A request that reads goes to the handler of the API whose pattern matches, and every
other request to the page. -/
theorem dispatch_eq (rt : Runtime) (method : String) (seg : String) (path : List String) :
    dispatch (registerRoutes rt) method (seg :: path) =
      ((if Reading method then getTree.search (seg :: path) else none).or (some (.spa, []))) := by
  rw [dispatch_registerRoutes, dispatch, methodTree_any, Node.search_rest, methodTree_get]
  by_cases hget : method = "GET"
  · have hreads : Reading method := Or.inl hget
    have hhead : method ≠ "HEAD" := by
      rw [hget]
      decide
    rw [if_pos hreads, if_neg hhead, hget, methodTree_get]
    rfl
  · rw [methodTree_other hget, Node.search_empty]
    by_cases hhead : method = "HEAD"
    · have hreads : Reading method := Or.inr hhead
      rw [if_pos hreads, if_pos hhead]
      rfl
    · have hother : ¬ Reading method := not_or.mpr ⟨hget, hhead⟩
      rw [if_neg hother, if_neg hhead]
      rfl

/-- No pattern of the table starts where the second mount does. -/
theorem matchPath_v1 : ∀ e ∈ apiTable, ∀ below, matchPath e.1.path ("v1" :: below) = none := by
  simp [apiTable, matchPath_literal]

theorem belongs_v1_iff {e : Key × Handler} (he : e ∈ apiTable) {below values : List String}
    (hbelow : below.head? ≠ some "v1") :
    Belongs ("api" :: below) e values ↔ Belongs ("api" :: "v1" :: below) e values := by
  constructor
  · intro h
    obtain ⟨path, hpath | hpath, hmatch⟩ := h
    · rw [List.cons.injEq] at hpath
      exact ⟨path, Or.inr (by rw [hpath.2]), hmatch⟩
    · rw [List.cons.injEq] at hpath
      rw [hpath.2] at hbelow
      exact absurd rfl hbelow
  · intro h
    obtain ⟨path, hpath | hpath, hmatch⟩ := h
    · rw [List.cons.injEq] at hpath
      rw [← hpath.2, matchPath_v1 e he] at hmatch
      exact absurd hmatch (by simp)
    · rw [List.cons.injEq, List.cons.injEq] at hpath
      exact ⟨path, Or.inl (by rw [hpath.2.2]), hmatch⟩

/-- The two mounts lead to the same handlers with the same values. -/
theorem dispatch_v1 (rt rt' : Runtime) (method : String) {below : List String}
    (hbelow : below.head? ≠ some "v1") :
    dispatch (registerRoutes rt) method ("api" :: below) =
      dispatch (registerRoutes rt') method ("api" :: "v1" :: below) := by
  have hsearch : getTree.search ("api" :: below) = getTree.search ("api" :: "v1" :: below) := by
    ext ⟨t, values⟩
    rw [search_getTree_iff, search_getTree_iff]
    constructor
    · intro h
      obtain ⟨e, he, ht, hbelongs⟩ := h
      exact ⟨e, he, ht, (belongs_v1_iff he hbelow).mp hbelongs⟩
    · intro h
      obtain ⟨e, he, ht, hbelongs⟩ := h
      exact ⟨e, he, ht, (belongs_v1_iff he hbelow).mpr hbelongs⟩
  rw [dispatch_eq, dispatch_eq, hsearch]

end BigfleetDashboard.Web
