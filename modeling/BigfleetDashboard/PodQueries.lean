import BigfleetDashboard.PromHandlers
import BigfleetDashboard.AnchoredRegex
import BigfleetDashboard.RequestLog

/-!
# The pod name in the query texts

The two handlers of a single shard write a path segment of the request into the
texts they send to Prometheus. The texts are fixed templates around one string
literal, and an accepted name can neither end the literal nor escape in it.
-/
namespace BigfleetDashboard.Handlers
open Go PromClient AnchoredRegex RequestLog

/-! ## The accepted names -/

/-- The expression of `podNameRE`; `{0,252}` bounds what follows the first character.
A byte that is no UTF-8 is read as U+FFFD, which is in neither class. -/
def podNamePattern : Regex Char :=
  Regex.anchored (.cat (.cls isPodAlnum) (.rep 0 252 (.cls isPodChar)))

/-- A name is accepted when the search for the expression finds a match in it. -/
theorem podNameRE_iff (pod : String) :
    podNameRE pod = true ↔ podNamePattern.Search pod.toList := by
  rw [podNamePattern, search_anchored_iff, podNameRE]
  constructor
  · intro h
    cases hpod : pod.toList with
    | nil => simp [hpod] at h
    | cons c cs =>
      simp only [hpod, Bool.and_eq_true, List.all_eq_true, decide_eq_true_eq] at h
      obtain ⟨⟨hc, hcs⟩, hlength⟩ := h
      refine ⟨[c], cs, rfl, ⟨c, rfl, hc⟩, cs.length, Nat.zero_le _, hlength, ?_⟩
      exact (times_cls_iff _ _ _ _ _).mpr ⟨rfl, hcs⟩
  · intro h
    obtain ⟨m₁, cs, hpod, ⟨c, rfl, hc⟩, k, -, hk, htimes⟩ := h
    obtain ⟨hlength, hcs⟩ := (times_cls_iff _ _ _ _ _).mp htimes
    have hpod' : pod.toList = c :: cs := hpod
    simp only [hpod', Bool.and_eq_true, List.all_eq_true, decide_eq_true_eq]
    exact ⟨⟨hc, hcs⟩, by omega⟩

/-- A printable ASCII character other than the quote and the backslash. -/
def IsInert (c : Char) : Prop := ' ' ≤ c ∧ c ≤ '~' ∧ c ≠ '"' ∧ c ≠ '\\'

theorem isInert_of_isPodAlnum {c : Char} (h : isPodAlnum c = true) : IsInert c := by
  simp only [isPodAlnum, Bool.or_eq_true, Bool.and_eq_true, decide_eq_true_eq] at h
  have hbounds : (97 ≤ c.toNat ∧ c.toNat ≤ 122) ∨ (48 ≤ c.toNat ∧ c.toNat ≤ 57) := h
  have hne : ∀ d : Char, d.toNat < 48 ∨ d.toNat = 92 → c ≠ d := by
    intro d hd heq
    subst heq
    omega
  refine ⟨?_, ?_, hne '"' (by decide), hne '\\' (by decide)⟩
  · show 32 ≤ c.toNat
    omega
  · show c.toNat ≤ 126
    omega

theorem isInert_of_isPodChar {c : Char} (h : isPodChar c = true) : IsInert c := by
  simp only [isPodChar, Bool.or_eq_true, decide_eq_true_eq] at h
  obtain (h | rfl) | rfl := h
  · exact isInert_of_isPodAlnum h
  · unfold IsInert
    decide
  · unfold IsInert
    decide

theorem isInert_of_podNameRE {pod : String} (h : podNameRE pod = true) :
    ∀ c ∈ pod.toList, IsInert c := by
  rw [podNameRE] at h
  cases hpod : pod.toList with
  | nil => simp
  | cons c cs =>
    simp only [hpod, Bool.and_eq_true, List.all_eq_true] at h
    intro d hd
    cases hd with
    | head => exact isInert_of_isPodAlnum h.1.1
    | tail _ hd => exact isInert_of_isPodChar (h.1.2 d hd)

/-! ## The rendered literal -/

/-- Between the quotes stand the characters themselves. -/
theorem quote_of_inert {s : String} (h : ∀ c ∈ s.toList, IsInert c) :
    quote s = "\"" ++ s ++ "\"" := by
  have hbody : s.toList.flatMap
      (fun c => if c = '"' || c = '\\' then ['\\', c] else [c]) = s.toList := by
    rw [List.flatMap_congr (g := fun c => [c])]
    · exact List.flatMap_singleton' _
    · intro c hc
      obtain ⟨-, -, hquote, hslash⟩ := h c hc
      simp [hquote, hslash]
  apply String.toList_injective
  simp only [quote, hbody, String.toList_ofList, String.toList_append]
  rfl

/-- Lower-case hexadecimal digits, at least `width` of them. -/
def hex (width n : ℕ) : List Char :=
  let digits := Nat.toDigits 16 n
  List.replicate (width - digits.length) '0' ++ digits

/-- A character as the verb `%q` writes it, for a table of printable characters. -/
def quoteRune (isPrint : Char → Bool) (c : Char) : List Char :=
  if c = '"' || c = '\\' then ['\\', c]
  else if isPrint c then [c]
  else if c.toNat = 7 then ['\\', 'a']
  else if c.toNat = 8 then ['\\', 'b']
  else if c.toNat = 12 then ['\\', 'f']
  else if c = '\n' then ['\\', 'n']
  else if c = '\r' then ['\\', 'r']
  else if c = '\t' then ['\\', 't']
  else if c.toNat = 11 then ['\\', 'v']
  else if c.toNat < 32 || c.toNat = 127 then '\\' :: 'x' :: hex 2 c.toNat
  else if c.toNat < 65536 then '\\' :: 'u' :: hex 4 c.toNat
  else '\\' :: 'U' :: hex 8 c.toNat

/-- The verb on any text. -/
def quoteRunes (isPrint : Char → Bool) (s : String) : String :=
  String.ofList ('"' :: s.toList.flatMap (quoteRune isPrint) ++ ['"'])

/-- On printable characters the verb escapes the quote and the backslash only. -/
theorem quoteRunes_of_printable {isPrint : Char → Bool} {s : String}
    (h : ∀ c ∈ s.toList, isPrint c = true) : quoteRunes isPrint s = quote s := by
  have hbody : s.toList.flatMap (quoteRune isPrint) =
      s.toList.flatMap (fun c => if c = '"' || c = '\\' then ['\\', c] else [c]) := by
    apply List.flatMap_congr
    intro c hc
    simp only [quoteRune, h c hc, if_true]
  rw [quoteRunes, hbody, quote]

/-- A table that has the printable ASCII characters quotes accepted names alike. -/
theorem quoteRunes_of_podName {isPrint : Char → Bool}
    (hprint : ∀ c, ' ' ≤ c → c ≤ '~' → isPrint c = true) {pod : String}
    (h : podNameRE pod = true) : quoteRunes isPrint pod = quote pod := by
  refine quoteRunes_of_printable fun c hc => ?_
  obtain ⟨hlow, hhigh, -, -⟩ := isInert_of_podNameRE h c hc
  exact hprint c hlow hhigh

/-! ## The lexer of the query language -/

/-- A lexer for what follows the opening double quote: the value of the literal and
the text after the closing quote. How it reads an escape is left open. -/
structure LiteralLexer where
  body : List Char → Option (List Char × List Char)
  close : ∀ rest, body ('"' :: rest) = some ([], rest)
  inert : ∀ c rest, IsInert c → body (c :: rest) = (body rest).map (Prod.map (c :: ·) id)

/-- The literal of an inert value is read to its end, and the value is recovered. -/
theorem LiteralLexer.body_of_inert (lexer : LiteralLexer) {value : List Char} (rest : List Char)
    (h : ∀ c ∈ value, IsInert c) : lexer.body (value ++ '"' :: rest) = some (value, rest) := by
  induction value with
  | nil => exact lexer.close rest
  | cons c value ih =>
    have hrest := ih (fun d hd => h d (List.mem_cons_of_mem c hd))
    rw [List.cons_append, lexer.inert c _ (h c List.mem_cons_self), hrest]
    rfl

/-- Outside of literals these characters begin one, or a comment. -/
def opensToken (c : Char) : Bool := c = '"' || c = '\'' || c = '\x60' || c = '#'

/-- No literal and no comment begins in the text. -/
def Plain (s : String) : Prop := ∀ c ∈ s.toList, opensToken c = false

theorem Plain.append {s t : String} (hs : Plain s) (ht : Plain t) : Plain (s ++ t) := by
  intro c hc
  rw [String.toList_append, List.mem_append] at hc
  cases hc with
  | inl hc => exact hs c hc
  | inr hc => exact ht c hc

theorem plain_ofList {l : List Char} :
    Plain (String.ofList l) ↔ l.all (fun c => !opensToken c) = true := by
  simp [Plain]

/-- The text before the first literal, its value and the text after it. -/
def LiteralLexer.first (lexer : LiteralLexer) :
    List Char → Option (List Char × List Char × List Char)
  | [] => none
  | c :: rest =>
    if c = '"' then (lexer.body rest).map (fun p => ([], p.1, p.2))
    else if opensToken c then none
    else (lexer.first rest).map (fun p => (c :: p.1, p.2.1, p.2.2))

theorem LiteralLexer.first_of_inert (lexer : LiteralLexer) {before value : List Char}
    (rest : List Char) (hbefore : ∀ c ∈ before, opensToken c = false)
    (hvalue : ∀ c ∈ value, IsInert c) :
    lexer.first (before ++ '"' :: (value ++ '"' :: rest)) = some (before, value, rest) := by
  induction before with
  | nil => simp [first, lexer.body_of_inert rest hvalue]
  | cons c before ih =>
    have hc := hbefore c List.mem_cons_self
    have hne : c ≠ '"' := by
      intro heq
      simp [opensToken, heq] at hc
    have hrest := ih (fun d hd => hbefore d (List.mem_cons_of_mem c hd))
    simp [first, hne, hc, hrest]

/-- The escapes by one character; those by a number are left out. -/
def unescape (c : Char) : Option Char :=
  match c with
  | 'a' => some (Char.ofNat 7)
  | 'b' => some (Char.ofNat 8)
  | 'f' => some (Char.ofNat 12)
  | 'n' => some '\n'
  | 'r' => some '\r'
  | 't' => some '\t'
  | 'v' => some (Char.ofNat 11)
  | '"' => some '"'
  | '\\' => some '\\'
  | _ => none

/-- A literal ends in its line. -/
def literalBody : List Char → Option (List Char × List Char)
  | [] => none
  | '"' :: rest => some ([], rest)
  | '\n' :: _ => none
  | '\\' :: [] => none
  | '\\' :: c :: rest => do
    let d ← unescape c
    let (value, rest) ← literalBody rest
    return (d :: value, rest)
  | c :: rest => (literalBody rest).map (Prod.map (c :: ·) id)

def simpleLexer : LiteralLexer where
  body := literalBody
  close rest := by simp [literalBody]
  inert c rest h := by
    obtain ⟨hlow, -, hquote, hslash⟩ := h
    have hline : c ≠ '\n' := by
      intro heq
      subst heq
      exact absurd hlow (by decide)
    rw [literalBody] <;> simp_all

/-! ## The templates -/

/-- A query text with one hole for a literal. -/
structure Template where
  before : String
  after : String

def Template.render (t : Template) (pod : String) : String := t.before ++ quote pod ++ t.after

/-- The hole is the pod label of a selector. -/
def selectorTemplate (pre post : String) : Template := ⟨pre ++ "\x7bpod=", "\x7d" ++ post⟩

theorem render_selectorTemplate (pre post pod : String) :
    (selectorTemplate pre post).render pod = pre ++ podSelector pod ++ post := by
  simp only [Template.render, selectorTemplate, podSelector, String.append_assoc]

/-- The selector has a second label. -/
def occTemplate (post : String) : Template :=
  ⟨"sum(rate(bigfleet_shard_phase1_occ_proposals_total\x7bpod=", post⟩

theorem render_occTemplate (post pod : String) : (occTemplate post).render pod =
    "sum(rate(bigfleet_shard_phase1_occ_proposals_total\x7bpod=" ++ quote pod ++ post := rfl

def cycleP99Template : Template := selectorTemplate
  "histogram_quantile(0.99, sum by (le) (rate(bigfleet_shard_cycle_duration_seconds_bucket"
  "[5m])))"
def phaseP99Template : Template := selectorTemplate
  ("histogram_quantile(0.99, sum by (le, phase) " ++
    "(rate(bigfleet_shard_cycle_phase_duration_seconds_bucket") "[5m])))"
def byStateTemplate : Template :=
  selectorTemplate "sum by (state) (bigfleet_shard_inventory_machines" ")"
def byCapacityTemplate : Template :=
  selectorTemplate "sum by (capacity_type) (bigfleet_shard_inventory_machines" ")"
def shortfallsTemplate : Template := selectorTemplate "sum(bigfleet_shard_shortfalls" ")"
def sessionsTemplate : Template := selectorTemplate "sum(bigfleet_shard_active_sessions" ")"
def actionsByKindTemplate : Template :=
  selectorTemplate "sum by (kind) (rate(bigfleet_shard_actions_total" "[5m]))"
def occCommittedTemplate : Template := occTemplate ",outcome=\"committed\"\x7d[5m]))"
def occConflictTemplate : Template := occTemplate ",outcome=\"conflict\"\x7d[5m]))"
def cycleP99TrendTemplate : Template := selectorTemplate
  "histogram_quantile(0.99, sum by (le, pod) (rate(bigfleet_shard_cycle_duration_seconds_bucket"
  "[5m])))"
def actionRateTrendTemplate : Template :=
  selectorTemplate "sum by (kind) (rate(bigfleet_shard_actions_total" "[5m]))"

/-- What `shardDetailHandler` sends, in order. -/
def detailTemplates : List Template :=
  [cycleP99Template, phaseP99Template, byStateTemplate, byCapacityTemplate, shortfallsTemplate,
    sessionsTemplate, actionsByKindTemplate, occCommittedTemplate, occConflictTemplate]

/-- What `shardTrendsHandler` sends, in order. -/
def trendTemplates : List Template := [cycleP99TrendTemplate, actionRateTrendTemplate]

theorem plain_of_selectorTemplate {pre : String} (post : String) (h : Plain pre) :
    Plain (selectorTemplate pre post).before :=
  h.append (plain_ofList.mpr rfl)

/-- The hole is the first place of a template where a literal can begin. -/
theorem before_plain : ∀ t ∈ detailTemplates ++ trendTemplates, Plain t.before := by
  have hsum : Plain "histogram_quantile(0.99, sum by (le, phase) " := plain_ofList.mpr rfl
  simp only [detailTemplates, trendTemplates, List.cons_append, List.nil_append,
    List.forall_mem_cons]
  refine ⟨?_, ?_, ?_, ?_, ?_, ?_, ?_, ?_, ?_, ?_, ?_, fun t ht => absurd ht List.not_mem_nil⟩
  · exact plain_of_selectorTemplate _ (plain_ofList.mpr rfl)
  · exact plain_of_selectorTemplate _ (hsum.append (plain_ofList.mpr rfl))
  · exact plain_of_selectorTemplate _ (plain_ofList.mpr rfl)
  · exact plain_of_selectorTemplate _ (plain_ofList.mpr rfl)
  · exact plain_of_selectorTemplate _ (plain_ofList.mpr rfl)
  · exact plain_of_selectorTemplate _ (plain_ofList.mpr rfl)
  · exact plain_of_selectorTemplate _ (plain_ofList.mpr rfl)
  · exact plain_ofList.mpr rfl
  · exact plain_ofList.mpr rfl
  · exact plain_of_selectorTemplate _ (plain_ofList.mpr rfl)
  · exact plain_of_selectorTemplate _ (plain_ofList.mpr rfl)

/-! ## The handlers with the queries they send -/

def sendScalar (s : Server) (message text : String) (now : Int) : Logged String Failure ExtRat :=
  send text (orBadGateway message (queryScalar s.prom text now))

def sendByLabel (s : Server) (message text label : String) (now : Int) :
    Logged String Failure (OrderedMap String ExtRat) :=
  send text (orBadGateway message (queryByLabel s.prom text label now))

def sendRangeByLabel (s : Server) (message text label : String) (rng : Range) :
    Logged String Failure (List Int × OrderedMap String (List ExtRat)) :=
  send text (orBadGatewayRange message (queryRangeByLabel s.prom text label rng))

def shardDetailSession (s : Server) (r : Request) (now : Int) :
    Logged String Failure ShardDetail := do
  check (requirePrometheus s)
  let pod ← check (requirePodName r)
  let cycleP99 ← sendScalar s "prometheus query (cycle p99): " (cycleP99Template.render pod) now
  let phaseP99 ← sendByLabel s "prometheus query (phase p99): " (phaseP99Template.render pod)
    "phase" now
  let byState ← sendByLabel s "prometheus query (inventory by state): "
    (byStateTemplate.render pod) "state" now
  let byCapacity ← sendByLabel s "prometheus query (inventory by capacity_type): "
    (byCapacityTemplate.render pod) "capacity_type" now
  let shortfalls ← sendScalar s "prometheus query (shortfalls): " (shortfallsTemplate.render pod)
    now
  let sessions ← sendScalar s "prometheus query (sessions): " (sessionsTemplate.render pod) now
  let actionsByKind ← sendByLabel s "prometheus query (actions by kind): "
    (actionsByKindTemplate.render pod) "kind" now
  let occCommitted ← sendScalar s "prometheus query (occ committed): "
    (occCommittedTemplate.render pod) now
  let occConflict ← sendScalar s "prometheus query (occ conflict): "
    (occConflictTemplate.render pod) now
  return {
    pod := pod
    cycleP99Seconds := cycleP99
    cycleP99ByPhaseSeconds := phaseP99
    machines := intOfFloat (sumValues s.rt 0 byState)
    machinesByState := byState
    machinesByCapacityType := byCapacity
    shortfalls := intOfFloat shortfalls
    activeSessions := intOfFloat sessions
    actionsByKindRatePerSec := actionsByKind
    occCommittedPerSec := occCommitted
    occConflictPerSec := occConflict
    queriedAt := now }

def shardTrendsSession (s : Server) (r : Request) (now : Int) :
    Logged String Failure ShardTrends := do
  check (requirePrometheus s)
  let pod ← check (requirePodName r)
  let rng := seriesRange s.rt r now
  let (timestamps, cycleByPod) ← sendRangeByLabel s "prometheus query (cycle p99 trend): "
    (cycleP99TrendTemplate.render pod) "pod" rng
  let (_, actionRates) ← sendRangeByLabel s "prometheus query (action rate trend): "
    (actionRateTrendTemplate.render pod) "kind" rng
  return {
    pod := pod
    timestamps := timestamps
    cycleP99Seconds := cycleByPod.get? pod
    actionRates := actionRates
    queriedAt := rng.stop }

theorem result_sendScalar {s : Server} {message text text' : String} {now : Int}
    (h : text = text') : (sendScalar s message text now).result =
      orBadGateway message (queryScalar s.prom text' now) := by
  rw [← h]
  rfl

theorem result_sendByLabel {s : Server} {message text text' label : String} {now : Int}
    (h : text = text') : (sendByLabel s message text label now).result =
      orBadGateway message (queryByLabel s.prom text' label now) := by
  rw [← h]
  rfl

theorem result_sendRangeByLabel {s : Server} {message text text' label : String} {rng : Range}
    (h : text = text') : (sendRangeByLabel s message text label rng).result =
      orBadGatewayRange message (queryRangeByLabel s.prom text' label rng) := by
  rw [← h]
  rfl

/-- The answer of a session is the handler's. -/
theorem result_shardDetailSession (s : Server) (r : Request) (now : Int) :
    (shardDetailSession s r now).result = shardDetailHandler s r now := by
  refine result_bind_congr rfl fun _ => result_bind_congr rfl fun pod => ?_
  have hrender := fun pre post => render_selectorTemplate pre post pod
  refine result_bind_congr (result_sendScalar (hrender _ _)) fun cycleP99 => ?_
  refine result_bind_congr (result_sendByLabel (hrender _ _)) fun phaseP99 => ?_
  refine result_bind_congr (result_sendByLabel (hrender _ _)) fun byState => ?_
  refine result_bind_congr (result_sendByLabel (hrender _ _)) fun byCapacity => ?_
  refine result_bind_congr (result_sendScalar (hrender _ _)) fun shortfalls => ?_
  refine result_bind_congr (result_sendScalar (hrender _ _)) fun sessions => ?_
  refine result_bind_congr (result_sendByLabel (hrender _ _)) fun actionsByKind => ?_
  refine result_bind_congr (result_sendScalar (render_occTemplate _ _)) fun occCommitted => ?_
  refine result_bind_congr (result_sendScalar (render_occTemplate _ _)) fun occConflict => ?_
  exact result_pure _

theorem result_shardTrendsSession (s : Server) (r : Request) (now : Int) :
    (shardTrendsSession s r now).result = shardTrendsHandler s r now := by
  refine result_bind_congr rfl fun _ => result_bind_congr rfl fun pod => ?_
  have hrender := fun pre post => render_selectorTemplate pre post pod
  refine result_bind_congr (result_sendRangeByLabel (hrender _ _)) fun cycleByPod => ?_
  refine result_bind_congr (result_sendRangeByLabel (hrender _ _)) fun actionRates => ?_
  exact result_pure _

/-! ## Accepted and rejected names -/

/-- For an accepted name the first failed query ends the list of queries, nothing else does. -/
theorem shardDetailSession_follows {s : Server} (hprom : s.prom.configured = true) {r : Request}
    (hpod : podNameRE (r.pathValue "pod") = true) (now : Int) :
    Follows (shardDetailSession s r now)
      (detailTemplates.map (fun t => t.render (r.pathValue "pod"))) := by
  rw [shardDetailSession, requirePrometheus_of_configured hprom, check_ok_bind,
    requirePodName_of_accepted hpod, check_ok_bind]
  refine follows_send fun cycleP99 => follows_send fun phaseP99 => follows_send fun byState => ?_
  refine follows_send fun byCapacity => follows_send fun shortfalls => ?_
  refine follows_send fun sessions => follows_send fun actionsByKind => ?_
  refine follows_send fun occCommitted => follows_send fun occConflict => ?_
  exact follows_pure _

theorem shardTrendsSession_follows {s : Server} (hprom : s.prom.configured = true) {r : Request}
    (hpod : podNameRE (r.pathValue "pod") = true) (now : Int) :
    Follows (shardTrendsSession s r now)
      (trendTemplates.map (fun t => t.render (r.pathValue "pod"))) := by
  rw [shardTrendsSession, requirePrometheus_of_configured hprom, check_ok_bind,
    requirePodName_of_accepted hpod, check_ok_bind]
  refine follows_send fun cycleP99 => follows_send fun actionRates => ?_
  exact follows_pure _

/-- The literal of an accepted name, and how a lexer reads a text with it. -/
structure InertIn (t : Template) (pod : String) : Prop where
  text : t.render pod = t.before ++ ("\"" ++ pod ++ "\"") ++ t.after
  lexed : ∀ lexer : LiteralLexer, lexer.first (t.render pod).toList =
    some (t.before.toList, pod.toList, t.after.toList)

theorem inertIn_of_podNameRE {t : Template} (ht : Plain t.before) {pod : String}
    (h : podNameRE pod = true) : InertIn t pod := by
  have hinert := isInert_of_podNameRE h
  have htext : t.render pod = t.before ++ ("\"" ++ pod ++ "\"") ++ t.after := by
    rw [Template.render, quote_of_inert hinert]
  refine ⟨htext, fun lexer => ?_⟩
  have hchars : (t.render pod).toList =
      t.before.toList ++ '"' :: (pod.toList ++ '"' :: t.after.toList) := by
    simp [htext]
  rw [hchars]
  exact lexer.first_of_inert _ ht hinert

/-- With Prometheus configured, an accepted name is sent as an inert literal in fixed
templates, and for a rejected one nothing is sent. -/
theorem podName_notInjected {s : Server} (hprom : s.prom.configured = true) (r : Request)
    (now : Int) :
    let pod := r.pathValue "pod"
    let detail := shardDetailSession s r now
    let trends := shardTrendsSession s r now
    detail.result = shardDetailHandler s r now ∧ trends.result = shardTrendsHandler s r now ∧
    (podNameRE pod = true →
      Follows detail (detailTemplates.map (fun t => t.render pod)) ∧
      Follows trends (trendTemplates.map (fun t => t.render pod)) ∧
      quote pod = "\"" ++ pod ++ "\"" ∧ (∀ c ∈ pod.toList, c ≠ '"' ∧ c ≠ '\\') ∧
      ∀ t ∈ detailTemplates ++ trendTemplates, InertIn t pod ∧
        ∀ pod', podNameRE pod' = true → InertIn t pod') ∧
    (podNameRE pod = false →
      detail = ⟨[], .error (.response statusBadRequest "invalid pod name")⟩ ∧
      trends = ⟨[], .error (.response statusBadRequest "invalid pod name")⟩) := by
  intro pod detail trends
  refine ⟨result_shardDetailSession s r now, result_shardTrendsSession s r now, ?_, ?_⟩
  · intro hpod
    have hinert := isInert_of_podNameRE hpod
    refine ⟨shardDetailSession_follows hprom hpod now, shardTrendsSession_follows hprom hpod now,
      quote_of_inert hinert, ?_, ?_⟩
    · intro c hc
      obtain ⟨-, -, hquote, hslash⟩ := hinert c hc
      exact ⟨hquote, hslash⟩
    · intro t ht
      have hbefore := before_plain t ht
      exact ⟨inertIn_of_podNameRE hbefore hpod,
        fun pod' hpod' => inertIn_of_podNameRE hbefore hpod'⟩
  · intro hpod
    have hname := requirePodName_of_rejected hpod
    have hready := requirePrometheus_of_configured hprom
    constructor
    · show shardDetailSession s r now = _
      rw [shardDetailSession, hready, check_ok_bind, hname, check_error_bind]
    · show shardTrendsSession s r now = _
      rw [shardTrendsSession, hready, check_ok_bind, hname, check_error_bind]

/-- Prometheus has no series. -/
def emptyServer : Server :=
  { Server.unwired with prom := ⟨some ⟨fun _ _ => .ok (.vector []), fun _ _ => .ok (.matrix [])⟩⟩ }

def podRequest (pod : String) : Request := ⟨fun _ => "", fun key => if key = "pod" then pod else ""⟩

/-- A name, and a text that would close the literal. -/
theorem podName_notInjected_sample :
    simpleLexer.first (shortfallsTemplate.render "shard-0").toList =
      some (shortfallsTemplate.before.toList, "shard-0".toList, shortfallsTemplate.after.toList) ∧
    shardDetailSession emptyServer (podRequest "a\"\x7d or up\x7ba=\"") 0 =
      ⟨[], .error (.response statusBadRequest "invalid pod name")⟩ := by
  constructor
  · have haccepted := (podName_notInjected (s := emptyServer) rfl (podRequest "shard-0") 0).2.2.1
    obtain ⟨-, -, -, -, hinert⟩ := haccepted (by decide)
    exact (hinert shortfallsTemplate (by simp [detailTemplates])).1.lexed simpleLexer
  · have hrejected := (podName_notInjected (s := emptyServer) rfl
      (podRequest "a\"\x7d or up\x7ba=\"") 0).2.2.2
    exact (hrejected (by decide)).1

end BigfleetDashboard.Handlers
