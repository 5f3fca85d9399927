import BigfleetDashboard.Mounts
import BigfleetDashboard.NeedsPage

/-!
# The calls of the page

The page asks for its data under paths that it puts together from words and encoded
arguments. The browser resolves the path, the server splits and decodes it, and the router
picks the handler: what the handler reads is what the page meant.
-/
namespace BigfleetDashboard.Web
open Go Handlers PathPatterns Percent Script

/-! ## Encoded arguments -/

/-- The characters that `encodeURIComponent` keeps. -/
def componentChar (c : Char) : Bool := c.isAlphanum || "-_.!~*'()".toList.contains c

def componentByte (b : UInt8) : Bool := b.toNat < 128 && componentChar (Char.ofNat b.toNat)

def component (s : String) : List Char := encode componentByte (bytesOf s)

def encodeURIComponent (s : String) : String := String.ofList (component s)

/-! ## The browser -/

def singleDots : List (List Char) := [".".toList, "%2e".toList, "%2E".toList]

def doubleDots : List (List Char) :=
  singleDots.flatMap (fun a => singleDots.map (fun b => a ++ b))

/-- One segment of a path that is resolved, and whether it is the last one. -/
def resolveSegment (stack : List (List Char)) (seg : List Char) (last : Bool) :
    List (List Char) :=
  if doubleDots.contains seg then
    if last then stack.dropLast ++ [[]] else stack.dropLast
  else if singleDots.contains seg then
    if last then stack ++ [[]] else stack
  else stack ++ [seg]

def resolveSegments (stack : List (List Char)) : List (List Char) → List (List Char)
  | [] => stack
  | [seg] => resolveSegment stack seg true
  | seg :: rest => resolveSegments (resolveSegment stack seg false) rest

/-- An apostrophe is encoded in a query. -/
def queryChar (c : Char) : List Char := if c = Char.ofNat 39 then "%27".toList else [c]

/-- The target of the request for a path with an optional query, in characters that need
no other encoding. -/
def browserTarget (url : List Char) : List Char :=
  pathOf (resolveSegments [] (segmentsOf (url.takeWhile (fun c => c ≠ '?')))) ++
    (url.dropWhile (fun c => c ≠ '?')).flatMap queryChar

/-! ## The calls -/

inductive Call
  | health
  | config
  | fleetOverview
  | fleetActions (duration step : String)
  | shards
  | shard (pod : String)
  | shardTrends (pod duration step : String)
  | clusters
  | cluster (id : String)
  | availableCapacity
  | topology
  | shardReports
  | needs (shardId : String) (limit : Int)
  | finopsSnapshot

/-- The path that a call of `api` fetches. -/
def Call.url : Call → String
  | .health => "/api/health"
  | .config => "/api/config"
  | .fleetOverview => "/api/fleet/overview"
  | .fleetActions duration step =>
    "/api/fleet/actions?duration=" ++ encodeURIComponent duration ++ "&step=" ++
      encodeURIComponent step
  | .shards => "/api/shards"
  | .shard pod => "/api/shards/" ++ encodeURIComponent pod
  | .shardTrends pod duration step =>
    "/api/shards/" ++ encodeURIComponent pod ++ "/trends?duration=" ++
      encodeURIComponent duration ++ "&step=" ++ encodeURIComponent step
  | .clusters => "/api/clusters"
  | .cluster id => "/api/clusters/" ++ encodeURIComponent id
  | .availableCapacity => "/api/available-capacity"
  | .topology => "/api/topology"
  | .shardReports => "/api/shard-reports"
  | .needs shardId limit =>
    "/api/needs?shard=" ++ encodeURIComponent shardId ++
      (if limit = 0 then "" else "&limit=" ++ numberText limit)
  | .finopsSnapshot => "/api/finops/snapshot"

/-! ## What a call means -/

/-- The handler that a call is meant for. -/
def Call.handler : Call → Handler
  | .health => .healthHandler
  | .config => .configHandler
  | .fleetOverview => .fleetOverviewHandler
  | .fleetActions _ _ => .fleetActionsHandler
  | .shards => .shardsListHandler
  | .shard _ => .shardDetailHandler
  | .shardTrends _ _ _ => .shardTrendsHandler
  | .clusters => .clustersListHandler
  | .cluster _ => .clusterDetailHandler
  | .availableCapacity => .availableCapacityHandler
  | .topology => .topologyHandler
  | .shardReports => .shardReportsHandler
  | .needs _ _ => .needsHandler
  | .finopsSnapshot => .finopsHandler

/-- The segments below the mount. -/
def Call.below : Call → List String
  | .health => ["health"]
  | .config => ["config"]
  | .fleetOverview => ["fleet", "overview"]
  | .fleetActions _ _ => ["fleet", "actions"]
  | .shards => ["shards"]
  | .shard pod => ["shards", pod]
  | .shardTrends pod _ _ => ["shards", pod, "trends"]
  | .clusters => ["clusters"]
  | .cluster id => ["clusters", id]
  | .availableCapacity => ["available-capacity"]
  | .topology => ["topology"]
  | .shardReports => ["shard-reports"]
  | .needs _ _ => ["needs"]
  | .finopsSnapshot => ["finops", "snapshot"]

/-- The parameters of the query. -/
def Call.params : Call → List (String × String)
  | .fleetActions duration step => [("duration", duration), ("step", step)]
  | .shardTrends _ duration step => [("duration", duration), ("step", step)]
  | .needs shardId limit => Pages.needsParams shardId limit
  | _ => []

/-- The argument that is part of the path, under the name the handler reads it by. -/
def Call.pathArguments : Call → List (String × String)
  | .shard pod => [("pod", pod)]
  | .shardTrends pod _ _ => [("pod", pod)]
  | .cluster id => [("id", id)]
  | _ => []

/-- What the handler should read. -/
def Call.request (c : Call) : Request where
  query name := ((c.params.find? (fun e => e.1 = name)).map Prod.snd).getD ""
  pathValue name := ((c.pathArguments.find? (fun e => e.1 = name)).map Prod.snd).getD ""

/-- A text that can be a segment of a path: not empty, none of the two that name a
directory, and not a slash alone. -/
def Addressable (s : String) : Prop := s ≠ "" ∧ s ≠ "." ∧ s ≠ ".." ∧ s ≠ slash

instance (s : String) : Decidable (Addressable s) := by
  unfold Addressable
  infer_instance

/-! ## What an encoded argument consists of -/

/-- The bytes that are left in a query: an apostrophe is not. -/
def queryByte (b : UInt8) : Bool := componentByte b && b ≠ 39

theorem mem_encode_component {kept : UInt8 → Bool}
    (hkept : ∀ b, kept b = true → componentByte b = true) {bs : Bytes} {c : Char}
    (h : c ∈ encode kept bs) : componentChar c = true ∨ c = '%' := by
  obtain ⟨b, hb, rfl⟩ | hc | ⟨n, hn, rfl⟩ := mem_encode kept h
  · have hcomponent := hkept b hb
    rw [componentByte, Bool.and_eq_true] at hcomponent
    exact Or.inl hcomponent.2
  · exact Or.inr hc
  · left
    interval_cases n <;> rfl

theorem mem_component {s : String} {c : Char} (h : c ∈ component s) :
    componentChar c = true ∨ c = '%' := mem_encode_component (fun _ hb => hb) h

theorem notMem_component {c : Char} (hc : componentChar c = false) (hpercent : c ≠ '%')
    (s : String) : c ∉ component s := by
  intro hmem
  obtain h | h := mem_component hmem
  · rw [hc] at h
    exact Bool.false_ne_true h
  · exact hpercent h

theorem toNat_lt_of_isAlphanum {c : Char} (h : c.isAlphanum = true) : c.toNat < 128 := by
  have hcases : c.isAlpha = true ∨ c.isDigit = true := Bool.or_eq_true_iff.mp h
  obtain hletter | hdigit := hcases
  · have hletters : c.isUpper = true ∨ c.isLower = true := Bool.or_eq_true_iff.mp hletter
    obtain hupper | hlower := hletters
    · have hval : 'A'.val ≤ c.val ∧ c.val ≤ 'Z'.val := of_decide_eq_true hupper
      have hle : c.toNat ≤ 90 := UInt32.le_iff_toNat_le.mp hval.2
      omega
    · have hval : c.val ≤ 'z'.val := of_decide_eq_true (Bool.and_eq_true_iff.mp hlower).2
      have hle : c.toNat ≤ 122 := UInt32.le_iff_toNat_le.mp hval
      omega
  · have hrange : 48 ≤ c.toNat ∧ c.toNat ≤ 57 := Char.isDigit_iff_toNat.mp hdigit
    omega

theorem toNat_lt_of_componentChar {c : Char} (h : componentChar c = true) : c.toNat < 128 := by
  have hmarks : "-_.!~*'()".toList.all (fun c => decide (c.toNat < 128)) = true := rfl
  obtain halnum | hmark := Bool.or_eq_true_iff.mp h
  · exact toNat_lt_of_isAlphanum halnum
  · rw [List.contains_iff_mem] at hmark
    exact of_decide_eq_true (List.all_eq_true.mp hmarks c hmark)

theorem pathLiteral_byte {b : UInt8} (h : b.toNat < 128) : pathLiteral (Char.ofNat b.toNat) = [b] := by
  rw [pathLiteral, bytesOf_byte h]

theorem reads_path : Reads pathLiteral componentByte := by
  intro b hb
  rw [componentByte, Bool.and_eq_true, decide_eq_true_eq] at hb
  refine ⟨?_, pathLiteral_byte hb.1⟩
  intro hpercent
  rw [hpercent] at hb
  exact absurd hb.2 (by decide)

theorem componentByte_of_queryByte {b : UInt8} (h : queryByte b = true) :
    componentByte b = true := by
  rw [queryByte, Bool.and_eq_true] at h
  exact h.1

theorem reads_query : Reads queryLiteral queryByte := by
  intro b hb
  obtain ⟨hpercent, hliteral⟩ := reads_path b (componentByte_of_queryByte hb)
  refine ⟨hpercent, ?_⟩
  rw [queryLiteral, if_neg, hliteral]
  intro hplus
  have hchar := componentByte_of_queryByte hb
  rw [componentByte, hplus] at hchar
  exact absurd hchar (by simp [componentChar])

theorem pathUnescape_component (s : String) : pathUnescape (component s) = s := by
  rw [pathUnescape, component, decode_encode reads_path]
  show goString (bytesOf s) = s
  rw [goString, textOf_bytesOf, Option.getD_some]

theorem bytesOf_injective {s t : String} (h : bytesOf s = bytesOf t) : s = t := by
  have htext := congrArg textOf h
  rw [textOf_bytesOf, textOf_bytesOf, Option.some.injEq] at htext
  exact htext

/-- An encoded argument is told by what is read of it. -/
theorem eq_of_component {s t : String} {text : List Char} (hs : component s = text)
    (ht : decode pathLiteral text = some (bytesOf t)) : s = t := by
  rw [← hs, component, decode_encode reads_path, Option.some.injEq] at ht
  exact bytesOf_injective ht

theorem encode_append (kept : UInt8 → Bool) (bs cs : Bytes) :
    encode kept (bs ++ cs) = encode kept bs ++ encode kept cs := List.flatMap_append

/-- A character that an encoded argument keeps is one byte. -/
theorem component_char {c : Char} (h : componentChar c = true) :
    encode componentByte (pathLiteral c) = [c] := by
  have hlt := toNat_lt_of_componentChar h
  have hbyte : (UInt8.ofNat c.toNat).toNat = c.toNat := by
    rw [UInt8.toNat_ofNat']
    exact Nat.mod_eq_of_lt (by omega)
  have hkeep : componentByte (UInt8.ofNat c.toNat) = true := by
    rw [componentByte, hbyte, Char.ofNat_toNat, h]
    simpa using hlt
  rw [pathLiteral, bytesOf_singleton hlt]
  show encodeByte componentByte _ ++ [] = [c]
  rw [encodeByte, if_pos hkeep, hbyte, Char.ofNat_toNat]
  rfl

/-- A word is its own encoding. -/
theorem component_word {s : String} (h : s.toList.all componentChar = true) :
    component s = s.toList := by
  have hchars : ∀ cs : List Char, cs.all componentChar = true →
      encode componentByte (cs.flatMap pathLiteral) = cs := by
    intro cs hcs
    induction cs with
    | nil => rfl
    | cons c cs ih =>
      rw [List.all_cons, Bool.and_eq_true] at hcs
      rw [List.flatMap_cons, encode_append, component_char hcs.1, ih hcs.2]
      rfl
  have hword := hchars s.toList h
  rw [flatMap_pathLiteral, String.ofList_toList] at hword
  exact hword

/-! ## Paths of encoded segments -/

theorem singleDots_decode : ∀ t ∈ singleDots, decode pathLiteral t = some (bytesOf ".") := by
  decide

theorem doubleDots_decode : ∀ t ∈ doubleDots, decode pathLiteral t = some (bytesOf "..") := by
  decide

theorem component_eq_nil_iff (s : String) : component s = [] ↔ s = "" := by
  constructor
  · intro h
    exact eq_of_component h (t := "") rfl
  · rintro rfl
    rfl

/-- A segment that is neither empty nor names a directory is taken as it is. -/
theorem ordinary_component {s : String} (h : Addressable s) :
    Ordinary (component s) ∧ component s ∉ singleDots ∧ component s ∉ doubleDots := by
  obtain ⟨hempty, hdot, hdots, -⟩ := h
  have hsingle : component s ∉ singleDots := by
    intro hmem
    exact hdot (eq_of_component rfl (singleDots_decode _ hmem))
  have hdouble : component s ∉ doubleDots := by
    intro hmem
    exact hdots (eq_of_component rfl (doubleDots_decode _ hmem))
  refine ⟨⟨?_, ?_, ?_⟩, hsingle, hdouble⟩
  · intro hnil
    exact hempty ((component_eq_nil_iff s).mp hnil)
  · intro hone
    rw [hone] at hsingle
    exact hsingle (by decide)
  · intro htwo
    rw [htwo] at hdouble
    exact hdouble (by decide)

theorem resolveSegment_eq {seg : List Char} (hsingle : seg ∉ singleDots) (hdouble : seg ∉ doubleDots)
    (stack : List (List Char)) (last : Bool) : resolveSegment stack seg last = stack ++ [seg] := by
  rw [resolveSegment, if_neg (by simpa using hdouble), if_neg (by simpa using hsingle)]

theorem resolveSegments_eq {segs : List (List Char)}
    (h : ∀ seg ∈ segs, seg ∉ singleDots ∧ seg ∉ doubleDots) (stack : List (List Char)) :
    resolveSegments stack segs = stack ++ segs := by
  induction segs generalizing stack with
  | nil => simp [resolveSegments]
  | cons seg rest ih =>
    obtain ⟨hsingle, hdouble⟩ := h seg List.mem_cons_self
    cases rest with
    | nil => rw [resolveSegments, resolveSegment_eq hsingle hdouble]
    | cons next rest =>
      rw [resolveSegments, resolveSegment_eq hsingle hdouble,
        ih (fun s hs => h s (List.mem_cons_of_mem seg hs)), List.append_assoc]
      · rfl
      · simp

/-- The path of these segments. -/
def pathText (segs : List String) : List Char := pathOf (segs.map component)

theorem slash_notMem_components (segs : List String) : ∀ seg ∈ segs.map component, '/' ∉ seg := by
  intro seg hseg
  obtain ⟨s, -, rfl⟩ := List.mem_map.mp hseg
  exact notMem_component rfl (by decide) s

theorem clean_components {segs : List String} (hne : segs ≠ []) (h : ∀ s ∈ segs, Addressable s) :
    Clean (segs.map component) := by
  refine ⟨segs.map component, ?_, Or.inr ⟨rfl, by simpa using hne⟩⟩
  intro seg hseg
  obtain ⟨s, hs, rfl⟩ := List.mem_map.mp hseg
  exact (ordinary_component (h s hs)).1

theorem segmentsOf_pathText {segs : List String} (hne : segs ≠ []) :
    segmentsOf (pathText segs) = segs.map component :=
  segmentsOf_pathOf (slash_notMem_components segs) (by simpa using hne)

/-- The router sees the segments that were meant. -/
theorem muxSegments_components {segs : List String} (h : ∀ s ∈ segs, Addressable s) :
    muxSegments (segs.map component) = segs := by
  induction segs with
  | nil => rfl
  | cons s segs ih =>
    rw [List.map_cons, muxSegments_cons (ordinary_component (h s List.mem_cons_self)).1,
      pathUnescape_component, ih (fun t ht => h t (List.mem_cons_of_mem s ht))]

/-- Every character of the path is a slash or belongs to an encoded argument. -/
theorem mem_pathText {segs : List String} {c : Char} (h : c ∈ pathText segs) :
    c = '/' ∨ componentChar c = true ∨ c = '%' := by
  have hjoin : ∀ segs : List String, ∀ c ∈ (['/'] : List Char).intercalate (segs.map component),
      c = '/' ∨ componentChar c = true ∨ c = '%' := by
    intro segs
    induction segs with
    | nil => simp
    | cons s segs ih =>
      intro c hc
      by_cases hnil : segs.map component = []
      · rw [List.map_cons, hnil, List.intercalate_singleton] at hc
        exact Or.inr (mem_component hc)
      · rw [List.map_cons, List.intercalate_cons_of_ne_nil hnil, List.mem_append,
          List.mem_append, List.mem_singleton] at hc
        obtain (hc | hc) | hc := hc
        · exact Or.inr (mem_component hc)
        · exact Or.inl hc
        · exact ih c hc
  obtain hc | hc := List.mem_cons.mp h
  · exact Or.inl hc
  · exact hjoin segs c hc

theorem decode_pathText (segs : List String) :
    ∃ bs, decode pathLiteral (pathText segs) = some bs := by
  have hjoin : ∀ segs : List String,
      ∃ bs, decode pathLiteral ((['/'] : List Char).intercalate (segs.map component)) = some bs := by
    intro segs
    induction segs with
    | nil => exact ⟨[], rfl⟩
    | cons s segs ih =>
      obtain ⟨bs, hbs⟩ := ih
      by_cases hnil : segs.map component = []
      · rw [List.map_cons, hnil, List.intercalate_singleton]
        exact ⟨_, decode_encode reads_path _⟩
      · rw [List.map_cons, List.intercalate_cons_of_ne_nil hnil, List.append_assoc, component,
          decode_encode_append reads_path, List.singleton_append,
          decode_cons_of_ne pathLiteral (by decide), hbs]
        exact ⟨_, rfl⟩
  obtain ⟨bs, hbs⟩ := hjoin segs
  rw [pathText, pathOf, decode_cons_of_ne pathLiteral (by decide), hbs]
  exact ⟨_, rfl⟩

theorem validEncoded_pathText (segs : List String) : validEncoded (pathText segs) = true := by
  have hmarks : "-_.!~*'()".toList.all
      (fun c => keptInPath c || "!'()*[]%".toList.contains c) = true := rfl
  rw [validEncoded, List.all_eq_true]
  intro c hc
  obtain rfl | hchar | rfl := mem_pathText hc
  · rfl
  · obtain halnum | hmark := Bool.or_eq_true_iff.mp hchar
    · rw [keptInPath, halnum]
      rfl
    · rw [List.contains_iff_mem] at hmark
      exact List.all_eq_true.mp hmarks c hmark
  · rfl

/-! ## Queries -/

/-- A parameter as a call writes it. -/
def settingText (e : String × String) : List Char := e.1.toList ++ '=' :: component e.2

def queryText (params : List (String × String)) : List Char :=
  if params = [] then [] else '?' :: ['&'].intercalate (params.map settingText)

/-- What the browser sends for an encoded argument of a query. -/
theorem component_flatMap_queryChar (s : String) :
    (component s).flatMap queryChar = encode queryByte (bytesOf s) := by
  have hbyte : ∀ b, (encodeByte componentByte b).flatMap queryChar = encodeByte queryByte b := by
    intro b
    have hhex : ∀ n < 16, queryChar (hexDigit n) = [hexDigit n] := by
      intro n hn
      interval_cases n <;> rfl
    by_cases hb : componentByte b = true
    · by_cases hquote : b = 39
      · rw [hquote]
        rfl
      · have hquery : queryByte b = true := by
          rw [queryByte, hb]
          simpa using hquote
        have hlt : b.toNat < 128 := by
          rw [componentByte, Bool.and_eq_true, decide_eq_true_eq] at hb
          exact hb.1
        have hchar : Char.ofNat b.toNat ≠ Char.ofNat 39 := by
          intro heq
          have hnat := congrArg Char.toNat heq
          rw [toNat_ofNat_byte hlt] at hnat
          exact hquote (UInt8.toNat_inj.mp hnat)
        rw [encodeByte, if_pos hb, encodeByte, if_pos hquery, List.flatMap_singleton, queryChar,
          if_neg hchar]
    · have hquery : ¬ queryByte b = true := fun h => hb (componentByte_of_queryByte h)
      have hlt : b.toNat < 256 := UInt8.toNat_lt_size b
      rw [encodeByte, if_neg hb, encodeByte, if_neg hquery]
      simp only [List.flatMap_cons, List.flatMap_nil, hhex (b.toNat / 16) (by omega),
        hhex (b.toNat % 16) (by omega)]
      rfl
  rw [component, encode, encode, List.flatMap_assoc]
  congr 1
  funext b
  exact hbyte b

/-- A name of a parameter: letters and digits, and not empty. -/
structure Word (k : String) : Prop where
  chars : k.toList.all Char.isAlphanum = true
  ne : k ≠ ""

theorem Word.notMem {k : String} (h : Word k) {c : Char} (hc : c.isAlphanum = false) :
    c ∉ k.toList := by
  intro hmem
  have halnum := List.all_eq_true.mp h.chars c hmem
  rw [hc] at halnum
  exact Bool.false_ne_true halnum

theorem Word.flatMap_queryChar {k : String} (h : Word k) : k.toList.flatMap queryChar = k.toList := by
  have hself : ∀ c ∈ k.toList, queryChar c = [c] := by
    intro c hc
    refine if_neg ?_
    rintro rfl
    exact h.notMem (by decide) hc
  rw [List.flatMap_congr hself, List.flatMap_singleton']

theorem Word.decode {k : String} (h : Word k) :
    decode queryLiteral k.toList = some (bytesOf k) := by
  have hplain : ∀ c ∈ k.toList, queryLiteral c = pathLiteral c := by
    intro c hc
    refine if_neg ?_
    rintro rfl
    exact h.notMem (by decide) hc
  have happend := decode_plain_append queryLiteral (h.notMem (c := '%') (by decide)) []
  rw [List.append_nil, List.flatMap_congr hplain, flatMap_pathLiteral, String.ofList_toList] at happend
  rw [happend, Percent.decode]
  simp

/-- What the browser sends for a parameter. -/
def sentSetting (e : String × String) : List Char :=
  e.1.toList ++ '=' :: encode queryByte (bytesOf e.2)

theorem flatMap_settingText {e : String × String} (h : Word e.1) :
    (settingText e).flatMap queryChar = sentSetting e := by
  have heq : queryChar '=' = ['='] := by decide
  rw [settingText, List.flatMap_append, h.flatMap_queryChar, List.flatMap_cons, heq,
    component_flatMap_queryChar]
  rfl

theorem notMem_sent {c : Char} (hc : componentChar c = false) (hpercent : c ≠ '%') (bs : Bytes) :
    c ∉ encode queryByte bs := by
  intro hmem
  obtain h | h := mem_encode_component (fun _ => componentByte_of_queryByte) hmem
  · rw [hc] at h
    exact Bool.false_ne_true h
  · exact hpercent h

theorem notMem_sentSetting {e : String × String} (h : Word e.1) {c : Char}
    (halnum : c.isAlphanum = false) (hc : componentChar c = false) (hpercent : c ≠ '%')
    (heq : c ≠ '=') : c ∉ sentSetting e := by
  rw [sentSetting, List.mem_append, List.mem_cons, not_or, not_or]
  exact ⟨h.notMem halnum, heq, notMem_sent hc hpercent _⟩

/-- The server reads a parameter as it was meant. -/
theorem parseSetting_sent {e : String × String} (h : Word e.1) :
    parseSetting (sentSetting e) = some e := by
  have hsemicolon : (sentSetting e).contains ';' = false := by
    rw [Bool.eq_false_iff, ne_eq, List.contains_iff_mem]
    exact notMem_sentSetting h (by decide) rfl (by decide) (by decide)
  have hempty : (sentSetting e).isEmpty = false := by
    rw [List.isEmpty_eq_false_iff, sentSetting]
    simp
  have hname : ∀ c ∈ e.1.toList, decide (c ≠ '=') = true := by
    intro c hc
    rw [decide_eq_true_eq]
    rintro rfl
    exact h.notMem (by decide) hc
  have htake : (sentSetting e).takeWhile (fun c => c ≠ '=') = e.1.toList := by
    rw [sentSetting, List.takeWhile_append_of_pos hname]
    simp
  have hdrop : ((sentSetting e).dropWhile (fun c => c ≠ '=')).drop 1 =
      encode queryByte (bytesOf e.2) := by
    rw [sentSetting, List.dropWhile_append_of_pos hname]
    simp
  rw [parseSetting, hsemicolon, hempty, htake, hdrop, h.decode, decode_encode reads_query]
  simp only [Bool.or_self, Bool.false_eq_true, if_false, goString, textOf_bytesOf, Option.getD_some]

/-- The query that is sent, without its question mark. -/
def sentQuery (params : List (String × String)) : List Char :=
  ['&'].intercalate (params.map sentSetting)

theorem queryGet_sentQuery {params : List (String × String)} (h : ∀ e ∈ params, Word e.1)
    (name : String) :
    queryGet (sentQuery params) name =
      ((params.find? (fun e => e.1 = name)).map Prod.snd).getD "" := by
  by_cases hnil : params = []
  · rw [hnil]
    rfl
  · have hamp : ∀ t ∈ params.map sentSetting, '&' ∉ t := by
      intro t ht
      obtain ⟨e, he, rfl⟩ := List.mem_map.mp ht
      exact notMem_sentSetting (h e he) (by decide) rfl (by decide) (by decide)
    have hparse : (params.map sentSetting).filterMap parseSetting = params := by
      rw [List.filterMap_map]
      have hsome : ∀ e ∈ params, (parseSetting ∘ sentSetting) e = some e :=
        fun e he => parseSetting_sent (h e he)
      rw [List.filterMap_congr hsome, List.filterMap_some]
    rw [queryGet, sentQuery, List.splitOn_intercalate '&' hamp (by simpa using hnil), hparse]

theorem flatMap_queryText {params : List (String × String)} (h : ∀ e ∈ params, Word e.1) :
    (queryText params).flatMap queryChar =
      if params = [] then [] else '?' :: sentQuery params := by
  have hjoin : ∀ params : List (String × String), (∀ e ∈ params, Word e.1) →
      ((['&'] : List Char).intercalate (params.map settingText)).flatMap queryChar =
        sentQuery params := by
    intro params
    induction params with
    | nil => intro _; rfl
    | cons e params ih =>
      intro hwords
      have hhead := flatMap_settingText (hwords e List.mem_cons_self)
      have htail := ih (fun x hx => hwords x (List.mem_cons_of_mem e hx))
      have hamp : queryChar '&' = ['&'] := by decide
      by_cases hnil : params = []
      · rw [hnil, sentQuery, List.map_singleton, List.map_singleton, List.intercalate_singleton,
          List.intercalate_singleton, hhead]
      · have hne : ∀ f : String × String → List Char, params.map f ≠ [] := by simpa using hnil
        rw [sentQuery] at htail
        rw [sentQuery, List.map_cons, List.map_cons, List.intercalate_cons_of_ne_nil (hne _),
          List.intercalate_cons_of_ne_nil (hne _), List.flatMap_append, List.flatMap_append, hhead,
          htail, List.flatMap_singleton, hamp]
  rw [queryText]
  split_ifs with hnil
  · rfl
  · have hmark : queryChar '?' = ['?'] := by decide
    rw [List.flatMap_cons, hmark, hjoin params h]
    rfl

/-! ## From the page to the handler -/

/-- The text of a path and its query. -/
def urlText (segs : List String) (params : List (String × String)) : List Char :=
  pathText segs ++ queryText params

/-- What is sent for a path of addressable segments is the path itself, and the server
reads the segments and the parameters that were meant. -/
theorem parse_browserTarget {segs : List String} {params : List (String × String)}
    (hne : segs ≠ []) (hsegs : ∀ s ∈ segs, Addressable s) (hparams : ∀ e ∈ params, Word e.1) :
    ∃ url, parseRequestURI (browserTarget (urlText segs params)) = some url ∧
      url.escapedPath = pathText segs ∧
      ∀ name, queryGet url.rawQuery name =
        ((params.find? (fun e => e.1 = name)).map Prod.snd).getD "" := by
  have hpath : ∀ c ∈ pathText segs, decide (c ≠ '?') = true := by
    intro c hc
    rw [decide_eq_true_eq]
    rintro rfl
    obtain h | h | h := mem_pathText hc
    · exact absurd h (by decide)
    · exact absurd h (by decide)
    · exact absurd h (by decide)
  have hquery : (queryText params).takeWhile (fun c => c ≠ '?') = [] ∧
      (queryText params).dropWhile (fun c => c ≠ '?') = queryText params := by
    rw [queryText]
    split_ifs with hnil
    · exact ⟨rfl, rfl⟩
    · exact ⟨rfl, rfl⟩
  have htaken : (urlText segs params).takeWhile (fun c => c ≠ '?') = pathText segs := by
    rw [urlText, List.takeWhile_append_of_pos hpath, hquery.1, List.append_nil]
  have hdropped : (urlText segs params).dropWhile (fun c => c ≠ '?') = queryText params := by
    rw [urlText, List.dropWhile_append_of_pos hpath, hquery.2]
  have hdots : ∀ seg ∈ segs.map component, seg ∉ singleDots ∧ seg ∉ doubleDots := by
    intro seg hseg
    obtain ⟨s, hs, rfl⟩ := List.mem_map.mp hseg
    exact (ordinary_component (hsegs s hs)).2
  have htarget : browserTarget (urlText segs params) =
      pathText segs ++ (if params = [] then [] else '?' :: sentQuery params) := by
    rw [browserTarget, htaken, hdropped, segmentsOf_pathText hne, resolveSegments_eq hdots,
      flatMap_queryText hparams]
    rfl
  obtain ⟨bs, hbs⟩ := decode_pathText segs
  have hpathText : (pathText segs ++ (if params = [] then [] else '?' :: sentQuery params)).takeWhile
      (fun c => c ≠ '?') = pathText segs := by
    rw [List.takeWhile_append_of_pos hpath]
    split_ifs with hnil
    · simp
    · simp
  have hrest : ((pathText segs ++ (if params = [] then [] else '?' :: sentQuery params)).dropWhile
      (fun c => c ≠ '?')).drop 1 = sentQuery params := by
    rw [List.dropWhile_append_of_pos hpath]
    split_ifs with hnil
    · rw [hnil]
      rfl
    · simp
  refine ⟨⟨bs, pathText segs, sentQuery params⟩, ?_, rfl, queryGet_sentQuery hparams⟩
  rw [htarget, parseRequestURI, hpathText, hrest, hbs, Option.map_some, if_pos (validEncoded_pathText segs)]

/-- The router sends the path to the entry of the table that has these segments. -/
theorem findHandler_pathText (rt : Runtime) {below : List String}
    (hsegs : ∀ s ∈ "api" :: below, Addressable s) {e : Key × Handler} (he : e ∈ apiTable)
    {values : List String} (hmatch : matchPath e.1.path below = some values) :
    findHandler (registerRoutes rt) "GET" (pathText ("api" :: below)) =
      .target (.api e.2 (wildcardNames e.1.path)) values := by
  have hne : "api" :: below ≠ [] := List.cons_ne_nil _ _
  have hclean : cleanPath (pathText ("api" :: below)) = pathText ("api" :: below) :=
    (clean_components hne hsegs).cleanPath_eq (slash_notMem_components _)
  have hget : Reading "GET" := Or.inl rfl
  have hsearch : getTree.search ("api" :: below) =
      some (.api e.2 (wildcardNames e.1.path), values) :=
    search_getTree_iff.mpr ⟨e, he, rfl, below, Or.inl rfl, hmatch⟩
  rw [findHandler, if_neg (fun h => h.2 hclean), segmentsOf_pathText hne,
    muxSegments_components hsegs, dispatch_eq, if_pos hget, hsearch]
  rfl

/-- The digits that stand for a number are those of one that is at most twice as large. -/
theorem shortestDecimal_le (m : ℕ) : shortestDecimal m ≤ 2 * m + 1 := by
  unfold shortestDecimal
  dsimp only
  cases hfind : List.find? _ _ with
  | none => simp only [Option.getD_none]; omega
  | some c =>
    have hmem := List.mem_of_find?_eq_some hfind
    rw [List.mem_flatMap] at hmem
    obtain ⟨e, he, hc⟩ := hmem
    rw [List.mem_reverse, List.mem_range] at he
    have hpow : 10 ^ e ≤ m + 1 := by
      by_cases hzero : e = 0
      · rw [hzero]
        omega
      · have hlong : ¬ (Nat.toDigits 10 m).length ≤ e := not_le.mpr he
        rw [Nat.length_toDigits_le_iff (by omega) (by omega), not_lt] at hlong
        omega
    have hdown : m / 10 ^ e * 10 ^ e ≤ m := Nat.div_mul_le_self m _
    have hcases : c = m / 10 ^ e * 10 ^ e ∨ c = m / 10 ^ e * 10 ^ e + 10 ^ e := by
      split_ifs at hc
      · simpa using hc
      · simpa [or_comm] using hc
    rw [Option.getD_some]
    obtain rfl | rfl := hcases
    · omega
    · omega

/-- A limit without an exponent in its text is sent as it is. -/
theorem component_numberText {n : Int} (h : n.natAbs < 10 ^ 20) :
    component (numberText n) = (numberText n).toList := by
  have hle := shortestDecimal_le n.natAbs
  have hmagnitude : (magnitudeText n.natAbs).toList.all componentChar = true := by
    rw [magnitudeText]
    dsimp only
    rw [if_pos (by omega), List.all_eq_true]
    intro c hc
    have hdigit : c.isDigit = true := by
      have hmem : c ∈ Nat.toDigits 10 (shortestDecimal n.natAbs) := by
        rw [← Nat.toList_repr]
        exact hc
      exact Nat.isDigit_of_mem_toDigits (by decide) (by decide) hmem
    rw [componentChar, Char.isAlphanum, hdigit]
    simp
  refine component_word ?_
  rw [numberText]
  split_ifs with hneg
  · rw [String.toList_append, List.all_append, hmagnitude]
    rfl
  · exact hmagnitude

/-- The arguments that a call puts into its path, and the limit it may ask for. -/
def Call.Sendable : Call → Prop
  | .shard pod => Addressable pod
  | .shardTrends pod _ _ => Addressable pod
  | .cluster id => Addressable id
  | .needs _ limit => limit.natAbs < 10 ^ 20
  | _ => True

theorem urlText_nil (segs : List String) : urlText segs [] = pathText segs := by
  rw [urlText, queryText, if_pos rfl, List.append_nil]

theorem pathText_cons (s t : String) (segs : List String) :
    pathText (s :: t :: segs) = '/' :: component s ++ pathText (t :: segs) :=
  pathOf_cons (component s) (List.cons_ne_nil _ _)

theorem pathText_singleton (s : String) : pathText [s] = '/' :: component s := by
  rw [pathText, List.map_singleton, pathOf, List.intercalate_singleton]

theorem pathText_word_cons {s t : String} (hs : s.toList.all componentChar = true)
    (segs : List String) : pathText (s :: t :: segs) = '/' :: s.toList ++ pathText (t :: segs) := by
  rw [pathText_cons, component_word hs]

theorem pathText_word {s : String} (hs : s.toList.all componentChar = true) :
    pathText [s] = '/' :: s.toList := by
  rw [pathText_singleton, component_word hs]

theorem queryText_pair (k v k' v' : String) :
    queryText [(k, v), (k', v')] =
      '?' :: (k.toList ++ '=' :: component v) ++ '&' :: (k'.toList ++ '=' :: component v') := by
  rw [queryText, if_neg (List.cons_ne_nil _ _)]
  simp [settingText]

theorem queryText_single (k v : String) :
    queryText [(k, v)] = '?' :: (k.toList ++ '=' :: component v) := by
  rw [queryText, if_neg (List.cons_ne_nil _ _)]
  simp [settingText]

theorem toList_encodeURIComponent (s : String) : (encodeURIComponent s).toList = component s :=
  String.toList_ofList

/-- A call writes the path of its segments and its parameters. -/
theorem Call.url_eq {c : Call} (h : c.Sendable) :
    c.url.toList = urlText ("api" :: c.below) c.params := by
  cases c with
  | health =>
    show "/api/health".toList = urlText ["api", "health"] []
    rw [urlText_nil, pathText_word_cons (s := "api") rfl, pathText_word (s := "health") rfl]
    rfl
  | config =>
    show "/api/config".toList = urlText ["api", "config"] []
    rw [urlText_nil, pathText_word_cons (s := "api") rfl, pathText_word (s := "config") rfl]
    rfl
  | fleetOverview =>
    show "/api/fleet/overview".toList = urlText ["api", "fleet", "overview"] []
    rw [urlText_nil, pathText_word_cons (s := "api") rfl, pathText_word_cons (s := "fleet") rfl,
      pathText_word (s := "overview") rfl]
    rfl
  | fleetActions duration step =>
    show ("/api/fleet/actions?duration=" ++ encodeURIComponent duration ++ "&step=" ++
      encodeURIComponent step).toList =
        urlText ["api", "fleet", "actions"] [("duration", duration), ("step", step)]
    rw [urlText, pathText_word_cons (s := "api") rfl, pathText_word_cons (s := "fleet") rfl,
      pathText_word (s := "actions") rfl, queryText_pair]
    simp only [String.toList_append, toList_encodeURIComponent, List.append_assoc]
    rfl
  | shards =>
    show "/api/shards".toList = urlText ["api", "shards"] []
    rw [urlText_nil, pathText_word_cons (s := "api") rfl, pathText_word (s := "shards") rfl]
    rfl
  | shard pod =>
    show ("/api/shards/" ++ encodeURIComponent pod).toList = urlText ["api", "shards", pod] []
    rw [urlText_nil, pathText_word_cons (s := "api") rfl, pathText_word_cons (s := "shards") rfl,
      pathText_singleton, String.toList_append, toList_encodeURIComponent]
    rfl
  | shardTrends pod duration step =>
    show ("/api/shards/" ++ encodeURIComponent pod ++ "/trends?duration=" ++
      encodeURIComponent duration ++ "&step=" ++ encodeURIComponent step).toList =
        urlText ["api", "shards", pod, "trends"] [("duration", duration), ("step", step)]
    rw [urlText, pathText_word_cons (s := "api") rfl, pathText_word_cons (s := "shards") rfl,
      pathText_cons, pathText_word (s := "trends") rfl, queryText_pair]
    simp only [String.toList_append, toList_encodeURIComponent, List.append_assoc]
    rfl
  | clusters =>
    show "/api/clusters".toList = urlText ["api", "clusters"] []
    rw [urlText_nil, pathText_word_cons (s := "api") rfl, pathText_word (s := "clusters") rfl]
    rfl
  | cluster id =>
    show ("/api/clusters/" ++ encodeURIComponent id).toList = urlText ["api", "clusters", id] []
    rw [urlText_nil, pathText_word_cons (s := "api") rfl, pathText_word_cons (s := "clusters") rfl,
      pathText_singleton, String.toList_append, toList_encodeURIComponent]
    rfl
  | availableCapacity =>
    show "/api/available-capacity".toList = urlText ["api", "available-capacity"] []
    rw [urlText_nil, pathText_word_cons (s := "api") rfl,
      pathText_word (s := "available-capacity") rfl]
    rfl
  | topology =>
    show "/api/topology".toList = urlText ["api", "topology"] []
    rw [urlText_nil, pathText_word_cons (s := "api") rfl, pathText_word (s := "topology") rfl]
    rfl
  | shardReports =>
    show "/api/shard-reports".toList = urlText ["api", "shard-reports"] []
    rw [urlText_nil, pathText_word_cons (s := "api") rfl, pathText_word (s := "shard-reports") rfl]
    rfl
  | needs shardId limit =>
    show ("/api/needs?shard=" ++ encodeURIComponent shardId ++
      (if limit = 0 then "" else "&limit=" ++ numberText limit)).toList =
        urlText ["api", "needs"] (Pages.needsParams shardId limit)
    rw [urlText, pathText_word_cons (s := "api") rfl, pathText_word (s := "needs") rfl,
      Pages.needsParams]
    split_ifs with hlimit
    · rw [queryText_single]
      simp only [String.toList_append, toList_encodeURIComponent, String.toList_empty,
        List.append_nil]
      rfl
    · rw [queryText_pair, component_numberText h]
      simp only [String.toList_append, toList_encodeURIComponent, List.append_assoc]
      rfl
  | finopsSnapshot =>
    show "/api/finops/snapshot".toList = urlText ["api", "finops", "snapshot"] []
    rw [urlText_nil, pathText_word_cons (s := "api") rfl, pathText_word_cons (s := "finops") rfl,
      pathText_word (s := "snapshot") rfl]
    rfl

theorem Call.addressable_below {c : Call} (h : c.Sendable) : ∀ s ∈ "api" :: c.below, Addressable s := by
  have hall : ∀ segs : List String, (∀ s ∈ segs, Addressable s) → ∀ s ∈ "api" :: segs, Addressable s := by
    intro segs hsegs s hs
    obtain rfl | hs := List.mem_cons.mp hs
    · decide
    · exact hsegs s hs
  refine hall _ ?_
  cases c with
  | shard pod =>
    intro s hs
    simp only [below, List.mem_cons, List.not_mem_nil, or_false] at hs
    obtain rfl | rfl := hs
    · decide
    · exact h
  | shardTrends pod duration step =>
    intro s hs
    simp only [below, List.mem_cons, List.not_mem_nil, or_false] at hs
    obtain rfl | rfl | rfl := hs
    · decide
    · exact h
    · decide
  | cluster id =>
    intro s hs
    simp only [below, List.mem_cons, List.not_mem_nil, or_false] at hs
    obtain rfl | rfl := hs
    · decide
    · exact h
  | fleetActions duration step =>
    show ∀ s ∈ ["fleet", "actions"], Addressable s
    decide
  | needs shardId limit =>
    show ∀ s ∈ ["needs"], Addressable s
    decide
  | _ =>
    unfold below
    decide

theorem Call.word_params (c : Call) : ∀ e ∈ c.params, Word e.1 := by
  have hduration : Word "duration" := ⟨rfl, by decide⟩
  have hstep : Word "step" := ⟨rfl, by decide⟩
  have hshard : Word "shard" := ⟨rfl, by decide⟩
  have hlimit : Word "limit" := ⟨rfl, by decide⟩
  cases c with
  | fleetActions duration step =>
    intro e he
    simp only [params, List.mem_cons, List.not_mem_nil, or_false] at he
    obtain rfl | rfl := he
    · exact hduration
    · exact hstep
  | shardTrends pod duration step =>
    intro e he
    simp only [params, List.mem_cons, List.not_mem_nil, or_false] at he
    obtain rfl | rfl := he
    · exact hduration
    · exact hstep
  | needs shardId limit =>
    intro e he
    rw [params, Pages.needsParams] at he
    split_ifs at he
    · obtain rfl := List.mem_singleton.mp he
      exact hshard
    · simp only [List.mem_cons, List.not_mem_nil, or_false] at he
      obtain rfl | rfl := he
      · exact hshard
      · exact hlimit
  | _ =>
    intro e he
    exact absurd he List.not_mem_nil

/-- The entry of the table that a call is meant for takes its segments, and hands its
argument to the handler. -/
theorem Call.entry {c : Call} (h : c.Sendable) :
    ∃ e ∈ apiTable, e.2 = c.handler ∧ ∃ values, matchPath e.1.path c.below = some values ∧
      pathValue (wildcardNames e.1.path) values = c.request.pathValue := by
  cases c with
  | shard pod =>
    refine ⟨(⟨"GET", [.literal "shards", .wildcard "pod"]⟩, .shardDetailHandler), by decide, rfl,
      [pod], ?_, rfl⟩
    rw [below, matchPath_literal, if_pos rfl, matchPath_wildcard, if_neg h.2.2.2]
    rfl
  | shardTrends pod duration step =>
    refine ⟨(⟨"GET", [.literal "shards", .wildcard "pod", .literal "trends"]⟩, .shardTrendsHandler),
      by decide, rfl, [pod], ?_, rfl⟩
    rw [below, matchPath_literal, if_pos rfl, matchPath_wildcard, if_neg h.2.2.2]
    rfl
  | cluster id =>
    refine ⟨(⟨"GET", [.literal "clusters", .wildcard "id"]⟩, .clusterDetailHandler), by decide, rfl,
      [id], ?_, rfl⟩
    rw [below, matchPath_literal, if_pos rfl, matchPath_wildcard, if_neg h.2.2.2]
    rfl
  | health => exact ⟨(⟨"GET", [.literal "health"]⟩, _), by decide, rfl, [], rfl, rfl⟩
  | config => exact ⟨(⟨"GET", [.literal "config"]⟩, _), by decide, rfl, [], rfl, rfl⟩
  | fleetOverview =>
    exact ⟨(⟨"GET", [.literal "fleet", .literal "overview"]⟩, _), by decide, rfl, [], rfl, rfl⟩
  | fleetActions duration step =>
    exact ⟨(⟨"GET", [.literal "fleet", .literal "actions"]⟩, _), by decide, rfl, [], rfl, rfl⟩
  | shards => exact ⟨(⟨"GET", [.literal "shards"]⟩, _), by decide, rfl, [], rfl, rfl⟩
  | clusters => exact ⟨(⟨"GET", [.literal "clusters"]⟩, _), by decide, rfl, [], rfl, rfl⟩
  | availableCapacity =>
    exact ⟨(⟨"GET", [.literal "available-capacity"]⟩, _), by decide, rfl, [], rfl, rfl⟩
  | topology => exact ⟨(⟨"GET", [.literal "topology"]⟩, _), by decide, rfl, [], rfl, rfl⟩
  | shardReports => exact ⟨(⟨"GET", [.literal "shard-reports"]⟩, _), by decide, rfl, [], rfl, rfl⟩
  | needs shardId limit => exact ⟨(⟨"GET", [.literal "needs"]⟩, _), by decide, rfl, [], rfl, rfl⟩
  | finopsSnapshot =>
    exact ⟨(⟨"GET", [.literal "finops", .literal "snapshot"]⟩, _), by decide, rfl, [], rfl, rfl⟩

/-- What a handler's result becomes. -/
def responseOf : Except Failure Body → Response
  | .ok body => .json body
  | .error f => .error f

/-- Every call of the page reaches the handler it is meant for, and the handler reads the
arguments of the call, whatever characters they have. -/
theorem call_served (d : Dashboard) (bundle : Bundle) (rt : Runtime) {c : Call} (h : c.Sendable)
    (clock : Clock) :
    d.serve bundle (registerRoutes rt) "GET" (browserTarget c.url.toList) clock =
      responseOf (d.handle c.request clock c.handler) := by
  have hsegs := Call.addressable_below h
  obtain ⟨url, hparse, hpath, hquery⟩ :=
    parse_browserTarget (List.cons_ne_nil "api" c.below) hsegs c.word_params
  obtain ⟨e, he, hhandler, values, hmatch, hvalues⟩ := Call.entry h
  have hfind := findHandler_pathText rt hsegs he hmatch
  have hrequest : requestOfURL url (wildcardNames e.1.path) values = c.request := by
    rw [requestOfURL, hvalues]
    congr 1
    funext name
    exact hquery name
  rw [Dashboard.serve, Call.url_eq h, hparse]
  dsimp only
  rw [Dashboard.answer, hpath, hfind]
  dsimp only
  rw [hrequest, hhandler]
  cases d.handle c.request clock c.handler with
  | ok body => rfl
  | error f => rfl

theorem call_served_slashes :
    Dashboard.unwired.serve .notBuilt (registerRoutes Runtime.plain) "GET"
        (browserTarget (Call.cluster "eu/prod?1").url.toList) ⟨0, 0⟩ =
      responseOf (Dashboard.unwired.handle (Call.cluster "eu/prod?1").request ⟨0, 0⟩
        .clusterDetailHandler) :=
  call_served (c := .cluster "eu/prod?1") Dashboard.unwired .notBuilt Runtime.plain
    (by show Addressable "eu/prod?1"; decide) ⟨0, 0⟩

end BigfleetDashboard.Web
