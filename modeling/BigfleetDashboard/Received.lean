import BigfleetDashboard.Wire

/-!
# What a page makes of a document

A page reads a document by the names and types that it declares for it. A field that may be
missing is read as missing if the document lacks it, and `null` stands for an empty map. What
the page reads off the document of an answer is what the handler put into the answer.
-/
namespace BigfleetDashboard.Web
open Go CoordClient Handlers JsonText
open Pages (NeedView ReceivedNeeds optionalText optionalInt optionalList optionalMap receivedNeed
  receivedNeeds)

/-! ## Reading by type -/

section Readers
variable {α β : Type}

def readText : Json → Option String
  | .str s => some s
  | _ => none

def readFlag : Json → Option Bool
  | .bool b => some b
  | _ => none

def readInt : Json → Option Int
  | .num n => (wholeNumber n).map Script.toDouble
  | _ => none

def readList (f : Json → Option α) : Json → Option (List α)
  | .arr xs => xs.mapM f
  | _ => none

def readMap (f : Json → Option α) : Json → Option (Option (List (String × α)))
  | .null => some none
  | .obj fields => (fields.mapM (fun e => (f e.2).map (Prod.mk e.1))).map some
  | _ => none

/-- A field that has to be there. -/
def required (f : Json → Option α) (name : String) (d : Json) : Option α := d.field name >>= f

/-- A field that may be missing. -/
def optionally (f : Json → Option α) (name : String) (d : Json) : Option (Option α) :=
  match d.field name with
  | none => some none
  | some v => (f v).map some

end Readers

/-! ## The needs page -/

def readRequirement (d : Json) : Option Pages.Requirement := do
  let key ← required readText "key" d
  let operator ← required readText "operator" d
  let values ← optionally (readList readText) "values" d
  some { key, operator, values }

def readSpread (d : Json) : Option Pages.TopologySpread := do
  let topologyKey ← required readText "topologyKey" d
  let maxSkew ← required readInt "maxSkew" d
  let whenUnsatisfiable ← optionally readText "whenUnsatisfiable" d
  some { topologyKey, maxSkew, whenUnsatisfiable }

def readSupply (d : Json) : Option Pages.MatchingSupply := do
  let idle ← required readInt "idle" d
  let configured ← required readInt "configured" d
  let speculative ← required readInt "speculative" d
  let capped ← required readFlag "capped" d
  some { idle, configured, speculative, capped }

/-- A map that may be missing is never `null`. -/
def readOptionalMap (name : String) (d : Json) : Option (Option (List (String × String))) :=
  (optionally (readMap readText) name d).map Option.join

def readPreemption (d : Json) : Option Pages.PreemptionSummary := do
  let victimsFound ← required readInt "victimsFound" d
  let capacityFreed ← readOptionalMap "capacityFreed" d
  some { victimsFound, capacityFreed }

def readCoverage (d : Json) : Option Pages.DomainCoverage := do
  let domain ← required readText "domain" d
  let coveragePerMille ← required readInt "coveragePerMille" d
  let satisfiable ← required readFlag "satisfiable" d
  some { domain, coveragePerMille, satisfiable }

def readNeed (d : Json) : Option NeedView := do
  let clusterId ← required readText "clusterId" d
  let priority ← required readInt "priority" d
  let aggregateResources ← required (readMap readText) "aggregateResources" d
  let minUnit ← readOptionalMap "minUnit" d
  let group ← optionally readText "group" d
  let requirements ← optionally (readList readRequirement) "requirements" d
  let spread ← optionally (readList readSpread) "spread" d
  let interruptionPenaltyBucket ← required readText "interruptionPenaltyBucket" d
  let reclamationPenaltyBucket ← required readText "reclamationPenaltyBucket" d
  let satisfied ← required readFlag "satisfied" d
  let residualDeficit ← readOptionalMap "residualDeficit" d
  let claimedMachineCount ← required readInt "claimedMachineCount" d
  let bootstrapCount ← required readInt "bootstrapCount" d
  let provisionCount ← required readInt "provisionCount" d
  let sameDomain ← optionally readText "sameDomain" d
  let sameSatisfiable ← required readFlag "sameSatisfiable" d
  let acquisitionParked ← required readFlag "acquisitionParked" d
  let parkedAgeCycles ← optionally readInt "parkedAgeCycles" d
  let ageCyclesUnmet ← required readInt "ageCyclesUnmet" d
  let unmetReason ← required readText "unmetReason" d
  let arrivalUnixNanos ← optionally readInt "arrivalUnixNanos" d
  let profileFingerprint ← optionally readText "profileFingerprint" d
  let matchingSupply ← optionally readSupply "matchingSupply" d
  let preemption ← optionally readPreemption "preemption" d
  let sameCandidates ← optionally (readList readCoverage) "sameCandidates" d
  some {
    clusterId, priority, aggregateResources, minUnit, group, requirements, spread,
    interruptionPenaltyBucket, reclamationPenaltyBucket, satisfied, residualDeficit,
    claimedMachineCount, bootstrapCount, provisionCount, sameDomain, sameSatisfiable,
    acquisitionParked, parkedAgeCycles, ageCyclesUnmet, unmetReason, arrivalUnixNanos,
    profileFingerprint, matchingSupply, preemption, sameCandidates }

/-- `instant` is the reading of an instant's text. -/
def readNeeds (instant : String → Int) (d : Json) : Option ReceivedNeeds := do
  let shardId ← required readText "shardId" d
  let cycle ← required readInt "cycle" d
  let computedAtUnixNanos ← required readInt "computedAtUnixNanos" d
  let totalNeeds ← required readInt "totalNeeds" d
  let needs ← required (readList readNeed) "needs" d
  let queriedAt ← required readText "queriedAt" d
  some { shardId, cycle, computedAtUnixNanos, totalNeeds, needs, queriedAt := instant queriedAt }

/-! ## Reading what was written -/

section Written
variable {α β γ : Type}

theorem digits_isDigit (n : ℕ) : (Nat.toDigits 10 n).all Char.isDigit = true :=
  List.all_eq_true.mpr fun _ hc => Nat.isDigit_of_mem_toDigits (by decide) (by decide) hc

@[simp] theorem wholeNumber_ofInt (n : Int) : wholeNumber (.ofInt n) = some n := by
  unfold wholeNumber
  rw [Numeral.ofInt]
  unfold intText
  by_cases hneg : n < 0
  · simp only [if_pos hneg, digits_isDigit, if_true, Nat.ofDigitChars_ten_toDigits]
    exact congrArg some (by omega)
  · simp only [if_neg hneg]
    split
    · rename_i digits heq
      have hmem : '-' ∈ Nat.toDigits 10 n.natAbs := by rw [heq]; exact List.mem_cons_self
      exact absurd (Nat.isDigit_of_mem_toDigits (by decide) (by decide) hmem) (by decide)
    · simp only [digits_isDigit, if_true, Nat.ofDigitChars_ten_toDigits]
      exact congrArg some (by omega)

@[simp] theorem readInt_ofInt (n : Int) : readInt (ofInt n) = some (Script.toDouble n) := by
  rw [ofInt, readInt, wholeNumber_ofInt]
  rfl

theorem mapM_map {f : Json → Option β} {g : α → Json} {k : α → β}
    (h : ∀ a, f (g a) = some (k a)) (xs : List α) : (xs.map g).mapM f = some (xs.map k) := by
  induction xs with
  | nil => rfl
  | cons x xs ih =>
    rw [List.map_cons, List.mapM_cons, h, ih]
    rfl

theorem readList_ofList {f : Json → Option β} {g : α → Json} {k : α → β}
    (h : ∀ a, f (g a) = some (k a)) (xs : List α) :
    readList f (ofList g xs) = some (xs.map k) :=
  mapM_map h xs

theorem readMap_ofGoMap (m : GoMap String) :
    readMap readText (ofGoMap .str m) = some (Script.parsedMap m) := by
  cases m with
  | none => rfl
  | some m =>
    have hentries : ∀ es : List (String × String),
        (es.map (fun e => (e.1, Json.str e.2))).mapM
          (fun e => (readText e.2).map (Prod.mk e.1)) = some es := by
      intro es
      induction es with
      | nil => rfl
      | cons e es ih =>
        rw [List.map_cons, List.mapM_cons, ih]
        rfl
    show Option.map some (((Script.sortedEntries m).map (fun e => (e.1, Json.str e.2))).mapM
      (fun e => (readText e.2).map (Prod.mk e.1))) = _
    rw [hentries]
    rfl

end Written

section Fields
variable {α β : Type} {fields : List (String × Option Json)} {name : String}

theorem field_at (hnames : (fields.map Prod.fst).Nodup) (i : ℕ) {v : Option Json}
    (h : fields[i]? = some (name, v)) : (record fields).field name = v :=
  field_record hnames (List.mem_of_getElem? h)

theorem text_at (hnames : (fields.map Prod.fst).Nodup) (i : ℕ) {s : String}
    (h : fields[i]? = some (name, some (.str s))) :
    required readText name (record fields) = some s := by
  rw [required, field_at hnames i h]
  rfl

theorem flag_at (hnames : (fields.map Prod.fst).Nodup) (i : ℕ) {b : Bool}
    (h : fields[i]? = some (name, some (.bool b))) :
    required readFlag name (record fields) = some b := by
  rw [required, field_at hnames i h]
  rfl

theorem int_at (hnames : (fields.map Prod.fst).Nodup) (i : ℕ) {n : Int}
    (h : fields[i]? = some (name, some (ofInt n))) :
    required readInt name (record fields) = some (Script.toDouble n) := by
  rw [required, field_at hnames i h]
  exact readInt_ofInt n

theorem map_at (hnames : (fields.map Prod.fst).Nodup) (i : ℕ) {m : GoMap String}
    (h : fields[i]? = some (name, some (ofGoMap .str m))) :
    required (readMap readText) name (record fields) = some (Script.parsedMap m) := by
  rw [required, field_at hnames i h]
  exact readMap_ofGoMap m

theorem list_at (hnames : (fields.map Prod.fst).Nodup) (i : ℕ) {g : α → Json} {xs : List α}
    (h : fields[i]? = some (name, some (ofList g xs))) {f : Json → Option β} {k : α → β}
    (hread : ∀ a, f (g a) = some (k a)) :
    required (readList f) name (record fields) = some (xs.map k) := by
  rw [required, field_at hnames i h]
  exact readList_ofList hread xs

theorem omitText_at (hnames : (fields.map Prod.fst).Nodup) (i : ℕ) {s : String}
    (h : fields[i]? = some (name, omitText s)) :
    optionally readText name (record fields) = some (optionalText s) := by
  rw [optionally, field_at hnames i h]
  unfold omitText optionalText
  split_ifs <;> rfl

theorem omitZero_at (hnames : (fields.map Prod.fst).Nodup) (i : ℕ) {n : Int}
    (h : fields[i]? = some (name, omitZero n)) :
    optionally readInt name (record fields) = some (optionalInt n) := by
  rw [optionally, field_at hnames i h]
  unfold omitZero optionalInt
  split_ifs
  · rfl
  · simp

theorem omitNone_at (hnames : (fields.map Prod.fst).Nodup) (i : ℕ) {g : α → Json} {x : Option α}
    (h : fields[i]? = some (name, omitNone g x)) {f : Json → Option β} {k : α → β}
    (hread : ∀ a, f (g a) = some (k a)) :
    optionally f name (record fields) = some (x.map k) := by
  rw [optionally, field_at hnames i h]
  cases x with
  | none => rfl
  | some a =>
    show (f (g a)).map some = _
    rw [hread]
    rfl

theorem omitNil_at (hnames : (fields.map Prod.fst).Nodup) (i : ℕ) {g : α → Json} {xs : List α}
    (h : fields[i]? = some (name, omitNil g xs)) {f : Json → Option β} {k : α → β}
    (hread : ∀ a, f (g a) = some (k a)) :
    optionally (readList f) name (record fields) = some (optionalList k xs) := by
  rw [optionally, field_at hnames i h]
  unfold omitNil optionalList
  split_ifs
  · rfl
  · show (readList f (ofList g xs)).map some = _
    rw [readList_ofList hread]
    rfl

theorem omitEmptyMap_at (hnames : (fields.map Prod.fst).Nodup) (i : ℕ) {m : GoMap String}
    (h : fields[i]? = some (name, omitEmptyMap .str m)) :
    readOptionalMap name (record fields) = some (optionalMap m) := by
  rw [readOptionalMap, optionally, field_at hnames i h]
  cases m with
  | none => rfl
  | some m =>
    have hmap : optionalMap (some m) =
        if (Script.sortedEntries m).isEmpty then none else some (Script.sortedEntries m) := by
      rw [optionalMap, Script.parsedMap, Option.map_some, Option.filter_some]
      cases (Script.sortedEntries m).isEmpty <;> rfl
    have hempty : (Script.sortedEntries m).isEmpty = true ↔ m.entries = [] := by
      rw [List.isEmpty_iff, ← List.length_eq_zero_iff, Script.sortedEntries,
        List.length_insertionSort, List.length_eq_zero_iff]
    rw [hmap]
    by_cases hnil : m.entries = []
    · rw [if_pos (hempty.mpr hnil), omitEmptyMap, if_pos (by exact hnil)]
      rfl
    · rw [if_neg (fun h => hnil (hempty.mp h)), omitEmptyMap, if_neg (by exact hnil)]
      show Option.map Option.join (Option.map some (readMap readText (ofGoMap .str (some m)))) = _
      rw [readMap_ofGoMap]
      rfl

end Fields

theorem readRequirement_document (r : ApiRequirement) :
    readRequirement (Requirement.document r) =
      some ⟨r.key, r.operator, optionalList id r.values⟩ := by
  have hnames := names_requirement r
  unfold readRequirement Requirement.document
  rw [text_at hnames 0 rfl, text_at hnames 1 rfl, omitNil_at (f := readText) hnames 2 rfl (fun _ => rfl)]
  rfl

theorem readSpread_document (s : ApiTopologySpread) :
    readSpread (TopologySpread.document s) =
      some ⟨s.topologyKey, Script.toDouble s.maxSkew, optionalText s.whenUnsatisfiable⟩ := by
  have hnames := names_spread s
  unfold readSpread TopologySpread.document
  rw [text_at hnames 0 rfl, int_at hnames 1 rfl, omitText_at hnames 2 rfl]
  rfl

theorem readSupply_document (ms : ApiMatchingSupply) :
    readSupply (MatchingSupply.document ms) =
      some ⟨Script.toDouble ms.idle, Script.toDouble ms.configured,
        Script.toDouble ms.speculative, ms.capped⟩ := by
  have hnames := names_supply ms
  unfold readSupply MatchingSupply.document
  rw [int_at hnames 0 rfl, int_at hnames 1 rfl, int_at hnames 2 rfl, flag_at hnames 3 rfl]
  rfl

theorem readPreemption_document (p : ApiPreemptionSummary) :
    readPreemption (PreemptionSummary.document p) =
      some ⟨Script.toDouble p.victimsFound, optionalMap p.capacityFreed⟩ := by
  have hnames := names_preemption p
  unfold readPreemption PreemptionSummary.document
  rw [int_at hnames 0 rfl, omitEmptyMap_at hnames 1 rfl]
  rfl

theorem readCoverage_document (c : ApiDomainCoverage) :
    readCoverage (DomainCoverage.document c) =
      some ⟨c.domain, Script.toDouble c.coveragePerMille, c.satisfiable⟩ := by
  have hnames := names_coverage c
  unfold readCoverage DomainCoverage.document
  rw [text_at hnames 0 rfl, int_at hnames 1 rfl, flag_at hnames 2 rfl]
  rfl

theorem readNeed_document (n : ApiNeedView) :
    readNeed (NeedView.document n) = some (receivedNeed n) := by
  have hnames := names_needView n
  unfold readNeed NeedView.document
  rw [text_at hnames 0 rfl, int_at hnames 1 rfl, map_at hnames 2 rfl, omitEmptyMap_at hnames 3 rfl,
    omitText_at hnames 4 rfl, omitNil_at hnames 5 rfl readRequirement_document,
    omitNil_at hnames 6 rfl readSpread_document, text_at hnames 7 rfl, text_at hnames 8 rfl,
    flag_at hnames 9 rfl, omitEmptyMap_at hnames 10 rfl, int_at hnames 11 rfl,
    int_at hnames 12 rfl, int_at hnames 13 rfl, omitText_at hnames 14 rfl, flag_at hnames 15 rfl,
    flag_at hnames 16 rfl, omitZero_at hnames 17 rfl, int_at hnames 18 rfl, text_at hnames 19 rfl,
    omitZero_at hnames 20 rfl, omitText_at hnames 21 rfl,
    omitNone_at hnames 22 rfl readSupply_document,
    omitNone_at hnames 23 rfl readPreemption_document,
    omitNil_at hnames 24 rfl readCoverage_document]
  rfl

theorem readNeeds_document (fmt : Formats) (instant : String → Int) (b : NeedsResponse) :
    readNeeds instant (NeedsResponse.document fmt b) =
      some { receivedNeeds b with queriedAt := instant (fmt.time b.queriedAt) } := by
  have hnames := names_needsResponse fmt b
  unfold readNeeds NeedsResponse.document
  rw [text_at hnames 0 rfl, int_at hnames 1 rfl, int_at hnames 2 rfl, int_at hnames 3 rfl,
    list_at hnames 4 rfl readNeed_document, text_at hnames 5 rfl]
  rfl

/-! ## The available-capacity page -/

section Values
variable (reading : Numeral → ℚ)

mutual
/-- The value of a document that repeats no name. -/
def valueOf : Json → Script.Value
  | .null => .null
  | .bool b => .bool b
  | .num n => .num (readNumber reading n)
  | .str s => .str s
  | .arr xs => .arr (valuesOf xs)
  | .obj fields => .obj (fieldsOf fields)

def valuesOf : List Json → List Script.Value
  | [] => []
  | x :: xs => valueOf x :: valuesOf xs

def fieldsOf : List (String × Json) → List (String × Script.Value)
  | [] => []
  | (k, v) :: fields => (k, valueOf v) :: fieldsOf fields
end

theorem valuesOf_eq_map (xs : List Json) : valuesOf reading xs = xs.map (valueOf reading) := by
  induction xs with
  | nil => rfl
  | cons x xs ih => rw [valuesOf, ih, List.map_cons]

theorem fieldsOf_eq_map (fields : List (String × Json)) :
    fieldsOf reading fields = fields.map (fun e => (e.1, valueOf reading e.2)) := by
  induction fields with
  | nil => rfl
  | cons e fields ih => rw [fieldsOf, ih, List.map_cons]

@[simp] theorem valueOf_str (s : String) : valueOf reading (.str s) = .str s := by rw [valueOf]

@[simp] theorem valueOf_ofInt (n : Int) : valueOf reading (ofInt n) = Script.ofInt n := by
  rw [ofInt, valueOf, readNumber, wholeNumber_ofInt]
  rfl

theorem valueOf_ofList {α : Type} {f : α → Json} {g : α → Script.Value}
    (h : ∀ a, valueOf reading (f a) = g a) (xs : List α) :
    valueOf reading (ofList f xs) = Script.ofSlice g (some xs) := by
  rw [ofList, valueOf, valuesOf_eq_map, List.map_map, Script.ofSlice]
  exact congrArg Script.Value.arr (List.map_congr_left fun a _ => h a)

theorem valueOf_ofGoMap (m : GoMap String) :
    valueOf reading (ofGoMap .str m) = Script.ofMap .str m := by
  cases m with
  | none => rw [ofGoMap, valueOf, Script.ofMap]
  | some m =>
    rw [ofGoMap, ofMap, ofEntries, valueOf, fieldsOf_eq_map, List.map_map, Script.ofMap]
    refine congrArg Script.Value.obj (List.map_congr_left fun e _ => ?_)
    rw [Function.comp_apply, valueOf_str]

/-- A field that is written is a field of the value. -/
def fieldValue (name : String) (v : Option Json) : List (String × Script.Value) :=
  (v.map (fun d => (name, valueOf reading d))).toList

theorem valueOf_record (fields : List (String × Option Json)) :
    valueOf reading (record fields) =
      .obj (fields.flatMap (fun e => fieldValue reading e.1 e.2)) := by
  rw [record, valueOf, fieldsOf_eq_map]
  congr 1
  induction fields with
  | nil => rfl
  | cons e fields ih =>
    obtain ⟨k, v⟩ := e
    cases v with
    | none => exact ih
    | some d => exact congrArg (List.cons (k, valueOf reading d)) ih

theorem fieldValue_some (name : String) (d : Json) :
    fieldValue reading name (some d) = [(name, valueOf reading d)] := rfl

theorem fieldValue_omitNone (name : String) (x : Option String) :
    fieldValue reading name (omitNone .str x) =
      Script.omitEmpty name x.isNone (.str (x.getD "")) := by
  cases x with
  | none => rfl
  | some s => simp [fieldValue, omitNone]

theorem fieldValue_omitNil (name : String) (xs : List String) :
    fieldValue reading name (omitNil .str xs) =
      Script.omitEmpty name xs.isEmpty (Script.ofSlice .str (some xs)) := by
  unfold omitNil
  cases hempty : xs.isEmpty with
  | true => rfl
  | false =>
    rw [Script.omitEmpty_false, ← valueOf_ofList reading (valueOf_str reading) xs]
    rfl

theorem fieldValue_omitEmptyMap (name : String) (m : GoMap String) :
    fieldValue reading name (omitEmptyMap .str m) =
      Script.omitEmpty name (m.map OrderedMap.entries |>.getD []).isEmpty
        (Script.ofMap .str m) := by
  unfold omitEmptyMap
  by_cases hnil : (m.map OrderedMap.entries).getD [] = []
  · rw [if_pos hnil, hnil]
    rfl
  · rw [if_neg hnil, List.isEmpty_eq_false_iff.mpr hnil, Script.omitEmpty_false, fieldValue_some,
      valueOf_ofGoMap]

theorem valueOf_item (it : AvailableCapacity) :
    valueOf reading (AvailableCapacityItem.document it) = it.toValue := by
  rw [AvailableCapacityItem.document, valueOf_record, AvailableCapacity.toValue]
  simp [fieldValue_some, fieldValue_omitEmptyMap, fieldValue_omitNil]

theorem valueOf_cluster (c : AvailableCapacityCluster) :
    valueOf reading (AvailableCapacityCluster.document c) = c.toValue := by
  have hitems : valueOf reading
      ((c.items.map (ofList AvailableCapacityItem.document)).getD .null) =
        Script.ofSlice AvailableCapacity.toValue c.items := by
    cases c.items with
    | none => rw [Option.map_none, Option.getD_none, valueOf, Script.ofSlice]
    | some items => exact valueOf_ofList reading (valueOf_item reading) items
  rw [AvailableCapacityCluster.document, valueOf_record, AvailableCapacityCluster.toValue]
  simp [fieldValue_some, fieldValue_omitNone, hitems]

theorem valueOf_availableCapacity (fmt : Formats) (b : AvailableCapacityResponse) :
    valueOf reading (AvailableCapacityResponse.document fmt b) = b.toValue fmt.time := by
  rw [AvailableCapacityResponse.document, valueOf_record, AvailableCapacityResponse.toValue,
    ← valueOf_ofList reading (valueOf_cluster reading) b.clusters]
  simp [fieldValue_some]

end Values

/-- The needs page and the available-capacity page start from what their handlers made. -/
theorem pages_receive (fmt : Formats) (reading : Numeral → ℚ) (statusText : ℕ → String)
    (instant : String → Int) (d : Dashboard) (r : Request) (clock : Clock) :
    (∀ b, needsHandler d.server r clock.later = .ok b → ∃ doc,
      getJSON reading statusText (respond fmt (d.handle r clock .needsHandler)) = .resolved doc ∧
      readNeeds instant doc =
        some { receivedNeeds b with queriedAt := instant (fmt.time b.queriedAt) }) ∧
    (∀ b, availableCapacityHandler d.server clock.later = .ok b → ∃ doc,
      getJSON reading statusText (respond fmt (d.handle r clock .availableCapacityHandler)) =
        .resolved doc ∧
      valueOf reading doc = b.toValue fmt.time) := by
  constructor
  · intro b hb
    rw [Dashboard.handle, hb]
    exact ⟨_, getJSON_writeJSON _, readNeeds_document fmt instant b⟩
  · intro b hb
    rw [Dashboard.handle, hb]
    exact ⟨_, getJSON_writeJSON _, valueOf_availableCapacity reading fmt b⟩

end BigfleetDashboard.Web
