import BigfleetDashboard.Documents

/-!
# From the handler to the page

A handler's answer goes out as one line of text. The page parses the text; from an answer
that is not a success it takes the message of the error, and shows the status line instead
if there is none. The page gets the document that the handler meant, or the handler's own
message.
-/
namespace BigfleetDashboard.Web
open Handlers JsonText

/-! ## The server's side -/

/-- What the encoder escapes so that a text can stand inside a page. -/
def htmlEscaped (c : Char) : Bool :=
  c = '<' || c = '>' || c = '&' || c.toNat = 8232 || c.toNat = 8233

structure HttpResponse where
  status : ℕ
  contentType : String
  body : List Char

def statusOK : ℕ := 200

/-- The encoder writes nothing if it fails, and the status is out by then. -/
def writeJSON (status : ℕ) (document : Option Json) : HttpResponse where
  status := status
  contentType := "application/json"
  body :=
    match document with
    | none => []
    | some d => encode htmlEscaped d ++ ['\n']

def writeError (status : ℕ) (message : String) : HttpResponse :=
  writeJSON status (some (ErrorResponse.document message))

/-- The time axis of an answer that was made from range queries. -/
def Body.timestamps : Body → List Int
  | .fleetActions b => b.timestamps
  | .shardTrends b => b.timestamps
  | _ => []

/-- The most bytes that `make` allocates; beyond it panics. -/
def maxAlloc : ℕ := 2 ^ 48

/-- A handler that panics closes the connection, also one whose axis of eight bytes a slot
cannot be allocated. -/
def respond (fmt : Formats) : Except Failure Body → Option HttpResponse
  | .ok body =>
    if maxAlloc < 8 * body.timestamps.length then none
    else some (writeJSON statusOK (body.document fmt))
  | .error (.response status message) => some (writeError status message)
  | .error (.panic _) => none

/-! ## The page's side -/

/-- How a promise is settled. -/
inductive Fetched
  | resolved (d : Json)
  | thrown (detail : Json)
  | syntaxError
  | networkError

/-- The integer that a numeral is written as. -/
def wholeNumber (n : Numeral) : Option Int :=
  match n.text with
  | '-' :: digits => if digits.all Char.isDigit then some (-Nat.ofDigitChars 10 digits 0) else none
  | digits => if digits.all Char.isDigit then some (Nat.ofDigitChars 10 digits 0) else none

/-- A numeral is read as a double; the reading of one that is no integer is a parameter. -/
def readNumber (reading : Numeral → ℚ) (n : Numeral) : ℚ :=
  match wholeNumber n with
  | some k => Script.toDouble k
  | none => reading n

/-- Whether a condition holds of a parsed value. -/
def truthy (reading : Numeral → ℚ) : Json → Bool
  | .null => false
  | .bool b => b
  | .num n => readNumber reading n ≠ 0
  | .str s => s ≠ ""
  | .arr _ => true
  | .obj _ => true

/-- The message of a failed answer; a body that is not a document of an object has none. -/
def errorDetail (reading : Numeral → ℚ) (statusText : ℕ → String) (res : HttpResponse) : Json :=
  let line := Json.str (toString res.status ++ " " ++ statusText res.status)
  match (parse res.body).bind (Json.field "error") with
  | none => line
  | some message => if truthy reading message then message else line

/-- `getJSON`. -/
def getJSON (reading : Numeral → ℚ) (statusText : ℕ → String) : Option HttpResponse → Fetched
  | none => .networkError
  | some res =>
    if 200 ≤ res.status ∧ res.status ≤ 299 then
      match parse res.body with
      | none => .syntaxError
      | some d => .resolved d
    else .thrown (errorDetail reading statusText res)

/-! ## What arrives -/

theorem written_ascii :
    (List.range 128).all (fun n => !frameChar (Char.ofNat n) ||
      (!(n < 32 : Bool) && !htmlEscaped (Char.ofNat n))) = true := by rfl

theorem ascii_frameMarks : "\"\\,:[]\x7b\x7d+-.".toList.all (fun c => c.toNat < 128) = true := by rfl

theorem frame_htmlEscaped : Frame htmlEscaped := by
  intro c hc
  have hascii : c.toNat < 128 := by
    rw [frameChar, Bool.or_eq_true] at hc
    rcases hc with h | h
    · exact toNat_lt_of_isAlphanum h
    · exact of_decide_eq_true
        (List.all_eq_true.mp ascii_frameMarks c (List.contains_iff_mem.mp h))
  have hw := List.all_eq_true.mp written_ascii c.toNat (List.mem_range.mpr hascii)
  rw [Char.ofNat_toNat, hc] at hw
  simp only [Bool.not_true, Bool.false_or, Bool.and_eq_true, Bool.not_eq_true',
    decide_eq_false_iff_not] at hw
  rintro (hcontrol | ⟨hescaped, -⟩)
  · exact hw.1 hcontrol
  · exact Bool.false_ne_true (hw.2.symm.trans hescaped)

section Arrival
variable {reading : Numeral → ℚ} {statusText : ℕ → String}

theorem parse_written (d : Json) : parse (encode htmlEscaped d ++ ['\n']) = some d :=
  parse_encode d rfl

theorem getJSON_writeJSON (d : Json) :
    getJSON reading statusText (some (writeJSON statusOK (some d))) = .resolved d := by
  show (match parse (encode htmlEscaped d ++ ['\n']) with
    | none => Fetched.syntaxError
    | some d => .resolved d) = _
  rw [parse_written]

theorem field_error (message : String) :
    (ErrorResponse.document message).field "error" = some (.str message) :=
  field_record (by simp) List.mem_cons_self

theorem getJSON_writeError {status : ℕ} (hstatus : 299 < status) {message : String}
    (hmessage : message ≠ "") :
    getJSON reading statusText (some (writeError status message)) = .thrown (.str message) := by
  have hdetail : errorDetail reading statusText (writeError status message) = .str message := by
    show (match (parse (encode htmlEscaped (ErrorResponse.document message) ++ ['\n'])).bind
        (Json.field "error") with
      | none => Json.str _
      | some detail => if truthy reading detail then detail else Json.str _) = _
    rw [parse_written, Option.bind_some, field_error]
    exact if_pos (decide_eq_true hmessage)
  have hfailed : ¬ (200 ≤ (writeError status message).status ∧
      (writeError status message).status ≤ 299) := by
    rintro ⟨-, hle⟩
    exact absurd hle (by show ¬ status ≤ 299; omega)
  rw [getJSON, if_neg hfailed, hdetail]

end Arrival

/-- A failure with a status of its own and something to say. -/
def Spoken (e : Failure) : Prop :=
  ∃ status message, e = .response status message ∧ 299 < status ∧ message ≠ ""

theorem Reported.spoken {e : Failure} (h : Reported e) : Spoken e := by
  cases h with
  | badRequest h => exact ⟨_, _, rfl, by decide, h⟩
  | notFound h => exact ⟨_, _, rfl, by decide, h⟩
  | badGateway h => exact ⟨_, _, rfl, by decide, h⟩
  | noLeader context =>
    refine ⟨_, _, rfl, by decide, ?_⟩
    intro hempty
    exact absurd (String.append_eq_empty_iff.mp hempty).2 (by decide)

theorem Source.spoken_notConfigured (src : Source) : Spoken src.notConfigured := by
  cases src <;> exact ⟨_, _, rfl, by decide, by decide⟩

theorem Dashboard.failsWith_spoken (d : Dashboard) (r : Request) (clock : Clock) (h : Handler) :
    FailsWith Spoken (d.handle r clock h) := by
  intro e he
  by_cases hhas : ∀ src, h.source = some src → d.has src = true
  · exact (d.failsWith_handle hhas r clock e he).spoken
  · push Not at hhas
    obtain ⟨src, hsrc, hmissing⟩ := hhas
    rw [d.handle_of_missing hsrc (Bool.not_eq_true _ ▸ hmissing) r clock] at he
    obtain rfl := Except.error.inj he
    exact src.spoken_notConfigured

/-! ## Range queries that are answered -/

/-- Prometheus refuses a range query of more than 11,000 steps; it reads the two times to the
millisecond. -/
def LimitsPoints (c : PromClient.Client) : Prop :=
  ∀ q (rng : PromClient.Range) v, c.queryRange q rng = .ok v →
    rng.stop - rng.start < 11001 * rng.step + 2 * Go.millisecond

section Ranges
variable {c : PromClient.Client} {q label : String} {timestamps : List Int}
  {rows : OrderedMap String (List ExtRat)}

theorem queryRange_of_byLabel {rng : PromClient.Range}
    (h : PromClient.queryRangeByLabel c q label rng = .ok (timestamps, rows)) :
    ∃ v, c.queryRange q rng = .ok v := by
  unfold PromClient.queryRangeByLabel at h
  split at h
  next => cases h
  next mat hmat => exact ⟨_, hmat⟩
  next v _ hv => exact ⟨v, hv⟩

/-- The axis of a range query that is answered is short. -/
theorem length_timestamps_le (hlimit : LimitsPoints c) {rt : Go.Runtime} {r : Request} {now : Int}
    (h : PromClient.queryRangeByLabel c q label (seriesRange rt r now) = .ok (timestamps, rows)) :
    timestamps.length ≤ 2 ^ 21 := by
  obtain ⟨v, hv⟩ := queryRange_of_byLabel h
  have hspan := hlimit q _ v hv
  have hstep : 0 < (seriesRange rt r now).step := (seriesRange_valid rt r now).1.step_pos
  rw [Go.millisecond] at hspan
  have hlast : (seriesRange rt r now).last < 2 ^ 21 := by
    rw [PromClient.Range.last, Int.ediv_lt_iff_lt_mul hstep]
    omega
  rw [timestamps_eq_axis h, PromClient.axis, List.length_map, List.length_range]
  omega

end Ranges

theorem Dashboard.allocated {d : Dashboard} (hlimit : LimitsPoints d.server.prom) {r : Request}
    {clock : Clock} {h : Handler} {body : Body} (hbody : d.handle r clock h = .ok body) :
    body.timestamps.length ≤ 2 ^ 21 := by
  cases h <;> rw [handle] at hbody
  case fleetActionsHandler =>
    obtain ⟨b, hb, rfl⟩ := exists_of_map_eq_ok hbody
    simp only [fleetActionsHandler, bind_eq_ok_iff, orBadGatewayRange_eq_ok_iff] at hb
    obtain ⟨-, -, ⟨timestamps, series⟩, hseries, hb⟩ := hb
    obtain rfl := Except.ok.inj hb
    exact length_timestamps_le hlimit hseries
  case shardTrendsHandler =>
    obtain ⟨b, hb, rfl⟩ := exists_of_map_eq_ok hbody
    simp only [shardTrendsHandler, bind_eq_ok_iff, orBadGatewayRange_eq_ok_iff] at hb
    obtain ⟨-, -, pod, -, ⟨timestamps, cycleByPod⟩, hcycle, ⟨_, actionRates⟩, -, hb⟩ := hb
    obtain rfl := Except.ok.inj hb
    exact length_timestamps_le hlimit hcycle
  case healthHandler =>
    obtain rfl := Except.ok.inj hbody
    exact Nat.zero_le _
  case configHandler =>
    obtain rfl := Except.ok.inj hbody
    exact Nat.zero_le _
  all_goals
    obtain ⟨b, -, rfl⟩ := exists_of_map_eq_ok hbody
    exact Nat.zero_le _

theorem respond_of_short (fmt : Formats) {body : Body} (h : body.timestamps.length ≤ 2 ^ 21) :
    respond fmt (.ok body) = some (writeJSON statusOK (body.document fmt)) := by
  rw [respond, maxAlloc, if_neg (by omega)]

/-- What the page gets from a handler's result. -/
structure Delivered (fmt : Formats) (reading : Numeral → ℚ) (statusText : ℕ → String)
    (x : Except Failure Body) : Prop where
  document : ∀ body, x = .ok body → ∃ d, body.document fmt = some d ∧ Distinct d ∧
    getJSON reading statusText (respond fmt x) = .resolved d
  message : ∀ e, x = .error e → ∃ status message, e = .response status message ∧
    message ≠ "" ∧ getJSON reading statusText (respond fmt x) = .thrown (.str message)
  oneLine : ∃ res line, respond fmt x = some res ∧ res.body = line ++ ['\n'] ∧
    ∀ c ∈ line, 32 ≤ c.toNat ∧ htmlEscaped c = false

theorem written_htmlEscaped {c : Char} (h : Written htmlEscaped c) :
    32 ≤ c.toNat ∧ htmlEscaped c = false := by
  obtain ⟨hcontrol, hescaped⟩ := not_or.mp h
  refine ⟨Nat.le_of_not_lt hcontrol, ?_⟩
  by_contra hc
  have hc := Bool.eq_true_of_not_eq_false hc
  refine hescaped ⟨hc, ?_⟩
  simp only [htmlEscaped, Bool.or_eq_true, decide_eq_true_eq] at hc
  rcases hc with (((rfl | rfl) | rfl) | h) | h
  · decide
  · decide
  · decide
  · omega
  · omega

/-- The page gets the document of a handler's answer, or the message of its failure, and
nothing else, if Prometheus keeps its limit on the points of a series. -/
theorem handle_delivered (fmt : Formats) (reading : Numeral → ℚ) (statusText : ℕ → String)
    {d : Dashboard} (hlimit : LimitsPoints d.server.prom) (r : Request) (clock : Clock)
    (h : Handler) : Delivered fmt reading statusText (d.handle r clock h) := by
  have hline : ∀ doc, ∀ c ∈ encode htmlEscaped doc, 32 ≤ c.toNat ∧ htmlEscaped c = false :=
    fun doc c hc => written_htmlEscaped (written_encode frame_htmlEscaped doc c hc)
  cases hx : d.handle r clock h with
  | ok body =>
    obtain ⟨doc, hdoc, hdistinct⟩ := d.documented_handle fmt hx
    have hres : respond fmt (.ok body) = some (writeJSON statusOK (some doc)) := by
      rw [respond_of_short fmt (d.allocated hlimit hx), hdoc]
    constructor
    case document =>
      intro body' hbody
      obtain rfl := Except.ok.inj hbody
      exact ⟨doc, hdoc, hdistinct, by rw [hres, getJSON_writeJSON]⟩
    case message =>
      intro e he
      cases he
    case oneLine => exact ⟨_, _, hres, rfl, hline doc⟩
  | error e =>
    obtain ⟨status, message, rfl, hstatus, hmessage⟩ := d.failsWith_spoken r clock h e hx
    constructor
    case document =>
      intro body hbody
      cases hbody
    case message =>
      intro e' he
      obtain rfl := Except.error.inj he
      exact ⟨status, message, rfl, hmessage, getJSON_writeError hstatus hmessage⟩
    case oneLine => exact ⟨_, _, rfl, rfl, hline _⟩

/-- Every number and every time is written alike. -/
def plainFormats : Formats where
  float _ := Numeral.ofInt 0
  time _ := ""

/-- A Prometheus without series that keeps the limit. -/
def limitedApi : PromClient.Api where
  query _ _ := .ok (.vector [])
  queryRange _ rng :=
    if rng.stop - rng.start < 11001 * rng.step then .ok (.matrix [])
    else .error "exceeded maximum resolution of 11,000 points per timeseries"

/-- A dashboard of this Prometheus. -/
def limitedDashboard : Dashboard where
  cfg := ⟨":8080", "http://prometheus:9090", "", "", ""⟩
  server := { Server.unwired with prom := ⟨some limitedApi⟩ }
  counts := ⟨false, [], fun _ => .ok none, fun _ => .ok none⟩
  one_client := ⟨rfl, rfl⟩

theorem limitsPoints_limitedDashboard : LimitsPoints limitedDashboard.server.prom := by
  intro q rng v h
  change (if rng.stop - rng.start < 11001 * rng.step then Except.ok (PromClient.Value.matrix [])
    else .error _) = Except.ok v at h
  split_ifs at h with hspan
  exact lt_of_lt_of_le hspan (Int.le_add_of_nonneg_right (by decide))

theorem handle_delivered_actions :
    Delivered plainFormats (fun _ => 0) (fun _ => "") (limitedDashboard.handle
      ⟨fun _ => "", fun _ => ""⟩ ⟨0, 0⟩ .fleetActionsHandler) :=
  handle_delivered plainFormats (fun _ => 0) (fun _ => "") limitsPoints_limitedDashboard
    ⟨fun _ => "", fun _ => ""⟩ ⟨0, 0⟩ .fleetActionsHandler

end BigfleetDashboard.Web
