import BigfleetDashboard.GoRuntime

/-!
# The Prometheus client

Package `promclient`: four query helpers over the results of the Prometheus HTTP
API. Each helper treats a non-finite sample in its own way, because JSON cannot
carry it: `queryScalar` maps it to 0, `queryVector` and `queryByLabel` drop it,
`queryRangeByLabel` leaves the slot at 0. Contexts and deadlines are part of the
API's answer, which is an error when one of them fires.
-/
namespace BigfleetDashboard.PromClient
open Go

/-! ## Query results -/

/-- A label set. Labels without a value are not stored. -/
abbrev Metric := OrderedMap String String

/-- A sample of a range query, stamped in milliseconds since the Unix epoch. -/
structure SamplePair where
  timestamp : Int
  value : ExtRat
  deriving DecidableEq

def SamplePair.time (sp : SamplePair) : Int := ofUnixMilli sp.timestamp

structure Sample where
  metric : Metric
  value : ExtRat
  deriving DecidableEq

structure SampleStream where
  metric : Metric
  values : List SamplePair
  deriving DecidableEq

inductive Value
  | scalar (value : ExtRat)
  | vector (samples : List Sample)
  | matrix (series : List SampleStream)
  | string (text : String)

/-- The dynamic type of a result, as `%T` prints it. -/
def Value.typeName : Value → String
  | .scalar _ => "*model.Scalar"
  | .vector _ => "model.Vector"
  | .matrix _ => "model.Matrix"
  | .string _ => "*model.String"

/-- Evaluation range of a range query, in nanoseconds. -/
structure Range where
  start : Int
  stop : Int
  step : Int
  deriving DecidableEq

/-- The HTTP API: what Prometheus answers to a query text. -/
structure Api where
  query : String → Int → Except String Value
  queryRange : String → Range → Except String Value

/-- A client built without a base URL has no API. -/
structure Client where
  api : Option Api

def errNotConfigured : String := "prometheus client not configured: pass --prometheus-url"

def Client.configured (c : Client) : Bool := c.api.isSome

def Client.query (c : Client) (q : String) (t : Int) : Except String Value :=
  match c.api with
  | none => .error errNotConfigured
  | some api => api.query q t

def Client.queryRange (c : Client) (q : String) (r : Range) : Except String Value :=
  match c.api with
  | none => .error errNotConfigured
  | some api => api.queryRange q r

/-! ## Instant queries -/

/-- NaN and the infinities become 0. -/
def jsonSafe (f : ExtRat) : ExtRat := if f.isNaN || f.isInf then 0 else f

def queryScalar (c : Client) (q : String) (t : Int) : Except String ExtRat :=
  match c.query q t with
  | .error err => .error err
  | .ok (.scalar v) => .ok (jsonSafe v)
  | .ok (.vector []) => .ok 0
  | .ok (.vector (s :: _)) => .ok (jsonSafe s.value)
  | .ok v => .error ("promclient: unexpected scalar result type " ++ v.typeName)

structure LabelledSample where
  labels : OrderedMap String String
  value : ExtRat
  deriving DecidableEq

/-- The loop body of `queryVector`. -/
def appendSample (out : List LabelledSample) (s : Sample) : List LabelledSample :=
  if s.value.isNaN || s.value.isInf then out
  else
    let labels := s.metric.entries.foldl (fun m e => m.set e.1 e.2) OrderedMap.empty
    out ++ [⟨labels, s.value⟩]

/-- A sample with its metric copied into a plain map. -/
def toLabelled (s : Sample) : LabelledSample :=
  ⟨s.metric.entries.foldl (fun m e => m.set e.1 e.2) OrderedMap.empty, s.value⟩

/-- The copy has the labels of the metric. -/
theorem get?_toLabelled (s : Sample) (label : String) :
    (toLabelled s).labels.get? label = s.metric.get? label := by
  have hstore : (fun (m : OrderedMap String String) (e : String × String) => m.set e.1 e.2) =
      OrderedMap.store (fun e => some e.1) Prod.snd := rfl
  have hkey : s.metric.entries.filter (fun e => some e.1 = some label) =
      s.metric.entries.filter (fun e => e.1 = label) := by simp
  rw [toLabelled, hstore, OrderedMap.get?_foldl_store, hkey, OrderedMap.filter_entries_key]
  cases s.metric.get? label <;> simp

/-- The loop keeps the finite samples, in order. -/
theorem foldl_appendSample (out : List LabelledSample) (vec : List Sample) :
    vec.foldl appendSample out = out ++ (vec.filter (fun s => s.value.IsFinite)).map toLabelled := by
  induction vec generalizing out with
  | nil => simp
  | cons s vec ih =>
    rw [List.foldl_cons, ih]
    by_cases hfin : s.value.IsFinite
    · have hval : (s.value.isNaN || s.value.isInf) = false := by
        simpa [ExtRat.isFinite_iff] using hfin
      simp [appendSample, hval, hfin, toLabelled]
    · have hval := (ExtRat.not_isFinite_iff _).mp hfin
      simp [appendSample, hval, hfin]

def queryVector (c : Client) (q : String) (t : Int) : Except String (List LabelledSample) :=
  match c.query q t with
  | .error err => .error err
  | .ok (.vector vec) => .ok (vec.foldl appendSample [])
  | .ok v => .error ("promclient: expected vector result, got " ++ v.typeName)

/-- The loop body of `queryByLabel`: a sample without the label is dropped, and a
later sample of the same label value replaces an earlier one. -/
def storeByLabel (label : String) (out : OrderedMap String ExtRat) (s : Sample) :
    OrderedMap String ExtRat :=
  match s.metric.get? label with
  | none => out
  | some k => if s.value.isNaN || s.value.isInf then out else out.set k s.value

theorem storeByLabel_eq_store (label : String) :
    storeByLabel label = OrderedMap.store
      (fun s => if s.value.isNaN || s.value.isInf then none else s.metric.get? label)
      Sample.value := by
  funext out s
  simp only [storeByLabel, OrderedMap.store]
  cases s.metric.get? label with
  | none => simp
  | some k => split_ifs <;> rfl

def queryByLabel (c : Client) (q label : String) (t : Int) :
    Except String (OrderedMap String ExtRat) :=
  match c.query q t with
  | .error err => .error err
  | .ok (.vector vec) => .ok (vec.foldl (storeByLabel label) OrderedMap.empty)
  | .ok v => .error ("promclient: expected vector result, got " ++ v.typeName)

/-! What the helpers return for a vector. -/

theorem queryByLabel_vector {api : Api} {q : String} {t : Int} {vec : List Sample}
    (h : api.query q t = .ok (.vector vec)) (label : String) :
    queryByLabel ⟨some api⟩ q label t = .ok (vec.foldl (storeByLabel label) OrderedMap.empty) := by
  simp only [queryByLabel, Client.query, h]

theorem queryVector_vector {api : Api} {q : String} {t : Int} {vec : List Sample}
    (h : api.query q t = .ok (.vector vec)) :
    queryVector ⟨some api⟩ q t =
      .ok ((vec.filter (fun s => s.value.IsFinite)).map toLabelled) := by
  simp only [queryVector, Client.query, h, foldl_appendSample, List.nil_append]

theorem queryScalar_vector {api : Api} {q : String} {t : Int} {vec : List Sample}
    (h : api.query q t = .ok (.vector vec)) : ∃ v, queryScalar ⟨some api⟩ q t = .ok v := by
  cases vec with
  | nil => exact ⟨0, by simp only [queryScalar, Client.query, h]⟩
  | cons s vec => exact ⟨jsonSafe s.value, by simp only [queryScalar, Client.query, h]⟩

/-! ## Range queries -/

/-- The guards of the inner loop: the slot a sample is stored in, unless the loop
continues with the next sample. -/
def slotOf (r : Range) (steps : Int) (sp : SamplePair) : Option ℕ :=
  let idx := (sub sp.time r.start).tdiv r.step
  if idx < 0 ∨ idx ≥ steps then none
  else if sp.value.isNaN || sp.value.isInf then none
  else some idx.toNat

/-- The inner loop body of `queryRangeByLabel`. -/
def storeSample (r : Range) (steps : Int) (row : List ExtRat) (sp : SamplePair) : List ExtRat :=
  match slotOf r steps sp with
  | some idx => row.set idx sp.value
  | none => row

/-- One series' row: zero-filled, missing samples stay 0. -/
def fillRow (r : Range) (steps : Int) (values : List SamplePair) : List ExtRat :=
  values.foldl (storeSample r steps) (List.replicate steps.toNat 0)

/-- The outer loop body of `queryRangeByLabel`. -/
def storeSeries (label : String) (r : Range) (steps : Int)
    (out : OrderedMap String (List ExtRat)) (series : SampleStream) :
    OrderedMap String (List ExtRat) :=
  match series.metric.get? label with
  | none => out
  | some k => out.set k (fillRow r steps series.values)

theorem storeSeries_eq_store (label : String) (r : Range) (steps : Int) :
    storeSeries label r steps = OrderedMap.store (fun s => s.metric.get? label)
      (fun s => fillRow r steps s.values) := by
  funext out series
  simp only [storeSeries, OrderedMap.store]
  cases series.metric.get? label <;> rfl

/-- The number of slots, in 64-bit arithmetic. -/
def rangeSteps (r : Range) : Int := wrapInt64 ((sub r.stop r.start).tdiv r.step + 1)

/-- The shared time axis in Unix seconds, and one row of samples per label value.
A zero step divides by zero and a wrapped step count cannot be allocated. -/
def queryRangeByLabel (c : Client) (q label : String) (r : Range) :
    Except Abort (List Int × OrderedMap String (List ExtRat)) :=
  match c.queryRange q r with
  | .error err => .error (.error err)
  | .ok (.matrix mat) =>
    if r.step = 0 then .error (.panic "runtime error: integer divide by zero")
    else
      let steps := rangeSteps r
      if steps < 0 then .error (.panic "runtime error: makeslice: len out of range")
      else
        let timestamps := (List.range steps.toNat).map
          (fun (i : ℕ) => unix (r.start + wrapInt64 (i * r.step)))
        .ok (timestamps, mat.foldl (storeSeries label r steps) OrderedMap.empty)
  | .ok v => .error (.error ("promclient: expected matrix result, got " ++ v.typeName))

end BigfleetDashboard.PromClient
