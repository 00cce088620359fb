import SplitBill.Js.Double
import SplitBill.Js.Map
import SplitBill.Js.Number
import SplitBill.Metrics.Series

/-!
# The metrics registry

`MetricsRegistry` of `src/metrics/registry.ts`. A definition is stored only if its name and its
labels are valid, which it carries along. The observations of a histogram are counted once each, at
the first bucket that holds them, and `renderPrometheus` adds the counts up. A count is a natural
number that is rounded as a number is.
-/

namespace SplitBill.Metrics

open Js

/-! ## Definitions -/

/-- `CounterDefinition`. -/
structure CounterDefinition where
  name : Str
  help : Str
  labelKeys : Option (List Str) := none

/-- `HistogramDefinition`. -/
structure HistogramDefinition where
  name : Str
  help : Str
  labelKeys : Option (List Str) := none
  buckets : Option (List Double) := none

/-- What a definition is of. A histogram that is stored has a bucket. -/
inductive MetricKind
  | counter
  | histogram (buckets : List Double) (nonempty : buckets ≠ [])
  deriving DecidableEq

/-- A definition as it is stored. -/
structure MetricDefinition where
  kind : MetricKind
  name : Str
  help : Str
  labelKeys : List Str
  name_valid : isMetricName name = true
  keys_valid : ∀ key ∈ labelKeys, isMetricName key = true
  deriving DecidableEq

/-- `DEFAULT_BUCKETS`. -/
def defaultBuckets (lib : Arithmetic) : List Double :=
  [5 / 1000, 1 / 100, 25 / 1000, 5 / 100, 1 / 10, 25 / 100, 5 / 10, 1, 25 / 10, 5, 10].map lib.literal

/-- There are default buckets. -/
theorem defaultBuckets_ne_nil (lib : Arithmetic) : defaultBuckets lib ≠ [] :=
  List.cons_ne_nil _ _

/-- `HistogramSeries`. -/
structure HistogramSeries where
  /-- How many observations have landed in each bucket. -/
  counts : List ℕ
  count : ℕ
  sum : Double

/-- `counts[i] = (counts[i] ?? 0) + 1`. -/
def countAt : List ℕ → ℕ → List ℕ
  | [], 0 => [1]
  | [], i + 1 => 0 :: countAt [] i
  | c :: cs, 0 => roundNat (c + 1) :: cs
  | c :: cs, i + 1 => c :: countAt cs i

/-- The body of `observe`, for the series of the observation. -/
def HistogramSeries.observe (lib : Arithmetic) (buckets : List Double) (value : Double)
    (current : HistogramSeries) : HistogramSeries where
  counts :=
    match buckets.findIdx? (value.le ·) with
    | some i => countAt current.counts i
    | none => current.counts
  count := roundNat (current.count + 1)
  sum := lib.add current.sum value

/-- A series without observations. -/
def HistogramSeries.new (buckets : List Double) : HistogramSeries :=
  ⟨buckets.map fun _ => 0, 0, .finite 0⟩

/-- The values that `observe` records. -/
def isRecorded (value : Double) : Bool := value.isFinite && !value.lt (.finite 0)

/-- `MetricsRegistry`. -/
structure Registry where
  defs : Map Str MetricDefinition := .empty
  counters : Map Str (Map Str Double) := .empty
  histograms : Map Str (Map Str HistogramSeries) := .empty

namespace Registry

/-- `isValidDefinition`. -/
def isValidDefinition (name : Str) (labelKeys : Option (List Str)) : Bool :=
  isMetricName name && (labelKeys.getD []).all isMetricName

/-- The definition that is stored under its name, if it is valid. -/
def define (r : Registry) (kind : MetricKind) (name help : Str) (labelKeys : Option (List Str)) :
    Registry :=
  if h : isValidDefinition name labelKeys = true then
    let d : MetricDefinition :=
      { kind, name, help, labelKeys := labelKeys.getD []
        name_valid := (Bool.and_eq_true_iff.mp h).1
        keys_valid := List.all_eq_true.mp (Bool.and_eq_true_iff.mp h).2 }
    { r with defs := r.defs.set name d }
  else r

/-- `defineCounter`. -/
def defineCounter (r : Registry) (d : CounterDefinition) : Registry :=
  r.define .counter d.name d.help d.labelKeys

/-- `defineHistogram`. -/
def defineHistogram (lib : Arithmetic) (r : Registry) (d : HistogramDefinition) : Registry :=
  let kind : MetricKind :=
    match d.buckets with
    | some buckets =>
      if h : 0 < buckets.length then .histogram buckets (List.ne_nil_of_length_pos h)
      else .histogram (defaultBuckets lib) (defaultBuckets_ne_nil lib)
    | none => .histogram (defaultBuckets lib) (defaultBuckets_ne_nil lib)
  r.define kind d.name d.help d.labelKeys

/-! ## Recording -/

/-- `increment`. -/
def increment (lib : Arithmetic) (r : Registry) (name : Str) (labels : Labels) (by' : Double) :
    Registry :=
  match r.defs.get? name with
  | none => r
  | some d =>
    if d.kind = .counter ∧ (Double.finite 0).lt by' = true then
      let keys := seriesKey d.labelKeys labels
      let series := (r.counters.get? name).getD .empty
      let series := series.set keys (lib.add ((series.get? keys).getD (.finite 0)) by')
      { r with counters := r.counters.set name series }
    else r

/-- `observe` behind its checks. -/
def record (lib : Arithmetic) (r : Registry) (name keys : Str) (buckets : List Double)
    (value : Double) : Registry :=
  let series := (r.histograms.get? name).getD .empty
  let current := (series.get? keys).getD (.new buckets)
  { r with
    histograms := r.histograms.set name (series.set keys (current.observe lib buckets value)) }

/-- `observe`. -/
def observe (lib : Arithmetic) (r : Registry) (name : Str) (value : Double) (labels : Labels) :
    Registry :=
  match r.defs.get? name with
  | none => r
  | some d =>
    match d.kind with
    | .counter => r
    | .histogram buckets _ =>
      if isRecorded value = true then
        r.record lib name (seriesKey d.labelKeys labels) buckets value
      else r

/-- `reset`. -/
def reset (r : Registry) : Registry := { r with counters := .empty, histograms := .empty }

/-! ## Reading and rendering -/

/-- `counterValue`. -/
def counterValue (r : Registry) (name : Str) (labels : Labels) : Double :=
  match r.defs.get? name with
  | none => .finite 0
  | some d =>
    if d.kind = .counter then
      (((r.counters.get? name).bind (·.get? (seriesKey d.labelKeys labels)))).getD (.finite 0)
    else .finite 0

/-- `formatValue`. -/
def formatValue (lib : Arithmetic) (value : Double) : Str :=
  if value.isInteger then lib.toString value else lib.toString (lib.toFixed6 value)

/-- The lines of the buckets from the place `i` on, after `cumulative` observations. -/
def bucketLines (lib : Arithmetic) (name keys : Str) (counts : List ℕ) :
    ℕ → ℕ → List Double → List Str
  | _, _, [] => []
  | i, cumulative, bucket :: buckets =>
    let cumulative := roundNat (cumulative + counts.getD i 0)
    let le := escapeLabelValue (lib.toString bucket)
    let labels :=
      if keys ≠ [] then keys.dropLast ++ str ",le=\"" ++ le ++ str "\""
      else str "\x7ble=\"" ++ le ++ str "\"\x7d"
    (name ++ str "_bucket" ++ labels ++ str " " ++ formatValue lib (.finite cumulative)) ::
      bucketLines lib name keys counts (i + 1) cumulative buckets

/-- The lines of a series of a histogram. -/
def seriesLines (lib : Arithmetic) (name : Str) (buckets : List Double) (keys : Str)
    (entry : HistogramSeries) : List Str :=
  bucketLines lib name keys entry.counts 0 0 buckets ++
    [name ++ str "_bucket" ++
        (if keys ≠ [] then keys.dropLast ++ str ",le=\"+Inf\"\x7d" else str "\x7ble=\"+Inf\"\x7d") ++
        str " " ++ formatValue lib (.finite entry.count),
      name ++ str "_sum" ++ keys ++ str " " ++ formatValue lib entry.sum,
      name ++ str "_count" ++ keys ++ str " " ++ formatValue lib (.finite entry.count)]

/-- The lines of a metric behind its `HELP` and its `TYPE`. -/
def sampleLines (lib : Arithmetic) (r : Registry) (d : MetricDefinition) : List Str :=
  match d.kind with
  | .counter =>
    match r.counters.get? d.name with
    | none => []
    | some series => series.entries.map fun e => d.name ++ e.1 ++ str " " ++ formatValue lib e.2
  | .histogram buckets _ =>
    match r.histograms.get? d.name with
    | none => []
    | some series => series.entries.flatMap fun e => seriesLines lib d.name buckets e.1 e.2

/-- The type that is written for a metric. -/
def typeText : MetricKind → Str
  | .counter => str "counter"
  | .histogram _ _ => str "histogram"

/-- `renderPrometheus`. -/
def renderPrometheus (lib : Arithmetic) (r : Registry) : Str :=
  let lines := r.defs.values.flatMap fun d =>
    [str "# HELP " ++ d.name ++ str " " ++ d.help,
      str "# TYPE " ++ d.name ++ str " " ++ typeText d.kind] ++ sampleLines lib r d
  join [newline] lines ++ [newline]

end Registry

end SplitBill.Metrics
