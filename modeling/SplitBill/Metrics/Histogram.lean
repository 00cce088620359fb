import SplitBill.Cumulative
import SplitBill.Metrics.Registry

/-!
# What a histogram exposes

A run of `observe` calls, and the lines that `renderPrometheus` writes for one histogram. What is
wanted of the lines is said through `readSample`: for each set of labels they read as its counts,
its sum and its number of observations. The counts are right, but a bucket's line of a series with
labels lacks the brace that closes them, so it cannot be read.
-/

namespace SplitBill.Metrics

open Js

/-- A call of `observe`. -/
structure Observation where
  name : Str
  value : Double
  labels : Labels

/-- The calls one after another. -/
def observeAll (lib : Arithmetic) (r : Registry) (os : List Observation) : Registry :=
  os.foldl (fun r o => r.observe lib o.name o.value o.labels) r

/-- The observations of a metric that are recorded. -/
def recorded (name : Str) (os : List Observation) : List Observation :=
  os.filter fun o => o.name = name ∧ isRecorded o.value = true

/-- The values of a series. -/
def valuesOf (d : MetricDefinition) (os : List Observation) (keys : Str) : List Double :=
  ((recorded d.name os).filter fun o => seriesKey d.labelKeys o.labels = keys).map (·.value)

/-! ## What is stored -/

/-- An entry holds the counts of some values. -/
structure Tallies (buckets : List Double) (vs : List Double) (entry : HistogramSeries) : Prop where
  counts : ∀ i, entry.counts.getD i 0 = Cumulative.landing Double.le buckets vs i
  count : entry.count = vs.length

section

variable {lib : Arithmetic} {buckets vs : List Double} {v : Double} {entry : HistogramSeries}

/-- Below 2^53 a double counts exactly. -/
theorem roundNat_of_lt {n : ℕ} (h : n < 2 ^ 53) : roundNat n = n := if_pos h

/-- One count goes up. -/
theorem getD_countAt (cs : List ℕ) (i j : ℕ) :
    (countAt cs i).getD j 0 = if i = j then roundNat (cs.getD i 0 + 1) else cs.getD j 0 := by
  induction cs generalizing i j with
  | nil =>
    induction i generalizing j with
    | zero =>
      cases j with
      | zero => decide
      | succ j => simp [countAt]
    | succ i ih =>
      cases j with
      | zero => simp [countAt]
      | succ j => simpa [countAt] using ih j
  | cons c cs ih =>
    cases i with
    | zero => cases j <;> simp [countAt]
    | succ i =>
      cases j with
      | zero => simp [countAt]
      | succ j => simpa [countAt] using ih i j

/-- A new histogram tallies no observation. -/
theorem tallies_new (buckets : List Double) : Tallies buckets [] (.new buckets) where
  counts := by
    intro i
    simp only [HistogramSeries.new, Cumulative.landing_nil, List.getD_eq_getElem?_getD,
      List.getElem?_map]
    cases buckets[i]? <;> rfl
  count := rfl

/-- An observation is counted. -/
theorem Tallies.observe (h : Tallies buckets vs entry) (hlen : vs.length + 1 < 2 ^ 53) :
    Tallies buckets (vs ++ [v]) (entry.observe lib buckets v) := by
  constructor
  · intro i
    have hle : Cumulative.landing Double.le buckets vs i ≤ vs.length := List.countP_le_length
    have hround : roundNat (Cumulative.landing Double.le buckets vs i + 1) =
        Cumulative.landing Double.le buckets vs i + 1 := roundNat_of_lt (by omega)
    rw [Cumulative.landing_concat]
    unfold HistogramSeries.observe
    cases hfirst : buckets.findIdx? (v.le ·) with
    | none => simpa using h.counts i
    | some j =>
      simp only [getD_countAt, h.counts, Option.some.injEq]
      by_cases hij : j = i
      · subst hij
        simp only [if_true]
        exact hround
      · simp only [if_neg hij, Nat.add_zero]
  · have hcount : (entry.observe lib buckets v).count = roundNat (entry.count + 1) := rfl
    rw [hcount, h.count, roundNat_of_lt hlen, List.length_append, List.length_singleton]

end

/-- The entry of a series. -/
def entryOf (r : Registry) (name keys : Str) : Option HistogramSeries :=
  (r.histograms.get? name).bind (·.get? keys)

section

variable {lib : Arithmetic} {d : MetricDefinition} {buckets : List Double} {hne : buckets ≠ []}

/-- Definitions stay. -/
theorem observe_defs (lib : Arithmetic) (r : Registry) (name : Str) (value : Double)
    (labels : Labels) : (r.observe lib name value labels).defs = r.defs := by
  unfold Registry.observe
  cases r.defs.get? name with
  | none => rfl
  | some d =>
    cases hkind : d.kind with
    | counter => simp only [hkind]
    | histogram buckets _ =>
      simp only [hkind]
      split <;> rfl

/-- Observations define no metric. -/
theorem observeAll_defs (lib : Arithmetic) (r : Registry) (os : List Observation) :
    (observeAll lib r os).defs = r.defs := by
  induction os generalizing r with
  | nil => rfl
  | cons o os ih => exact (ih _).trans (observe_defs lib r o.name o.value o.labels)

/-- What an observation does to the entry of a series: it is counted if it is one of the series and
is recorded. -/
theorem entryOf_observe {r : Registry} (hd : r.defs.get? d.name = some d)
    (hkind : d.kind = .histogram buckets hne) (o : Observation) (keys : Str) :
    entryOf (r.observe lib o.name o.value o.labels) d.name keys =
      if (o.name = d.name ∧ isRecorded o.value = true) ∧ seriesKey d.labelKeys o.labels = keys then
        some (((entryOf r d.name keys).getD (.new buckets)).observe lib buckets o.value)
      else entryOf r d.name keys := by
  by_cases hname : o.name = d.name
  · have hobserve : r.observe lib o.name o.value o.labels =
        if isRecorded o.value = true then
          r.record lib d.name (seriesKey d.labelKeys o.labels) buckets o.value
        else r := by
      unfold Registry.observe
      simp only [hname, hd, hkind]
    have hold : ∀ k, ((r.histograms.get? d.name).getD .empty).get? k = entryOf r d.name k := by
      intro k
      unfold entryOf
      cases r.histograms.get? d.name <;> rfl
    rw [hobserve]
    by_cases hrec : isRecorded o.value = true
    · rw [if_pos hrec, entryOf, Registry.record, Map.get?_set, if_pos rfl, Option.bind_some,
        Map.get?_set, hold, hold]
      by_cases hkeys : seriesKey d.labelKeys o.labels = keys
      · rw [if_pos hkeys, if_pos ⟨⟨hname, hrec⟩, hkeys⟩, hkeys]
      · rw [if_neg hkeys, if_neg fun h => hkeys h.2]
    · rw [if_neg hrec, if_neg fun h => hrec h.1.2]
  · rw [if_neg fun h => hname h.1.1]
    -- An observation of another metric is kept under the other name.
    have hother : (r.observe lib o.name o.value o.labels).histograms.get? d.name =
        r.histograms.get? d.name := by
      unfold Registry.observe
      cases r.defs.get? o.name with
      | none => rfl
      | some d' =>
        cases hkind' : d'.kind with
        | counter => simp only [hkind']
        | histogram buckets' _ =>
          simp only [hkind']
          split
          · exact (Map.get?_set _ _ _ _).trans (if_neg hname)
          · rfl
    unfold entryOf
    rw [hother]

/-- What holds of a series after some observations. -/
def Tallied (d : MetricDefinition) (buckets : List Double) (os : List Observation) (keys : Str) :
    Option HistogramSeries → Prop
  | none => valuesOf d os keys = []
  | some entry => valuesOf d os keys ≠ [] ∧ Tallies buckets (valuesOf d os keys) entry

/-- A series has at most the values observed. -/
theorem length_valuesOf_le (d : MetricDefinition) (os : List Observation) (keys : Str) :
    (valuesOf d os keys).length ≤ os.length := by
  unfold valuesOf recorded
  rw [List.length_map]
  exact Nat.le_trans (List.length_filter_le _ _) (List.length_filter_le _ _)

/-- Every series holds the counts of its own values. -/
theorem tallied_observeAll {r : Registry} (hd : r.defs.get? d.name = some d)
    (hkind : d.kind = .histogram buckets hne) (hempty : r.histograms.get? d.name = none)
    {os : List Observation} (hos : os.length < 2 ^ 53) (keys : Str) :
    Tallied d buckets os keys (entryOf (observeAll lib r os) d.name keys) := by
  induction os using List.reverseRecOn with
  | nil =>
    have hnone : entryOf (observeAll lib r []) d.name keys = none := by
      unfold entryOf observeAll
      rw [List.foldl_nil, hempty]
      rfl
    rw [hnone]
    rfl
  | append_singleton os o ih =>
    -- One observation more, which counts in this series or leaves it alone.
    rw [List.length_append, List.length_singleton] at hos
    have hih := ih (by omega)
    have hdefs : (observeAll lib r os).defs.get? d.name = some d := by rw [observeAll_defs, hd]
    have hstep : observeAll lib r (os ++ [o]) =
        (observeAll lib r os).observe lib o.name o.value o.labels := by
      unfold observeAll
      rw [List.foldl_append]
      rfl
    rw [hstep, entryOf_observe hdefs hkind]
    have hvalues : valuesOf d (os ++ [o]) keys = valuesOf d os keys ++
        if (o.name = d.name ∧ isRecorded o.value = true) ∧ seriesKey d.labelKeys o.labels = keys
        then [o.value] else [] := by
      unfold valuesOf recorded
      rw [List.filter_append, List.filter_append, List.map_append]
      congr 1
      by_cases hrec : o.name = d.name ∧ isRecorded o.value = true
      · by_cases hkeys : seriesKey d.labelKeys o.labels = keys <;> simp [hrec, hkeys]
      · simp [hrec]
    by_cases hcounted : (o.name = d.name ∧ isRecorded o.value = true) ∧
        seriesKey d.labelKeys o.labels = keys
    · rw [if_pos hcounted] at hvalues ⊢
      -- Fewer than 2^53 values, so that the count goes up exactly.
      have hlen : (valuesOf d os keys).length + 1 < 2 ^ 53 :=
        Nat.lt_of_le_of_lt (Nat.succ_le_succ (length_valuesOf_le d os keys)) hos
      have htallies : Tallies buckets (valuesOf d os keys)
          ((entryOf (observeAll lib r os) d.name keys).getD (.new buckets)) := by
        cases hentry : entryOf (observeAll lib r os) d.name keys with
        | none =>
          rw [hentry] at hih
          have hnil : valuesOf d os keys = [] := hih
          rw [hnil]
          exact tallies_new buckets
        | some entry =>
          rw [hentry] at hih
          exact hih.2
      refine ⟨by simp [hvalues], ?_⟩
      rw [hvalues]
      exact htallies.observe hlen
    · rw [if_neg hcounted] at hvalues ⊢
      rw [List.append_nil] at hvalues
      unfold Tallied at hih ⊢
      rw [hvalues]
      exact hih

end

/-! ## What is written -/

/-- A name of its own with the labels and the text of a number. -/
abbrev Sample : Type := Str × List (Str × Str) × Str

/-- The text of a count. -/
def countText (lib : Arithmetic) (n : ℕ) : Str := lib.toString (.finite n)

/-- The samples that a series has to have, given its labels, its values and the text of its sum. -/
def samples (lib : Arithmetic) (name : Str) (buckets : List Double) (labels : List (Str × Str))
    (vs : List Double) (sum : Str) : List Sample :=
  buckets.map (fun b => (name ++ str "_bucket", labels ++ [(str "le", lib.toString b)],
      countText lib (vs.countP (·.le b)))) ++
    [(name ++ str "_bucket", labels ++ [(str "le", str "+Inf")], countText lib vs.length),
      (name ++ str "_sum", labels, sum), (name ++ str "_count", labels, countText lib vs.length)]

section

variable {lib : Arithmetic} {name keys : Str} {buckets vs : List Double} {entry : HistogramSeries}

/-- A count is printed as `String` prints it. -/
theorem formatValue_natCast (lib : Arithmetic) (n : ℕ) :
    Registry.formatValue lib (.finite n) = countText lib n :=
  if_pos (Double.isInteger_natCast n)

/-- The label of a bucket on its own. -/
theorem writeLabels_le (x : Str) :
    writeLabels [(str "le", x)] = str "\x7ble=\"" ++ escapeLabelValue x ++ str "\"\x7d" := by
  have hopen : str "\x7ble=\"" = str "\x7b" ++ (str "le" ++ str "=\"") := by decide
  have hclose : str "\"\x7d" = str "\"" ++ str "\x7d" := by decide
  unfold writeLabels
  rw [if_neg (by simp), hopen, hclose, List.map_singleton, join_cons, List.flatMap_nil,
    List.append_nil]
  simp only [List.append_assoc]

/-- `le` is a valid label name. -/
theorem le_valid (x : Str) : ∀ p ∈ [(str "le", x)], isMetricName p.1 = true := by
  have hle : isMetricName (str "le") = true := by decide
  intro p hp
  rw [List.mem_singleton.mp hp]
  exact hle

/-- Without labels the counts of the buckets are written so that they can be read. -/
theorem read_bucketLines (htext : ∀ x, newline ∉ lib.toString x)
    (hname : isMetricName (name ++ str "_bucket") = true)
    (hbuckets : buckets.Pairwise fun a b => a.lt b = true) (hvs : vs.length < 2 ^ 53)
    (h : Tallies buckets vs entry) (before rest : List Double) (hrest : buckets = before ++ rest) :
    (Registry.bucketLines lib name [] entry.counts before.length
        (Cumulative.passed Double.le buckets vs before.length) rest).map readSample =
      rest.map fun b => some (name ++ str "_bucket", [(str "le", lib.toString b)],
        countText lib (vs.countP (·.le b))) := by
  induction rest generalizing before with
  | nil => rfl
  | cons b rest ih =>
    have hbelow : buckets.Pairwise fun a b => ∀ v : Double, v.le a = true → v.le b = true :=
      hbuckets.imp fun hlt v hv => Double.le_trans hv (Double.le_of_lt hlt)
    have hb : buckets[before.length]? = some b := by simp [hrest]
    have hpassed := Cumulative.passed_succ_eq vs hbelow hb
    -- The running sum is the number of the values up to this bucket, which no rounding changes.
    have hsum : roundNat (Cumulative.passed Double.le buckets vs before.length +
        entry.counts.getD before.length 0) =
          Cumulative.passed Double.le buckets vs (before.length + 1) := by
      rw [h.counts, ← Cumulative.passed_succ]
      refine roundNat_of_lt (Nat.lt_of_le_of_lt ?_ hvs)
      exact List.countP_le_length
    have hline : readSample (name ++ str "_bucket" ++ (str "\x7ble=\"" ++
        escapeLabelValue (lib.toString b) ++ str "\"\x7d") ++ str " " ++
          countText lib (vs.countP (·.le b))) =
        some (name ++ str "_bucket", [(str "le", lib.toString b)],
          countText lib (vs.countP (·.le b))) := by
      rw [← writeLabels_le]
      exact readSample_writeLabels hname (htext _) (le_valid _)
    have hnext := ih (before ++ [b]) (by simp [hrest])
    rw [List.length_append, List.length_singleton] at hnext
    rw [Registry.bucketLines, List.map_cons, List.map_cons, hsum, hnext, formatValue_natCast,
      hpassed]
    simp only [ne_eq, not_true_eq_false, if_false, hline]

/-- A name with a suffix is a name. -/
theorem isMetricName_append {suffix : Str} (hname : isMetricName name = true)
    (hsuffix : suffix.all isNamePart = true) : isMetricName (name ++ suffix) = true := by
  cases name with
  | nil => cases hname
  | cons u name =>
    unfold isMetricName at hname ⊢
    rw [Bool.and_eq_true_iff] at hname
    simp only [List.cons_append, List.all_append, hname.1, hname.2, hsuffix, Bool.and_self]

/-- A series without labels is written so that it can be read. -/
theorem read_seriesLines (htext : ∀ x, newline ∉ lib.toString x) (hname : isMetricName name = true)
    (hbuckets : buckets.Pairwise fun a b => a.lt b = true) (hvs : vs.length < 2 ^ 53)
    (h : Tallies buckets vs entry) :
    (Registry.seriesLines lib name buckets [] entry).map readSample =
      (samples lib name buckets [] vs (Registry.formatValue lib entry.sum)).map some := by
  have hbucket : isMetricName (name ++ str "_bucket") = true :=
    isMetricName_append hname (by decide)
  -- The buckets of the definition come first, then `+Inf`, the sum and the count.
  have hlines := read_bucketLines htext hbucket hbuckets hvs h [] buckets rfl
  rw [List.length_nil, Cumulative.passed_zero] at hlines
  have hplain : ∀ (suffix : Str) (x : Double), suffix.all isNamePart = true →
      readSample (name ++ suffix ++ [] ++ str " " ++ lib.toString x) =
        some (name ++ suffix, [], lib.toString x) := fun suffix x hsuffix =>
    readSample_writeLabels (isMetricName_append hname hsuffix) (htext x)
      fun p hp => (List.not_mem_nil hp).elim
  have hinf : readSample (name ++ str "_bucket" ++ str "\x7ble=\"+Inf\"\x7d" ++ str " " ++
      countText lib vs.length) =
        some (name ++ str "_bucket", [(str "le", str "+Inf")], countText lib vs.length) := by
    -- The one bucket whose label is written out in the source.
    have hwritten : str "\x7ble=\"+Inf\"\x7d" = writeLabels [(str "le", str "+Inf")] := by decide
    rw [hwritten]
    exact readSample_writeLabels hbucket (htext _) (le_valid _)
  have hsum : ∃ x, Registry.formatValue lib entry.sum = lib.toString x := by
    unfold Registry.formatValue
    split
    · exact ⟨_, rfl⟩
    · exact ⟨_, rfl⟩
  obtain ⟨x, hx⟩ := hsum
  have hcount := hplain (str "_count") (.finite vs.length) (by decide)
  have hsum := hplain (str "_sum") x (by decide)
  unfold Registry.seriesLines samples
  rw [List.map_append, List.map_append, hlines, h.count, formatValue_natCast, hx, List.map_map]
  simp only [ne_eq, not_true_eq_false, if_false, List.map_cons, List.map_nil, hinf]
  simp only [countText, hsum, hcount]
  rfl

/-- The line of the first bucket of a series with labels cannot be read: the labels are not
closed. -/
theorem not_read_bucketLine {labelKeys : List Str} {labels : Labels} {text : Str}
    (hname : isMetricName (name ++ str "_bucket") = true)
    (hkeys : ∀ key ∈ labelKeys, isMetricName key = true)
    (hlabels : present labelKeys labels.get? ≠ []) (le : Str) :
    readSample (name ++ str "_bucket" ++ ((seriesKey labelKeys labels).dropLast ++ str ",le=\"" ++
      escapeLabelValue le ++ str "\"") ++ str " " ++ text) = none := by
  obtain ⟨p, pairs, hpairs⟩ := List.exists_cons_of_ne_nil hlabels
  have hvalid : ∀ p ∈ present labelKeys labels.get?, isMetricName p.1 = true :=
    isMetricName_of_present hkeys
  rw [hpairs] at hvalid
  -- What is left of the key without its brace.
  have hkey : (seriesKey labelKeys labels).dropLast = str "\x7b" ++ join (str ",")
      ((p :: pairs).map fun p => p.1 ++ str "=\"" ++ escapeLabelValue p.2 ++ str "\"") := by
    have hclose : str "\x7d" = [125] := by decide
    rw [seriesKey_eq, hpairs]
    unfold writeLabels
    rw [if_neg (by simp), hclose, List.dropLast_concat]
  have hle : (str ",le=\"").foldl Reading.next (.closed (name ++ str "_bucket") (p :: pairs)) =
      .value (name ++ str "_bucket") (p :: pairs) (str "le") [] := rfl
  -- Behind the value of `le` a comma or the brace is due, and not a space.
  have hspace : ∀ ls, (str " ").foldl Reading.next ((str "\"").foldl Reading.next
      (.value (name ++ str "_bucket") ls (str "le") le)) = .failed := fun _ => rfl
  have hfailed : text.foldl Reading.next .failed = .failed := by
    induction text with
    | nil => rfl
    | cons u text ih => exact ih
  have hline : name ++ str "_bucket" ++ ((seriesKey labelKeys labels).dropLast ++ str ",le=\"" ++
      escapeLabelValue le ++ str "\"") ++ str " " ++ text =
        name ++ str "_bucket" ++ (seriesKey labelKeys labels).dropLast ++ str ",le=\"" ++
          escapeLabelValue le ++ str "\"" ++ str " " ++ text := by
    simp only [List.append_assoc]
  unfold readSample
  rw [hline, hkey, List.foldl_append, List.foldl_append, List.foldl_append, List.foldl_append,
    List.foldl_append, read_labels hname hvalid, hle, read_escaped, List.nil_append, hspace,
    hfailed]

end

/-! ## Histograms of sets of labels -/

/-- Two objects agree on the declared labels. -/
abbrev Agree (labelKeys : List Str) (a b : Labels) : Prop :=
  ∀ key ∈ labelKeys, a.own key = b.own key

/-- The values that are recorded with a set of labels. -/
def valuesWith (d : MetricDefinition) (os : List Observation) (labels : Labels) : List Double :=
  ((recorded d.name os).filter fun o => Agree d.labelKeys o.labels labels).map (·.value)

/-- What is wanted of the lines of a histogram: they are read as the samples of some sets of labels,
which are those of the recorded observations, each once. A set of labels has the counts of its own
values, which rise with the buckets up to the number of the values. -/
structure Exposes (lib : Arithmetic) (d : MetricDefinition) (buckets : List Double)
    (os : List Observation) (lines : List Str) (sets : List Labels) : Prop where
  apart : sets.Pairwise fun a b => ¬Agree d.labelKeys a b
  given : ∀ labels ∈ sets, ∃ o ∈ recorded d.name os, o.labels = labels
  complete : ∀ o ∈ recorded d.name os, ∃ labels ∈ sets, Agree d.labelKeys o.labels labels
  reads : ∃ sum : Labels → Str, lines.map readSample = sets.flatMap fun labels =>
    (samples lib d.name buckets (present d.labelKeys labels.own) (valuesWith d os labels)
      (sum labels)).map some
  rises : ∀ labels ∈ sets,
    (buckets.map fun b => (valuesWith d os labels).countP (·.le b)).Pairwise (· ≤ ·)
  bounded : ∀ labels ∈ sets, ∀ b ∈ buckets,
    (valuesWith d os labels).countP (·.le b) ≤ (valuesWith d os labels).length

/-- The lines are part of what is rendered. -/
theorem renderPrometheus_eq (lib : Arithmetic) (r : Registry) {d : MetricDefinition}
    (hd : r.defs.get? d.name = some d) :
    ∃ before after, r.renderPrometheus lib =
      join [newline] (before ++ r.sampleLines lib d ++ after) ++ [newline] := by
  have hmem : d ∈ r.defs.values :=
    List.mem_map.mpr ⟨(d.name, d), Map.mem_entries_iff.mpr hd, rfl⟩
  obtain ⟨earlier, later, hvalues⟩ := List.append_of_mem hmem
  unfold Registry.renderPrometheus
  rw [hvalues, List.flatMap_append, List.flatMap_cons, ← List.append_assoc, ← List.append_assoc]
  exact ⟨_, _, rfl⟩

section

variable {lib : Arithmetic} {d : MetricDefinition} {buckets : List Double} {hne : buckets ≠ []}
  {r : Registry} {os : List Observation}

/-- The lines of a histogram that has been observed. -/
theorem sampleLines_eq (hkind : d.kind = .histogram buckets hne) {series : Map Str HistogramSeries}
    (hseries : r.histograms.get? d.name = some series) :
    r.sampleLines lib d =
      series.entries.flatMap fun e => Registry.seriesLines lib d.name buckets e.1 e.2 := by
  unfold Registry.sampleLines
  simp only [hkind, hseries]

/-- A series that has a recorded observation has its lines. -/
theorem seriesLines_subset (hd : r.defs.get? d.name = some d)
    (hkind : d.kind = .histogram buckets hne) (hempty : r.histograms.get? d.name = none)
    (hos : os.length < 2 ^ 53) {o : Observation} (ho : o ∈ recorded d.name os) :
    ∃ entry, ∀ line ∈ Registry.seriesLines lib d.name buckets (seriesKey d.labelKeys o.labels) entry,
      line ∈ (observeAll lib r os).sampleLines lib d := by
  have htallied := @tallied_observeAll lib d buckets hne r hd hkind hempty os hos
    (seriesKey d.labelKeys o.labels)
  have hvalue : o.value ∈ valuesOf d os (seriesKey d.labelKeys o.labels) :=
    List.mem_map_of_mem (List.mem_filter.mpr ⟨ho, by simp⟩)
  cases hentry : entryOf (observeAll lib r os) d.name (seriesKey d.labelKeys o.labels) with
  | none =>
    rw [hentry] at htallied
    have hnil : valuesOf d os (seriesKey d.labelKeys o.labels) = [] := htallied
    rw [hnil] at hvalue
    cases hvalue
  | some entry =>
    obtain ⟨series, hseries, hget⟩ := Option.bind_eq_some_iff.mp hentry
    refine ⟨entry, fun line hline => ?_⟩
    rw [sampleLines_eq hkind hseries]
    exact List.mem_flatMap.mpr
      ⟨(seriesKey d.labelKeys o.labels, entry), Map.mem_entries_iff.mpr hget, hline⟩

/-- A recorded observation with a label leaves a line that cannot be read. -/
theorem exists_unreadable (hd : r.defs.get? d.name = some d)
    (hkind : d.kind = .histogram buckets hne) (hempty : r.histograms.get? d.name = none)
    (hos : os.length < 2 ^ 53) {o : Observation} (ho : o ∈ recorded d.name os) {key : Str}
    (hkey : key ∈ d.labelKeys) (hlabel : o.labels.get? key ≠ none) :
    ∃ line ∈ (observeAll lib r os).sampleLines lib d, readSample line = none := by
  obtain ⟨entry, hsubset⟩ := @seriesLines_subset lib d buckets hne r os hd hkind hempty hos o ho
  obtain ⟨value, hvalue⟩ := Option.ne_none_iff_exists'.mp hlabel
  have hpresent : present d.labelKeys o.labels.get? ≠ [] :=
    List.ne_nil_of_mem (mem_present.mpr ⟨hkey, hvalue⟩)
  have hkeys : seriesKey d.labelKeys o.labels ≠ [] := by
    rw [seriesKey_eq]
    unfold writeLabels
    rw [if_neg (by simpa using hpresent)]
    simp [str, utf16]
  obtain ⟨b, bs, rfl⟩ := List.exists_cons_of_ne_nil hne
  have hbucket : isMetricName (d.name ++ str "_bucket") = true :=
    isMetricName_append d.name_valid (by decide)
  refine ⟨_, hsubset _ (List.mem_append_left _ List.mem_cons_self), ?_⟩
  rw [if_pos hkeys]
  exact not_read_bucketLine hbucket d.keys_valid hpresent _

/-- Without labels in any recorded observation there is one series at most. -/
theorem sampleLines_of_unlabelled (hd : r.defs.get? d.name = some d)
    (hkind : d.kind = .histogram buckets hne) (hempty : r.histograms.get? d.name = none)
    (hos : os.length < 2 ^ 53)
    (hkeys : ∀ o ∈ recorded d.name os, seriesKey d.labelKeys o.labels = []) :
    (recorded d.name os = [] ∧ (observeAll lib r os).sampleLines lib d = []) ∨
      ∃ entry, Tallies buckets ((recorded d.name os).map (·.value)) entry ∧
        recorded d.name os ≠ [] ∧ (observeAll lib r os).sampleLines lib d =
          Registry.seriesLines lib d.name buckets [] entry := by
  have htallied := @tallied_observeAll lib d buckets hne r hd hkind hempty os hos
  have hvalues : valuesOf d os [] = (recorded d.name os).map (·.value) := by
    unfold valuesOf
    rw [List.filter_eq_self.mpr fun o ho => by simpa using hkeys o ho]
  -- A series that is there has an observation, so its key is the empty one.
  have hkey : ∀ series, (observeAll lib r os).histograms.get? d.name = some series →
      ∀ e ∈ series.entries, e.1 = [] ∧ recorded d.name os ≠ [] := by
    intro series hseries e he
    have hentry : entryOf (observeAll lib r os) d.name e.1 = some e.2 := by
      unfold entryOf
      rw [hseries]
      exact Map.mem_entries_iff.mp he
    have htally := htallied e.1
    rw [hentry] at htally
    obtain ⟨v, hv⟩ := List.exists_mem_of_ne_nil _ htally.1
    obtain ⟨o, ho, -⟩ := List.mem_map.mp hv
    obtain ⟨hrec, heq⟩ := List.mem_filter.mp ho
    exact ⟨(of_decide_eq_true heq).symm.trans (hkeys o hrec), List.ne_nil_of_mem hrec⟩
  have hempty' := htallied []
  cases hentry : entryOf (observeAll lib r os) d.name [] with
  | none =>
    rw [hentry] at hempty'
    have hnil : valuesOf d os [] = [] := hempty'
    have hnone : recorded d.name os = [] := List.map_eq_nil_iff.mp (hvalues.symm.trans hnil)
    refine .inl ⟨hnone, ?_⟩
    cases hseries : (observeAll lib r os).histograms.get? d.name with
    | none =>
      unfold Registry.sampleLines
      simp only [hkind, hseries]
    | some series =>
      rw [sampleLines_eq hkind hseries, List.flatMap_eq_nil_iff]
      exact fun e he => absurd hnone (hkey series hseries e he).2
  | some entry =>
    rw [hentry] at hempty'
    obtain ⟨hsome, htallies⟩ := hempty'
    rw [hvalues] at hsome htallies
    obtain ⟨series, hseries, hget⟩ := Option.bind_eq_some_iff.mp hentry
    have hentries : series.entries = [([], entry)] :=
      Map.entries_eq_singleton (fun e he => (hkey series hseries e he).1) hget
    refine .inr ⟨entry, htallies, fun hnil => hsome (by rw [hnil]; rfl), ?_⟩
    rw [sampleLines_eq hkind hseries, hentries, List.flatMap_singleton]

/-- Lines of which one cannot be read are not what is wanted. -/
theorem not_exposes_of_unreadable {lines sets} (h : Exposes lib d buckets os lines sets)
    {line : Str} (hline : line ∈ lines) : readSample line ≠ none := by
  intro hnone
  obtain ⟨sum, hreads⟩ := h.reads
  have hmem := List.mem_map_of_mem (f := readSample) hline
  rw [hnone, hreads] at hmem
  obtain ⟨labels, -, hsample⟩ := List.mem_flatMap.mp hmem
  obtain ⟨sample, -, hsome⟩ := List.mem_map.mp hsample
  cases hsome

/-- The lines of the one series without labels are what is wanted. -/
theorem exposes_unlabelled (htext : ∀ x, newline ∉ lib.toString x)
    (hbuckets : buckets.Pairwise fun a b => a.lt b = true) (hos : os.length < 2 ^ 53)
    (hown : ∀ o ∈ recorded d.name os, ∀ key ∈ d.labelKeys, o.labels.own key = none)
    {o : Observation} (ho : o ∈ recorded d.name os) {entry : HistogramSeries}
    (htallies : Tallies buckets ((recorded d.name os).map (·.value)) entry) :
    Exposes lib d buckets os (Registry.seriesLines lib d.name buckets [] entry) [o.labels] := by
  -- Without own labels all observations are of one series.
  have hagree : ∀ o' ∈ recorded d.name os, Agree d.labelKeys o'.labels o.labels := by
    intro o' ho' key hkey
    rw [hown o' ho' key hkey, hown o ho key hkey]
  have hvalues : valuesWith d os o.labels = (recorded d.name os).map (·.value) := by
    unfold valuesWith
    rw [List.filter_eq_self.mpr fun o' ho' => decide_eq_true (hagree o' ho')]
  have hvs : ((recorded d.name os).map (·.value)).length < 2 ^ 53 := by
    rw [List.length_map]
    exact Nat.lt_of_le_of_lt (List.length_filter_le _ _) hos
  have hnil : present d.labelKeys o.labels.own = [] :=
    List.filterMap_eq_nil_iff.mpr fun key hkey => by rw [hown o ho key hkey]; rfl
  constructor
  case apart => exact List.pairwise_singleton _ _
  case given =>
    intro labels hlabels
    exact ⟨o, ho, (List.mem_singleton.mp hlabels).symm⟩
  case complete =>
    intro o' ho'
    exact ⟨o.labels, List.mem_singleton_self _, hagree o' ho'⟩
  case reads =>
    refine ⟨fun _ => Registry.formatValue lib entry.sum, ?_⟩
    rw [List.flatMap_singleton, hnil, hvalues,
      read_seriesLines htext d.name_valid hbuckets hvs htallies]
  case rises =>
    intro labels _
    refine List.pairwise_map.mpr (hbuckets.imp fun hlt => ?_)
    exact List.countP_mono_left fun v _ hv => Double.le_trans hv (Double.le_of_lt hlt)
  case bounded =>
    intro labels _ b _
    exact List.countP_le_length

/-- The lines of a histogram are what is wanted exactly if no recorded observation has one of its
labels. -/
theorem histogram_exposes_iff (htext : ∀ x, newline ∉ lib.toString x)
    (hd : r.defs.get? d.name = some d) (hkind : d.kind = .histogram buckets hne)
    (hbuckets : buckets.Pairwise fun a b => a.lt b = true)
    (hempty : r.histograms.get? d.name = none) (hos : os.length < 2 ^ 53) :
    (∃ sets, Exposes lib d buckets os ((observeAll lib r os).sampleLines lib d) sets) ↔
      ∀ o ∈ recorded d.name os, ∀ key ∈ d.labelKeys, o.labels.get? key = none := by
  constructor
  · rintro ⟨sets, hexposes⟩ o ho key hkey
    by_contra hlabel
    obtain ⟨line, hline, hnone⟩ :=
      @exists_unreadable lib d buckets hne r os hd hkind hempty hos o ho key hkey hlabel
    exact not_exposes_of_unreadable hexposes hline hnone
  · intro h
    have hown : ∀ o ∈ recorded d.name os, ∀ key ∈ d.labelKeys, o.labels.own key = none :=
      fun o ho key hkey => (Option.or_eq_none_iff.mp (h o ho key hkey)).1
    have hkeys : ∀ o ∈ recorded d.name os, seriesKey d.labelKeys o.labels = [] := by
      intro o ho
      have hpresent : present d.labelKeys o.labels.get? = [] :=
        List.filterMap_eq_nil_iff.mpr fun key hkey => by rw [h o ho key hkey]; rfl
      rw [seriesKey_eq, hpresent]
      rfl
    rcases @sampleLines_of_unlabelled lib d buckets hne r os hd hkind hempty hos hkeys with
      ⟨hnone, hlines⟩ | ⟨entry, htallies, hsome, hlines⟩
    · -- Nothing was recorded, and nothing is written.
      refine ⟨[], .nil, by simp, by simp [hnone], ⟨fun _ => [], ?_⟩, by simp, by simp⟩
      rw [hlines]
      rfl
    · obtain ⟨o, ho⟩ := List.exists_mem_of_ne_nil _ hsome
      rw [hlines]
      exact ⟨_, exposes_unlabelled htext hbuckets hos hown ho htallies⟩

end

/-- Exact sums, and the texts of a few numbers. -/
def plainArithmetic : Arithmetic where
  add
    | .finite a, .finite b => .finite (a + b)
    | _, _ => .nan
  literal q := .finite q
  toString
    | .finite q => if q = 0 then str "0" else if q = 1 / 2 then str "0.5" else if q = 1 then str "1"
      else if q = 2 then str "2" else str "NaN"
    | _ => str "NaN"
  toFixed6 x := x

/-- The printing of the example breaks no line. -/
theorem newline_not_mem_plain (x : Double) : newline ∉ plainArithmetic.toString x := by
  cases x with
  | finite q =>
    simp only [plainArithmetic]
    split_ifs <;> decide
  | infinite negative => cases negative <;> decide
  | nan => decide

/-- A histogram with the label `method`. -/
def latency : HistogramDefinition :=
  ⟨str "latency", str "Latency.", some [str "method"], some [.finite (1 / 2), .finite 1]⟩

/-- The definition as it is stored. -/
def latencyStored : MetricDefinition :=
  ⟨.histogram [.finite (1 / 2), .finite 1] (List.cons_ne_nil _ _), str "latency", str "Latency.",
    [str "method"], by decide, by decide⟩

/-- A registry with this histogram alone. -/
def latencyRegistry : Registry := Registry.defineHistogram plainArithmetic {} latency

/-- Observations of values on a bound, above every bound, and of no number, without a label. -/
def unlabelledCalls : List Observation :=
  [1 / 2, 3 / 2].map (fun q => ⟨str "latency", .finite q, ⟨fun _ => none⟩⟩) ++
    [⟨str "latency", .nan, ⟨fun _ => none⟩⟩]

/-- Three calls, observed in two buckets without labels. -/
theorem histogram_exposes_iff_latency :
    ∃ sets, Exposes plainArithmetic latencyStored [.finite (1 / 2), .finite 1] unlabelledCalls
      ((observeAll plainArithmetic latencyRegistry unlabelledCalls).sampleLines plainArithmetic
        latencyStored) sets := by
  have hnone : ∀ o ∈ unlabelledCalls, o.labels.get? (str "method") = none := by
    intro o ho
    simp only [unlabelledCalls, List.map_cons, List.map_nil, List.cons_append, List.nil_append,
      List.mem_cons, List.not_mem_nil, or_false] at ho
    rcases ho with rfl | rfl | rfl <;> decide
  refine (histogram_exposes_iff newline_not_mem_plain (by decide +kernel) rfl
    (by decide +kernel) rfl (by decide)).mpr fun o ho key hkey => ?_
  rw [List.mem_singleton.mp hkey]
  exact hnone o (List.mem_filter.mp ho).1

/-- A single observation, with the label `method`. -/
def labelledCall : List Observation :=
  [⟨str "latency", .finite (1 / 2),
    ⟨fun key => if key = str "method" then some (str "GET") else none⟩⟩]

/-- The lines of the buckets of an observation with a label have no closing brace. -/
theorem labelled_bucket_line_unreadable :
    (observeAll plainArithmetic latencyRegistry labelledCall).sampleLines plainArithmetic
        latencyStored =
      [str "latency_bucket\x7bmethod=\"GET\",le=\"0.5\" 1",
        str "latency_bucket\x7bmethod=\"GET\",le=\"1\" 1",
        str "latency_bucket\x7bmethod=\"GET\",le=\"+Inf\"\x7d 1",
        str "latency_sum\x7bmethod=\"GET\"\x7d 0.5", str "latency_count\x7bmethod=\"GET\"\x7d 1"] ∧
      ∀ sets, ¬Exposes plainArithmetic latencyStored [.finite (1 / 2), .finite 1] labelledCall
        ((observeAll plainArithmetic latencyRegistry labelledCall).sampleLines plainArithmetic
          latencyStored) sets := by
  have hlines : (observeAll plainArithmetic latencyRegistry labelledCall).sampleLines
        plainArithmetic latencyStored =
      [str "latency_bucket\x7bmethod=\"GET\",le=\"0.5\" 1",
        str "latency_bucket\x7bmethod=\"GET\",le=\"1\" 1",
        str "latency_bucket\x7bmethod=\"GET\",le=\"+Inf\"\x7d 1",
        str "latency_sum\x7bmethod=\"GET\"\x7d 0.5", str "latency_count\x7bmethod=\"GET\"\x7d 1"] := by
    decide +kernel
  refine ⟨hlines, fun sets h => ?_⟩
  rw [hlines] at h
  exact not_exposes_of_unreadable h List.mem_cons_self (by decide)

end SplitBill.Metrics
