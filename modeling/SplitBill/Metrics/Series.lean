import SplitBill.Js.Str

/-!
# Series keys

`seriesKey` of `src/metrics/registry.ts`. The labels of a series are written behind the name of the
metric, in the order in which the metric declares them and with their values escaped, and this text
is the key under which the series is kept. `readSample` reads a line of the exposition format back,
by the rules of the format.

A label is read as `labels[key]`. An object that has no property of that name gives the member of
`Object.prototype` of that name, if there is one, and then `String` renders it.
-/

namespace SplitBill.Metrics

open Js

/-! ## The code -/

/-- `\`. -/
def backslash : UInt16 := 92

/-- `"`. -/
def quote : UInt16 := 34

/-- A line feed. -/
def newline : UInt16 := 10

/-- `[a-zA-Z_]`. -/
def isNameStart (u : UInt16) : Bool :=
  (97 ≤ u && u ≤ 122) || (65 ≤ u && u ≤ 90) || u == 95

/-- `[a-zA-Z0-9_]`. -/
def isNamePart (u : UInt16) : Bool := isNameStart u || (48 ≤ u && u ≤ 57)

/-- `METRIC_NAME_PATTERN.test(name)`. -/
def isMetricName : Str → Bool
  | [] => false
  | u :: s => isNameStart u && s.all isNamePart

/-- `escapeLabelValue`. -/
def escapeLabelValue (value : Str) : Str :=
  replaceAll newline (str "\\n") (replaceAll quote (str "\\\"")
    (replaceAll backslash (str "\\\\") value))

/-- The text of a built-in function. -/
def nativeCode (name : String) : Str := str ("function " ++ name ++ "() \x7b [native code] \x7d")

/-- The members of `Object.prototype`, as `String` renders them. -/
def objectPrototype : List (Str × Str) :=
  [(str "constructor", nativeCode "Object"),
    (str "__proto__", str "[object Object]"),
    (str "toString", nativeCode "toString"),
    (str "toLocaleString", nativeCode "toLocaleString"),
    (str "valueOf", nativeCode "valueOf"),
    (str "hasOwnProperty", nativeCode "hasOwnProperty"),
    (str "isPrototypeOf", nativeCode "isPrototypeOf"),
    (str "propertyIsEnumerable", nativeCode "propertyIsEnumerable"),
    (str "__defineGetter__", nativeCode "__defineGetter__"),
    (str "__defineSetter__", nativeCode "__defineSetter__"),
    (str "__lookupGetter__", nativeCode "__lookupGetter__"),
    (str "__lookupSetter__", nativeCode "__lookupSetter__")]

/-- What every object inherits under a name. -/
def inherited (key : Str) : Option Str := (objectPrototype.find? (·.1 = key)).map (·.2)

/-- `Record<string, string>`: the properties that an object of labels has itself. -/
structure Labels where
  own : Str → Option Str

/-- `labels[key]`, as `String` renders it. -/
def Labels.get? (labels : Labels) (key : Str) : Option Str := (labels.own key).or (inherited key)

/-- `seriesKey`. -/
def seriesKey (labelKeys : List Str) (labels : Labels) : Str :=
  let parts := labelKeys.filterMap fun key => (labels.get? key).map fun raw =>
    key ++ str "=\"" ++ escapeLabelValue raw ++ str "\""
  if parts.length = 0 then [] else str "\x7b" ++ join (str ",") parts ++ str "\x7d"

/-! ## Reading a line -/

/-- How far a line has been read: the name of the metric, the labels with their values so far, and
the label or the value that is being read. -/
inductive Reading
  | name (name : Str)
  | key (name : Str) (labels : List (Str × Str)) (key : Str)
  | equals (name : Str) (labels : List (Str × Str)) (key : Str)
  | value (name : Str) (labels : List (Str × Str)) (key value : Str)
  | escape (name : Str) (labels : List (Str × Str)) (key value : Str)
  | closed (name : Str) (labels : List (Str × Str))
  | labelled (name : Str) (labels : List (Str × Str))
  | number (name : Str) (labels : List (Str × Str)) (text : Str)
  | failed

/-- Reads one more unit. Within a value a backslash escapes a backslash, a quote and, as `n`, a line
feed; anything else after it, and a line feed of its own, is an error. -/
def Reading.next : Reading → UInt16 → Reading
  | name n, u =>
    if u = 123 then key n [] [] else if u = 32 then number n [] []
    else if isNamePart u then name (n ++ [u]) else failed
  | key n ls k, u =>
    if u = 61 then equals n ls k else if isNamePart u then key n ls (k ++ [u]) else failed
  | equals n ls k, u => if u = quote then value n ls k [] else failed
  | value n ls k v, u =>
    if u = backslash then escape n ls k v else if u = quote then closed n (ls ++ [(k, v)])
    else if u = newline then failed else value n ls k (v ++ [u])
  | escape n ls k v, u =>
    if u = backslash ∨ u = quote then value n ls k (v ++ [u])
    else if u = 110 then value n ls k (v ++ [newline]) else failed
  | closed n ls, u => if u = 44 then key n ls [] else if u = 125 then labelled n ls else failed
  | labelled n ls, u => if u = 32 then number n ls [] else failed
  | number n ls t, u => if u = newline then failed else number n ls (t ++ [u])
  | failed, _ => failed

/-- A sample: the name, the labels with their values, and the text of the number. -/
def readSample (line : Str) : Option (Str × List (Str × Str) × Str) :=
  match line.foldl Reading.next (.name []) with
  | .number n ls t => some (n, ls, t)
  | _ => none

example : readSample (str "a\x7bk=\"x\\\"\\n\"\x7d 1") =
    some (str "a", [(str "k", str "x\"\n")], str "1") := by decide

/-! ## Escaping -/

/-- What becomes of one unit of a value. -/
def escapeUnit (u : UInt16) : Str :=
  if u = backslash then [backslash, backslash] else if u = quote then [backslash, quote]
  else if u = newline then [backslash, 110] else [u]

/-- The three replacements amount to one pass: the first one is that of the backslash, so that none
touches what another has written. -/
theorem escapeLabelValue_eq (value : Str) :
    escapeLabelValue value = value.flatMap escapeUnit := by
  -- The three passes may be done unit by unit.
  have hone : escapeLabelValue value = value.flatMap fun u =>
      replaceAll newline (str "\\n") (replaceAll quote (str "\\\"")
        (if u = backslash then str "\\\\" else [u])) := by
    unfold escapeLabelValue
    rw [← replaceAll_flatMap, ← replaceAll_flatMap]
    rfl
  rw [hone]
  congr 1
  funext u
  unfold escapeUnit
  -- A pass does not touch what an earlier pass wrote for another unit.
  by_cases hb : u = backslash
  · rw [if_pos hb, if_pos hb]
    rfl
  rw [if_neg hb, if_neg hb]
  by_cases hq : u = quote
  · subst hq
    rfl
  by_cases hn : u = newline
  · subst hn
    rfl
  · simp [replaceAll, hq, hn]

/-- An escaped value holds no line feed. -/
theorem newline_not_mem_escapeLabelValue (value : Str) :
    newline ∉ escapeLabelValue value := by
  unfold escapeLabelValue
  rw [mem_replaceAll]
  rintro (⟨-, h⟩ | ⟨-, h⟩)
  · exact absurd h (by decide)
  · exact h rfl

/-! ## What is written is read back -/

section

variable {n k v : Str} {ls : List (Str × Str)}

/-- A name has no unit that ends it. -/
theorem ne_of_isNamePart {u : UInt16} (h : isNamePart u = true) :
    u ≠ 123 ∧ u ≠ 32 ∧ u ≠ 61 ∧ u ≠ newline := by
  refine ⟨?_, ?_, ?_, ?_⟩ <;>
  · rintro rfl
    revert h
    decide

/-- The units of a valid name. -/
theorem all_of_isMetricName {s : Str} (h : isMetricName s = true) :
    ∀ u ∈ s, isNamePart u = true := by
  cases s with
  | nil => exact fun u hu => (List.not_mem_nil hu).elim
  | cons x s =>
    obtain ⟨hx, hs⟩ := Bool.and_eq_true_iff.mp h
    refine List.forall_mem_cons.mpr ⟨?_, List.all_eq_true.mp hs⟩
    unfold isNamePart
    rw [hx]
    rfl

/-- The reader takes a metric's name. -/
theorem read_name {s : Str} (hs : ∀ u ∈ s, isNamePart u = true) :
    s.foldl Reading.next (.name n) = .name (n ++ s) := by
  induction s generalizing n with
  | nil => simp
  | cons u s ih =>
    rw [List.forall_mem_cons] at hs
    obtain ⟨h₁, h₂, -, -⟩ := ne_of_isNamePart hs.1
    have hnext : (Reading.name n).next u = .name (n ++ [u]) := by
      simp [Reading.next, h₁, h₂, hs.1]
    rw [List.foldl_cons, hnext, ih hs.2, List.append_assoc]
    rfl

/-- The reader takes a label's name. -/
theorem read_key {s : Str} (hs : ∀ u ∈ s, isNamePart u = true) :
    s.foldl Reading.next (.key n ls k) = .key n ls (k ++ s) := by
  induction s generalizing k with
  | nil => simp
  | cons u s ih =>
    rw [List.forall_mem_cons] at hs
    obtain ⟨-, -, h₁, -⟩ := ne_of_isNamePart hs.1
    have hnext : (Reading.key n ls k).next u = .key n ls (k ++ [u]) := by
      simp [Reading.next, h₁, hs.1]
    rw [List.foldl_cons, hnext, ih hs.2, List.append_assoc]
    rfl

/-- Reading what has been escaped gives the value. -/
theorem read_escaped (value : Str) :
    (escapeLabelValue value).foldl Reading.next (.value n ls k v) =
      .value n ls k (v ++ value) := by
  rw [escapeLabelValue_eq]
  induction value generalizing v with
  | nil => simp
  | cons u value ih =>
    -- One escaped unit is read back as that unit.
    have hunit : (escapeUnit u).foldl Reading.next (.value n ls k v) =
        .value n ls k (v ++ [u]) := by
      unfold escapeUnit
      split
      · next hb => simp [Reading.next, hb]
      · next hb =>
        split
        · next hq => simp [Reading.next, hq]
        · next hq =>
          split
          · next hn =>
            have hletter : ¬((110 : UInt16) = backslash ∨ (110 : UInt16) = quote) := by decide
            simp [Reading.next, hn, hletter]
          · next hn => simp [Reading.next, hb, hq, hn]
    rw [List.flatMap_cons, List.foldl_append, hunit, ih, List.append_assoc]
    rfl

/-- One label, from its first unit to the quote behind its value. -/
theorem read_part (hk : ∀ u ∈ k, isNamePart u = true) (value : Str) :
    (k ++ str "=\"" ++ escapeLabelValue value ++ str "\"").foldl Reading.next (.key n ls []) =
      .closed n (ls ++ [(k, value)]) := by
  have hopen : (str "=\"").foldl Reading.next (.key n ls k) = .value n ls k [] := by
    simp [str, utf16, Reading.next]
    rfl
  have hclose : (str "\"").foldl Reading.next (.value n ls k value) =
      .closed n (ls ++ [(k, value)]) := rfl
  rw [List.foldl_append, List.foldl_append, List.foldl_append, read_key hk, List.nil_append, hopen,
    read_escaped, List.nil_append, hclose]

/-- The labels that follow one that has been read. -/
theorem read_rest {parts : List (Str × Str)}
    (hparts : ∀ p ∈ parts, ∀ u ∈ p.1, isNamePart u = true) :
    (parts.flatMap fun p => str "," ++ (p.1 ++ str "=\"" ++ escapeLabelValue p.2 ++
      str "\"")).foldl Reading.next (.closed n ls) = .closed n (ls ++ parts) := by
  induction parts generalizing ls with
  | nil => simp
  | cons p parts ih =>
    rw [List.forall_mem_cons] at hparts
    have hcomma : (str ",").foldl Reading.next (.closed n ls) = .key n ls [] := rfl
    rw [List.flatMap_cons, List.foldl_append, List.foldl_append, hcomma, read_part hparts.1,
      ih hparts.2, List.append_assoc]
    rfl

end

/-- How labels are written, in their order. -/
def writeLabels (pairs : List (Str × Str)) : Str :=
  if pairs.length = 0 then []
  else str "\x7b" ++ join (str ",") (pairs.map fun p =>
    p.1 ++ str "=\"" ++ escapeLabelValue p.2 ++ str "\"") ++ str "\x7d"

/-- The declared labels that an object of labels gives a value. -/
def present (labelKeys : List Str) (get? : Str → Option Str) : List (Str × Str) :=
  labelKeys.filterMap fun key => (get? key).map (key, ·)

/-- A series is keyed by the labels it has, in the order of the definition. -/
theorem seriesKey_eq (labelKeys : List Str) (labels : Labels) :
    seriesKey labelKeys labels = writeLabels (present labelKeys labels.get?) := by
  have hparts : labelKeys.filterMap (fun key => (labels.get? key).map fun raw =>
        key ++ str "=\"" ++ escapeLabelValue raw ++ str "\"") =
      (present labelKeys labels.get?).map fun p =>
        p.1 ++ str "=\"" ++ escapeLabelValue p.2 ++ str "\"" := by
    unfold present
    rw [List.map_filterMap]
    simp only [Option.map_map]
    rfl
  unfold seriesKey writeLabels
  simp only [hparts, List.length_map]

/-- The labels of a name that is read, up to the quote behind the last value. -/
theorem read_labels {name : Str} {p : Str × Str} {pairs : List (Str × Str)}
    (hname : isMetricName name = true) (hpairs : ∀ q ∈ p :: pairs, isMetricName q.1 = true) :
    (name ++ (str "\x7b" ++ join (str ",") ((p :: pairs).map fun p =>
      p.1 ++ str "=\"" ++ escapeLabelValue p.2 ++ str "\""))).foldl Reading.next (.name []) =
        .closed name (p :: pairs) := by
  rw [List.forall_mem_cons] at hpairs
  have hrest : ∀ q ∈ pairs, ∀ u ∈ q.1, isNamePart u = true :=
    fun q hq => all_of_isMetricName (hpairs.2 q hq)
  have hopen : (str "\x7b").foldl Reading.next (.name name) = .key name [] [] := rfl
  rw [List.map_cons, join_cons, List.flatMap_map, List.foldl_append, List.foldl_append,
    List.foldl_append, read_name (all_of_isMetricName hname), List.nil_append, hopen,
    read_part (all_of_isMetricName hpairs.1), read_rest hrest]
  rfl

/-- What stands behind the space of a line is its number, up to a line feed. -/
theorem read_number {name t text : Str} {ls : List (Str × Str)} (htext : newline ∉ text) :
    text.foldl Reading.next (.number name ls t) = .number name ls (t ++ text) := by
  induction text generalizing t with
  | nil => simp
  | cons u text ih =>
    rw [List.mem_cons, not_or] at htext
    have hnext : (Reading.number name ls t).next u = .number name ls (t ++ [u]) := by
      simp [Reading.next, Ne.symm htext.1]
    rw [List.foldl_cons, hnext, ih htext.2, List.append_assoc]
    rfl

/-- Written labels are read back as they were. -/
theorem readSample_writeLabels {name text : Str} {pairs : List (Str × Str)}
    (hname : isMetricName name = true) (htext : newline ∉ text)
    (hpairs : ∀ p ∈ pairs, isMetricName p.1 = true) :
    readSample (name ++ writeLabels pairs ++ str " " ++ text) = some (name, pairs, text) := by
  have hread : (name ++ writeLabels pairs ++ str " ").foldl Reading.next (.name []) =
      .number name pairs [] := by
    cases pairs with
    | nil =>
      have hspace : (str " ").foldl Reading.next (.name name) = .number name [] [] := rfl
      have hnil : writeLabels [] = [] := rfl
      rw [hnil, List.append_nil, List.foldl_append, read_name (all_of_isMetricName hname),
        List.nil_append, hspace]
    | cons p pairs =>
      have hend : ∀ ls, (str "\x7d" ++ str " ").foldl Reading.next (.closed name ls) =
          .number name ls [] := fun _ => rfl
      unfold writeLabels
      rw [if_neg (by simp), ← List.append_assoc name, List.append_assoc (name ++ _),
        List.foldl_append, read_labels hname hpairs, hend]
  unfold readSample
  rw [List.foldl_append, hread, read_number htext, List.nil_append]

/-! ## Series are separated -/

/-- What is wanted of the keys of a metric with these labels: a key tells which of the declared
labels were given, and with which values, it holds no line feed, and a line with it is read back. -/
structure Separates (labelKeys : List Str) : Prop where
  key_iff : ∀ a b, seriesKey labelKeys a = seriesKey labelKeys b ↔
    ∀ key ∈ labelKeys, a.own key = b.own key
  no_newline : ∀ labels, newline ∉ seriesKey labelKeys labels
  reads : ∀ name labels text, isMetricName name = true → newline ∉ text →
    readSample (name ++ seriesKey labelKeys labels ++ str " " ++ text) =
      some (name, present labelKeys labels.own, text)

section

variable {labelKeys : List Str}

/-- The labels that are present are those of the definition that have a value. -/
theorem mem_present {get? : Str → Option Str} {key value : Str} :
    (key, value) ∈ present labelKeys get? ↔ key ∈ labelKeys ∧ get? key = some value := by
  unfold present
  rw [List.mem_filterMap]
  constructor
  · rintro ⟨k, hk, heq⟩
    obtain ⟨v, hv, hpair⟩ := Option.map_eq_some_iff.mp heq
    obtain ⟨rfl, rfl⟩ := Prod.mk.inj hpair
    exact ⟨hk, hv⟩
  · rintro ⟨hk, hv⟩
    exact ⟨key, hk, by rw [hv]; rfl⟩

/-- The present labels tell the value of every declared label. -/
theorem present_inj {f g : Str → Option Str} :
    present labelKeys f = present labelKeys g ↔ ∀ key ∈ labelKeys, f key = g key := by
  constructor
  · intro h key hkey
    apply Option.ext
    intro value
    have hf : (key, value) ∈ present labelKeys f ↔ f key = some value := by
      rw [mem_present, and_iff_right hkey]
    have hg : (key, value) ∈ present labelKeys g ↔ g key = some value := by
      rw [mem_present, and_iff_right hkey]
    rw [← hf, ← hg, h]
  · intro h
    exact List.filterMap_congr fun key hkey => by rw [h key hkey]

/-- The names of the present labels are declared. -/
theorem isMetricName_of_present (hkeys : ∀ key ∈ labelKeys, isMetricName key = true)
    {get? : Str → Option Str} : ∀ p ∈ present labelKeys get?, isMetricName p.1 = true := by
  rintro ⟨key, value⟩ hp
  exact hkeys key (mem_present.mp hp).1

/-- A key holds no line feed. -/
theorem newline_not_mem_seriesKey (hkeys : ∀ key ∈ labelKeys, isMetricName key = true)
    (labels : Labels) : newline ∉ seriesKey labelKeys labels := by
  rw [seriesKey_eq]
  unfold writeLabels
  split
  · exact List.not_mem_nil
  · next hne =>
    have hpart : ∀ p ∈ present labelKeys labels.get?,
        newline ∉ p.1 ++ str "=\"" ++ escapeLabelValue p.2 ++ str "\"" := by
      -- A label is a name, and a value whose line breaks are escaped.
      intro p hp hmem
      simp only [List.mem_append] at hmem
      rcases hmem with ((hmem | hmem) | hmem) | hmem
      · have hunit := all_of_isMetricName (isMetricName_of_present hkeys p hp) _ hmem
        exact (ne_of_isNamePart hunit).2.2.2 rfl
      · exact absurd hmem (by decide)
      · exact newline_not_mem_escapeLabelValue _ hmem
      · exact absurd hmem (by decide)
    cases hpairs : present labelKeys labels.get? with
    | nil => exact absurd (congrArg List.length hpairs) hne
    | cons p pairs =>
      rw [hpairs, List.forall_mem_cons] at hpart
      rw [List.map_cons, join_cons, List.mem_append, List.mem_append, List.mem_append,
        List.mem_flatMap]
      rintro ((hmem | hmem | ⟨part, hpart', hmem⟩) | hmem)
      · exact absurd hmem (by decide)
      · exact hpart.1 hmem
      · obtain ⟨q, hq, rfl⟩ := List.mem_map.mp hpart'
        rcases List.mem_append.mp hmem with hmem | hmem
        · exact absurd hmem (by decide)
        · exact hpart.2 q hq hmem
      · exact absurd hmem (by decide)

/-- Keys are equal exactly if the labels that are read are. -/
theorem seriesKey_inj (hkeys : ∀ key ∈ labelKeys, isMetricName key = true) (a b : Labels) :
    seriesKey labelKeys a = seriesKey labelKeys b ↔ ∀ key ∈ labelKeys, a.get? key = b.get? key := by
  rw [← present_inj, seriesKey_eq, seriesKey_eq]
  constructor
  · intro h
    have hread : ∀ labels : Labels, readSample (str "x" ++
        writeLabels (present labelKeys labels.get?) ++ str " " ++ []) =
          some (str "x", present labelKeys labels.get?, []) := fun labels =>
      readSample_writeLabels (by decide) List.not_mem_nil (isMetricName_of_present hkeys)
    have hboth := (hread a).symm.trans ((congrArg (fun key => readSample (str "x" ++ key ++
      str " " ++ [])) h).trans (hread b))
    exact (Prod.mk.inj (Prod.mk.inj (Option.some.inj hboth)).2).1
  · exact fun h => by rw [h]

/-- A label that no object inherits is read as the object has it. -/
theorem get?_eq_own {key : Str} (h : inherited key = none) (labels : Labels) :
    labels.get? key = labels.own key := by
  unfold Labels.get?
  rw [h, Option.or_none]

/-- The series of a metric are kept apart exactly if none of its labels has the name of something
that every object inherits. -/
theorem seriesKey_separates_iff (hkeys : ∀ key ∈ labelKeys, isMetricName key = true) :
    Separates labelKeys ↔ ∀ key ∈ labelKeys, inherited key = none := by
  constructor
  · intro h key hkey
    by_contra hsome
    obtain ⟨value, hvalue⟩ := Option.ne_none_iff_exists'.mp hsome
    -- An object without the label is read as one whose label is what the other inherits.
    have hread : ∀ k ∈ labelKeys, Labels.get? ⟨fun _ => none⟩ k =
        Labels.get? ⟨fun k' => if k' = key then some value else none⟩ k := by
      intro k _
      unfold Labels.get?
      by_cases hk : k = key
      · subst hk
        simp [hvalue]
      · simp [hk]
    have hown := (h.key_iff _ _).mp ((seriesKey_inj hkeys _ _).mpr hread) key hkey
    simp at hown
  · intro h
    have hget : ∀ (labels : Labels), ∀ key ∈ labelKeys, labels.get? key = labels.own key :=
      fun labels key hkey => get?_eq_own (h key hkey) labels
    constructor
    · intro a b
      rw [seriesKey_inj hkeys]
      constructor
      · intro heq key hkey
        rw [← hget a key hkey, ← hget b key hkey]
        exact heq key hkey
      · intro heq key hkey
        rw [hget a key hkey, hget b key hkey]
        exact heq key hkey
    · exact newline_not_mem_seriesKey hkeys
    · intro name labels text hname htext
      rw [seriesKey_eq, present_inj.mpr (hget labels)]
      exact readSample_writeLabels hname htext (isMetricName_of_present hkeys)

end

/-- The labels of `http_requests_total`. -/
theorem seriesKey_separates_iff_http :
    Separates [str "method", str "route", str "status"] :=
  (seriesKey_separates_iff (by decide)).mpr (by decide)

/-- A metric that declares the label `constructor` merges the series without labels with the series
of one value of the label. -/
theorem seriesKey_merges_constructor :
    isMetricName (str "constructor") = true ∧
      seriesKey [str "constructor"] ⟨fun _ => none⟩ =
        seriesKey [str "constructor"] ⟨fun _ => some (nativeCode "Object")⟩ ∧
      ¬Separates [str "constructor"] := by
  have hkey : seriesKey [str "constructor"] ⟨fun _ => none⟩ =
      seriesKey [str "constructor"] ⟨fun _ => some (nativeCode "Object")⟩ := by decide
  refine ⟨by decide, hkey, fun h => ?_⟩
  have hown := (h.key_iff _ _).mp hkey (str "constructor") List.mem_cons_self
  cases hown

end SplitBill.Metrics
