import LightWaf.ControlPlane.LatencyTotals
import LightWaf.Crs.LexerRoundTrip
import LightWaf.Proxy.Exposition
import LightWaf.Schema.ApiSchema
import LightWaf.Theory.StableSort

/-!
# Reading the metrics of a node

The embedding of the parsers of `waf-controlplane/src/prometheus.rs`.  They
read back what a node renders: of the decisions and of the histogram, every
count that fits into the 64-bit type of the table, and nothing else.
-/

namespace LightWaf.ControlPlane.Prometheus

open LightWaf.Rust
open LightWaf.Proxy
open LightWaf.Schema
open LightWaf.Theory.StableSort

/-! ## The parsers -/

/-- The loop of `label_value`: what stands before the closing quote. -/
def quoted : Text → Option Text
  | [] => none
  | char :: rest =>
      if char = '\x5c' then
        match rest with
        | [] => none
        | escaped :: rest =>
            (quoted rest).map ((if escaped = 'n' then '\n' else escaped) :: ·)
      else if char = '\x22' then some []
      else (quoted rest).map (char :: ·)

/-- `label_value`. -/
def labelValue (labels name : Text) : Option Text := do
  let (_, tail) ← findSplit (name ++ ['=', '\x22']) labels
  quoted tail

/-- The body of both loops: the label and the count of a sample of a metric. -/
def sample (metric name : Text) (line : Text) : Option (Text × Int) :=
  let line := trim line
  if line.isEmpty || line.head? == some '#' then none
  else do
    let rest ← stripPrefix (metric ++ ['\x7b']) line
    let (labels, value) ← findSplit ['\x7d'] rest
    let label ← labelValue labels name
    let count ← parseI64 (trim value)
    some (label, count)

/-- `DecisionCount`. -/
structure DecisionCount where
  decision : Text
  count : Int
deriving DecidableEq

/-- `parse_requests_total`. -/
def parseRequestsTotal (text : Text) : List DecisionCount :=
  (lines text).filterMap fun line =>
    (sample requestsMetric "decision".toList line).map fun (decision, count) =>
      ⟨decision, count⟩

/--
The numbers that bounds are read as.  `parse` leaves out what is no number,
the value `NaN` included.
-/
structure Bounds (Le : Type) where
  infinity : Le
  parse : Text → Option Le

/-- The bound of a label. -/
def Bounds.le {Le : Type} (bounds : Bounds Le) (label : Text) : Option Le :=
  if label = "+Inf".toList then some bounds.infinity else bounds.parse label

/-- `parse_latency_buckets`. -/
def parseLatencyBuckets {Le : Type} [LinearOrder Le] (bounds : Bounds Le)
    (text : Text) : List (LatencyBucket Le) :=
  sortByKey LatencyBucket.le <| (lines text).filterMap fun line => do
    let (label, count) ← sample bucketMetric "le".toList line
    let le ← bounds.le label
    some ⟨le, count⟩

/-! ## Numbers -/

theorem toDigit_digitChar {digit : Nat} (small : digit < 10) :
    toDigit 10 (Nat.digitChar digit) = some digit := by
  interval_cases digit <;> rfl

/-- The digits of a number are read back, unless it is out of bounds. -/
theorem parseDigits_toDigits {bound : Nat} (number : Nat) :
    parseDigits 10 bound (Nat.toDigits 10 number) =
      if number < bound then some number else none := by
  induction number using Nat.strong_induction_on with
  | _ number induction =>
      rw [Nat.toDigits_eq_if (by decide)]
      split
      · rename_i small
        simp [parseDigits, toDigit_digitChar small]
      · rename_i large
        have high := induction (number / 10) (by omega)
        have last := toDigit_digitChar (Nat.mod_lt number (by decide : 10 > 0))
        have whole : number / 10 * 10 + number % 10 = number := by omega
        rw [parseDigits] at high
        rw [parseDigits, List.foldlM_append, high]
        by_cases fits : number / 10 < bound
        · simp [fits, last, whole]
        · have beyond : ¬ number < bound := by omega
          simp [fits, beyond]

theorem isDigit_of_mem_toDigits
    {number : Nat} {char : Char} (member : char ∈ Nat.toDigits 10 number) :
    char.isDigit = true :=
  Nat.isDigit_of_mem_toDigits (by decide) (by decide) member

theorem parseI64_toDigits (number : Nat) :
    parseI64 (Nat.toDigits 10 number) =
      if number < 2 ^ 63 then some (number : Int) else none := by
  have digits : ∀ char ∈ Nat.toDigits 10 number, char.isDigit = true :=
    fun char member => isDigit_of_mem_toDigits member
  have read := @parseDigits_toDigits (2 ^ 63) number
  obtain ⟨head, rest, written⟩ :=
    List.exists_cons_of_ne_nil (@Nat.toDigits_ne_nil number 10)
  rw [written] at digits read ⊢
  have noMinus : head ≠ '-' := by
    rintro rfl
    exact absurd (digits _ List.mem_cons_self) (by decide)
  have noPlus : head ≠ '+' := by
    rintro rfl
    exact absurd (digits _ List.mem_cons_self) (by decide)
  have unsigned : fromStrRadix 10 (2 ^ 63) (head :: rest) =
      parseDigits 10 (2 ^ 63) (head :: rest) := by
    rw [fromStrRadix.eq_def]
    split <;> simp_all
  rw [parseI64.eq_def]
  split
  · simp_all
  · simp_all
  · rw [unsigned, read]
    split_ifs <;> rfl

/-! ## One line -/

theorem quoted_append
    {value : Text} (plain : '\x5c' ∉ value) (unclosed : '\x22' ∉ value)
    (rest : Text) :
    quoted (value ++ '\x22' :: rest) = some value := by
  induction value with
  | nil =>
      rw [List.nil_append, quoted.eq_def]
      rfl
  | cons char value induction =>
      rw [List.mem_cons, not_or] at plain unclosed
      rw [List.cons_append, quoted.eq_def]
      simp only [if_neg (Ne.symm plain.1), if_neg (Ne.symm unclosed.1)]
      rw [induction plain.2 unclosed.2]
      rfl

/-- The block of labels of a sample with one label. -/
def labelBlock (name value : Text) : Text :=
  name ++ '=' :: '\x22' :: (value ++ ['\x22'])

/-- A label without quotes and backslashes is read back. -/
theorem labelValue_eq
    {name value : Text} (named : name ≠ []) (plain : '\x5c' ∉ value)
    (unclosed : '\x22' ∉ value) :
    labelValue (labelBlock name value) name = some value := by
  obtain ⟨first, others, rfl⟩ := List.exists_cons_of_ne_nil named
  have found := findSplit_prefix first (others ++ ['=', '\x22'])
    (value ++ ['\x22'])
  rw [labelValue, labelBlock]
  simp only [List.cons_append, List.append_assoc, List.nil_append] at found ⊢
  rw [found]
  exact quoted_append plain unclosed []

theorem isWhitespace_of_isDigit
    {char : Char} (digit : char.isDigit = true) :
    isWhitespace char = false := by
  have range : 48 ≤ char.toNat ∧ char.toNat ≤ 57 := by
    rw [Char.isDigit, Bool.and_eq_true, decide_eq_true_eq,
      decide_eq_true_eq] at digit
    exact digit
  simp only [isWhitespace, Bool.or_eq_false_iff, Bool.and_eq_false_iff,
    decide_eq_false_iff_not, beq_eq_false_iff_ne]
  omega

theorem visible_of_getLast_toDigits
    {number : Nat} {char : Char}
    (last : char ∈ (Nat.toDigits 10 number).getLast?) :
    isWhitespace char = false :=
  isWhitespace_of_isDigit
    (isDigit_of_mem_toDigits (List.mem_of_mem_getLast? last))

theorem trim_blank_toDigits (number : Nat) :
    trim (' ' :: Nat.toDigits 10 number) = Nat.toDigits 10 number := by
  have inner : trim (Nat.toDigits 10 number) = Nat.toDigits 10 number :=
    trim_eq_self
      (fun char first => isWhitespace_of_isDigit
        (isDigit_of_mem_toDigits (List.mem_of_mem_head? first)))
      fun char last => visible_of_getLast_toDigits last
  rw [trim, trimStart, List.dropWhile_cons_of_pos (by decide)]
  exact inner

theorem sampleLine_eq (metric name value : Text) (count : Nat) :
    sampleLine metric name value count =
      (metric ++ ['\x7b']) ++
        (labelBlock name value ++ '\x7d' :: ' ' :: Nat.toDigits 10 count) := by
  simp [sampleLine, labelBlock]

/-- A label without any character that its surroundings make special. -/
def readable (value : Text) : Bool :=
  value.all (· ∉ ['\x5c', '\x22', '\x7d', '\n'])

theorem not_mem_of_readable
    {value : Text} (plain : readable value = true) {char : Char}
    (special : char ∈ ['\x5c', '\x22', '\x7d', '\n']) : char ∉ value := by
  intro member
  exact of_decide_eq_true (List.all_eq_true.mp plain char member) special

/-- A sample is read back, unless its count is out of bounds. -/
theorem sample_sampleLine
    {first : Char} {others name value : Text}
    (visible : isWhitespace first = false) (other : first ≠ '#')
    (named : name ≠ []) (closed : '\x7d' ∉ name)
    (plain : readable value = true) (count : Nat) :
    sample (first :: others) name
        (sampleLine (first :: others) name value count) =
      if count < 2 ^ 63 then some (value, (count : Int)) else none := by
  have block : '\x7d' ∉ labelBlock name value := by
    simp [labelBlock, closed, not_mem_of_readable plain]
  have kept : trim (sampleLine (first :: others) name value count) =
      sampleLine (first :: others) name value count := by
    refine trim_eq_self ?_ ?_
    · rintro char ⟨⟩
      exact visible
    · intro char last
      rw [sampleLine_eq, List.getLast?_append_of_ne_nil _ (by simp),
        List.getLast?_append_of_ne_nil _ (by simp),
        List.getLast?_cons_of_ne_nil (by simp),
        List.getLast?_cons_of_ne_nil Nat.toDigits_ne_nil] at last
      exact visible_of_getLast_toDigits last
  have starts : ((sampleLine (first :: others) name value count).isEmpty ||
      (sampleLine (first :: others) name value count).head? == some '#') =
      false := by
    simp [sampleLine, other]
  rw [sample]
  simp only [kept, starts]
  rw [sampleLine_eq, stripPrefix_append]
  simp only [Bool.false_eq_true, if_false, Option.bind_eq_bind,
    Option.bind_some, findSplit_single block,
    labelValue_eq named (not_mem_of_readable plain (by simp))
      (not_mem_of_readable plain (by simp)),
    trim_blank_toDigits, parseI64_toDigits]
  split_ifs <;> rfl

/-- A line that starts in another way is no sample of a metric. -/
theorem sample_eq_none
    {metric name lead : Text} (rest : Text)
    (starts : ∀ char ∈ lead.head?, isWhitespace char = false)
    (ends : ∀ char ∈ lead.getLast?, isWhitespace char = false)
    (shorter : ¬ lead <+: metric ++ ['\x7b'])
    (longer : ¬ metric ++ ['\x7b'] <+: lead) :
    sample metric name (lead ++ rest) = none := by
  have front : trimStart (lead ++ rest) = lead ++ rest := by
    cases lead with
    | nil => exact absurd List.nil_prefix shorter
    | cons head tail =>
        exact List.dropWhile_cons_of_neg (by simp [starts head rfl])
  obtain ⟨tail, kept⟩ := rdropWhile_append_of_last isWhitespace lead rest ends
  have trimmed : trim (lead ++ rest) = lead ++ tail := by
    rw [trim, front, kept]
  have refused : stripPrefix (metric ++ ['\x7b']) (lead ++ tail) = none := by
    rw [stripPrefix, if_neg]
    intro found
    have whole := List.isPrefixOf_iff_prefix.mp found
    rcases List.prefix_or_prefix_of_prefix whole
      (List.prefix_append lead tail) with inside | outside
    · exact longer inside
    · exact shorter outside
  rw [sample]
  simp only [trimmed, refused]
  split_ifs <;> rfl

/-- A line that is written in one piece. -/
def single (line : Text) : Bool :=
  !line.contains '\n' && line.getLast? != some '\r'

theorem lines_flatMap
    {written : List Text} (each : ∀ line ∈ written, single line = true) :
    lines (written.flatMap (· ++ ['\n'])) = written := by
  induction written with
  | nil => rfl
  | cons line rest induction =>
      have one := each line List.mem_cons_self
      rw [single, Bool.and_eq_true] at one
      obtain ⟨kept, rfl | removed, split⟩ :=
        @Crs.lines_ending line (some (rest.flatMap (· ++ ['\n'])))
          (by simpa using one.1) (by simp [Crs.ending])
      · have tail := induction fun other member =>
          each other (List.mem_cons_of_mem _ member)
        rw [Crs.ending, Crs.following, tail] at split
        rw [List.flatMap_cons, List.append_assoc]
        exact split
      · rw [removed] at one
        simp at one

/-- The start of a line that no sample of a metric has. -/
def foreign (metric lead : Text) : Bool :=
  lead.head?.all (!isWhitespace ·) && lead.getLast?.all (!isWhitespace ·) &&
    !lead.isPrefixOf (metric ++ ['\x7b']) &&
    !(metric ++ ['\x7b']).isPrefixOf lead

theorem sample_of_foreign
    {metric lead : Text} (differs : foreign metric lead = true)
    (name rest : Text) : sample metric name (lead ++ rest) = none := by
  rw [foreign, Bool.and_eq_true, Bool.and_eq_true, Bool.and_eq_true] at differs
  obtain ⟨⟨⟨starts, ends⟩, shorter⟩, longer⟩ := differs
  refine sample_eq_none rest ?_ ?_ ?_ ?_
  · intro char first
    rw [Option.mem_def.mp first] at starts
    simpa using starts
  · intro char last
    rw [Option.mem_def.mp last] at ends
    simpa using ends
  · intro inside
    rw [List.isPrefixOf_iff_prefix.mpr inside] at shorter
    exact absurd shorter (by decide)
  · intro inside
    rw [List.isPrefixOf_iff_prefix.mpr inside] at longer
    exact absurd longer (by decide)

/-! ## The whole text -/

/-- The samples of a metric in a text. -/
def samples (metric name text : Text) : List (Text × Int) :=
  (lines text).filterMap (sample metric name)

theorem parseRequestsTotal_eq (text : Text) :
    parseRequestsTotal text =
      (samples requestsMetric "decision".toList text).map
        fun pair => ⟨pair.1, pair.2⟩ :=
  List.map_filterMap.symm

theorem parseLatencyBuckets_eq
    {Le : Type} [LinearOrder Le] (bounds : Bounds Le) (text : Text) :
    parseLatencyBuckets bounds text =
      sortByKey LatencyBucket.le
        ((samples bucketMetric "le".toList text).filterMap fun pair =>
          (bounds.le pair.1).map (⟨·, pair.2⟩)) := by
  rw [parseLatencyBuckets, samples, List.filterMap_filterMap]
  congr 2
  funext line
  cases sample bucketMetric "le".toList line with
  | none => rfl
  | some pair =>
      simp only [Option.bind_eq_bind, Option.bind_some]
      cases bounds.le pair.1 <;> rfl

/-- The counts that the table can hold. -/
def within (written : List (Text × Nat)) : List (Text × Int) :=
  (written.filter fun pair => pair.2 < 2 ^ 63).map
    fun pair => (pair.1, (pair.2 : Int))

/-- The samples of a metric are read back where they stand. -/
theorem filterMap_sample_map
    {first : Char} {others name : Text}
    (visible : isWhitespace first = false) (other : first ≠ '#')
    (named : name ≠ []) (closed : '\x7d' ∉ name)
    {written : List (Text × Nat)}
    (plain : ∀ pair ∈ written, readable pair.1 = true) :
    (written.map fun pair =>
        sampleLine (first :: others) name pair.1 pair.2).filterMap
        (sample (first :: others) name) = within written := by
  induction written with
  | nil => rfl
  | cons pair rest induction =>
      have tail := induction fun later member =>
        plain later (List.mem_cons_of_mem _ member)
      rw [List.map_cons, List.filterMap_cons, tail,
        sample_sampleLine visible other named closed
          (plain pair List.mem_cons_self)]
      by_cases fits : pair.2 < 2 ^ 63
      · simp only [if_pos fits, within, List.filter_cons,
          decide_eq_true fits, List.map_cons, if_true]
      · simp only [if_neg fits, within, List.filter_cons,
          decide_eq_false fits, Bool.false_eq_true, if_false]

/-- Lines of another metric hold no sample. -/
theorem filterMap_sample_foreign
    {metric other : Text} (differs : foreign metric other = true)
    (name label : Text) (written : List (Text × Nat)) :
    (written.map fun pair =>
        sampleLine other label pair.1 pair.2).filterMap
        (sample metric name) = [] := by
  rw [List.filterMap_eq_nil_iff]
  intro line member
  obtain ⟨pair, -, rfl⟩ := List.mem_map.mp member
  exact sample_of_foreign differs name _

theorem fixed_lines :
    (leadingLines ++ histogramLines).all (fun line => single line &&
      foreign requestsMetric line && foreign bucketMetric line) = true := by
  unfold requestsMetric bucketMetric leadingLines histogramLines packageVersion
  simp only [String.reduceToList]
  simp [foreign, isWhitespace, single, List.isPrefixOf]

theorem foreign_metrics :
    foreign requestsMetric bucketMetric = true ∧
      foreign bucketMetric requestsMetric = true ∧
      foreign requestsMetric sumMetric = true ∧
      foreign bucketMetric sumMetric = true ∧
      foreign requestsMetric countMetric = true ∧
      foreign bucketMetric countMetric = true := by
  unfold requestsMetric bucketMetric sumMetric countMetric
  simp only [String.reduceToList]
  simp [foreign, isWhitespace, List.isPrefixOf]

/-- The samples of the decisions, in the order they are written. -/
def requestSamples (text : Rendered) : List (Text × Nat) :=
  text.requests.map fun (label, count) => (label, count.toNat)

/-- The samples of the histogram, in the order they are written. -/
def bucketSamples (text : Rendered) : List (Text × Nat) :=
  (text.buckets ++ [("+Inf".toList, text.inf)]).map
    fun (bound, count) => (bound, count.toNat)

/-- The lines of a text as they fall to the two parsers. -/
theorem renderLines_eq (seconds : Nat → Text) (text : Rendered) :
    renderLines seconds text =
      leadingLines ++
        ((requestSamples text).map fun pair =>
          sampleLine requestsMetric "decision".toList pair.1 pair.2) ++
        histogramLines ++
        ((bucketSamples text).map fun pair =>
          sampleLine bucketMetric "le".toList pair.1 pair.2) ++
        [sumMetric ++ ' ' :: seconds text.sumNanos.toNat,
          countMetric ++ ' ' :: Nat.toDigits 10 text.count.toNat] := by
  simp [renderLines, requestSamples, bucketSamples, Function.comp_def]

theorem readable_label (outcome : Proxy.Outcome) :
    readable outcome.label = true := by
  cases outcome <;> unfold Outcome.label <;>
    simp only [String.reduceToList] <;> simp [readable]

theorem readable_bounds :
    ∀ label ∈ bucketLabels ++ ["+Inf".toList], readable label = true := by
  rw [← List.all_eq_true]
  unfold bucketLabels
  simp only [String.reduceToList]
  simp [readable]

theorem single_append
    {lead rest : Text} (front : '\n' ∉ lead) (back : '\n' ∉ rest)
    {last : Char} (ends : rest.getLast? = some last) (other : last ≠ '\r') :
    single (lead ++ rest) = true := by
  have some : rest ≠ [] := by
    rintro rfl
    cases ends
  rw [single, List.getLast?_append_of_ne_nil _ some, ends]
  simp [front, back, other]

/-- The digits behind a text end its line. -/
theorem single_toDigits
    {lead : Text} (front : '\n' ∉ lead) (count : Nat) :
    single (lead ++ Nat.toDigits 10 count) = true := by
  have digits : ∀ char ∈ Nat.toDigits 10 count, char.isDigit = true :=
    fun char member => isDigit_of_mem_toDigits member
  refine single_append front (fun inside => ?_)
    (List.getLast?_eq_getLast_of_ne_nil Nat.toDigits_ne_nil) fun last => ?_
  · exact absurd (digits _ inside) (by decide)
  · have digit := digits _ (List.getLast_mem Nat.toDigits_ne_nil)
    rw [last] at digit
    exact absurd digit (by decide)

/-- The metrics and label names hold no end of a line. -/
theorem inline_names :
    ∀ name ∈ [requestsMetric, bucketMetric, sumMetric, countMetric,
      "decision".toList, "le".toList], '\n' ∉ name := by
  unfold requestsMetric bucketMetric sumMetric countMetric
  simp only [String.reduceToList]
  simp

theorem single_sampleLine
    {metric name value : Text} (metricLine : '\n' ∉ metric)
    (nameLine : '\n' ∉ name) (plain : readable value = true) (count : Nat) :
    single (sampleLine metric name value count) = true := by
  have inline := @not_mem_of_readable value plain '\n' (by simp)
  have split : sampleLine metric name value count =
      (metric ++ '\x7b' :: (name ++ '=' :: '\x22' :: (value ++
        ['\x22', '\x7d', ' ']))) ++ Nat.toDigits 10 count := by
    simp [sampleLine]
  rw [split]
  refine single_toDigits ?_ count
  simp [metricLine, nameLine, inline]

section RoundTrip

variable {build : Build} {seconds : Nat → Text} {loaded : Counter → UInt64}
variable {text : Rendered}

/-- The sum of the buckets up to one, as it is written. -/
def cumulative (loaded : Counter → UInt64) (index : Nat) : Nat :=
  (((loadedBuckets loaded).take (index + 1)).map UInt64.toNat).sum % 2 ^ 64

/-- The samples of the decisions are the counters that were loaded. -/
theorem requestSamples_eq (made : rendered build loaded = some text) :
    requestSamples text = Outcome.all.map fun outcome =>
      (outcome.label, (loaded (.request outcome)).toNat) := by
  obtain ⟨totals, -, rfl⟩ := Option.map_eq_some_iff.mp made
  rw [requestSamples, List.map_map]
  rfl

/-- The samples of the histogram are the sums, and the total last. -/
theorem bucketSamples_eq_zip (made : rendered build loaded = some text) :
    bucketSamples text =
      (bucketLabels ++ ["+Inf".toList]).zip
        ((List.range bucketBounds.length).map (cumulative loaded) ++
          [(loaded .count).toNat]) := by
  obtain ⟨totals, cumulated, rfl⟩ := Option.map_eq_some_iff.mp made
  have size := length_cumulate cumulated
  rw [cumulate_eq, Option.ite_none_left_eq_some] at cumulated
  have values : totals.map UInt64.toNat =
      (List.range bucketBounds.length).map (cumulative loaded) := by
    have length : (loadedBuckets loaded).length = bucketBounds.length := by
      rw [loadedBuckets, List.length_map, List.length_range]
    rw [← Option.some.inj cumulated.2, sumsFrom, List.map_map, length]
    refine List.map_congr_left fun index _ => ?_
    rw [Function.comp_apply, UInt64.toNat_ofNat', UInt64.toNat_zero,
      Nat.zero_add]
    rfl
  rw [← values, List.zip_append, bucketSamples, List.map_append,
    List.zip_map_right]
  · rfl
  · rw [List.length_map, size]
    rfl

theorem readable_requests (made : rendered build loaded = some text) :
    ∀ pair ∈ requestSamples text, readable pair.1 = true := by
  intro pair member
  rw [requestSamples_eq made] at member
  obtain ⟨outcome, -, rfl⟩ := List.mem_map.mp member
  exact readable_label outcome

theorem readable_bucketSamples (made : rendered build loaded = some text) :
    ∀ pair ∈ bucketSamples text, readable pair.1 = true := by
  intro pair member
  rw [bucketSamples_eq_zip made] at member
  exact readable_bounds pair.1 (List.of_mem_zip member).1

/-- A number of seconds is written with digits and a decimal point. -/
def Decimal (seconds : Nat → Text) : Prop :=
  ∀ nanos, ∀ char ∈ seconds nanos, char.isDigit = true ∨ char = '.'

theorem single_seconds
    (decimal : Decimal seconds) {metric : Text} (inline : '\n' ∉ metric)
    (nanos : Nat) : single (metric ++ ' ' :: seconds nanos) = true := by
  have written : ∀ char ∈ ' ' :: seconds nanos,
      char ≠ '\n' ∧ char ≠ '\r' := by
    intro char member
    rcases List.mem_cons.mp member with rfl | member
    · decide
    · rcases decimal nanos char member with digit | rfl
      · constructor <;> rintro rfl <;> exact absurd digit (by decide)
      · decide
  refine single_append inline (fun inside => (written _ inside).1 rfl)
    (List.getLast?_eq_getLast_of_ne_nil (List.cons_ne_nil _ _)) ?_
  exact (written _ (List.getLast_mem (List.cons_ne_nil _ _))).2

theorem lines_render
    (decimal : Decimal seconds) (made : rendered build loaded = some text) :
    lines ((renderLines seconds text).flatMap (· ++ ['\n'])) =
      renderLines seconds text := by
  refine lines_flatMap fun line member => ?_
  have fixed := List.all_eq_true.mp fixed_lines line
  simp only [Bool.and_eq_true] at fixed
  simp only [renderLines_eq, List.mem_append, List.mem_map, List.mem_cons,
    List.not_mem_nil, or_false] at member fixed
  rcases member with (((leading | ⟨pair, inside, rfl⟩) | middle) |
    ⟨pair, inside, rfl⟩) | rfl | rfl
  · exact (fixed (.inl leading)).1.1
  · exact single_sampleLine (inline_names _ (by simp))
      (inline_names _ (by simp)) (readable_requests made pair inside) _
  · exact (fixed (.inr middle)).1.1
  · exact single_sampleLine (inline_names _ (by simp))
      (inline_names _ (by simp)) (readable_bucketSamples made pair inside) _
  · exact single_seconds decimal (inline_names _ (by simp)) _
  · have inline : '\n' ∉ countMetric ++ [' '] := by
      rw [List.mem_append, not_or]
      exact ⟨inline_names _ (by simp), by decide⟩
    have split : countMetric ++ ' ' :: Nat.toDigits 10 text.count.toNat =
        (countMetric ++ [' ']) ++ Nat.toDigits 10 text.count.toNat := by
      simp
    rw [split]
    exact single_toDigits inline _

theorem metrics_eq :
    (∃ others, requestsMetric = 'w' :: others) ∧
      ∃ others, bucketMetric = 'w' :: others := by
  unfold requestsMetric bucketMetric
  simp only [String.reduceToList]
  exact ⟨⟨_, rfl⟩, _, rfl⟩

theorem names_readable :
    ("decision".toList ≠ [] ∧ '\x7d' ∉ "decision".toList) ∧
      "le".toList ≠ [] ∧ '\x7d' ∉ "le".toList := by
  simp only [String.reduceToList]
  simp

/-- The lines that are the same in every text hold no sample. -/
theorem filterMap_sample_fixed
    {written : List Text} (fixed : written ⊆ leadingLines ++ histogramLines)
    (name : Text) :
    written.filterMap (sample requestsMetric name) = [] ∧
      written.filterMap (sample bucketMetric name) = [] := by
  have each : ∀ line ∈ written, foreign requestsMetric line = true ∧
      foreign bucketMetric line = true := by
    intro line member
    have checked := List.all_eq_true.mp fixed_lines line (fixed member)
    simp only [Bool.and_eq_true] at checked
    exact ⟨checked.1.2, checked.2⟩
  constructor
  · rw [List.filterMap_eq_nil_iff]
    intro line member
    have none := sample_of_foreign (each line member).1 name []
    rwa [List.append_nil] at none
  · rw [List.filterMap_eq_nil_iff]
    intro line member
    have none := sample_of_foreign (each line member).2 name []
    rwa [List.append_nil] at none

/-- The samples of the decisions are those that were written. -/
theorem samples_requests
    (decimal : Decimal seconds) (made : rendered build loaded = some text) :
    samples requestsMetric "decision".toList
        ((renderLines seconds text).flatMap (· ++ ['\n'])) =
      within (requestSamples text) := by
  obtain ⟨others, starts⟩ := metrics_eq.1
  obtain ⟨buckets, -, sum, -, count, -⟩ := foreign_metrics
  have own := @filterMap_sample_map 'w' others "decision".toList (by decide)
    (by decide) names_readable.1.1 names_readable.1.2
    (requestSamples text) (readable_requests made)
  rw [← starts] at own
  rw [samples, lines_render decimal made, renderLines_eq]
  simp only [List.filterMap_append, own,
    (filterMap_sample_fixed (List.subset_append_left _ _) _).1,
    (filterMap_sample_fixed (List.subset_append_right _ _) _).1,
    filterMap_sample_foreign buckets, List.filterMap_cons,
    sample_of_foreign sum, sample_of_foreign count, List.filterMap_nil,
    List.append_nil, List.nil_append]

/-- The samples of the histogram are those that were written. -/
theorem samples_buckets
    (decimal : Decimal seconds) (made : rendered build loaded = some text) :
    samples bucketMetric "le".toList
        ((renderLines seconds text).flatMap (· ++ ['\n'])) =
      within (bucketSamples text) := by
  obtain ⟨others, starts⟩ := metrics_eq.2
  obtain ⟨-, requests, -, sum, -, count⟩ := foreign_metrics
  have own := @filterMap_sample_map 'w' others "le".toList (by decide)
    (by decide) names_readable.2.1 names_readable.2.2
    (bucketSamples text) (readable_bucketSamples made)
  rw [← starts] at own
  rw [samples, lines_render decimal made, renderLines_eq]
  simp only [List.filterMap_append, own,
    (filterMap_sample_fixed (List.subset_append_left _ _) _).2,
    (filterMap_sample_fixed (List.subset_append_right _ _) _).2,
    filterMap_sample_foreign requests, List.filterMap_cons,
    sample_of_foreign sum, sample_of_foreign count, List.filterMap_nil,
    List.append_nil, List.nil_append]

/--
The bounds are read as the numbers they were printed from, which ascend up to
infinity.
-/
structure Bounds.Read {Le : Type} [LinearOrder Le] (bounds : Bounds Le)
    (printed : List Le) : Prop where
  parsed : bucketLabels.map bounds.parse = printed.map some
  ascending : (printed ++ [bounds.infinity]).Pairwise (· ≤ ·)

/-- The counts that the table can hold, with the numbers read for them. -/
def bucketsWithin {Le : Type} (written : List (Le × Nat)) :
    List (LatencyBucket Le) :=
  (written.filter fun pair => pair.2 < 2 ^ 63).map
    fun pair => ⟨pair.1, pair.2⟩

/-- Reading the bounds leaves every count at its own. -/
theorem filterMap_within
    {Le : Type} {read : Text → Option Le} {labels : List Text}
    {printed : List Le} (parsed : labels.map read = printed.map some)
    (counts : List Nat) :
    (within (labels.zip counts)).filterMap (fun pair =>
        (read pair.1).map fun le => (⟨le, pair.2⟩ : LatencyBucket Le)) =
      bucketsWithin (printed.zip counts) := by
  induction labels generalizing printed counts with
  | nil =>
      cases printed with
      | nil => rfl
      | cons le printed => cases parsed
  | cons label labels induction =>
      cases printed with
      | nil => cases parsed
      | cons le printed =>
          rw [List.map_cons, List.map_cons, List.cons.injEq] at parsed
          cases counts with
          | nil => rfl
          | cons count counts =>
              have tail := induction parsed.2 counts
              rw [within, bucketsWithin] at tail ⊢
              rw [List.zip_cons_cons, List.zip_cons_cons]
              by_cases fits : count < 2 ^ 63
              · simp only [List.filter_cons, decide_eq_true fits, if_true,
                  List.map_cons, List.filterMap_cons, parsed.1,
                  Option.map_some, tail]
              · simp only [List.filter_cons, decide_eq_false fits,
                  Bool.false_eq_true, if_false, tail]

/-- What is in order stays as it is. -/
theorem sortByKey_bucketsWithin
    {Le : Type} [LinearOrder Le] {printed : List Le} {counts : List Nat}
    (ascending : printed.Pairwise (· ≤ ·))
    (fewer : printed.length ≤ counts.length) :
    sortByKey LatencyBucket.le (bucketsWithin (printed.zip counts)) =
      bucketsWithin (printed.zip counts) := by
  refine List.mergeSort_of_pairwise ?_
  have bounds : ((printed.zip counts).filter fun pair =>
      pair.2 < 2 ^ 63).Pairwise fun first second => first.1 ≤ second.1 := by
    refine List.Pairwise.filter _ ?_
    rw [← List.map_fst_zip fewer] at ascending
    exact List.pairwise_map.mp ascending
  rw [bucketsWithin, List.pairwise_map]
  exact bounds.imp fun smaller => decide_eq_true smaller

theorem bounds_not_infinity : "+Inf".toList ∉ bucketLabels := by
  unfold bucketLabels
  simp only [String.reduceToList]
  simp

theorem Bounds.Read.le
    {Le : Type} [LinearOrder Le] {bounds : Bounds Le} {printed : List Le}
    (read : bounds.Read printed) :
    (bucketLabels ++ ["+Inf".toList]).map bounds.le =
      (printed ++ [bounds.infinity]).map some := by
  have labels : bucketLabels.map bounds.le = bucketLabels.map bounds.parse := by
    refine List.map_congr_left fun label member => ?_
    rw [Bounds.le, if_neg]
    rintro rfl
    exact bounds_not_infinity member
  rw [List.map_append, List.map_append, labels, read.parsed, List.map_singleton,
    Bounds.le, if_pos rfl]
  rfl

/-- A text is written unless the build checks a sum that runs over. -/
theorem render_eq_none_iff
    (build : Build) (seconds : Nat → Text) (loaded : Counter → UInt64) :
    render build seconds loaded = none ↔
      build.overflowChecks = true ∧
        2 ^ 64 ≤ ((loadedBuckets loaded).map UInt64.toNat).sum := by
  rw [render, Option.map_eq_none_iff, rendered, Option.map_eq_none_iff,
    cumulate_eq, UInt64.toNat_zero, Nat.zero_add]
  split_ifs with overflow
  · exact iff_of_true rfl overflow
  · exact iff_of_false nofun overflow

theorem parseRequestsTotal_render
    (decimal : Decimal seconds) {page : Text}
    (written : render build seconds loaded = some page) :
    parseRequestsTotal page =
      (Outcome.all.filter fun outcome =>
        (loaded (.request outcome)).toNat < 2 ^ 63).map (fun outcome =>
          ⟨outcome.label, (loaded (.request outcome)).toNat⟩) := by
  obtain ⟨text, made, rfl⟩ := Option.map_eq_some_iff.mp written
  rw [parseRequestsTotal_eq, samples_requests decimal made, within,
    requestSamples_eq made, List.filter_map, List.map_map, List.map_map]
  rfl

theorem parseLatencyBuckets_render
    {Le : Type} [LinearOrder Le] {bounds : Bounds Le} {printed : List Le}
    (decimal : Decimal seconds) (read : bounds.Read printed) {page : Text}
    (written : render build seconds loaded = some page) :
    parseLatencyBuckets bounds page =
      bucketsWithin ((printed ++ [bounds.infinity]).zip
        ((List.range bucketBounds.length).map (cumulative loaded) ++
          [(loaded .count).toNat])) := by
  obtain ⟨text, made, rfl⟩ := Option.map_eq_some_iff.mp written
  rw [parseLatencyBuckets_eq, samples_buckets decimal made,
    bucketSamples_eq_zip made, filterMap_within read.le]
  refine sortByKey_bucketsWithin read.ascending ?_
  have sizes := congrArg List.length read.parsed
  rw [List.length_map, List.length_map] at sizes
  rw [List.length_append, List.length_append, List.length_map,
    List.length_range, ← sizes]
  exact le_rfl

/--
The parsers read back what a node renders: every decision with its count and
every bucket with its cumulative count, cut to 64 bits, in their order, but for
the counts that a signed 64-bit number cannot hold.  Nothing is rendered only
where the build checks the sums and they run over.
-/
theorem parse_render
    {Le : Type} [LinearOrder Le] {bounds : Bounds Le} {printed : List Le}
    (decimal : Decimal seconds) (read : bounds.Read printed) (build : Build)
    (loaded : Counter → UInt64) :
    (render build seconds loaded = none ↔
      build.overflowChecks = true ∧
        2 ^ 64 ≤ ((loadedBuckets loaded).map UInt64.toNat).sum) ∧
    ∀ page, render build seconds loaded = some page →
      parseRequestsTotal page =
          (Outcome.all.filter fun outcome =>
            (loaded (.request outcome)).toNat < 2 ^ 63).map (fun outcome =>
              ⟨outcome.label, (loaded (.request outcome)).toNat⟩) ∧
        parseLatencyBuckets bounds page =
          bucketsWithin ((printed ++ [bounds.infinity]).zip
            ((List.range bucketBounds.length).map (cumulative loaded) ++
              [(loaded .count).toNat])) := by
  refine ⟨render_eq_none_iff build seconds loaded, fun page written => ?_⟩
  exact ⟨parseRequestsTotal_render decimal written,
    parseLatencyBuckets_render decimal read written⟩

end RoundTrip

/-- Whole seconds. -/
def wholeSeconds (nanos : Nat) : Text :=
  Nat.toDigits 10 (nanos / 10 ^ 9)

/-- The bounds in ten-thousandths of a second. -/
def tenThousandths : List (WithTop Nat) :=
  [5, 10, 25, 50, 100, 250, 500, 1000, 2500, 5000, 10000, 25000, 50000, 100000]

/-- The printed bounds as they are read. -/
def printedBounds : Bounds (WithTop Nat) where
  infinity := ⊤
  parse := fun label => (bucketLabels.zip tenThousandths).lookup label

/-- A node that has let three requests of two seconds through, has counted up
to the end of the signed numbers elsewhere, and whose buckets run over. -/
def threeAllowed : Counter → UInt64
  | .request .allowed => 3
  | .request .blocked => .ofNat (2 ^ 63)
  | .request .rateLimited => .ofNat (2 ^ 63 - 1)
  | .request _ => 0
  | .bucket index =>
      if index = 11 then 3
      else if index = 12 then .ofNat (2 ^ 64 - 2)
      else 0
  | .count => 1
  | .sumNanos => 6000000000

theorem read_printedBounds : printedBounds.Read tenThousandths := by
  constructor
  · unfold printedBounds bucketLabels tenThousandths
    simp only [String.reduceToList]
    simp [List.lookup_cons]
  · unfold tenThousandths printedBounds
    decide

theorem parse_render_threeAllowed :
    render ⟨true⟩ wholeSeconds threeAllowed = none ∧
      ∃ page, render ⟨false⟩ wholeSeconds threeAllowed = some page ∧
        parseRequestsTotal page =
          [⟨"allowed".toList, 3⟩, ⟨"rate_limited".toList, 2 ^ 63 - 1⟩,
            ⟨"bad_request".toList, 0⟩, ⟨"upstream_error".toList, 0⟩,
            ⟨"internal_error".toList, 0⟩] ∧
        (parseLatencyBuckets printedBounds page).map LatencyBucket.count =
          [0, 0, 0, 0, 0, 0, 0, 0, 0, 0, 0, 3, 1, 1, 1] := by
  have decimal : Decimal wholeSeconds :=
    fun _ _ member => .inl (isDigit_of_mem_toDigits member)
  have checked := parse_render decimal read_printedBounds ⟨true⟩ threeAllowed
  have unchecked :=
    parse_render decimal read_printedBounds ⟨false⟩ threeAllowed
  refine ⟨checked.1.mpr ⟨rfl, by decide⟩, ?_⟩
  cases written : render ⟨false⟩ wholeSeconds threeAllowed with
  | none => cases (unchecked.1.mp written).1
  | some page =>
      obtain ⟨requests, buckets⟩ := unchecked.2 page written
      refine ⟨page, rfl, ?_, ?_⟩
      · rw [requests]
        rfl
      · rw [buckets]
        rfl

end LightWaf.ControlPlane.Prometheus
