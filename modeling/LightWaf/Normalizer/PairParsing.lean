import LightWaf.Normalizer.Body
import LightWaf.Normalizer.Canonical
import LightWaf.Rust.Search

/-!
# Query strings and form bodies, pair by pair

`parse_query` and `parse_form_urlencoded` are two loops over the segments
between ampersands, with a limit that is checked as parameters are added.
Both come to the same as splitting first: too many segments are refused as a
whole, and otherwise every segment that is not empty gives one parameter.
-/

namespace LightWaf.Normalizer

open LightWaf.Rust
open LightWaf.Core
open LightWaf.Theory.Settling

/-! ## Split, then canonicalize -/

/-- The segments between ampersands, without the empty ones. -/
def pairSegments (text : Text) : List Text :=
  (text.splitOn '&').filter (· ≠ [])

/-- A segment is split at its first `=`; without one it is all key. -/
def SplitsAtEquals (segment : Text) (pair : Text × Text) : Prop :=
  ('=' ∉ pair.1 ∧ segment = pair.1 ++ '=' :: pair.2) ∨
    ('=' ∉ segment ∧ pair = (segment, []))

/-- At least two decode passes change a form value before it settles. -/
def NeedsTwoPasses (raw : Text) : Prop :=
  ∃ count, SettlesAt (valuePass true) (asBytes raw) count ∧ 2 ≤ count

/-- Splitting at the first `=` is what the parsers do. -/
theorem splitsAtEquals_splitPair (segment : Text) :
    SplitsAtEquals segment (splitPair segment) := by
  rw [splitPair]
  by_cases member : '=' ∈ segment
  · obtain ⟨key, value, rfl, absent⟩ := List.eq_append_cons_of_mem member
    rw [findSplit_single absent]
    exact Or.inl ⟨absent, rfl⟩
  · cases found : findSplit ['='] segment with
    | none => exact Or.inr ⟨member, rfl⟩
    | some pair =>
        have spelled := eq_of_findSplit found
        rw [spelled] at member
        exact absurd (by simp) member

section Unicode

variable (unicode : UnicodeTables)

/-- The canonical key and value of a pair. -/
def canonicalPair (pair : Text × Text) : Text × Text :=
  ((canonicalizeValue unicode pair.1 true).1,
    (canonicalizeValue unicode pair.2 true).1)

/-- Whether the key or the value of a pair is found to be encoded twice. -/
def doublyEncoded (pair : Text × Text) : Bool :=
  (canonicalizeValue unicode pair.1 true).2 ||
    (canonicalizeValue unicode pair.2 true).2

theorem canonicalizeValue_double_iff (raw : Text) :
    (canonicalizeValue unicode raw true).2 = true ↔ NeedsTwoPasses raw := by
  obtain ⟨count, settles⟩ :=
    (valuePass_contracting true).exists_settlesAt (asBytes raw)
  rw [canonicalizeValue_double_of_settlesAt unicode settles]
  constructor
  · intro twice
    exact ⟨count, settles, twice⟩
  · rintro ⟨other, otherSettles, twice⟩
    by_contra fewer
    have changes := otherSettles.changes count (by omega)
    exact changes (settles.rests (count + 1) (Nat.le_succ count))

theorem doublyEncoded_iff (pair : Text × Text) :
    doublyEncoded unicode pair = true ↔
      NeedsTwoPasses pair.1 ∨ NeedsTwoPasses pair.2 := by
  rw [doublyEncoded, Bool.or_eq_true, canonicalizeValue_double_iff,
    canonicalizeValue_double_iff]

/-! ## The loops -/

/-- The loop of `parse_query` from any number of parameters on. -/
theorem foldlM_queryStep
    {limits : LimitsConfig} (pieces : List Text) (parsed : ParsedQuery)
    (within : parsed.params.length ≤ limits.maxParams) :
    pieces.foldlM (queryStep unicode limits) parsed =
      if limits.maxParams <
          parsed.params.length + (pieces.filter (· ≠ [])).length then
        .error (.tooManyParams limits.maxParams)
      else
        .ok
          { params := parsed.params ++ (pieces.filter (· ≠ [])).map
              fun piece => canonicalPair unicode (splitPair piece)
            doubleEncoding := parsed.doubleEncoding ||
              (pieces.filter (· ≠ [])).any
                fun piece => doublyEncoded unicode (splitPair piece)
            derived := parsed.derived ++ (pieces.filter (· ≠ [])).flatMap
              fun piece => deriveVariants unicode
                (canonicalPair unicode (splitPair piece)).2 } := by
  induction pieces generalizing parsed with
  | nil =>
      rw [List.filter_nil, List.length_nil, if_neg (by omega)]
      simp [pure, Except.pure]
  | cons piece pieces induction =>
      rw [List.foldlM_cons, queryStep]
      by_cases empty : piece = []
      · rw [if_pos empty, List.filter_cons_of_neg (by simpa using empty)]
        exact induction parsed within
      · rw [if_neg empty, List.filter_cons_of_pos (by simpa using empty),
          List.length_cons]
        by_cases full : limits.maxParams ≤ parsed.params.length
        · rw [if_pos full, if_pos (by omega)]
          rfl
        · rw [if_neg full]
          have later := induction
            { params := parsed.params ++
                [canonicalPair unicode (splitPair piece)]
              doubleEncoding := parsed.doubleEncoding ||
                (canonicalizeValue unicode (splitPair piece).1 true).2 ||
                (canonicalizeValue unicode (splitPair piece).2 true).2
              derived := parsed.derived ++ deriveVariants unicode
                (canonicalPair unicode (splitPair piece)).2 }
            (by
              rw [List.length_append, List.length_singleton]
              omega)
          refine later.trans ?_
          have counted :
              (parsed.params ++
                [canonicalPair unicode (splitPair piece)]).length +
                (pieces.filter (· ≠ [])).length =
              parsed.params.length +
                ((pieces.filter (· ≠ [])).length + 1) := by
            rw [List.length_append, List.length_singleton]
            omega
          simp only [counted, List.append_assoc, List.singleton_append,
            List.map_cons, List.any_cons, List.flatMap_cons, doublyEncoded,
            Bool.or_assoc]

/-- The loop of `parse_form_urlencoded` adds the same parameters. -/
theorem foldlM_formStep
    (limits : LimitsConfig) (pieces : List Text) (parsed : ParsedQuery) :
    pieces.foldlM (formStep unicode limits) parsed.params =
      (pieces.foldlM (queryStep unicode limits) parsed).map
        ParsedQuery.params := by
  induction pieces generalizing parsed with
  | nil => rfl
  | cons piece pieces induction =>
      rw [List.foldlM_cons, List.foldlM_cons, formStep, queryStep]
      split_ifs with empty full
      · exact induction parsed
      · rfl
      · exact induction ⟨_, _, _⟩

/--
A query is refused exactly when it has more segments than the limit allows.
Otherwise each segment that is not empty gives one parameter, in order, and
double encoding is reported exactly when a key or a value needed two passes.
A form body with the same text gives the same parameters or the same error.
-/
theorem parseQuery_spec (query : Text) (limits : LimitsConfig) :
    (∀ error, parseQuery unicode query limits = .error error ↔
      limits.maxParams < (pairSegments query).length ∧
        error = .tooManyParams limits.maxParams) ∧
    ((pairSegments query).length ≤ limits.maxParams →
      ∃ parsed pairs, parseQuery unicode query limits = .ok parsed ∧
        List.Forall₂ SplitsAtEquals (pairSegments query) pairs ∧
        parsed.params = pairs.map (canonicalPair unicode) ∧
        (parsed.doubleEncoding = true ↔
          ∃ pair ∈ pairs, NeedsTwoPasses pair.1 ∨ NeedsTwoPasses pair.2)) ∧
    parseFormUrlencoded unicode (asBytes query) limits =
      (parseQuery unicode query limits).map
        fun parsed => .formUrlEncoded parsed.params := by
  have folded := foldlM_queryStep unicode (query.splitOn '&') {}
    (Nat.zero_le limits.maxParams)
  rw [List.length_nil, Nat.zero_add, List.nil_append, Bool.false_or,
    List.nil_append] at folded
  refine ⟨?_, ?_, ?_⟩
  · intro error
    rw [parseQuery, folded, pairSegments]
    split_ifs with many
    · rw [Except.error.injEq, and_iff_right many, eq_comm]
    · constructor
      · intro failed
        cases failed
      · rintro ⟨more, -⟩
        exact absurd more many
  · intro few
    refine ⟨_, (pairSegments query).map splitPair,
      folded.trans (if_neg (Nat.not_lt.mpr few)), ?_, ?_, ?_⟩
    · rw [List.forall₂_map_right_iff]
      exact List.forall₂_same.mpr
        fun segment _ => splitsAtEquals_splitPair segment
    · rw [List.map_map]
      rfl
    · rw [List.any_eq_true]
      simp only [doublyEncoded_iff, List.mem_map, exists_exists_and_eq_and]
      rfl
  · rw [parseFormUrlencoded, fromUtf8_asBytes, Option.getD_some]
    have same := foldlM_formStep unicode limits (query.splitOn '&') {}
    dsimp only at same ⊢
    rw [same, parseQuery]
    cases (query.splitOn '&').foldlM (queryStep unicode limits) {} with
    | error failure => rfl
    | ok parsed => rfl

end Unicode

end LightWaf.Normalizer
