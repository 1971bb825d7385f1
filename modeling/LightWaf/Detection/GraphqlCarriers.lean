import LightWaf.Detection.JsonKeys
import LightWaf.Detection.Structural
import LightWaf.Normalizer.Limits

/-!
# Which operations reach the GraphQL caps

A JSON envelope carries its documents under `query`, or under `<i>.query` for
each object of a batch.  On a configured path all of them are collected,
except where the content type starts with `application/graphql`: the module
then looks for a raw body only and returns early, although the normalizer has
flattened the envelope already.
-/

namespace LightWaf.Detection

open LightWaf.Rust
open LightWaf.Core
open LightWaf.Normalizer

/-! ## Envelopes -/

/-- A string member `query` of an object. -/
def HoldsDocument (value : Json) (document : Text) : Prop :=
  ∃ fields, value = .object fields ∧
    ("query".toList, Json.string document) ∈ fields

/-- A document of an object, or of an object of an array. -/
def CarriesDocument : Json → Text → Prop
  | .object fields, document => HoldsDocument (.object fields) document
  | .array items, document => ∃ item ∈ items, HoldsDocument item document
  | _, _ => False

/-- An object with a string member `query`, or an array of such objects. -/
def IsEnvelope : Json → Prop
  | .object fields => ∃ document, HoldsDocument (.object fields) document
  | .array items => ∀ item ∈ items, ∃ document, HoldsDocument item document
  | _ => False

/-- An envelope carries a document unless it is an empty array. -/
theorem IsEnvelope.carries
    {value : Json} (envelope : IsEnvelope value)
    (nonempty : value ≠ .array []) :
    ∃ document, CarriesDocument value document := by
  cases value with
  | object fields => exact envelope
  | array items =>
      cases items with
      | nil => exact absurd rfl nonempty
      | cons item rest =>
          obtain ⟨document, holds⟩ := envelope item List.mem_cons_self
          exact ⟨document, item, List.mem_cons_self, holds⟩
  | null => exact envelope.elim
  | bool _ => exact envelope.elim
  | number _ => exact envelope.elim
  | string _ => exact envelope.elim

/-! ## Flattened documents -/

/-- A string member is flattened to a pair under its key. -/
theorem mem_flattenFields
    {maxDepth depth : Nat} {fields : List (Text × Json)} {lead key : Text}
    {text : Text} {pairs : List (Text × Text)}
    (flattened : flattenFields maxDepth fields lead depth = .ok pairs)
    (member : (key, Json.string text) ∈ fields) :
    (joinKey lead key, text) ∈ pairs := by
  induction fields generalizing pairs with
  | nil => cases member
  | cons field rest induction =>
      obtain ⟨name, value⟩ := field
      rw [flattenFields] at flattened
      obtain ⟨first, here, flattened⟩ := ok_of_bind_ok flattened
      obtain ⟨others, later, filled⟩ := ok_of_bind_ok flattened
      cases filled
      rcases List.mem_cons.mp member with same | behind
      · obtain ⟨rfl, rfl⟩ := Prod.mk.inj same
        rw [flattenJson] at here
        cases here
        exact List.mem_append_left _ (List.mem_singleton_self _)
      · exact List.mem_append_right _ (induction later behind)

/-- An element is flattened below its index. -/
theorem flattenItems_mem
    {maxDepth depth index : Nat} {items : List Json} {lead : Text}
    {item : Json} {pairs : List (Text × Text)}
    (flattened : flattenItems maxDepth items index lead depth = .ok pairs)
    (member : item ∈ items) :
    ∃ place inner, flattenJson maxDepth item
        (joinKey lead (toString (place : Nat)).toList) depth = .ok inner ∧
      inner ⊆ pairs := by
  induction items generalizing index pairs with
  | nil => cases member
  | cons value rest induction =>
      rw [flattenItems] at flattened
      obtain ⟨first, here, flattened⟩ := ok_of_bind_ok flattened
      obtain ⟨others, later, filled⟩ := ok_of_bind_ok flattened
      cases filled
      rcases List.mem_cons.mp member with rfl | behind
      · exact ⟨index, first, here, List.subset_append_left _ _⟩
      · obtain ⟨place, inner, found, inside⟩ := induction later behind
        exact ⟨place, inner, found,
          fun _ leaf => List.mem_append_right _ (inside leaf)⟩

/-- The documents of an object stand below its lead. -/
theorem holdsDocument_mem
    {maxDepth depth : Nat} {value : Json} {lead document : Text}
    {pairs : List (Text × Text)}
    (flattened : flattenJson maxDepth value lead depth = .ok pairs)
    (holds : HoldsDocument value document) :
    (joinKey lead "query".toList, document) ∈ pairs := by
  obtain ⟨fields, rfl, member⟩ := holds
  rw [flattenJson] at flattened
  split_ifs at flattened
  exact mem_flattenFields flattened member

theorem isGraphqlQueryKey_index (index : Nat) :
    isGraphqlQueryKey
      (joinKey (joinKey [] (toString index).toList) "query".toList) = true := by
  have digits : (toString index).toList = Nat.toDigits 10 index := by
    exact Nat.toList_repr
  have joined : joinKey (joinKey [] (toString index).toList) "query".toList =
      Nat.toDigits 10 index ++ ".query".toList := by
    rw [digits]
    exact if_neg Nat.toDigits_ne_nil
  rw [joined, isGraphqlQueryKey, stripSuffix_append, Bool.or_eq_true]
  right
  rw [Option.any_some, Bool.and_eq_true, List.all_eq_true]
  constructor
  · simp
  · intro char member
    have digit := Nat.isDigit_of_mem_toDigits (by decide) (by decide) member
    simpa [Char.isDigit, isAsciiDigit, Char.le_def] using digit

/-- Every document of a flattened value stands under a query key. -/
theorem carriesDocument_mem
    {limits : LimitsConfig} {value : Json} {document : Text}
    {pairs : List (Text × Text)}
    (flattened : flattenValue value limits = .ok pairs)
    (carries : CarriesDocument value document) :
    ∃ key, isGraphqlQueryKey key = true ∧ (key, document) ∈ pairs := by
  cases value with
  | object fields =>
      exact ⟨"query".toList, by decide, holdsDocument_mem flattened carries⟩
  | array items =>
      obtain ⟨item, member, holds⟩ := carries
      rw [flattenValue, flattenJson] at flattened
      split_ifs at flattened
      obtain ⟨index, inner, found, inside⟩ :=
        flattenItems_mem flattened member
      exact ⟨_, isGraphqlQueryKey_index index,
        inside (holdsDocument_mem found holds)⟩
  | null => exact carries.elim
  | bool _ => exact carries.elim
  | number _ => exact carries.elim
  | string _ => exact carries.elim

/-! ## Operations -/

/-- Whether the module takes the body for a raw GraphQL document. -/
def declaresGraphql (ctx : RequestContext) : Bool :=
  "application/graphql".toList.isPrefixOf (trimStart (contentType ctx))

/-- Every document of a value is among the operations, unwrapped. -/
def DocumentsReach (serde : SerdeJson) (config : GraphqlConfig)
    (ctx : RequestContext) (value : Json) : Prop :=
  ∀ document, CarriesDocument value document →
    expandCarriers serde [document] ⊆ graphqlOperations serde config ctx

/-- Every carrier is unwrapped to something. -/
theorem expandCarriers_ne_nil (serde : SerdeJson) (carrier : Text) :
    expandCarriers serde [carrier] ≠ [] := by
  rw [expandCarriers, List.flatMap_singleton, unwrapQueryEnvelope]
  split
  · split
    · split_ifs with empty
      · exact List.cons_ne_nil _ _
      · rw [List.isEmpty_iff] at empty
        exact empty
    · exact List.cons_ne_nil _ _
  · exact List.cons_ne_nil _ _

section Operations

variable (serde : SerdeJson) {config : GraphqlConfig} {ctx : RequestContext}
  {pairs : List (Text × Text)}

/-- Flattened JSON is never looked at under the type of raw documents. -/
theorem graphqlOperations_declared
    (body : ctx.normalized.body = .jsonFlattened pairs)
    (declared : declaresGraphql ctx = true) :
    graphqlOperations serde config ctx = [] := by
  rw [graphqlOperations]
  rw [declaresGraphql] at declared
  rw [if_pos declared, body]

/-- On a configured path the pairs under a query key are operations. -/
theorem expandCarriers_subset
    (configured : config.paths.any
      (eqIgnoreAsciiCase ctx.normalized.path) = true)
    (body : ctx.normalized.body = .jsonFlattened pairs)
    (undeclared : declaresGraphql ctx = false) {key document : Text}
    (named : isGraphqlQueryKey key = true)
    (member : (key, document) ∈ pairs) :
    expandCarriers serde [document] ⊆ graphqlOperations serde config ctx := by
  rw [declaresGraphql] at undeclared
  rw [graphqlOperations, if_neg (by rw [undeclared]; decide), configured,
    body]
  intro operation found
  rw [expandCarriers, List.flatMap_singleton] at found
  apply List.mem_flatMap.mpr
  refine ⟨document, List.mem_append_left _ ?_, found⟩
  exact List.mem_map_of_mem (List.mem_filter.mpr ⟨member, named⟩)

/-- The documents of an envelope, by the declared type. -/
theorem documentsReach_iff
    {limits : LimitsConfig} {value : Json}
    (configured : config.paths.any
      (eqIgnoreAsciiCase ctx.normalized.path) = true)
    (body : ctx.normalized.body = .jsonFlattened pairs)
    (flattened : flattenValue value limits = .ok pairs)
    (envelope : IsEnvelope value) :
    DocumentsReach serde config ctx value ↔
      declaresGraphql ctx = false ∨ value = .array [] := by
  constructor
  · intro reach
    by_contra! failed
    obtain ⟨declared, nonempty⟩ := failed
    obtain ⟨document, carries⟩ := envelope.carries nonempty
    have inside := reach document carries
    rw [graphqlOperations_declared serde body
      (Bool.not_eq_false _ ▸ declared)] at inside
    exact expandCarriers_ne_nil serde document
      (List.eq_nil_of_subset_nil inside)
  · rintro (undeclared | rfl) document carries
    · obtain ⟨key, named, member⟩ := carriesDocument_mem flattened carries
      exact expandCarriers_subset serde configured body undeclared named
        member
    · obtain ⟨item, member, -⟩ := carries
      cases member

end Operations

/--
A request that the normalizer accepts with a flattened body, on a configured
path: the body was read as a JSON value, and if that value is an envelope, its
documents are among the operations exactly when the content type does not
start with `application/graphql` or there is no document.
-/
theorem graphqlOperations_complete
    (unicode : UnicodeTables) (serde : SerdeJson) (config : GraphqlConfig)
    (limits : LimitsConfig) (request ctx : RequestContext)
    (pairs : List (Text × Text))
    (done : runNormalizer unicode serde limits request = (.ok (), ctx))
    (configured : config.paths.any
      (eqIgnoreAsciiCase ctx.normalized.path) = true)
    (body : ctx.normalized.body = .jsonFlattened pairs) :
    (∃ value, ReadsJson serde request.body value ∧
      flattenValue value limits = .ok pairs) ∧
    ∀ value, flattenValue value limits = .ok pairs → IsEnvelope value →
      (DocumentsReach serde config ctx value ↔
        declaresGraphql ctx = false ∨ value = .array []) := by
  constructor
  · rw [runNormalizer_eq] at done
    cases normalizes : normalize unicode serde limits request with
    | error error =>
        rw [normalizes] at done
        cases done
    | ok normalized =>
        rw [normalizes] at done
        cases done
        obtain ⟨-, -, -, parsed, -⟩ :=
          normalize_ok unicode serde normalizes
        rw [body] at parsed
        exact parseBody_flattened unicode serde parsed
  · intro value flattened envelope
    exact documentsReach_iff serde configured body flattened envelope

/-- A JSON envelope of one document. -/
def introspectionText : Text :=
  "\x7b\x22query\x22:\x22\x7b__schema\x7bname\x7d\x7d\x22\x7d".toList

/-- Its value. -/
def introspectionValue : Json :=
  .object [("query".toList, .string "\x7b__schema\x7bname\x7d\x7d".toList)]

/-- The envelope posted to the default path under a content type. -/
def postsEnvelope (declared : String) : RequestContext :=
  { emptyRequest with
    method := "POST".toList
    path := "/graphql".toList
    rawPath := "/graphql".toList
    headers := [("content-type".toList, declared.toList)]
    body := asBytes introspectionText }

/-- The request as the normalizer leaves it. -/
def normalizedEnvelope (declared : String) : RequestContext :=
  (runNormalizer UnicodeTables.asciiOnly
    (readerOf introspectionText introspectionValue) {}
    (postsEnvelope declared)).2

theorem isEnvelope_introspectionValue : IsEnvelope introspectionValue :=
  ⟨_, _, rfl, List.mem_singleton_self _⟩

/-- Declared as JSON, the document reaches the caps. -/
theorem graphqlOperations_complete_json :
    DocumentsReach (readerOf introspectionText introspectionValue) {}
      (normalizedEnvelope "application/json") introspectionValue :=
  ((graphqlOperations_complete UnicodeTables.asciiOnly
    (readerOf introspectionText introspectionValue) {} {}
    (postsEnvelope "application/json") (normalizedEnvelope "application/json")
    [("query".toList, "\x7b__schema\x7bname\x7d\x7d".toList)]
    rfl (by decide +kernel) rfl).2 introspectionValue rfl
    isEnvelope_introspectionValue).mpr (Or.inl (by decide +kernel))

/-- Declared as a raw document, the flattened envelope is lost. -/
theorem graphqlOperations_lost_declared :
    runNormalizer UnicodeTables.asciiOnly
        (readerOf introspectionText introspectionValue) {}
        (postsEnvelope "application/graphql") =
      (.ok (), normalizedEnvelope "application/graphql") ∧
    ({} : GraphqlConfig).paths.any (eqIgnoreAsciiCase
      (normalizedEnvelope "application/graphql").normalized.path) = true ∧
    (normalizedEnvelope "application/graphql").normalized.body =
      .jsonFlattened
        [("query".toList, "\x7b__schema\x7bname\x7d\x7d".toList)] ∧
    IsEnvelope introspectionValue ∧
    ¬ DocumentsReach (readerOf introspectionText introspectionValue) {}
      (normalizedEnvelope "application/graphql") introspectionValue := by
  have configured : ({} : GraphqlConfig).paths.any (eqIgnoreAsciiCase
      (normalizedEnvelope "application/graphql").normalized.path) = true := by
    decide +kernel
  refine ⟨rfl, configured, rfl, isEnvelope_introspectionValue, ?_⟩
  have flattened : flattenValue introspectionValue ({} : LimitsConfig) =
      .ok [("query".toList, "\x7b__schema\x7bname\x7d\x7d".toList)] :=
    rfl
  rw [documentsReach_iff _ configured rfl flattened
    isEnvelope_introspectionValue]
  rintro (undeclared | empty)
  · revert undeclared
    decide +kernel
  · cases empty

end LightWaf.Detection
