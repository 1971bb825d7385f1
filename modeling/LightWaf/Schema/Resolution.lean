import LightWaf.Schema.UnknownRoutes
import LightWaf.Theory.StableSort

/-!
# What a path resolves to

`Router::resolve` searches a sorted list of routes.  Stated without the list:
of the templates with an operation that the segments of the path instantiate,
the least one decides, and there is just one.  The order in which the `paths`
object lists its members does not matter.
-/

namespace LightWaf.Schema

open LightWaf.Rust
open LightWaf.Core
open LightWaf.Normalizer
open LightWaf.Theory.StableSort

/-! ## Candidates -/

/-- A member is listed once; the map of `serde_json` sees to it. -/
def DistinctTemplates (doc : Json) : Prop :=
  ((pathItems doc).map Prod.fst).Nodup

/-- The document declares an operation for a template and a method. -/
def Declares (doc : Json) (template method : Text) : Prop :=
  ∃ item, (template, item) ∈ pathItems doc ∧ method ∈ operations item

/-- A template with an operation that the segments instantiate. -/
structure Candidate (doc : Json) (segments : List Text) (template : Text) :
    Prop where
  declared : ∃ method, Declares doc template method
  admits : List.Forall₂ (Seg.Admits Eq) (parseTemplate template) segments

/-- Literals come before parameters, then the text of the template decides. -/
def Precedes (left right : Text) : Prop :=
  specificity (parseTemplate left) < specificity (parseTemplate right) ∨
    specificity (parseTemplate left) = specificity (parseTemplate right) ∧
      left ≤ right

/-- The least of the candidates. -/
structure LeastCandidate (doc : Json) (segments : List Text)
    (template : Text) : Prop where
  candidate : Candidate doc segments template
  least : ∀ other, Candidate doc segments other → Precedes template other

/-- A template with the parameters filled in, in order. -/
def substitute : List Seg → List (Text × Text) → Option (List Text)
  | [], [] => some []
  | .static text :: segments, params =>
      (substitute segments params).map (text :: ·)
  | .param name :: segments, (given, value) :: params =>
      if given = name then (substitute segments params).map (value :: ·)
      else none
  | _, _ => none

/-- The parameters of a match put the segments back. -/
theorem substitute_of_matchPath
    {segments : List Seg} {values : List Text}
    {pathParams : List (Text × Text)}
    (matched : matchPath segments values = some pathParams) :
    substitute segments pathParams = some values := by
  induction segments generalizing values pathParams with
  | nil =>
      cases values with
      | nil =>
          cases matched
          rfl
      | cons value values => cases matched
  | cons segment segments induction =>
      cases values with
      | nil => cases segment <;> cases matched
      | cons value values =>
          cases segment with
          | static text =>
              rw [matchPath] at matched
              split_ifs at matched with same
              rw [substitute.eq_2, induction matched, same]
              rfl
          | param name =>
              rw [matchPath] at matched
              split_ifs at matched
              obtain ⟨params, inner, rfl⟩ := Option.map_eq_some_iff.mp matched
              rw [substitute, if_pos rfl, induction inner]
              rfl

/-! ## Routes and candidates -/

theorem rank_le_iff {left right : Route} :
    left.rank ≤ right.rank ↔
      specificity left.segments < specificity right.segments ∨
        specificity left.segments = specificity right.segments ∧
          left.template ≤ right.template :=
  Prod.Lex.le_iff

/-- A route of the router, by its template. -/
theorem mem_buildRouter_iff {doc : Json} {route : Route} :
    route ∈ buildRouter doc ↔
      ∃ item, (route.template, item) ∈ pathItems doc ∧
        operations item ≠ [] ∧ route.segments = parseTemplate route.template ∧
        route.methods = operations item := by
  rw [mem_buildRouter]
  constructor
  · rintro ⟨⟨template, item⟩, member, made⟩
    obtain ⟨some, rfl⟩ := routeOf_eq_some.mp made
    exact ⟨item, member, some, rfl, rfl⟩
  · rintro ⟨item, member, some, segments, methods⟩
    refine ⟨_, member, routeOf_eq_some.mpr ⟨some, ?_⟩⟩
    rw [← segments, ← methods]

theorem candidate_iff
    {doc : Json} {segments : List Text} {template : Text} :
    Candidate doc segments template ↔
      ∃ route ∈ buildRouter doc, route.template = template ∧
        (matchPath route.segments segments).isSome = true := by
  constructor
  · rintro ⟨⟨method, item, member, declared⟩, admits⟩
    refine ⟨⟨template, parseTemplate template, operations item⟩, ?_, rfl,
      (matchPath_isSome _ _).mpr admits⟩
    rw [mem_buildRouter_iff]
    exact ⟨item, member, List.ne_nil_of_mem declared, rfl, rfl⟩
  · rintro ⟨route, member, rfl, matched⟩
    obtain ⟨item, listed, some, segments, -⟩ := mem_buildRouter_iff.mp member
    obtain ⟨method, declared⟩ := List.exists_mem_of_ne_nil _ some
    rw [segments, matchPath_isSome] at matched
    exact ⟨⟨method, item, listed, declared⟩, matched⟩

/-- With distinct templates a route has the methods of its template. -/
theorem mem_methods_iff
    {doc : Json} (distinct : DistinctTemplates doc) {route : Route}
    (member : route ∈ buildRouter doc) (method : Text) :
    method ∈ route.methods ↔ Declares doc route.template method := by
  obtain ⟨item, listed, -, -, methods⟩ := mem_buildRouter_iff.mp member
  rw [methods]
  constructor
  · intro declared
    exact ⟨item, listed, declared⟩
  · rintro ⟨other, otherListed, declared⟩
    have same : (route.template, other) = (route.template, item) :=
      List.inj_on_of_nodup_map distinct otherListed listed rfl
    cases same
    exact declared

/-- The first match is the least candidate. -/
theorem leastCandidate_of_firstMatch
    {doc : Json} {segments : List Text} {route : Route}
    (first : firstMatch segments (buildRouter doc) = some route) :
    LeastCandidate doc segments route.template := by
  obtain ⟨member, matched, least⟩ := firstMatch_least first
  refine ⟨candidate_iff.mpr ⟨route, member, rfl, matched⟩, ?_⟩
  intro other candidate
  obtain ⟨rival, rivalMember, rfl, rivalMatched⟩ :=
    candidate_iff.mp candidate
  have below := rank_le_iff.mp (least rival rivalMember rivalMatched)
  obtain ⟨-, -, -, segments, -⟩ := mem_buildRouter_iff.mp member
  obtain ⟨-, -, -, rivalSegments, -⟩ := mem_buildRouter_iff.mp rivalMember
  rw [segments, rivalSegments] at below
  exact below

/-- There is one least candidate. -/
theorem LeastCandidate.unique
    {doc : Json} {segments : List Text} {left right : Text}
    (leftLeast : LeastCandidate doc segments left)
    (rightLeast : LeastCandidate doc segments right) :
    left = right := by
  rcases leftLeast.least right rightLeast.candidate with below | ⟨same, below⟩
  · rcases rightLeast.least left leftLeast.candidate with above | ⟨equal, -⟩
    · exact absurd above below.asymm
    · rw [equal] at below
      exact absurd below (lt_irrefl _)
  · rcases rightLeast.least left leftLeast.candidate with above | ⟨-, above⟩
    · rw [same] at above
      exact absurd above (lt_irrefl _)
    · exact le_antisymm below above

theorem firstMatch_isSome_iff {doc : Json} {segments : List Text} :
    (firstMatch segments (buildRouter doc)).isSome = true ↔
      ∃ template, Candidate doc segments template := by
  rw [firstMatch, List.find?_isSome]
  constructor
  · rintro ⟨route, member, matched⟩
    exact ⟨route.template, candidate_iff.mpr ⟨route, member, rfl, matched⟩⟩
  · rintro ⟨template, candidate⟩
    obtain ⟨route, member, -, matched⟩ := candidate_iff.mp candidate
    exact ⟨route, member, matched⟩

/-! ## The order of the document -/

theorem buildRouter_eq_sortByKey (doc : Json) :
    buildRouter doc =
      sortByKey Route.rank ((pathItems doc).filterMap routeOf) :=
  rfl

/-- Routes of distinct templates have distinct ranks. -/
theorem rank_injective
    {doc : Json} (distinct : DistinctTemplates doc) :
    ∀ left ∈ (pathItems doc).filterMap routeOf,
      ∀ right ∈ (pathItems doc).filterMap routeOf,
        left.rank = right.rank → left = right := by
  intro left leftMember right rightMember same
  obtain ⟨entry, listed, made⟩ := List.mem_filterMap.mp leftMember
  obtain ⟨other, otherListed, otherMade⟩ := List.mem_filterMap.mp rightMember
  have template : entry.1 = other.1 := by
    have texts := (Prod.mk.inj (toLex.injective same)).2
    rw [(routeOf_eq_some.mp made).2, (routeOf_eq_some.mp otherMade).2]
      at texts
    exact texts
  have equal : entry = other :=
    List.inj_on_of_nodup_map distinct listed otherListed template
  rw [equal, otherMade] at made
  exact (Option.some.inj made).symm

theorem buildRouter_eq_of_perm
    {doc other : Json} (distinct : DistinctTemplates doc)
    (perm : (pathItems other).Perm (pathItems doc)) :
    buildRouter other = buildRouter doc := by
  rw [buildRouter_eq_sortByKey, buildRouter_eq_sortByKey]
  exact sortByKey_eq_of_perm _ (perm.filterMap routeOf)
    (rank_injective distinct)

/-! ## Resolution -/

/--
A path is unknown exactly when there is no candidate.  Otherwise there is one
least candidate; it decides whether the method is allowed, and the parameters
that are returned put the segments back into its template.  The order of the
document plays no part.
-/
theorem resolve_spec
    {doc : Json} (distinct : DistinctTemplates doc) (path method : Text) :
    (resolve (buildRouter doc) path method = .unknownRoute ↔
      ¬ ∃ template, Candidate doc (splitSegments path) template) ∧
    ((∃ template, Candidate doc (splitSegments path) template) →
      ∃! template, LeastCandidate doc (splitSegments path) template) ∧
    (∀ template, LeastCandidate doc (splitSegments path) template →
      ∃ pathParams,
        substitute (parseTemplate template) pathParams =
          some (splitSegments path) ∧
        (Declares doc template (toAsciiLowercase method) →
          resolve (buildRouter doc) path method =
            .matched template pathParams) ∧
        (¬ Declares doc template (toAsciiLowercase method) →
          resolve (buildRouter doc) path method = .methodNotAllowed)) ∧
    (∀ other, (pathItems other).Perm (pathItems doc) →
      resolve (buildRouter other) path method =
        resolve (buildRouter doc) path method) := by
  refine ⟨?_, ?_, ?_, ?_⟩
  · rw [resolve, resolveRoutes_unknown, ← firstMatch_isSome_iff, firstMatch,
      List.find?_isSome]
    constructor
    · rintro none ⟨route, member, matched⟩
      rw [none route member] at matched
      cases matched
    · intro none route member
      cases matched : matchPath route.segments (splitSegments path) with
      | none => rfl
      | some pathParams =>
          exact absurd ⟨route, member, by rw [matched]; rfl⟩ none
  · intro candidates
    obtain ⟨route, first⟩ :=
      Option.isSome_iff_exists.mp (firstMatch_isSome_iff.mpr candidates)
    exact ⟨route.template, leastCandidate_of_firstMatch first,
      fun other least => least.unique (leastCandidate_of_firstMatch first)⟩
  · intro template least
    obtain ⟨route, first⟩ := Option.isSome_iff_exists.mp
      (firstMatch_isSome_iff.mpr ⟨template, least.candidate⟩)
    obtain rfl := least.unique (leastCandidate_of_firstMatch first)
    obtain ⟨member, -, -⟩ := firstMatch_least first
    obtain ⟨-, -, -, segments, -⟩ := mem_buildRouter_iff.mp member
    obtain ⟨pathParams, matched, resolved⟩ :=
      resolveRoutes_of_firstMatch first (toAsciiLowercase method)
    rw [← mem_methods_iff distinct member, resolve, resolved,
      List.contains_eq_mem]
    refine ⟨pathParams, ?_, ?_, ?_⟩
    · rw [← segments]
      exact substitute_of_matchPath matched
    · intro declared
      rw [if_pos (decide_eq_true declared)]
    · intro undeclared
      rw [if_neg fun holds => undeclared (of_decide_eq_true holds)]
  · intro other perm
    rw [buildRouter_eq_of_perm distinct perm]

/-- A document that lists two templates with one operation each. -/
def twoTemplates (first firstMethod second secondMethod : String) : Json :=
  .object [("paths".toList, .object
    [(first.toList, .object [(firstMethod.toList, .object [])]),
      (second.toList, .object [(secondMethod.toList, .object [])])])]

theorem resolve_users_swapped :
    DistinctTemplates
        (twoTemplates "/users/\x7bid\x7d" "get" "/users/me" "post") ∧
      resolve
          (buildRouter
            (twoTemplates "/users/me" "post" "/users/\x7bid\x7d" "get"))
          "/users/me".toList "GET".toList =
        resolve
          (buildRouter
            (twoTemplates "/users/\x7bid\x7d" "get" "/users/me" "post"))
          "/users/me".toList "GET".toList := by
  have distinct : DistinctTemplates
      (twoTemplates "/users/\x7bid\x7d" "get" "/users/me" "post") := by
    rw [DistinctTemplates]
    decide
  exact ⟨distinct, (resolve_spec distinct _ _).2.2.2 _ (List.Perm.swap _ _ _)⟩

end LightWaf.Schema
