import LightWaf.Normalizer.Body
import Mathlib.Data.Char
import Mathlib.Data.List.Lex
import Mathlib.Data.Prod.Lex

/-!
# The path router of a specification

The embedding of the router of `waf-schema-enforcement/src/api_schema.rs`.
Of the routes that match a path the first in the order of `build` decides,
and that is the least one: fewer leading parameters first, then the text of
the template.
-/

namespace LightWaf.Schema

open LightWaf.Rust
open LightWaf.Normalizer

/-! ## Reading documents -/

/-- `Value::as_object`. -/
def asObject : Json → Option (List (Text × Json))
  | .object fields => some fields
  | _ => none

/-- `Value::get` with a field name. -/
def field (name : String) (value : Json) : Option Json :=
  (asObject value).bind fun fields => fields.lookup name.toList

/-- `Value::as_str`. -/
def asStr : Json → Option Text
  | .string text => some text
  | _ => none

/-- `Value::as_bool`. -/
def asBool : Json → Option Bool
  | .bool value => some value
  | _ => none

/-- `Value::as_array`. -/
def asArray : Json → Option (List Json)
  | .array items => some items
  | _ => none

/-- The path items of a document, by template. -/
def pathItems (doc : Json) : List (Text × Json) :=
  ((field "paths" doc).bind asObject).getD []

/-! ## Routes -/

/-- `HTTP_METHODS`: the keys of a path item that are operations. -/
def httpMethods : List String :=
  ["get", "put", "post", "delete", "options", "head", "patch", "trace"]

/-- One segment of a template. -/
inductive Seg
  | static (text : Text)
  | param (name : Text)
deriving DecidableEq

/-- One declared route. -/
structure Route where
  template : Text
  segments : List Seg
  methods : List Text
deriving DecidableEq

/-- The non-empty pieces between slashes. -/
def slashSegments (path : Text) : List Text :=
  (path.splitOn '/').filter fun segment => !segment.isEmpty

/-- The text before the first `?` or `#`. -/
def beforeQuery (path : Text) : Text :=
  path.takeWhile fun char => char != '?' && char != '#'

/-- `split_segments`. -/
def splitSegments (path : Text) : List Text :=
  slashSegments (beforeQuery path)

/-- A segment wrapped in braces is a parameter. -/
def parseSegment (segment : Text) : Seg :=
  match (stripPrefix ['\x7b'] segment).bind (stripSuffix ['\x7d']) with
  | some name => if name.isEmpty then .static segment else .param name
  | none => .static segment

/-- `parse_template`. -/
def parseTemplate (template : Text) : List Seg :=
  (splitSegments template).map parseSegment

/-- `specificity`: smaller is more specific. -/
def specificity (segments : List Seg) : List Nat :=
  segments.map fun
    | .static _ => 0
    | .param _ => 1

/-- What `build` sorts by. -/
def Route.rank (route : Route) : List Nat ×ₗ Text :=
  toLex (specificity route.segments, route.template)

/-- The methods a path item declares. -/
def declaredMethods (item : List (Text × Json)) : List Text :=
  (httpMethods.map String.toList).filter fun name =>
    (item.lookup name).isSome

/-- The route of a path item, unless it declares no operation. -/
def routeOf (entry : Text × Json) : Option Route :=
  (asObject entry.2).bind fun item =>
    let methods := declaredMethods item
    if methods.isEmpty then none
    else some ⟨entry.1, parseTemplate entry.1, methods⟩

/-- `Router::build`. -/
def buildRouter (doc : Json) : List Route :=
  ((pathItems doc).filterMap routeOf).mergeSort fun left right =>
    decide (left.rank ≤ right.rank)

/-! ## Resolution -/

/-- `Route::match_path`: the parameters on a match. -/
def matchPath : List Seg → List Text → Option (List (Text × Text))
  | [], [] => some []
  | .static text :: segments, value :: values =>
      if text = value then matchPath segments values else none
  | .param name :: segments, value :: values =>
      if value.isEmpty then none
      else (matchPath segments values).map ((name, value) :: ·)
  | _, _ => none

/-- `Resolution`. -/
inductive Resolution
  | unknownRoute
  | methodNotAllowed
  | matched (template : Text) (pathParams : List (Text × Text))
deriving DecidableEq

/-- The loop of `Router::resolve` over the remaining routes. -/
def resolveRoutes (request : List Text) (method : Text) :
    List Route → Resolution
  | [] => .unknownRoute
  | route :: routes =>
      match matchPath route.segments request with
      | some pathParams =>
          -- The method is checked on the first matching route only.
          if route.methods.contains method then
            .matched route.template pathParams
          else .methodNotAllowed
      | none => resolveRoutes request method routes

/-- `Router::resolve`. -/
def resolve (routes : List Route) (path method : Text) : Resolution :=
  resolveRoutes (splitSegments path) (toAsciiLowercase method) routes

/-! ## What resolution finds -/

/-- The segment accepts the value, with a comparison for literals. -/
def Seg.Admits (same : Text → Text → Prop) : Seg → Text → Prop
  | .static text, value => same text value
  | .param _, value => value ≠ []

/-- A path is matched segment by segment. -/
theorem matchPath_isSome (segments : List Seg) (values : List Text) :
    (matchPath segments values).isSome = true ↔
      List.Forall₂ (Seg.Admits Eq) segments values := by
  induction segments generalizing values with
  | nil =>
      cases values with
      | nil => exact ⟨fun _ => .nil, fun _ => rfl⟩
      | cons value values =>
          exact ⟨fun matched => (nomatch matched), fun both => (nomatch both)⟩
  | cons segment segments induction =>
      cases values with
      | nil =>
          constructor
          · intro matched
            cases segment <;> cases matched
          · intro both
            cases both
      | cons value values =>
          rw [List.forall₂_cons, ← induction]
          cases segment with
          | static text =>
              rw [matchPath, Seg.Admits]
              split_ifs with same
              · exact ⟨fun matched => ⟨same, matched⟩, And.right⟩
              · exact ⟨fun matched => (nomatch matched),
                  fun both => absurd both.1 same⟩
          | param name =>
              rw [matchPath, Seg.Admits]
              cases value with
              | nil =>
                  exact ⟨fun matched => (nomatch matched),
                    fun both => absurd rfl both.1⟩
              | cons char rest =>
                  rw [if_neg (by simp), Option.isSome_map]
                  exact ⟨fun matched => ⟨List.cons_ne_nil _ _, matched⟩,
                    And.right⟩

/-- No route is known exactly when none matches. -/
theorem resolveRoutes_unknown
    (request : List Text) (method : Text) (routes : List Route) :
    resolveRoutes request method routes = .unknownRoute ↔
      ∀ route ∈ routes, matchPath route.segments request = none := by
  induction routes with
  | nil => exact ⟨fun _ _ member => (nomatch member), fun _ => rfl⟩
  | cons route routes induction =>
      rw [resolveRoutes, List.forall_mem_cons]
      cases matched : matchPath route.segments request with
      | none =>
          exact induction.trans ⟨fun none => ⟨rfl, none⟩, And.right⟩
      | some pathParams =>
          constructor
          · intro unknown
            split_ifs at unknown
          · rintro ⟨none, _⟩
            cases none

/-- The route that decides: the first that matches. -/
def firstMatch (request : List Text) (routes : List Route) : Option Route :=
  routes.find? fun route => (matchPath route.segments request).isSome

/-- The first match decides, and nothing else. -/
theorem resolveRoutes_of_firstMatch
    {request : List Text} {routes : List Route} {route : Route}
    (first : firstMatch request routes = some route) (method : Text) :
    ∃ pathParams, matchPath route.segments request = some pathParams ∧
      resolveRoutes request method routes =
        if route.methods.contains method then
          .matched route.template pathParams
        else .methodNotAllowed := by
  induction routes with
  | nil => cases first
  | cons head routes induction =>
      rw [firstMatch, List.find?_cons] at first
      rw [resolveRoutes]
      cases matched : matchPath head.segments request with
      | none =>
          rw [matched] at first
          exact induction first
      | some pathParams =>
          rw [matched] at first
          cases first
          exact ⟨pathParams, matched, rfl⟩

/-- The order of `build` is by rank. -/
theorem buildRouter_sorted (doc : Json) :
    (buildRouter doc).Pairwise fun left right => left.rank ≤ right.rank := by
  have sorted : (buildRouter doc).Pairwise fun left right =>
      decide (left.rank ≤ right.rank) = true := by
    apply List.pairwise_mergeSort
    · intro first second third
      simp only [decide_eq_true_eq]
      exact le_trans
    · intro first second
      simp only [Bool.or_eq_true, decide_eq_true_eq]
      exact le_total _ _
  exact sorted.imp fun smaller => of_decide_eq_true smaller

/-- The routes are those of the path items. -/
theorem mem_buildRouter {doc : Json} {route : Route} :
    route ∈ buildRouter doc ↔
      ∃ entry ∈ pathItems doc, routeOf entry = some route := by
  rw [buildRouter, List.mem_mergeSort, List.mem_filterMap]

/-- The first match is the least route that matches. -/
theorem firstMatch_least
    {request : List Text} {doc : Json} {route : Route}
    (first : firstMatch request (buildRouter doc) = some route) :
    route ∈ buildRouter doc ∧
      (matchPath route.segments request).isSome = true ∧
      ∀ other ∈ buildRouter doc,
        (matchPath other.segments request).isSome = true →
          route.rank ≤ other.rank := by
  obtain ⟨matched, before, after, split, skipped⟩ :=
    List.find?_eq_some_iff_append.mp first
  refine ⟨split ▸ List.mem_append_right _ List.mem_cons_self, matched, ?_⟩
  intro other member otherMatched
  have sorted := buildRouter_sorted doc
  rw [split] at sorted member
  rcases List.mem_append.mp member with early | late
  · have none := skipped other early
    rw [otherMatched] at none
    cases none
  · rcases List.mem_cons.mp late with rfl | later
    · exact le_rfl
    · exact (List.pairwise_cons.mp (List.pairwise_append.mp sorted).2.1).1
        other later

end LightWaf.Schema
