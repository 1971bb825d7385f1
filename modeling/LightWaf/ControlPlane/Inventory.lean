import LightWaf.Detection.JsonKeys
import LightWaf.Schema.ConformingRequests
import LightWaf.Schema.Resolution

/-!
# The inventory's view of the declared routes

`waf-controlplane/src/inventory.rs` has a router of its own, which is to
classify an observed path as the one of the datapath resolves it.  Both take
the first match of a sorted list, but the inventory sorts by specificity
alone: among templates that differ only in the names of their parameters the
one listed first decides, and in the datapath the one with the least text.
So the two agree on a document exactly when those two templates declare the
same methods.
-/

namespace LightWaf.ControlPlane.Inventory

open LightWaf.Rust
open LightWaf.Normalizer
open LightWaf.Schema (pathItems asObject declaredMethods DistinctTemplates
  Seg.Admits matchPath_isSome)
open LightWaf.Theory.StableSort

/-! ## The classifier -/

/-- `Classification`. -/
inductive Classification
  | documented
  | shadow
  | unclassified
deriving DecidableEq

/-- `Seg`: the name of a parameter is not kept. -/
inductive Seg
  | static (text : Text)
  | param
deriving DecidableEq

/-- `Route`: the template is not kept. -/
structure Route where
  segments : List Seg
  methods : List Text

/-- `split_segments`, word for word that of the datapath. -/
def splitSegments (path : Text) : List Text :=
  Schema.splitSegments path

/-- A segment wrapped in braces is a parameter. -/
def parseSegment (segment : Text) : Seg :=
  match (stripPrefix ['\x7b'] segment).bind (stripSuffix ['\x7d']) with
  | some name => if name.isEmpty then .static segment else .param
  | none => .static segment

/-- `parse_template`. -/
def parseTemplate (template : Text) : List Seg :=
  (splitSegments template).map parseSegment

/-- One segment of `route_matches`. -/
def Seg.matches : Seg → Text → Bool
  | .static text, value => text == value
  | .param, value => !value.isEmpty

/-- `route_matches`. -/
def routeMatches (segments : List Seg) (request : List Text) : Bool :=
  if segments.length != request.length then false
  else (segments.zip request).all fun (segment, value) =>
    segment.matches value

/-- `specificity`: smaller is more specific. -/
def specificity (segments : List Seg) : List Nat :=
  segments.map fun
    | .static _ => 0
    | .param => 1

/-- The route of a path item, unless it declares no operation. -/
def routeOf (entry : Text × Json) : Option Route :=
  (asObject entry.2).bind fun item =>
    let methods := declaredMethods item
    if methods.isEmpty then none
    else some ⟨parseTemplate entry.1, methods⟩

/-- The routes that `from_spec_json` keeps of a document. -/
def specRoutes (doc : Json) : List Route :=
  ((pathItems doc).filterMap routeOf).mergeSort fun left right =>
    decide (specificity left.segments ≤ specificity right.segments)

/-- `SpecRoutes::from_spec_json`. -/
def fromSpecJson (serde : SerdeJson) (json : Text) : Option (List Route) :=
  match serde.fromStr json with
  | .ok doc => some (specRoutes doc)
  | .error _ => none

/-- The loop of `SpecRoutes::classify` over the remaining routes. -/
def classifyRoutes (request : List Text) (method : Text) :
    List Route → Classification
  | [] => .shadow
  | route :: routes =>
      if routeMatches route.segments request then
        -- The method is checked on the first matching route only.
        if route.methods.contains method then .documented else .shadow
      else classifyRoutes request method routes

/-- `SpecRoutes::classify`. -/
def classify (routes : List Route) (method path : Text) : Classification :=
  classifyRoutes (splitSegments path) (toAsciiLowercase method) routes

/-! ## The routes of the datapath, without names -/

/-- The segment without the name of a parameter. -/
def forgetName : Schema.Seg → Seg
  | .static text => .static text
  | .param _ => .param

/-- The segments of a template, without the names of parameters. -/
def shape (route : Schema.Route) : List Seg :=
  route.segments.map forgetName

/-- The route without its template and the names of parameters. -/
def forget (route : Schema.Route) : Route :=
  ⟨shape route, route.methods⟩

theorem parseSegment_eq (segment : Text) :
    parseSegment segment = forgetName (Schema.parseSegment segment) := by
  rw [parseSegment, Schema.parseSegment]
  cases (stripPrefix ['\x7b'] segment).bind (stripSuffix ['\x7d']) with
  | none => rfl
  | some name =>
      dsimp only
      split_ifs
      · rfl
      · rfl

theorem parseTemplate_eq (template : Text) :
    parseTemplate template =
      (Schema.parseTemplate template).map forgetName := by
  rw [parseTemplate, Schema.parseTemplate, List.map_map]
  apply List.map_congr_left
  intro segment _
  exact parseSegment_eq segment

theorem routeOf_eq (entry : Text × Json) :
    routeOf entry = (Schema.routeOf entry).map forget := by
  rw [routeOf, Schema.routeOf]
  cases asObject entry.2 with
  | none => rfl
  | some item =>
      rw [Option.bind_some, Option.bind_some]
      dsimp only
      split_ifs
      · rfl
      · rw [parseTemplate_eq]
        rfl

theorem specificity_shape (segments : List Schema.Seg) :
    specificity (segments.map forgetName) = Schema.specificity segments := by
  rw [specificity, Schema.specificity, List.map_map]
  apply List.map_congr_left
  intro segment _
  cases segment <;> rfl

/-- The routes of a document in the order in which it lists them. -/
def listedRoutes (doc : Json) : List Schema.Route :=
  (pathItems doc).filterMap Schema.routeOf

/-- The specificity of a route. -/
def routeSpecificity (route : Schema.Route) : List Nat :=
  Schema.specificity route.segments

theorem specRoutes_eq (doc : Json) :
    specRoutes doc =
      (sortByKey routeSpecificity (listedRoutes doc)).map forget := by
  have forgotten : (pathItems doc).filterMap routeOf =
      (listedRoutes doc).map forget := by
    rw [listedRoutes, List.map_filterMap]
    exact List.filterMap_congr fun entry _ => routeOf_eq entry
  rw [specRoutes, forgotten, sortByKey, List.map_mergeSort]
  intro left _ right _
  rw [forget, forget, shape, shape, specificity_shape, specificity_shape]
  rfl

theorem routeMatches_cons
    (segment : Seg) (segments : List Seg) (value : Text)
    (request : List Text) :
    routeMatches (segment :: segments) (value :: request) =
      (segment.matches value && routeMatches segments request) := by
  rw [routeMatches, routeMatches, List.length_cons, List.length_cons,
    List.zip_cons_cons, List.all_cons]
  by_cases long : segments.length = request.length
  · simp [long]
  · simp [long]

theorem forgetName_matches (segment : Schema.Seg) (value : Text) :
    (forgetName segment).matches value = true ↔
      Seg.Admits Eq segment value := by
  cases segment with
  | static text => exact beq_iff_eq
  | param name => simp [forgetName, Seg.matches, Seg.Admits]

/-- Both routers match the same paths. -/
theorem routeMatches_iff (segments : List Schema.Seg) (request : List Text) :
    routeMatches (segments.map forgetName) request =
      (Schema.matchPath segments request).isSome := by
  have pairwise : routeMatches (segments.map forgetName) request = true ↔
      List.Forall₂ (Seg.Admits Eq) segments request := by
    induction segments generalizing request with
    | nil => cases request <;> simp [routeMatches]
    | cons segment segments induction =>
        cases request with
        | nil => simp [routeMatches]
        | cons value request =>
            rw [List.map_cons, routeMatches_cons, Bool.and_eq_true,
              forgetName_matches, induction, List.forall₂_cons]
  rw [Bool.eq_iff_iff, pairwise, matchPath_isSome]

/-! ## The routes that decide -/

/-- A route matches the segments of a path. -/
def matchesPath (request : List Text) (route : Schema.Route) : Bool :=
  (Schema.matchPath route.segments request).isSome

theorem classifyRoutes_documented_iff
    (request : List Text) (method : Text) (routes : List Schema.Route) :
    classifyRoutes request method (routes.map forget) = .documented ↔
      ∃ route, routes.find? (matchesPath request) = some route ∧
        method ∈ route.methods := by
  induction routes with
  | nil => simp [classifyRoutes]
  | cons route routes induction =>
      rw [List.map_cons, classifyRoutes, List.find?_cons, forget, shape,
        routeMatches_iff, matchesPath]
      cases (Schema.matchPath route.segments request).isSome with
      | false => exact induction
      | true => simp

theorem resolveRoutes_matched_iff
    (request : List Text) (method : Text) (routes : List Schema.Route) :
    (∃ template pathParams, Schema.resolveRoutes request method routes =
        .matched template pathParams) ↔
      ∃ route, routes.find? (matchesPath request) = some route ∧
        method ∈ route.methods := by
  cases first : Schema.firstMatch request routes with
  | none =>
      have unknown : Schema.resolveRoutes request method routes =
          .unknownRoute := by
        rw [Schema.resolveRoutes_unknown]
        intro route member
        have none := List.find?_eq_none.mp first route member
        exact Option.not_isSome_iff_eq_none.mp none
      rw [unknown]
      constructor
      · rintro ⟨_, _, impossible⟩
        cases impossible
      · rintro ⟨route, found, -⟩
        exact absurd (found.symm.trans first) (Option.some_ne_none route)
  | some route =>
      obtain ⟨pathParams, -, resolved⟩ :=
        Schema.resolveRoutes_of_firstMatch first method
      rw [resolved, List.contains_eq_mem]
      constructor
      · rintro ⟨template, params, matched⟩
        split_ifs at matched with declared
        exact ⟨route, first, of_decide_eq_true declared⟩
      · rintro ⟨other, found, declared⟩
        cases Option.some.inj (found.symm.trans first)
        rw [if_pos (decide_eq_true declared)]
        exact ⟨_, _, rfl⟩

/-- Routes of one shape are equally specific and match the same paths. -/
theorem same_of_shape
    {left right : Schema.Route} (same : shape left = shape right) :
    routeSpecificity left = routeSpecificity right ∧
      ∀ request, matchesPath request left = matchesPath request right := by
  constructor
  · rw [routeSpecificity, routeSpecificity, ← specificity_shape,
      ← specificity_shape]
    exact congrArg specificity same
  · intro request
    rw [matchesPath, matchesPath, ← routeMatches_iff, ← routeMatches_iff]
    exact congrArg (routeMatches · request) same

/-- Equally specific routes that match one path have one shape. -/
theorem shape_eq_of_match
    {request : List Text} {left right : Schema.Route}
    (leftMatches : matchesPath request left = true)
    (rightMatches : matchesPath request right = true)
    (same : routeSpecificity left = routeSpecificity right) :
    shape left = shape right := by
  rw [matchesPath, matchPath_isSome] at leftMatches rightMatches
  rw [routeSpecificity, routeSpecificity] at same
  rw [shape, shape]
  generalize left.segments = leftSegments at leftMatches same ⊢
  generalize right.segments = rightSegments at rightMatches same ⊢
  induction leftMatches generalizing rightSegments with
  | nil =>
      cases rightMatches
      rfl
  | cons admits rest induction =>
      cases rightMatches with
      | cons otherAdmits otherRest =>
          rw [Schema.specificity, List.map_cons, Schema.specificity,
            List.map_cons, List.cons.injEq] at same
          rw [List.map_cons, List.map_cons, induction _ otherRest same.2]
          congr 1
          rename_i segment value _ _ other _
          cases segment with
          | static text =>
              cases other with
              | static otherText =>
                  rw [Seg.Admits] at admits otherAdmits
                  rw [admits, otherAdmits]
              | param name => cases same.1
          | param name =>
              cases other with
              | static text => cases same.1
              | param otherName => rfl

/--
Among the routes of one shape the first that the document lists and the one
with the least template declare the same methods.
-/
def TiesAgree (doc : Json) : Prop :=
  ∀ before first after least,
    listedRoutes doc = before ++ first :: after →
    (∀ route ∈ before, shape route ≠ shape first) →
    least ∈ listedRoutes doc → shape least = shape first →
    (∀ route ∈ listedRoutes doc, shape route = shape first →
      least.template ≤ route.template) →
    first.methods = least.methods

/-- The route that the inventory goes by. -/
theorem inventory_decides
    {doc : Json} {request : List Text} {route : Schema.Route}
    (found : (sortByKey routeSpecificity (listedRoutes doc)).find?
      (matchesPath request) = some route) :
    route ∈ listedRoutes doc ∧ matchesPath request route = true ∧
      (∀ other ∈ listedRoutes doc, matchesPath request other = true →
        routeSpecificity route ≤ routeSpecificity other) ∧
      ∃ before after, listedRoutes doc = before ++ route :: after ∧
        ∀ other ∈ before, shape other ≠ shape route := by
  obtain ⟨member, matched, least, first⟩ := find?_sortByKey _ found
  refine ⟨member, matched, least, ?_⟩
  obtain ⟨-, before, after, split, skipped⟩ :=
    List.find?_eq_some_iff_append.mp first
  refine ⟨before, after, split, ?_⟩
  intro other early same
  have none := skipped other early
  obtain ⟨specific, matches_⟩ := same_of_shape same
  rw [matches_, matched, Bool.true_and, Bool.not_eq_true',
    decide_eq_false_iff_not] at none
  exact none specific

/-- The route that the datapath goes by. -/
theorem datapath_decides
    {doc : Json} {request : List Text} {route : Schema.Route}
    (found : (Schema.buildRouter doc).find? (matchesPath request) =
      some route) :
    route ∈ listedRoutes doc ∧ matchesPath request route = true ∧
      (∀ other ∈ listedRoutes doc, matchesPath request other = true →
        routeSpecificity route ≤ routeSpecificity other) ∧
      ∀ other ∈ listedRoutes doc, shape other = shape route →
        route.template ≤ other.template := by
  rw [Schema.buildRouter_eq_sortByKey] at found
  obtain ⟨member, matched, least, -⟩ := find?_sortByKey _ found
  refine ⟨member, matched, ?_, ?_⟩
  · intro other otherMember otherMatched
    rcases Schema.rank_le_iff.mp (least other otherMember otherMatched) with
      below | ⟨same, -⟩
    · exact le_of_lt below
    · exact le_of_eq same
  · intro other otherMember same
    obtain ⟨specific, matches_⟩ := same_of_shape same
    have otherMatched := (matches_ request).trans matched
    rcases Schema.rank_le_iff.mp (least other otherMember otherMatched) with
      below | ⟨-, text⟩
    · exact absurd below (not_lt_of_ge (le_of_eq specific))
    · exact text

/-- What either list finds, it finds among the routes of the document. -/
theorem exists_found_iff
    {doc : Json} {request : List Text} {routes : List Schema.Route}
    (perm : routes.Perm (listedRoutes doc)) :
    (∃ route, routes.find? (matchesPath request) = some route) ↔
      ∃ route ∈ listedRoutes doc, matchesPath request route = true := by
  rw [← Option.isSome_iff_exists, List.find?_isSome]
  constructor
  · rintro ⟨route, member, matched⟩
    exact ⟨route, perm.subset member, matched⟩
  · rintro ⟨route, member, matched⟩
    exact ⟨route, perm.symm.subset member, matched⟩

/-- Where ties agree, both routers find routes with the same methods. -/
theorem methods_eq_of_tiesAgree
    {doc : Json} (ties : TiesAgree doc) {request : List Text}
    {listed routed : Schema.Route}
    (inventory : (sortByKey routeSpecificity (listedRoutes doc)).find?
      (matchesPath request) = some listed)
    (datapath : (Schema.buildRouter doc).find? (matchesPath request) =
      some routed) :
    listed.methods = routed.methods := by
  obtain ⟨member, matched, least, before, after, split, earlier⟩ :=
    inventory_decides inventory
  obtain ⟨routedMember, routedMatched, routedLeast, text⟩ :=
    datapath_decides datapath
  have specific : routeSpecificity routed = routeSpecificity listed :=
    le_antisymm (routedLeast listed member matched)
      (least routed routedMember routedMatched)
  have same : shape routed = shape listed :=
    shape_eq_of_match routedMatched matched specific
  refine ties before listed after routed split earlier routedMember same ?_
  intro route routeMember shaped
  exact text route routeMember (shaped.trans same.symm)

/-! ## A path for every shape -/

/-- The number of characters of a literal. -/
def literalLength : Schema.Seg → Nat
  | .static text => text.length
  | .param _ => 0

/-- A value that is longer than every literal of the document. -/
def freshValue (doc : Json) : Text :=
  List.replicate (((listedRoutes doc).map fun route =>
    (route.segments.map literalLength).sum).sum + 1) 'x'

/-- A segment that is spelled out, or the value for a parameter. -/
def fill (value : Text) : Schema.Seg → Text
  | .static text => text
  | .param _ => value

/-- The path that spells a route, with fresh values for its parameters. -/
def samplePath (doc : Json) (route : Schema.Route) : Text :=
  (route.segments.map (fill (freshValue doc))).flatMap ('/' :: ·)

theorem freshValue_ne
    {doc : Json} {route : Schema.Route} (member : route ∈ listedRoutes doc)
    {text : Text} (inside : .static text ∈ route.segments) :
    text ≠ freshValue doc := by
  rintro rfl
  have within : (freshValue doc).length ≤
      (route.segments.map literalLength).sum :=
    List.le_sum_of_mem (List.mem_map_of_mem (f := literalLength) inside)
  have total := List.le_sum_of_mem
    (List.mem_map_of_mem (f := fun route : Schema.Route =>
      (route.segments.map literalLength).sum) member)
  rw [freshValue, List.length_replicate] at within
  omega

/-- The literals of a route can stand between slashes. -/
theorem literal_plain
    {doc : Json} {route : Schema.Route} (member : route ∈ listedRoutes doc)
    {text : Text} (inside : .static text ∈ route.segments) :
    text ≠ [] ∧ '/' ∉ text ∧ '?' ∉ text ∧ '#' ∉ text := by
  obtain ⟨entry, -, made⟩ := List.mem_filterMap.mp member
  rw [(Schema.routeOf_eq_some.mp made).2] at inside
  obtain ⟨segment, listed, parsed⟩ := List.mem_map.mp inside
  have literal : segment = text := by
    rw [Schema.parseSegment] at parsed
    split at parsed
    · split_ifs at parsed
      exact Schema.Seg.static.inj parsed
    · exact Schema.Seg.static.inj parsed
  subst literal
  obtain ⟨piece, nonempty⟩ := List.mem_filter.mp listed
  have kept : ∀ char ∈ segment, (char != '?' && char != '#') = true := by
    intro char here
    exact @List.mem_takeWhile_imp _ (fun char => char != '?' && char != '#')
      _ char (subset_of_mem_splitOn piece here)
  refine ⟨by simpa using nonempty, not_mem_of_mem_splitOn piece, ?_, ?_⟩
  · intro query
    exact absurd (kept '?' query) (by decide)
  · intro fragment
    exact absurd (kept '#' fragment) (by decide)

theorem filled_plain
    {doc : Json} {route : Schema.Route} (member : route ∈ listedRoutes doc) :
    ∀ value ∈ route.segments.map (fill (freshValue doc)),
      value ≠ [] ∧ '/' ∉ value ∧ '?' ∉ value ∧ '#' ∉ value := by
  intro value filled
  obtain ⟨segment, inside, rfl⟩ := List.mem_map.mp filled
  cases segment with
  | static text => exact literal_plain member inside
  | param name =>
      rw [fill, freshValue]
      refine ⟨List.replicate_succ ▸ List.cons_ne_nil _ _, ?_, ?_, ?_⟩
      all_goals
        intro here
        exact absurd (List.eq_of_mem_replicate here) (by decide)

theorem splitSegments_samplePath
    {doc : Json} {route : Schema.Route} (member : route ∈ listedRoutes doc) :
    Schema.splitSegments (samplePath doc route) =
      route.segments.map (fill (freshValue doc)) := by
  have plain := filled_plain member
  have outside : ∀ char, char ≠ '/' →
      (∀ value ∈ route.segments.map (fill (freshValue doc)),
        char ∉ value) → char ∉ samplePath doc route := by
    intro char notSlash absent here
    obtain ⟨value, filled, inside⟩ := List.mem_flatMap.mp here
    rcases List.mem_cons.mp inside with slash | inside
    · exact notSlash slash
    · exact absent value filled inside
  rw [Schema.splitSegments, Schema.beforeQuery_eq_self
    (outside '?' (by decide) fun value filled => (plain value filled).2.2.1)
    (outside '#' (by decide) fun value filled => (plain value filled).2.2.2)]
  exact Schema.slashSegments_flatMap fun value filled =>
    ⟨(plain value filled).1, (plain value filled).2.1⟩

/-- A list that is nowhere greater does not come later. -/
theorem le_of_forall₂_le {left right : List Nat}
    (below : List.Forall₂ (· ≤ ·) left right) : left ≤ right := by
  induction below with
  | nil => exact le_rfl
  | cons here rest induction =>
      rcases here.lt_or_eq with smaller | rfl
      · exact le_of_lt (List.Lex.rel smaller)
      · rcases induction.lt_or_eq with later | rfl
        · exact le_of_lt (List.Lex.cons later)
        · exact le_rfl

/-- What matches the path of a route is at most as specific. -/
theorem routeSpecificity_le
    {doc : Json} {route other : Schema.Route}
    (otherMember : other ∈ listedRoutes doc)
    (matched : matchesPath (route.segments.map (fill (freshValue doc)))
      other = true) :
    routeSpecificity route ≤ routeSpecificity other := by
  rw [matchesPath, matchPath_isSome, List.forall₂_map_right_iff] at matched
  have literals : ∀ text, .static text ∈ other.segments →
      text ≠ freshValue doc := fun text => freshValue_ne otherMember
  apply le_of_forall₂_le
  rw [routeSpecificity, routeSpecificity, Schema.specificity,
    Schema.specificity, List.forall₂_map_left_iff,
    List.forall₂_map_right_iff]
  generalize other.segments = others at matched literals
  generalize route.segments = segments at matched
  induction matched with
  | nil => exact .nil
  | @cons otherSegment segment others segments admits rest induction =>
      refine .cons ?_ (induction fun text inside =>
        literals text (List.mem_cons_of_mem _ inside))
      cases otherSegment with
      | param name =>
          cases segment with
          | static text => exact Nat.zero_le 1
          | param other => exact le_rfl
      | static text =>
          cases segment with
          | static other => exact le_rfl
          | param name =>
              exact absurd admits (literals text List.mem_cons_self)

theorem matchesPath_sample
    {doc : Json} {route : Schema.Route} (member : route ∈ listedRoutes doc) :
    matchesPath (route.segments.map (fill (freshValue doc))) route = true := by
  rw [matchesPath, matchPath_isSome, List.forall₂_map_right_iff,
    List.forall₂_same]
  intro segment inside
  cases segment with
  | static text => exact rfl
  | param name =>
      exact (filled_plain member _ (List.mem_map_of_mem inside)).1

theorem find?_shape
    {doc : Json} {before after : List Schema.Route} {first : Schema.Route}
    (split : listedRoutes doc = before ++ first :: after)
    (earlier : ∀ route ∈ before, shape route ≠ shape first) :
    (listedRoutes doc).find? (fun route =>
      decide (shape route = shape first)) = some first := by
  rw [List.find?_eq_some_iff_append]
  refine ⟨decide_eq_true rfl, before, after, split, ?_⟩
  intro route member
  simpa using earlier route member

/-- A path of its shape is decided in the inventory by the first listed. -/
theorem inventory_sample
    {doc : Json} {before after : List Schema.Route} {first : Schema.Route}
    (split : listedRoutes doc = before ++ first :: after)
    (earlier : ∀ route ∈ before, shape route ≠ shape first) :
    (sortByKey routeSpecificity (listedRoutes doc)).find?
      (matchesPath (first.segments.map (fill (freshValue doc)))) =
        some first := by
  have member : first ∈ listedRoutes doc :=
    List.mem_of_find?_eq_some (find?_shape split earlier)
  have matched := matchesPath_sample member
  obtain ⟨listed, found⟩ :=
    (exists_found_iff (sortByKey_perm routeSpecificity _)).mpr
      ⟨first, member, matched⟩
  obtain ⟨listedMember, listedMatched, least, front, back, cut, sooner⟩ :=
    inventory_decides found
  have same : shape listed = shape first :=
    shape_eq_of_match listedMatched matched (le_antisymm
      (least first member matched)
      (routeSpecificity_le listedMember listedMatched))
  -- Both are the first of their shape.
  have aligned : listed = first := by
    have firstFound := find?_shape split earlier
    rw [← same, find?_shape cut sooner] at firstFound
    exact Option.some.inj firstFound
  rw [found, aligned]

/-- The same path is decided in the datapath by the least template. -/
theorem datapath_sample
    {doc : Json} (distinct : DistinctTemplates doc)
    {first least : Schema.Route} (member : first ∈ listedRoutes doc)
    (leastMember : least ∈ listedRoutes doc)
    (shaped : shape least = shape first)
    (text : ∀ route ∈ listedRoutes doc, shape route = shape first →
      least.template ≤ route.template) :
    (Schema.buildRouter doc).find?
      (matchesPath (first.segments.map (fill (freshValue doc)))) =
        some least := by
  have matched := matchesPath_sample member
  obtain ⟨routed, found⟩ :=
    (exists_found_iff (sortByKey_perm Schema.Route.rank _)).mpr
      ⟨first, member, matched⟩
  obtain ⟨routedMember, routedMatched, routedLeast, routedText⟩ :=
    datapath_decides found
  have same : shape routed = shape first :=
    shape_eq_of_match routedMatched matched (le_antisymm
      (routedLeast first member matched)
      (routeSpecificity_le routedMember routedMatched))
  have templates : routed.template = least.template :=
    le_antisymm (routedText least leastMember (shaped.trans same.symm))
      (text routed routedMember same)
  have ranks : routed.rank = least.rank := by
    apply congrArg toLex
    rw [Prod.mk.injEq]
    exact ⟨(same_of_shape (same.trans shaped.symm)).1, templates⟩
  have equal : routed = least :=
    Schema.rank_injective distinct routed routedMember least leastMember ranks
  exact equal ▸ found

/-- The methods of a route are told apart by asking for each of them. -/
theorem methods_eq
    {doc : Json} {left right : Schema.Route}
    (leftMember : left ∈ listedRoutes doc)
    (rightMember : right ∈ listedRoutes doc)
    (same : ∀ method, toAsciiLowercase method ∈ left.methods ↔
      toAsciiLowercase method ∈ right.methods) :
    left.methods = right.methods := by
  have filtered : ∀ {route}, route ∈ listedRoutes doc → ∃ picks,
      route.methods =
        (Schema.httpMethods.map String.toList).filter picks := by
    intro route member
    obtain ⟨entry, -, made⟩ := List.mem_filterMap.mp member
    rw [Schema.routeOf] at made
    obtain ⟨item, -, made⟩ := Option.bind_eq_some_iff.mp made
    dsimp only at made
    split_ifs at made
    cases made
    exact ⟨fun name => (item.lookup name).isSome, rfl⟩
  obtain ⟨leftPicks, leftMethods⟩ := filtered leftMember
  obtain ⟨rightPicks, rightMethods⟩ := filtered rightMember
  rw [leftMethods, rightMethods] at same ⊢
  apply List.filter_congr
  intro method listed
  have lower : ∀ name ∈ Schema.httpMethods.map String.toList,
      toAsciiLowercase name = name := by
    decide
  have both := same method
  rw [lower method listed, List.mem_filter, List.mem_filter,
    and_iff_right listed, and_iff_right listed] at both
  exact Bool.eq_iff_iff.mpr both

/--
The inventory classifies a method and a path as documented exactly when the
datapath matches them, for all methods and paths, if and only if the document
settles its ties: of the templates that differ only in the names of their
parameters, the one listed first and the one with the least text declare the
same methods.
-/
theorem classify_agrees_iff
    {serde : SerdeJson} {json : Text} {doc : Json}
    (parsed : serde.fromStr json = .ok doc)
    (distinct : DistinctTemplates doc) :
    ∃ routes, fromSpecJson serde json = some routes ∧
      ((∀ method path, classify routes method path = .documented ↔
        ∃ template pathParams,
          Schema.resolve (Schema.buildRouter doc) path method =
            .matched template pathParams) ↔
        TiesAgree doc) := by
  refine ⟨specRoutes doc, by rw [fromSpecJson, parsed], ?_⟩
  have inventory : ∀ method path,
      classify (specRoutes doc) method path = .documented ↔
        ∃ route, (sortByKey routeSpecificity (listedRoutes doc)).find?
            (matchesPath (Schema.splitSegments path)) = some route ∧
          toAsciiLowercase method ∈ route.methods := by
    intro method path
    rw [classify, specRoutes_eq, classifyRoutes_documented_iff]
    rfl
  have datapath : ∀ method path,
      (∃ template pathParams,
        Schema.resolve (Schema.buildRouter doc) path method =
          .matched template pathParams) ↔
        ∃ route, (Schema.buildRouter doc).find?
            (matchesPath (Schema.splitSegments path)) = some route ∧
          toAsciiLowercase method ∈ route.methods := by
    intro method path
    exact resolveRoutes_matched_iff _ _ _
  simp only [inventory, datapath]
  constructor
  · intro agree before first after least split earlier leastMember shaped
      text
    have member : first ∈ listedRoutes doc :=
      List.mem_of_find?_eq_some (find?_shape split earlier)
    apply methods_eq member leastMember
    intro method
    have here := agree method (samplePath doc first)
    rw [splitSegments_samplePath member, inventory_sample split earlier,
      datapath_sample distinct member leastMember shaped text] at here
    simpa using here
  · intro ties method path
    constructor
    · rintro ⟨listed, found, declared⟩
      obtain ⟨member, matched, -⟩ := inventory_decides found
      obtain ⟨routed, routedFound⟩ :=
        (exists_found_iff (sortByKey_perm Schema.Route.rank _)).mpr
          ⟨listed, member, matched⟩
      rw [methods_eq_of_tiesAgree ties found routedFound] at declared
      exact ⟨routed, routedFound, declared⟩
    · rintro ⟨routed, routedFound, declared⟩
      obtain ⟨member, matched, -⟩ := datapath_decides routedFound
      obtain ⟨listed, found⟩ :=
        (exists_found_iff (sortByKey_perm routeSpecificity _)).mpr
          ⟨routed, member, matched⟩
      rw [← methods_eq_of_tiesAgree ties found routedFound] at declared
      exact ⟨listed, found, declared⟩

/-- A document that lists its templates in order settles its ties. -/
theorem tiesAgree_of_sorted
    {doc : Json} (distinct : DistinctTemplates doc)
    (sorted : (listedRoutes doc).Pairwise fun left right =>
      left.template ≤ right.template) :
    TiesAgree doc := by
  intro before first after least split earlier leastMember shaped text
  have member : first ∈ listedRoutes doc :=
    List.mem_of_find?_eq_some (find?_shape split earlier)
  have below : least.template ≤ first.template := text first member rfl
  have above : first.template ≤ least.template := by
    rw [split] at sorted leastMember
    rcases List.mem_append.mp leastMember with early | late
    · exact absurd shaped (earlier least early)
    · rcases List.mem_cons.mp late with rfl | later
      · exact le_rfl
      · exact (List.pairwise_cons.mp (List.pairwise_append.mp sorted).2.1).1
          least later
  have ranks : first.rank = least.rank := by
    apply congrArg toLex
    rw [Prod.mk.injEq]
    exact ⟨(same_of_shape shaped.symm).1, le_antisymm above below⟩
  rw [Schema.rank_injective distinct first member least leastMember ranks]

/-- An OpenAPI document with the given paths. -/
def apiDocument (paths : List (Text × Json)) : Json :=
  .object
    [("openapi".toList, .string "3.0.3".toList),
      ("info".toList, .object
        [("title".toList, .string "t".toList),
          ("version".toList, .string "1".toList)]),
      ("paths".toList, .object paths)]

theorem pathItems_apiDocument (paths : List (Text × Json)) :
    pathItems (apiDocument paths) = paths := rfl

/-- The text of an OpenAPI document with two paths. -/
def apiText (first second : String) : Text :=
  ("\x7b\x22openapi\x22:\x223.0.3\x22," ++
    "\x22info\x22:\x7b\x22title\x22:\x22t\x22,\x22version\x22:\x221\x22\x7d," ++
    "\x22paths\x22:\x7b" ++ first ++ "," ++ second ++ "\x7d\x7d").toList

/-- Two paths that differ only in the name of their parameter. -/
def renamedPaths : List (Text × Json) :=
  [("/a/\x7by\x7d".toList, .object [("get".toList, .object [])]),
    ("/a/\x7bx\x7d".toList, .object [("post".toList, .object [])])]

/-- The text of the document with these paths. -/
def renamedText : Text :=
  apiText "\x22/a/\x7by\x7d\x22:\x7b\x22get\x22:\x7b\x7d\x7d"
    "\x22/a/\x7bx\x7d\x22:\x7b\x22post\x22:\x7b\x7d\x7d"

/-- The text of the document that lists them the other way round. -/
def orderedText : Text :=
  apiText "\x22/a/\x7bx\x7d\x22:\x7b\x22post\x22:\x7b\x7d\x7d"
    "\x22/a/\x7by\x7d\x22:\x7b\x22get\x22:\x7b\x7d\x7d"

theorem distinctTemplates_ordered :
    DistinctTemplates (apiDocument renamedPaths.reverse) := by
  rw [DistinctTemplates]
  decide

theorem classify_disagrees_renamed :
    fromSpecJson
        (Detection.readerOf renamedText (apiDocument renamedPaths))
        renamedText = some (specRoutes (apiDocument renamedPaths)) ∧
      classify (specRoutes (apiDocument renamedPaths)) "GET".toList
        "/a/1".toList = .documented ∧
      Schema.resolve (Schema.buildRouter (apiDocument renamedPaths))
        "/a/1".toList "GET".toList = .methodNotAllowed := by
  refine ⟨?_, ?_, ?_⟩
  · rw [fromSpecJson, Detection.readerOf_fromStr]
  · have inOrder : specRoutes (apiDocument renamedPaths) =
        renamedPaths.filterMap routeOf := by
      rw [specRoutes, pathItems_apiDocument]
      apply List.mergeSort_of_pairwise
      decide
    rw [inOrder]
    decide
  · have swap : (pathItems (apiDocument renamedPaths)).Perm
        (pathItems (apiDocument renamedPaths.reverse)) := by
      rw [pathItems_apiDocument, pathItems_apiDocument]
      exact (List.reverse_perm renamedPaths).symm
    have inOrder : Schema.buildRouter (apiDocument renamedPaths.reverse) =
        renamedPaths.reverse.filterMap Schema.routeOf := by
      rw [Schema.buildRouter, pathItems_apiDocument]
      apply List.mergeSort_of_pairwise
      decide
    rw [Schema.buildRouter_eq_of_perm distinctTemplates_ordered swap,
      inOrder]
    decide

theorem classify_agrees_ordered :
    (Detection.readerOf orderedText
        (apiDocument renamedPaths.reverse)).fromStr orderedText =
        .ok (apiDocument renamedPaths.reverse) ∧
      DistinctTemplates (apiDocument renamedPaths.reverse) ∧
      ∃ routes,
        fromSpecJson (Detection.readerOf orderedText
          (apiDocument renamedPaths.reverse)) orderedText = some routes ∧
        ∀ method path, classify routes method path = .documented ↔
          ∃ template pathParams,
            Schema.resolve
              (Schema.buildRouter (apiDocument renamedPaths.reverse))
              path method = .matched template pathParams := by
  have parsed : (Detection.readerOf orderedText
      (apiDocument renamedPaths.reverse)).fromStr orderedText =
        .ok (apiDocument renamedPaths.reverse) :=
    Detection.readerOf_fromStr _ _
  have sorted : (listedRoutes (apiDocument renamedPaths.reverse)).Pairwise
      fun left right => left.template ≤ right.template := by
    decide
  obtain ⟨routes, read, agree⟩ :=
    classify_agrees_iff parsed distinctTemplates_ordered
  exact ⟨parsed, distinctTemplates_ordered, routes, read,
    agree.mpr (tiesAgree_of_sorted distinctTemplates_ordered sorted)⟩

end LightWaf.ControlPlane.Inventory
