import LightWaf.Crs.Module
import Mathlib.Algebra.Order.Monoid.Unbundled.WithTop

/-!
# Buckets evaluate their rules

Grouping rules into buckets loses, duplicates and misattributes nothing: the
items of a request are those of its rules evaluated one by one, as a multiset,
whether or not the pattern set of each bucket can be built.  A panic of one
side is a panic of the other.
-/

namespace LightWaf.Crs

open LightWaf.Rust
open LightWaf.Core
open LightWaf.Detection

/-! ## Groups -/

/-- What a bucket keeps of a rule. -/
structure Row where
  pattern : Text
  id : Nat
  severity : Severity

/-- The rules of a bucket, with its variables and transforms. -/
structure Group where
  targets : List Variable
  transforms : List Transform
  rows : List Row

/-- The bucket of a group: three vectors aligned by index. -/
def Group.bucket (group : Group) : Bucket where
  targets := group.targets
  transforms := group.transforms
  patterns := group.rows.map Row.pattern
  ids := group.rows.map Row.id
  severities := group.rows.map Row.severity

/-- A row as a rule of its own. -/
def Group.compiled (group : Group) (row : Row) : Compiled :=
  ⟨row.id, row.severity,
    [⟨group.targets, group.transforms, .rx row.pattern, false⟩]⟩

/-- The rules of a group, one by one. -/
def Group.rules (group : Group) : List Compiled :=
  group.rows.map group.compiled

/-- The entry of a group in the map. -/
def Group.entry (tables : DebugTables) (group : Group) : Text × Bucket :=
  (bucketKey tables group.targets group.transforms, group.bucket)

section Regex

variable (regex : RegexCrate)

/-- A group has rules, and each pattern compiles. -/
structure Group.Valid (group : Group) : Prop where
  nonempty : group.rows ≠ []
  compiles : ∀ row ∈ group.rows, regex.compiles row.pattern = .ok ()

/-! ## Evaluating a bucket -/

/-- A hit vector given by a function. -/
def flags (count : Nat) (hit : Nat → Bool) : List Bool :=
  (List.range count).map hit

theorem flags_set
    (count : Nat) (hit : Nat → Bool) (index : Nat) :
    (flags count hit).set index true =
      flags count fun other => hit other || other == index := by
  apply List.ext_getElem
  · simp [flags]
  · intro position left right
    rw [List.getElem_set]
    simp only [flags, List.getElem_map, List.getElem_range]
    split_ifs with same
    · simp [same]
    · simp [Ne.symm same]

theorem markHits_flags
    (count : Nat) (hit : Nat → Bool) (indices : List Nat)
    (bounded : ∀ index ∈ indices, index < count) :
    markHits (flags count hit) indices =
      some (flags count fun index => hit index || indices.contains index) := by
  induction indices generalizing hit with
  | nil => simp [markHits]
  | cons index rest induction =>
      have inside : index < (flags count hit).length := by
        simpa [flags] using bounded index (by simp)
      have later := induction (fun other => hit other || other == index)
        fun other member => bounded other (by simp [member])
      rw [markHits] at later ⊢
      rw [List.foldlM_cons, if_pos inside, Option.bind_eq_bind,
        Option.bind_some, flags_set, later]
      congr 2
      funext other
      rw [List.contains_cons, Bool.or_assoc]

/-- The hits of all values. -/
theorem foldlM_markHits
    (count : Nat) (hit : Nat → Bool) (found : Text → List Nat)
    (values : List Text)
    (bounded : ∀ value, ∀ index ∈ found value, index < count) :
    values.foldlM (fun hit value => markHits hit (found value))
        (flags count hit) =
      some (flags count fun index =>
        hit index || values.any fun value => (found value).contains index) := by
  induction values generalizing hit with
  | nil => simp
  | cons value rest induction =>
      rw [List.foldlM_cons, markHits_flags count hit _ (bounded value),
        Option.bind_eq_bind, Option.bind_some, induction]
      simp [Bool.or_assoc]

/-- The marked indices of a hit vector. -/
theorem filter_flags (count : Nat) (hit : Nat → Bool) :
    (List.range (flags count hit).length).filter
        (fun index => decide ((flags count hit)[index]? = some true)) =
      (List.range count).filter hit := by
  have length : (flags count hit).length = count := by simp [flags]
  rw [length]
  apply List.filter_congr
  intro index member
  have inside : index < count := List.mem_range.mp member
  simp [flags, List.getElem?_range inside]

/-- Reading a list through the indices that satisfy a predicate. -/
theorem mapM_range_filter
    {α β : Type} (keep : α → Bool) (read : α → β) (items : List α) :
    ((List.range items.length).filter fun index =>
        items[index]?.any keep).mapM (fun index => items[index]?.map read) =
      some ((items.filter keep).map read) := by
  induction items with
  | nil => rfl
  | cons item rest induction =>
      have shifted : ((List.range rest.length).map Nat.succ).filter
          (fun index => (item :: rest)[index]?.any keep) =
          ((List.range rest.length).filter fun index =>
            rest[index]?.any keep).map Nat.succ := by
        rw [List.filter_map]
        rfl
      rw [List.length_cons, List.range_succ_eq_map, List.filter_cons,
        List.filter_cons, shifted]
      have later : (((List.range rest.length).filter fun index =>
          rest[index]?.any keep).map Nat.succ).mapM
            (fun index => (item :: rest)[index]?.map read) =
          some ((rest.filter keep).map read) := by
        rw [List.mapM_map]
        exact induction
      by_cases kept : keep item = true
      · rw [if_pos (by simpa using kept), if_pos kept, List.mapM_cons, later]
        rfl
      · rw [if_neg (by simpa using kept), if_neg kept, later]

/-- Reading a list through all its indices. -/
theorem mapM_range
    {α β : Type} (read : α → β) (items : List α) :
    (List.range items.length).mapM (fun index => items[index]?.map read) =
      some (items.map read) := by
  have all := mapM_range_filter (fun _ => true) read items
  rw [List.filter_true] at all
  rw [← all]
  congr 1
  symm
  apply List.filter_eq_self.mpr
  intro index member
  have inside := List.mem_range.mp member
  rw [List.getElem?_eq_getElem inside]
  rfl

/-- Whether a row's pattern matches one of the values. -/
def Row.hits (values : List Text) (row : Row) : Bool :=
  values.any (regex.isMatch row.pattern)

/-- The item of a row. -/
def Row.item (row : Row) : ScoreItem :=
  crsItem row.id row.severity

/-- A set's matches are the rows whose pattern matches. -/
theorem contains_setMatches
    (group : Group) (value : Text) (index : Nat) :
    (regex.engine.setMatches (group.bucket.patterns.map String.ofList)
        value).contains index =
      group.rows[index]?.any fun row => regex.isMatch row.pattern value := by
  rw [Bool.eq_iff_iff, List.contains_iff_mem, regex.engine.mem_setMatches,
    Option.any_eq_true]
  simp only [Group.bucket, List.map_map, List.getElem?_map,
    Option.map_eq_some_iff, Function.comp_apply]
  constructor
  · rintro ⟨pattern, ⟨row, found, rfl⟩, matched⟩
    exact ⟨row, found, matched⟩
  · rintro ⟨row, found, matched⟩
    exact ⟨_, ⟨row, found, rfl⟩, matched⟩

/-- The items of a bucket, from the values it collects. -/
theorem bucketItems_of_values
    (ctx : RequestContext) (group : Group) {values : List Text}
    (collected : valuesFor ctx group.targets group.transforms =
      some values) :
    bucketItems regex ctx group.bucket =
      some ((group.rows.filter (Row.hits regex values)).map Row.item) := by
  have bounded : ∀ value, ∀ index ∈ regex.engine.setMatches
      (group.bucket.patterns.map String.ofList) value,
      index < group.rows.length := by
    intro value index member
    rw [← List.contains_iff_mem, contains_setMatches, Option.any_eq_true]
      at member
    obtain ⟨row, found, -⟩ := member
    exact (List.getElem?_eq_some_iff.mp found).1
  have start : List.replicate group.bucket.ids.length false =
      flags group.rows.length fun _ => false := by
    simp [flags, Group.bucket]
  have marked := foldlM_markHits group.rows.length (fun _ => false)
    (fun value => regex.engine.setMatches
      (group.bucket.patterns.map String.ofList) value) values bounded
  rw [bucketItems]
  simp only [Group.bucket] at collected start marked ⊢
  rw [collected, Option.bind_eq_bind, Option.bind_some]
  split_ifs with empty
  · simp [empty, Row.hits]
  · rw [start, marked, Option.bind_eq_bind, Option.bind_some]
    have hits : ∀ index, (false || values.any fun value =>
        (regex.engine.setMatches ((group.rows.map Row.pattern).map
          String.ofList) value).contains index) =
        group.rows[index]?.any (Row.hits regex values) := by
      intro index
      have each := fun value => contains_setMatches regex group value index
      simp only [Group.bucket] at each
      simp only [each, Bool.false_or]
      cases group.rows[index]? with
      | none => simp
      | some row => rfl
    have read : (fun index : Nat => do
        let id ← (group.rows.map Row.id)[index]?
        let severity ← (group.rows.map Row.severity)[index]?
        some (crsItem id severity)) =
        fun index => group.rows[index]?.map Row.item := by
      funext index
      rw [List.getElem?_map, List.getElem?_map]
      cases group.rows[index]? <;> rfl
    rw [filter_flags, read]
    simp only [hits]
    exact mapM_range_filter (Row.hits regex values) Row.item group.rows

/-- A row as a rule of its own collects the values of its group. -/
theorem slowItems_compiled
    (ctx : RequestContext) (group : Group) (row : Row) :
    slowItems regex ctx (group.compiled row) =
      (valuesFor ctx group.targets group.transforms).map fun values =>
        if row.hits regex values then [row.item] else [] := by
  rw [slowItems, evalCompiled, Group.compiled, evalLinks, evalLink]
  cases valuesFor ctx group.targets group.transforms with
  | none => rfl
  | some values =>
      have matcher : values.any ((Matcher.rx row.pattern).isMatch regex) =
          row.hits regex values :=
        rfl
      simp only [Option.bind_eq_bind, Option.bind_some, Option.map_some,
        matcher]
      cases row.hits regex values <;> rfl

/-- A bucket gives the items of its rules evaluated one by one. -/
theorem bucketItems_eq
    (ctx : RequestContext) {group : Group} (nonempty : group.rows ≠ []) :
    bucketItems regex ctx group.bucket =
      (group.rules.mapM (slowItems regex ctx)).map List.flatten := by
  have each : (slowItems regex ctx) ∘ group.compiled =
      fun row => (valuesFor ctx group.targets group.transforms).map
        fun values => if row.hits regex values then [row.item] else [] := by
    funext row
    exact slowItems_compiled regex ctx group row
  rw [Group.rules, List.mapM_map]
  cases collected : valuesFor ctx group.targets group.transforms with
  | none =>
      have panics : bucketItems regex ctx group.bucket = none := by
        rw [bucketItems]
        simp only [Group.bucket, collected]
        rfl
      rw [panics, each, collected]
      cases rows : group.rows with
      | nil => exact absurd rows nonempty
      | cons row rest => rfl
  | some values =>
      have flattened : ∀ rows : List Row,
          (rows.mapM fun row => some
            (if row.hits regex values then [row.item] else [])).map
              List.flatten =
          some ((rows.filter (Row.hits regex values)).map Row.item) := by
        intro rows
        induction rows with
        | nil => rfl
        | cons row rest induction =>
            rw [Option.map_eq_some_iff] at induction ⊢
            obtain ⟨later, run, items⟩ := induction
            refine ⟨_, by rw [List.mapM_cons, run]; rfl, ?_⟩
            rw [List.flatten_cons, items, List.filter_cons]
            cases row.hits regex values <;> rfl
      rw [bucketItems_of_values regex ctx group collected, each, collected]
      exact (flattened group.rows).symm

/-! ## Tallies -/

/-- The items of an outcome as a multiset; a panic is the top. -/
def tally (outcome : Option (List ScoreItem)) : WithTop (Multiset ScoreItem) :=
  outcome.map Multiset.ofList

/-- The items of a sequence of outcomes. -/
theorem tally_mapM
    {α : Type} (items : α → Option (List ScoreItem)) (inputs : List α) :
    tally ((inputs.mapM items).map List.flatten) =
      (inputs.map fun input => tally (items input)).sum := by
  induction inputs with
  | nil => rfl
  | cons input rest induction =>
      rw [List.map_cons, List.sum_cons, ← induction, List.mapM_cons]
      cases items input with
      | none => exact (WithTop.top_add _).symm
      | some first =>
          cases rest.mapM items with
          | none => exact (WithTop.add_top _).symm
          | some later =>
              rfl

/-- The items of rules evaluated one by one. -/
def total (ctx : RequestContext) (rules : List Compiled) :
    WithTop (Multiset ScoreItem) :=
  (rules.map fun rule => tally (slowItems regex ctx rule)).sum

theorem total_append
    (ctx : RequestContext) (left right : List Compiled) :
    total regex ctx (left ++ right) =
      total regex ctx left + total regex ctx right := by
  rw [total, List.map_append, List.sum_append]
  rfl

theorem total_perm
    (ctx : RequestContext) {left right : List Compiled}
    (same : left.Perm right) :
    total regex ctx left = total regex ctx right :=
  (same.map _).sum_eq

theorem tally_bucketItems
    (ctx : RequestContext) {group : Group} (nonempty : group.rows ≠ []) :
    tally (bucketItems regex ctx group.bucket) =
      total regex ctx group.rules := by
  rw [bucketItems_eq regex ctx nonempty, tally_mapM]
  rfl

/-! ## Loading -/

/-- The rules that compile, one by one. -/
def compiledRules (rules : List CrsRule) : List Compiled :=
  rules.filterMap fun rule => (compileRule regex rule).toOption

/-- A group with the row of one more rule. -/
def Group.push (group : Group) (pattern : Text) (rule : CrsRule) : Group :=
  { group with
    rows := group.rows ++ [⟨pattern, rule.id, rule.severity⟩] }

theorem Group.push_valid
    {group : Group} {pattern : Text}
    (old : ∀ row ∈ group.rows, regex.compiles row.pattern = .ok ())
    (compiles : regex.compiles pattern = .ok ()) (rule : CrsRule) :
    (group.push pattern rule).Valid regex where
  nonempty := by simp [Group.push]
  compiles row inside := by
    rcases List.mem_append.mp inside with early | new
    · exact old row early
    · rw [List.mem_singleton.mp new]
      exact compiles

theorem Group.rules_push
    (group : Group) (pattern : Text) (rule : CrsRule) :
    (group.push pattern rule).rules =
      group.rules ++
        [⟨rule.id, rule.severity,
          [⟨group.targets, group.transforms, .rx pattern, false⟩]⟩] := by
  rw [Group.rules, Group.push, List.map_append]
  rfl

theorem Group.entry_push
    (tables : DebugTables) (group : Group) (pattern : Text)
    (rule : CrsRule) :
    (group.push pattern rule).entry tables =
      ((group.entry tables).1,
        (group.entry tables).2.push pattern rule) := by
  simp [Group.push, Group.entry, Group.bucket, Bucket.push]

/-- A rule joins the group with its key, or starts one. -/
theorem upsert_groups
    (tables : DebugTables) (groups : List Group)
    (valid : ∀ group ∈ groups, group.Valid regex)
    (pattern : Text) (rule : CrsRule)
    (compiles : regex.compiles pattern = .ok ()) :
    ∃ groups' : List Group,
      upsert (bucketKey tables rule.head.targets rule.head.transforms)
          { targets := rule.head.targets
            transforms := rule.head.transforms }
          (fun bucket => bucket.push pattern rule)
          (groups.map (Group.entry tables)) =
        groups'.map (Group.entry tables) ∧
      (∀ group ∈ groups', group.Valid regex) ∧
      (groups'.flatMap Group.rules).Perm
        (groups.flatMap Group.rules ++
          [⟨rule.id, rule.severity,
            [⟨rule.head.targets, rule.head.transforms, .rx pattern,
              false⟩]⟩]) := by
  have fresh : ((⟨rule.head.targets, rule.head.transforms, []⟩ :
      Group).push pattern rule).Valid regex :=
    Group.push_valid regex (List.forall_mem_nil _) compiles rule
  induction groups with
  | nil =>
      refine ⟨[Group.push ⟨rule.head.targets, rule.head.transforms, []⟩
        pattern rule], rfl, ?_, List.Perm.refl _⟩
      exact List.forall_mem_singleton.mpr fresh
  | cons group rest induction =>
      obtain ⟨here, others⟩ := List.forall_mem_cons.mp valid
      rw [List.map_cons, Group.entry, upsert]
      split_ifs with same before
      · obtain ⟨targets, transforms⟩ := bucketKey_injective tables same
        refine ⟨group.push pattern rule :: rest, ?_, ?_, ?_⟩
        · rw [List.map_cons, Group.entry_push]
          rfl
        · exact List.forall_mem_cons.mpr
            ⟨Group.push_valid regex here.compiles compiles rule, others⟩
        · rw [List.flatMap_cons, List.flatMap_cons, Group.rules_push,
            List.append_assoc, List.append_assoc, ← targets, ← transforms]
          exact (List.perm_append_comm).append_left _
      · refine ⟨Group.push ⟨rule.head.targets, rule.head.transforms, []⟩
          pattern rule :: group :: rest, rfl, ?_, ?_⟩
        · exact List.forall_mem_cons.mpr ⟨fresh, valid⟩
        · rw [List.flatMap_cons]
          exact List.perm_append_comm
      · obtain ⟨groups', updated, valid', perm⟩ := induction others
        refine ⟨group :: groups', ?_, ?_, ?_⟩
        · rw [List.map_cons, ← updated]
          rfl
        · exact List.forall_mem_cons.mpr ⟨here, valid'⟩
        · rw [List.flatMap_cons, List.flatMap_cons, List.append_assoc]
          exact perm.append_left _

/-- A fast rule compiles to its single link exactly if its pattern does. -/
theorem compileRule_fast
    {rule : CrsRule} {pattern : Text}
    (fast : fastPattern rule = some pattern) :
    (compileRule regex rule).toOption =
      (regex.compiles pattern).toOption.map fun _ =>
        ⟨rule.id, rule.severity,
          [⟨rule.head.targets, rule.head.transforms, .rx pattern, false⟩]⟩ := by
  rw [fastPattern] at fast
  split_ifs at fast with single
  obtain ⟨unchained, positive⟩ := single
  have operator : rule.head.operator = .rx pattern := by
    cases shape : rule.head.operator with
    | rx other =>
        rw [shape] at fast
        rw [Option.some.inj fast]
    | _ =>
        rw [shape] at fast
        cases fast
  simp only [compileRule, compileLink, operator, compile, unchained, positive]
  cases regex.compiles pattern <;> rfl

/-- One rule of the loading loop. -/
theorem loadRule_groups
    (tables : DebugTables) {loading : Loading} {groups : List Group}
    (loaded : loading.fastMap = groups.map (Group.entry tables))
    (valid : ∀ group ∈ groups, group.Valid regex) (rule : CrsRule) :
    ∃ groups' : List Group,
      (loadRule regex tables loading rule).fastMap =
        groups'.map (Group.entry tables) ∧
      (∀ group ∈ groups', group.Valid regex) ∧
      (groups'.flatMap Group.rules ++
          (loadRule regex tables loading rule).slow).Perm
        ((groups.flatMap Group.rules ++ loading.slow) ++
          (compileRule regex rule).toOption.toList) := by
  unfold loadRule
  dsimp only
  split
  · next pattern fast =>
      have compiled := compileRule_fast regex fast
      split
      · next error failed =>
          rw [failed] at compiled
          refine ⟨groups, loaded, valid, ?_⟩
          rw [compiled]
          exact (List.append_nil _).symm ▸ List.Perm.refl _
      · next ok compiles =>
          rw [compiles] at compiled
          obtain ⟨groups', updated, valid', perm⟩ := upsert_groups regex tables
            groups valid pattern rule compiles
          refine ⟨groups', ?_, valid', ?_⟩
          · rw [← updated, ← loaded]
          · rw [compiled]
            refine (perm.append_right _).trans ?_
            rw [List.append_assoc, List.append_assoc]
            exact (List.perm_append_comm).append_left _
  · split
    · next compiled ok =>
        refine ⟨groups, loaded, valid, ?_⟩
        rw [ok, ← List.append_assoc]
        exact List.Perm.refl _
    · next reason failed =>
        refine ⟨groups, loaded, valid, ?_⟩
        rw [failed]
        exact (List.append_nil _).symm ▸ List.Perm.refl _

/-- Loading keeps every rule that compiles, in a group or on its own. -/
theorem loadRules_groups
    (tables : DebugTables) (rules : List CrsRule) (loading : Loading)
    (groups : List Group)
    (loaded : loading.fastMap = groups.map (Group.entry tables))
    (valid : ∀ group ∈ groups, group.Valid regex) :
    ∃ groups' : List Group,
      (rules.foldl (loadRule regex tables) loading).fastMap =
        groups'.map (Group.entry tables) ∧
      (∀ group ∈ groups', group.Valid regex) ∧
      (groups'.flatMap Group.rules ++
          (rules.foldl (loadRule regex tables) loading).slow).Perm
        ((groups.flatMap Group.rules ++ loading.slow) ++
          compiledRules regex rules) := by
  induction rules generalizing loading groups with
  | nil =>
      refine ⟨groups, loaded, valid, ?_⟩
      simp [compiledRules]
  | cons rule rest induction =>
      obtain ⟨middle, stepped, middleValid, stepPerm⟩ :=
        loadRule_groups regex tables loaded valid rule
      obtain ⟨groups', ended, valid', perm⟩ := induction _ middle stepped
        middleValid
      refine ⟨groups', ended, valid', perm.trans ?_⟩
      have split : compiledRules regex (rule :: rest) =
          (compileRule regex rule).toOption.toList ++
            compiledRules regex rest := by
        rw [compiledRules, List.filterMap_cons]
        cases (compileRule regex rule).toOption <;> rfl
      rw [split, ← List.append_assoc]
      exact stepPerm.append_right _

/-! ## Building the buckets -/

/-- The rules of a group whose set cannot be built. -/
theorem degrade_bucket
    {group : Group} (valid : group.Valid regex) :
    degrade regex group.bucket = some group.rules := by
  have each : degradeAt regex group.bucket = fun index =>
      group.rows[index]?.map fun row => [group.compiled row] := by
    funext index
    simp only [degradeAt, Group.bucket, List.getElem?_map]
    cases found : group.rows[index]? with
    | none => rfl
    | some row =>
        have compiles := valid.compiles row (List.mem_of_getElem? found)
        simp only [Option.map_some, Option.bind_eq_bind, Option.bind_some,
          compiles]
        rfl
  have length : group.bucket.patterns.length = group.rows.length := by
    simp [Group.bucket]
  rw [degrade, length, each, mapM_range, Option.map_some, Group.rules]
  congr 1
  induction group.rows with
  | nil => rfl
  | cons row rest induction =>
      rw [List.map_cons, List.flatten_cons, induction]
      rfl

/-- Every group becomes a bucket or its rules one by one. -/
theorem buildBuckets
    (groups : List Group) (valid : ∀ group ∈ groups, group.Valid regex)
    (fast : List Group) (slow : List Compiled) :
    ∃ (fast' : List Group) (slow' : List Compiled),
      (groups.map Group.bucket).foldlM (buildBucket regex)
        (fast.map Group.bucket, slow) = some (fast'.map Group.bucket, slow') ∧
      (∀ group ∈ fast', group ∈ fast ∨ group ∈ groups) ∧
      (fast'.flatMap Group.rules ++ slow').Perm
        (fast.flatMap Group.rules ++ slow ++
          groups.flatMap Group.rules) := by
  induction groups generalizing fast slow with
  | nil => exact ⟨fast, slow, rfl, fun group member => Or.inl member, by simp⟩
  | cons group rest induction =>
      have later := induction fun other member =>
        valid other (by simp [member])
      rw [List.map_cons, List.foldlM_cons, buildBucket]
      split_ifs with builds
      · obtain ⟨fast', slow', built, members, perm⟩ :=
          later (fast ++ [group]) slow
        refine ⟨fast', slow', ?_, ?_, perm.trans ?_⟩
        · rw [← built]
          simp
        · intro other member
          rcases members other member with kept | later
          · rcases List.mem_append.mp kept with old | new
            · exact Or.inl old
            · rw [List.mem_singleton.mp new]
              exact Or.inr (by simp)
          · exact Or.inr (by simp [later])
        · rw [List.flatMap_append, List.flatMap_cons, List.flatMap_nil,
            List.append_nil, List.flatMap_cons, ← List.append_assoc]
          apply List.Perm.append_right
          rw [List.append_assoc, List.append_assoc]
          exact (List.perm_append_comm).append_left _
      · obtain ⟨fast', slow', built, members, perm⟩ :=
          later fast (slow ++ group.rules)
        refine ⟨fast', slow', ?_, ?_, perm.trans ?_⟩
        · rw [← built, degrade_bucket regex (valid group (by simp))]
          rfl
        · intro other member
          rcases members other member with kept | later
          · exact Or.inl kept
          · exact Or.inr (by simp [later])
        · rw [List.flatMap_cons, ← List.append_assoc, ← List.append_assoc]

/-! ## Inspection -/

/-- The items of a decision. -/
def decisionItems : Decision → List ScoreItem
  | .scores items => items
  | _ => []

/-- The items of one rule on its own; a rule that does not compile has none. -/
def ruleItems (ctx : RequestContext) (rule : CrsRule) :
    Option (List ScoreItem) :=
  match compileRule regex rule with
  | .ok compiled => slowItems regex ctx compiled
  | .error _ => some []

theorem total_compiledRules
    (ctx : RequestContext) (rules : List CrsRule) :
    total regex ctx (compiledRules regex rules) =
      (rules.map fun rule => tally (ruleItems regex ctx rule)).sum := by
  induction rules with
  | nil => rfl
  | cons rule rest induction =>
      rw [List.map_cons, List.sum_cons, ← induction, compiledRules,
        List.filterMap_cons, ruleItems]
      cases compileRule regex rule with
      | error reason => exact (zero_add _).symm
      | ok compiled => rfl

/-- The items of a module, from the rules in its buckets and beside them. -/
theorem tally_items
    (ctx : RequestContext) {fast : List Group} (slow : List Compiled)
    (nonempty : ∀ group ∈ fast, group.rows ≠ [])
    (skipped : List SkippedRule) (loaded : Nat) :
    tally ((⟨fast.map Group.bucket, slow, skipped, loaded⟩ :
        CrsModule).items regex ctx) =
      total regex ctx (fast.flatMap Group.rules ++ slow) := by
  have buckets : tally (((fast.map Group.bucket).mapM
      (bucketItems regex ctx)).map List.flatten) =
      total regex ctx (fast.flatMap Group.rules) := by
    rw [tally_mapM]
    induction fast with
    | nil => rfl
    | cons group rest induction =>
        rw [List.flatMap_cons, total_append,
          ← induction fun other member => nonempty other (by simp [member]),
          ← tally_bucketItems regex ctx (nonempty group (by simp))]
        rfl
  have rules : tally ((slow.mapM (slowItems regex ctx)).map List.flatten) =
      total regex ctx slow :=
    tally_mapM (slowItems regex ctx) slow
  rw [total_append, ← buckets, ← rules, CrsModule.items]
  cases (fast.map Group.bucket).mapM (bucketItems regex ctx) with
  | none => exact (WithTop.top_add _).symm
  | some left =>
      cases slow.mapM (slowItems regex ctx) with
      | none => exact (WithTop.add_top _).symm
      | some right => rfl

theorem inspect_items (module : CrsModule) (ctx : RequestContext) :
    ((module.wafModule regex).inspect ctx).map
        (fun decision => Multiset.ofList (decisionItems decision)) =
      tally (module.items regex ctx) := by
  show Option.map _ ((module.items regex ctx).bind fun items =>
    some (if items = [] then Decision.allow else Decision.scores items)) = _
  cases module.items regex ctx with
  | none => rfl
  | some items =>
      rw [Option.bind_some, Option.map_some, tally, Option.map_some]
      split_ifs with empty
      · rw [empty]
        rfl
      · rfl

/--
Loading does not panic, and the module gives every request the items of its
rules evaluated one by one, as a multiset and with the same panics.  The sets
of the buckets may be built or not.
-/
theorem inspect_eq_ruleByRule
    (tables : DebugTables) (parsed : ParsedRuleset) (ctx : RequestContext) :
    ∃ module : CrsModule, fromParsed regex tables parsed = some module ∧
      ((module.wafModule regex).inspect ctx).map
          (fun decision => Multiset.ofList (decisionItems decision)) =
        (parsed.rules.mapM (ruleItems regex ctx)).map
          fun items => Multiset.ofList items.flatten := by
  obtain ⟨groups, mapped, valid, loaded⟩ := loadRules_groups regex tables
    parsed.rules { skipped := parsed.skipped } [] rfl (by simp)
  obtain ⟨fast, slow, built, members, perm⟩ := buildBuckets regex groups valid
    [] (parsed.rules.foldl (loadRule regex tables)
      { skipped := parsed.skipped }).slow
  have buckets : (groups.map (Group.entry tables)).map Prod.snd =
      groups.map Group.bucket := by
    rw [List.map_map]
    rfl
  refine ⟨_, by
    rw [fromParsed, mapped, buckets]
    exact congrArg (Option.bind · _) built, ?_⟩
  have nonempty : ∀ group ∈ fast, group.rows ≠ [] := by
    intro group member
    rcases members group member with absent | inside
    · cases absent
    · exact (valid group inside).nonempty
  have same : (fast.flatMap Group.rules ++ slow).Perm
      (compiledRules regex parsed.rules) :=
    perm.trans (List.perm_append_comm.trans loaded)
  have whole := tally_items regex ctx slow nonempty
    (parsed.rules.foldl (loadRule regex tables)
      { skipped := parsed.skipped }).skipped
    (parsed.rules.foldl (loadRule regex tables)
      { skipped := parsed.skipped }).loaded
  rw [total_perm regex ctx same, total_compiledRules, ← tally_mapM] at whole
  rw [inspect_items, whole, tally, Option.map_map]
  rfl

end Regex

end LightWaf.Crs
