import LightWaf.Crs.Evaluate
import LightWaf.Detection.Content

/-!
# The module of an imported rule set

The embedding of `operator.rs` and `module.rs`.  Rules with a single positive
pattern are grouped into buckets by the debug text of their variables and
transforms; a bucket collects its values once and searches them with one set
of patterns.  The other rules, and the rules of a bucket whose set cannot be
built, are evaluated one by one.
-/

namespace LightWaf.Crs

open LightWaf.Rust
open LightWaf.Core
open LightWaf.Detection

/--
What the module uses of the `regex` crate: the engine, whether a pattern
compiles, and whether a set of patterns can be built.
-/
structure RegexCrate where
  engine : RegexEngine
  compiles : Text → Except Text Unit
  setBuilds : List Text → Bool

/-! ## Operators -/

/-- A compiled operator. -/
inductive Matcher
  | rx (pattern : Text)
  | pm (phrases : List Text)
  | contains (text : Text)
  | beginsWith (text : Text)
  | endsWith (text : Text)
  | within (set : Text)
  | strEq (text : Text)

/-- `str::contains`. -/
def containsText (text part : Text) : Bool :=
  (findSplit part text).isSome

section Regex

variable (regex : RegexCrate)

/-- Whether a pattern matches a value. -/
def RegexCrate.isMatch (pattern value : Text) : Bool :=
  regex.engine.isMatch (String.ofList pattern) value

/-- `Matcher::matches`. -/
def Matcher.isMatch : Matcher → Text → Bool
  | .rx pattern, value => regex.isMatch pattern value
  | .pm phrases, value =>
      phrases.any (containsText (toAsciiLowercase value))
  | .contains text, value => containsText value text
  | .beginsWith text, value => text.isPrefixOf value
  | .endsWith text, value => text.isSuffixOf value
  | .within set, value => containsText set value
  | .strEq text, value => value == text

/-- `compile`. -/
def compile : Operator → Except Text Matcher
  | .rx pattern =>
      match regex.compiles pattern with
      | .ok _ => .ok (.rx pattern)
      | .error error => .error ("invalid @rx regex: ".toList ++ error)
  | .pm phrases => .ok (.pm (phrases.map toAsciiLowercase))
  | .pmFromFile _ =>
      .error "@pmFromFile not supported in v1 (use inline @pm)".toList
  | .contains text => .ok (.contains text)
  | .beginsWith text => .ok (.beginsWith text)
  | .endsWith text => .ok (.endsWith text)
  | .within set => .ok (.within set)
  | .strEq text => .ok (.strEq text)
  | .unsupported name => .error ("unsupported operator @".toList ++ name)

/-- `rx_pattern`. -/
def rxPattern : Operator → Option Text
  | .rx pattern => some pattern
  | _ => none

/-! ## Compiled rules -/

/-- One compiled link. -/
structure Link where
  targets : List Variable
  transforms : List Transform
  matcher : Matcher
  negated : Bool

/-- A rule of the slow path. -/
structure Compiled where
  id : Nat
  severity : Severity
  links : List Link

/-- `compile_link`. -/
def compileLink (unit : MatchUnit) : Except Text Link := do
  let matcher ← compile regex unit.operator
  .ok ⟨unit.targets, unit.transforms, matcher, unit.negated⟩

/-- `compile_rule`. -/
def compileRule (rule : CrsRule) : Except Text Compiled := do
  let head ← compileLink regex rule.head
  let chain ← rule.chain.mapM (compileLink regex)
  .ok ⟨rule.id, rule.severity, head :: chain⟩

/-- Whether a link matches. -/
def evalLink (ctx : RequestContext) (link : Link) : Option Bool := do
  let values ← valuesFor ctx link.targets link.transforms
  let any := values.any (link.matcher.isMatch regex)
  some (if link.negated then !any else any)

/-- The links in order; the first that does not match decides. -/
def evalLinks (ctx : RequestContext) : List Link → Option Bool
  | [] => some true
  | link :: rest => do
      if ← evalLink regex ctx link then evalLinks ctx rest else some false

/-- `eval_compiled`. -/
def evalCompiled (ctx : RequestContext) (rule : Compiled) : Option Bool :=
  evalLinks regex ctx rule.links

/-- `push_item`: the item of a rule. -/
def crsItem (id : Nat) (severity : Severity) : ScoreItem :=
  ⟨"crs-" ++ toString id, severity⟩

/-- The items of one slow rule. -/
def slowItems (ctx : RequestContext) (rule : Compiled) :
    Option (List ScoreItem) := do
  if ← evalCompiled regex ctx rule then
    some [crsItem rule.id rule.severity]
  else some []

/-! ## Buckets -/

/-- `fast_pattern`: the pattern of a single positive `@rx` link. -/
def fastPattern (rule : CrsRule) : Option Text :=
  if rule.chain = [] ∧ rule.head.negated = false then
    rxPattern rule.head.operator
  else none

/-- A bucket; the three vectors are aligned by index. -/
structure Bucket where
  targets : List Variable
  transforms : List Transform
  patterns : List Text := []
  ids : List Nat := []
  severities : List Severity := []

/-- A rule joins a bucket. -/
def Bucket.push (bucket : Bucket) (pattern : Text) (rule : CrsRule) :
    Bucket :=
  { bucket with
    patterns := bucket.patterns ++ [pattern]
    ids := bucket.ids ++ [rule.id]
    severities := bucket.severities ++ [rule.severity] }

/-- `entry(key).or_insert_with(..)` of an ordered map, then an update. -/
def upsert {β : Type} (key : Text) (initial : β) (update : β → β) :
    List (Text × β) → List (Text × β)
  | [] => [(key, update initial)]
  | (other, value) :: rest =>
      if other = key then (other, update value) :: rest
      else if asBytes key < asBytes other then
        (key, update initial) :: (other, value) :: rest
      else (other, value) :: upsert key initial update rest

/-- What has been loaded so far. -/
structure Loading where
  fastMap : List (Text × Bucket) := []
  slow : List Compiled := []
  skipped : List SkippedRule
  loaded : Nat := 0

/-- A module after loading. -/
structure CrsModule where
  fast : List Bucket
  slow : List Compiled
  skipped : List SkippedRule
  loaded : Nat

variable (tables : DebugTables)

/-- One rule of the loading loop. -/
def loadRule (loading : Loading) (rule : CrsRule) : Loading :=
  let skip := fun reason => { loading with
    skipped := loading.skipped ++ [⟨some rule.id, rule.lineNo, reason⟩] }
  match fastPattern rule with
  | some pattern =>
      match regex.compiles pattern with
      | .error error => skip ("invalid @rx regex: ".toList ++ error)
      | .ok _ =>
          { loading with
            fastMap := upsert
              (bucketKey tables rule.head.targets rule.head.transforms)
              { targets := rule.head.targets
                transforms := rule.head.transforms }
              (·.push pattern rule) loading.fastMap
            loaded := loading.loaded + 1 }
  | none =>
      match compileRule regex rule with
      | .ok compiled =>
          { loading with
            slow := loading.slow ++ [compiled]
            loaded := loading.loaded + 1 }
      | .error reason => skip reason

/--
The rule at an index of a bucket whose set cannot be built.  `none` is the
panic of an index out of bounds.
-/
def degradeAt (bucket : Bucket) (index : Nat) : Option (List Compiled) := do
  let pattern ← bucket.patterns[index]?
  match regex.compiles pattern with
  | .error _ => some []
  | .ok _ => do
      let id ← bucket.ids[index]?
      let severity ← bucket.severities[index]?
      some [⟨id, severity,
        [⟨bucket.targets, bucket.transforms, .rx pattern, false⟩]⟩]

/-- The rules of such a bucket, one by one. -/
def degrade (bucket : Bucket) : Option (List Compiled) :=
  ((List.range bucket.patterns.length).mapM (degradeAt regex bucket)).map
    List.flatten

/-- One bucket of the building loop. -/
def buildBucket (loaded : List Bucket × List Compiled) (bucket : Bucket) :
    Option (List Bucket × List Compiled) :=
  if regex.setBuilds bucket.patterns then
    some (loaded.1 ++ [bucket], loaded.2)
  else
    (degrade regex bucket).map fun compiled => (loaded.1, loaded.2 ++ compiled)

/-- `CrsModule::from_parsed`. -/
def fromParsed (parsed : ParsedRuleset) : Option CrsModule := do
  let loading := parsed.rules.foldl (loadRule regex tables)
    { skipped := parsed.skipped }
  let (fast, slow) ← (loading.fastMap.map Prod.snd).foldlM
    (buildBucket regex) ([], loading.slow)
  some ⟨fast, slow, loading.skipped, loading.loaded⟩

/-! ## Inspection -/

/-- The indices of one value's matches are marked. -/
def markHits (hit : List Bool) (indices : List Nat) : Option (List Bool) :=
  indices.foldlM (fun hit index =>
    if index < hit.length then some (hit.set index true) else none) hit

/-- The items of one bucket. -/
def bucketItems (ctx : RequestContext) (bucket : Bucket) :
    Option (List ScoreItem) := do
  let values ← valuesFor ctx bucket.targets bucket.transforms
  if values = [] then some []
  else
    let hit ← values.foldlM (fun hit value => markHits hit
      (regex.engine.setMatches (bucket.patterns.map String.ofList) value))
      (List.replicate bucket.ids.length false)
    ((List.range hit.length).filter fun index => hit[index]? = some true).mapM
      fun index => do
        let id ← bucket.ids[index]?
        let severity ← bucket.severities[index]?
        some (crsItem id severity)

/-- The items of a request: the buckets, then the slow rules. -/
def CrsModule.items (module : CrsModule) (ctx : RequestContext) :
    Option (List ScoreItem) := do
  let fast ← module.fast.mapM (bucketItems regex ctx)
  let slow ← module.slow.mapM (slowItems regex ctx)
  some (fast.flatten ++ slow.flatten)

/-- The module; it is structural, so it runs on every request. -/
def CrsModule.wafModule (module : CrsModule) : WafModule where
  id := "crs"
  phase := .body
  structural := true
  inspect := fun ctx => do
    let items ← module.items regex ctx
    some (if items = [] then .allow else .scores items)

end Regex

end LightWaf.Crs
