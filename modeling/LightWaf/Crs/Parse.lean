import LightWaf.Crs.Ast
import LightWaf.Crs.Lexer

/-!
# Parsing directives into rules

The embedding of `waf-detection/src/crs/parse.rs`.  `none` is a panic: the
operator argument is sliced one byte after the first white space, which lies
inside a character when the white space takes more than one byte.
-/

namespace LightWaf.Crs

open LightWaf.Rust
open LightWaf.Core

/-! ## Names -/

/-- The value a table gives a word. -/
def namedValue {α : Type} (table : List (String × α)) (word : Text) :
    Option α :=
  (table.find? fun entry => entry.1.toList == word).map Prod.snd

/-- The transforms of the subset, by their lowercase names. -/
def transformNames : List (String × Transform) :=
  [("none", .none), ("lowercase", .lowercase), ("urldecode", .urlDecode),
    ("urldecodeuni", .urlDecodeUni),
    ("htmlentitydecode", .htmlEntityDecode),
    ("compresswhitespace", .compressWhitespace),
    ("removewhitespace", .removeWhitespace), ("removenulls", .removeNulls),
    ("normalizepath", .normalizePath), ("normalisepath", .normalizePath),
    ("base64decode", .base64Decode), ("base64decodeext", .base64Decode)]

/-- `map_transform`. -/
def mapTransform (name : Text) : Transform :=
  let lower := toAsciiLowercase (trim name)
  (namedValue transformNames lower).getD (.unsupported lower)

/-- The targets of the subset, by their uppercase names. -/
def targetNames : List (String × TargetKind) :=
  [("ARGS", .args), ("ARGS_NAMES", .argsNames), ("ARGS_GET", .argsGet),
    ("ARGS_POST", .argsPost), ("REQUEST_HEADERS", .requestHeaders),
    ("REQUEST_HEADERS_NAMES", .requestHeadersNames),
    ("REQUEST_COOKIES", .requestCookies),
    ("REQUEST_COOKIES_NAMES", .requestCookiesNames),
    ("REQUEST_URI", .requestUri), ("REQUEST_URI_RAW", .requestUriRaw),
    ("REQUEST_FILENAME", .requestFilename), ("QUERY_STRING", .queryString),
    ("REQUEST_METHOD", .requestMethod),
    ("REQUEST_PROTOCOL", .requestProtocol), ("REQUEST_LINE", .requestLine),
    ("REQUEST_BODY", .requestBody)]

/-- `map_target`. -/
def mapTarget (name : Text) : TargetKind :=
  let upper := (trim name).map Char.toUpper
  (namedValue targetNames upper).getD (.unsupported upper)

/-! ## Variables -/

/-- The loop over the leading `!` and `&` marks of a variable. -/
def stripMarks : (negated count : Bool) → Text → Bool × Bool × Text
  | _, count, '!' :: rest => stripMarks true count rest
  | negated, _, '&' :: rest => stripMarks negated true rest
  | negated, count, rest => (negated, count, rest)

/-- `parse_variable`. -/
def parseVariable (piece : Text) : Variable :=
  let (negated, count, text) := stripMarks false false (trim piece)
  match findSplit [':'] text with
  | some (name, selector) =>
      let regex := ['/'].isPrefixOf selector
      { kind := mapTarget name
        selector :=
          if regex || selector.isEmpty then none else some selector
        negated, count, regexSelector := regex }
  | none =>
      { kind := mapTarget text
        selector := none
        negated, count, regexSelector := false }

/-- `parse_variables`. -/
def parseVariables (token : Text) : List Variable :=
  ((token.splitOn '|').filter fun piece => !piece.isEmpty).map
    parseVariable

/-! ## Operators -/

/-- The operators of the subset, by their lowercase names. -/
def operatorNames : List (String × (Text → Operator)) :=
  [("rx", .rx), ("pm", fun argument => .pm (splitWhitespace argument)),
    ("pmf", fun argument => .pmFromFile (trim argument)),
    ("pmfromfile", fun argument => .pmFromFile (trim argument)),
    ("contains", .contains), ("beginswith", .beginsWith),
    ("endswith", .endsWith), ("within", .within), ("streq", .strEq)]

/--
An operator name and its argument, split at the first white space.  The
argument starts one byte after it.
-/
def splitOperator (text : Text) : Option (Text × Text) :=
  let name := text.takeWhile fun char => !isWhitespace char
  match text.dropWhile fun char => !isWhitespace char with
  | [] => some (name, [])
  | blank :: argument =>
      if isAscii blank then some (name, argument) else none

/-- The operator after `@`. -/
def namedOperator (name argument : Text) : Operator :=
  let lower := toAsciiLowercase name
  match namedValue operatorNames lower with
  | some operator => operator argument
  | none => .unsupported lower

/-- `parse_operator`. -/
def parseOperator (token : Text) : Option (Bool × Operator) :=
  let (negated, text) :=
    match trimStart token with
    | '!' :: rest => (true, trimStart rest)
    | text => (false, text)
  match text with
  | '@' :: rest =>
      (splitOperator rest).map fun (name, argument) =>
        (negated, namedOperator name argument)
  | text => some (negated, .rx text)

/-! ## Actions -/

/-- `ActionParse`. -/
structure ActionParse where
  id : Option Nat := none
  phase : Option Nat := none
  severity : Option Severity := none
  transforms : List Transform := []
  chain : Bool := false
  msg : Option Text := none
  blockingUnsupported : Option Text := none

/--
The loop of `split_actions`: commas inside single quotes do not split, and an
item that is blank is dropped.
-/
def splitActionsFrom : (current : Text) → (quoted : Bool) → Text →
    List Text
  | current, _, [] =>
      if (trim current).isEmpty then [] else [trim current]
  | current, quoted, char :: rest =>
      if char == '\x27' then splitActionsFrom (current ++ [char]) (!quoted) rest
      else if char == ',' && !quoted then
        (if (trim current).isEmpty then [] else [trim current]) ++
          splitActionsFrom [] quoted rest
      else splitActionsFrom (current ++ [char]) quoted rest

/-- `split_actions`. -/
def splitActions (text : Text) : List Text :=
  splitActionsFrom [] false text

/-- `unquote`. -/
def unquote (value : Text) : Text :=
  match trim value with
  | '\x27' :: rest =>
      if rest.getLast? = some '\x27' then rest.dropLast else '\x27' :: rest
  | text => text

/-- `parse_phase`. -/
def parsePhase (value : Text) : Option Nat :=
  let lower := toAsciiLowercase (trim value)
  (namedValue [("request", 2), ("response", 4), ("logging", 5)] lower).or
    (fromStrRadix 10 (2 ^ 8) lower)

/-- `is_scoring_setvar`. -/
def isScoringSetvar (value : Option Text) : Bool :=
  match value with
  | none => false
  | some text =>
      let target := toAsciiLowercase
        ((trim (text.takeWhile (· != '='))).dropWhile (· == '!'))
      "tx.".toList.isPrefixOf target &&
        ("_score".toList.isSuffixOf target ||
          (findSplit "anomaly_score".toList target).isSome)

/-- The first action that forces a skip is the one reported. -/
def ActionParse.block (actions : ActionParse) (name : Text) : ActionParse :=
  { actions with
    blockingUnsupported := actions.blockingUnsupported.or (some name) }

/-- Disposition and metadata, which do not change whether a rule matches. -/
def ignoredActions : List String :=
  ["block", "deny", "drop", "pass", "allow", "status", "tag", "rev", "ver",
    "accuracy", "maturity", "capture", "log", "nolog", "auditlog",
    "noauditlog", "logdata", "multimatch"]

/-- Stateful and control actions, reported as they are spelled. -/
def statefulActions : List String :=
  ["ctl", "skip", "skipafter", "expirevar", "initcol", "setsid", "setuid",
    "exec", "deprecatevar", "sanitisearg", "sanitisematched",
    "sanitisematchedbytes"]

/-- One item of the action loop. -/
def ActionParse.add (actions : ActionParse) (item : Text) : ActionParse :=
  let (name, value) :=
    match findSplit [':'] item with
    | some (name, value) => (trim name, some (unquote (trim value)))
    | none => (trim item, none)
  let lower := toAsciiLowercase name
  let named (word : String) : Bool := word.toList == lower
  if named "id" then
    { actions with id := value.bind (fromStrRadix 10 (2 ^ 64)) }
  else if named "phase" then
    { actions with phase := value.bind parsePhase }
  else if named "severity" then
    { actions with severity := value.bind mapSeverity }
  else if named "t" then
    { actions with
      transforms := actions.transforms ++ (value.map mapTransform).toList }
  else if named "chain" then { actions with chain := true }
  else if named "msg" then { actions with msg := value }
  else if ignoredActions.any named then actions
  else if named "setvar" then
    if isScoringSetvar value then actions else actions.block name
  else if statefulActions.any named then actions.block name
  else if lower.isEmpty then actions
  else actions.block lower

/-- `parse_actions`. -/
def parseActions (text : Text) : ActionParse :=
  (splitActions text).foldl ActionParse.add {}

/-! ## One `SecRule` -/

/-- `RuleParts`. -/
structure RuleParts where
  targets : List Variable
  operator : Operator
  negated : Bool
  actions : ActionParse

/-- `parse_secrule`. -/
def parseSecrule (line : DirectiveLine) : Option (Except Text RuleParts) :=
  match line.tokens with
  | _ :: targets :: operator :: rest =>
      (parseOperator operator).map fun (negated, operator) =>
        .ok
          { targets := parseVariables targets
            operator, negated
            actions := (rest.head?.map parseActions).getD {} }
  | _ =>
      some (.error
        "malformed SecRule (expected VARIABLES OPERATOR [ACTIONS])".toList)

/-- `resolve_transforms`: `t:none` clears what came before. -/
def resolveTransforms (base rule : List Transform) : List Transform :=
  rule.foldl (fun list transform =>
    if transform = .none then [] else list ++ [transform]) base

/-- The reason a variable cannot be evaluated. -/
def variableUnsupported (target : Variable) : Option Text :=
  match target.kind with
  | .unsupported name => some ("unsupported variable ".toList ++ name)
  | _ =>
      if target.count then
        some "count operator (&VAR) not supported".toList
      else if target.regexSelector then
        some "regex variable selector (:/…/) not supported".toList
      else none

/-- The reason a transform cannot be evaluated. -/
def transformUnsupported : Transform → Option Text
  | .unsupported name => some ("unsupported transform t:".toList ++ name)
  | _ => none

/-- `unit_unsupported`. -/
def unitUnsupported (unit : MatchUnit) : Option Text :=
  match unit.operator with
  | .unsupported name => some ("unsupported operator @".toList ++ name)
  | _ =>
      if unit.targets.isEmpty then some "no variables".toList
      else
        (unit.targets.findSome? variableUnsupported).or
          (unit.transforms.findSome? transformUnsupported)

/-! ## Assembling a group -/

/-- `Defaults`: what `SecDefaultAction` has set. -/
structure Defaults where
  transforms : List Transform := []
  severity : Option Severity := none
  phase : Option Nat := none

/-- `Defaults::update`. -/
def Defaults.update (defaults : Defaults) (line : DirectiveLine) :
    Defaults :=
  match line.tokens[1]? with
  | none => defaults
  | some text =>
      let actions := parseActions text
      { transforms := resolveTransforms [] actions.transforms
        severity := actions.severity.or defaults.severity
        phase := actions.phase.or defaults.phase }

/-- The line of a directive with its parts or the reason it has none. -/
abbrev ParsedLink := Nat × Except Text RuleParts

/-- The unit of one link over the transforms it inherits. -/
def RuleParts.unit (parts : RuleParts) (base : List Transform) :
    MatchUnit :=
  { targets := parts.targets
    operator := parts.operator
    negated := parts.negated
    transforms := resolveTransforms base parts.actions.transforms }

/-- The body of the link loop of `assemble`. -/
def assembleUnit (id : Nat) (base : List Transform) (link : ParsedLink) :
    Except SkippedRule MatchUnit :=
  match link.2 with
  | .error reason => .error ⟨some id, link.1, reason⟩
  | .ok parts =>
      match parts.actions.blockingUnsupported with
      | some action =>
          .error ⟨some id, link.1, "unsupported action ".toList ++ action⟩
      | none =>
          match unitUnsupported (parts.unit base) with
          | some reason => .error ⟨some id, link.1, reason⟩
          | none => .ok (parts.unit base)

/-- The rule `assemble` pushes, or the skip it records instead. -/
def assembled (head : ParsedLink) (children : List ParsedLink)
    (defaults : Defaults) : Except SkippedRule CrsRule :=
  match head.2 with
  | .error reason => .error ⟨none, head.1, reason⟩
  | .ok parts =>
      match parts.actions.id with
      | none =>
          .error ⟨none, head.1,
            "SecRule has no id (cannot form a stable rule_id)".toList⟩
      | some id =>
          let phase := (parts.actions.phase.or defaults.phase).getD 2
          if 3 ≤ phase then
            .error ⟨some id, head.1, "response/logging phase ".toList ++
              (Nat.toDigits 10 phase ++
                " not supported (request-time only)".toList)⟩
          else do
            -- Only the head inherits the transforms of `SecDefaultAction`.
            let unit ← assembleUnit id defaults.transforms head
            let units ← children.mapM (assembleUnit id [])
            .ok
              { id
                severity :=
                  (parts.actions.severity.or defaults.severity).getD .warning
                head := unit
                chain := units
                msg := parts.actions.msg
                lineNo := head.1 }

/-- `assemble`. -/
def assemble (head : ParsedLink) (children : List ParsedLink)
    (defaults : Defaults) (out : ParsedRuleset) : ParsedRuleset :=
  match assembled head children defaults with
  | .ok rule => { out with rules := out.rules ++ [rule] }
  | .error skip => { out with skipped := out.skipped ++ [skip] }

/-! ## The directive loop -/

/-- `SecRuleRemoveById` tokens: an id or an inclusive range. -/
def removedByToken (token : Text) : List Nat :=
  let number (text : Text) : Option Nat := fromStrRadix 10 (2 ^ 64) (trim text)
  match findSplit ['-'] token with
  | some (first, last) =>
      match number first, number last with
      | some first, some last => List.range' first (last + 1 - first)
      | _, _ => []
  | none => (number token).toList

/-- `collect_removed_ids`. -/
def collectRemovedIds (line : DirectiveLine) : List Nat :=
  line.tokens.tail.flatMap removedByToken

/-- The directive keyword, compared without regard to letter case. -/
def DirectiveLine.isNamed (line : DirectiveLine) (name : String) : Bool :=
  toAsciiLowercase line.keyword == name.toList

/-- Whether a parsed link asks for a further one. -/
def chains : Except Text RuleParts → Bool
  | .ok parts => parts.actions.chain
  | .error _ => false

/-- The inner loop: the links that follow a chained one. -/
def collectChain : (chained : Bool) → List DirectiveLine →
    Option (List ParsedLink × List DirectiveLine)
  | false, rest => some ([], rest)
  | true, [] => some ([], [])
  | true, line :: rest =>
      if line.isNamed "secrule" then do
        let child ← parseSecrule line
        let (links, rest) ← collectChain (chains child) rest
        some ((line.lineNo, child) :: links, rest)
      -- A dangling `chain` stops consuming.
      else some ([], line :: rest)

/-- What the directive loop carries. -/
structure ParseState where
  out : ParsedRuleset := {}
  defaults : Defaults := {}
  removedIds : List Nat := []

/-- The directive loop.  Each turn consumes at least one directive. -/
def parseDirectives : (turns : Nat) → List DirectiveLine → ParseState →
    Option ParseState
  | 0, _, state => some state
  | _ + 1, [], state => some state
  | turns + 1, line :: rest, state =>
      if line.isNamed "secrule" then do
        let head ← parseSecrule line
        let (children, rest) ← collectChain (chains head) rest
        parseDirectives turns rest
          { state with
            out := assemble (line.lineNo, head) children state.defaults
              state.out }
      else if line.isNamed "secdefaultaction" then
        parseDirectives turns rest
          { state with defaults := state.defaults.update line }
      else if line.isNamed "secruleremovebyid" then
        parseDirectives turns rest
          { state with
            removedIds := state.removedIds ++ collectRemovedIds line }
      else parseDirectives turns rest state

/-- `parse`. -/
def parse (input : Text) : Option ParsedRuleset := do
  let directives := lex input
  let state ← parseDirectives directives.length directives {}
  some
    { state.out with
      rules := state.out.rules.filter fun rule =>
        !state.removedIds.contains rule.id }

end LightWaf.Crs
