import LightWaf.Core.Request
import LightWaf.Rust.Debug

/-!
# Rules of an imported rule set

The embedding of `waf-detection/src/crs/ast.rs`.  What the subset does not
model becomes an unsupported leaf.  The module groups rules by the debug text
of their variables and transforms, so that text is part of the model; it
determines the variables and the transforms.
-/

namespace LightWaf.Crs

open LightWaf.Rust
open LightWaf.Core
open LightWaf.Theory

/-! ## Syntax -/

/-- A `t:` transformation. -/
inductive Transform
  | none
  | lowercase
  | urlDecode
  | urlDecodeUni
  | htmlEntityDecode
  | compressWhitespace
  | removeWhitespace
  | removeNulls
  | normalizePath
  | base64Decode
  | unsupported (name : Text)
deriving DecidableEq

/-- An operator with its argument as written. -/
inductive Operator
  | rx (pattern : Text)
  | pm (phrases : List Text)
  | pmFromFile (path : Text)
  | contains (text : Text)
  | beginsWith (text : Text)
  | endsWith (text : Text)
  | within (set : Text)
  | strEq (text : Text)
  | unsupported (name : Text)
deriving DecidableEq

/-- The collection a variable points at. -/
inductive TargetKind
  | args
  | argsNames
  | argsGet
  | argsPost
  | requestHeaders
  | requestHeadersNames
  | requestCookies
  | requestCookiesNames
  | requestUri
  | requestUriRaw
  | requestFilename
  | queryString
  | requestMethod
  | requestProtocol
  | requestLine
  | requestBody
  | unsupported (name : Text)
deriving DecidableEq

/-- One variable token. -/
structure Variable where
  kind : TargetKind
  selector : Option Text
  negated : Bool
  count : Bool
  regexSelector : Bool
deriving DecidableEq

/-- One link of a rule. -/
structure MatchUnit where
  targets : List Variable
  operator : Operator
  negated : Bool
  transforms : List Transform
deriving DecidableEq

/-- A supported rule: its head, and the links chained to it. -/
structure CrsRule where
  id : Nat
  severity : Severity
  head : MatchUnit
  chain : List MatchUnit
  msg : Option Text
  lineNo : Nat
deriving DecidableEq

/-- A rule that was not loaded, with the reason. -/
structure SkippedRule where
  id : Option Nat
  lineNo : Nat
  reason : Text
deriving DecidableEq

/-- The outcome of parsing one source. -/
structure ParsedRuleset where
  rules : List CrsRule := []
  skipped : List SkippedRule := []
deriving DecidableEq

/-- `map_severity`. -/
def mapSeverity (word : Text) : Option Severity :=
  let upper := (trim word).map Char.toUpper
  if ["EMERGENCY", "ALERT", "CRITICAL", "0", "1", "2"].any
      (·.toList = upper) then some .critical
  else if ["ERROR", "3"].any (·.toList = upper) then some .error
  else if ["WARNING", "4"].any (·.toList = upper) then some .warning
  else if ["NOTICE", "INFO", "DEBUG", "5", "6", "7"].any
      (·.toList = upper) then some .notice
  else none

/-! ## Debug texts -/

/-- The constructor name of a transform. -/
def Transform.word : Transform → String
  | .none => "None"
  | .lowercase => "Lowercase"
  | .urlDecode => "UrlDecode"
  | .urlDecodeUni => "UrlDecodeUni"
  | .htmlEntityDecode => "HtmlEntityDecode"
  | .compressWhitespace => "CompressWhitespace"
  | .removeWhitespace => "RemoveWhitespace"
  | .removeNulls => "RemoveNulls"
  | .normalizePath => "NormalizePath"
  | .base64Decode => "Base64Decode"
  | .unsupported _ => "Unsupported"

/-- The constructor name of a target. -/
def TargetKind.word : TargetKind → String
  | .args => "Args"
  | .argsNames => "ArgsNames"
  | .argsGet => "ArgsGet"
  | .argsPost => "ArgsPost"
  | .requestHeaders => "RequestHeaders"
  | .requestHeadersNames => "RequestHeadersNames"
  | .requestCookies => "RequestCookies"
  | .requestCookiesNames => "RequestCookiesNames"
  | .requestUri => "RequestUri"
  | .requestUriRaw => "RequestUriRaw"
  | .requestFilename => "RequestFilename"
  | .queryString => "QueryString"
  | .requestMethod => "RequestMethod"
  | .requestProtocol => "RequestProtocol"
  | .requestLine => "RequestLine"
  | .requestBody => "RequestBody"
  | .unsupported _ => "Unsupported"

/-- The argument of the constructor, if it has one. -/
def Transform.argument : Transform → Option Text
  | .unsupported name => some name
  | _ => Option.none

/-- The argument of the constructor, if it has one. -/
def TargetKind.argument : TargetKind → Option Text
  | .unsupported name => some name
  | _ => Option.none

section Debug

variable (tables : DebugTables)

/-- `{:?}` of a constructor with an optional string argument. -/
def debugVariant (word : String) (argument : Option Text) : Text :=
  word.toList ++ argument.elim [] (debugPayload tables)

/-- `{:?}` of a transform. -/
def Transform.debug (transform : Transform) : Text :=
  debugVariant tables transform.word transform.argument

/-- `{:?}` of a target. -/
def TargetKind.debug (kind : TargetKind) : Text :=
  debugVariant tables kind.word kind.argument

/-- `{:?}` of a variable. -/
def Variable.debug (target : Variable) : Text :=
  "Variable \x7b kind: ".toList ++ ((target.kind.debug tables ++
    ',' :: (" selector: ".toList ++ (debugOption tables target.selector ++
    ',' :: (" negated: ".toList ++ (debugBool target.negated ++
    ',' :: (" count: ".toList ++ (debugBool target.count ++
    ',' :: (" regex_selector: ".toList ++
      debugBool target.regexSelector)))))))) ++ [' ', '\x7d'])

/-- The key of a bucket: `{:?}|{:?}` of the variables and transforms. -/
def bucketKey (targets : List Variable) (transforms : List Transform) :
    Text :=
  debugVec (Variable.debug tables) targets ++ '|' ::
    debugVec (Transform.debug tables) transforms

/-! ## Reading debug texts -/

/--
Constructors with plain names are readable when the name tells whether there
is an argument, and a table gives the constructor back.
-/
theorem readable_debugVariant
    {β : Type} {word : β → String} {argument : β → Option Text}
    (takesArgument : String → Bool)
    (read : String → Option Text → Option β)
    (plain : ∀ value, (word value).toList.all Char.isAlphanum = true)
    (arity : ∀ value, (argument value).isSome = takesArgument (word value))
    (reads : ∀ value, read (word value) (argument value) = some value) :
    Readable debugStop fun value =>
      debugVariant tables (word value) (argument value) := by
  intro left right before after beforeEnds afterEnds same
  have letters : ∀ value, ∀ char ∈ (word value).toList,
      debugStop char = false := by
    intro value char member
    rw [debugStop, List.all_eq_true.mp (plain value) char member]
    rfl
  have ends : ∀ (argument : Option Text) (rest : Text),
      Ends debugStop rest →
      Ends debugStop (argument.elim [] (debugPayload tables) ++ rest) := by
    intro argument rest restEnds
    cases argument with
    | none => exact restEnds
    | some text => exact ends_cons (by decide) _
  simp only [debugVariant, List.append_assoc] at same
  obtain ⟨words, payloads⟩ := word_cancel (letters left) (letters right)
    (ends _ _ beforeEnds) (ends _ _ afterEnds) same
  have names : word left = word right := String.toList_injective words
  have shapes : (argument left).isSome = (argument right).isSome := by
    rw [arity, arity, names]
  have determined : argument left = argument right → left = right := by
    intro arguments
    apply Option.some.inj
    rw [← reads left, ← reads right, names, arguments]
  cases leftArgument : argument left with
  | none =>
      cases rightArgument : argument right with
      | none =>
          rw [leftArgument, rightArgument] at payloads
          exact ⟨determined (leftArgument.trans rightArgument.symm),
            payloads⟩
      | some text =>
          rw [leftArgument, rightArgument] at shapes
          cases shapes
  | some text =>
      cases rightArgument : argument right with
      | none =>
          rw [leftArgument, rightArgument] at shapes
          cases shapes
      | some other =>
          rw [leftArgument, rightArgument] at payloads
          obtain ⟨rfl, rests⟩ := debugPayload_cancel tables payloads
          exact ⟨determined (leftArgument.trans rightArgument.symm), rests⟩

/-- The constructors without an argument. -/
def plainTransforms : List Transform :=
  [.none, .lowercase, .urlDecode, .urlDecodeUni, .htmlEntityDecode,
    .compressWhitespace, .removeWhitespace, .removeNulls, .normalizePath,
    .base64Decode]

/-- The constructors without an argument. -/
def plainTargets : List TargetKind :=
  [.args, .argsNames, .argsGet, .argsPost, .requestHeaders,
    .requestHeadersNames, .requestCookies, .requestCookiesNames, .requestUri,
    .requestUriRaw, .requestFilename, .queryString, .requestMethod,
    .requestProtocol, .requestLine, .requestBody]

theorem readable_transform :
    Readable debugStop (Transform.debug tables) := by
  apply readable_debugVariant tables
    (fun word => word == "Unsupported")
    (fun word argument =>
      argument.elim (plainTransforms.find? fun transform =>
        transform.word == word) fun name => some (.unsupported name))
  · intro transform
    cases transform with
    | unsupported name =>
        show "Unsupported".toList.all Char.isAlphanum = true
        decide
    | _ => decide
  · intro transform
    cases transform <;> rfl
  · intro transform
    cases transform <;> rfl

theorem readable_targetKind :
    Readable debugStop (TargetKind.debug tables) := by
  apply readable_debugVariant tables
    (fun word => word == "Unsupported")
    (fun word argument =>
      argument.elim (plainTargets.find? fun kind => kind.word == word)
        fun name => some (.unsupported name))
  · intro kind
    cases kind with
    | unsupported name =>
        show "Unsupported".toList.all Char.isAlphanum = true
        decide
    | _ => decide
  · intro kind
    cases kind <;> rfl
  · intro kind
    cases kind <;> rfl

theorem readable_variable :
    Readable debugStop (Variable.debug tables) := by
  have flags := readable_debugBool.both
    (readable_debugBool.both readable_debugBool ',' (by decide)
      " regex_selector: ".toList) ',' (by decide)
    " count: ".toList
  have fields := (readable_targetKind tables).both
    ((readable_debugOption tables).both flags ',' (by decide)
      " negated: ".toList) ',' (by decide) " selector: ".toList
  have parts : Function.Injective fun target : Variable =>
      (target.kind, target.selector, target.negated, target.count,
        target.regexSelector) := by
    intro left right same
    cases left
    cases right
    cases same
    rfl
  exact ((fields.comap parts).trail ' ' (by decide)
    ['\x7d']).lead "Variable \x7b kind: ".toList

/-- The key of a bucket determines the variables and the transforms. -/
theorem bucketKey_injective
    {targets targets' : List Variable}
    {transforms transforms' : List Transform}
    (same : bucketKey tables targets transforms =
      bucketKey tables targets' transforms') :
    targets = targets' ∧ transforms = transforms' := by
  have opensVariable : ∀ target : Variable, ∃ char rest,
      target.debug tables = char :: rest ∧ char ≠ ']' :=
    fun target => ⟨'V', _, rfl, by decide⟩
  have opensTransform : ∀ transform : Transform, ∃ char rest,
      transform.debug tables = char :: rest ∧ char ≠ ']' := by
    intro transform
    have word : ∃ char rest, transform.word.toList = char :: rest ∧
        char ≠ ']' := by
      cases transform with
      | unsupported name =>
          exact ⟨'U', "nsupported".toList,
            show "Unsupported".toList = _ by decide, by decide⟩
      | _ => exact ⟨_, _, rfl, by decide⟩
    obtain ⟨char, rest, starts, other⟩ := word
    refine ⟨char, rest ++ transform.argument.elim [] (debugPayload tables),
      ?_, other⟩
    rw [Transform.debug, debugVariant, starts]
    rfl
  have readable := (readable_debugVec (readable_variable tables)
    opensVariable).both (readable_debugVec (readable_transform tables)
      opensTransform) '|' (by decide) []
  have pairs : (targets, transforms) = (targets', transforms') :=
    readable.injective same
  cases pairs
  exact ⟨rfl, rfl⟩

end Debug

end LightWaf.Crs
