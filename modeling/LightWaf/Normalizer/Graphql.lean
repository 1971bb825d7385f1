import LightWaf.Normalizer.Body
import LightWaf.Theory.Scan

/-!
# The GraphQL lexer

The embedding of `waf-normalizer/src/graphql.rs`.  One pass over the bytes of
a query counts what the structural caps need.  Strings, block strings and
comments are passed over; each has its own terminator and escapes.

The counters are the 32-bit words of the source and wrap.
-/

namespace LightWaf.Normalizer

open LightWaf.Rust
open LightWaf.Core
open LightWaf.Theory

/-- Structural metrics of one query text. -/
structure GraphqlStats where
  maxDepth : UInt32 := 0
  aliases : UInt32 := 0
  fields : UInt32 := 0
  directives : UInt32 := 0
  hasIntrospection : Bool := false
deriving DecidableEq

/-- The state of the pass: nesting of braces and parentheses, and the counts. -/
structure LexState where
  depth : UInt32 := 0
  paren : UInt32 := 0
  stats : GraphqlStats := {}
deriving DecidableEq

/-! ## The counting rules -/

namespace LexState

variable (state : LexState)

/-- An opening parenthesis. -/
def openParen : LexState :=
  { state with paren := state.paren + 1 }

/-- A closing parenthesis; the subtraction saturates. -/
def closeParen : LexState :=
  { state with paren := if state.paren = 0 then 0 else state.paren - 1 }

/-- An opening brace nests only outside parentheses. -/
def openBrace : LexState :=
  if state.paren = 0 then
    { state with
      depth := state.depth + 1
      stats := { state.stats with
        maxDepth :=
          if state.stats.maxDepth < state.depth + 1 then state.depth + 1
          else state.stats.maxDepth } }
  else state

/-- A closing brace; the subtraction saturates. -/
def closeBrace : LexState :=
  if state.paren = 0 then
    { state with depth := if state.depth = 0 then 0 else state.depth - 1 }
  else state

/-- A colon outside parentheses is an alias separator. -/
def colon : LexState :=
  if state.paren = 0 then
    { state with
      stats := { state.stats with aliases := state.stats.aliases + 1 } }
  else state

/-- A directive. -/
def directive : LexState :=
  { state with
    stats := { state.stats with directives := state.stats.directives + 1 } }

/-- Whether a name read here is a selection. -/
def selecting : Bool :=
  state.paren == 0 && decide (0 < state.depth)

/-- A name counts as a selection, and may be an introspection meta-field. -/
def name (bytes : Bytes) : LexState :=
  if state.selecting then
    { state with
      stats := { state.stats with
        fields := state.stats.fields + 1
        hasIntrospection := state.stats.hasIntrospection ||
          (bytes == asBytes "__schema".toList ||
            bytes == asBytes "__type".toList) } }
  else state

end LexState

/-! ## The pass -/

/-- A byte that can start a name. -/
def isNameStart (byte : UInt8) : Bool :=
  byte == 0x5F || (0x41 ≤ byte && byte ≤ 0x5A) ||
    (0x61 ≤ byte && byte ≤ 0x7A)

/-- A byte that can continue a name. -/
def isNameByte (byte : UInt8) : Bool :=
  isNameStart byte || (0x30 ≤ byte && byte ≤ 0x39)

/--
The bytes after an opening `"""` up to and including the closing one, or to
the end.  A backslash escapes whatever byte follows it.
-/
def blockStringSpan : Bytes → Nat
  | [] => 0
  | byte :: rest =>
      if byte = 0x22 ∧ rest.take 2 = [0x22, 0x22] then 3
      else if byte = 0x5C then
        match rest with
        | [] => 1
        | _ :: after => blockStringSpan after + 2
      else blockStringSpan rest + 1

/-- The bytes after an opening quote up to and including the closing one. -/
def stringSpan : Bytes → Nat
  | [] => 0
  | byte :: rest =>
      if byte = 0x22 then 1
      else if byte = 0x5C then
        match rest with
        | [] => 1
        | _ :: after => stringSpan after + 2
      else stringSpan rest + 1

/-- One turn of the loop: the new state and the further bytes consumed. -/
def graphqlStep (state : LexState) (byte : UInt8) (rest : Bytes) :
    LexState × Nat :=
  if byte = 0x23 then
    -- A comment runs to the line feed.
    (state, (rest.takeWhile (· ≠ 0x0A)).length)
  else if byte = 0x22 then
    if rest.take 2 = [0x22, 0x22] then
      (state, blockStringSpan (rest.drop 2) + 2)
    else (state, stringSpan rest)
  else if byte = 0x28 then (state.openParen, 0)
  else if byte = 0x29 then (state.closeParen, 0)
  else if byte = 0x7B then (state.openBrace, 0)
  else if byte = 0x7D then (state.closeBrace, 0)
  else if byte = 0x3A then (state.colon, 0)
  else if byte = 0x40 then (state.directive, 0)
  else if isNameStart byte then
    (state.name (byte :: rest.takeWhile isNameByte),
      (rest.takeWhile isNameByte).length)
  else (state, 0)

/-- The pass from a state. -/
def graphqlLexFrom (state : LexState) (bytes : Bytes) : LexState :=
  Scan.scan graphqlStep 0 state bytes

/-- `graphql_lex`. -/
def graphqlLex (text : Text) : GraphqlStats :=
  (graphqlLexFrom {} (asBytes text)).stats

/-! ## Envelopes -/

/-- `push_query_leaf`: the string under the key `query` of an object. -/
def queryLeaf : Json → Option Text
  | .object fields =>
      match fields.find? fun field => field.1 == "query".toList with
      | some (_, .string text) => some text
      | _ => none
  | _ => none

/-- The operations carried by a JSON value: one object, or a batch of them. -/
def queryLeaves : Json → List Text
  | .object fields => (queryLeaf (.object fields)).toList
  | .array items => items.filterMap queryLeaf
  | _ => []

/-- `unwrap_query_envelope`: `none` unless an operation is found. -/
def unwrapQueryEnvelope (serde : SerdeJson) (text : Text) :
    Option (List Text) :=
  if opensEnvelope (trimStart text) then
    match serde.fromStr (trimStart text) with
    | .ok value =>
        if (queryLeaves value).isEmpty then none else some (queryLeaves value)
    | .error _ => none
  else none

end LightWaf.Normalizer
