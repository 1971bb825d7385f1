import LightWaf.Normalizer.GraphqlGrammar

/-!
# Executable GraphQL documents

The syntax trees of executable documents: operations with their variable
definitions, selections with aliases, arguments, directives and fragments.
Names and numbers carry their lexical validity, so every tree prints to a
sequence of valid tokens.  String values are left out.

A tree has one sequence of tokens.  A text prints the tree when it spells
these tokens with any amount of white space, line terminators and commas
between them.
-/

namespace LightWaf.Normalizer.Grammar

open LightWaf.Rust

/-! ## Trees -/

/-- `Name`. -/
structure Name where
  first : Char
  others : Text
  valid : (Lexeme.name first others).valid = true
deriving DecidableEq

/-- `IntValue` or `FloatValue`. -/
structure Number where
  negative : Bool
  integer : Text
  fraction : Option Text
  exponent : Option Exponent
  valid : (Lexeme.number negative integer fraction exponent).valid = true

/-- `Value` without strings; an object field is a name and a value. -/
inductive Value
  | variable (name : Name)
  | number (number : Number)
  | boolean (value : Bool)
  | null
  | enum (name : Name)
  | list (items : List Value)
  | object (fields : List (Name × Value))

/-- `Type`. -/
inductive TypeReference
  | named (name : Name)
  | list (element : TypeReference)
  | nonNull (inner : TypeReference)

/-- `Directive`. -/
structure Directive where
  name : Name
  arguments : List (Name × Value)

/-- `VariableDefinition`. -/
structure VariableDefinition where
  name : Name
  type : TypeReference
  default : Option Value
  directives : List Directive

/-- `Selection`; a field without selections has no selection set. -/
inductive Selection
  | field (label : Option Name) (name : Name)
      (arguments : List (Name × Value)) (directives : List Directive)
      (selections : List Selection)
  | spread (name : Name) (directives : List Directive)
  | inline (condition : Option Name) (directives : List Directive)
      (selections : List Selection)

/-- `OperationType`. -/
inductive OperationType
  | query
  | mutation
  | subscription

/-- `ExecutableDefinition`. -/
inductive Definition
  | shorthand (selections : List Selection)
  | operation (type : OperationType) (name : Option Name)
      (definitions : List VariableDefinition) (directives : List Directive)
      (selections : List Selection)
  | fragment (name condition : Name) (directives : List Directive)
      (selections : List Selection)

/-- `ExecutableDocument`. -/
abbrev Document := List Definition

/-! ## Tokens -/

/-- The token of a name. -/
def Name.token (name : Name) : Lexeme :=
  .name name.first name.others

/-- The token of a number. -/
def Number.token (number : Number) : Lexeme :=
  .number number.negative number.integer number.fraction number.exponent

/-- The name `on`. -/
def onName : Name := ⟨'o', ['n'], by decide⟩

/-- The tokens between two punctuators. -/
def enclosed (left right : Char) (tokens : List Lexeme) : List Lexeme :=
  .punctuator left :: (tokens ++ [.punctuator right])

/-- The keyword of an operation. -/
def OperationType.token : OperationType → Lexeme
  | .query => .name 'q' "uery".toList
  | .mutation => .name 'm' "utation".toList
  | .subscription => .name 's' "ubscription".toList

mutual

/-- The tokens of a value. -/
def Value.tokens : Value → List Lexeme
  | .variable name => [.punctuator '$', name.token]
  | .number number => [number.token]
  | .boolean true => [.name 't' "rue".toList]
  | .boolean false => [.name 'f' "alse".toList]
  | .null => [.name 'n' "ull".toList]
  | .enum name => [name.token]
  | .list items => enclosed '[' ']' (itemTokens items)
  | .object fields => enclosed '\x7b' '\x7d' (fieldTokens fields)

/-- The tokens of list elements. -/
def itemTokens : List Value → List Lexeme
  | [] => []
  | item :: rest => item.tokens ++ itemTokens rest

/-- The tokens of object fields, or of arguments. -/
def fieldTokens : List (Name × Value) → List Lexeme
  | [] => []
  | (name, value) :: rest =>
      name.token :: .punctuator ':' :: (value.tokens ++ fieldTokens rest)

end

/-- The tokens of arguments; no parentheses when there are none. -/
def argumentTokens (arguments : List (Name × Value)) : List Lexeme :=
  if arguments.isEmpty then [] else enclosed '(' ')' (fieldTokens arguments)

/-- The tokens of a directive. -/
def Directive.tokens (directive : Directive) : List Lexeme :=
  .punctuator '@' :: directive.name.token ::
    argumentTokens directive.arguments

/-- The tokens of directives. -/
def directiveTokens (directives : List Directive) : List Lexeme :=
  directives.flatMap Directive.tokens

/-- The tokens of a type. -/
def TypeReference.tokens : TypeReference → List Lexeme
  | .named name => [name.token]
  | .list element => enclosed '[' ']' element.tokens
  | .nonNull inner => inner.tokens ++ [.punctuator '!']

/-- The tokens of a variable definition. -/
def VariableDefinition.tokens (definition : VariableDefinition) :
    List Lexeme :=
  .punctuator '$' :: definition.name.token :: .punctuator ':' ::
    (definition.type.tokens ++
      (definition.default.elim [] fun value =>
        .punctuator '=' :: value.tokens) ++
      directiveTokens definition.directives)

/-- The tokens of variable definitions; no parentheses without any. -/
def variableTokens (definitions : List VariableDefinition) : List Lexeme :=
  if definitions.isEmpty then []
  else enclosed '(' ')' (definitions.flatMap VariableDefinition.tokens)

/-- The tokens of an alias. -/
def aliasTokens (label : Option Name) : List Lexeme :=
  label.elim [] fun name => [name.token, .punctuator ':']

/-- The tokens of a type condition. -/
def conditionTokens (condition : Option Name) : List Lexeme :=
  condition.elim [] fun name => [onName.token, name.token]

mutual

/-- The tokens of a selection. -/
def Selection.tokens : Selection → List Lexeme
  | .field label name arguments directives selections =>
      aliasTokens label ++ name.token ::
        (argumentTokens arguments ++ directiveTokens directives ++
          if selections.isEmpty then []
          else enclosed '\x7b' '\x7d' (selectionTokens selections))
  | .spread name directives =>
      .spread :: name.token :: directiveTokens directives
  | .inline condition directives selections =>
      .spread :: (conditionTokens condition ++ directiveTokens directives ++
        enclosed '\x7b' '\x7d' (selectionTokens selections))

/-- The tokens of selections. -/
def selectionTokens : List Selection → List Lexeme
  | [] => []
  | selection :: rest => selection.tokens ++ selectionTokens rest

end

/-- The tokens of a definition. -/
def Definition.tokens : Definition → List Lexeme
  | .shorthand selections =>
      enclosed '\x7b' '\x7d' (selectionTokens selections)
  | .operation type name definitions directives selections =>
      type.token :: ((name.elim [] fun name => [name.token]) ++
        variableTokens definitions ++ directiveTokens directives ++
        enclosed '\x7b' '\x7d' (selectionTokens selections))
  | .fragment name condition directives selections =>
      .name 'f' "ragment".toList :: name.token :: onName.token ::
        condition.token :: (directiveTokens directives ++
          enclosed '\x7b' '\x7d' (selectionTokens selections))

/-- The tokens of a document. -/
def documentTokens (document : Document) : List Lexeme :=
  document.flatMap Definition.tokens

/-- White space, line terminators and commas. -/
def Lexeme.insignificant : Lexeme → Bool
  | .byteOrderMark => true
  | .whitespace _ => true
  | .lineFeed => true
  | .carriageReturn => true
  | .carriageReturnLineFeed => true
  | .comma => true
  | _ => false

/-- The lexemes spell a document, with insignificant ones anywhere. -/
structure Prints (document : Document) (lexemes : List Lexeme) : Prop where
  tokens : (lexemes.filter fun lexeme => !lexeme.insignificant) =
    documentTokens document
  lexed : wellLexed lexemes = true

/-! ## Metrics of a tree -/

/-- The names of directives. -/
def directiveNames (directives : List Directive) : List Name :=
  directives.map Directive.name

mutual

/-- How deep the selection sets of a selection nest. -/
def Selection.nesting : Selection → Nat
  | .field _ _ _ _ [] => 0
  | .field _ _ _ _ (selection :: rest) =>
      max selection.nesting (selectionNesting rest) + 1
  | .spread _ _ => 0
  | .inline _ _ selections => selectionNesting selections + 1

/-- How deep the selection sets inside selections nest. -/
def selectionNesting : List Selection → Nat
  | [] => 0
  | selection :: rest => max selection.nesting (selectionNesting rest)

end

mutual

/-- The aliased fields of a selection. -/
def Selection.aliasedFields : Selection → Nat
  | .field label _ _ _ selections =>
      label.toList.length + selectionAliases selections
  | .spread _ _ => 0
  | .inline _ _ selections => selectionAliases selections

/-- The aliased fields of selections. -/
def selectionAliases : List Selection → Nat
  | [] => 0
  | selection :: rest => selection.aliasedFields + selectionAliases rest

end

mutual

/-- The field selections of a selection. -/
def Selection.fieldSelections : Selection → Nat
  | .field _ _ _ _ selections => selectionFields selections + 1
  | .spread _ _ => 0
  | .inline _ _ selections => selectionFields selections

/-- The field selections of selections. -/
def selectionFields : List Selection → Nat
  | [] => 0
  | selection :: rest => selection.fieldSelections + selectionFields rest

end

mutual

/-- The directive occurrences of a selection. -/
def Selection.directiveCount : Selection → Nat
  | .field _ _ _ directives selections =>
      directives.length + selectionDirectives selections
  | .spread _ directives => directives.length
  | .inline _ directives selections =>
      directives.length + selectionDirectives selections

/-- The directive occurrences of selections. -/
def selectionDirectives : List Selection → Nat
  | [] => 0
  | selection :: rest =>
      selection.directiveCount + selectionDirectives rest

end

mutual

/-- The names of a selection outside argument parentheses. -/
def Selection.names : Selection → List Name
  | .field label name _ directives selections =>
      label.toList ++ name :: (directiveNames directives ++
        selectionNames selections)
  | .spread name directives => name :: directiveNames directives
  | .inline condition directives selections =>
      (condition.elim [] fun name => [onName, name]) ++
        directiveNames directives ++ selectionNames selections

/-- The names of selections outside argument parentheses. -/
def selectionNames : List Selection → List Name
  | [] => []
  | selection :: rest => selection.names ++ selectionNames rest

end

namespace Definition

/-- The selections of a definition. -/
def selections : Definition → List Selection
  | .shorthand selections => selections
  | .operation _ _ _ _ selections => selections
  | .fragment _ _ _ selections => selections

/-- The directive occurrences in front of the selections. -/
def headDirectives : Definition → Nat
  | .shorthand _ => 0
  | .operation _ _ definitions directives _ =>
      (definitions.map fun definition => definition.directives.length).sum +
        directives.length
  | .fragment _ _ directives _ => directives.length

end Definition

namespace Document

variable (document : Document)

/-- The deepest nesting of selection sets. -/
def nesting : Nat :=
  (document.map fun definition =>
    selectionNesting definition.selections + 1).foldr max 0

/-- The number of aliased fields. -/
def aliasedFields : Nat :=
  (document.map fun definition =>
    selectionAliases definition.selections).sum

/-- The number of field selections. -/
def fieldSelections : Nat :=
  (document.map fun definition =>
    selectionFields definition.selections).sum

/-- The number of directive occurrences. -/
def directiveCount : Nat :=
  (document.map fun definition =>
    definition.headDirectives +
      selectionDirectives definition.selections).sum

/-- The names inside selection sets and outside argument parentheses. -/
def names : List Name :=
  document.flatMap fun definition => selectionNames definition.selections

end Document

/-- The names of the introspection meta-fields. -/
def schemaName : Name := ⟨'_', "_schema".toList, by decide⟩

/-- The other one. -/
def typeName : Name := ⟨'_', "_type".toList, by decide⟩

end LightWaf.Normalizer.Grammar
