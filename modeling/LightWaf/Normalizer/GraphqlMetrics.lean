import LightWaf.Normalizer.GraphqlAgreement
import LightWaf.Normalizer.GraphqlDocument
import LightWaf.Rust.Utf8

/-!
# Metrics of printed documents

The lexer has no tree: it infers nesting from two counters.  Every printed
construct leaves both counters where it found them, and adds to the metrics
what the tree says.  This is proved construct by construct, and for selections
by induction on the tree.

The counters are 32-bit words, so a document with more of something than a
word can hold is counted short.
-/

namespace LightWaf.Normalizer.Grammar

open LightWaf.Rust
open LightWaf.Theory

/-! ## Reading tokens -/

/-- A lexeme that the lexer reads as the reference count does anywhere. -/
def Lexeme.quiet (state : LexState) : Lexeme → Bool
  | .comment _ => false
  | .blockString _ => false
  | .number _ _ _ (some _) => !state.selecting
  | _ => true

/-- The count passes from one state to another over quiet lexemes. -/
inductive Reads : LexState → List Lexeme → LexState → Prop
  | nil (state : LexState) : Reads state [] state
  | cons {state after : LexState} {lexeme : Lexeme} {rest : List Lexeme}
      (quiet : lexeme.quiet state = true)
      (later : Reads (lexeme.count state) rest after) :
      Reads state (lexeme :: rest) after

namespace Reads

theorem append
    {before middle after : LexState} {first second : List Lexeme}
    (left : Reads before first middle)
    (right : Reads middle second after) :
    Reads before (first ++ second) after := by
  induction left with
  | nil state => exact right
  | cons quiet later induction => exact Reads.cons quiet (induction right)

theorem single
    {state : LexState} {lexeme : Lexeme}
    (quiet : lexeme.quiet state = true) :
    Reads state [lexeme] (lexeme.count state) :=
  Reads.cons quiet (Reads.nil _)

theorem foldl_count
    {before after : LexState} {lexemes : List Lexeme}
    (reads : Reads before lexemes after) :
    lexemes.foldl Lexeme.count before = after := by
  induction reads with
  | nil state => rfl
  | cons quiet later induction => exact induction

end Reads

theorem Lexeme.regular_of_quiet
    {state : LexState} {lexeme : Lexeme}
    (quiet : lexeme.quiet state = true) (following : Text) :
    lexeme.regular state following = true := by
  cases lexeme with
  | comment body => cases quiet
  | blockString units => cases quiet
  | number negative integer fraction exponent =>
      cases exponent with
      | none => rfl
      | some exponent => exact quiet
  | _ => rfl

/-- What is read keeps clear of every disagreement of the lexer. -/
theorem Reads.regular
    {before after : LexState} {lexemes : List Lexeme}
    (reads : Reads before lexemes after) :
    regularFrom before lexemes = true := by
  induction reads with
  | nil state => rfl
  | cons quiet later induction =>
      rw [regularFrom, Lexeme.regular_of_quiet quiet, induction]
      rfl

theorem Lexeme.quiet_of_insignificant
    {lexeme : Lexeme} (ignored : lexeme.insignificant = true)
    (state : LexState) :
    lexeme.quiet state = true ∧ lexeme.count state = state := by
  cases lexeme with
  | byteOrderMark => exact ⟨rfl, rfl⟩
  | whitespace char => exact ⟨rfl, rfl⟩
  | lineFeed => exact ⟨rfl, rfl⟩
  | carriageReturn => exact ⟨rfl, rfl⟩
  | carriageReturnLineFeed => exact ⟨rfl, rfl⟩
  | comma => exact ⟨rfl, rfl⟩
  | _ => cases ignored

/-- Insignificant lexemes can stand anywhere. -/
theorem Reads.of_filter
    {before after : LexState} (lexemes : List Lexeme)
    (reads : Reads before
      (lexemes.filter fun lexeme => !lexeme.insignificant) after) :
    Reads before lexemes after := by
  induction lexemes generalizing before with
  | nil => exact reads
  | cons lexeme rest induction =>
      cases ignored : lexeme.insignificant with
      | true =>
          rw [List.filter_cons_of_neg (by simp [ignored])] at reads
          have still := Lexeme.quiet_of_insignificant ignored before
          refine Reads.cons still.1 ?_
          rw [still.2]
          exact induction reads
      | false =>
          rw [List.filter_cons_of_pos (by simp [ignored])] at reads
          cases reads with
          | cons quiet later => exact Reads.cons quiet (induction later)

/-! ## What a construct adds -/

/-- What the tokens of a construct add to the counts. -/
structure Tally where
  nesting : Nat := 0
  aliases : Nat := 0
  names : List Name := []
  directives : Nat := 0

namespace Tally

/-- Two constructs, one after the other. -/
def add (first second : Tally) : Tally where
  nesting := max first.nesting second.nesting
  aliases := first.aliases + second.aliases
  names := first.names ++ second.names
  directives := first.directives + second.directives

instance : Add Tally := ⟨add⟩

@[simp]
theorem mk_add_mk
    (nesting nesting' aliases aliases' : Nat) (names names' : List Name)
    (directives directives' : Nat) :
    (⟨nesting, aliases, names, directives⟩ : Tally) +
        ⟨nesting', aliases', names', directives'⟩ =
      ⟨max nesting nesting', aliases + aliases', names ++ names',
        directives + directives'⟩ :=
  rfl

/-- A construct between the braces of a selection set. -/
def nested (tally : Tally) : Tally :=
  { tally with nesting := tally.nesting + 1 }

/-- The depth reached from a depth; nothing is reached without a brace. -/
def reach (depth : UInt32) (nesting : Nat) : Nat :=
  if nesting = 0 then 0 else depth.toNat + nesting

theorem reach_max (depth : UInt32) (first second : Nat) :
    reach depth (max first second) =
      max (reach depth first) (reach depth second) := by
  unfold reach
  split_ifs <;> omega

end Tally

/-- The bytes of a name. -/
def Name.bytes (name : Name) : Bytes :=
  asBytes (name.first :: name.others)

/-- Whether a name is one of the introspection meta-fields. -/
def Name.isIntrospection (name : Name) : Bool :=
  name.bytes == asBytes "__schema".toList ||
    name.bytes == asBytes "__type".toList

/-- The counts of a state after a construct, from those before. -/
structure Adds (before after : LexState) (tally : Tally) : Prop where
  depth : after.depth = before.depth
  paren : after.paren = before.paren
  maxDepth : after.stats.maxDepth.toNat =
    max before.stats.maxDepth.toNat
      (Tally.reach before.depth tally.nesting)
  aliases : after.stats.aliases =
    before.stats.aliases + UInt32.ofNat tally.aliases
  fields : after.stats.fields =
    before.stats.fields + UInt32.ofNat tally.names.length
  directives : after.stats.directives =
    before.stats.directives + UInt32.ofNat tally.directives
  introspection : after.stats.hasIntrospection =
    (before.stats.hasIntrospection ||
      tally.names.any Name.isIntrospection)

theorem Adds.trans
    {before middle after : LexState} {first second : Tally}
    (left : Adds before middle first) (right : Adds middle after second) :
    Adds before after (first + second) where
  depth := right.depth.trans left.depth
  paren := right.paren.trans left.paren
  maxDepth := by
    show _ = max _ (Tally.reach _ (max first.nesting second.nesting))
    rw [right.maxDepth, left.maxDepth, left.depth, Tally.reach_max,
      Nat.max_assoc]
  aliases := by
    show _ = _ + UInt32.ofNat (first.aliases + second.aliases)
    rw [right.aliases, left.aliases, UInt32.ofNat_add, UInt32.add_assoc]
  fields := by
    show _ = _ + UInt32.ofNat (first.names ++ second.names).length
    rw [right.fields, left.fields, List.length_append, UInt32.ofNat_add,
      UInt32.add_assoc]
  directives := by
    show _ = _ + UInt32.ofNat (first.directives + second.directives)
    rw [right.directives, left.directives, UInt32.ofNat_add,
      UInt32.add_assoc]
  introspection := by
    show _ = (_ || (first.names ++ second.names).any Name.isIntrospection)
    rw [right.introspection, left.introspection, List.any_append,
      Bool.or_assoc]

/-- A state adds nothing to itself. -/
theorem Adds.refl (state : LexState) : Adds state state {} where
  depth := rfl
  paren := rfl
  maxDepth := (Nat.max_zero _).symm
  aliases := (UInt32.add_zero _).symm
  fields := (UInt32.add_zero _).symm
  directives := (UInt32.add_zero _).symm
  introspection := (Bool.or_false _).symm

/-- At every state with these nesting counters the tokens add this much. -/
def Tallies (depth paren : UInt32) (tokens : List Lexeme) (tally : Tally) :
    Prop :=
  ∀ state : LexState, state.depth = depth → state.paren = paren →
    ∃ after, Reads state tokens after ∧ Adds state after tally

namespace Tallies

variable {depth paren : UInt32}

theorem nil : Tallies depth paren [] {} :=
  fun state _ _ => ⟨state, Reads.nil state, Adds.refl state⟩

theorem append
    {first second : List Lexeme} {left right : Tally}
    (begins : Tallies depth paren first left)
    (ends : Tallies depth paren second right) :
    Tallies depth paren (first ++ second) (left + right) := by
  intro state atDepth atParen
  obtain ⟨middle, reads, adds⟩ := begins state atDepth atParen
  obtain ⟨after, readsOn, addsOn⟩ := ends middle
    (adds.depth.trans atDepth) (adds.paren.trans atParen)
  exact ⟨after, reads.append readsOn, adds.trans addsOn⟩

theorem congr
    {tokens : List Lexeme} {left right : Tally}
    (tallies : Tallies depth paren tokens left)
    (same : left = right) :
    Tallies depth paren tokens right :=
  same ▸ tallies

end Tallies

/-! ## Single tokens -/

/-- A token that counts nothing outside a selection. -/
def Lexeme.inert : Lexeme → Bool
  | .punctuator char => !(char == '(' || char == ')' || char == '@')
  | .name _ _ => true
  | .number _ _ _ _ => true
  | _ => false

/-- Inside parentheses only parentheses and directives count. -/
theorem Lexeme.count_inert
    {state : LexState} {lexeme : Lexeme} (inert : lexeme.inert = true)
    (inside : state.paren ≠ 0) :
    lexeme.quiet state = true ∧ lexeme.count state = state := by
  have outside : state.selecting = false := by
    simp [LexState.selecting, inside]
  cases lexeme with
  | punctuator char =>
      refine ⟨rfl, ?_⟩
      unfold Lexeme.count
      split
      case h_1 same => cases same; cases inert
      case h_2 same => cases same; cases inert
      case h_3 same => exact if_neg inside
      case h_4 same => exact if_neg inside
      case h_5 same => exact if_neg inside
      case h_6 same => cases same; cases inert
      case h_7 same => cases same
      case h_8 => rfl
  | name first others =>
      refine ⟨rfl, ?_⟩
      rw [Lexeme.count, LexState.name, outside]
      rfl
  | number negative integer fraction exponent =>
      cases exponent with
      | none => exact ⟨rfl, rfl⟩
      | some exponent => exact ⟨by simp [Lexeme.quiet, outside], rfl⟩
  | _ => cases inert

/-- One level further in, names are still selections. -/
theorem successor_pos
    (depth : UInt32) (bounded : depth.toNat + 1 < 2 ^ 32) :
    (depth + 1).toNat = depth.toNat + 1 ∧ 0 < depth + 1 := by
  have successor : (depth + 1).toNat = depth.toNat + 1 := by
    rw [UInt32.toNat_add]
    exact Nat.mod_eq_of_lt bounded
  refine ⟨successor, ?_⟩
  rw [UInt32.lt_iff_toNat_lt, successor]
  exact Nat.succ_pos _

namespace Tallies

variable {depth paren : UInt32}

/-- Inert tokens between parentheses add nothing. -/
theorem inert
    (inside : paren ≠ 0) {tokens : List Lexeme}
    (all : ∀ token ∈ tokens, token.inert = true) :
    Tallies depth paren tokens {} := by
  rintro state - rfl
  refine ⟨state, ?_, Adds.refl state⟩
  induction tokens with
  | nil => exact Reads.nil state
  | cons token rest induction =>
      have still := Lexeme.count_inert (all token (by simp)) inside
      refine Reads.cons still.1 ?_
      rw [still.2]
      exact induction fun other member => all other (by simp [member])

/-- A name in a selection set. -/
theorem name (selecting : 0 < depth) (name : Name) :
    Tallies depth 0 [name.token] { names := [name] } := by
  rintro state rfl atParen
  refine ⟨state.name name.bytes, Reads.single rfl, ?_⟩
  have counts : state.selecting = true := by
    simp [LexState.selecting, atParen, selecting]
  rw [LexState.name, if_pos counts]
  exact {
    depth := rfl
    paren := rfl
    maxDepth := (Nat.max_zero _).symm
    aliases := (UInt32.add_zero _).symm
    fields := rfl
    directives := (UInt32.add_zero _).symm
    introspection := by
      simp [Name.isIntrospection] }

/-- A name in front of the first selection set. -/
theorem keyword (first : Char) (others : Text) :
    Tallies 0 0 [.name first others] {} := by
  rintro state atDepth atParen
  refine ⟨state, ?_, Adds.refl state⟩
  have uncounted : (Lexeme.name first others).count state = state := by
    simp [Lexeme.count, LexState.name, LexState.selecting, atDepth]
  conv =>
    rhs
    rw [← uncounted]
  exact Reads.single rfl

/-- The colon of an alias. -/
theorem colon :
    Tallies depth 0 [.punctuator ':'] { aliases := 1 } := by
  intro state _ atParen
  refine ⟨state.colon, Reads.single rfl, ?_⟩
  rw [LexState.colon, if_pos atParen]
  exact {
    depth := rfl
    paren := rfl
    maxDepth := (Nat.max_zero _).symm
    aliases := rfl
    fields := (UInt32.add_zero _).symm
    directives := (UInt32.add_zero _).symm
    introspection := (Bool.or_false _).symm }

/-- The sign of a directive counts everywhere. -/
theorem directive :
    Tallies depth paren [.punctuator '@'] { directives := 1 } := by
  intro state _ _
  refine ⟨state.directive, Reads.single rfl, ?_⟩
  exact {
    depth := rfl
    paren := rfl
    maxDepth := (Nat.max_zero _).symm
    aliases := (UInt32.add_zero _).symm
    fields := (UInt32.add_zero _).symm
    directives := rfl
    introspection := (Bool.or_false _).symm }

/-- The three points of a fragment. -/
theorem spread : Tallies depth paren [.spread] {} :=
  fun state _ _ => ⟨state, Reads.single rfl, Adds.refl state⟩

/-- Tokens between parentheses, one level further in. -/
theorem parenthesized
    (bounded : paren + 1 ≠ 0) {tokens : List Lexeme} {tally : Tally}
    (inside : Tallies depth (paren + 1) tokens tally) :
    Tallies depth paren (enclosed '(' ')' tokens) tally := by
  rintro state rfl rfl
  obtain ⟨after, reads, adds⟩ := inside state.openParen rfl rfl
  refine ⟨after.closeParen,
    Reads.cons rfl (reads.append (Reads.single rfl)), ?_⟩
  have closes : after.closeParen.paren = state.paren := by
    have opened : after.paren = state.paren + 1 := adds.paren
    rw [LexState.closeParen, opened, if_neg bounded]
    exact UInt32.add_sub_cancel _ _
  exact {
    depth := adds.depth
    paren := closes
    maxDepth := adds.maxDepth
    aliases := adds.aliases
    fields := adds.fields
    directives := adds.directives
    introspection := adds.introspection }

/-- Tokens between the braces of a selection set. -/
theorem braced
    (bounded : depth.toNat + 1 < 2 ^ 32)
    {tokens : List Lexeme} {tally : Tally}
    (inside : Tallies (depth + 1) 0 tokens tally) :
    Tallies depth 0 (enclosed '\x7b' '\x7d' tokens) tally.nested := by
  rintro state rfl atParen
  obtain ⟨successor, positive⟩ := successor_pos state.depth bounded
  have opens : state.openBrace.depth = state.depth + 1 := by
    rw [LexState.openBrace, if_pos atParen]
  have still : state.openBrace.paren = 0 := by
    rw [LexState.openBrace, if_pos atParen, atParen]
  obtain ⟨after, reads, adds⟩ := inside state.openBrace opens still
  refine ⟨after.closeBrace,
    Reads.cons rfl (reads.append (Reads.single rfl)), ?_⟩
  have reached : state.openBrace.stats.maxDepth.toNat =
      max state.stats.maxDepth.toNat (state.depth.toNat + 1) := by
    rw [LexState.openBrace, if_pos atParen, ← successor]
    show (if _ then _ else _ : UInt32).toNat = _
    split_ifs with less
    · exact (Nat.max_eq_right (UInt32.lt_iff_toNat_lt.mp less).le).symm
    · exact (Nat.max_eq_left
        (Nat.le_of_not_lt fun below => less
          (UInt32.lt_iff_toNat_lt.mpr below))).symm
  have deepest : max state.stats.maxDepth.toNat
        (Tally.reach state.depth tally.nested.nesting) =
      max (max state.stats.maxDepth.toNat (state.depth.toNat + 1))
        (Tally.reach (state.depth + 1) tally.nesting) := by
    rw [Nat.max_assoc]
    congr 1
    show Tally.reach state.depth (tally.nesting + 1) = _
    rw [Tally.reach, if_neg (Nat.succ_ne_zero _), Tally.reach, successor]
    split_ifs with flat
    · rw [flat, Nat.max_zero]
    · rw [Nat.max_eq_right (Nat.le_add_right _ _)]
      omega
  have closes : after.closeBrace =
      { after with depth := state.depth } := by
    have here : after.depth = state.depth + 1 := adds.depth.trans opens
    rw [LexState.closeBrace, if_pos (adds.paren.trans still), here,
      if_neg (UInt32.ne_of_lt positive).symm, UInt32.add_sub_cancel]
  rw [closes]
  exact {
    depth := rfl
    paren := adds.paren.trans (still.trans atParen.symm)
    maxDepth := by
      rw [deepest, ← reached, ← opens]
      exact adds.maxDepth
    aliases := by
      have counted := adds.aliases
      rw [LexState.openBrace, if_pos atParen] at counted
      exact counted
    fields := by
      have counted := adds.fields
      rw [LexState.openBrace, if_pos atParen] at counted
      exact counted
    directives := by
      have counted := adds.directives
      rw [LexState.openBrace, if_pos atParen] at counted
      exact counted
    introspection := by
      have counted := adds.introspection
      rw [LexState.openBrace, if_pos atParen] at counted
      exact counted }

end Tallies

/-! ## Values, arguments and directives -/

theorem inert_enclosed
    {left right : Char} {tokens : List Lexeme}
    (opening : (Lexeme.punctuator left).inert = true)
    (closing : (Lexeme.punctuator right).inert = true)
    (inside : ∀ token ∈ tokens, token.inert = true) :
    ∀ token ∈ enclosed left right tokens, token.inert = true := by
  intro token member
  rcases List.mem_cons.mp member with rfl | later
  · exact opening
  · rcases List.mem_append.mp later with inner | last
    · exact inside token inner
    · rw [List.mem_singleton.mp last]
      exact closing

theorem mem_itemTokens
    {items : List Value} {token : Lexeme} (member : token ∈ itemTokens items) :
    ∃ item ∈ items, token ∈ item.tokens := by
  induction items with
  | nil => cases member
  | cons item rest induction =>
      rw [itemTokens] at member
      rcases List.mem_append.mp member with first | later
      · exact ⟨item, List.mem_cons_self, first⟩
      · obtain ⟨other, inside, here⟩ := induction later
        exact ⟨other, List.mem_cons_of_mem item inside, here⟩

/-- Besides their values, fields have names and colons. -/
theorem mem_fieldTokens
    {fields : List (Name × Value)} {token : Lexeme}
    (member : token ∈ fieldTokens fields) :
    token.inert = true ∨ ∃ field ∈ fields, token ∈ field.2.tokens := by
  induction fields with
  | nil => cases member
  | cons field rest induction =>
      obtain ⟨name, value⟩ := field
      rw [fieldTokens] at member
      rcases List.mem_cons.mp member with rfl | later
      · exact .inl rfl
      rcases List.mem_cons.mp later with rfl | further
      · exact .inl rfl
      rcases List.mem_append.mp further with first | others
      · exact .inr ⟨(name, value), List.mem_cons_self, first⟩
      · rcases induction others with inert | ⟨other, inside, here⟩
        · exact .inl inert
        · exact .inr ⟨other, List.mem_cons_of_mem _ inside, here⟩

/-- No value has parentheses or directives. -/
theorem Value.inert (value : Value) :
    ∀ token ∈ value.tokens, token.inert = true := by
  cases value with
  | «variable» name => simp [Value.tokens, Name.token, Lexeme.inert]
  | number number => simp [Value.tokens, Number.token, Lexeme.inert]
  | boolean value => cases value <;> simp [Value.tokens, Lexeme.inert]
  | null => simp [Value.tokens, Lexeme.inert]
  | enum name => simp [Value.tokens, Name.token, Lexeme.inert]
  | list items =>
      rw [Value.tokens]
      refine inert_enclosed rfl rfl fun token member => ?_
      obtain ⟨item, inside, here⟩ := mem_itemTokens member
      exact item.inert token here
  | object fields =>
      rw [Value.tokens]
      refine inert_enclosed rfl rfl fun token member => ?_
      rcases mem_fieldTokens member with inert | ⟨field, inside, here⟩
      · exact inert
      · exact field.2.inert token here
termination_by sizeOf value
decreasing_by
  · have smaller := List.sizeOf_lt_of_mem inside
    simp only [Value.list.sizeOf_spec]
    omega
  · have smaller := List.sizeOf_lt_of_mem inside
    obtain ⟨name, value⟩ := field
    simp only [Value.object.sizeOf_spec, Prod.mk.sizeOf_spec] at smaller ⊢
    omega

theorem fieldTokens_inert (fields : List (Name × Value)) :
    ∀ token ∈ fieldTokens fields, token.inert = true := by
  intro token member
  rcases mem_fieldTokens member with inert | ⟨field, -, here⟩
  · exact inert
  · exact field.2.inert token here

theorem TypeReference.inert (type : TypeReference) :
    ∀ token ∈ type.tokens, token.inert = true := by
  induction type with
  | named name => simp [TypeReference.tokens, Name.token, Lexeme.inert]
  | list element induction => exact inert_enclosed rfl rfl induction
  | nonNull inner induction =>
      intro token member
      rcases List.mem_append.mp member with first | last
      · exact induction token first
      · rw [List.mem_singleton.mp last]
        rfl

namespace Tallies

variable {depth paren : UInt32}

theorem arguments
    (bounded : paren + 1 ≠ 0) (arguments : List (Name × Value)) :
    Tallies depth paren (argumentTokens arguments) {} := by
  rw [argumentTokens]
  split_ifs
  · exact nil
  · exact parenthesized bounded (inert bounded (fieldTokens_inert arguments))

/-- Directives; their names are counted as names are where they stand. -/
theorem directives
    (bounded : paren + 1 ≠ 0) {naming : Name → List Name}
    (named : ∀ name : Name,
      Tallies depth paren [name.token] { names := naming name })
    (directives : List Directive) :
    Tallies depth paren (directiveTokens directives)
      { names := directives.flatMap fun directive => naming directive.name
        directives := directives.length } := by
  induction directives with
  | nil => exact nil
  | cons first rest induction =>
      have one := directive.append
        ((named first.name).append (arguments bounded first.arguments))
      apply (one.append induction).congr
      simp [Nat.add_comm]

/-- Directives in a selection set. -/
theorem selectedDirectives
    (selecting : 0 < depth) (directives : List Directive) :
    Tallies depth 0 (directiveTokens directives)
      { names := directiveNames directives
        directives := directives.length } := by
  apply (Tallies.directives (by decide) (name selecting) directives).congr
  simp [directiveNames, List.map_eq_flatMap]

/-- Directives where names are not counted. -/
theorem headDirectives
    (bounded : paren + 1 ≠ 0)
    (named : ∀ name : Name, Tallies depth paren [name.token] {})
    (directives : List Directive) :
    Tallies depth paren (directiveTokens directives)
      { directives := directives.length } := by
  apply (Tallies.directives bounded named directives).congr
  simp

/-- One variable definition inside the parentheses. -/
theorem variableDefinition (definition : VariableDefinition) :
    Tallies depth 1 definition.tokens
      { directives := definition.directives.length } := by
  have inside : (1 : UInt32) ≠ 0 := by decide
  have head : Tallies depth 1
      (.punctuator '$' :: definition.name.token :: .punctuator ':' ::
        definition.type.tokens) {} := by
    apply inert inside
    intro token member
    simp only [List.mem_cons] at member
    rcases member with rfl | rfl | rfl | later
    · rfl
    · rfl
    · rfl
    · exact definition.type.inert token later
  have initial : Tallies depth 1
      (definition.default.elim [] fun value =>
        .punctuator '=' :: value.tokens) {} := by
    cases definition.default with
    | none => exact nil
    | some value =>
        apply inert inside
        intro token member
        rcases List.mem_cons.mp member with rfl | later
        · rfl
        · exact value.inert token later
  have signs : Tallies depth 1 (directiveTokens definition.directives)
      { directives := definition.directives.length } :=
    headDirectives (by decide)
      (fun name => inert inside (by simp [Name.token, Lexeme.inert]))
      definition.directives
  apply ((head.append initial).append signs).congr
  simp

/-- The variable definitions of an operation. -/
theorem variableDefinitions (definitions : List VariableDefinition) :
    Tallies depth 0 (variableTokens definitions)
      { directives := (definitions.map fun definition =>
          definition.directives.length).sum } := by
  have all : Tallies depth 1
      (definitions.flatMap VariableDefinition.tokens)
      { directives := (definitions.map fun definition =>
          definition.directives.length).sum } := by
    induction definitions with
    | nil => exact nil
    | cons definition rest induction =>
        apply ((variableDefinition definition).append induction).congr
        simp
  rw [variableTokens]
  split_ifs with empty
  · rw [List.isEmpty_iff.mp empty]
    exact nil
  · exact parenthesized (by decide) all

end Tallies

/-! ## Selections -/

/-- What a selection adds. -/
def Selection.tally (selection : Selection) : Tally where
  nesting := selection.nesting
  aliases := selection.aliasedFields
  names := selection.names
  directives := selection.directiveCount

/-- What selections add. -/
def selectionTally (selections : List Selection) : Tally where
  nesting := selectionNesting selections
  aliases := selectionAliases selections
  names := selectionNames selections
  directives := selectionDirectives selections

theorem Tallies.label
    {depth : UInt32} (selecting : 0 < depth) (label : Option Name) :
    Tallies depth 0 (aliasTokens label)
      { aliases := label.toList.length, names := label.toList } := by
  cases label with
  | none => exact nil
  | some label => exact (name selecting label).append colon

theorem Tallies.condition
    {depth : UInt32} (selecting : 0 < depth) (condition : Option Name) :
    Tallies depth 0 (conditionTokens condition)
      { names := condition.elim [] fun name => [onName, name] } := by
  cases condition with
  | none => exact nil
  | some type => exact (name selecting onName).append (name selecting type)

mutual

/-- A selection leaves the counters and adds what its tree says. -/
theorem Selection.tallies
    (selection : Selection) {depth : UInt32} (selecting : 0 < depth)
    (bounded : depth.toNat + selection.nesting < 2 ^ 32) :
    Tallies depth 0 selection.tokens selection.tally := by
  cases selection with
  | field label name arguments directives selections =>
      have head := (Tallies.label selecting label).append
        (((Tallies.name selecting name).append
          (Tallies.arguments (by decide) arguments)).append
          (Tallies.selectedDirectives selecting directives))
      cases selections with
      | nil =>
          have tokens : (Selection.field label name arguments directives
              []).tokens =
              aliasTokens label ++ (([name.token] ++
                argumentTokens arguments) ++ directiveTokens directives) := by
            simp [Selection.tokens]
          rw [tokens]
          apply head.congr
          simp [Selection.tally, Selection.nesting, Selection.aliasedFields,
            Selection.names, Selection.directiveCount, selectionNames,
            selectionAliases, selectionDirectives]
      | cons first rest =>
          have tokens : (Selection.field label name arguments directives
              (first :: rest)).tokens =
              aliasTokens label ++ (([name.token] ++
                argumentTokens arguments) ++ directiveTokens directives) ++
                enclosed '\x7b' '\x7d' (selectionTokens (first :: rest)) := by
            simp [Selection.tokens]
          rw [Selection.nesting, ← selectionNesting] at bounded
          obtain ⟨successor, deeper⟩ :=
            successor_pos depth (by omega)
          have inside := selectionTallies (first :: rest) deeper (by omega)
          rw [tokens]
          apply (head.append (inside.braced (by omega))).congr
          simp [Selection.tally, Selection.nesting, Selection.aliasedFields,
            Selection.names, Selection.directiveCount, selectionTally,
            Tally.nested, selectionNesting]
  | spread name directives =>
      apply (Tallies.spread.append ((Tallies.name selecting name).append
        (Tallies.selectedDirectives selecting directives))).congr
      simp [Selection.tally, Selection.nesting, Selection.aliasedFields,
        Selection.names, Selection.directiveCount]
  | inline condition directives selections =>
      have head := Tallies.spread.append
        ((Tallies.condition selecting condition).append
          (Tallies.selectedDirectives selecting directives))
      have tokens : (Selection.inline condition directives
          selections).tokens =
          [.spread] ++ (conditionTokens condition ++
            directiveTokens directives) ++
            enclosed '\x7b' '\x7d' (selectionTokens selections) := by
        simp [Selection.tokens]
      rw [Selection.nesting] at bounded
      obtain ⟨successor, deeper⟩ :=
        successor_pos depth (by omega)
      have inside := selectionTallies selections deeper (by omega)
      rw [tokens]
      apply (head.append (inside.braced (by omega))).congr
      simp [Selection.tally, Selection.nesting, Selection.aliasedFields,
        Selection.names, Selection.directiveCount, selectionTally,
        Tally.nested]

/-- Selections do so one after the other. -/
theorem selectionTallies
    (selections : List Selection) {depth : UInt32} (selecting : 0 < depth)
    (bounded : depth.toNat + selectionNesting selections < 2 ^ 32) :
    Tallies depth 0 (selectionTokens selections)
      (selectionTally selections) := by
  cases selections with
  | nil =>
      rw [selectionTokens]
      apply Tallies.nil.congr
      simp [selectionTally, selectionNesting, selectionAliases,
        selectionNames, selectionDirectives]
  | cons first rest =>
      rw [selectionNesting] at bounded
      have left := first.tallies selecting (by omega)
      have right := selectionTallies rest selecting (by omega)
      rw [selectionTokens]
      apply (left.append right).congr
      simp [selectionTally, selectionNesting, selectionAliases,
        selectionNames, selectionDirectives, Selection.tally]

end

/-! ## Documents -/

/-- What the directives in front of the selections add. -/
theorem Tallies.definitionHead (directives : List Directive) :
    Tallies 0 0 (directiveTokens directives)
      { directives := directives.length } :=
  headDirectives (by decide) (fun name => keyword name.first name.others)
    directives

/-- What a definition adds. -/
def Definition.tally (definition : Definition) : Tally :=
  { directives := definition.headDirectives } +
    (selectionTally definition.selections).nested

/-- The selection set of a definition. -/
theorem Tallies.selectionSet
    (selections : List Selection)
    (bounded : selectionNesting selections + 1 < 2 ^ 32) :
    Tallies 0 0 (enclosed '\x7b' '\x7d' (selectionTokens selections))
      (selectionTally selections).nested :=
  braced (by decide)
    (selectionTallies selections (by decide)
      (by
        show 1 + _ < _
        omega))

theorem Definition.tallies
    (definition : Definition)
    (bounded : selectionNesting definition.selections + 1 < 2 ^ 32) :
    Tallies 0 0 definition.tokens definition.tally := by
  cases definition with
  | shorthand selections =>
      apply (Tallies.nil.append
        (Tallies.selectionSet selections bounded)).congr
      rfl
  | operation type name definitions directives selections =>
      have keyword : Tallies 0 0 [type.token] {} := by
        cases type <;> exact Tallies.keyword _ _
      have named : Tallies 0 0
          (name.elim [] fun name => [name.token]) {} := by
        cases name with
        | none => exact Tallies.nil
        | some name => exact Tallies.keyword name.first name.others
      have head := keyword.append ((named.append
        (Tallies.variableDefinitions definitions)).append
          (Tallies.definitionHead directives))
      apply (head.append (Tallies.selectionSet selections bounded)).congr
      simp [Definition.tally, Definition.headDirectives,
        Definition.selections]
  | fragment name condition directives selections =>
      have head := (Tallies.keyword 'f' "ragment".toList).append
        ((Tallies.keyword name.first name.others).append
          ((Tallies.keyword onName.first onName.others).append
            ((Tallies.keyword condition.first condition.others).append
              (Tallies.definitionHead directives))))
      apply (head.append (Tallies.selectionSet selections bounded)).congr
      simp [Definition.tally, Definition.headDirectives,
        Definition.selections]

/-- What a document adds. -/
def Document.tally (document : Document) : Tally where
  nesting := document.nesting
  aliases := document.aliasedFields
  names := document.names
  directives := document.directiveCount

theorem Document.tallies
    (document : Document) (bounded : document.nesting < 2 ^ 32) :
    Tallies 0 0 (documentTokens document) document.tally := by
  induction document with
  | nil => exact Tallies.nil
  | cons definition rest induction =>
      have deepest : Document.nesting (definition :: rest) =
          max (selectionNesting definition.selections + 1)
            (Document.nesting rest) :=
        rfl
      rw [deepest] at bounded
      have first := definition.tallies (by omega)
      apply (first.append (induction (by omega))).congr
      simp [Document.tally, deepest, Definition.tally, selectionTally,
        Tally.nested, Document.aliasedFields, Document.names,
        Document.directiveCount]

theorem Name.bytes_eq_iff (name other : Name) :
    name.bytes = other.bytes ↔ name = other := by
  constructor
  · intro same
    have texts := asBytes_injective same
    cases name
    cases other
    cases texts
    rfl
  · rintro rfl
    rfl

theorem any_isIntrospection (names : List Name) :
    names.any Name.isIntrospection = true ↔
      schemaName ∈ names ∨ typeName ∈ names := by
  have one : ∀ name : Name, name.isIntrospection = true ↔
      name = schemaName ∨ name = typeName := by
    intro name
    rw [← Name.bytes_eq_iff, ← Name.bytes_eq_iff, Name.isIntrospection,
      Bool.or_eq_true, beq_iff_eq, beq_iff_eq]
    rfl
  rw [List.any_eq_true]
  constructor
  · rintro ⟨name, member, special⟩
    rcases (one name).mp special with rfl | rfl
    · exact Or.inl member
    · exact Or.inr member
  · rintro (member | member)
    · exact ⟨_, member, (one _).mpr (Or.inl rfl)⟩
    · exact ⟨_, member, (one _).mpr (Or.inr rfl)⟩

/-- The metrics say about a document what its tree says. -/
structure Faithful (document : Document) (stats : GraphqlStats) : Prop where
  maxDepth : stats.maxDepth.toNat = document.nesting
  aliases : stats.aliases.toNat = document.aliasedFields
  directives : stats.directives.toNat = document.directiveCount
  fields : document.fieldSelections ≤ stats.fields.toNat
  introspection : stats.hasIntrospection = true ↔
    schemaName ∈ document.names ∨ typeName ∈ document.names

/-- The metrics of every print of a document. -/
theorem adds_of_prints
    {document : Document} {lexemes : List Lexeme}
    (prints : Prints document lexemes)
    (bounded : document.nesting < 2 ^ 32) :
    ∃ after : LexState, graphqlLex (source lexemes) = after.stats ∧
      Adds {} after document.tally := by
  obtain ⟨after, reads, adds⟩ := document.tallies bounded {} rfl rfl
  rw [← prints.tokens] at reads
  have whole := Reads.of_filter lexemes reads
  refine ⟨after, ?_, adds⟩
  rw [graphqlLex, graphqlLexFrom_source {} lexemes prints.lexed whole.regular,
    whole.foldl_count]

/--
The lexer says about a printed document what its tree says exactly when the
words of the counters can hold the nesting, the aliases and the directives,
and the count of names does not wrap below the number of field selections.
-/
theorem graphqlLex_faithful_iff
    (document : Document) (lexemes : List Lexeme)
    (prints : Prints document lexemes) :
    Faithful document (graphqlLex (source lexemes)) ↔
      document.nesting < 2 ^ 32 ∧ document.aliasedFields < 2 ^ 32 ∧
        document.directiveCount < 2 ^ 32 ∧
        document.fieldSelections ≤ document.names.length % 2 ^ 32 := by
  constructor
  · intro faithful
    have shallow : document.nesting < 2 ^ 32 := by
      rw [← faithful.maxDepth]
      exact UInt32.toNat_lt _
    obtain ⟨after, lexed, adds⟩ := adds_of_prints prints shallow
    refine ⟨shallow, ?_, ?_, ?_⟩
    · rw [← faithful.aliases]
      exact UInt32.toNat_lt _
    · rw [← faithful.directives]
      exact UInt32.toNat_lt _
    · have counted := faithful.fields
      rw [lexed, adds.fields, UInt32.zero_add, UInt32.toNat_ofNat'] at counted
      exact counted
  · rintro ⟨shallow, aliases, directives, fields⟩
    obtain ⟨after, lexed, adds⟩ := adds_of_prints prints shallow
    rw [lexed]
    exact {
      maxDepth := by
        rw [adds.maxDepth]
        show max 0 (Tally.reach 0 document.nesting) = document.nesting
        rw [Nat.zero_max, Tally.reach]
        split_ifs with flat
        · exact flat.symm
        · exact Nat.zero_add _
      aliases := by
        rw [adds.aliases, UInt32.zero_add]
        exact UInt32.toNat_ofNat_of_lt' aliases
      directives := by
        rw [adds.directives, UInt32.zero_add]
        exact UInt32.toNat_ofNat_of_lt' directives
      fields := by
        rw [adds.fields, UInt32.zero_add, UInt32.toNat_ofNat']
        exact fields
      introspection := by
        rw [adds.introspection, Bool.false_or]
        exact any_isIntrospection document.names }

/-! ## Documents beyond the words of the counters -/

/-- Tokens with a space after each. -/
def spaced (tokens : List Lexeme) : List Lexeme :=
  tokens.flatMap fun token => [token, .whitespace ' ']

/-- A significant token that a space can follow. -/
def Lexeme.separable (token : Lexeme) : Bool :=
  token.valid && !token.insignificant && !token.excluded ' '

/-- Separable tokens with spaces spell the document. -/
theorem prints_spaced
    (document : Document)
    (separable : ∀ token ∈ documentTokens document,
      token.separable = true) :
    Prints document (spaced (documentTokens document)) := by
  have both : ∀ tokens : List Lexeme,
      (∀ token ∈ tokens, token.separable = true) →
      ((spaced tokens).filter fun lexeme => !lexeme.insignificant) = tokens ∧
        wellLexed (spaced tokens) = true := by
    intro tokens
    induction tokens with
    | nil => exact fun _ => ⟨rfl, rfl⟩
    | cons token rest induction =>
        intro all
        have later := induction fun other member => all other (by simp [member])
        have here := all token (by simp)
        simp only [Lexeme.separable, Bool.and_eq_true, Bool.not_eq_true']
          at here
        have split : spaced (token :: rest) =
            token :: .whitespace ' ' :: spaced rest :=
          rfl
        rw [split]
        constructor
        · rw [List.filter_cons_of_pos (by simp [here]),
            List.filter_cons_of_neg (by decide), later.1]
        · have ahead : token.lookahead
              (source (.whitespace ' ' :: spaced rest)) = true := by
            show (!token.excluded ' ') = true
            simp [here]
          have free : (Lexeme.whitespace ' ').lookahead
              (source (spaced rest)) = true := by
            cases source (spaced rest) <;> rfl
          simp only [wellLexed, here, ahead, free, later.2]
          rfl
  obtain ⟨tokens, lexed⟩ := both _ separable
  exact ⟨tokens, lexed⟩

/-- A query with a default value, an alias, a directive and fragments. -/
def sampleDocument : Document :=
  let user : Name := ⟨'u', "ser".toList, by decide⟩
  let first : Name := ⟨'f', "irst".toList, by decide⟩
  let float : Number :=
    ⟨true, "1".toList, some "5".toList, some ⟨'e', none, "3".toList⟩,
      by decide⟩
  [.operation .query (some user)
      [⟨first, .nonNull (.list (.named user)),
        some (.list [.number float]), []⟩] []
      [.field (some first) user [(user, .object [(first, .variable first)])]
        [⟨first, [(user, .boolean true)]⟩]
        [.field none typeName [] [] []],
      .spread first []],
    .fragment first user []
      [.inline none [] [.field none user [] [] []]]]

theorem graphqlLex_faithful_sample :
    Faithful sampleDocument
      (graphqlLex (source (spaced (documentTokens sampleDocument)))) :=
  (graphqlLex_faithful_iff sampleDocument _
    (prints_spaced sampleDocument
      (List.all_eq_true.mp (by decide +kernel)))).mpr (by decide +kernel)

/-- One operation that selects the same aliased field many times. -/
def aliasBomb (count : Nat) : Document :=
  [.shorthand (List.replicate count
    (.field (some onName) onName [] [] []))]

theorem aliasBomb_aliasedFields (count : Nat) :
    (aliasBomb count).aliasedFields = count := by
  have each : ∀ count : Nat, selectionAliases (List.replicate count
      (.field (some onName) onName [] [] [])) = count := by
    intro count
    induction count with
    | zero => rfl
    | succ count induction =>
        rw [List.replicate_succ, selectionAliases, induction]
        exact Nat.add_comm 1 count
  exact each count

theorem prints_aliasBomb (count : Nat) :
    Prints (aliasBomb count) (spaced (documentTokens (aliasBomb count))) := by
  have each : ∀ count : Nat, ∀ token ∈ selectionTokens
      (List.replicate count (.field (some onName) onName [] [] [])),
      token.separable = true := by
    intro count
    induction count with
    | zero =>
        intro token member
        cases member
    | succ count induction =>
        intro token member
        rw [List.replicate_succ, selectionTokens] at member
        rcases List.mem_append.mp member with first | later
        · exact List.all_eq_true.mp
            (show (Selection.field (some onName) onName [] [] []).tokens.all
              Lexeme.separable = true by decide) token first
        · exact induction token later
  apply prints_spaced
  intro token member
  obtain ⟨definition, single, inside⟩ := List.mem_flatMap.mp member
  rw [List.mem_singleton.mp single] at inside
  rcases List.mem_cons.mp inside with rfl | later
  · decide
  · rcases List.mem_append.mp later with inner | last
    · exact each count token inner
    · rw [List.mem_singleton.mp last]
      decide

/-- More aliases than a word can hold are counted short. -/
theorem graphqlLex_unfaithful_aliasBomb :
    ¬ ∀ (document : Document) (lexemes : List Lexeme),
      Prints document lexemes →
        Faithful document (graphqlLex (source lexemes)) := by
  intro claimed
  have faithful := claimed (aliasBomb (2 ^ 32)) _ (prints_aliasBomb _)
  have counted := faithful.aliases
  rw [aliasBomb_aliasedFields] at counted
  have bounded := UInt32.toNat_lt (graphqlLex (source
    (spaced (documentTokens (aliasBomb (2 ^ 32)))))).aliases
  omega

end LightWaf.Normalizer.Grammar
