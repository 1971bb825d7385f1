import LightWaf.Crs.Parse

/-!
# Every directive of a rule source is accounted for

A ledger lists the chain groups of a source with what became of each.  The
groups are computed here without the outcome of parsing, the loop is shown to
assemble exactly these groups, and the loaded rules are complete chains
precisely when no group that ends in a `chain` action is loaded.
-/

namespace LightWaf.Crs

open LightWaf.Rust
open LightWaf.Core

/-! ## The ledger -/

/-- A `SecRule` directive. -/
def DirectiveLine.isSecRule (line : DirectiveLine) : Bool :=
  line.isNamed "secrule"

/-- A `SecRule` directive with the `chain` action. -/
def DirectiveLine.carriesChain (line : DirectiveLine) : Bool :=
  ((parseSecrule line).map chains).getD false

/-- The ids named by the `SecRuleRemoveById` directives. -/
def removedIds (directives : List DirectiveLine) : List Nat :=
  (directives.filter (·.isNamed "secruleremovebyid")).flatMap
    collectRemovedIds

/-- The links of a loaded rule, head first. -/
def CrsRule.links (rule : CrsRule) : List MatchUnit :=
  rule.head :: rule.chain

/-- The unit is what the directive says, over some inherited transforms. -/
def LinkOf (unit : MatchUnit) (line : DirectiveLine) : Prop :=
  ∃ parts base, parseSecrule line = some (.ok parts) ∧ unit = parts.unit base

/-- The rule has one link for each directive, and starts on the first. -/
structure MadeOf (rule : CrsRule) (lines : List DirectiveLine) : Prop where
  starts : lines.head?.map DirectiveLine.lineNo = some rule.lineNo
  links : List.Forall₂ LinkOf rule.links lines

/-- What becomes of a chain group. -/
inductive Fate
  | loaded (rule : CrsRule)
  | removed (rule : CrsRule)
  | skipped (record : SkippedRule)

/-- A chain group and its fate. -/
structure Entry where
  lines : List DirectiveLine
  fate : Fate

/-- The rule an entry adds to the rule set. -/
def Entry.loaded (entry : Entry) : Option CrsRule :=
  match entry.fate with
  | .loaded rule => some rule
  | _ => none

/-- The record an entry adds to the skipped rules. -/
def Entry.skipped (entry : Entry) : Option SkippedRule :=
  match entry.fate with
  | .skipped record => some record
  | _ => none

/--
The ledger accounts for the source: its groups are the `SecRule` directives,
each once and in order; only links with a `chain` action are followed by
another link of the group; and the rule set is read off the fates.
-/
structure Accounts (source : Text) (out : ParsedRuleset)
    (ledger : List Entry) : Prop where
  once : ledger.flatMap Entry.lines =
    (lex source).filter DirectiveLine.isSecRule
  chained : ∀ entry ∈ ledger, entry.lines ≠ [] ∧
    ∀ line ∈ entry.lines.dropLast, line.carriesChain = true
  rules : ledger.filterMap Entry.loaded = out.rules
  skips : ledger.filterMap Entry.skipped = out.skipped
  made : ∀ entry ∈ ledger, ∀ rule,
    entry.fate = .loaded rule ∨ entry.fate = .removed rule →
      MadeOf rule entry.lines
  named : ∀ entry ∈ ledger, ∀ rule, entry.fate = .removed rule →
    rule.id ∈ removedIds (lex source)
  reported : ∀ entry ∈ ledger, ∀ record, entry.fate = .skipped record →
    record.lineNo ∈ entry.lines.map DirectiveLine.lineNo

/-- A link with the `chain` action has a further link after it. -/
def Complete (rule : CrsRule) (lines : List DirectiveLine) : Prop :=
  ∀ index line, lines[index]? = some line → line.carriesChain = true →
    index + 1 < rule.links.length

/--
Parsing returns, every directive is accounted for, and no loaded rule is a
partial chain.
-/
def Accountable (source : Text) : Prop :=
  ∃ out ledger, parse source = some out ∧ Accounts source out ledger ∧
    ∀ entry ∈ ledger, ∀ rule, entry.fate = .loaded rule →
      Complete rule entry.lines

/-! ## Chain groups -/

/-- The directives that the links of a chain call for, and the rest. -/
def takeChain : (chained : Bool) → List DirectiveLine →
    List DirectiveLine × List DirectiveLine
  | false, rest => ([], rest)
  | true, [] => ([], [])
  | true, line :: rest =>
      if line.isSecRule then
        let taken := takeChain line.carriesChain rest
        (line :: taken.1, taken.2)
      else ([], line :: rest)

/-- A chain group with the defaults in force at its head. -/
structure ChainGroup where
  defaults : Defaults
  head : DirectiveLine
  children : List DirectiveLine

/-- The directives of a group. -/
def ChainGroup.lines (group : ChainGroup) : List DirectiveLine :=
  group.head :: group.children

/-- The chain groups of a directive list. -/
def groupDirectives : (turns : Nat) → Defaults → List DirectiveLine →
    List ChainGroup
  | 0, _, _ => []
  | _ + 1, _, [] => []
  | turns + 1, defaults, line :: rest =>
      if line.isSecRule then
        let taken := takeChain line.carriesChain rest
        ⟨defaults, line, taken.1⟩ :: groupDirectives turns defaults taken.2
      else if line.isNamed "secdefaultaction" then
        groupDirectives turns (defaults.update line) rest
      else groupDirectives turns defaults rest

/-- The chain groups of a source. -/
def chainGroups (source : Text) : List ChainGroup :=
  groupDirectives (lex source).length {} (lex source)

/-- The directive can be read without a panic. -/
def DirectiveLine.readable (line : DirectiveLine) : Bool :=
  !line.isSecRule || (parseSecrule line).isSome

/-- The parts of a directive that can be read. -/
def DirectiveLine.parts (line : DirectiveLine) : Except Text RuleParts :=
  (parseSecrule line).getD (.error [])

/-- The link of a directive. -/
def DirectiveLine.link (line : DirectiveLine) : ParsedLink :=
  (line.lineNo, line.parts)

/-- What `assemble` makes of a group. -/
def ChainGroup.outcome (group : ChainGroup) : Except SkippedRule CrsRule :=
  assembled group.head.link (group.children.map DirectiveLine.link)
    group.defaults

/-! ## When a group is loaded -/

/-- The link can be evaluated over the transforms it inherits. -/
def DirectiveLine.supported (line : DirectiveLine)
    (base : List Transform) : Bool :=
  match line.parts with
  | .ok parts =>
      parts.actions.blockingUnsupported.isNone &&
        (unitUnsupported (parts.unit base)).isNone
  | .error _ => false

/-- The id on the head of a group. -/
def ChainGroup.id (group : ChainGroup) : Option Nat :=
  match group.head.parts with
  | .ok parts => parts.actions.id
  | .error _ => none

/-- The phase of a group. -/
def ChainGroup.phase (group : ChainGroup) : Nat :=
  match group.head.parts with
  | .ok parts => (parts.actions.phase.or group.defaults.phase).getD 2
  | .error _ => 2

/-- A request phase, and every link can be evaluated. -/
def ChainGroup.supported (group : ChainGroup) : Bool :=
  decide (group.phase < 3) && (group.head.supported group.defaults.transforms &&
    group.children.all (·.supported []))

/-- The last link asks for a further one that is not there. -/
def ChainGroup.dangling (group : ChainGroup) : Bool :=
  (group.lines.getLast (List.cons_ne_nil _ _)).carriesChain

/-! ## The loop assembles the groups -/

theorem takeChain_append (chained : Bool) (directives : List DirectiveLine) :
    (takeChain chained directives).1 ++ (takeChain chained directives).2 =
      directives := by
  induction directives generalizing chained with
  | nil => cases chained <;> rfl
  | cons line rest induction =>
      cases chained with
      | false => rfl
      | true =>
          rw [takeChain]
          split_ifs
          · exact congrArg (line :: ·) (induction line.carriesChain)
          · rfl

theorem length_takeChain_le
    (chained : Bool) (directives : List DirectiveLine) :
    (takeChain chained directives).2.length ≤ directives.length := by
  have lengths := congrArg List.length (takeChain_append chained directives)
  rw [List.length_append] at lengths
  omega

theorem isSecRule_of_mem_takeChain
    {chained : Bool} {directives : List DirectiveLine} {line : DirectiveLine}
    (taken : line ∈ (takeChain chained directives).1) :
    line.isSecRule = true := by
  induction directives generalizing chained with
  | nil => cases chained <;> cases taken
  | cons first rest induction =>
      cases chained with
      | false => cases taken
      | true =>
          rw [takeChain] at taken
          split_ifs at taken with rule
          · rcases List.mem_cons.mp taken with rfl | later
            · exact rule
            · exact induction later
          · cases taken

/-- In a group every link before another one has the `chain` action. -/
theorem carriesChain_of_mem_dropLast
    (line : DirectiveLine) (directives : List DirectiveLine) :
    ∀ link ∈ (line :: (takeChain line.carriesChain directives).1).dropLast,
      link.carriesChain = true := by
  induction directives generalizing line with
  | nil =>
      intro link member
      have empty : (takeChain line.carriesChain []).1 = [] := by
        cases line.carriesChain <;> rfl
      rw [empty] at member
      cases member
  | cons first rest induction =>
      intro link member
      cases chained : line.carriesChain with
      | false =>
          rw [chained] at member
          cases member
      | true =>
          rw [chained, takeChain] at member
          split_ifs at member
          · rw [List.dropLast_cons_of_ne_nil (List.cons_ne_nil _ _)] at member
            rcases List.mem_cons.mp member with rfl | later
            · exact chained
            · exact induction first link later
          · cases member

theorem link_of_parseSecrule
    {line : DirectiveLine} {parts : Except Text RuleParts}
    (parsed : parseSecrule line = some parts) :
    line.link = (line.lineNo, parts) ∧
      line.carriesChain = chains parts := by
  rw [DirectiveLine.link, DirectiveLine.parts, DirectiveLine.carriesChain,
    parsed]
  exact ⟨rfl, rfl⟩

/-- A rule is readable exactly when its parser returns. -/
theorem readable_of_isSecRule
    {line : DirectiveLine} (rule : line.isSecRule = true) :
    line.readable = (parseSecrule line).isSome := by
  rw [DirectiveLine.readable, rule]
  rfl

/-- The inner loop collects the links of the directives a chain calls for. -/
theorem collectChain_eq (chained : Bool) (directives : List DirectiveLine) :
    collectChain chained directives =
      if (takeChain chained directives).1.all DirectiveLine.readable then
        some ((takeChain chained directives).1.map DirectiveLine.link,
          (takeChain chained directives).2)
      else none := by
  induction directives generalizing chained with
  | nil => cases chained <;> rfl
  | cons line rest induction =>
      cases chained with
      | false => rfl
      | true =>
          by_cases rule : line.isSecRule = true
          · have named : line.isNamed "secrule" = true := rule
            simp only [collectChain, takeChain, if_pos rule, if_pos named]
            cases parsed : parseSecrule line with
            | none =>
                rw [List.all_cons, readable_of_isSecRule rule, parsed]
                rfl
            | some parts =>
                obtain ⟨link, chain⟩ := link_of_parseSecrule parsed
                rw [List.all_cons, readable_of_isSecRule rule, parsed,
                  Option.isSome_some, Bool.true_and, List.map_cons, link,
                  Option.bind_eq_bind, Option.bind_some, ← chain, induction]
                split_ifs <;> rfl
          · have named : ¬ line.isNamed "secrule" = true := rule
            rw [collectChain, takeChain, if_neg rule, if_neg named]
            rfl

/-- The rule of a group that is loaded. -/
def ChainGroup.rule (group : ChainGroup) : Option CrsRule :=
  match group.outcome with
  | .ok rule => some rule
  | .error _ => none

/-- The record of a group that is not. -/
def ChainGroup.skip (group : ChainGroup) : Option SkippedRule :=
  match group.outcome with
  | .ok _ => none
  | .error record => some record

theorem filterMap_cons_toList
    {α β : Type} (f : α → Option β) (head : α) (tail : List α) :
    (head :: tail).filterMap f = (f head).toList ++ tail.filterMap f := by
  rw [List.filterMap_cons]
  cases f head <;> rfl

/-- Assembling a group records its rule or its skip. -/
theorem assemble_group (group : ChainGroup) (out : ParsedRuleset) :
    assemble group.head.link (group.children.map DirectiveLine.link)
        group.defaults out =
      ⟨out.rules ++ group.rule.toList,
        out.skipped ++ group.skip.toList⟩ := by
  rw [assemble, ← ChainGroup.outcome, ChainGroup.rule, ChainGroup.skip]
  cases group.outcome with
  | ok rule => simp
  | error record => simp

/-- A directive has one keyword. -/
theorem isNamed_ne
    {line : DirectiveLine} {name : String} (named : line.isNamed name = true)
    {other : String} (differ : name.toList ≠ other.toList) :
    ¬ line.isNamed other = true := by
  intro both
  exact differ ((beq_iff_eq.mp named).symm.trans (beq_iff_eq.mp both))

theorem removedIds_cons_other
    {line : DirectiveLine}
    (other : ¬ line.isNamed "secruleremovebyid" = true)
    (rest : List DirectiveLine) :
    removedIds (line :: rest) = removedIds rest := by
  rw [removedIds, List.filter_cons, if_neg other]
  rfl

theorem removedIds_append_rules
    {children : List DirectiveLine}
    (rules : ∀ line ∈ children, line.isSecRule = true)
    (rest : List DirectiveLine) :
    removedIds (children ++ rest) = removedIds rest := by
  induction children with
  | nil => rfl
  | cons line children induction =>
      have rule := rules line List.mem_cons_self
      refine (removedIds_cons_other (isNamed_ne rule (by decide)) _).trans ?_
      exact induction fun other member =>
        rules other (List.mem_cons_of_mem line member)

/-- The directives of a chain remove no ids. -/
theorem removedIds_cons_secRule
    {line : DirectiveLine} (rule : line.isSecRule = true)
    (rest : List DirectiveLine) :
    removedIds (line :: rest) =
      removedIds (takeChain line.carriesChain rest).2 := by
  rw [removedIds_cons_other (isNamed_ne rule (by decide))]
  conv_lhs => rw [← takeChain_append line.carriesChain rest]
  exact removedIds_append_rules (fun _ => isSecRule_of_mem_takeChain) _

/--
The directive loop assembles the groups in order and collects the removed ids;
it panics when a directive is unreadable.
-/
def Assembled (turns : Nat) (directives : List DirectiveLine) : Prop :=
  ∀ state, (parseDirectives turns directives state).map
      (fun final => (final.out, final.removedIds)) =
    if directives.all DirectiveLine.readable then
      some
        (⟨state.out.rules ++ (groupDirectives turns state.defaults
            directives).filterMap ChainGroup.rule,
          state.out.skipped ++ (groupDirectives turns state.defaults
            directives).filterMap ChainGroup.skip⟩,
          state.removedIds ++ removedIds directives)
    else none

theorem readable_takeChain (chained : Bool) (rest : List DirectiveLine) :
    rest.all DirectiveLine.readable =
      ((takeChain chained rest).1.all DirectiveLine.readable &&
        (takeChain chained rest).2.all DirectiveLine.readable) := by
  rw [← List.all_append, takeChain_append]

/-- A rule takes its chain with it. -/
theorem assembled_secRule
    {turns : Nat} {line : DirectiveLine} {rest : List DirectiveLine}
    (rule : line.isSecRule = true)
    (later : Assembled turns (takeChain line.carriesChain rest).2) :
    Assembled (turns + 1) (line :: rest) := by
  intro state
  have named : line.isNamed "secrule" = true := rule
  simp only [parseDirectives, groupDirectives, if_pos rule, if_pos named]
  cases parsed : parseSecrule line with
  | none =>
      rw [List.all_cons, readable_of_isSecRule rule, parsed]
      rfl
  | some parts =>
      obtain ⟨link, chain⟩ := link_of_parseSecrule parsed
      rw [List.all_cons, readable_of_isSecRule rule, parsed,
        Option.isSome_some, Bool.true_and, Option.bind_eq_bind,
        Option.bind_some, ← chain, collectChain_eq,
        readable_takeChain line.carriesChain rest,
        removedIds_cons_secRule rule, ← link]
      cases (takeChain line.carriesChain rest).1.all
          DirectiveLine.readable with
      | false => rfl
      | true =>
          rw [if_pos rfl, Bool.true_and]
          refine (later _).trans ?_
          rw [assemble_group ⟨state.defaults, line,
            (takeChain line.carriesChain rest).1⟩]
          simp only [filterMap_cons_toList, List.append_assoc]

/-- Other directives set defaults, remove ids, or do nothing. -/
theorem assembled_other
    {turns : Nat} {line : DirectiveLine} {rest : List DirectiveLine}
    (rule : ¬ line.isSecRule = true) (later : Assembled turns rest) :
    Assembled (turns + 1) (line :: rest) := by
  intro state
  have named : ¬ line.isNamed "secrule" = true := rule
  have read : line.readable = true := by
    rw [DirectiveLine.readable, eq_false_of_ne_true rule]
    rfl
  simp only [parseDirectives, groupDirectives, if_neg rule, if_neg named,
    List.all_cons, read, Bool.true_and]
  by_cases setting : line.isNamed "secdefaultaction" = true
  · rw [if_pos setting, if_pos setting, later,
      removedIds_cons_other (isNamed_ne setting (by decide))]
  · rw [if_neg setting, if_neg setting]
    by_cases removes : line.isNamed "secruleremovebyid" = true
    · rw [if_pos removes, later]
      have ids : removedIds (line :: rest) =
          collectRemovedIds line ++ removedIds rest := by
        rw [removedIds, List.filter_cons, if_pos removes]
        rfl
      rw [ids, List.append_assoc]
    · rw [if_neg removes, later, removedIds_cons_other removes]

/-- A turn for each directive is enough. -/
theorem assembled_of_length_le
    (turns : Nat) (directives : List DirectiveLine)
    (enough : directives.length ≤ turns) :
    Assembled turns directives := by
  induction turns generalizing directives with
  | zero =>
      cases List.eq_nil_of_length_eq_zero (Nat.le_zero.mp enough)
      simp [Assembled, parseDirectives, groupDirectives, removedIds]
  | succ turns induction =>
      cases directives with
      | nil => simp [Assembled, parseDirectives, groupDirectives, removedIds]
      | cons line rest =>
          have enough : rest.length ≤ turns := Nat.le_of_succ_le_succ enough
          by_cases rule : line.isSecRule = true
          · apply assembled_secRule rule
            apply induction
            exact (length_takeChain_le line.carriesChain rest).trans enough
          · exact assembled_other rule (induction rest enough)

/-- The result of parsing, read off the chain groups. -/
theorem parse_eq (source : Text) :
    parse source =
      if (lex source).all DirectiveLine.readable then
        some
          ⟨((chainGroups source).filterMap ChainGroup.rule).filter fun rule =>
              !(removedIds (lex source)).contains rule.id,
            (chainGroups source).filterMap ChainGroup.skip⟩
      else none := by
  have loop := assembled_of_length_le (lex source).length (lex source) le_rfl {}
  have retained : parse source =
      ((parseDirectives (lex source).length (lex source) {}).map
        fun final => (final.out, final.removedIds)).map fun final =>
          { final.1 with
            rules := final.1.rules.filter fun rule =>
              !final.2.contains rule.id } := by
    rw [parse]
    cases parseDirectives (lex source).length (lex source) {} <;> rfl
  rw [retained, loop]
  split_ifs <;> rfl

/-! ## The groups are the directives -/

theorem flatMap_groupDirectives
    (turns : Nat) (defaults : Defaults) (directives : List DirectiveLine)
    (enough : directives.length ≤ turns) :
    (groupDirectives turns defaults directives).flatMap ChainGroup.lines =
      directives.filter DirectiveLine.isSecRule := by
  induction turns generalizing defaults directives with
  | zero =>
      cases List.eq_nil_of_length_eq_zero (Nat.le_zero.mp enough)
      rfl
  | succ turns induction =>
      cases directives with
      | nil => rfl
      | cons line rest =>
          have enough : rest.length ≤ turns := Nat.le_of_succ_le_succ enough
          rw [groupDirectives]
          split_ifs with rule
          · have split := takeChain_append line.carriesChain rest
            have shorter : (takeChain line.carriesChain rest).2.length ≤
                turns :=
              (length_takeChain_le line.carriesChain rest).trans enough
            have children :
                (takeChain line.carriesChain rest).1.filter
                  DirectiveLine.isSecRule =
                (takeChain line.carriesChain rest).1 :=
              List.filter_eq_self.mpr fun _ => isSecRule_of_mem_takeChain
            rw [List.filter_cons_of_pos rule, List.flatMap_cons,
              induction _ _ shorter]
            conv_rhs => rw [← split, List.filter_append, children]
            rfl
          · rw [List.filter_cons_of_neg rule, induction _ _ enough]
          · rw [List.filter_cons_of_neg rule, induction _ _ enough]

theorem children_of_mem_groupDirectives
    {turns : Nat} {defaults : Defaults} {directives : List DirectiveLine}
    {group : ChainGroup}
    (member : group ∈ groupDirectives turns defaults directives) :
    ∃ rest, group.children = (takeChain group.head.carriesChain rest).1 := by
  induction turns generalizing defaults directives with
  | zero => cases member
  | succ turns induction =>
      cases directives with
      | nil => cases member
      | cons line rest =>
          rw [groupDirectives] at member
          split_ifs at member
          · rcases List.mem_cons.mp member with rfl | later
            · exact ⟨rest, rfl⟩
            · exact induction later
          · exact induction member
          · exact induction member

/-! ## What assembling a group yields -/

/-- What the body of the link loop does with a directive. -/
theorem assembleUnit_link (id : Nat) (base : List Transform)
    (line : DirectiveLine) :
    (∃ parts, line.parts = .ok parts ∧ line.supported base = true ∧
        assembleUnit id base line.link = .ok (parts.unit base)) ∨
      (line.supported base = false ∧
        ∃ reason, assembleUnit id base line.link =
          .error ⟨some id, line.lineNo, reason⟩) := by
  rw [assembleUnit, DirectiveLine.link, DirectiveLine.supported]
  cases line.parts with
  | error reason => exact .inr ⟨rfl, reason, rfl⟩
  | ok parts =>
      dsimp only
      cases parts.actions.blockingUnsupported with
      | some action => exact .inr ⟨rfl, _, rfl⟩
      | none =>
          cases unitUnsupported (parts.unit base) with
          | some reason => exact .inr ⟨rfl, reason, rfl⟩
          | none => exact .inl ⟨parts, rfl, rfl, rfl⟩

theorem linkOf_unit
    {line : DirectiveLine} {parts : RuleParts}
    (read : line.parts = .ok parts) (base : List Transform) :
    LinkOf (parts.unit base) line := by
  refine ⟨parts, base, ?_, rfl⟩
  rw [DirectiveLine.parts] at read
  cases parsed : parseSecrule line with
  | none =>
      rw [parsed] at read
      cases read
  | some result =>
      rw [parsed] at read
      exact congrArg some read

/-- The loop over the chained links. -/
theorem mapM_assembleUnit
    (id : Nat) (lines : List DirectiveLine) :
    (∃ units, (lines.map DirectiveLine.link).mapM (assembleUnit id []) =
          .ok units ∧ List.Forall₂ LinkOf units lines ∧
        lines.all (·.supported []) = true) ∨
      (lines.all (·.supported []) = false ∧ ∃ line ∈ lines, ∃ reason,
        (lines.map DirectiveLine.link).mapM (assembleUnit id []) =
          .error ⟨some id, line.lineNo, reason⟩) := by
  induction lines with
  | nil => exact .inl ⟨[], rfl, .nil, rfl⟩
  | cons line lines induction =>
      rw [List.map_cons, List.mapM_cons, List.all_cons]
      rcases assembleUnit_link id [] line with
        ⟨parts, read, supported, here⟩ | ⟨unsupported, reason, here⟩
      · rw [here, supported, Bool.true_and]
        rcases induction with
          ⟨units, done, links, all⟩ | ⟨some, bad, member, reason, failed⟩
        · refine .inl ⟨parts.unit [] :: units, ?_,
            .cons (linkOf_unit read []) links, all⟩
          rw [done]
          rfl
        · refine .inr ⟨some, bad, List.mem_cons_of_mem line member, reason,
            ?_⟩
          rw [failed]
          rfl
      · rw [here, unsupported]
        exact .inr ⟨rfl, line, List.mem_cons_self, reason, rfl⟩

/--
A group is loaded when its head has an id, its phase is a request phase and
every link can be evaluated; its rule then has a link for each directive.
Otherwise the record names a line of the group.
-/
theorem outcome_cases (group : ChainGroup) :
    (∃ rule, group.outcome = .ok rule ∧ group.id = some rule.id ∧
        group.supported = true ∧ MadeOf rule group.lines) ∨
      (∃ record, group.outcome = .error record ∧
        record.lineNo ∈ group.lines.map DirectiveLine.lineNo ∧
        (group.id = none ∨ group.supported = false)) := by
  have headLine : group.head.lineNo ∈
      group.lines.map DirectiveLine.lineNo := List.mem_cons_self
  rw [ChainGroup.outcome, assembled]
  cases read : group.head.parts with
  | error reason =>
      have link : group.head.link.2 = .error reason := read
      rw [link]
      refine .inr ⟨_, rfl, headLine, .inl ?_⟩
      rw [ChainGroup.id, read]
  | ok parts =>
      have link : group.head.link.2 = .ok parts := read
      have sameId : group.id = parts.actions.id := by
        rw [ChainGroup.id, read]
      have samePhase : group.phase =
          (parts.actions.phase.or group.defaults.phase).getD 2 := by
        rw [ChainGroup.phase, read]
      rw [link, ChainGroup.supported, sameId]
      dsimp only
      rw [← samePhase]
      cases parts.actions.id with
      | none => exact .inr ⟨_, rfl, headLine, .inl rfl⟩
      | some id =>
          dsimp only
          split_ifs with response
          · refine .inr ⟨_, rfl, headLine, .inr ?_⟩
            rw [decide_eq_false (Nat.not_lt.mpr response)]
            rfl
          · rw [decide_eq_true (Nat.lt_of_not_le response), Bool.true_and]
            rcases assembleUnit_link id group.defaults.transforms
                group.head with
              ⟨headParts, headRead, supported, here⟩ |
                ⟨unsupported, reason, here⟩
            · rw [here, supported, Bool.true_and]
              rcases mapM_assembleUnit id group.children with
                ⟨units, done, links, all⟩ |
                  ⟨some, bad, member, reason, failed⟩
              · rw [done]
                exact .inl ⟨_, rfl, rfl, all, rfl,
                  .cons (linkOf_unit headRead _) links⟩
              · rw [failed]
                refine .inr ⟨_, rfl, ?_, .inr some⟩
                exact List.mem_map_of_mem (List.mem_cons_of_mem _ member)
            · rw [here, unsupported]
              exact .inr ⟨_, rfl, headLine, .inr rfl⟩

/-- A rule made of the directives is complete unless its last one chains. -/
theorem complete_iff
    {rule : CrsRule} {group : ChainGroup} (made : MadeOf rule group.lines) :
    Complete rule group.lines ↔ group.dangling = false := by
  have lengths : rule.links.length = group.lines.length :=
    made.links.length_eq
  have last : group.lines[group.lines.length - 1]? =
      some (group.lines.getLast (List.cons_ne_nil _ _)) := by
    rw [← List.getLast?_eq_getElem?]
    exact List.getLast?_eq_getLast_of_ne_nil _
  constructor
  · intro complete
    rw [Bool.eq_false_iff]
    intro dangling
    have further := complete _ _ last dangling
    have positive : 0 < group.lines.length := Nat.succ_pos _
    omega
  · intro ends index line here chain
    have inside : index < group.lines.length :=
      (List.getElem?_eq_some_iff.mp here).1
    rw [lengths]
    refine Nat.lt_of_le_of_ne inside fun atEnd => ?_
    rw [Nat.eq_sub_of_add_eq atEnd, last] at here
    cases here
    exact Bool.false_ne_true (ends.symm.trans chain)

/-- Two stretches of a list without repeated keys that start alike. -/
theorem stretch_unique
    {α β : Type} {key : α → β} {whole first second : List α}
    (distinct : (whole.map key).Nodup)
    (firstInside : first <:+: whole) (secondInside : second <:+: whole)
    (start : first.head?.map key = second.head?.map key)
    (lengths : first.length = second.length) :
    first = second := by
  obtain ⟨before, after, rfl⟩ := firstInside
  obtain ⟨before', after', same⟩ := secondInside
  cases first with
  | nil => exact (List.eq_nil_of_length_eq_zero lengths.symm).symm
  | cons head rest =>
      cases second with
      | nil => cases lengths
      | cons head' rest' =>
          have keys : key head = key head' := Option.some.inj start
          have offsets : before.length = before'.length := by
            have here : (before ++ head :: rest ++ after)[before.length]? =
                some head := by simp
            have there : (before ++ head :: rest ++ after)[before'.length]? =
                some head' := by simp [← same]
            apply (List.getElem?_inj _ distinct).mp
            · rw [List.getElem?_map, List.getElem?_map, here, there]
              exact congrArg some keys
            · rw [List.length_map]
              exact (List.getElem?_eq_some_iff.mp here).1
          rw [List.append_assoc, List.append_assoc] at same
          have tails := (List.append_inj same offsets.symm).2
          exact (List.append_inj tails lengths.symm).1.symm

/-! ## Every source -/

section Source

variable (source : Text)

/-- The fate of a group: loaded unless it is skipped or its id is removed. -/
def ChainGroup.fate (group : ChainGroup) : Fate :=
  match group.outcome with
  | .error record => .skipped record
  | .ok rule =>
      if (removedIds (lex source)).contains rule.id then .removed rule
      else .loaded rule

/-- The entry of a group. -/
def ChainGroup.entry (group : ChainGroup) : Entry :=
  ⟨group.lines, group.fate source⟩

/-- What the fate of a group tells about it. -/
theorem fate_cases (group : ChainGroup) :
    (∃ rule, group.rule = some rule ∧ group.skip = none ∧
        group.id = some rule.id ∧ group.supported = true ∧
        MadeOf rule group.lines ∧
        ((rule.id ∈ removedIds (lex source) ∧
            group.fate source = .removed rule) ∨
          (rule.id ∉ removedIds (lex source) ∧
            group.fate source = .loaded rule))) ∨
      (∃ record, group.rule = none ∧ group.skip = some record ∧
        group.fate source = .skipped record ∧
        record.lineNo ∈ group.lines.map DirectiveLine.lineNo) := by
  rw [ChainGroup.rule, ChainGroup.skip, ChainGroup.fate]
  rcases outcome_cases group with
    ⟨rule, outcome, id, supported, made⟩ | ⟨record, outcome, line, _⟩
  · rw [outcome]
    refine .inl ⟨rule, rfl, rfl, id, supported, made, ?_⟩
    by_cases removed : rule.id ∈ removedIds (lex source)
    · exact .inl ⟨removed, if_pos (List.contains_iff_mem.mpr removed)⟩
    · exact .inr ⟨removed, if_neg fun contains =>
        removed (List.contains_iff_mem.mp contains)⟩
  · rw [outcome]
    exact .inr ⟨record, rfl, rfl, rfl, line⟩

theorem loaded_entries (groups : List ChainGroup) :
    (groups.map (ChainGroup.entry source)).filterMap Entry.loaded =
      (groups.filterMap ChainGroup.rule).filter fun rule =>
        !(removedIds (lex source)).contains rule.id := by
  rw [List.filterMap_map, List.filter_filterMap]
  apply List.filterMap_congr
  intro group _
  show (group.entry source).loaded = _
  rw [Entry.loaded, ChainGroup.entry]
  rcases fate_cases source group with
    ⟨rule, loads, _, _, _, _, ⟨removed, fate⟩ | ⟨kept, fate⟩⟩ |
      ⟨record, loads, _, fate, _⟩
  · rw [fate, loads, Option.filter, List.contains_iff_mem.mpr removed]
    rfl
  · have absent : (removedIds (lex source)).contains rule.id = false :=
      eq_false_of_ne_true fun contains =>
        kept (List.contains_iff_mem.mp contains)
    rw [fate, loads, Option.filter, absent]
    rfl
  · rw [fate, loads]
    rfl

theorem skipped_entries (groups : List ChainGroup) :
    (groups.map (ChainGroup.entry source)).filterMap Entry.skipped =
      groups.filterMap ChainGroup.skip := by
  rw [List.filterMap_map]
  apply List.filterMap_congr
  intro group _
  show (group.entry source).skipped = _
  rw [Entry.skipped, ChainGroup.entry]
  rcases fate_cases source group with
    ⟨rule, _, skips, _, _, _, ⟨_, fate⟩ | ⟨_, fate⟩⟩ |
      ⟨record, _, skips, fate, _⟩ <;>
    rw [fate, skips]

/-- The groups are the `SecRule` directives in order. -/
theorem flatMap_chainGroups :
    (chainGroups source).flatMap ChainGroup.lines =
      (lex source).filter DirectiveLine.isSecRule :=
  flatMap_groupDirectives _ _ _ le_rfl

/-- Whatever a source holds, the ledger of its groups accounts for it. -/
theorem accounts_ledger
    {out : ParsedRuleset} (parsed : parse source = some out) :
    Accounts source out
      ((chainGroups source).map (ChainGroup.entry source)) := by
  rw [parse_eq] at parsed
  split_ifs at parsed
  cases parsed
  constructor
  case once =>
    rw [List.flatMap_map]
    exact flatMap_chainGroups source
  case chained =>
    intro entry member
    obtain ⟨group, groupMember, rfl⟩ := List.mem_map.mp member
    refine ⟨List.cons_ne_nil _ _, ?_⟩
    obtain ⟨rest, children⟩ := children_of_mem_groupDirectives groupMember
    intro line lineMember
    apply carriesChain_of_mem_dropLast group.head rest
    rw [← children]
    exact lineMember
  case rules => exact loaded_entries source _
  case skips => exact skipped_entries source _
  case made =>
    intro entry member rule fate
    obtain ⟨group, groupMember, rfl⟩ := List.mem_map.mp member
    rcases fate_cases source group with
      ⟨own, _, _, _, _, made, ⟨_, is⟩ | ⟨_, is⟩⟩ | ⟨record, _, _, is, _⟩
    all_goals
      rw [ChainGroup.entry, is] at fate
      rcases fate with same | same <;> cases same
    · exact made
    · exact made
  case named =>
    intro entry member rule fate
    obtain ⟨group, groupMember, rfl⟩ := List.mem_map.mp member
    rcases fate_cases source group with
      ⟨own, _, _, _, _, _, ⟨removed, is⟩ | ⟨_, is⟩⟩ | ⟨record, _, _, is, _⟩
    all_goals
      rw [ChainGroup.entry, is] at fate
      cases fate
    exact removed
  case reported =>
    intro entry member record fate
    obtain ⟨group, groupMember, rfl⟩ := List.mem_map.mp member
    rcases fate_cases source group with
      ⟨own, _, _, _, _, _, ⟨_, is⟩ | ⟨_, is⟩⟩ | ⟨own, _, _, is, line⟩
    all_goals
      rw [ChainGroup.entry, is] at fate
      cases fate
    exact line

/-- A group that is loaded and not removed has an entry in any ledger. -/
theorem entry_of_group
    {out : ParsedRuleset} {ledger : List Entry} {group : ChainGroup}
    {rule : CrsRule} (member : group ∈ chainGroups source)
    (outcome : group.outcome = .ok rule)
    (kept : rule.id ∉ removedIds (lex source))
    (parsed : parse source = some out)
    (accounts : Accounts source out ledger) :
    ∃ entry ∈ ledger, entry.fate = .loaded rule := by
  have loaded : rule ∈ out.rules := by
    rw [parse_eq] at parsed
    split_ifs at parsed
    cases parsed
    apply List.mem_filter.mpr
    constructor
    · refine List.mem_filterMap.mpr ⟨group, member, ?_⟩
      rw [ChainGroup.rule, outcome]
    · simpa using kept
  rw [← accounts.rules] at loaded
  obtain ⟨entry, entryMember, entryRule⟩ := List.mem_filterMap.mp loaded
  refine ⟨entry, entryMember, ?_⟩
  rw [Entry.loaded] at entryRule
  cases fate : entry.fate with
  | loaded other =>
      rw [fate] at entryRule
      exact congrArg Fate.loaded (Option.some.inj entryRule)
  | removed other =>
      rw [fate] at entryRule
      cases entryRule
  | skipped record =>
      rw [fate] at entryRule
      cases entryRule

/-- A rule is made of one stretch of directives only. -/
theorem Accounts.lines_eq
    {source : Text} {out : ParsedRuleset} {ledger : List Entry}
    (accounts : Accounts source out ledger)
    {group : ChainGroup} {rule : CrsRule} {entry : Entry}
    (member : group ∈ chainGroups source)
    (made : MadeOf rule group.lines)
    (entryMember : entry ∈ ledger)
    (entryMade : MadeOf rule entry.lines) :
    entry.lines = group.lines := by
  have distinct : (((lex source).filter DirectiveLine.isSecRule).map
      DirectiveLine.lineNo).Nodup :=
    (lex_lineNo_nodup source).sublist (List.filter_sublist.map _)
  apply stretch_unique distinct
  · rw [← accounts.once]
    exact List.infix_of_mem_flatten (List.mem_map_of_mem entryMember)
  · rw [← flatMap_chainGroups source]
    exact List.infix_of_mem_flatten (List.mem_map_of_mem member)
  · exact entryMade.starts.trans made.starts.symm
  · exact entryMade.links.length_eq.symm.trans made.links.length_eq

/-- In an accountable source no dangling group is loaded. -/
theorem refused_of_accountable
    (accountable : Accountable source) {group : ChainGroup}
    (member : group ∈ chainGroups source) (dangling : group.dangling = true)
    (supported : group.supported = true) {id : Nat}
    (named : group.id = some id) :
    id ∈ removedIds (lex source) := by
  obtain ⟨out, ledger, parsed, accounts, complete⟩ := accountable
  by_contra kept
  rcases outcome_cases group with
    ⟨rule, outcome, own, _, made⟩ | ⟨_, _, _, noId | unsupported⟩
  · cases named.symm.trans own
    obtain ⟨entry, entryMember, fate⟩ := entry_of_group source member
      outcome kept parsed accounts
    have same := accounts.lines_eq member made entryMember
      (accounts.made entry entryMember rule (.inl fate))
    have whole := complete entry entryMember rule fate
    rw [same] at whole
    rw [(complete_iff made).mp whole] at dangling
    cases dangling
  · cases named.symm.trans noId
  · cases supported.symm.trans unsupported

/--
A source is accounted for, with no partial chain among the loaded rules, if
and only if no operator makes the parser panic and every group whose last
link still asks for another is skipped for a reason of its own or removed.
-/
theorem accountable_iff :
    Accountable source ↔
      (∀ line ∈ lex source, line.readable = true) ∧
        ∀ group ∈ chainGroups source, group.dangling = true →
          group.supported = true → ∀ id, group.id = some id →
            id ∈ removedIds (lex source) := by
  constructor
  · intro accountable
    constructor
    · obtain ⟨out, _, parsed, _⟩ := accountable
      rw [parse_eq] at parsed
      split_ifs at parsed with all
      exact List.all_eq_true.mp all
    · intro group member dangling supported id named
      exact refused_of_accountable source accountable member dangling
        supported named
  · rintro ⟨readable, refused⟩
    have parsed := parse_eq source
    rw [if_pos (List.all_eq_true.mpr readable)] at parsed
    refine ⟨_, _, parsed, accounts_ledger source parsed, ?_⟩
    intro entry member rule fate
    obtain ⟨group, groupMember, rfl⟩ := List.mem_map.mp member
    rcases fate_cases source group with
      ⟨own, _, _, id, supported, made, ⟨_, is⟩ | ⟨kept, is⟩⟩ |
        ⟨record, _, _, is, _⟩
    all_goals
      rw [ChainGroup.entry, is] at fate
      cases fate
    apply (complete_iff made).mpr
    rw [Bool.eq_false_iff]
    intro dangling
    exact kept (refused group groupMember dangling supported _ id)

end Source

/-- A rule with the `chain` action and nothing after it. -/
def danglingSource : Text :=
  "SecRule ARGS \x22@rx a\x22 \x22id:1,phase:2,chain\x22".toList

/-- The dangling rule is loaded as if it were complete. -/
theorem not_accountable_danglingSource : ¬ Accountable danglingSource := by
  intro accountable
  have loads : (chainGroups danglingSource).any (fun group =>
      group.dangling && (group.supported && group.id == some 1)) = true := by
    decide +kernel
  obtain ⟨group, member, holds⟩ := List.any_eq_true.mp loads
  rw [Bool.and_eq_true, Bool.and_eq_true, beq_iff_eq] at holds
  have removed := refused_of_accountable danglingSource accountable member
    holds.1 holds.2.1 holds.2.2
  have none : removedIds (lex danglingSource) = [] := by decide +kernel
  rw [none] at removed
  cases removed

end LightWaf.Crs
