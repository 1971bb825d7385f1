import LightWaf.Crs.Module
import LightWaf.Crs.Parse
import LightWaf.Theory.Machine

/-!
# The rule agent of a node

The embedding of `waf-node-agent` with the part of the control plane that it
talks to.  The agent remembers the version it applied last; the managed file
and the published version move without it.  Where a reload fails the file
holds a version that the agent does not remember, and a rollback to the one it
does remember is taken for nothing to do.
-/

namespace LightWaf.NodeAgent

open LightWaf.Crs
open LightWaf.Rust
open LightWaf.Theory.Machine

/-! ## The control plane -/

/-- `rule_versions`, the sequence of its ids, and `rule_current`. -/
structure RuleStore where
  versions : List (Nat × Text)
  sequence : Nat
  current : Option Nat

namespace RuleStore

/--
`publish_rule_version`.  A transaction that does not commit has only used up
an id.
-/
def publish (store : RuleStore) (content : Text) (commits : Bool) :
    RuleStore :=
  if commits then
    { versions := store.versions ++ [(store.sequence, content)]
      sequence := store.sequence + 1
      current := some store.sequence }
  else { store with sequence := store.sequence + 1 }

/-- `set_current_rule_version`. -/
def setCurrent (store : RuleStore) (version : Nat) : RuleStore :=
  if (store.versions.lookup version).isSome then
    { store with current := some version }
  else store

/-- `current_rule_version`: the live version and its content. -/
def currentVersion (store : RuleStore) : Option (Nat × Text) := do
  let version ← store.current
  let content ← store.versions.lookup version
  some (version, content)

end RuleStore

/-- The row of a node in `node_rule_status`. -/
structure NodeRuleStatus where
  appliedVersion : Option Nat
  status : String
  detail : Text

/-! ## A poll -/

/-- `PollOutcome`. -/
inductive PollOutcome
  | unchanged
  | applied (version : Nat)
  | rejected (version : Nat) (reason : Text)
  | error (message : Text)
deriving DecidableEq

/-- What fails during a poll, with the text of its error. -/
structure Faults where
  fetch : Option Text := none
  write : Option Text := none
  reload : Option Text := none
  report : Bool := false

/--
What a poll acts on: the control plane's tables, the managed file, and how the
last reload after the last write of that file went.
-/
structure World where
  store : RuleStore
  nodeStatus : Option NodeRuleStatus
  file : Option Text
  reloaded : Option Bool

namespace World

/-- `report_status`, whose result nobody reads. -/
def reportStatus (world : World) (faults : Faults) (version : Option Nat)
    (status : String) (detail : Text) : World :=
  if faults.report then world
  else { world with nodeStatus := some ⟨version, status, detail⟩ }

/--
`write_atomic`: the file is replaced by a rename or, where one of its steps
fails, left as it is.
-/
def writeAtomic (world : World) (faults : Faults) (content : Text) :
    Except Text World :=
  match faults.write with
  | some error => .error error
  | none => .ok { world with file := some content, reloaded := none }

/-- `run_reload_command`. -/
def runReload (world : World) (faults : Faults) : Except Text Unit × World :=
  match faults.reload with
  | some error => (.error error, { world with reloaded := some false })
  | none => (.ok (), { world with reloaded := some true })

end World

section Validation

variable (regex : RegexCrate) (tables : DebugTables)

/-- `validate_ruleset`; `none` is a panic of the rule parser. -/
def validateRuleset (content : Text) : Option (Except Text Nat) := do
  let parsed ← parse content
  let module ← fromParsed regex tables parsed
  if module.skipped = [] then some (.ok module.loaded)
  else
    let reasons := (module.skipped.take 5).map fun skipped =>
      "line ".toList ++ Nat.toDigits 10 skipped.lineNo ++ ": ".toList ++
        skipped.reason
    some (.error (Nat.toDigits 10 module.skipped.length ++
      " rule(s) fall outside the supported subset: ".toList ++
      "; ".toList.intercalate reasons))

variable (managedFile : Text)

/-- `poll_once` behind its early returns: a version is to be installed. -/
def install (faults : Faults) (lastApplied : Option Nat) (world : World)
    (version : Nat) (content : Text) :
    Except Text Nat → PollOutcome × World
  | .error reason =>
      (.rejected version reason,
        world.reportStatus faults lastApplied "rejected"
          ('v' :: Nat.toDigits 10 version ++ ": ".toList ++ reason))
  | .ok _ =>
      match world.writeAtomic faults content with
      | .error error =>
          let message := "write ".toList ++ managedFile ++ ": ".toList ++ error
          (.error message,
            world.reportStatus faults lastApplied "error" message)
      | .ok written =>
          match written.runReload faults with
          | (.error error, reloaded) =>
              let message := "reload: ".toList ++ error
              (.error message,
                reloaded.reportStatus faults lastApplied "error" message)
          | (.ok (), reloaded) =>
              (.applied version,
                reloaded.reportStatus faults (some version) "applied" [])

/-- `poll_once`. -/
def pollOnce (faults : Faults) (lastApplied : Option Nat) (world : World) :
    Option (PollOutcome × World) :=
  match faults.fetch with
  | some error => some (.error ("fetch current: ".toList ++ error), world)
  | none =>
      match world.store.currentVersion with
      | none => some (.unchanged, world)
      | some (version, content) =>
          if some version = lastApplied then some (.unchanged, world)
          else (validateRuleset regex tables content).map
            (install managedFile faults lastApplied world version content)

/-! ## The loop -/

/-- The loop between two polls. -/
structure Loop where
  world : World
  lastApplied : Option Nat

/-- What happens to the system. -/
inductive Action
  | publish (content : Text) (commits : Bool)
  | setCurrent (version : Nat)
  | poll (faults : Faults)

/-- One turn of the loop of `run`; a panic ends the process. -/
def turn (state : Loop) (faults : Faults) : Option (PollOutcome × Loop) :=
  (pollOnce regex tables managedFile faults state.lastApplied
      state.world).map fun (outcome, world) =>
    match outcome with
    | .applied version => (outcome, ⟨world, some version⟩)
    | _ => (outcome, ⟨world, state.lastApplied⟩)

/-- The next state. -/
def step (state : Loop) : Action → Option Loop
  | .publish content commits =>
      some { state with world := { state.world with
        store := state.world.store.publish content commits } }
  | .setCurrent version =>
      some { state with world := { state.world with
        store := state.world.store.setCurrent version } }
  | .poll faults => (turn regex tables managedFile state faults).map Prod.snd

variable {regex tables managedFile}

/-! ## What a poll can do -/

/-- The ways in which a poll ends. -/
inductive Polled (faults : Faults) (lastApplied : Option Nat)
    (world : World) : PollOutcome → World → Prop
  | idle (unpublished : world.store.currentVersion = none) :
      Polled faults lastApplied world .unchanged world
  | known (version : Nat) (content : Text) (fetched : faults.fetch = none)
      (published : world.store.currentVersion = some (version, content))
      (applied : lastApplied = some version) :
      Polled faults lastApplied world .unchanged world
  | refused (outcome : PollOutcome) (next : World)
      (silent : outcome ≠ .unchanged ∧ ∀ version, outcome ≠ .applied version)
      (store : next.store = world.store) (file : next.file = world.file)
      (reloaded : next.reloaded = world.reloaded) :
      Polled faults lastApplied world outcome next
  | stuck (content message : Text) (next : World)
      (store : next.store = world.store) (file : next.file = some content)
      (reloaded : next.reloaded = some false) :
      Polled faults lastApplied world (.error message) next
  | done (version : Nat) (content : Text) (next : World)
      (published : world.store.currentVersion = some (version, content))
      (store : next.store = world.store) (file : next.file = some content)
      (reloaded : next.reloaded = some true) :
      Polled faults lastApplied world (.applied version) next

@[simp]
theorem reportStatus_store
    (world : World) (faults : Faults) (version : Option Nat)
    (status : String) (detail : Text) :
    (world.reportStatus faults version status detail).store =
      world.store := by
  rw [World.reportStatus]
  split <;> rfl

@[simp]
theorem reportStatus_file
    (world : World) (faults : Faults) (version : Option Nat)
    (status : String) (detail : Text) :
    (world.reportStatus faults version status detail).file = world.file := by
  rw [World.reportStatus]
  split <;> rfl

@[simp]
theorem reportStatus_reloaded
    (world : World) (faults : Faults) (version : Option Nat)
    (status : String) (detail : Text) :
    (world.reportStatus faults version status detail).reloaded =
      world.reloaded := by
  rw [World.reportStatus]
  split <;> rfl

theorem polled_install
    {faults : Faults} {lastApplied : Option Nat} {world : World}
    {version : Nat} {content : Text}
    (published : world.store.currentVersion = some (version, content))
    (verdict : Except Text Nat) :
    Polled faults lastApplied world
      (install managedFile faults lastApplied world version content verdict).1
      (install managedFile faults lastApplied world version content
        verdict).2 := by
  cases verdict with
  | error reason => apply Polled.refused <;> simp [install]
  | ok loaded =>
      cases written : faults.write with
      | some error =>
          apply Polled.refused <;>
            simp [install, World.writeAtomic, written]
      | none =>
          simp only [install, World.writeAtomic, written]
          cases reloaded : faults.reload with
          | some error =>
              simp only [World.runReload, reloaded]
              apply Polled.stuck content <;> simp
          | none =>
              simp only [World.runReload, reloaded]
              apply Polled.done version content _ published <;> simp

theorem polled_of_pollOnce
    {faults : Faults} {lastApplied : Option Nat} {world next : World}
    {outcome : PollOutcome}
    (polled : pollOnce regex tables managedFile faults lastApplied world =
      some (outcome, next)) :
    Polled faults lastApplied world outcome next := by
  rw [pollOnce] at polled
  cases fetched : faults.fetch with
  | some error =>
      rw [fetched] at polled
      cases polled
      exact .refused _ _ (by simp) rfl rfl rfl
  | none =>
      rw [fetched] at polled
      cases published : world.store.currentVersion with
      | none =>
          rw [published] at polled
          cases polled
          exact .idle published
      | some current =>
          obtain ⟨version, content⟩ := current
          simp only [published] at polled
          split at polled
          · rename_i same
            cases polled
            exact .known version content fetched published same.symm
          · obtain ⟨verdict, _, ended⟩ := Option.map_eq_some_iff.mp polled
            have installed := @polled_install managedFile faults lastApplied
              world version content published verdict
            rwa [ended] at installed

/-! ## Truthful polls -/

/-- The file holds a content, and the reload since it was written succeeded. -/
def World.Runs (world : World) (content : Text) : Prop :=
  world.file = some content ∧ world.reloaded = some true

variable (regex tables managedFile)

/--
A poll that is unchanged while a version is published, or that applied one,
leaves the node running that version.
-/
def Truthful (state : Loop) (action : Action) : Prop :=
  ∀ faults outcome next, action = .poll faults →
    turn regex tables managedFile state faults = some (outcome, next) →
      (outcome = .unchanged → ∀ version content,
        next.world.store.currentVersion = some (version, content) →
          next.world.Runs content) ∧
      ∀ version, outcome = .applied version →
        ∃ content, next.world.store.versions.lookup version = some content ∧
          next.world.Runs content

/--
No poll fetches the version that was applied last while the latest reload is
one that failed.
-/
def Settled (state : Loop) (action : Action) : Prop :=
  ∀ faults, action = .poll faults → faults.fetch = none →
    state.world.reloaded = some false →
      ∀ version content,
        state.world.store.currentVersion = some (version, content) →
          state.lastApplied ≠ some version

variable {regex tables managedFile}

/--
The file holds the version applied last, or a version that was written later
and whose reload failed.
-/
def Tracks (state : Loop) : Prop :=
  ∀ version, state.lastApplied = some version →
    ∃ content, state.world.store.versions.lookup version = some content ∧
      (state.world.Runs content ∨ state.world.reloaded = some false)

theorem lookup_publish
    {store : RuleStore} {version : Nat} {content other : Text}
    (found : store.versions.lookup version = some content)
    (commits : Bool) :
    (store.publish other commits).versions.lookup version =
      some content := by
  rw [RuleStore.publish]
  split
  · rw [List.lookup_append, found]
    rfl
  · exact found

theorem versions_setCurrent (store : RuleStore) (version : Nat) :
    (store.setCurrent version).versions = store.versions := by
  rw [RuleStore.setCurrent]
  split <;> rfl

theorem lookup_of_currentVersion
    {store : RuleStore} {version : Nat} {content : Text}
    (published : store.currentVersion = some (version, content)) :
    store.versions.lookup version = some content := by
  simp only [RuleStore.currentVersion, Option.bind_eq_bind,
    Option.bind_eq_some_iff, Option.some.injEq, Prod.mk.injEq] at published
  obtain ⟨_, _, _, found, rfl, rfl⟩ := published
  exact found

/-- What the loop remembers after a poll. -/
def remembered (lastApplied : Option Nat) : PollOutcome → Option Nat
  | .applied version => some version
  | _ => lastApplied

theorem polled_of_turn
    {faults : Faults} {state next : Loop} {outcome : PollOutcome}
    (turned : turn regex tables managedFile state faults =
      some (outcome, next)) :
    Polled faults state.lastApplied state.world outcome next.world ∧
      next.lastApplied = remembered state.lastApplied outcome := by
  rw [turn, Option.map_eq_some_iff] at turned
  obtain ⟨⟨ended, world⟩, polled, same⟩ := turned
  have cases := polled_of_pollOnce polled
  cases ended <;> cases same <;> exact ⟨cases, rfl⟩

theorem tracks_of_turn
    {faults : Faults} {state next : Loop} {outcome : PollOutcome}
    (tracks : Tracks state)
    (turned : turn regex tables managedFile state faults =
      some (outcome, next)) :
    Tracks next := by
  obtain ⟨polled, memory⟩ := polled_of_turn turned
  obtain ⟨world, lastApplied⟩ := next
  intro version applied
  rw [memory] at applied
  cases polled with
  | idle unpublished => exact tracks version applied
  | known other content fetched published same =>
      exact tracks version applied
  | refused _ _ silent store file reloaded =>
      have kept : remembered state.lastApplied outcome =
          state.lastApplied := by
        cases outcome with
        | applied other => exact absurd rfl (silent.2 other)
        | _ => rfl
      rw [kept] at applied
      obtain ⟨content, found, held⟩ := tracks version applied
      refine ⟨content, store ▸ found, ?_⟩
      unfold World.Runs at held ⊢
      rwa [file, reloaded]
  | stuck content message _ store file reloaded =>
      obtain ⟨old, found, _⟩ := tracks version applied
      exact ⟨old, store ▸ found, Or.inr reloaded⟩
  | done new content _ published store file reloaded =>
      cases applied
      refine ⟨content, ?_, Or.inl ⟨file, reloaded⟩⟩
      exact store ▸ lookup_of_currentVersion published

theorem tracks_of_step
    {state next : Loop} {action : Action} (tracks : Tracks state)
    (stepped : step regex tables managedFile state action = some next) :
    Tracks next := by
  cases action with
  | publish content commits =>
      cases stepped
      intro version applied
      obtain ⟨old, found, held⟩ := tracks version applied
      exact ⟨old, lookup_publish found commits, held⟩
  | setCurrent other =>
      cases stepped
      intro version applied
      obtain ⟨old, found, held⟩ := tracks version applied
      exact ⟨old, (versions_setCurrent state.world.store other).symm ▸ found,
        held⟩
  | poll faults =>
      obtain ⟨⟨outcome, ended⟩, turned, rfl⟩ :=
        Option.map_eq_some_iff.mp stepped
      exact tracks_of_turn tracks turned

theorem truthful_of_settled
    {state : Loop} {action : Action} (tracks : Tracks state)
    (settled : Settled state action) :
    Truthful regex tables managedFile state action := by
  rintro faults outcome ⟨world, lastApplied⟩ rfl turned
  obtain ⟨polled, memory⟩ := polled_of_turn turned
  constructor
  · rintro rfl version content published
    cases polled with
    | idle unpublished => exact nomatch published.symm.trans unpublished
    | known other own fetched known applied =>
        obtain ⟨held, found, running⟩ := tracks other applied
        cases published.symm.trans known
        rw [lookup_of_currentVersion published] at found
        cases found
        rcases running with runs | failed
        · exact runs
        · exact absurd applied
            (settled faults rfl fetched failed _ content published)
    | refused _ _ silent => exact absurd rfl silent.1
  · rintro version rfl
    cases polled with
    | refused _ _ silent => exact absurd rfl (silent.2 version)
    | done _ content _ published store file reloaded =>
        exact ⟨content, store ▸ lookup_of_currentVersion published, file,
          reloaded⟩

theorem settled_of_truthful
    {state : Loop} {action : Action}
    (truthful : Truthful regex tables managedFile state action) :
    Settled state action := by
  rintro faults rfl fetched failed version content published applied
  have turned : turn regex tables managedFile state faults =
      some (.unchanged, state) := by
    rw [turn, pollOnce, fetched]
    simp only [published, ← applied, if_true]
    rfl
  have runs := (truthful faults .unchanged state rfl turned).1 rfl version
    content published
  exact nomatch failed.symm.trans runs.2

/-- The loop before its first poll. -/
def Loop.start (world : World) : Loop :=
  ⟨world, none⟩

/--
In a run of the loop every poll is truthful if and only if no poll finds the
version applied last published again behind a reload that failed.
-/
theorem truthful_iff_settled (world : World) (actions : List Action) :
    Throughout (step regex tables managedFile)
        (Truthful regex tables managedFile) (Loop.start world) actions ↔
      Throughout (step regex tables managedFile) Settled (Loop.start world)
        actions := by
  have started : Tracks (Loop.start world) := fun _ applied => nomatch applied
  constructor
  · apply Throughout.imp_of_invariant _ _ started
    · exact fun _ _ _ truthful => settled_of_truthful truthful
    · exact fun _ _ _ tracks _ stepped => tracks_of_step tracks stepped
  · apply Throughout.imp_of_invariant _ _ started
    · exact fun _ _ tracks settled => truthful_of_settled tracks settled
    · exact fun _ _ _ tracks _ stepped => tracks_of_step tracks stepped

end Validation

/-! ## A rollback that is not noticed -/

/-- A first ruleset, with a comment and no rules. -/
def firstRuleset : Text := "# first".toList

/-- A second one. -/
def secondRuleset : Text := "# second".toList

/-- A new control plane and a node without a managed file. -/
def emptyWorld : World where
  store := ⟨[], 1, none⟩
  nodeStatus := none
  file := none
  reloaded := none

/--
The first version is applied; the second is written and its reload fails; the
first is published again.
-/
def rollbackRun : List Action :=
  [.publish firstRuleset true, .poll {},
    .publish secondRuleset true,
    .poll { reload := some "exit status 1".toList }, .setCurrent 1]

/-- A crate for rulesets without patterns. -/
def noPatterns : RegexCrate where
  engine := .ofIsMatch fun _ _ => false
  compiles _ := .ok ()
  setBuilds _ := true

/-- No character is escaped. -/
def noEscapes : DebugTables := ⟨fun _ => false⟩

/-- The node before the last poll: the second version is in the file. -/
def rolledBack : Loop where
  world :=
    { store := ⟨[(1, firstRuleset), (2, secondRuleset)], 3, some 1⟩
      nodeStatus := some ⟨some 1, "error", "reload: exit status 1".toList⟩
      file := some secondRuleset
      reloaded := some false }
  lastApplied := some 1

/-- The next poll is unchanged and leaves the second version there. -/
theorem rollback_taken_for_unchanged :
    rollbackRun.foldlM (step noPatterns noEscapes [])
        (Loop.start emptyWorld) = some rolledBack ∧
      turn noPatterns noEscapes [] rolledBack {} =
        some (.unchanged, rolledBack) ∧
      rolledBack.world.store.currentVersion = some (1, firstRuleset) ∧
      rolledBack.world.file = some secondRuleset ∧
      ¬ Throughout (step noPatterns noEscapes [])
        (Truthful noPatterns noEscapes []) (Loop.start emptyWorld)
        (rollbackRun ++ [.poll {}]) := by
  have ran : rollbackRun.foldlM (step noPatterns noEscapes [])
      (Loop.start emptyWorld) = some rolledBack := rfl
  refine ⟨ran, rfl, rfl, rfl, fun throughout => ?_⟩
  have truthful := throughout.holds_after ran
  exact settled_of_truthful truthful {} rfl rfl rfl 1 firstRuleset rfl rfl

end LightWaf.NodeAgent
