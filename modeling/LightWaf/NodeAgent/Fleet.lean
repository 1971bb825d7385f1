import LightWaf.NodeAgent.Poll
import LightWaf.Theory.History

/-!
# A fleet of rule agents

Many agents against one control plane.  A poll is no longer one step: between
what it fetches, writes, reloads and reports, other agents poll, versions are
published and rolled back, and a report that its agent has given up on may
still arrive.  Agents start again at any moment and forget what they applied.

Two results.  The convergence view is sound: what it says of a node some agent
of that name has done, and a managed file never holds anything but what was
there before or a published version that validates.  And the fleet converges:
while the published version stands still, every agent that polls without a
fault ends up running it.
-/

namespace LightWaf.NodeAgent.Fleet

open LightWaf.Crs
open LightWaf.Rust
open LightWaf.Theory.History
open LightWaf.Theory.Machine

universe u

/-! ## An agent between its polls and within one -/

/-- Where `poll_once` stands. -/
inductive Phase
  | sleeping
  | fetched (version : Nat) (content : Text)
  | writing (version : Nat) (content : Text)
  | reloading (version : Nat)
  | reporting (report : NodeRuleStatus) (outcome : PollOutcome)
  /-- The report is sent and its answer is awaited. -/
  | awaiting (outcome : PollOutcome)
  /-- The rule parser has panicked. -/
  | dead

/-- An agent with the file it manages and how its last reload went. -/
structure Agent where
  phase : Phase
  lastApplied : Option Nat
  file : Option Text
  reloaded : Option Bool

/-- The agent of a node as it is found. -/
def Agent.found (file : Option Text) : Agent :=
  ⟨.sleeping, none, file, none⟩

/-- What an agent does; a fault has the text of its error. -/
inductive Move
  | fetch (fault : Option Text)
  | decide
  | write (fault : Option Text)
  | reload (fault : Option Text)
  | post
  | answer
  | restart

namespace Agent

/-- The file holds a content, and the reload since it was written succeeded. -/
def Runs (agent : Agent) (content : Text) : Prop :=
  agent.file = some content ∧ agent.reloaded = some true

/-- A poll ends with a report. -/
def report (agent : Agent) (version : Option Nat) (status : String)
    (detail : Text) (outcome : PollOutcome) : Agent :=
  { agent with
    phase := .reporting ⟨version, status, detail⟩ outcome }

/-- `fetch_current`, and the end of a poll that gets no version. -/
def fetch (agent : Agent) (current : Option (Nat × Text)) :
    Option Text → Agent
  | some _ => agent
  | none =>
      match current with
      | none => agent
      | some (version, content) => { agent with
          phase := .fetched version content }

variable (regex : RegexCrate) (tables : DebugTables)

/-- The comparison with `last_applied`, and `validate_ruleset`. -/
def decideOn (agent : Agent) (version : Nat) (content : Text) : Agent :=
  if some version = agent.lastApplied then { agent with
    phase := .sleeping }
  else match validateRuleset regex tables content with
    | none => { agent with
        phase := .dead }
    | some (.error reason) =>
        agent.report agent.lastApplied "rejected"
          ('v' :: Nat.toDigits 10 version ++ ": ".toList ++ reason)
          (.rejected version reason)
    | some (.ok _) => { agent with
        phase := .writing version content }

/-- `write_atomic`. -/
def write (agent : Agent) (managedFile : Text) (version : Nat)
    (content : Text) : Option Text → Agent
  | some error =>
      let message := "write ".toList ++ managedFile ++ ": ".toList ++ error
      agent.report agent.lastApplied "error" message (.error message)
  | none => { agent with
      phase := .reloading version
      file := some content
      reloaded := none }

/-- `reload`, which is `run_reload_command`. -/
def reload (agent : Agent) (version : Nat) : Option Text → Agent
  | some error =>
      let message := "reload: ".toList ++ error
      { agent with
        reloaded := some false }.report agent.lastApplied "error" message
          (.error message)
  | none =>
      { agent with
        reloaded := some true }.report (some version) "applied" []
          (.applied version)

/-- The next state of an agent that is shown the current version. -/
def step (managedFile : Text) (current : Option (Nat × Text))
    (agent : Agent) (move : Move) : Option Agent :=
  match agent.phase, move with
  | .sleeping, .fetch fault => some (agent.fetch current fault)
  | .fetched version content, .decide =>
      some (agent.decideOn regex tables version content)
  | .writing version content, .write fault =>
      some (agent.write managedFile version content fault)
  | .reloading version, .reload fault => some (agent.reload version fault)
  | .reporting _ outcome, .post => some { agent with
      phase := .awaiting outcome }
  | .awaiting outcome, .answer => some { agent with
      phase := .sleeping
      lastApplied := remembered agent.lastApplied outcome }
  | _, .restart => some { agent with
      phase := .sleeping
      lastApplied := none }
  | _, _ => none

/-- The report that a move sends. -/
def posted (agent : Agent) : Move → Option NodeRuleStatus
  | .post =>
      match agent.phase with
      | .reporting report _ => some report
      | _ => none
  | _ => none

end Agent

/-! ## The fleet -/

/--
The control plane with its unfinished transactions, the agents, and the
reports that have not arrived.
-/
structure System (ι : Type u) where
  store : RuleStore
  drafts : List (Nat × Text)
  rollbacks : List Nat
  agents : ι → Agent
  reports : List (Text × NodeRuleStatus)
  nodeStatus : Text → Option NodeRuleStatus

/-- What happens to the fleet. -/
inductive Action (ι : Type u)
  /-- `publish_version` up to the `INSERT` of its transaction. -/
  | draft (content : Text)
  | commit (index : Nat)
  | abort (index : Nat)
  /-- The `SELECT` of `set_current_rule_version`, and its upsert. -/
  | select (version : Nat)
  | upsert (index : Nat)
  | agent (agent : ι) (move : Move)
  /-- A report arrives, or is lost. -/
  | record (index : Nat)
  | lose (index : Nat)

namespace System

variable {ι : Type u}

/-- `publish_version` refuses an empty content; an `INSERT` draws an id. -/
def draft (system : System ι) (content : Text) : Option (System ι) :=
  if trim content = [] then none
  else some { system with
    store := { system.store with
      sequence := system.store.sequence + 1 }
    drafts := system.drafts ++ [(system.store.sequence, content)] }

/-- The end of `publish_rule_version`. -/
def commit (system : System ι) (index : Nat) : Option (System ι) :=
  system.drafts[index]?.map fun version => { system with
    store := { system.store with
      versions := system.store.versions ++ [version]
      current := some version.1 }
    drafts := system.drafts.eraseIdx index }

theorem lookup_of_commit
    {system next : System ι} {index : Nat}
    (committed : system.commit index = some next) (version : Nat)
    (content : Text)
    (found : system.store.versions.lookup version = some content) :
    next.store.versions.lookup version = some content := by
  obtain ⟨draft, _, rfl⟩ := Option.map_eq_some_iff.mp committed
  show (system.store.versions ++ [draft]).lookup version = some content
  rw [List.lookup_append, found]
  rfl

/-- The `SELECT` of `set_current_rule_version`. -/
def select (system : System ι) (version : Nat) : Option (System ι) :=
  if (system.store.versions.lookup version).isSome then some { system with
    rollbacks := system.rollbacks ++ [version] }
  else none

/-- The upsert of `set_current_rule_version`. -/
def upsert (system : System ι) (index : Nat) : Option (System ι) :=
  system.rollbacks[index]?.map fun version => { system with
    store := { system.store with
      current := some version }
    rollbacks := system.rollbacks.eraseIdx index }

/-- `report_status` and `record_node_rule_status`. -/
def record (system : System ι) (index : Nat) : Option (System ι) :=
  system.reports[index]?.map fun (node, report) =>
    if trim node = [] then { system with
      reports := system.reports.eraseIdx index }
    else { system with
      reports := system.reports.eraseIdx index
      nodeStatus := Function.update system.nodeStatus node (some report) }

/-- A move of one agent, under its node's name. -/
def move [DecidableEq ι] (system : System ι) (name : ι → Text) (agent : ι)
    (move : Move) (next : Agent) : System ι :=
  { system with
    agents := Function.update system.agents agent next
    reports := system.reports ++
      ((system.agents agent).posted move).toList.map (name agent, ·) }

/-- A control plane without versions, and agents as they are found. -/
def start (files : ι → Option Text) : System ι where
  store := ⟨[], 1, none⟩
  drafts := []
  rollbacks := []
  agents agent := .found (files agent)
  reports := []
  nodeStatus _ := none

end System

section Runs

variable {ι : Type u} [DecidableEq ι]
variable (regex : RegexCrate) (tables : DebugTables)
variable (managedFile name : ι → Text)

/-- The next state of the fleet. -/
def step (system : System ι) : Action ι → Option (System ι)
  | .draft content => system.draft content
  | .commit index => system.commit index
  | .abort index => some { system with
      drafts := system.drafts.eraseIdx index }
  | .select version => system.select version
  | .upsert index => system.upsert index
  | .agent agent move =>
      ((system.agents agent).step regex tables (managedFile agent)
        system.store.currentVersion move).map (system.move name agent move)
  | .record index => system.record index
  | .lose index => some { system with
      reports := system.reports.eraseIdx index }

end Runs

/-! ## A poll that nothing comes between -/

section Undisturbed

variable {regex : RegexCrate} {tables : DebugTables} {managedFile : Text}

/-- The agent of a loop between two polls. -/
def Agent.ofLoop (state : Loop) : Agent :=
  ⟨.sleeping, state.lastApplied, state.world.file, state.world.reloaded⟩

/-- A report, whether it arrives or not, is no change of the agent. -/
theorem ofLoop_reportStatus
    (world : World) (faults : Faults) (version : Option Nat) (status : String)
    (detail : Text) (lastApplied : Option Nat) :
    Agent.ofLoop ⟨world.reportStatus faults version status detail,
        lastApplied⟩ =
      Agent.ofLoop ⟨world, lastApplied⟩ := by
  unfold Agent.ofLoop
  rw [reportStatus_file, reportStatus_reloaded]

/-- A poll that is answered with a version comes to its validation. -/
theorem foldlM_fetch_decide
    (state : Loop) (version : Nat) (content : Text) (moves : List Move) :
    List.foldlM (Agent.step regex tables managedFile (some (version, content)))
        (.ofLoop state) (.fetch none :: .decide :: moves) =
      List.foldlM
        (Agent.step regex tables managedFile (some (version, content)))
        (Agent.decideOn regex tables
          { Agent.ofLoop state with phase := .fetched version content }
          version content) moves :=
  rfl

/-- A content that is rejected is reported with what was applied before. -/
theorem decideOn_of_error
    {agent : Agent} {version : Nat} {content reason : Text}
    (differs : some version ≠ agent.lastApplied)
    (rejected : validateRuleset regex tables content = some (.error reason)) :
    agent.decideOn regex tables version content =
      agent.report agent.lastApplied "rejected"
        ('v' :: Nat.toDigits 10 version ++ ": ".toList ++ reason)
        (.rejected version reason) := by
  rw [Agent.decideOn, if_neg differs, rejected]

/-- A content that is accepted is written next. -/
theorem decideOn_of_ok
    {agent : Agent} {version loaded : Nat} {content : Text}
    (differs : some version ≠ agent.lastApplied)
    (accepted : validateRuleset regex tables content = some (.ok loaded)) :
    agent.decideOn regex tables version content =
      { agent with phase := .writing version content } := by
  rw [Agent.decideOn, if_neg differs, accepted]

theorem moves_of_install
    {faults : Faults} {state : Loop} {version : Nat} {content : Text}
    {verdict : Except Text Nat}
    (published : state.world.store.currentVersion = some (version, content))
    (differs : some version ≠ state.lastApplied)
    (validated : validateRuleset regex tables content = some verdict)
    {outcome : PollOutcome} {world : World}
    (installed : install managedFile faults state.lastApplied state.world
      version content verdict = (outcome, world)) :
    ∃ moves, List.foldlM (Agent.step regex tables managedFile
        state.world.store.currentVersion) (.ofLoop state) moves =
      some (.ofLoop ⟨world, remembered state.lastApplied outcome⟩) := by
  rw [published]
  cases verdict with
  | error reason =>
      cases installed
      refine ⟨[.fetch none, .decide, .post, .answer], ?_⟩
      rw [foldlM_fetch_decide, decideOn_of_error differs validated,
        ofLoop_reportStatus]
      rfl
  | ok loaded =>
      cases written : faults.write with
      | some error =>
          simp only [install, World.writeAtomic, written] at installed
          cases installed
          refine ⟨[.fetch none, .decide, .write (some error), .post, .answer],
            ?_⟩
          rw [foldlM_fetch_decide, decideOn_of_ok differs validated,
            ofLoop_reportStatus]
          rfl
      | none =>
          simp only [install, World.writeAtomic, written] at installed
          refine ⟨[.fetch none, .decide, .write none, .reload faults.reload,
            .post, .answer], ?_⟩
          cases reloaded : faults.reload with
          | some error =>
              simp only [World.runReload, reloaded] at installed
              cases installed
              rw [foldlM_fetch_decide, decideOn_of_ok differs validated,
                ofLoop_reportStatus]
              rfl
          | none =>
              simp only [World.runReload, reloaded] at installed
              cases installed
              rw [foldlM_fetch_decide, decideOn_of_ok differs validated,
                ofLoop_reportStatus]
              rfl

/-- A turn of the loop on its own is one run of the moves of its agent. -/
theorem moves_of_turn
    {faults : Faults} {state next : Loop} {outcome : PollOutcome}
    (turned : turn regex tables managedFile state faults =
      some (outcome, next)) :
    ∃ moves, List.foldlM (Agent.step regex tables managedFile
        state.world.store.currentVersion) (.ofLoop state) moves =
      some (.ofLoop next) := by
  rw [turn, Option.map_eq_some_iff] at turned
  obtain ⟨⟨ended, world⟩, polled, same⟩ := turned
  have loop : next = ⟨world, remembered state.lastApplied ended⟩ := by
    cases ended <;> cases same <;> rfl
  rw [loop]
  rw [pollOnce] at polled
  split at polled
  next error failed =>
    cases polled
    exact ⟨[.fetch (some error)], rfl⟩
  next =>
    split at polled
    next unpublished =>
      cases polled
      rw [unpublished]
      exact ⟨[.fetch none], rfl⟩
    next version content published =>
      split at polled
      next known =>
        cases polled
        refine ⟨[.fetch none, .decide], ?_⟩
        simp [Agent.step, Agent.fetch, Agent.decideOn, Agent.ofLoop,
          published, known, remembered]
      next differs =>
        obtain ⟨verdict, validated, installed⟩ :=
          Option.map_eq_some_iff.mp polled
        exact moves_of_install published differs validated installed

end Undisturbed

/-! ## What an agent has done -/

section Soundness

variable {ι : Type u} [DecidableEq ι]
variable (regex : RegexCrate) (tables : DebugTables)
variable (managedFile name : ι → Text) (files : ι → Option Text)

/-- A content that the agents' validation accepts. -/
def Validates (content : Text) : Prop :=
  ∃ loaded, validateRuleset regex tables content = some (.ok loaded)

/--
In the course of a run an agent has reloaded a version with success, while its
file held the content that is published under that version.
-/
def Applied (actions : List (Action ι)) (agent : ι) (version : Nat) : Prop :=
  ∃ before after system content,
    actions = before ++ .agent agent (.reload none) :: after ∧
    before.foldlM (step regex tables managedFile name) (.start files) =
      some system ∧
    (system.agents agent).phase = .reloading version ∧
    (system.agents agent).file = some content ∧
    system.store.versions.lookup version = some content

/-- What an agent relies on, by what is published and what it has done. -/
def Phase.Sound (published : Nat → Option Text) (applied : Nat → Prop)
    (file : Option Text) : Phase → Prop
  | .fetched version content => published version = some content
  | .writing version content =>
      published version = some content ∧ Validates regex tables content
  | .reloading version =>
      ∃ content, published version = some content ∧ file = some content
  | .reporting report outcome =>
      (∀ version, report.appliedVersion = some version → applied version) ∧
        ∀ version, outcome = .applied version → applied version
  | .awaiting outcome =>
      ∀ version, outcome = .applied version → applied version
  | .sleeping => True
  | .dead => True

/-- An agent has done what it says, and its file is a version or untouched. -/
structure Agent.Sound (published : Nat → Option Text)
    (applied : Nat → Prop) (found : Option Text) (agent : Agent) : Prop where
  phase : agent.phase.Sound regex tables published applied agent.file
  lastApplied : ∀ version, agent.lastApplied = some version →
    applied version
  file : agent.file = found ∨ ∃ version content,
    published version = some content ∧ Validates regex tables content ∧
      agent.file = some content

variable {regex tables managedFile name files}

theorem Phase.Sound.mono
    {published published' : Nat → Option Text} {applied applied' : Nat → Prop}
    {file : Option Text} {phase : Phase}
    (sound : phase.Sound regex tables published applied file)
    (still : ∀ version content, published version = some content →
      published' version = some content)
    (since : ∀ version, applied version → applied' version) :
    phase.Sound regex tables published' applied' file := by
  cases phase with
  | fetched version content => exact still version content sound
  | writing version content =>
      exact ⟨still version content sound.1, sound.2⟩
  | reloading version =>
      obtain ⟨content, there, held⟩ := sound
      exact ⟨content, still version content there, held⟩
  | reporting report outcome =>
      exact ⟨fun version same => since version (sound.1 version same),
        fun version same => since version (sound.2 version same)⟩
  | awaiting outcome =>
      exact fun version same => since version (sound version same)
  | sleeping => trivial
  | dead => trivial

theorem Agent.Sound.mono
    {published published' : Nat → Option Text} {applied applied' : Nat → Prop}
    {found : Option Text} {agent : Agent}
    (sound : agent.Sound regex tables published applied found)
    (still : ∀ version content, published version = some content →
      published' version = some content)
    (since : ∀ version, applied version → applied' version) :
    agent.Sound regex tables published' applied' found where
  phase := sound.phase.mono still since
  lastApplied version same := since version (sound.lastApplied version same)
  file := by
    rcases sound.file with untouched | ⟨version, content, there, rest⟩
    · exact Or.inl untouched
    · exact Or.inr ⟨version, content, still version content there, rest⟩

theorem sound_fetch
    {published : Nat → Option Text} {applied : Nat → Prop}
    {found : Option Text} {agent : Agent}
    (sound : agent.Sound regex tables published applied found)
    {current : Option (Nat × Text)}
    (there : ∀ version content, current = some (version, content) →
      published version = some content) (fault : Option Text) :
    (agent.fetch current fault).Sound regex tables published applied
      found := by
  cases fault with
  | some error => exact sound
  | none =>
      cases current with
      | none => exact sound
      | some version =>
          exact ⟨there version.1 version.2 rfl, sound.lastApplied,
            sound.file⟩

theorem sound_decideOn
    {published : Nat → Option Text} {applied : Nat → Prop}
    {found : Option Text} {agent : Agent} {version : Nat} {content : Text}
    (sound : agent.Sound regex tables published applied found)
    (there : published version = some content) :
    (agent.decideOn regex tables version content).Sound regex tables
      published applied found := by
  unfold Agent.decideOn
  split
  · exact ⟨trivial, sound.lastApplied, sound.file⟩
  · split
    next => exact ⟨trivial, sound.lastApplied, sound.file⟩
    next reason rejected =>
      exact ⟨⟨sound.lastApplied, nofun⟩, sound.lastApplied, sound.file⟩
    next loaded accepted =>
      exact ⟨⟨there, loaded, accepted⟩, sound.lastApplied, sound.file⟩

theorem sound_write
    {published : Nat → Option Text} {applied : Nat → Prop}
    {found : Option Text} {agent : Agent} {version : Nat} {content : Text}
    (sound : agent.Sound regex tables published applied found)
    (there : published version = some content)
    (validates : Validates regex tables content) (managed : Text)
    (fault : Option Text) :
    (agent.write managed version content fault).Sound regex tables published
      applied found := by
  cases fault with
  | some error =>
      exact ⟨⟨sound.lastApplied, nofun⟩, sound.lastApplied, sound.file⟩
  | none =>
      exact ⟨⟨content, there, rfl⟩, sound.lastApplied,
        Or.inr ⟨version, content, there, validates, rfl⟩⟩

theorem sound_reload
    {published : Nat → Option Text} {applied : Nat → Prop}
    {found : Option Text} {agent : Agent} {version : Nat}
    {fault : Option Text}
    (sound : agent.Sound regex tables published applied found)
    (done : fault = none → applied version) :
    (agent.reload version fault).Sound regex tables published applied
      found := by
  cases fault with
  | some error =>
      exact ⟨⟨sound.lastApplied, nofun⟩, sound.lastApplied, sound.file⟩
  | none =>
      refine ⟨⟨?_, ?_⟩, sound.lastApplied, sound.file⟩
      · rintro other same
        cases same
        exact done rfl
      · rintro other same
        cases same
        exact done rfl

/-- A move keeps an agent sound once its own reload counts as done. -/
theorem sound_of_step
    {published : Nat → Option Text} {applied : Nat → Prop}
    {found : Option Text} {agent next : Agent} {move : Move}
    {managed : Text} {current : Option (Nat × Text)}
    (sound : agent.Sound regex tables published applied found)
    (there : ∀ version content, current = some (version, content) →
      published version = some content)
    (done : ∀ version, agent.phase = .reloading version →
      move = .reload none → applied version)
    (stepped : agent.step regex tables managed current move = some next) :
    next.Sound regex tables published applied found := by
  have phase := sound.phase
  unfold Agent.step at stepped
  split at stepped
  next fault asleep =>
    cases stepped
    exact sound_fetch sound there fault
  next version content fetched =>
    cases stepped
    rw [fetched] at phase
    exact sound_decideOn sound phase
  next version content fault writing =>
    cases stepped
    rw [writing] at phase
    exact sound_write sound phase.1 phase.2 managed fault
  next version fault reloading =>
    cases stepped
    exact sound_reload sound fun same => done version reloading (same ▸ rfl)
  next report outcome reporting =>
    cases stepped
    rw [reporting] at phase
    exact ⟨phase.2, sound.lastApplied, sound.file⟩
  next outcome awaiting =>
    cases stepped
    rw [awaiting] at phase
    refine ⟨trivial, fun version same => ?_, sound.file⟩
    cases outcome with
    | applied other =>
        cases same
        exact phase _ rfl
    | _ => exact sound.lastApplied version same
  next =>
    cases stepped
    exact ⟨trivial, nofun, sound.file⟩
  next => cases stepped

/-! ## The convergence view -/

theorem Applied.append
    {actions : List (Action ι)} {agent : ι} {version : Nat}
    (applied : Applied regex tables managedFile name files actions agent
      version) (action : Action ι) :
    Applied regex tables managedFile name files (actions ++ [action]) agent
      version := by
  obtain ⟨before, after, system, content, rfl, rest⟩ := applied
  exact ⟨before, after ++ [action], system, content, by simp, rest⟩

variable (regex tables managedFile name files)

/-- Some agent of a node's name has done what is reported of it. -/
def Credible (actions : List (Action ι)) (node : Text)
    (report : NodeRuleStatus) : Prop :=
  ∀ version, report.appliedVersion = some version →
    ∃ agent, name agent = node ∧
      Applied regex tables managedFile name files actions agent version

/-- What the actions so far have made of the fleet. -/
structure Sound (actions : List (Action ι)) (system : System ι) : Prop where
  agents : ∀ agent, (system.agents agent).Sound regex tables
    (system.store.versions.lookup ·)
    (Applied regex tables managedFile name files actions agent)
    (files agent)
  reports : ∀ node report, (node, report) ∈ system.reports →
    Credible regex tables managedFile name files actions node report
  nodeStatus : ∀ node report, system.nodeStatus node = some report →
    Credible regex tables managedFile name files actions node report

variable {regex tables managedFile name files}

theorem Credible.append
    {actions : List (Action ι)} {node : Text} {report : NodeRuleStatus}
    (credible : Credible regex tables managedFile name files actions node
      report) (action : Action ι) :
    Credible regex tables managedFile name files (actions ++ [action]) node
      report := by
  intro version same
  obtain ⟨agent, named, applied⟩ := credible version same
  exact ⟨agent, named, applied.append action⟩

/-- An action that only publishes, or loses a report. -/
theorem Sound.append
    {actions : List (Action ι)} {system next : System ι}
    (sound : Sound regex tables managedFile name files actions system)
    (action : Action ι) (agents : next.agents = system.agents)
    (nodeStatus : next.nodeStatus = system.nodeStatus)
    (reports : ∀ report ∈ next.reports, report ∈ system.reports)
    (still : ∀ version content,
      system.store.versions.lookup version = some content →
        next.store.versions.lookup version = some content) :
    Sound regex tables managedFile name files (actions ++ [action]) next where
  agents agent := by
    rw [agents]
    exact (sound.agents agent).mono still fun version applied =>
      applied.append action
  reports node report member :=
    (sound.reports node report (reports _ member)).append action
  nodeStatus node report found :=
    (sound.nodeStatus node report (nodeStatus ▸ found)).append action

theorem Sound.record
    {actions : List (Action ι)} {system next : System ι} {index : Nat}
    (sound : Sound regex tables managedFile name files actions system)
    (recorded : system.record index = some next) :
    Sound regex tables managedFile name files
      (actions ++ [.record index]) next := by
  obtain ⟨⟨node, report⟩, found, rfl⟩ := Option.map_eq_some_iff.mp recorded
  have fewer : ∀ report ∈ system.reports.eraseIdx index,
      report ∈ system.reports :=
    fun _ member => List.mem_of_mem_eraseIdx member
  dsimp only
  split
  · exact sound.append _ rfl rfl fewer fun _ _ found => found
  · have dropped : Sound regex tables managedFile name files
        (actions ++ [.record index]) { system with
          reports := system.reports.eraseIdx index } :=
      sound.append _ rfl rfl fewer fun _ _ found => found
    refine ⟨dropped.agents, dropped.reports, fun other row there => ?_⟩
    by_cases same : other = node
    · subst same
      have row_eq : report = row := by simpa using there
      subst row_eq
      exact (sound.reports other report
        (List.mem_of_getElem? found)).append _
    · refine dropped.nodeStatus other row ?_
      simpa [Function.update_of_ne same] using there

/-- A report that an agent sends is of what it has done. -/
theorem applied_of_posted
    {published : Nat → Option Text} {applied : Nat → Prop}
    {found : Option Text} {agent : Agent} {move : Move}
    {report : NodeRuleStatus}
    (sound : agent.Sound regex tables published applied found)
    (posted : agent.posted move = some report) {version : Nat}
    (same : report.appliedVersion = some version) : applied version := by
  have phase := sound.phase
  cases move with
  | post =>
      simp only [Agent.posted] at posted
      split at posted
      next sent outcome reporting =>
        cases posted
        rw [reporting] at phase
        exact phase.1 version same
      next => cases posted
  | _ => cases posted

theorem Sound.move
    {actions : List (Action ι)} {system : System ι} {agent : ι} {move : Move}
    {next : Agent}
    (sound : Sound regex tables managedFile name files actions system)
    (reached : actions.foldlM (step regex tables managedFile name)
      (.start files) = some system)
    (stepped : (system.agents agent).step regex tables (managedFile agent)
      system.store.currentVersion move = some next) :
    Sound regex tables managedFile name files
      (actions ++ [.agent agent move]) (system.move name agent move next) := by
  have appended : Sound regex tables managedFile name files
      (actions ++ [.agent agent move]) system :=
    sound.append _ rfl rfl (fun _ member => member) fun _ _ found => found
  have done : ∀ version, (system.agents agent).phase = .reloading version →
      move = .reload none → Applied regex tables managedFile name files
        (actions ++ [.agent agent move]) agent version := by
    rintro version reloading rfl
    have phase := (sound.agents agent).phase
    rw [reloading] at phase
    obtain ⟨content, there, held⟩ := phase
    exact ⟨actions, [], system, content, rfl, reached, reloading, held, there⟩
  have own := sound_of_step (appended.agents agent)
    (fun _ _ => lookup_of_currentVersion) done stepped
  refine ⟨fun other => ?_, fun node report member => ?_, appended.nodeStatus⟩
  · by_cases same : other = agent
    · subst same
      simpa [System.move] using own
    · simpa [System.move, Function.update_of_ne same] using
        appended.agents other
  · rcases List.mem_append.mp member with old | new
    · exact appended.reports node report old
    · obtain ⟨sent, posted, same⟩ := List.mem_map.mp new
      cases same
      exact fun version reported => ⟨agent, rfl, applied_of_posted
        (appended.agents agent) (Option.mem_toList.mp posted) reported⟩

theorem sound_of_run
    {actions : List (Action ι)} {system : System ι}
    (ran : actions.foldlM (Fleet.step regex tables managedFile name)
      (.start files) = some system) :
    Sound regex tables managedFile name files actions system := by
  refine holds_of_run ⟨fun _ => ⟨trivial, nofun, Or.inl rfl⟩, nofun, nofun⟩
    ?_ ran
  intro before state action next reached sound stepped
  cases action with
  | draft content =>
      obtain ⟨_, same⟩ := Option.ite_none_left_eq_some.mp stepped
      cases same
      exact sound.append _ rfl rfl (fun _ member => member)
        fun _ _ found => found
  | commit index =>
      have still := System.lookup_of_commit stepped
      obtain ⟨draft, _, rfl⟩ := Option.map_eq_some_iff.mp stepped
      exact sound.append _ rfl rfl (fun _ member => member) still
  | abort index =>
      cases stepped
      exact sound.append _ rfl rfl (fun _ member => member)
        fun _ _ found => found
  | select version =>
      obtain ⟨_, same⟩ := Option.ite_none_right_eq_some.mp stepped
      cases same
      exact sound.append _ rfl rfl (fun _ member => member)
        fun _ _ found => found
  | upsert index =>
      obtain ⟨version, _, rfl⟩ := Option.map_eq_some_iff.mp stepped
      exact sound.append _ rfl rfl (fun _ member => member)
        fun _ _ found => found
  | agent agent move =>
      obtain ⟨moved, taken, rfl⟩ := Option.map_eq_some_iff.mp stepped
      exact sound.move reached taken
  | record index => exact sound.record stepped
  | lose index =>
      cases stepped
      exact sound.append _ rfl rfl
        (fun _ member => List.mem_of_mem_eraseIdx member)
        fun _ _ found => found

/--
In every run of the fleet, a version that the convergence view shows for a
node was reloaded with success by an agent of that name while its file held
the published content; and a managed file holds what was found there, or a
published version that validates.
-/
theorem view_sound
    {actions : List (Action ι)} {system : System ι}
    (ran : actions.foldlM (Fleet.step regex tables managedFile name)
      (.start files) = some system) :
    (∀ node report version, system.nodeStatus node = some report →
      report.appliedVersion = some version →
        ∃ agent, name agent = node ∧
          Applied regex tables managedFile name files actions agent
            version) ∧
    ∀ agent, (system.agents agent).file = files agent ∨
      ∃ version content,
        system.store.versions.lookup version = some content ∧
        Validates regex tables content ∧
        (system.agents agent).file = some content := by
  have sound := sound_of_run ran
  constructor
  · intro node report version shown reported
    exact sound.nodeStatus node report shown version reported
  · exact fun agent => (sound.agents agent).file

/-- Two agents with names of their own. -/
def twoNames : Bool → Text
  | true => "eu".toList
  | false => "us".toList

/-- Their files. -/
def twoFiles : Bool → Text
  | true => "eu.conf".toList
  | false => "us.conf".toList

/-- A version is published, and an agent installs it and reports. -/
def firstRollout : List (Action Bool) :=
  [.draft firstRuleset, .commit 0, .agent true (.fetch none),
    .agent false (.fetch none), .agent true .decide,
    .agent true (.write none), .agent false .decide,
    .agent true (.reload none), .agent true .post, .record 0]

theorem view_sound_firstRollout :
    ∃ system, firstRollout.foldlM
        (Fleet.step noPatterns noEscapes twoFiles twoNames)
        (.start fun _ => none) = some system ∧
      system.nodeStatus "eu".toList = some ⟨some 1, "applied", []⟩ ∧
      ∃ agent, twoNames agent = "eu".toList ∧
        Applied noPatterns noEscapes twoFiles twoNames (fun _ => none)
          firstRollout agent 1 := by
  refine ⟨_, rfl, rfl, ?_⟩
  exact (view_sound rfl).1 "eu".toList ⟨some 1, "applied", []⟩ 1 rfl rfl

end Soundness

/-! ## What an agent remembers -/

section Convergence

variable {ι : Type u} [DecidableEq ι]
variable {regex : RegexCrate} {tables : DebugTables}
variable {managedFile name : ι → Text} {files : ι → Option Text}

/-- A node runs a version. -/
def Agent.Holds (published : Nat → Option Text) (version : Nat)
    (agent : Agent) : Prop :=
  ∃ content, published version = some content ∧ agent.Runs content

/-- What an agent remembers once the poll that is under way has ended. -/
def Phase.remembers (lastApplied : Option Nat) : Phase → Option Nat
  | .reporting _ outcome => remembered lastApplied outcome
  | .awaiting outcome => remembered lastApplied outcome
  | _ => lastApplied

/--
Except between a write and its reload, a node runs the version that its agent
remembers, or a reload has failed.
-/
def Agent.Tracks (published : Nat → Option Text) (agent : Agent) : Prop :=
  (∀ version, agent.phase ≠ .reloading version) →
    ∀ version, agent.phase.remembers agent.lastApplied = some version →
      agent.reloaded = some false ∨ agent.Holds published version

theorem Agent.Tracks.mono
    {published published' : Nat → Option Text} {agent : Agent}
    (tracks : agent.Tracks published)
    (still : ∀ version content, published version = some content →
      published' version = some content) : agent.Tracks published' := by
  intro elsewhere version same
  rcases tracks elsewhere version same with failed | ⟨content, there, runs⟩
  · exact Or.inl failed
  · exact Or.inr ⟨content, still version content there, runs⟩

theorem tracks_of_step
    {published : Nat → Option Text} {applied : Nat → Prop}
    {found : Option Text} {agent next : Agent} {move : Move}
    {managed : Text} {current : Option (Nat × Text)}
    (tracks : agent.Tracks published)
    (sound : agent.Sound regex tables published applied found)
    (stepped : agent.step regex tables managed current move = some next) :
    next.Tracks published := by
  have phase := sound.phase
  unfold Agent.step at stepped
  unfold Agent.Tracks at tracks
  split at stepped
  next fault asleep =>
    cases stepped
    rw [asleep] at tracks
    have remembers := tracks nofun
    intro _
    cases fault with
    | some error =>
        simp only [Agent.fetch, asleep]
        exact remembers
    | none =>
        cases current with
        | none =>
            simp only [Agent.fetch, asleep]
            exact remembers
        | some version => exact remembers
  next version content fetched =>
    cases stepped
    rw [fetched] at tracks
    have remembers := tracks nofun
    unfold Agent.decideOn
    intro _
    split
    · exact remembers
    · split <;> exact remembers
  next version content fault writing =>
    cases stepped
    rw [writing] at tracks
    have remembers := tracks nofun
    cases fault with
    | some error => exact fun _ => remembers
    | none => exact fun elsewhere => absurd rfl (elsewhere version)
  next version fault reloading =>
    cases stepped
    rw [reloading] at phase
    cases fault with
    | some error => exact fun _ _ _ => Or.inl rfl
    | none =>
        rintro _ other same
        obtain ⟨content, there, held⟩ := phase
        cases same
        exact Or.inr ⟨content, there, held, rfl⟩
  next report outcome reporting =>
    cases stepped
    rw [reporting] at tracks
    exact fun _ => tracks nofun
  next outcome awaiting =>
    cases stepped
    rw [awaiting] at tracks
    exact fun _ => tracks nofun
  next =>
    cases stepped
    exact fun _ _ same => nomatch same
  next => cases stepped

/-- A step is the move of one agent, or leaves all of them as they are. -/
theorem step_cases
    {system next : System ι} {action : Action ι}
    (stepped : Fleet.step regex tables managedFile name system action =
      some next) :
    (∃ agent move moved, action = .agent agent move ∧
      (system.agents agent).step regex tables (managedFile agent)
        system.store.currentVersion move = some moved ∧
      next = system.move name agent move moved) ∨
    (∀ agent move, action ≠ .agent agent move) ∧
      next.agents = system.agents ∧
      ∀ version content,
        system.store.versions.lookup version = some content →
          next.store.versions.lookup version = some content := by
  cases action with
  | draft content =>
      obtain ⟨_, same⟩ := Option.ite_none_left_eq_some.mp stepped
      cases same
      exact Or.inr ⟨nofun, rfl, fun _ _ found => found⟩
  | commit index =>
      have still := System.lookup_of_commit stepped
      obtain ⟨draft, _, rfl⟩ := Option.map_eq_some_iff.mp stepped
      exact Or.inr ⟨nofun, rfl, still⟩
  | abort index =>
      cases stepped
      exact Or.inr ⟨nofun, rfl, fun _ _ found => found⟩
  | select version =>
      obtain ⟨_, same⟩ := Option.ite_none_right_eq_some.mp stepped
      cases same
      exact Or.inr ⟨nofun, rfl, fun _ _ found => found⟩
  | upsert index =>
      obtain ⟨version, _, rfl⟩ := Option.map_eq_some_iff.mp stepped
      exact Or.inr ⟨nofun, rfl, fun _ _ found => found⟩
  | agent agent move =>
      obtain ⟨moved, taken, rfl⟩ := Option.map_eq_some_iff.mp stepped
      exact Or.inl ⟨agent, move, moved, rfl, taken, rfl⟩
  | record index =>
      obtain ⟨⟨node, report⟩, _, rfl⟩ := Option.map_eq_some_iff.mp stepped
      dsimp only
      split <;> exact Or.inr ⟨nofun, rfl, fun _ _ found => found⟩
  | lose index =>
      cases stepped
      exact Or.inr ⟨nofun, rfl, fun _ _ found => found⟩

theorem tracks_of_run
    {actions : List (Action ι)} {system : System ι}
    (ran : actions.foldlM (Fleet.step regex tables managedFile name)
      (.start files) = some system) (agent : ι) :
    (system.agents agent).Tracks (system.store.versions.lookup ·) := by
  refine @holds_of_run _ _ _ (fun _ system => ∀ agent,
    (system.agents agent).Tracks (system.store.versions.lookup ·)) _ ?_ ?_ _
    _ ran agent
  · exact fun _ _ _ same => nomatch same
  · intro before state action next reached tracks stepped other
    have sound := sound_of_run reached
    rcases step_cases stepped with
      ⟨mover, move, moved, rfl, taken, rfl⟩ | ⟨_, same, still⟩
    · have own := tracks_of_step (tracks mover) (sound.agents mover) taken
      by_cases same : other = mover
      · subst same
        simpa [System.move] using own
      · simpa [System.move, Function.update_of_ne same] using tracks other
    · rw [same]
      exact (tracks other).mono still

/-! ## While the published version stands still -/

/-- The current version is set. -/
def Action.Publishes : Action ι → Prop
  | .commit _ => True
  | .upsert _ => True
  | _ => False

/-- Nothing fails, and the agent is not started again. -/
def Move.Faultless : Move → Prop
  | .fetch fault => fault = none
  | .write fault => fault = none
  | .reload fault => fault = none
  | .restart => False
  | _ => True

theorem currentVersion_of_step
    {system next : System ι} {action : Action ι}
    (still : ¬ action.Publishes)
    (stepped : Fleet.step regex tables managedFile name system action =
      some next) :
    next.store.currentVersion = system.store.currentVersion := by
  cases action with
  | draft content =>
      obtain ⟨_, same⟩ := Option.ite_none_left_eq_some.mp stepped
      cases same
      rfl
  | commit index => exact absurd trivial still
  | abort index =>
      cases stepped
      rfl
  | select version =>
      obtain ⟨_, same⟩ := Option.ite_none_right_eq_some.mp stepped
      cases same
      rfl
  | upsert index => exact absurd trivial still
  | agent agent move =>
      obtain ⟨moved, taken, rfl⟩ := Option.map_eq_some_iff.mp stepped
      rfl
  | record index =>
      obtain ⟨⟨node, report⟩, _, rfl⟩ := Option.map_eq_some_iff.mp stepped
      dsimp only
      split <;> rfl
  | lose index =>
      cases stepped
      rfl

/-- A poll that has fetched a version is on its way to run it. -/
def Agent.Converges (version : Nat) (content : Text) (agent : Agent) :
    Phase → Prop
  | .sleeping => agent.Runs content ∧ agent.lastApplied = some version
  | .fetched fetched text => fetched = version ∧ text = content ∧
      (agent.lastApplied = some version → agent.Runs content)
  | .writing fetched text => fetched = version ∧ text = content
  | .reloading fetched => fetched = version ∧ agent.file = some content
  | .reporting _ outcome => outcome = .applied version ∧ agent.Runs content
  | .awaiting outcome => outcome = .applied version ∧ agent.Runs content
  | .dead => False

/-- A faultless move keeps an agent on its way. -/
theorem converges_of_step
    {version : Nat} {content : Text} {agent next : Agent} {move : Move}
    {managed : Text} (validates : Validates regex tables content)
    (converges : agent.Converges version content agent.phase)
    (faultless : move.Faultless)
    (stepped : agent.step regex tables managed (some (version, content))
      move = some next) :
    next.Converges version content next.phase := by
  unfold Agent.step at stepped
  split at stepped
  next fault asleep =>
    cases stepped
    cases faultless
    rw [asleep] at converges
    exact ⟨rfl, rfl, fun _ => converges.1⟩
  next fetched text phase =>
    cases stepped
    rw [phase] at converges
    obtain ⟨rfl, rfl, applied⟩ := converges
    obtain ⟨loaded, accepted⟩ := validates
    unfold Agent.decideOn
    split
    next same => exact ⟨applied same.symm, same.symm⟩
    next =>
      rw [accepted]
      exact ⟨rfl, rfl⟩
  next fetched text fault phase =>
    cases stepped
    cases faultless
    rw [phase] at converges
    obtain ⟨rfl, rfl⟩ := converges
    exact ⟨rfl, rfl⟩
  next fetched fault phase =>
    cases stepped
    cases faultless
    rw [phase] at converges
    obtain ⟨rfl, held⟩ := converges
    exact ⟨rfl, held, rfl⟩
  next report outcome phase =>
    cases stepped
    rw [phase] at converges
    exact converges
  next outcome phase =>
    cases stepped
    rw [phase] at converges
    obtain ⟨rfl, runs⟩ := converges
    exact ⟨runs, rfl⟩
  next => exact faultless.elim
  next => cases stepped

/--
An action that leaves the published version where it is, and is no fault of a
given agent.
-/
def Action.Quiet (agent : ι) (action : Action ι) : Prop :=
  ¬ action.Publishes ∧ ∀ move, action = .agent agent move → move.Faultless

/-- A quiet action is a faultless move of the agent, or does not touch it. -/
theorem agent_of_step
    {system next : System ι} {action : Action ι} {agent : ι}
    (quiet : action.Quiet agent)
    (stepped : Fleet.step regex tables managedFile name system action =
      some next) :
    (∃ move, action = .agent agent move ∧ move.Faultless ∧
      (system.agents agent).step regex tables (managedFile agent)
        system.store.currentVersion move = some (next.agents agent)) ∨
    next.agents agent = system.agents agent ∧
      ∀ move, action ≠ .agent agent move := by
  rcases step_cases stepped with
    ⟨mover, move, moved, rfl, taken, rfl⟩ | ⟨others, same, _⟩
  · by_cases own : agent = mover
    · subst own
      refine Or.inl ⟨move, rfl, quiet.2 move rfl, ?_⟩
      rw [taken]
      simp [System.move]
    · refine Or.inr ⟨Function.update_of_ne own _ _, ?_⟩
      rintro other ⟨⟩
      exact own rfl
  · exact Or.inr ⟨congrFun same agent, others agent⟩

theorem converges_of_run
    {version : Nat} {content : Text} {agent : ι} {system final : System ι}
    {more : List (Action ι)} (validates : Validates regex tables content)
    (quiet : ∀ action ∈ more, action.Quiet agent)
    (current : system.store.currentVersion = some (version, content))
    (converges : (system.agents agent).Converges version content
      (system.agents agent).phase)
    (continued : more.foldlM (Fleet.step regex tables managedFile name)
      system = some final) :
    (final.agents agent).Converges version content
      (final.agents agent).phase := by
  induction more generalizing system with
  | nil =>
      cases continued
      exact converges
  | cons action rest induction =>
      rw [List.foldlM_cons, Option.bind_eq_bind,
        Option.bind_eq_some_iff] at continued
      obtain ⟨next, stepped, continued⟩ := continued
      have first := quiet action List.mem_cons_self
      refine induction
        (fun later member => quiet later (List.mem_cons_of_mem _ member))
        ((currentVersion_of_step first.1 stepped).trans current) ?_ continued
      rcases agent_of_step first stepped with
        ⟨move, rfl, faultless, taken⟩ | ⟨same, _⟩
      · rw [current] at taken
        exact converges_of_step validates converges faultless taken
      · rw [same]
        exact converges

/-- The first fetch of a run sets an agent on its way. -/
theorem converges_of_fetch
    {version : Nat} {content : Text} {agent : ι} {system final : System ι}
    {more : List (Action ι)} (validates : Validates regex tables content)
    (quiet : ∀ action ∈ more, action.Quiet agent)
    (current : system.store.currentVersion = some (version, content))
    (asleep : (system.agents agent).phase = .sleeping)
    (known : (system.agents agent).lastApplied = some version →
      (system.agents agent).Runs content)
    (polled : .agent agent (.fetch none) ∈ more)
    (continued : more.foldlM (Fleet.step regex tables managedFile name)
      system = some final) :
    (final.agents agent).Converges version content
      (final.agents agent).phase := by
  induction more generalizing system with
  | nil => cases polled
  | cons action rest induction =>
      rw [List.foldlM_cons, Option.bind_eq_bind,
        Option.bind_eq_some_iff] at continued
      obtain ⟨next, stepped, continued⟩ := continued
      have first := quiet action List.mem_cons_self
      have later : ∀ action ∈ rest, action.Quiet agent :=
        fun action member => quiet action (List.mem_cons_of_mem _ member)
      have still := (currentVersion_of_step first.1 stepped).trans current
      rcases agent_of_step first stepped with
        ⟨move, rfl, faultless, taken⟩ | ⟨same, others⟩
      · refine converges_of_run validates later still ?_ continued
        rw [current] at taken
        unfold Agent.step at taken
        rw [asleep] at taken
        cases move with
        | fetch fault =>
            cases faultless
            rw [← Option.some.inj taken]
            exact ⟨rfl, rfl, known⟩
        | restart => exact faultless.elim
        | _ => cases taken
      · have rests : .agent agent (.fetch none) ∈ rest := by
          rcases List.mem_cons.mp polled with now | later
          · exact absurd now.symm (others _)
          · exact later
        rw [← same] at asleep known
        exact induction later still asleep known rests continued

/--
While a version that validates stays the published one, every agent that
fetches without a fault from then on and has ended its poll runs that version
and remembers it, whatever the other agents do.  The exception is an agent
that remembers the version already and has failed to reload since.
-/
theorem fleet_converges
    {actions more : List (Action ι)} {system final : System ι}
    {version : Nat} {content : Text} {agent : ι}
    (ran : actions.foldlM (Fleet.step regex tables managedFile name)
      (.start files) = some system)
    (current : system.store.currentVersion = some (version, content))
    (validates : Validates regex tables content)
    (asleep : (system.agents agent).phase = .sleeping)
    (unfailed : (system.agents agent).lastApplied = some version →
      (system.agents agent).reloaded ≠ some false)
    (continued : more.foldlM (Fleet.step regex tables managedFile name)
      system = some final)
    (quiet : ∀ action ∈ more, action.Quiet agent)
    (polled : .agent agent (.fetch none) ∈ more)
    (ended : (final.agents agent).phase = .sleeping) :
    (final.agents agent).Runs content ∧
      (final.agents agent).lastApplied = some version := by
  have known : (system.agents agent).lastApplied = some version →
      (system.agents agent).Runs content := by
    intro remembered
    have tracks := tracks_of_run ran agent
    unfold Agent.Tracks at tracks
    rw [asleep] at tracks
    rcases tracks nofun version remembered with failed | ⟨held, there, runs⟩
    · exact absurd failed (unfailed remembered)
    · cases there.symm.trans (lookup_of_currentVersion current)
      exact runs
  have converges := converges_of_fetch validates quiet current asleep known
    polled continued
  rw [ended] at converges
  exact converges

/-- The other agent goes on and ends its poll; the first one polls again. -/
def secondRollout : List (Action Bool) :=
  [.agent false (.fetch none), .agent true .restart, .agent false .decide,
    .agent true (.fetch (some "timeout".toList)), .agent false (.write none),
    .agent false (.reload none), .agent false .post, .agent false .answer]

/-- The fleet with a first version and no polls. -/
def firstPublished : System Bool where
  store := ⟨[(1, firstRuleset)], 2, some 1⟩
  drafts := []
  rollbacks := []
  agents _ := .found none
  reports := []
  nodeStatus _ := none

theorem fleet_converges_secondRollout :
    ∃ final, secondRollout.foldlM
        (Fleet.step noPatterns noEscapes twoFiles twoNames)
        firstPublished = some final ∧
      (final.agents false).Runs firstRuleset ∧
      (final.agents false).lastApplied = some 1 := by
  have ran : List.foldlM (Fleet.step noPatterns noEscapes twoFiles twoNames)
      (.start fun _ => none) [.draft firstRuleset, .commit 0] =
        some firstPublished := rfl
  refine ⟨_, rfl, ?_⟩
  refine fleet_converges ran rfl ⟨0, rfl⟩ rfl nofun
    (show secondRollout.foldlM _ _ = some _ from rfl) ?_ ?_ rfl
  · intro action member
    fin_cases member
    all_goals refine ⟨id, ?_⟩
    all_goals rintro move ⟨⟩
    all_goals first | rfl | trivial
  · exact List.mem_cons_self

end Convergence

end LightWaf.NodeAgent.Fleet
