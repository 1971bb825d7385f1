import LightWaf.ThreatIntel.Feed
import LightWaf.Theory.Machine

/-!
# Fetch rounds of a cluster

The loop of `start_reputation_feed` on any number of nodes over one lock: a
node calls `run_cycle`, sleeps for the refresh interval and calls it again.
The lock keeps the rounds of two nodes apart but is given back at the end of a
round, and the next node that wakes up takes it, however recent the round was.
-/

namespace LightWaf.ThreatIntel.FeedRounds

open LightWaf.Theory.Machine

/-! ## The loop -/

/--
What the nodes of a cluster are given, with times in milliseconds.  `lockTtl`
is what the lock is asked for in the end, cut to 64 bits and above zero.  A
feed without a source is not started.
-/
structure Setting (ι : Type) where
  interval : Nat
  lockTtl : Nat
  sources : ι → Nat
  refreshes : 0 < interval
  expires : 0 < lockTtl
  configured : ∀ node, 0 < sources node

/-- Where a node is in its loop. -/
inductive Phase
  | asleep (wakeAt : Nat)
  | leading (began left : Nat)
  | published (began : Nat)
deriving DecidableEq

/-- When the round of a node began, if it is in one. -/
def Phase.round : Phase → Option Nat
  | .asleep _ => none
  | .leading began _ => some began
  | .published began => some began

/-- The fetch of a source: by whom, in which round, and when. -/
structure Fetch (ι : Type) where
  node : ι
  began : Nat
  time : Nat
deriving DecidableEq

/--
The cluster: the time, the holder of the lock with the expiry, where the nodes
are, and the fetches so far.
-/
structure Cluster (ι : Type) where
  now : Nat
  lock : Option (ι × Nat)
  phase : ι → Phase
  fetches : List (Fetch ι)

/-- The operations of the nodes, and the passing of time. -/
inductive Action (ι : Type)
  | acquire (node : ι)
  | fetch (node : ι)
  | applySnapshot (node : ι)
  | release (node : ι)
  | tick (duration : Nat)

section Loop

variable {ι : Type} (setting : Setting ι)

/-- `SET NX PX` is refused while the lock has not expired. -/
def Cluster.locked (cluster : Cluster ι) : Bool :=
  match cluster.lock with
  | some (_, expiry) => cluster.now < expiry
  | none => false

/-- The lock changes hands. -/
def Cluster.setLock (cluster : Cluster ι) (lock : Option (ι × Nat)) :
    Cluster ι :=
  { cluster with lock := lock }

/-- A node moves on. -/
def Cluster.move [DecidableEq ι] (cluster : Cluster ι) (node : ι) (phase : Phase) :
    Cluster ι :=
  { cluster with phase := Function.update cluster.phase node phase }

/-- A node fetches a source. -/
def Cluster.fetched (cluster : Cluster ι) (node : ι) (began : Nat) :
    Cluster ι :=
  { cluster with
    fetches := ⟨node, began, cluster.now⟩ :: cluster.fetches }

section Phases

@[simp]
theorem Cluster.phase_setLock
    (cluster : Cluster ι) (lock : Option (ι × Nat)) :
    (cluster.setLock lock).phase = cluster.phase :=
  rfl

variable [DecidableEq ι]

@[simp]
theorem Cluster.phase_move_self
    (cluster : Cluster ι) (node : ι) (phase : Phase) :
    (cluster.move node phase).phase node = phase := by
  rw [Cluster.move]
  exact Function.update_self node phase cluster.phase

theorem Cluster.phase_move_of_ne
    {cluster : Cluster ι} {node other : ι} {phase : Phase}
    (differ : other ≠ node) :
    (cluster.move node phase).phase other = cluster.phase other := by
  rw [Cluster.move]
  exact Function.update_of_ne differ phase cluster.phase

end Phases

/-- A round ends before the lock expires and within the refresh interval. -/
def Cluster.brief (cluster : Cluster ι) (now : Nat) : Bool :=
  match cluster.lock with
  | some (holder, expiry) =>
      now < expiry ∧ ((cluster.phase holder).round.all fun began =>
        now < began + setting.interval)
  | none => true

/--
One operation of one node, or the passing of time.  The first source is
fetched as soon as the lock is acquired.
-/
def step [DecidableEq ι] (cluster : Cluster ι) : Action ι → Option (Cluster ι)
  | .acquire node =>
      match cluster.phase node with
      | .asleep wakeAt =>
          if wakeAt ≤ cluster.now then
            if cluster.locked then
              some (cluster.move node (.asleep
                (cluster.now + setting.interval)))
            else
              some (((cluster.fetched node cluster.now).move node
                (.leading cluster.now (setting.sources node - 1))).setLock
                  (some (node, cluster.now + setting.lockTtl)))
          else none
      | _ => none
  | .fetch node =>
      match cluster.phase node with
      | .leading began (left + 1) =>
          some ((cluster.fetched node began).move node (.leading began left))
      | _ => none
  | .applySnapshot node =>
      match cluster.phase node with
      | .leading began 0 => some (cluster.move node (.published began))
      | _ => none
  | .release node =>
      match cluster.phase node with
      | .published _ =>
          some ((cluster.move node
            (.asleep (cluster.now + setting.interval))).setLock
              (cluster.lock.filter fun held => held.1 ≠ node))
      | _ => none
  | .tick duration =>
      if cluster.brief setting (cluster.now + duration) then
        some { cluster with now := cluster.now + duration }
      else none

/-- The cluster before the first round, with the start offsets of its nodes. -/
def Cluster.start (offset : ι → Nat) : Cluster ι :=
  ⟨0, none, fun node => .asleep (offset node), []⟩

/-! ## The properties -/

/-- In every interval of some length at most one round fetches sources. -/
def OneRound (interval : Nat) (fetches : List (Fetch ι)) : Prop :=
  ∀ start, ∀ first ∈ fetches, ∀ second ∈ fetches,
    start ≤ first.time → first.time < start + interval →
    start ≤ second.time → second.time < start + interval →
    first.node = second.node ∧ first.began = second.began

/--
A node that wakes up less than an interval after another node fetched wakes up
before the round of that node has ended.
-/
def Overlaps (interval : Nat) (cluster : Cluster ι) : Action ι → Prop
  | .acquire node => ∀ fetch ∈ cluster.fetches, fetch.node ≠ node →
      cluster.now < fetch.time + interval →
      (cluster.phase fetch.node).round = some fetch.began
  | _ => True

instance [DecidableEq ι] (interval : Nat) (cluster : Cluster ι) :
    (action : Action ι) → Decidable (Overlaps interval cluster action)
  | .acquire node => inferInstanceAs (Decidable (∀ fetch ∈ cluster.fetches,
      fetch.node ≠ node → cluster.now < fetch.time + interval →
        (cluster.phase fetch.node).round = some fetch.began))
  | .fetch _ | .applySnapshot _ | .release _ | .tick _ => isTrue trivial

/-! ## What a step does -/

/-- The steps, with what they need and what they change. -/
inductive Step [DecidableEq ι] (cluster : Cluster ι) : Action ι → Cluster ι → Prop
  | follow {node : ι} {wakeAt : Nat}
      (asleep : cluster.phase node = .asleep wakeAt)
      (awake : wakeAt ≤ cluster.now) (locked : cluster.locked = true) :
      Step cluster (.acquire node)
        (cluster.move node (.asleep (cluster.now + setting.interval)))
  | lead {node : ι} {wakeAt : Nat}
      (asleep : cluster.phase node = .asleep wakeAt)
      (awake : wakeAt ≤ cluster.now) (free : cluster.locked = false) :
      Step cluster (.acquire node)
        (((cluster.fetched node cluster.now).move node
          (.leading cluster.now (setting.sources node - 1))).setLock
            (some (node, cluster.now + setting.lockTtl)))
  | fetch {node : ι} {began left : Nat}
      (leading : cluster.phase node = .leading began (left + 1)) :
      Step cluster (.fetch node)
        ((cluster.fetched node began).move node (.leading began left))
  | applySnapshot {node : ι} {began : Nat}
      (leading : cluster.phase node = .leading began 0) :
      Step cluster (.applySnapshot node)
        (cluster.move node (.published began))
  | release {node : ι} {began : Nat}
      (published : cluster.phase node = .published began) :
      Step cluster (.release node)
        ((cluster.move node
          (.asleep (cluster.now + setting.interval))).setLock
            (cluster.lock.filter fun held => held.1 ≠ node))
  | tick {duration : Nat}
      (brief : cluster.brief setting (cluster.now + duration) = true) :
      Step cluster (.tick duration)
        { cluster with now := cluster.now + duration }

theorem step_of_some
    [DecidableEq ι] {cluster next : Cluster ι} {action : Action ι}
    (taken : step setting cluster action = some next) :
    Step setting cluster action next := by
  cases action with
  | acquire node =>
      cases asleep : cluster.phase node with
      | asleep wakeAt =>
          simp only [step, asleep] at taken
          split_ifs at taken with awake locked
          · cases taken
            exact .follow asleep awake locked
          · cases taken
            exact .lead asleep awake (Bool.eq_false_iff.mpr locked)
      | leading began left => simp [step, asleep] at taken
      | published began => simp [step, asleep] at taken
  | fetch node =>
      cases leading : cluster.phase node with
      | asleep wakeAt => simp [step, leading] at taken
      | leading began left =>
          cases left with
          | zero => simp [step, leading] at taken
          | succ left =>
              simp only [step, leading] at taken
              cases taken
              exact .fetch leading
      | published began => simp [step, leading] at taken
  | applySnapshot node =>
      cases leading : cluster.phase node with
      | asleep wakeAt => simp [step, leading] at taken
      | leading began left =>
          cases left with
          | zero =>
              simp only [step, leading] at taken
              cases taken
              exact .applySnapshot leading
          | succ left => simp [step, leading] at taken
      | published began => simp [step, leading] at taken
  | release node =>
      cases published : cluster.phase node with
      | asleep wakeAt => simp [step, published] at taken
      | leading began left => simp [step, published] at taken
      | published began =>
          simp only [step, published] at taken
          cases taken
          exact .release published
  | tick duration =>
      rw [step] at taken
      split_ifs at taken with brief
      cases taken
      exact .tick brief

/-! ## The invariant -/

/-- The fetches of a node lie in its round, or an interval before it. -/
def Spaced (interval : Nat) (fetch : Fetch ι) : Phase → Prop
  | .asleep wakeAt => fetch.time + interval ≤ wakeAt
  | .leading began _ | .published began =>
      fetch.began = began ∨ fetch.time + interval ≤ began

/-- A round in progress: it is brief, and has fetched its first source. -/
structure Running (cluster : Cluster ι) (node : ι) (began : Nat) : Prop where
  round : (cluster.phase node).round = some began
  begun : began ≤ cluster.now
  brief : cluster.now < began + setting.interval
  first : ⟨node, began, began⟩ ∈ cluster.fetches

/-- The holder of the lock is the one node that is in a round. -/
structure Invariant (cluster : Cluster ι) : Prop where
  holds : ∀ node began, (cluster.phase node).round = some began →
    ∃ expiry, cluster.lock = some (node, expiry)
  alive : ∀ node expiry, cluster.lock = some (node, expiry) →
    cluster.now < expiry ∧ ∃ began, Running setting cluster node began
  past : ∀ fetch ∈ cluster.fetches, fetch.time ≤ cluster.now
  spaced : ∀ fetch ∈ cluster.fetches,
    Spaced setting.interval fetch (cluster.phase fetch.node)

variable {setting} {cluster : Cluster ι}

theorem invariant_start (offset : ι → Nat) :
    Invariant setting (Cluster.start offset) where
  holds := by simp [Cluster.start, Phase.round]
  alive := by simp [Cluster.start]
  past := by simp [Cluster.start]
  spaced := by simp [Cluster.start]

namespace Invariant

/-- A lock that is held has not expired. -/
theorem lock_of_free
    (invariant : Invariant setting cluster)
    (free : cluster.locked = false) : cluster.lock = none := by
  cases held : cluster.lock with
  | none => rfl
  | some lock =>
      have alive := (invariant.alive lock.1 lock.2 held).1
      simp [Cluster.locked, held] at free
      omega

/-- Whoever finds the lock taken finds a round in progress. -/
theorem running_of_locked
    (invariant : Invariant setting cluster)
    (locked : cluster.locked = true) :
    ∃ holder began, Running setting cluster holder began := by
  cases held : cluster.lock with
  | none => simp [Cluster.locked, held] at locked
  | some lock => exact ⟨lock.1, (invariant.alive lock.1 lock.2 held).2⟩

/-- A node in a round has one that is running. -/
theorem running_of_round
    (invariant : Invariant setting cluster) {node : ι} {began : Nat}
    (round : (cluster.phase node).round = some began) :
    Running setting cluster node began := by
  obtain ⟨expiry, held⟩ := invariant.holds node began round
  obtain ⟨-, other, running⟩ := invariant.alive node expiry held
  have same : other = began :=
    Option.some.inj (running.round.symm.trans round)
  exact same ▸ running

/-- A node in a round can fetch. -/
theorem fetched
    (invariant : Invariant setting cluster) {node : ι} {began : Nat}
    (round : (cluster.phase node).round = some began) :
    Invariant setting (cluster.fetched node began) := by
  refine ⟨invariant.holds, fun other expiry held => ?_,
    fun fetch member => ?_, fun fetch member => ?_⟩
  · obtain ⟨alive, other_began, running⟩ :=
      invariant.alive other expiry held
    exact ⟨alive, other_began, running.round, running.begun, running.brief,
      List.mem_cons_of_mem _ running.first⟩
  · rcases List.mem_cons.mp member with rfl | member
    · exact le_rfl
    · exact invariant.past fetch member
  · rcases List.mem_cons.mp member with rfl | member
    · show Spaced _ _ (cluster.phase node)
      cases phase : cluster.phase node with
      | asleep wakeAt =>
          rw [phase] at round
          cases round
      | leading other left =>
          rw [phase] at round
          cases round
          exact .inl rfl
      | published other =>
          rw [phase] at round
          cases round
          exact .inl rfl
    · exact invariant.spaced fetch member

/-- Time passes while every round stays brief. -/
theorem tick
    (invariant : Invariant setting cluster) {duration : Nat}
    (brief : cluster.brief setting (cluster.now + duration) = true) :
    Invariant setting { cluster with now := cluster.now + duration } := by
  refine ⟨invariant.holds, fun node expiry held => ?_,
    fun fetch member => ?_, invariant.spaced⟩
  · have held : cluster.lock = some (node, expiry) := held
    obtain ⟨-, began, running⟩ := invariant.alive node expiry held
    simp only [Cluster.brief, held, running.round, Option.all_some,
      decide_eq_true_eq] at brief
    exact ⟨brief.1, began, running.round,
      running.begun.trans (Nat.le_add_right _ _), brief.2, running.first⟩
  · exact (invariant.past fetch member).trans (Nat.le_add_right _ _)

variable [DecidableEq ι]

/-- A node can move inside its round, or go on sleeping. -/
theorem move
    (invariant : Invariant setting cluster) {node : ι} {phase : Phase}
    (round : phase.round = (cluster.phase node).round)
    (spaced : ∀ fetch ∈ cluster.fetches, fetch.node = node →
      Spaced setting.interval fetch phase) :
    Invariant setting (cluster.move node phase) := by
  have rounds : ∀ other, ((cluster.move node phase).phase other).round =
      (cluster.phase other).round := by
    intro other
    by_cases same : other = node
    · rw [same, Cluster.phase_move_self, round]
    · rw [Cluster.phase_move_of_ne same]
  refine ⟨fun other began inside => ?_, fun other expiry held => ?_,
    invariant.past, fun fetch member => ?_⟩
  · exact invariant.holds other began ((rounds other).symm.trans inside)
  · obtain ⟨alive, began, running⟩ := invariant.alive other expiry held
    exact ⟨alive, began, (rounds other).trans running.round, running.begun,
      running.brief, running.first⟩
  · by_cases same : fetch.node = node
    · rw [same, Cluster.phase_move_self]
      exact spaced fetch member same
    · rw [Cluster.phase_move_of_ne same]
      exact invariant.spaced fetch member

/-- A node that finds the lock free begins a round. -/
theorem lead
    (invariant : Invariant setting cluster) {node : ι} {wakeAt : Nat}
    (asleep : cluster.phase node = .asleep wakeAt)
    (awake : wakeAt ≤ cluster.now) (free : cluster.locked = false) :
    Invariant setting
      (((cluster.fetched node cluster.now).move node
        (.leading cluster.now (setting.sources node - 1))).setLock
          (some (node, cluster.now + setting.lockTtl))) := by
  have lock := invariant.lock_of_free free
  have alone : ∀ other began, (cluster.phase other).round ≠ some began := by
    intro other began round
    obtain ⟨expiry, held⟩ := invariant.holds other began round
    rw [lock] at held
    cases held
  refine ⟨fun other began inside => ?_, fun other expiry held => ?_,
    fun fetch member => ?_, fun fetch member => ?_⟩
  · by_cases same : other = node
    · subst same
      exact ⟨_, rfl⟩
    · rw [Cluster.phase_setLock, Cluster.phase_move_of_ne same] at inside
      exact absurd inside (alone other began)
  · cases held
    refine ⟨Nat.lt_add_of_pos_right setting.expires, cluster.now, ?_, le_rfl,
      Nat.lt_add_of_pos_right setting.refreshes, List.mem_cons_self⟩
    rw [Cluster.phase_setLock, Cluster.phase_move_self]
    rfl
  · rcases List.mem_cons.mp member with rfl | member
    · exact le_rfl
    · exact invariant.past fetch member
  · by_cases same : fetch.node = node
    · rw [same, Cluster.phase_setLock, Cluster.phase_move_self]
      rcases List.mem_cons.mp member with rfl | member
      · exact .inl rfl
      · have spaced := invariant.spaced fetch member
        rw [same, asleep] at spaced
        exact .inr (spaced.trans awake)
    · rw [Cluster.phase_setLock, Cluster.phase_move_of_ne same]
      rcases List.mem_cons.mp member with rfl | member
      · exact absurd rfl same
      · exact invariant.spaced fetch member

/-- A round ends and its node sleeps for an interval. -/
theorem release
    (invariant : Invariant setting cluster) {node : ι} {began : Nat}
    (published : cluster.phase node = .published began) :
    Invariant setting
      ((cluster.move node (.asleep (cluster.now + setting.interval))).setLock
        (cluster.lock.filter fun held => held.1 ≠ node)) := by
  have round : (cluster.phase node).round = some began := by
    rw [published]
    rfl
  obtain ⟨expiry, held⟩ := invariant.holds node began round
  have released : cluster.lock.filter (fun held => held.1 ≠ node) = none := by
    simp [held]
  refine ⟨fun other other_began inside => ?_, fun other expiry held => ?_,
    invariant.past, fun fetch member => ?_⟩
  · by_cases same : other = node
    · rw [same, Cluster.phase_setLock, Cluster.phase_move_self] at inside
      cases inside
    · rw [Cluster.phase_setLock, Cluster.phase_move_of_ne same] at inside
      obtain ⟨other_expiry, other_held⟩ :=
        invariant.holds other other_began inside
      rw [held] at other_held
      cases other_held
      exact absurd rfl same
  · exact absurd (released.symm.trans held) (by simp)
  · by_cases same : fetch.node = node
    · rw [same, Cluster.phase_setLock, Cluster.phase_move_self]
      have past := invariant.past fetch member
      show fetch.time + setting.interval ≤ cluster.now + setting.interval
      omega
    · rw [Cluster.phase_setLock, Cluster.phase_move_of_ne same]
      exact invariant.spaced fetch member

/-- Every step keeps the invariant. -/
theorem step
    (invariant : Invariant setting cluster) {next : Cluster ι}
    {action : Action ι} (taken : Step setting cluster action next) :
    Invariant setting next := by
  cases taken with
  | @follow node wakeAt asleep awake locked =>
      apply invariant.move
      · rw [asleep]
        rfl
      · intro fetch member same
        exact Nat.add_le_add_right (invariant.past fetch member) _
  | lead asleep awake free => exact invariant.lead asleep awake free
  | @fetch node began left leading =>
      have round : (cluster.phase node).round = some began := by
        rw [leading]
        rfl
      refine (invariant.fetched round).move round.symm ?_
      intro fetch member same
      have spaced := (invariant.fetched round).spaced fetch member
      rw [same, Cluster.fetched, leading] at spaced
      exact spaced
  | @applySnapshot node began leading =>
      apply invariant.move
      · rw [leading]
        rfl
      · intro fetch member same
        have spaced := invariant.spaced fetch member
        rw [same, leading] at spaced
        exact spaced
  | release published => exact invariant.release published
  | tick brief => exact invariant.tick brief

end Invariant

/-! ## Rounds of one interval -/

/-- A fetch that comes last is compared with those before it. -/
theorem oneRound_cons
    {interval : Nat} (positive : 0 < interval) {last : Fetch ι}
    {fetches : List (Fetch ι)}
    (past : ∀ fetch ∈ fetches, fetch.time ≤ last.time) :
    OneRound interval (last :: fetches) ↔
      OneRound interval fetches ∧
        ∀ fetch ∈ fetches, last.time < fetch.time + interval →
          fetch.node = last.node ∧ fetch.began = last.began := by
  constructor
  · intro one
    refine ⟨fun start first member second other =>
      one start first (List.mem_cons_of_mem _ member) second
        (List.mem_cons_of_mem _ other), fun fetch member close => ?_⟩
    exact one fetch.time fetch (List.mem_cons_of_mem _ member) last
      List.mem_cons_self le_rfl (Nat.lt_add_of_pos_right positive)
      (past fetch member) close
  · rintro ⟨one, close⟩ start first member second other after before
      after' before'
    rcases List.mem_cons.mp member with rfl | listed
    · rcases List.mem_cons.mp other with rfl | earlier
      · exact ⟨rfl, rfl⟩
      · obtain ⟨node, began⟩ := close second earlier (by omega)
        exact ⟨node.symm, began.symm⟩
    · rcases List.mem_cons.mp other with rfl | earlier
      · exact close first listed (by omega)
      · exact one start first listed second earlier after before after'
          before'

/-- While a round is running, the recent fetches are those of the round. -/
theorem Running.recent
    {node : ι} {began : Nat} (running : Running setting cluster node began)
    (invariant : Invariant setting cluster)
    (one : OneRound setting.interval cluster.fetches) {fetch : Fetch ι}
    (member : fetch ∈ cluster.fetches)
    (close : cluster.now < fetch.time + setting.interval) :
    fetch.node = node ∧ fetch.began = began := by
  have past := invariant.past fetch member
  have begun := running.begun
  have brief := running.brief
  have positive := setting.refreshes
  apply one (min fetch.time began) fetch member ⟨node, began, began⟩
    running.first
  · exact min_le_left _ _
  · show fetch.time < min fetch.time began + setting.interval
    omega
  · exact min_le_right _ _
  · show began < min fetch.time began + setting.interval
    omega

variable [DecidableEq ι]

/--
After a step at most one round fetches in an interval if it was so before and
nobody woke up right after a round.
-/
theorem oneRound_step
    (invariant : Invariant setting cluster) {next : Cluster ι}
    {action : Action ι} (taken : Step setting cluster action next) :
    OneRound setting.interval next.fetches ↔
      OneRound setting.interval cluster.fetches ∧
        Overlaps setting.interval cluster action := by
  cases taken with
  | @follow node wakeAt asleep awake locked =>
      refine ⟨fun one => ⟨one, fun fetch member _ close => ?_⟩, And.left⟩
      obtain ⟨holder, began, running⟩ := invariant.running_of_locked locked
      obtain ⟨same, since⟩ := running.recent invariant one member close
      rw [same, since, running.round]
  | @lead node wakeAt asleep awake free =>
      have lock := invariant.lock_of_free free
      rw [Cluster.setLock, Cluster.move, Cluster.fetched,
        oneRound_cons setting.refreshes invariant.past]
      apply and_congr_right
      intro one
      constructor
      · intro close fetch member differ recent
        exact absurd (close fetch member recent).1 differ
      · intro overlaps fetch member recent
        by_cases same : fetch.node = node
        · have spaced := invariant.spaced fetch member
          rw [same, asleep] at spaced
          exact absurd recent (Nat.not_lt.mpr (spaced.trans awake))
        · have round := overlaps fetch member same recent
          obtain ⟨expiry, held⟩ := invariant.holds _ _ round
          rw [lock] at held
          cases held
  | @fetch node began left leading =>
      have round : (cluster.phase node).round = some began := by
        rw [leading]
        rfl
      have running := invariant.running_of_round round
      rw [Cluster.move, Cluster.fetched,
        oneRound_cons setting.refreshes invariant.past]
      apply and_congr_right
      intro one
      exact ⟨fun _ => trivial, fun _ fetch member recent =>
        running.recent invariant one member recent⟩
  | applySnapshot leading => exact (and_iff_left trivial).symm
  | release published => exact (and_iff_left trivial).symm
  | tick brief => exact (and_iff_left trivial).symm

theorem oneRound_run
    {final : Cluster ι} {actions : List (Action ι)}
    (invariant : Invariant setting cluster)
    (ran : actions.foldlM (step setting) cluster = some final) :
    OneRound setting.interval final.fetches ↔
      OneRound setting.interval cluster.fetches ∧
        Throughout (step setting) (Overlaps setting.interval) cluster
          actions := by
  induction actions generalizing cluster with
  | nil =>
      cases ran
      exact (and_iff_left trivial).symm
  | cons action rest induction =>
      rw [List.foldlM_cons, Option.bind_eq_bind,
        Option.bind_eq_some_iff] at ran
      obtain ⟨next, taken, ran⟩ := ran
      have stepped := step_of_some setting taken
      rw [induction (invariant.step stepped) ran,
        oneRound_step invariant stepped, and_assoc]
      apply and_congr_right
      intro one
      constructor
      · rintro ⟨overlaps, throughout⟩
        exact throughout.cons overlaps taken
      · intro throughout
        exact ⟨throughout.1, throughout.2 next taken⟩

/--
At most one round fetches in an interval exactly when no node wakes up, within
an interval of the fetches of another, after that one has ended its round.
-/
theorem oneRound_iff_overlaps
    (setting : Setting ι) (offset : ι → Nat) (actions : List (Action ι))
    (final : Cluster ι)
    (ran : actions.foldlM (step setting) (Cluster.start offset) =
      some final) :
    OneRound setting.interval final.fetches ↔
      Throughout (step setting) (Overlaps setting.interval)
        (Cluster.start offset) actions := by
  rw [oneRound_run (invariant_start offset) ran]
  apply and_iff_right
  intro start first member
  exact absurd member List.not_mem_nil

end Loop

/-- Two nodes with one source each, and the default times. -/
def twoNodes : Setting Bool where
  interval := ({} : FeedSection).toConfig.refreshInterval / 1000000
  lockTtl := ({} : FeedSection).toConfig.lockTtl / 1000000
  sources _ := 1
  refreshes := by decide
  expires := by decide
  configured _ := Nat.one_pos

/-- Both nodes wake up at the same time, every five minutes. -/
def inStep : List (Action Bool) :=
  [.acquire true, .acquire false, .tick 2000, .applySnapshot true,
    .release true, .tick 298000, .acquire false]

theorem oneRound_inStep :
    ∃ final, inStep.foldlM (step twoNodes) (Cluster.start fun _ => 0) =
        some final ∧ final.fetches.length = 2 ∧
      OneRound twoNodes.interval final.fetches := by
  obtain ⟨final, ran, length⟩ : ∃ final,
      inStep.foldlM (step twoNodes) (Cluster.start fun _ => 0) =
        some final ∧ final.fetches.length = 2 := ⟨_, rfl, rfl⟩
  refine ⟨final, ran, length, (oneRound_iff_overlaps twoNodes (fun _ => 0)
    inStep final ran).mpr ?_⟩
  refine .cons (by decide) rfl (.cons (by decide) rfl (.cons trivial rfl
    (.cons trivial rfl (.cons trivial rfl (.cons trivial rfl
      (.cons (by decide) rfl trivial))))))

/-- The second node wakes up in the middle of the interval of the first. -/
def outOfStep : List (Action Bool) :=
  [.acquire true, .tick 2000, .applySnapshot true, .release true,
    .tick 148000, .acquire false]

theorem not_oneRound_outOfStep :
    ∃ final, outOfStep.foldlM (step twoNodes)
        (Cluster.start fun node => if node then 0 else 150000) =
        some final ∧ ¬ OneRound twoNodes.interval final.fetches := by
  refine ⟨_, rfl, fun one => ?_⟩
  have same := one 0 ⟨true, 0, 0⟩ (by decide) ⟨false, 150000, 150000⟩
    (by decide)
  revert same
  decide

end LightWaf.ThreatIntel.FeedRounds
