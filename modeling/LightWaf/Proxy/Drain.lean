import LightWaf.Theory.Machine
import LightWaf.Theory.Waiting

/-!
# Shutting the proxy down

The embedding of `run_with_shutdown` with the tasks it spawns and the
`ConnTracker` they share.  The accept loop, every connection's task and the
wait at the end are programs of atomic operations that run in any order.

A connection is counted before its task exists, and the task gives its count
back as its last act.  So the wait is over only when every task has come that
far, and it is not missed: the wait is armed before the count is read.  A task
that panics keeps its count, and one whose TLS handshake does not end is not
told to stop.  A connection that was told ends with the exchange it is in, for
which there is no limit: the client may keep the body back, or the backend its
answer.
-/

namespace LightWaf.Proxy.Drain

open LightWaf.Theory.Machine
open LightWaf.Theory.Waiting

/-! ## The connections that are counted -/

/-- `ConnTracker`. -/
structure ConnTracker where
  count : Nat := 0
  idle : Notify := {}

namespace ConnTracker

/-- `enter`. -/
def enter (conns : ConnTracker) : ConnTracker :=
  { conns with
    count := conns.count + 1 }

/-- The `fetch_sub` of `leave`. -/
def fetchSub (conns : ConnTracker) : ConnTracker :=
  { conns with
    count := conns.count - 1 }

/-- The `notify_waiters` of `leave`, for the one that found a count of one. -/
def notifyWaiters (conns : ConnTracker) : ConnTracker :=
  { conns with
    idle := conns.idle.notifyWaiters }

end ConnTracker

/-! ## The programs -/

/-- Where the task of a connection stands. -/
inductive Task
  | handshaking (drainRx : Receiver)
  | serving (drainRx : Receiver)
  /-- `graceful_shutdown` was called and the connection is awaited. -/
  | finishing
  /-- The connection is closed and `leave` is to be called. -/
  | closed
  /-- `leave` has found that it was the last one. -/
  | notifying
  | ended
  | panicked
deriving DecidableEq

/-- Where `run_with_shutdown` stands. -/
inductive Main
  | accepting
  /-- A connection was accepted and is to be counted. -/
  | entering
  | spawning
  /-- The signal has come and the listener is to be dropped. -/
  | closing
  | signalling
  /-- At the head of the loop of `wait_idle`. -/
  | arming
  | checking (armed : Notified)
  | waiting (armed : Notified)
  | finished
  /-- `accept` has failed, and with it the function. -/
  | failed
deriving DecidableEq

/-- What they share. -/
structure Server where
  main : Main
  listening : Bool
  drain : Watch Bool
  drainRx : Receiver
  conns : ConnTracker
  tasks : List Task

/-- The server at its first `accept`. -/
def Server.start : Server where
  main := .accepting
  listening := true
  drain := { value := false }
  drainRx := {}
  conns := {}
  tasks := []

/-- What a task does or has happen to it. -/
inductive Event
  /-- The handshake succeeds or fails. -/
  | handshake (succeeds : Bool)
  /-- The connection ends without having been told to. -/
  | close
  /-- `drain_rx.changed()` is ready. -/
  | changed
  /-- The exchange in flight is over behind `graceful_shutdown`. -/
  | finish
  | leave
  | notify
  | panic

/-- What happens next. -/
inductive Action
  | accept
  | acceptError
  | shutdown
  /-- The next operation of `run_with_shutdown`. -/
  | proceed
  | task (index : Nat) (event : Event)

/-- The actions that the server takes on its own, without a peer. -/
def Action.Own : Action → Prop
  | .proceed => True
  | .task _ .changed => True
  | .task _ .leave => True
  | .task _ .notify => True
  | _ => False

/-! ## The operations -/

namespace Server

/-- The task of an accepted connection, with or without TLS. -/
def spawned (server : Server) (tls : Bool) : Task :=
  if tls then .handshaking server.drainRx else .serving server.drainRx

/-- The next operation of `run_with_shutdown`; `none` while it waits. -/
def proceed (server : Server) (tls : Bool) : Option Server :=
  match server.main with
  | .accepting => none
  | .entering => some { server with
      main := .spawning
      conns := server.conns.enter }
  | .spawning => some { server with
      main := .accepting
      tasks := server.tasks ++ [server.spawned tls] }
  | .closing => some { server with
      main := .signalling
      listening := false }
  | .signalling => some { server with
      main := .arming
      drain := server.drain.send true }
  | .arming => some { server with
      main := .checking server.conns.idle.notified }
  | .checking armed =>
      if server.conns.count = 0 then some { server with
        main := .finished
        drain := server.drain.close }
      else some { server with
        main := .waiting armed }
  | .waiting armed =>
      if armed.Ready server.conns.idle then some { server with
        main := .arming }
      else none
  | .finished => none
  | .failed => none

/-- What a task becomes by an event that concerns it alone. -/
def become (drain : Watch Bool) : Task → Event → Option Task
  | .handshaking drainRx, .handshake succeeds =>
      some (if succeeds then .serving drainRx else .closed)
  | .handshaking _, .panic => some .panicked
  | .serving _, .close => some .closed
  | .serving drainRx, .changed =>
      match drainRx.changed drain with
      | none => none
      | some (.error _) => some .finishing
      | some (.ok drainRx) =>
          some (if drain.value then .finishing else .serving drainRx)
  | .serving _, .panic => some .panicked
  | .finishing, .finish => some .closed
  | .finishing, .panic => some .panicked
  | _, _ => none

/-- One operation of the task of a connection. -/
def advance (server : Server) (index : Nat) :
    Task → Event → Option Server
  | .closed, .leave => some { server with
      conns := server.conns.fetchSub
      tasks := server.tasks.set index
        (if server.conns.count = 1 then .notifying else .ended) }
  | .notifying, .notify => some { server with
      conns := server.conns.notifyWaiters
      tasks := server.tasks.set index .ended }
  | task, event =>
      (become server.drain task event).map fun next => { server with
        tasks := server.tasks.set index next }

end Server

/-- The next state of the server. -/
def step (tls : Bool) (server : Server) : Action → Option Server
  | .accept =>
      if server.main = .accepting then some { server with
        main := .entering }
      else none
  | .acceptError =>
      if server.main = .accepting then some { server with
        main := .failed
        listening := false
        drain := server.drain.close }
      else none
  | .shutdown =>
      if server.main = .accepting then some { server with
        main := .closing }
      else none
  | .proceed => server.proceed tls
  | .task index event =>
      server.tasks[index]?.bind fun task => server.advance index task event

/-! ## What a step can do -/

/-- The ways in which the server goes on. -/
inductive Steps (tls : Bool) (server : Server) : Server → Prop
  | accept (main : server.main = .accepting) :
      Steps tls server { server with
        main := .entering }
  | fail (main : server.main = .accepting) :
      Steps tls server { server with
        main := .failed
        listening := false
        drain := server.drain.close }
  | shutdown (main : server.main = .accepting) :
      Steps tls server { server with
        main := .closing }
  | enter (main : server.main = .entering) :
      Steps tls server { server with
        main := .spawning
        conns := server.conns.enter }
  | spawn (main : server.main = .spawning) :
      Steps tls server { server with
        main := .accepting
        tasks := server.tasks ++ [server.spawned tls] }
  | close (main : server.main = .closing) :
      Steps tls server { server with
        main := .signalling
        listening := false }
  | signal (main : server.main = .signalling) :
      Steps tls server { server with
        main := .arming
        drain := server.drain.send true }
  | arm (main : server.main = .arming) :
      Steps tls server { server with
        main := .checking server.conns.idle.notified }
  | finish (armed : Notified) (main : server.main = .checking armed)
      (idle : server.conns.count = 0) :
      Steps tls server { server with
        main := .finished
        drain := server.drain.close }
  | wait (armed : Notified) (main : server.main = .checking armed)
      (busy : server.conns.count ≠ 0) :
      Steps tls server { server with
        main := .waiting armed }
  | wake (armed : Notified) (main : server.main = .waiting armed)
      (ready : armed.Ready server.conns.idle) :
      Steps tls server { server with
        main := .arming }
  | become (index : Nat) (task next : Task) (event : Event)
      (found : server.tasks[index]? = some task)
      (became : Server.become server.drain task event = some next) :
      Steps tls server { server with
        tasks := server.tasks.set index next }
  | leave (index : Nat) (found : server.tasks[index]? = some .closed) :
      Steps tls server { server with
        conns := server.conns.fetchSub
        tasks := server.tasks.set index
          (if server.conns.count = 1 then .notifying else .ended) }
  | notify (index : Nat) (found : server.tasks[index]? = some .notifying) :
      Steps tls server { server with
        conns := server.conns.notifyWaiters
        tasks := server.tasks.set index .ended }

theorem steps_of_proceed
    {tls : Bool} {server next : Server}
    (proceeded : server.proceed tls = some next) :
    Steps tls server next := by
  unfold Server.proceed at proceeded
  split at proceeded
  next => cases proceeded
  next main =>
    cases proceeded
    exact .enter main
  next main =>
    cases proceeded
    exact .spawn main
  next main =>
    cases proceeded
    exact .close main
  next main =>
    cases proceeded
    exact .signal main
  next main =>
    cases proceeded
    exact .arm main
  next armed main =>
    split at proceeded
    next idle =>
      cases proceeded
      exact .finish armed main idle
    next busy =>
      cases proceeded
      exact .wait armed main busy
  next armed main =>
    split at proceeded
    next ready =>
      cases proceeded
      exact .wake armed main ready
    next => cases proceeded
  next => cases proceeded
  next => cases proceeded

theorem steps_of_advance
    {tls : Bool} {server next : Server} {index : Nat} {task : Task}
    {event : Event} (found : server.tasks[index]? = some task)
    (advanced : server.advance index task event = some next) :
    Steps tls server next := by
  unfold Server.advance at advanced
  split at advanced
  next =>
    cases advanced
    exact .leave index found
  next =>
    cases advanced
    exact .notify index found
  next =>
    obtain ⟨changed, became, rfl⟩ := Option.map_eq_some_iff.mp advanced
    exact .become index task changed event found became

theorem steps_of_step
    {tls : Bool} {server next : Server} {action : Action}
    (stepped : step tls server action = some next) :
    Steps tls server next := by
  cases action with
  | accept =>
      obtain ⟨main, same⟩ := Option.ite_none_right_eq_some.mp stepped
      cases same
      exact .accept main
  | acceptError =>
      obtain ⟨main, same⟩ := Option.ite_none_right_eq_some.mp stepped
      cases same
      exact .fail main
  | shutdown =>
      obtain ⟨main, same⟩ := Option.ite_none_right_eq_some.mp stepped
      cases same
      exact .shutdown main
  | proceed => exact steps_of_proceed stepped
  | task index event =>
      obtain ⟨task, found, advanced⟩ := Option.bind_eq_some_iff.mp stepped
      exact steps_of_advance found advanced

/-! ## What is counted -/

/-- A task counts until it has left. -/
def Task.weight : Task → Nat
  | .notifying => 0
  | .ended => 0
  | _ => 1

/-- How far a task is from its end. -/
def Task.rank : Task → Nat
  | .handshaking _ => 5
  | .serving _ => 4
  | .finishing => 3
  | .closed => 2
  | .notifying => 1
  | .ended => 0
  | .panicked => 0

/-- A connection that is counted and has no task yet. -/
def Main.entered : Main → Nat
  | .spawning => 1
  | _ => 0

/-- A task that still listens has seen no signal. -/
def Task.Unseen : Task → Prop
  | .handshaking drainRx => drainRx.seen = 0
  | .serving drainRx => drainRx.seen = 0
  | _ => True

/-- The signal was sent. -/
def Main.Signalled : Main → Prop
  | .arming => True
  | .checking _ => True
  | .waiting _ => True
  | .finished => True
  | _ => False

/-- The shutdown has begun. -/
def Main.Stopping : Main → Prop
  | .closing => True
  | .signalling => True
  | main => main.Signalled

/-! ## The signal -/

/-- Whoever still listens has not seen the signal, which is sent once. -/
structure Told (server : Server) : Prop where
  unseen : ∀ task ∈ server.tasks, task.Unseen
  original : server.drainRx.seen = 0
  sent : server.drain.version = 0 ∨ server.drain.value = true
  signalled : server.main.Signalled →
    server.listening = false ∧ server.drain.version ≠ 0
  deaf : server.main = .signalling → server.listening = false

theorem changed_of_unsent
    {drain : Watch Bool} {drainRx told : Receiver}
    (seen : drainRx.seen = 0)
    (changed : drainRx.changed drain = some (.ok told)) :
    drain.version ≠ 0 := by
  intro unsent
  simp only [Receiver.changed, seen, unsent] at changed
  split at changed <;> simp_all

/--
An event that concerns a task alone brings it nearer to its end.  It keeps the
count that it has, and does not make it miss the signal.
-/
theorem progress_of_become
    {drain : Watch Bool} {task next : Task} {event : Event}
    (sent : drain.version = 0 ∨ drain.value = true) (unseen : task.Unseen)
    (became : Server.become drain task event = some next) :
    next.weight = task.weight ∧ next.Unseen ∧ next.rank < task.rank := by
  unfold Server.become at became
  split at became
  next drainRx succeeds =>
    cases became
    cases succeeds with
    | false => exact ⟨rfl, trivial, Nat.lt_of_sub_eq_succ rfl⟩
    | true => exact ⟨rfl, unseen, Nat.lt_succ_self _⟩
  next =>
    cases became
    exact ⟨rfl, trivial, Nat.succ_pos _⟩
  next =>
    cases became
    exact ⟨rfl, trivial, Nat.lt_of_sub_eq_succ rfl⟩
  next drainRx =>
    split at became
    next => cases became
    next =>
      cases became
      exact ⟨rfl, trivial, Nat.lt_succ_self _⟩
    next told changed =>
      rw [sent.resolve_left (changed_of_unsent unseen changed)] at became
      cases became
      exact ⟨rfl, trivial, Nat.lt_succ_self _⟩
  next =>
    cases became
    exact ⟨rfl, trivial, Nat.succ_pos _⟩
  next =>
    cases became
    exact ⟨rfl, trivial, Nat.lt_succ_self _⟩
  next =>
    cases became
    exact ⟨rfl, trivial, Nat.succ_pos _⟩
  next => cases became

theorem unseen_set
    {tasks : List Task} (unseen : ∀ task ∈ tasks, task.Unseen)
    (index : Nat) {next : Task} (own : next.Unseen) :
    ∀ task ∈ tasks.set index next, task.Unseen := by
  intro task member
  rcases List.mem_or_eq_of_mem_set member with old | rfl
  · exact unseen task old
  · exact own

theorem told_of_steps
    {tls : Bool} {server next : Server} (told : Told server)
    (steps : Steps tls server next) : Told next := by
  cases steps with
  | accept | shutdown | fail | enter =>
      exact ⟨told.unseen, told.original, told.sent, nofun, nofun⟩
  | spawn main =>
      refine ⟨fun task member => ?_, told.original, told.sent, nofun, nofun⟩
      rcases List.mem_append.mp member with old | new
      · exact told.unseen task old
      · rw [List.mem_singleton.mp new, Server.spawned]
        split <;> exact told.original
  | close main =>
      exact ⟨told.unseen, told.original, told.sent, nofun, fun _ => rfl⟩
  | signal main =>
      exact ⟨told.unseen, told.original, Or.inr rfl,
        fun _ => ⟨told.deaf main, Nat.succ_ne_zero _⟩, nofun⟩
  | arm main | wait _ main | wake _ main | finish _ main =>
      have signalled := told.signalled (main ▸ trivial)
      exact ⟨told.unseen, told.original, told.sent, fun _ => signalled,
        nofun⟩
  | become index task changed event found became =>
      have own := (progress_of_become told.sent
        (told.unseen task (List.mem_of_getElem? found)) became).2.1
      exact ⟨unseen_set told.unseen index own, told.original, told.sent,
        told.signalled, told.deaf⟩
  | leave index found =>
      refine ⟨unseen_set told.unseen index ?_, told.original, told.sent,
        told.signalled, told.deaf⟩
      split <;> trivial
  | notify index found =>
      exact ⟨unseen_set told.unseen index trivial, told.original, told.sent,
        told.signalled, told.deaf⟩

/-! ## The count -/

/-- The count is that of the connections that have not left. -/
structure Counted (server : Server) : Prop where
  count : server.conns.count =
    (server.tasks.map Task.weight).sum + server.main.entered
  idle : server.main = .finished → server.conns.count = 0

theorem counted_of_steps
    {tls : Bool} {server next : Server} (told : Told server)
    (counted : Counted server) (steps : Steps tls server next) :
    Counted next := by
  have count := counted.count
  cases steps with
  | accept main | shutdown main =>
      rw [main] at count
      exact ⟨count, nofun⟩
  | fail main | close main | signal main | arm main | wait _ main
  | wake _ main =>
      rw [main] at count
      exact ⟨count, nofun⟩
  | enter main =>
      rw [main] at count
      exact ⟨congrArg (· + 1) count, nofun⟩
  | spawn main =>
      rw [main] at count
      refine ⟨?_, nofun⟩
      have weight : (server.spawned tls).weight = 1 := by
        unfold Server.spawned
        split <;> rfl
      simp only [List.map_append, List.map_cons, List.map_nil,
        List.sum_append, List.sum_cons, List.sum_nil, weight]
      exact count
  | finish _ main idle =>
      rw [main] at count
      exact ⟨count, fun _ => idle⟩
  | become index task changed event found became =>
      have kept := (progress_of_become told.sent
        (told.unseen task (List.mem_of_getElem? found)) became).1
      have moved := sum_map_set Task.weight found changed
      rw [kept] at moved
      exact ⟨count.trans (congrArg (· + _) (Nat.add_right_cancel moved).symm),
        counted.idle⟩
  | leave index found =>
      have moved := sum_map_set Task.weight found
        (if server.conns.count = 1 then .notifying else .ended)
      have left : (if server.conns.count = 1 then Task.notifying
          else .ended).weight = 0 := by
        split <;> rfl
      rw [left] at moved
      refine ⟨?_, fun main => ?_⟩
      · show server.conns.count - 1 =
          ((server.tasks.set index _).map Task.weight).sum +
            server.main.entered
        simp only [Task.weight] at moved
        omega
      · show server.conns.count - 1 = 0
        rw [counted.idle main]
  | notify index found =>
      have moved := sum_map_set Task.weight found .ended
      exact ⟨count.trans (congrArg (· + _) (Nat.add_right_cancel moved).symm),
        counted.idle⟩

/-! ## The wait -/

/-- Who waits without a call is waited for, or is about to be called. -/
structure Awaited (server : Server) : Prop where
  armed : ∀ armed, server.main = .checking armed ∨
    server.main = .waiting armed → armed.ArmedBy server.conns.idle
  awaited : ∀ armed, server.main = .waiting armed →
    ¬ armed.Ready server.conns.idle →
      0 < server.conns.count ∨ .notifying ∈ server.tasks

/-- Main is at neither end of a wait. -/
theorem Awaited.of_elsewhere
    {server : Server} (checks : ∀ armed, server.main ≠ .checking armed)
    (waits : ∀ armed, server.main ≠ .waiting armed) : Awaited server where
  armed armed main := main.elim (absurd · (checks armed))
    (absurd · (waits armed))
  awaited armed main := absurd main (waits armed)

theorem mem_set_of_ne
    {tasks : List Task} {index : Nat} {task other : Task} (next : Task)
    (found : tasks[index]? = some task) (member : other ∈ tasks)
    (differs : other ≠ task) : other ∈ tasks.set index next := by
  obtain ⟨position, inside, same⟩ := List.getElem_of_mem member
  refine List.mem_of_getElem? (List.getElem?_set_ne ?_ ▸ same ▸
    List.getElem?_eq_getElem inside)
  rintro rfl
  rw [List.getElem?_eq_getElem inside, same] at found
  exact differs (Option.some.inj found)

theorem not_notifying_of_become
    {drain : Watch Bool} {task next : Task} {event : Event}
    (became : Server.become drain task event = some next) :
    .notifying ≠ task := by
  rintro rfl
  cases event <;> cases became

theorem awaited_of_steps
    {tls : Bool} {server next : Server} (awaited : Awaited server)
    (steps : Steps tls server next) : Awaited next := by
  cases steps with
  | accept | fail | shutdown | enter | spawn | close | signal | finish
  | wake => exact .of_elsewhere nofun nofun
  | arm main =>
      constructor
      · rintro armed (same | same)
        · cases same
          exact Notified.armedBy_notified _
        · cases same
      · exact nofun
  | wait armed main busy =>
      constructor
      · rintro other (same | same)
        · cases same
        · cases same
          exact awaited.armed armed (Or.inl main)
      · exact fun _ _ _ => Or.inl (Nat.pos_of_ne_zero busy)
  | become index task changed event found became =>
      refine ⟨awaited.armed, fun armed main pending => ?_⟩
      rcases awaited.awaited armed main pending with busy | announced
      · exact Or.inl busy
      · exact Or.inr (mem_set_of_ne changed found announced
          (not_notifying_of_become became))
  | leave index found =>
      refine ⟨awaited.armed, fun armed main pending => ?_⟩
      rcases awaited.awaited armed main pending with busy | announced
      · by_cases last : server.conns.count = 1
        · right
          rw [if_pos last]
          exact List.mem_of_getElem? (List.getElem?_set_self
            (List.getElem?_eq_some_iff.mp found).1)
        · left
          show 0 < server.conns.count - 1
          omega
      · exact Or.inr (mem_set_of_ne _ found announced nofun)
  | notify index found =>
      constructor
      · exact fun armed main => (awaited.armed armed main).notifyWaiters
      · exact fun armed main pending => absurd
          (awaited.armed armed (Or.inr main)).ready_notifyWaiters pending

/-! ## Every state -/

/-- What holds of every state that the server reaches. -/
structure Consistent (server : Server) : Prop where
  counted : Counted server
  awaited : Awaited server
  told : Told server

theorem consistent_of_step
    {tls : Bool} {server next : Server} {action : Action}
    (consistent : Consistent server)
    (stepped : step tls server action = some next) : Consistent next := by
  have steps := steps_of_step stepped
  exact ⟨counted_of_steps consistent.told consistent.counted steps,
    awaited_of_steps consistent.awaited steps,
    told_of_steps consistent.told steps⟩

theorem consistent_start : Consistent Server.start where
  counted := ⟨rfl, nofun⟩
  awaited := .of_elsewhere nofun nofun
  told := ⟨nofun, rfl, Or.inl rfl, nofun, nofun⟩

theorem consistent_of_run
    {tls : Bool} {server : Server} {actions : List Action}
    (ran : actions.foldlM (step tls) Server.start = some server) :
    Consistent server :=
  invariant_of_run (fun _ _ _ => consistent_of_step) consistent_start ran

/-- A task that does not count has given its count back. -/
theorem left_of_weight
    {task : Task} (weightless : task.weight = 0) :
    task = .notifying ∨ task = .ended := by
  cases task with
  | notifying => exact Or.inl rfl
  | ended => exact Or.inr rfl
  | _ => cases weightless

/-- The wait is over only when every task has left. -/
theorem left_of_consistent
    {server : Server} (consistent : Consistent server)
    (finished : server.main = .finished) {task : Task}
    (member : task ∈ server.tasks) : task = .notifying ∨ task = .ended := by
  have count := consistent.counted.count
  rw [consistent.counted.idle finished] at count
  have weight := weight_le_sum_map Task.weight member
  exact left_of_weight (by omega)

/--
When `run_with_shutdown` returns without an error the listener is closed and
every connection that was ever accepted has been closed and has left.
-/
theorem left_of_finished
    {tls : Bool} {server : Server} {actions : List Action}
    (ran : actions.foldlM (step tls) Server.start = some server)
    (finished : server.main = .finished) :
    server.listening = false ∧
      ∀ task ∈ server.tasks, task = .notifying ∨ task = .ended := by
  have consistent := consistent_of_run ran
  constructor
  · exact (consistent.told.signalled (finished ▸ trivial)).1
  · exact fun _ member => left_of_consistent consistent finished member

/-- Two connections are accepted; both are told to finish, and do. -/
def twoConnections : List Action :=
  [.accept, .proceed, .proceed, .accept, .proceed, .proceed,
    .shutdown, .proceed, .proceed, .proceed, .proceed,
    .task 1 .changed, .task 0 .changed, .task 1 .finish, .task 1 .leave,
    .task 0 .finish, .task 0 .leave, .task 0 .notify,
    .proceed, .proceed, .proceed]

/-- The server behind them. -/
def twoClosed : Server where
  main := .finished
  listening := false
  drain := ⟨true, 1, true⟩
  drainRx := ⟨0⟩
  conns := ⟨0, ⟨1⟩⟩
  tasks := [.ended, .ended]

theorem left_of_finished_twoConnections :
    twoConnections.foldlM (step false) Server.start = some twoClosed ∧
      ∀ task ∈ twoClosed.tasks, task = .notifying ∨ task = .ended := by
  have ran : twoConnections.foldlM (step false) Server.start =
      some twoClosed := rfl
  exact ⟨ran, (left_of_finished ran rfl).2⟩

/-! ## Coming to rest -/

/-- How far `run_with_shutdown` is from its end, or from a new wait. -/
def Main.rank (idle : Notify) : Main → Nat
  | .closing => 4
  | .signalling => 3
  | .arming => 2
  | .checking armed => if armed.Ready idle then 4 else 1
  | .waiting armed => if armed.Ready idle then 3 else 0
  | _ => 0

/-- A bound on the steps that are left. -/
def Server.remaining (server : Server) : Nat :=
  5 * (server.tasks.map Task.rank).sum + server.main.rank server.conns.idle

theorem Main.rank_le (main : Main) (idle : Notify) : main.rank idle ≤ 4 := by
  unfold Main.rank
  split
  all_goals try split
  all_goals decide

/-- A task that goes on outweighs whatever main makes of it. -/
theorem remaining_lt_of_task
    {server : Server} {index : Nat} {task next : Task} (idle : Notify)
    (found : server.tasks[index]? = some task)
    (smaller : next.rank < task.rank) :
    5 * ((server.tasks.set index next).map Task.rank).sum +
        server.main.rank idle < server.remaining := by
  have moved := sum_map_set Task.rank found next
  have bound := server.main.rank_le idle
  unfold Server.remaining
  omega

theorem decreases_of_steps
    {tls : Bool} {server next : Server} (told : Told server)
    (stopping : server.main.Stopping) (steps : Steps tls server next) :
    next.main.Stopping ∧ next.remaining < server.remaining := by
  cases steps with
  | accept main | fail main | shutdown main | enter main | spawn main =>
      rw [main] at stopping
      exact stopping.elim
  | close main | signal main =>
      refine ⟨trivial, Nat.add_lt_add_left ?_ _⟩
      rw [main]
      exact Nat.lt_succ_self _
  | arm main =>
      refine ⟨trivial, Nat.add_lt_add_left ?_ _⟩
      rw [main]
      simp only [Main.rank, if_neg (Notified.not_ready_notified _)]
      exact Nat.lt_succ_self _
  | finish armed main idle =>
      refine ⟨trivial, Nat.add_lt_add_left ?_ _⟩
      rw [main]
      simp only [Main.rank]
      split <;> decide
  | wait armed main busy =>
      refine ⟨trivial, Nat.add_lt_add_left ?_ _⟩
      rw [main]
      simp only [Main.rank]
      split <;> decide
  | wake armed main ready =>
      refine ⟨trivial, Nat.add_lt_add_left ?_ _⟩
      rw [main]
      simp only [Main.rank, if_pos ready]
      exact Nat.lt_succ_self _
  | become index task changed event found became =>
      have unseen := told.unseen task (List.mem_of_getElem? found)
      exact ⟨stopping, remaining_lt_of_task _ found
        (progress_of_become told.sent unseen became).2.2⟩
  | leave index found =>
      refine ⟨stopping, remaining_lt_of_task _ found ?_⟩
      split <;> decide
  | notify index found =>
      exact ⟨stopping, remaining_lt_of_task _ found (by decide)⟩

theorem length_le_remaining
    {tls : Bool} {server final : Server} {actions : List Action}
    (told : Told server) (stopping : server.main.Stopping)
    (ran : actions.foldlM (step tls) server = some final) :
    actions.length ≤ server.remaining := by
  refine @length_le_of_decreasing _ _ (step tls)
    (fun server => Told server ∧ server.main.Stopping) Server.remaining ?_
    server final actions ⟨told, stopping⟩ ran
  rintro state action next ⟨told, stopping⟩ taken
  have steps := steps_of_step taken
  obtain ⟨still, smaller⟩ := decreases_of_steps told stopping steps
  exact ⟨⟨told_of_steps told steps, still⟩, smaller⟩

theorem Task.rank_le (task : Task) : task.rank ≤ 5 := by
  cases task <;> simp [Task.rank]

theorem remaining_le (server : Server) :
    server.remaining ≤ 25 * server.tasks.length + 4 := by
  have ranks : (server.tasks.map Task.rank).sum ≤
      (server.tasks.map Task.rank).length * 5 := by
    apply List.sum_le_card_nsmul
    intro rank member
    obtain ⟨task, _, rfl⟩ := List.mem_map.mp member
    exact task.rank_le
  have main := server.main.rank_le server.conns.idle
  rw [List.length_map] at ranks
  unfold Server.remaining
  omega

/-! ## Where the server rests -/

/-- The server waits for a peer, or for nothing. -/
def Rests (tls : Bool) (server : Server) : Prop :=
  ∀ action : Action, action.Own → step tls server action = none

theorem step_task
    {tls : Bool} {server : Server} {index : Nat} {task : Task}
    (found : server.tasks[index]? = some task) (event : Event) :
    step tls server (.task index event) = server.advance index task event := by
  show server.tasks[index]?.bind _ = _
  rw [found]
  rfl

/-- Where the server rests behind the signal its tasks are of four kinds. -/
theorem stuck_of_rests
    {tls : Bool} {server : Server} (told : Told server)
    (signalled : server.main.Signalled) (rests : Rests tls server)
    {task : Task} (member : task ∈ server.tasks) :
    task = .ended ∨ task = .panicked ∨ task = .finishing ∨
      ∃ drainRx, task = .handshaking drainRx := by
  obtain ⟨index, found⟩ := List.getElem?_of_mem member
  have refuses (event : Event) (own : (Action.task index event).Own) :
      server.advance index task event = none := by
    rw [← step_task found]
    exact rests _ own
  cases task with
  | handshaking drainRx => exact Or.inr (Or.inr (Or.inr ⟨drainRx, rfl⟩))
  | serving drainRx =>
      have seen : drainRx.seen = 0 := told.unseen _ member
      have version := (told.signalled signalled).2
      have refused := refuses .changed trivial
      simp [Server.advance, Server.become, Receiver.changed, seen,
        version.symm] at refused
  | finishing => exact Or.inr (Or.inr (Or.inl rfl))
  | closed => exact nomatch refuses .leave trivial
  | notifying => exact nomatch refuses .notify trivial
  | ended => exact Or.inl rfl
  | panicked => exact Or.inr (Or.inl rfl)

theorem signalled_of_rests
    {tls : Bool} {server : Server} (stopping : server.main.Stopping)
    (rests : Rests tls server) : server.main.Signalled := by
  have stays : server.proceed tls = none := rests .proceed trivial
  unfold Server.proceed at stays
  cases main : server.main with
  | closing => simp [main] at stays
  | signalling => simp [main] at stays
  | _ => rwa [main] at stopping

theorem exists_weight
    {tasks : List Task} (positive : 0 < (tasks.map Task.weight).sum) :
    ∃ task ∈ tasks, task.weight ≠ 0 := by
  by_contra none_counts
  push Not at none_counts
  rw [List.sum_eq_zero] at positive
  · exact Nat.lt_irrefl 0 positive
  · intro weight member
    obtain ⟨task, inside, rfl⟩ := List.mem_map.mp member
    exact none_counts task inside

/-- A wait at which nothing moves is one for a task that counts. -/
theorem counts_of_rests
    {tls : Bool} {server : Server} (consistent : Consistent server)
    (signalled : server.main.Signalled) (rests : Rests tls server)
    (unfinished : server.main ≠ .finished) :
    ∃ task ∈ server.tasks, task.weight ≠ 0 := by
  have stays : server.proceed tls = none := rests .proceed trivial
  unfold Server.proceed at stays
  cases main : server.main with
  | arming => simp [main] at stays
  | checking armed =>
      simp only [main] at stays
      split at stays <;> cases stays
  | waiting armed =>
      simp only [main] at stays
      have pending : ¬ armed.Ready server.conns.idle := by
        intro ready
        rw [if_pos ready] at stays
        cases stays
      rcases consistent.awaited.awaited armed main pending with
        busy | announced
      · rw [consistent.counted.count, main] at busy
        exact exists_weight busy
      · rcases stuck_of_rests consistent.told signalled rests announced with
          other | other | other | ⟨_, other⟩ <;> cases other
  | finished => exact absurd main unfinished
  | _ =>
      rw [main] at signalled
      exact signalled.elim

/--
Once the shutdown has begun the server comes to rest, whatever its peers do.
There `run_with_shutdown` has returned if and only if no task has panicked,
none is left in its TLS handshake and none in an exchange.
-/
theorem drains
    {tls : Bool} {server : Server} {actions : List Action}
    (ran : actions.foldlM (step tls) Server.start = some server)
    (stopping : server.main.Stopping) :
    (∀ (more : List Action) final, more.foldlM (step tls) server = some final →
      more.length ≤ 25 * server.tasks.length + 4) ∧
    (Rests tls server →
      (server.main = .finished ↔
        ∀ task ∈ server.tasks, task ≠ .panicked ∧ task ≠ .finishing ∧
          ∀ drainRx, task ≠ .handshaking drainRx)) := by
  have consistent := consistent_of_run ran
  constructor
  · intro more final continued
    exact (length_le_remaining consistent.told stopping continued).trans
      (remaining_le server)
  intro rests
  constructor
  · intro finished task member
    rcases left_of_consistent consistent finished member with rfl | rfl
    · exact ⟨nofun, nofun, nofun⟩
    · exact ⟨nofun, nofun, nofun⟩
  · intro none_stuck
    by_contra unfinished
    have signalled := signalled_of_rests stopping rests
    obtain ⟨task, member, counts⟩ :=
      counts_of_rests consistent signalled rests unfinished
    obtain ⟨unpanicked, exchanged, settled⟩ := none_stuck task member
    rcases stuck_of_rests consistent.told signalled rests member with
      rfl | rfl | rfl | ⟨drainRx, rfl⟩
    · exact counts rfl
    · exact unpanicked rfl
    · exact exchanged rfl
    · exact settled drainRx rfl

/--
Three connections are accepted.  The first one ends its exchange and leaves,
the second one keeps the rest of a body back, and the third one never begins
its handshake.
-/
def stalledPeers : List Action :=
  [.accept, .proceed, .proceed, .task 0 (.handshake true),
    .accept, .proceed, .proceed, .task 1 (.handshake true),
    .accept, .proceed, .proceed, .shutdown, .proceed, .proceed,
    .task 1 .changed, .task 0 .changed, .proceed, .proceed,
    .task 0 .finish, .task 0 .leave]

/-- The server behind them. -/
def stalled : Server where
  main := .waiting ⟨0⟩
  listening := false
  drain := ⟨true, 1, false⟩
  drainRx := ⟨0⟩
  conns := ⟨2, ⟨0⟩⟩
  tasks := [.ended, .finishing, .handshaking ⟨0⟩]

/-- The server rests there and has not returned. -/
theorem drains_stalledPeers :
    stalledPeers.foldlM (step true) Server.start = some stalled ∧
      Rests true stalled ∧ stalled.main ≠ .finished := by
  have ran : stalledPeers.foldlM (step true) Server.start =
      some stalled := rfl
  have rests : Rests true stalled := by
    rintro (_ | _ | _ | _ | ⟨_ | _ | _ | index, event⟩) own
    · exact own.elim
    · exact own.elim
    · exact own.elim
    · rfl
    · cases event <;> rfl
    · cases event <;> first | rfl | exact own.elim
    · cases event <;> first | rfl | exact own.elim
    · rfl
  refine ⟨ran, rests, fun finished => ?_⟩
  have settled := ((drains ran trivial).2 rests).mp finished
  exact (settled .finishing (by decide)).2.1 rfl

end LightWaf.Proxy.Drain
