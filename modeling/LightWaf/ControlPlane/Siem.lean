import LightWaf.Rust.Text
import LightWaf.Theory.Watermark

/-!
# The SIEM forwarder

The embedding of `siem_forward.rs` with the queries it makes, of the writers
of the three streams, and of their interleavings.  The cursor of a destination
is the highest id it has acknowledged.  Ids of decisions and alerts come from
a sequence and are visible at commit, in any order, so a row may appear behind
the cursor; the audit log is written under a lock, so its rows appear in order.
-/

namespace LightWaf.ControlPlane.Siem

open LightWaf.Rust
open LightWaf.Theory.Watermark

/-! ## Streams -/

/-- `SiemStream`. -/
inductive SiemStream where
  | decisions
  | audit
  | alerts
deriving DecidableEq, Repr

/--
The table of a stream: the ids of its committed rows, of the rows inserted by
transactions that are still open, and the next value of its sequence.
-/
structure Table where
  committed : List Nat
  pending : List Nat
  sequence : Nat

namespace Table

/-- An empty table. -/
def new : Table := ⟨[], [], 1⟩

/-- The highest id, `0` if there is none. -/
def maxId (table : Table) : Nat :=
  table.committed.foldr max 0

/-- The id the next row gets. -/
def nextId (stream : SiemStream) (table : Table) : Nat :=
  match stream with
  | .audit => table.maxId + 1
  | _ => table.sequence

/--
A row is inserted and not yet committed.  `append_audit` holds its lock until
its transaction ends and numbers after the last committed row; a `BIGSERIAL`
column takes the next value of its sequence.
-/
def insert (stream : SiemStream) (table : Table) : Option Table :=
  match stream with
  | .audit =>
      if table.pending = [] then
        some { table with pending := [table.maxId + 1] }
      else none
  | _ =>
      some { table with
        pending := table.pending ++ [table.sequence]
        sequence := table.sequence + 1 }

/-- A transaction commits: its row becomes visible. -/
def commit (table : Table) (id : Nat) : Option Table :=
  if id ∈ table.pending then
    some { table with
      committed := table.committed ++ [id]
      pending := table.pending.erase id }
  else none

/-- A transaction is rolled back. -/
def rollback (table : Table) (id : Nat) : Table :=
  { table with pending := table.pending.erase id }

end Table

/-! ## The forwarder -/

/-- `is_success`. -/
def isSuccess (status : Nat) : Bool :=
  200 ≤ status && status < 300

/-- How far a call of `forward_stream` has come. -/
inductive Progress where
  | started (cursor : Nat)
  | fetched (batch : List Nat) (maxId : Nat)
  | acknowledged (maxId : Nat)
deriving DecidableEq

/-- A running call of `forward_stream`, of any forwarder process. -/
structure Call where
  destination : Text
  stream : SiemStream
  progress : Progress

/-- The database, the running calls and what destinations have acknowledged. -/
structure State where
  tables : SiemStream → Table
  /-- `siem_cursors`, where a missing row counts as zero. -/
  cursors : Text → SiemStream → Nat
  /-- The ids of all batches a destination has answered with success. -/
  acked : Text → SiemStream → List Nat
  calls : List Call

namespace State

/-- Nothing stored, nothing exported. -/
def new : State where
  tables _ := .new
  cursors _ _ := 0
  acked _ _ := []
  calls := []

/-- Replace the table of a stream. -/
def setTable (state : State) (stream : SiemStream) (table : Table) : State :=
  { state with tables := Function.update state.tables stream table }

/-- A call has come further. -/
def move (state : State) (index : Nat) (call : Call) : State :=
  { state with calls := state.calls.set index call }

/-- A call has returned, or its process has crashed. -/
def drop (state : State) (index : Nat) : State :=
  { state with calls := state.calls.eraseIdx index }

/-- `siem_set_cursor`. -/
def setCursor (state : State) (destination : Text) (stream : SiemStream)
    (lastId : Nat) : State :=
  { state with
    cursors := Function.update state.cursors destination
      (Function.update (state.cursors destination) stream lastId) }

/-- A destination has acknowledged a batch. -/
def acknowledge (state : State) (destination : Text) (stream : SiemStream)
    (batch : List Nat) : State :=
  { state with
    acked := Function.update state.acked destination
      (Function.update (state.acked destination) stream
        (state.acked destination stream ++ batch)) }

end State

/-- One step of a writer or of a call of `forward_stream`. -/
inductive Action where
  | insert (stream : SiemStream)
  | commit (stream : SiemStream) (id : Nat)
  | rollback (stream : SiemStream) (id : Nat)
  | getCursor (destination : Text) (stream : SiemStream)
  | fetch (index : Nat)
  | deliver (index : Nat) (status : Option Nat)
  | setCursor (index : Nat)
  | stop (index : Nat)

variable (batchSize : Nat)

/-- `fetch`: the rows after the cursor; an empty batch ends the call. -/
def fetch (state : State) (index : Nat) (call : Call) (cursor : Nat) :
    State :=
  let rows := page (state.tables call.stream).committed cursor batchSize
  match rows.getLast? with
  | none => state.drop index
  | some maxId =>
      state.move index { call with progress := .fetched rows maxId }

/-- `deliver`: the batch is acknowledged by a 2xx status only. -/
def deliver (state : State) (index : Nat) (call : Call) (batch : List Nat)
    (maxId : Nat) (status : Option Nat) : State :=
  if status.any isSuccess then
    (state.acknowledge call.destination call.stream batch).move index
      { call with progress := .acknowledged maxId }
  else state.drop index

/-- What an action does; `none` when it is not possible. -/
def step (state : State) : Action → Option State
  | .insert stream =>
      ((state.tables stream).insert stream).map (state.setTable stream)
  | .commit stream id =>
      ((state.tables stream).commit id).map (state.setTable stream)
  | .rollback stream id =>
      some (state.setTable stream ((state.tables stream).rollback id))
  | .getCursor destination stream =>
      some { state with
        calls := state.calls ++
          [⟨destination, stream,
            .started (state.cursors destination stream)⟩] }
  | .fetch index =>
      match state.calls[index]? with
      | some ⟨destination, stream, .started cursor⟩ =>
          some (fetch batchSize state index
            ⟨destination, stream, .started cursor⟩ cursor)
      | _ => none
  | .deliver index status =>
      match state.calls[index]? with
      | some ⟨destination, stream, .fetched batch maxId⟩ =>
          some (deliver state index
            ⟨destination, stream, .fetched batch maxId⟩ batch maxId status)
      | _ => none
  | .setCursor index =>
      match state.calls[index]? with
      | some ⟨destination, stream, .acknowledged maxId⟩ =>
          some ((state.setCursor destination stream maxId).drop index)
      | _ => none
  | .stop index => some (state.drop index)

/-- Every committed row up to a cursor was in an acknowledged batch. -/
def AtLeastOnce (state : State) : Prop :=
  ∀ destination stream, ∀ id ∈ (state.tables stream).committed,
    id ≤ state.cursors destination stream →
      id ∈ state.acked destination stream

/--
A batch of decisions or alerts overtakes no row that is numbered but not yet
committed.
-/
def InOrder (state : State) : Action → Prop
  | .fetch index =>
      ∀ destination stream cursor,
        state.calls[index]? = some ⟨destination, stream, .started cursor⟩ →
        stream ≠ .audit →
        ∀ maxId, (page (state.tables stream).committed cursor
            batchSize).getLast? = some maxId →
          ∀ id ∈ (state.tables stream).pending, maxId < id
  | _ => True

/-! ## What writers and calls keep -/

/-- The ids of a table, for its kind of numbering. -/
structure Numbered (stream : SiemStream) (table : Table) : Prop where
  committed : ∀ id ∈ table.committed, id < table.nextId stream
  pending : stream ≠ .audit → ∀ id ∈ table.pending, id < table.sequence
  serial : stream = .audit → table.pending.length ≤ 1
  ordered : stream = .audit →
    ∀ id ∈ table.committed, ∀ later ∈ table.pending, id < later

/-- A mark that is covered and that every later id will exceed. -/
structure Safe (stream : SiemStream) (table : Table) (done : List Nat)
    (mark : Nat) : Prop where
  covered : CaughtUp table.committed table.pending done mark
  behind : mark < table.nextId stream

/-- What is safe about a call at each of its stages. -/
def CallSafe (table : Table) (acked : List Nat) (call : Call) : Prop :=
  match call.progress with
  | .started cursor => Safe call.stream table acked cursor
  | .fetched batch maxId => Safe call.stream table (acked ++ batch) maxId
  | .acknowledged maxId => Safe call.stream table acked maxId

/-- The invariant of the whole system. -/
structure Invariant (state : State) : Prop where
  numbered : ∀ stream, Numbered stream (state.tables stream)
  cursors : ∀ destination stream,
    Safe stream (state.tables stream) (state.acked destination stream)
      (state.cursors destination stream)
  calls : ∀ call ∈ state.calls,
    CallSafe (state.tables call.stream)
      (state.acked call.destination call.stream) call

/-! ## Writers -/

theorem le_maxId {table : Table} {id : Nat} (member : id ∈ table.committed) :
    id ≤ table.maxId := by
  rw [Table.maxId]
  generalize table.committed = ids at member
  induction ids with
  | nil => exact nomatch member
  | cons head tail induction =>
      rw [List.foldr_cons]
      rcases List.mem_cons.mp member with rfl | later
      · exact le_max_left _ _
      · exact (induction later).trans (le_max_right _ _)

theorem maxId_le
    {table : Table} {bound : Nat}
    (below : ∀ id ∈ table.committed, id ≤ bound) :
    table.maxId ≤ bound := by
  rw [Table.maxId]
  generalize table.committed = ids at below
  induction ids with
  | nil => exact Nat.zero_le bound
  | cons head tail induction =>
      rw [List.foldr_cons]
      apply max_le (below head List.mem_cons_self)
      exact induction fun id member =>
        below id (List.mem_cons_of_mem head member)

section Table

variable {stream : SiemStream} {table next : Table}

/-- Inserting opens one row with the next id. -/
theorem insert_eq_some (inserted : table.insert stream = some next) :
    next.committed = table.committed ∧
      next.pending = table.pending ++ [table.nextId stream] ∧
      table.nextId stream ≤ next.nextId stream ∧
      (stream ≠ .audit → next.sequence = table.nextId stream + 1) ∧
      (stream = .audit → table.pending = []) := by
  cases stream with
  | audit =>
      rw [Table.insert, Option.ite_none_right_eq_some] at inserted
      obtain ⟨free, rfl⟩ := inserted.imp_right Option.some.inj
      simp [Table.nextId, Table.maxId, free]
  | decisions =>
      obtain rfl := Option.some.inj inserted
      simp [Table.nextId]
  | alerts =>
      obtain rfl := Option.some.inj inserted
      simp [Table.nextId]

theorem commit_eq_some
    {id : Nat} (committed : table.commit id = some next) :
    id ∈ table.pending ∧ next.committed = table.committed ++ [id] ∧
      next.pending = table.pending.erase id ∧
      next.sequence = table.sequence := by
  rw [Table.commit, Option.ite_none_right_eq_some] at committed
  obtain ⟨waiting, rfl⟩ := committed.imp_right Option.some.inj
  exact ⟨waiting, rfl, rfl, rfl⟩

theorem nextId_le_of_commit
    {id : Nat} (committed : table.commit id = some next) :
    table.nextId stream ≤ next.nextId stream := by
  obtain ⟨-, rows, -, sequence⟩ := commit_eq_some committed
  cases stream with
  | audit =>
      apply Nat.succ_le_succ
      apply maxId_le
      intro other member
      exact le_maxId (rows ▸ List.mem_append_left [id] member)
  | decisions => exact sequence.ge
  | alerts => exact sequence.ge

theorem nextId_rollback (id : Nat) :
    (table.rollback id).nextId stream = table.nextId stream := by
  cases stream <;> rfl

theorem numbered_insert
    (numbered : Numbered stream table)
    (inserted : table.insert stream = some next) :
    Numbered stream next := by
  obtain ⟨rows, pending, higher, sequence, locked⟩ := insert_eq_some inserted
  refine ⟨fun id member => ?_, fun serial id member => ?_, fun audit => ?_,
    fun audit id member later waiting => ?_⟩
  · exact (numbered.committed id (rows ▸ member)).trans_le higher
  · have nextId : table.nextId stream = table.sequence := by
      cases stream <;> first | rfl | exact absurd rfl serial
    rw [sequence serial]
    rw [pending] at member
    rcases List.mem_append.mp member with old | new
    · rw [nextId]
      exact (numbered.pending serial id old).trans (Nat.lt_succ_self _)
    · exact List.mem_singleton.mp new ▸ Nat.lt_succ_self _
  · rw [pending, locked audit]
    exact le_refl 1
  · rw [pending, locked audit] at waiting
    rw [List.mem_singleton.mp waiting]
    exact numbered.committed id (rows ▸ member)

theorem numbered_commit
    {id : Nat} (numbered : Numbered stream table)
    (committed : table.commit id = some next) :
    Numbered stream next := by
  have higher : table.nextId stream ≤ next.nextId stream :=
    nextId_le_of_commit committed
  obtain ⟨waiting, rows, pending, sequence⟩ := commit_eq_some committed
  refine ⟨fun other member => ?_, fun serial other member => ?_,
    fun audit => ?_, fun audit other member later left => ?_⟩
  · rw [rows] at member
    rcases List.mem_append.mp member with old | new
    · exact (numbered.committed other old).trans_le higher
    · rw [List.mem_singleton.mp new]
      cases stream with
      | audit =>
          have last : id ∈ next.committed := rows ▸ List.mem_append_right _
            (List.mem_singleton_self id)
          exact Nat.lt_succ_of_le (le_maxId last)
      | decisions =>
          exact (numbered.pending (by decide) id waiting).trans_eq
            sequence.symm
      | alerts =>
          exact (numbered.pending (by decide) id waiting).trans_eq
            sequence.symm
  · rw [sequence]
    exact numbered.pending serial other
      (List.mem_of_mem_erase (pending ▸ member))
  · rw [pending]
    exact (List.length_erase_le).trans (numbered.serial audit)
  · -- The one open row of the audit log is the one that was committed.
    have none_left : table.pending.erase id = [] := by
      have one := numbered.serial audit
      have shorter := List.length_erase_of_mem waiting
      exact List.length_eq_zero_iff.mp (by omega)
    rw [pending, none_left] at left
    exact nomatch left

theorem numbered_rollback
    (numbered : Numbered stream table) (id : Nat) :
    Numbered stream (table.rollback id) where
  committed other member := by
    rw [nextId_rollback]
    exact numbered.committed other member
  pending serial other member :=
    numbered.pending serial other (List.mem_of_mem_erase member)
  serial audit := List.length_erase_le.trans (numbered.serial audit)
  ordered audit other member later waiting :=
    numbered.ordered audit other member later
      (List.mem_of_mem_erase waiting)

variable {done : List Nat} {mark : Nat}

namespace Safe

theorem insert
    (safe : Safe stream table done mark)
    (inserted : table.insert stream = some next) :
    Safe stream next done mark := by
  obtain ⟨rows, pending, higher, -, -⟩ := insert_eq_some inserted
  constructor
  · rw [rows, pending]
    exact safe.covered.number safe.behind
  · exact safe.behind.trans_le higher

theorem commit
    {id : Nat} (safe : Safe stream table done mark)
    (committed : table.commit id = some next) :
    Safe stream next done mark := by
  obtain ⟨waiting, rows, pending, -⟩ := commit_eq_some committed
  constructor
  · rw [rows, pending]
    exact safe.covered.publish waiting
  · exact safe.behind.trans_le (nextId_le_of_commit committed)

theorem rollback (safe : Safe stream table done mark) (id : Nat) :
    Safe stream (table.rollback id) done mark where
  covered := safe.covered.discard id
  behind := (nextId_rollback id).symm ▸ safe.behind

theorem mono
    {more : List Nat} (safe : Safe stream table done mark)
    (subset : done ⊆ more) :
    Safe stream table more mark where
  covered := safe.covered.mono subset
  behind := safe.behind

/-- A fetched batch moves the mark, if it overtakes no open row. -/
theorem advance
    {limit last : Nat} (safe : Safe stream table done mark)
    (numbered : Numbered stream table)
    (ends : (page table.committed mark limit).getLast? = some last)
    (inOrder : stream ≠ .audit → ∀ id ∈ table.pending, last < id) :
    Safe stream table (done ++ page table.committed mark limit) last := by
  have visible : last ∈ table.committed :=
    mem_of_mem_page (List.mem_of_getLast? ends)
  constructor
  · apply safe.covered.advance ends
    by_cases audit : stream = .audit
    · exact numbered.ordered audit last visible
    · exact inOrder audit
  · exact numbered.committed last visible

end Safe

end Table

/-! ## Runs -/

section Runs

variable {state : State} {call : Call}

/-- A change of the table that keeps marks safe keeps calls safe. -/
theorem CallSafe.table
    {table next : Table} {acked : List Nat}
    (safe : CallSafe table acked call)
    (kept : ∀ {done mark}, Safe call.stream table done mark →
      Safe call.stream next done mark) :
    CallSafe next acked call := by
  rw [CallSafe.eq_def] at safe ⊢
  cases progress : call.progress <;> rw [progress] at safe <;>
    exact kept safe

theorem CallSafe.mono
    {table : Table} {acked more : List Nat}
    (safe : CallSafe table acked call) (subset : acked ⊆ more) :
    CallSafe table more call := by
  rw [CallSafe.eq_def] at safe ⊢
  cases progress : call.progress with
  | started cursor =>
      rw [progress] at safe
      exact safe.mono subset
  | fetched batch maxId =>
      rw [progress] at safe
      apply safe.mono
      intro id member
      rcases List.mem_append.mp member with old | new
      · exact List.mem_append_left batch (subset old)
      · exact List.mem_append_right more new
  | acknowledged maxId =>
      rw [progress] at safe
      exact safe.mono subset

/-- What a writer does to one table keeps the invariant. -/
theorem invariant_setTable
    {stream : SiemStream} {next : Table} (invariant : Invariant state)
    (numbered : Numbered stream next)
    (kept : ∀ {done mark}, Safe stream (state.tables stream) done mark →
      Safe stream next done mark) :
    Invariant (state.setTable stream next) := by
  have tables (other : SiemStream) :
      (state.setTable stream next).tables other =
        if other = stream then next else state.tables other :=
    Function.update_apply ..
  refine ⟨fun other => ?_, fun destination other => ?_,
    fun call member => ?_⟩
  · rw [tables]
    split
    · rename_i same
      exact same ▸ numbered
    · exact invariant.numbered other
  · have safe := invariant.cursors destination other
    rw [tables]
    split
    · rename_i same
      subst same
      exact kept safe
    · exact safe
  · have safe := invariant.calls call member
    rw [tables]
    split
    · rename_i same
      subst same
      exact safe.table kept
    · exact safe

theorem invariant_drop (invariant : Invariant state) (index : Nat) :
    Invariant (state.drop index) where
  numbered := invariant.numbered
  cursors := invariant.cursors
  calls call member := invariant.calls call (List.mem_of_mem_eraseIdx member)

theorem invariant_move
    (invariant : Invariant state) (index : Nat)
    (safe : CallSafe (state.tables call.stream)
      (state.acked call.destination call.stream) call) :
    Invariant (state.move index call) where
  numbered := invariant.numbered
  cursors := invariant.cursors
  calls other member := by
    rcases List.mem_or_eq_of_mem_set member with old | rfl
    · exact invariant.calls other old
    · exact safe

theorem acked_subset_acknowledge
    (destination : Text) (stream : SiemStream) (batch : List Nat)
    (other : Text) (otherStream : SiemStream) :
    state.acked other otherStream ⊆
      (state.acknowledge destination stream batch).acked other
        otherStream := by
  simp only [State.acknowledge, Function.update_apply]
  split
  · rename_i same
    subst same
    simp only [Function.update_apply]
    split
    · rename_i same
      subst same
      exact List.subset_append_left _ _
    · exact List.Subset.refl _
  · exact List.Subset.refl _

theorem acked_acknowledge
    (destination : Text) (stream : SiemStream) (batch : List Nat) :
    (state.acknowledge destination stream batch).acked destination stream =
      state.acked destination stream ++ batch := by
  simp [State.acknowledge]

theorem invariant_acknowledge
    (invariant : Invariant state) (destination : Text)
    (stream : SiemStream) (batch : List Nat) :
    Invariant (state.acknowledge destination stream batch) where
  numbered := invariant.numbered
  cursors other otherStream :=
    (invariant.cursors other otherStream).mono
      (acked_subset_acknowledge destination stream batch other otherStream)
  calls call member := (invariant.calls call member).mono
    (acked_subset_acknowledge destination stream batch call.destination
      call.stream)

theorem invariant_setCursor
    {destination : Text} {stream : SiemStream} {lastId : Nat}
    (invariant : Invariant state)
    (safe : Safe stream (state.tables stream)
      (state.acked destination stream) lastId) :
    Invariant (state.setCursor destination stream lastId) where
  numbered := invariant.numbered
  cursors other otherStream := by
    have old := invariant.cursors other otherStream
    simp only [State.setCursor, Function.update_apply]
    split
    · rename_i same
      subst same
      simp only [Function.update_apply]
      split
      · rename_i same
        subst same
        exact safe
      · exact old
    · exact old
  calls := invariant.calls

variable {batchSize : Nat}

/-- A new call starts from a cursor that is safe. -/
theorem invariant_getCursor
    (invariant : Invariant state) (destination : Text)
    (stream : SiemStream) :
    Invariant { state with
      calls := state.calls ++
        [⟨destination, stream,
          .started (state.cursors destination stream)⟩] } where
  numbered := invariant.numbered
  cursors := invariant.cursors
  calls call member := by
    rcases List.mem_append.mp member with old | new
    · exact invariant.calls call old
    · rw [List.mem_singleton.mp new]
      exact invariant.cursors destination stream

theorem invariant_fetch
    {index cursor : Nat} {destination : Text} {stream : SiemStream}
    (invariant : Invariant state)
    (found : state.calls[index]? =
      some ⟨destination, stream, .started cursor⟩)
    (inOrder : InOrder batchSize state (.fetch index)) :
    Invariant (fetch batchSize state index
      ⟨destination, stream, .started cursor⟩ cursor) := by
  have safe : Safe stream (state.tables stream)
      (state.acked destination stream) cursor :=
    invariant.calls _ (List.mem_of_getElem? found)
  rw [fetch]
  split
  · exact invariant_drop invariant index
  · rename_i maxId ends
    apply invariant_move invariant index
    exact safe.advance (invariant.numbered stream) ends
      fun serial => inOrder _ _ _ found serial maxId ends

theorem invariant_deliver
    {index maxId : Nat} {destination : Text} {stream : SiemStream}
    {batch : List Nat} (invariant : Invariant state)
    (found : state.calls[index]? =
      some ⟨destination, stream, .fetched batch maxId⟩)
    (status : Option Nat) :
    Invariant (deliver state index
      ⟨destination, stream, .fetched batch maxId⟩ batch maxId status) := by
  have safe : Safe stream (state.tables stream)
      (state.acked destination stream ++ batch) maxId :=
    invariant.calls _ (List.mem_of_getElem? found)
  rw [deliver]
  split
  · apply invariant_move
      (invariant_acknowledge invariant destination stream batch) index
    rw [← acked_acknowledge destination stream batch] at safe
    exact safe
  · exact invariant_drop invariant index

/-- Every step keeps the invariant, if fetches come in order. -/
theorem invariant_step
    {action : Action} {next : State} (invariant : Invariant state)
    (inOrder : InOrder batchSize state action)
    (stepped : step batchSize state action = some next) :
    Invariant next := by
  cases action with
  | insert stream =>
      rw [step, Option.map_eq_some_iff] at stepped
      obtain ⟨table, inserted, rfl⟩ := stepped
      exact invariant_setTable invariant
        (numbered_insert (invariant.numbered stream) inserted)
        fun safe => safe.insert inserted
  | commit stream id =>
      rw [step, Option.map_eq_some_iff] at stepped
      obtain ⟨table, committed, rfl⟩ := stepped
      exact invariant_setTable invariant
        (numbered_commit (invariant.numbered stream) committed)
        fun safe => safe.commit committed
  | rollback stream id =>
      obtain rfl := Option.some.inj stepped
      exact invariant_setTable invariant
        (numbered_rollback (invariant.numbered stream) id)
        fun safe => safe.rollback id
  | getCursor destination stream =>
      obtain rfl := Option.some.inj stepped
      exact invariant_getCursor invariant destination stream
  | fetch index =>
      rw [step] at stepped
      split at stepped
      · rename_i found
        obtain rfl := Option.some.inj stepped
        exact invariant_fetch invariant found inOrder
      · exact nomatch stepped
  | deliver index status =>
      rw [step] at stepped
      split at stepped
      · rename_i found
        obtain rfl := Option.some.inj stepped
        exact invariant_deliver invariant found status
      · exact nomatch stepped
  | setCursor index =>
      rw [step] at stepped
      split at stepped
      · rename_i destination stream maxId found
        obtain rfl := Option.some.inj stepped
        have safe : Safe stream (state.tables stream)
            (state.acked destination stream) maxId :=
          invariant.calls _ (List.mem_of_getElem? found)
        exact invariant_drop (invariant_setCursor invariant safe) index
      · exact nomatch stepped
  | stop index =>
      obtain rfl := Option.some.inj stepped
      exact invariant_drop invariant index

theorem invariant_new : Invariant .new where
  numbered stream :=
    ⟨(fun _ member => nomatch member), (fun _ _ member => nomatch member),
      (fun _ => Nat.zero_le 1), (fun _ _ member => nomatch member)⟩
  cursors destination stream :=
    ⟨⟨(fun _ member => nomatch member), (fun _ member => nomatch member)⟩, by
      cases stream <;> exact Nat.one_pos⟩
  calls _ member := nomatch member

/-- One step of a run, whose fetch is in order if it is one. -/
def InOrderStep (batchSize : Nat) (state next : State) : Prop :=
  ∃ action, InOrder batchSize state action ∧
    step batchSize state action = some next

/--
In every state of every run, with any interleaving of writers, calls,
failures and crashes, each committed row up to a cursor was acknowledged, if
no fetch of decisions or alerts overtakes an uncommitted row.
-/
theorem at_least_once
    (batchSize : Nat) {state : State}
    (run : Relation.ReflTransGen (InOrderStep batchSize) .new state) :
    AtLeastOnce state := by
  have invariant : Invariant state := by
    induction run with
    | refl => exact invariant_new
    | tail earlier stepped invariant =>
        obtain ⟨action, inOrder, stepped⟩ := stepped
        exact invariant_step invariant inOrder stepped
  intro destination stream id member within
  exact (invariant.cursors destination stream).covered.handled id member
    within

end Runs

/-! ## Two transactions -/

/-- The state after a list of actions. -/
def runActions (batchSize : Nat) (actions : List Action) : Option State :=
  actions.foldlM (step batchSize) .new

/-- A decision is committed, delivered and acknowledged. -/
def committedFirst : List Action :=
  [.insert .decisions, .commit .decisions 1,
    .getCursor "splunk".toList .decisions, .fetch 0, .deliver 0 (some 200),
    .setCursor 0]

theorem at_least_once_committedFirst :
    ∃ state, runActions 500 committedFirst = some state ∧
      state.cursors "splunk".toList .decisions = 1 ∧ AtLeastOnce state := by
  refine ⟨_, rfl, by decide, at_least_once 500 ?_⟩
  refine ((((((Relation.ReflTransGen.single ⟨.insert .decisions, trivial,
    rfl⟩).tail ⟨.commit .decisions 1, trivial, rfl⟩).tail
    ⟨.getCursor "splunk".toList .decisions, trivial, rfl⟩).tail
    ⟨.fetch 0, ?_, rfl⟩).tail ⟨.deliver 0 (some 200), trivial, rfl⟩).tail
    ⟨.setCursor 0, trivial, rfl⟩)
  rintro _ _ _ ⟨⟩ _ _ _ id waiting
  exact nomatch waiting

/-- The second of two decisions is committed and delivered first. -/
def committedLate : List Action :=
  [.insert .decisions, .insert .decisions, .commit .decisions 2,
    .getCursor "splunk".toList .decisions, .fetch 0, .deliver 0 (some 200),
    .setCursor 0, .commit .decisions 1]

/-- The first decision lies behind the cursor and was never delivered. -/
theorem row_lost_when_committed_late :
    ∃ state, runActions 500 committedLate = some state ∧
      1 ∈ (state.tables .decisions).committed ∧
      1 ≤ state.cursors "splunk".toList .decisions ∧
      1 ∉ state.acked "splunk".toList .decisions :=
  ⟨_, rfl, by decide, by decide, by decide⟩

end LightWaf.ControlPlane.Siem
