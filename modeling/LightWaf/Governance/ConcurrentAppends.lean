import LightWaf.Governance.TamperEvidence
import LightWaf.Theory.StableSort

/-!
# Concurrent appends to the audit log

The statements of `append_audit`, interleaved for any number of transactions
over one table.  A transaction takes the advisory lock, reads the head of the
chain, inserts a row that continues it and commits; the lock is held until the
transaction ends, so that the head a transaction has read is still the head
when its row becomes visible.  The database keeps microseconds, which is all
of a timestamp that is hashed.
-/

namespace LightWaf.Governance

open LightWaf.Rust
open LightWaf.Theory.StableSort

/-! ## The table -/

/-- A timestamp as the database keeps it: cut off after the microseconds. -/
def OffsetDateTime.truncated (ts : OffsetDateTime) : OffsetDateTime where
  nanos := ts.micros * 1000
  inRange := by
    have bound := ts.inRange
    have small : ts.micros.natAbs = ts.nanos.natAbs / 1000 :=
      Int.natAbs_tdiv _ _
    have scale : Int.natAbs 1000 = 1000 := rfl
    rw [Int.natAbs_mul, small, scale]
    omega

/-- Truncation keeps what is hashed of a timestamp. -/
@[simp]
theorem tsMicros_truncated (ts : OffsetDateTime) :
    tsMicros ts.truncated = tsMicros ts := by
  rw [tsMicros, tsMicros, OffsetDateTime.micros,
    OffsetDateTime.truncated, Int.mul_tdiv_cancel _ (by decide)]

/-- The rows of the table in the order of their `seq`. -/
def orderedBySeq (rows : List AuditRecord) : List AuditRecord :=
  sortByKey (fun row => row.seq.toInt) rows

/-- Where a transaction of `append_audit` is. -/
inductive Phase
  | idle
  | begun (entry : NewAudit)
  | locked (entry : NewAudit)
  | read (entry : NewAudit) (seq : Int64) (prevHash : Str)
  | inserted (row : AuditRecord)

/--
The database: the committed rows, the transaction that holds the advisory
lock, and where each transaction is.
-/
structure Database (ι : Type) where
  committed : List AuditRecord
  lock : Option ι
  phase : ι → Phase

/-- The statements of the transactions. -/
inductive Statement (ι : Type)
  | begin (tx : ι) (entry : NewAudit)
  | advisoryLock (tx : ι)
  | selectLast (tx : ι)
  | insert (tx : ι) (now : OffsetDateTime)
  | commit (tx : ι)
  | rollback (tx : ι)

section Crypto

variable (crypto : Crypto) (signer : AuditSigner)

/-- The record that is computed for a link and an entry. -/
def auditRecord (seq : Int64) (prevHash : Str) (ts : OffsetDateTime)
    (entry : NewAudit) : AuditRecord :=
  let hash := computeHash crypto seq (tsMicros ts) entry.actor entry.action
    entry.target entry.details prevHash
  { seq := seq
    ts := ts
    actor := entry.actor
    action := entry.action
    target := entry.target
    details := entry.details
    prevHash := prevHash
    hash := hash
    signature := signer.signHash hash }

namespace Database

variable {ι : Type} [DecidableEq ι]

/-- The database before the first transaction. -/
def new : Database ι :=
  ⟨[], none, fun _ => .idle⟩

/-- A transaction moves on. -/
def move (db : Database ι) (tx : ι) (phase : Phase) : Database ι :=
  { db with phase := Function.update db.phase tx phase }

/-- A transaction ends and gives its lock back. -/
def finish (db : Database ι) (tx : ι) : Database ι :=
  { db.move tx .idle with
    lock := if db.lock = some tx then none else db.lock }

/--
One statement of one transaction.  A statement that cannot be executed makes
the transaction wait or roll back; a rollback can come at any point.
-/
def step (db : Database ι) : Statement ι → Option (Database ι)
  | .begin tx entry =>
      match db.phase tx with
      | .idle => some (db.move tx (.begun entry))
      | _ => none
  | .advisoryLock tx =>
      match db.phase tx, db.lock with
      | .begun entry, none =>
          some { db.move tx (.locked entry) with lock := some tx }
      | _, _ => none
  | .selectLast tx =>
      match db.phase tx, nextLink (orderedBySeq db.committed) with
      | .locked entry, some (seq, prevHash) =>
          some (db.move tx (.read entry seq prevHash))
      | _, _ => none
  | .insert tx now =>
      match db.phase tx with
      | .read entry seq prevHash =>
          let record := auditRecord crypto signer seq prevHash now entry
          if db.committed.any fun row => row.seq = seq then none
          else some (db.move tx
            (.inserted { record with ts := now.truncated }))
      | _ => none
  | .commit tx =>
      match db.phase tx with
      | .inserted row =>
          some { db.finish tx with committed := db.committed ++ [row] }
      | _ => none
  | .rollback tx =>
      match db.phase tx with
      | .idle => none
      | _ => some (db.finish tx)

/-- The database after a sequence of statements. -/
def run (statements : List (Statement ι)) : Option (Database ι) :=
  statements.foldlM (step crypto signer) new

end Database

end Crypto

/-! ## Appended logs -/

section Logged

variable {crypto : Crypto} {signer : AuditSigner} {log : List AuditRecord}

/-- A log is in the order of its `seq`. -/
theorem orderedBySeq_of_logged (logged : Logged crypto signer log) :
    orderedBySeq log = log := by
  apply List.mergeSort_of_pairwise
  apply (seq_pairwise_of_logged logged).imp
  intro first second smaller
  exact decide_eq_true smaller.le

theorem nextLink_toInt
    {seq : Int64} {prevHash : Str}
    (link : nextLink log = some (seq, prevHash)) :
    seq.toInt = ((log.getLast?.map fun last => last.seq.toInt).getD 0) + 1 := by
  rw [nextLink] at link
  cases last : log.getLast? with
  | none =>
      rw [last] at link
      cases link
      rfl
  | some record =>
      simp only [last, Option.ite_none_right_eq_some, Option.some.injEq,
        Prod.mk.injEq] at link
      have low := record.seq.le_toInt
      rw [← link.2.1, Int64.toInt_ofInt_of_le (by omega) link.1]
      rfl

/-- The `seq` of a log counts from one. -/
theorem seq_of_logged (logged : Logged crypto signer log) :
    log.map (fun row => row.seq.toInt) =
      (List.range log.length).map fun index : Nat => (index : Int) + 1 := by
  induction logged with
  | empty => rfl
  | append log ts entry record logged appended counted =>
      have next := nextLink_toInt (appendAudit_eq_some appended).1
      rw [List.map_append, counted, List.length_append,
        List.length_singleton, List.range_succ, List.map_append]
      congr 1
      rw [List.map_singleton, List.map_singleton, next]
      congr 2
      have last := congrArg List.getLast? counted
      rw [List.getLast?_map] at last
      rw [last]
      cases log with
      | nil => rfl
      | cons first rest =>
          rw [List.length_cons, List.range_succ, List.map_append,
            List.map_singleton, List.getLast?_concat]
          simp

end Logged

/-! ## Interleavings -/

/-- The phases in which a transaction holds the lock. -/
def Phase.isLocking : Phase → Bool
  | .idle => false
  | .begun _ => false
  | .locked _ => true
  | .read _ _ _ => true
  | .inserted _ => true

section Crypto

variable (crypto : Crypto) (signer : AuditSigner)

/-- What a transaction has read or written continues the committed rows. -/
def Phase.Continues (committed : List AuditRecord) : Phase → Prop
  | .read _ seq prevHash => nextLink committed = some (seq, prevHash)
  | .inserted row =>
      nextLink committed = some (row.seq, row.prevHash) ∧
        row.recomputed crypto = row.hash ∧
        row.signature = signer.signHash row.hash
  | _ => True

namespace Database

variable {ι : Type}

/-- What holds of the database between any two statements. -/
structure Invariant (db : Database ι) : Prop where
  logged : Logged crypto signer db.committed
  locked : ∀ tx, (db.phase tx).isLocking = true → db.lock = some tx
  continues : ∀ tx, (db.phase tx).Continues crypto signer db.committed

theorem invariant_new : Invariant crypto signer (new : Database ι) :=
  ⟨.empty, fun _ locking => (Bool.false_ne_true locking).elim,
    fun _ => trivial⟩

variable {crypto signer} {db : Database ι}

/-- While a transaction holds the lock, the others have read nothing. -/
theorem Invariant.continues_any
    (invariant : db.Invariant crypto signer) {tx other : ι}
    (held : db.lock = some tx) (differs : other ≠ tx)
    (committed : List AuditRecord) :
    (db.phase other).Continues crypto signer committed := by
  have waiting : (db.phase other).isLocking ≠ true := fun locking =>
    differs (Option.some.inj ((invariant.locked other locking).symm.trans
      held))
  cases phase : db.phase other with
  | idle => trivial
  | begun entry => trivial
  | locked entry => trivial
  | read entry seq prevHash =>
      rw [phase] at waiting
      exact (waiting rfl).elim
  | inserted row =>
      rw [phase] at waiting
      exact (waiting rfl).elim

variable [DecidableEq ι]

/-- A transaction moves on with what continues the committed rows. -/
theorem Invariant.move
    (invariant : db.Invariant crypto signer) {tx : ι} {phase : Phase}
    (locked : phase.isLocking = true → db.lock = some tx)
    (continues : phase.Continues crypto signer db.committed) :
    (db.move tx phase).Invariant crypto signer := by
  refine ⟨invariant.logged, fun other => ?_, fun other => ?_⟩
  · rw [Database.move]
    dsimp only
    by_cases same : other = tx
    · subst same
      rw [Function.update_self]
      exact locked
    · rw [Function.update_of_ne same]
      exact invariant.locked other
  · rw [Database.move]
    dsimp only
    by_cases same : other = tx
    · subst same
      rw [Function.update_self]
      exact continues
    · rw [Function.update_of_ne same]
      exact invariant.continues other

theorem Invariant.finish
    (invariant : db.Invariant crypto signer) (tx : ι) :
    (db.finish tx).Invariant crypto signer := by
  have moved : (db.move tx .idle).Invariant crypto signer :=
    invariant.move (fun locking => (Bool.false_ne_true locking).elim) trivial
  refine ⟨moved.logged, fun other locking => ?_, moved.continues⟩
  have held := moved.locked other locking
  have differs : other ≠ tx := by
    rintro rfl
    rw [Database.finish, Database.move] at locking
    dsimp only at locking
    rw [Function.update_self] at locking
    exact Bool.false_ne_true locking
  rw [Database.finish]
  dsimp only
  rw [if_neg]
  · exact held
  · intro holder
    exact differs (Option.some.inj (held.symm.trans holder))

/-- The lock is granted while no transaction holds it. -/
theorem Invariant.take
    (invariant : db.Invariant crypto signer) {tx : ι} (free : db.lock = none)
    (entry : NewAudit) :
    { db.move tx (.locked entry) with lock := some tx }.Invariant crypto
      signer := by
  refine ⟨invariant.logged, fun other locking => ?_, fun other => ?_⟩
  · by_cases same : other = tx
    · rw [same]
    · rw [Database.move] at locking
      dsimp only at locking
      rw [Function.update_of_ne same] at locking
      exact (Option.some_ne_none other
        ((invariant.locked other locking).symm.trans free)).elim
  · rw [Database.move]
    dsimp only
    by_cases same : other = tx
    · subst same
      rw [Function.update_self]
      trivial
    · rw [Function.update_of_ne same]
      exact invariant.continues other

/-- A row that becomes visible continues the log. -/
theorem Invariant.commit
    (invariant : db.Invariant crypto signer) {tx : ι} {row : AuditRecord}
    (inserted : db.phase tx = .inserted row) :
    { db.finish tx with
      committed := db.committed ++ [row] }.Invariant crypto signer := by
  have held : db.lock = some tx := by
    apply invariant.locked
    rw [inserted]
    rfl
  have finished := invariant.finish tx
  have written := invariant.continues tx
  rw [inserted] at written
  refine ⟨logged_concat invariant.logged written.1 written.2.1 written.2.2,
    finished.locked, fun other => ?_⟩
  rw [Database.finish, Database.move]
  dsimp only
  by_cases same : other = tx
  · subst same
    rw [Function.update_self]
    trivial
  · rw [Function.update_of_ne same]
    exact invariant.continues_any held same _

/-- Every statement keeps the invariant. -/
theorem Invariant.step
    (invariant : db.Invariant crypto signer) {statement : Statement ι}
    {next : Database ι} (taken : db.step crypto signer statement = some next) :
    next.Invariant crypto signer := by
  cases statement with
  | begin tx entry =>
      rw [Database.step] at taken
      split at taken
      · cases taken
        exact invariant.move (fun locking =>
          (Bool.false_ne_true locking).elim) trivial
      · cases taken
  | advisoryLock tx =>
      rw [Database.step] at taken
      split at taken
      · rename_i entry begun free
        cases taken
        exact invariant.take free entry
      · cases taken
  | selectLast tx =>
      rw [Database.step, orderedBySeq_of_logged invariant.logged] at taken
      split at taken
      · rename_i entry seq prevHash locked link
        cases taken
        have held := invariant.locked tx (by rw [locked]; rfl)
        exact invariant.move (fun _ => held) link
      · cases taken
  | insert tx now =>
      rw [Database.step] at taken
      split at taken
      · rename_i entry seq prevHash read
        dsimp only at taken
        split_ifs at taken
        cases taken
        have held := invariant.locked tx (by rw [read]; rfl)
        have link := invariant.continues tx
        rw [read] at link
        refine invariant.move (fun _ => held) ⟨link, ?_, rfl⟩
        rw [AuditRecord.recomputed, tsMicros_truncated]
        rfl
      · cases taken
  | commit tx =>
      rw [Database.step] at taken
      split at taken
      · rename_i row inserted
        cases taken
        exact invariant.commit inserted
      · cases taken
  | rollback tx =>
      rw [Database.step] at taken
      split at taken
      · cases taken
      · cases taken
        exact invariant.finish tx

theorem Invariant.run
    (invariant : db.Invariant crypto signer) {statements : List (Statement ι)}
    {reached : Database ι}
    (ran : statements.foldlM (Database.step crypto signer) db =
      some reached) : reached.Invariant crypto signer := by
  induction statements generalizing db with
  | nil =>
      cases ran
      exact invariant
  | cons statement statements induction =>
      rw [List.foldlM_cons, Option.bind_eq_bind,
        Option.bind_eq_some_iff] at ran
      obtain ⟨next, taken, ran⟩ := ran
      exact induction (invariant.step taken) ran

end Database

/--
After any interleaving of statements the rows are numbered from one without
gap or repetition, and their chain verifies under the key of the signer.
-/
theorem Database.verifies_of_run
    {ι : Type} [DecidableEq ι]
    (genuine : ∀ message, crypto.verify signer.publicKey.1 message
      (signer.sign message).1 = true)
    (statements : List (Statement ι)) (db : Database ι)
    (ran : Database.run crypto signer statements = some db) :
    (orderedBySeq db.committed).map (fun row => row.seq.toInt) =
        (List.range db.committed.length).map
          (fun index : Nat => (index : Int) + 1) ∧
      verifyChain crypto (orderedBySeq db.committed)
        signer.publicKeyHex.1 = .ok () := by
  have logged := ((Database.invariant_new crypto signer).run ran).logged
  rw [orderedBySeq_of_logged logged]
  exact ⟨seq_of_logged logged,
    accepted_of_logged logged fun record _ => genuine _⟩

end Crypto

/-- The library with the signatures of the sample signer. -/
def signingCrypto : Crypto where
  sha256 := (sampleCrypto []).sha256
  verify publicKey message signature :=
    publicKey = samplePublicKey.1 ∧ signature = (sampleSigner.sign message).1

/-- What `login` records. -/
def loginEntry : NewAudit :=
  ⟨login.actor, login.action, login.target, login.details⟩

/--
Two transactions begin; the second one waits for the lock of the first, reads
the row that it has committed and commits its own.
-/
def overlapping : List (Statement Bool) :=
  [.begin true loginEntry, .begin false loginEntry, .advisoryLock true,
    .selectLast true, .insert true sampleTs, .commit true,
    .advisoryLock false, .selectLast false, .insert false sampleTs,
    .commit false]

/-- The rows that they commit. -/
def overlappingRows : List AuditRecord :=
  let first := auditRecord signingCrypto sampleSigner 1 genesisPrev sampleTs
    loginEntry
  let second := auditRecord signingCrypto sampleSigner 2 first.hash sampleTs
    loginEntry
  [{ first with ts := sampleTs.truncated },
    { second with ts := sampleTs.truncated }]

/-- The statements of an append behind its `BEGIN`. -/
def appending (tx : Bool) : List (Statement Bool) :=
  [.advisoryLock tx, .selectLast tx, .insert tx sampleTs, .commit tx]

/-- A transaction that has begun appends its row once the lock is free. -/
theorem foldlM_appending
    {db : Database Bool} {tx : Bool} {entry : NewAudit} {seq : Int64}
    {prevHash : Str} (begun : db.phase tx = .begun entry)
    (free : db.lock = none)
    (link : nextLink (orderedBySeq db.committed) = some (seq, prevHash))
    (unused : ∀ row ∈ db.committed, row.seq ≠ seq) :
    (appending tx).foldlM (Database.step signingCrypto sampleSigner) db =
      some ⟨db.committed ++ [{ auditRecord signingCrypto sampleSigner seq
          prevHash sampleTs entry with ts := sampleTs.truncated }], none,
        Function.update db.phase tx .idle⟩ := by
  have fresh : ¬ ∃ row ∈ db.committed, row.seq = seq := by
    rintro ⟨row, member, used⟩
    exact unused row member used
  simp [appending, Database.step, Database.move, Database.finish, begun, free,
    link, fresh]

theorem run_overlapping :
    Database.run signingCrypto sampleSigner overlapping =
      some ⟨overlappingRows, none, fun _ => .idle⟩ := by
  have split : overlapping =
      [.begin true loginEntry, .begin false loginEntry] ++
        (appending true ++ appending false) := rfl
  have began : [.begin true loginEntry, .begin false loginEntry].foldlM
      (Database.step signingCrypto sampleSigner) Database.new =
      some ⟨[], none, fun _ => .begun loginEntry⟩ := by
    simp [Database.step, Database.new, Database.move]
    funext tx
    cases tx <;> rfl
  have empty : nextLink (orderedBySeq []) = some (1, genesisPrev) := by
    simp [orderedBySeq, sortByKey, nextLink]
  have one (row : AuditRecord) (seq : row.seq = 1) :
      nextLink (orderedBySeq [row]) = some (2, row.hash) := by
    rw [orderedBySeq, sortByKey, List.mergeSort_singleton]
    simp [nextLink, seq]
  have first := @foldlM_appending ⟨[], none, fun _ => .begun loginEntry⟩
    true loginEntry 1 genesisPrev rfl rfl empty (by simp)
  rw [Database.run, split, List.foldlM_append, began, Option.bind_eq_bind,
    Option.bind_some, List.foldlM_append, first, Option.bind_eq_bind,
    Option.bind_some]
  rw [foldlM_appending rfl rfl (one _ rfl) (by simp [auditRecord])]
  congr 2
  funext tx
  cases tx <;> rfl

theorem verifies_of_overlapping :
    ∃ db, Database.run signingCrypto sampleSigner overlapping = some db ∧
      db.committed.length = 2 ∧
      verifyChain signingCrypto (orderedBySeq db.committed)
        sampleSigner.publicKeyHex.1 = .ok () := by
  have genuine : ∀ message, signingCrypto.verify sampleSigner.publicKey.1
      message (sampleSigner.sign message).1 = true := by
    intro message
    apply decide_eq_true
    exact ⟨rfl, rfl⟩
  exact ⟨_, run_overlapping, rfl, (Database.verifies_of_run signingCrypto
    sampleSigner genuine overlapping _ run_overlapping).2⟩

end LightWaf.Governance
