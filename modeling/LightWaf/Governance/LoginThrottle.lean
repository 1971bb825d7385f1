import LightWaf.Rust.HashMap
import LightWaf.Rust.Text
import LightWaf.Theory.Machine

/-!
# The login throttle

The embedding of `LoginThrottle` and of the steps of `login` that concern it,
for any number of requests for one username.  The throttle counts the failures
of a sliding window and locks a username that has too many.  A request asks
the throttle, verifies a password and records the failure in separate steps,
with the time that it read first; in between other requests do the same.  A
time outside the range of `OffsetDateTime` makes the throttle panic with its
lock held, and from then on every use of it panics.
-/

namespace LightWaf.Governance

open LightWaf.Rust
open LightWaf.Theory.Machine

/-! ## The throttle -/

/-- `Attempts`. -/
structure Attempts where
  failures : List Int := []
  lockedUntil : Option Int := none

/-- `LoginThrottle`, with times in nanoseconds. -/
structure LoginThrottle where
  maxFailures : UInt32
  window : Int
  lockout : Int
  state : HashMap Text Attempts

namespace LoginThrottle

/-- The attempts of a key. -/
def attempts (throttle : LoginThrottle) (key : Text) : Attempts :=
  (throttle.state.get key).getD {}

/-- `LoginThrottle::allowed`. -/
def allowed (throttle : LoginThrottle) (key : Text) (now : Int) : Bool :=
  match (throttle.attempts key).lockedUntil with
  | some lockedUntil => ¬ lockedUntil > now
  | none => true

/-- The failures of the window, with a new one. -/
def counted (throttle : LoginThrottle) (attempts : Attempts) (now : Int) :
    List Int :=
  (attempts.failures.filter fun time => time > now - throttle.window) ++ [now]

/--
The times of an `OffsetDateTime` in UTC: from the year -9999 to the year 9999.
-/
def inRange (time : Int) : Bool :=
  -377705116800 * 1000000000 ≤ time ∧ time < 253402300800 * 1000000000

/--
What `record_failure` makes of the attempts of a key, unless the start of the
window or the end of the lock is out of range.
-/
def fail (throttle : LoginThrottle) (attempts : Attempts) (now : Int) :
    Option Attempts :=
  if !inRange (now - throttle.window) then none
  else
    let failures := throttle.counted attempts now
    if UInt32.ofNat failures.length ≥ throttle.maxFailures then
      if inRange (now + throttle.lockout) then
        some { failures := [], lockedUntil := some (now + throttle.lockout) }
      else none
    else some { attempts with failures := failures }

/-- `LoginThrottle::record_failure`; nothing is left of it after a panic. -/
def recordFailure (throttle : LoginThrottle) (key : Text) (now : Int) :
    Option LoginThrottle :=
  (throttle.fail (throttle.attempts key) now).map fun attempts =>
    { throttle with state := throttle.state.insert key attempts }

/-- `LoginThrottle::record_success`. -/
def recordSuccess (throttle : LoginThrottle) (key : Text) : LoginThrottle :=
  { throttle with state := throttle.state.remove key }

/-- A failure locks the key or is kept. -/
theorem fail_cases
    {throttle : LoginThrottle} {attempts after : Attempts} {now : Int}
    (failed : throttle.fail attempts now = some after) :
    after = { failures := [], lockedUntil := some (now + throttle.lockout) } ∨
      ¬ UInt32.ofNat (throttle.counted attempts now).length ≥
          throttle.maxFailures ∧
        after = { attempts with failures := throttle.counted attempts now } := by
  rw [fail] at failed
  dsimp only at failed
  split_ifs at failed with outside locks inside
  · exact .inl (Option.some.inj failed).symm
  · exact .inr ⟨locks, (Option.some.inj failed).symm⟩

/-- A recorded failure changes the attempts of its key. -/
theorem recordFailure_eq_some
    {throttle next : LoginThrottle} {key : Text} {now : Int}
    (recorded : throttle.recordFailure key now = some next) :
    throttle.fail (throttle.attempts key) now = some (next.attempts key) ∧
      ∃ state, next = { throttle with state := state } := by
  rw [recordFailure, Option.map_eq_some_iff] at recorded
  obtain ⟨attempts, failed, rfl⟩ := recorded
  refine ⟨?_, _, rfl⟩
  rw [failed, LoginThrottle.attempts, HashMap.get_insert_self]
  rfl

theorem allowed_iff {throttle : LoginThrottle} {key : Text} {now : Int} :
    throttle.allowed key now = true ↔
      ∀ lockedUntil ∈ (throttle.attempts key).lockedUntil,
        lockedUntil ≤ now := by
  rw [allowed]
  cases (throttle.attempts key).lockedUntil with
  | none => simp
  | some lockedUntil => simp

/-- `LoginThrottle::new`. -/
def new (maxFailures : UInt32) (windowSecs lockoutSecs : UInt64) :
    LoginThrottle where
  maxFailures := maxFailures
  window := windowSecs.toInt64.toInt * 1000000000
  lockout := lockoutSecs.toInt64.toInt * 1000000000
  state := .empty

/-! ## Failures in order -/

/-- A time that is not before a failure that has been recorded. -/
def InOrder (throttle : LoginThrottle) (attempts : Attempts) (now : Int) :
    Prop :=
  (∀ time ∈ attempts.failures, time ≤ now) ∧
    ∀ lockedUntil ∈ attempts.lockedUntil,
      lockedUntil ≤ now + throttle.lockout

/--
No failure leaves the window by less than the slack that a verification may
have behind the time of its failure.
-/
def Spares (throttle : LoginThrottle) (slack : Int) (attempts : Attempts)
    (now : Int) : Prop :=
  ∀ time ∈ attempts.failures, time ≤ now - throttle.window →
    time + slack ≤ now - throttle.window

/--
What the attempts keep of the times of some verifications whose failures have
been recorded: all that are recent and came after the last lock.
-/
structure Covers (throttle : LoginThrottle) (slack : Int)
    (attempts : Attempts) (recorded : List Int) (clock : Int) : Prop where
  few : attempts.failures.length < throttle.maxFailures.toNat
  past : throttle.InOrder attempts clock
  recent : ∀ since, clock - throttle.window < since →
    (∀ lockedUntil ∈ attempts.lockedUntil,
      lockedUntil + slack < since + throttle.lockout) →
    recorded.countP (fun time => since ≤ time) ≤
      attempts.failures.countP fun time => since ≤ time + slack
  followed : ∀ time ∈ recorded, (∃ failure ∈ attempts.failures,
    time ≤ failure + slack) ∨ ∃ lockedUntil ∈ attempts.lockedUntil,
      time + throttle.lockout ≤ lockedUntil + slack

variable {throttle : LoginThrottle} {slack : Int} {attempts : Attempts}
  {recorded : List Int} {clock : Int}

theorem covers_nil (positive : 0 < throttle.maxFailures.toNat) (clock : Int) :
    throttle.Covers slack {} [] clock where
  few := positive
  past := by simp [InOrder]
  recent := by simp
  followed := by simp

/-- A time in order is not before a recorded verification, up to the slack. -/
theorem Covers.le_of_inOrder
    (covers : throttle.Covers slack attempts recorded clock) {now : Int}
    (inOrder : throttle.InOrder attempts now) :
    ∀ time ∈ recorded, time ≤ now + slack := by
  intro time member
  rcases covers.followed time member with
    ⟨failure, listed, le⟩ | ⟨lockedUntil, locked, le⟩
  · have bound := inOrder.1 failure listed
    omega
  · have bound := inOrder.2 lockedUntil locked
    omega

theorem Covers.later
    (covers : throttle.Covers slack attempts recorded clock) {later : Int}
    (le : clock ≤ later) :
    throttle.Covers slack attempts recorded later where
  few := covers.few
  past := ⟨fun time member => (covers.past.1 time member).trans le,
    fun lockedUntil locked => by
      have bound := covers.past.2 lockedUntil locked
      omega⟩
  recent since after := covers.recent since (by omega)
  followed := covers.followed

/-- While a time is allowed, the recent verifications are fewer than the limit. -/
theorem Covers.countP_lt
    (covers : throttle.Covers slack attempts recorded clock)
    (wide : throttle.window + slack ≤ throttle.lockout)
    (allowed : ∀ lockedUntil ∈ attempts.lockedUntil, lockedUntil ≤ clock)
    {since : Int} (recent : clock < since + throttle.window) :
    recorded.countP (fun time => since ≤ time) <
      throttle.maxFailures.toNat := by
  have unlocked : ∀ lockedUntil ∈ attempts.lockedUntil,
      lockedUntil + slack < since + throttle.lockout := by
    intro lockedUntil locked
    have bound := allowed lockedUntil locked
    omega
  calc recorded.countP (fun time => since ≤ time)
      ≤ attempts.failures.countP fun time => since ≤ time + slack :=
        covers.recent since (by omega) unlocked
    _ ≤ attempts.failures.length := List.countP_le_length
    _ < throttle.maxFailures.toNat := covers.few

/-- Fewer verifications are covered all the more. -/
theorem Covers.of_sublist
    {fewer : List Int} (covers : throttle.Covers slack attempts recorded clock)
    (sublist : fewer.Sublist recorded) :
    throttle.Covers slack attempts fewer clock where
  few := covers.few
  past := covers.past
  recent since after unlocked :=
    sublist.countP_le.trans (covers.recent since after unlocked)
  followed time member := covers.followed time (sublist.subset member)

/-- The count of failures does not wrap before it reaches the limit. -/
theorem length_lt_of_not_ge
    {length : Nat} (bound : length ≤ throttle.maxFailures.toNat)
    (below : ¬ UInt32.ofNat length ≥ throttle.maxFailures) :
    length < throttle.maxFailures.toNat := by
  have small := throttle.maxFailures.toNat_lt
  have value : (UInt32.ofNat length).toNat = length :=
    UInt32.toNat_ofNat_of_lt (bound.trans_lt small)
  rw [ge_iff_le, UInt32.le_iff_toNat_le, value] at below
  omega

theorem length_counted_le
    (covers : throttle.Covers slack attempts recorded clock) (now : Int) :
    (throttle.counted attempts now).length ≤ throttle.maxFailures.toNat := by
  have few := covers.few
  have kept := List.length_filter_le
    (fun time => decide (time > now - throttle.window)) attempts.failures
  rw [counted, List.length_append, List.length_singleton]
  omega

/-- A lock is as late as every verification before it. -/
theorem covers_lock
    (positive : 0 < throttle.maxFailures.toNat) {now : Int}
    (before : ∀ time ∈ recorded, time ≤ now + slack) (le : now ≤ clock) :
    throttle.Covers slack
      { failures := [], lockedUntil := some (now + throttle.lockout) }
      recorded clock where
  few := positive
  past := by
    refine ⟨by simp, ?_⟩
    rintro lockedUntil ⟨⟩
    omega
  recent since _ unlocked := by
    have later := unlocked _ rfl
    rw [List.countP_eq_zero.mpr]
    · exact Nat.zero_le _
    · intro time member
      have bound := before time member
      simp only [decide_eq_true_eq]
      omega
  followed time member := by
    have bound := before time member
    exact .inr ⟨_, rfl, by omega⟩

/-- A failure that is kept stands for its verification. -/
theorem Covers.keep
    (covers : throttle.Covers slack attempts recorded clock) {now time : Int}
    (before : ∀ time ∈ recorded, time ≤ now + slack) (le : now ≤ clock)
    (spares : throttle.Spares slack attempts now) (near : time ≤ now + slack)
    (few : (throttle.counted attempts now).length <
      throttle.maxFailures.toNat) :
    throttle.Covers slack
      { attempts with failures := throttle.counted attempts now }
      (time :: recorded) clock where
  few := few
  past := by
    refine ⟨fun failure member => ?_, covers.past.2⟩
    rcases List.mem_append.mp member with member | member
    · exact covers.past.1 failure (List.mem_of_mem_filter member)
    · rw [List.mem_singleton.mp member]
      exact le
  recent since after unlocked := by
    have recent := covers.recent since after unlocked
    have kept : (attempts.failures.filter fun failure =>
        failure > now - throttle.window).countP
          (fun failure => since ≤ failure + slack) =
        attempts.failures.countP fun failure => since ≤ failure + slack := by
      rw [List.countP_filter]
      apply List.countP_congr
      intro failure member
      have spared := spares failure member
      simp only [Bool.and_eq_true, decide_eq_true_eq]
      omega
    rw [List.countP_cons, counted, List.countP_append, kept,
      List.countP_singleton]
    simp only [decide_eq_true_eq]
    split_ifs <;> omega
  followed other member := by
    refine .inl ⟨now, List.mem_append_right _ List.mem_cons_self, ?_⟩
    rcases List.mem_cons.mp member with rfl | member
    · exact near
    · exact before other member

/-- A failure that is recorded in order covers its verification. -/
theorem Covers.fail
    (covers : throttle.Covers slack attempts recorded clock)
    {now time : Int} (inOrder : throttle.InOrder attempts now)
    (spares : throttle.Spares slack attempts now) (le : now ≤ clock)
    (near : time ≤ now + slack) {after : Attempts}
    (failed : throttle.fail attempts now = some after) :
    throttle.Covers slack after (time :: recorded) clock := by
  have before := covers.le_of_inOrder inOrder
  have few := length_lt_of_not_ge (length_counted_le covers now)
  rcases fail_cases failed with rfl | ⟨unlocked, rfl⟩
  · exact covers_lock (Nat.zero_lt_of_lt covers.few)
      (List.forall_mem_cons.mpr ⟨near, before⟩) le
  · exact covers.keep before le spares near (few unlocked)

end LoginThrottle

/-! ## Logins -/

/--
What `get_user_with_hash` finds: it fails, or there is no enabled user with a
local password, or there is one.
-/
inductive LoadedUser
  | error
  | refused
  | hashed

/--
Where a login is, with the time that it has read.  A failure is about to be
recorded with or without a verification of the password.
-/
inductive LoginPhase
  | awaited
  | clocked (now : Int)
  | permitted (now : Int)
  | loaded (now : Int)
  | failing (now : Int) (verified : Bool)
  | accepted
  | ended
deriving DecidableEq

/-- The time that a login has read. -/
def LoginPhase.now : LoginPhase → Option Int
  | .clocked now | .permitted now | .loaded now | .failing now _ => some now
  | _ => none

/-- A login that has read a past time, and is not accepted. -/
def LoginPhase.Rejected (clock : Int) (phase : LoginPhase) : Prop :=
  (∀ now, phase.now = some now → now ≤ clock) ∧ phase ≠ .accepted

/-- A login without a verification that is yet to be recorded. -/
def LoginPhase.Closed (phase : LoginPhase) : Prop :=
  ∀ time, phase ≠ .failing time true

/--
The clock, the throttle, if no panic has poisoned it, the logins, and the
times of verifications.
-/
structure Logins (ι : Type) where
  clock : Int
  throttle : Option LoginThrottle
  phase : ι → LoginPhase
  verifications : List Int

/-- The steps of the logins, with what they are answered. -/
inductive LoginStep (ι : Type)
  | tick (elapsed : Nat)
  | readClock (login : ι)
  | allowed (login : ι)
  | loadUser (login : ι) (loaded : LoadedUser)
  | verifyPassword (login : ι) (answer : Except Text Bool)
  | recordFailure (login : ι)
  | recordSuccess (login : ι)

namespace Logins

variable {ι : Type} [DecidableEq ι] (username : Text)

/-- A login moves on. -/
def move (logins : Logins ι) (login : ι) (phase : LoginPhase) : Logins ι :=
  { logins with phase := Function.update logins.phase login phase }

/-- The login goes on with what was loaded. -/
def loaded (now : Int) : LoadedUser → LoginPhase
  | .error => .ended
  | .refused => .failing now false
  | .hashed => .loaded now

/-- One step of one login for the username, or the passing of time. -/
def step (logins : Logins ι) : LoginStep ι → Option (Logins ι)
  | .tick elapsed => some { logins with clock := logins.clock + elapsed }
  | .readClock login =>
      match logins.phase login with
      | .awaited => some (logins.move login (.clocked logins.clock))
      | _ => none
  | .allowed login =>
      match logins.phase login with
      | .clocked now =>
          some (logins.move login
            (if logins.throttle.any (·.allowed username now) then
              .permitted now else .ended))
      | _ => none
  | .loadUser login user =>
      match logins.phase login with
      | .permitted now => some (logins.move login (loaded now user))
      | _ => none
  | .verifyPassword login answer =>
      match logins.phase login, answer with
      | .loaded _, .error _ => some (logins.move login .ended)
      | .loaded now, .ok accepted =>
          some { logins.move login
              (if accepted then .accepted else .failing now true) with
            verifications := logins.clock :: logins.verifications }
      | _, _ => none
  | .recordFailure login =>
      match logins.phase login with
      | .failing now _ =>
          some { logins.move login .ended with
            throttle := logins.throttle.bind
              (·.recordFailure username now) }
      | _ => none
  | .recordSuccess login =>
      match logins.phase login with
      | .accepted =>
          some { logins.move login .ended with
            throttle := logins.throttle.map (·.recordSuccess username) }
      | _ => none

/-- Logins that come in from some time on. -/
def start (throttle : LoginThrottle) (clock : Int) : Logins ι :=
  ⟨clock, some throttle, fun _ => .awaited, []⟩

/-- No interval as long as the window holds more verifications than allowed. -/
def Throttled (window : Int) (maxFailures : UInt32) (logins : Logins ι) :
    Prop :=
  ∀ since, logins.verifications.countP
    (fun time => since ≤ time ∧ time < since + window) ≤ maxFailures.toNat

/--
A password is verified shortly after the time that the login has read, while
the throttle still allows that time, and when the failures of all earlier
verifications have been recorded; and failures are recorded in the order of
their times, before the ones that still count leave the window.
-/
def OneAtATime (slack : Int) (logins : Logins ι) : LoginStep ι → Prop
  | .verifyPassword login _ => ∀ now, logins.phase login = .loaded now →
      logins.clock ≤ now + slack ∧
        (∃ throttle ∈ logins.throttle,
          throttle.allowed username now = true) ∧
        ∀ other, (logins.phase other).Closed
  | .recordFailure login => ∀ now verified,
      logins.phase login = .failing now verified →
      ∀ throttle ∈ logins.throttle,
        throttle.InOrder (throttle.attempts username) now ∧
          throttle.Spares slack (throttle.attempts username) now
  | _ => True

/-! ## The invariant -/

/-- At most one verification is not recorded yet. -/
def Recorded (slack : Int) (logins : Logins ι) (recorded : List Int) : Prop :=
  (∀ login, (logins.phase login).Closed) ∧
    logins.verifications.Perm recorded ∨
  ∃ login now time, logins.phase login = .failing now true ∧
    time ≤ now + slack ∧
    (∀ other later, logins.phase other = .failing later true →
      other = login) ∧
    logins.verifications.Perm (time :: recorded)

/-- The throttle covers the recorded verifications, and none is accepted. -/
structure Invariant (slack : Int) (throttle : LoginThrottle)
    (logins : Logins ι) (current : LoginThrottle) (recorded : List Int) :
    Prop where
  present : logins.throttle = some current
  configured : ∃ state, current = { throttle with state := state }
  covers : throttle.Covers slack (current.attempts username) recorded
    logins.clock
  rejected : ∀ login, (logins.phase login).Rejected logins.clock
  recorded : Recorded slack logins recorded
  throttled : Throttled throttle.window throttle.maxFailures logins

/-- The invariant holds, or the throttle is poisoned. -/
def Standing (slack : Int) (throttle : LoginThrottle) (logins : Logins ι) :
    Prop :=
  (∃ current recorded,
    Invariant username slack throttle logins current recorded) ∨
  logins.throttle = none ∧
    Throttled throttle.window throttle.maxFailures logins

variable {username} {slack : Int} {throttle current : LoginThrottle}
  {logins : Logins ι} {recorded : List Int} {login : ι}

omit [DecidableEq ι] in
theorem invariant_start
    (fresh : throttle.state = .empty)
    (positive : 0 < throttle.maxFailures.toNat) (clock : Int) :
    Invariant username slack throttle (start throttle clock : Logins ι)
      throttle [] where
  present := rfl
  configured := ⟨throttle.state, rfl⟩
  covers := by
    have none_yet : throttle.attempts username = {} := by
      rw [LoginThrottle.attempts, fresh]
      rfl
    rw [none_yet]
    exact LoginThrottle.covers_nil positive _
  rejected := by simp [start, LoginPhase.Rejected, LoginPhase.now]
  recorded := .inl ⟨by simp [start, LoginPhase.Closed], .refl []⟩
  throttled := by simp [Throttled, start]

theorem phase_move_self (phase : LoginPhase) :
    (logins.move login phase).phase login = phase := by
  rw [move]
  exact Function.update_self login phase logins.phase

theorem phase_move_of_ne
    {other : ι} {phase : LoginPhase} (differ : other ≠ login) :
    (logins.move login phase).phase other = logins.phase other := by
  rw [move]
  exact Function.update_of_ne differ phase logins.phase

/-- What holds of the phases of all logins after one has moved on. -/
theorem forall_phase_move
    (holds : LoginPhase → Prop) {phase : LoginPhase}
    (before : ∀ other, holds (logins.phase other)) (after : holds phase)
    (other : ι) : holds ((logins.move login phase).phase other) := by
  by_cases same : other = login
  · rw [same, phase_move_self]
    exact after
  · rw [phase_move_of_ne same]
    exact before other

theorem Recorded.move
    (settled : Recorded slack logins recorded) {phase : LoginPhase}
    (before : (logins.phase login).Closed) (after : phase.Closed) :
    Recorded slack (logins.move login phase) recorded := by
  rcases settled with
    ⟨none_open, all⟩ | ⟨opened, now, time, failing, near, only, all⟩
  · exact .inl ⟨forall_phase_move LoginPhase.Closed none_open after, all⟩
  · have differ : opened ≠ login := by
      rintro rfl
      exact before now failing
    refine .inr ⟨opened, now, time, ?_, near, fun other later found => ?_, all⟩
    · rw [phase_move_of_ne differ, failing]
    · by_cases same : other = login
      · rw [same, phase_move_self] at found
        exact absurd found (after later)
      · rw [phase_move_of_ne same] at found
        exact only other later found

/-- The failure of the one open verification is recorded. -/
theorem Recorded.close
    (settled : Recorded slack logins recorded) {now : Int}
    (failing : logins.phase login = .failing now true) :
    ∃ time, time ≤ now + slack ∧
      Recorded slack (logins.move login .ended) (time :: recorded) := by
  rcases settled with
    ⟨none_open, -⟩ | ⟨opened, read, time, open_, near, only, all⟩
  · exact absurd failing (none_open login now)
  · cases only login now failing
    cases open_.symm.trans failing
    refine ⟨time, near, .inl ⟨fun other later => ?_, all⟩⟩
    by_cases same : other = login
    · rw [same, phase_move_self]
      exact fun same => by cases same
    · rw [phase_move_of_ne same]
      exact fun found => same (only other later found)

namespace Invariant

omit [DecidableEq ι] in
theorem tick
    (invariant : Invariant username slack throttle logins current recorded)
    {clock : Int} (later : logins.clock ≤ clock) :
    Invariant username slack throttle { logins with clock := clock } current
      recorded where
  present := invariant.present
  configured := invariant.configured
  covers := invariant.covers.later later
  rejected login :=
    ⟨fun now found => ((invariant.rejected login).1 now found).trans later,
      (invariant.rejected login).2⟩
  recorded := invariant.recorded
  throttled := invariant.throttled

/-- A step that neither verifies nor records. -/
theorem move
    (invariant : Invariant username slack throttle logins current recorded)
    {phase : LoginPhase} (before : (logins.phase login).Closed)
    (after : phase.Closed) (rejected : phase.Rejected logins.clock) :
    Invariant username slack throttle (logins.move login phase) current
      recorded where
  present := invariant.present
  configured := invariant.configured
  covers := invariant.covers
  rejected := forall_phase_move (LoginPhase.Rejected logins.clock)
    invariant.rejected rejected
  recorded := invariant.recorded.move before after
  throttled := invariant.throttled

/-- A verification in time leaves room for itself. -/
theorem verify
    (invariant : Invariant username slack throttle logins current recorded)
    (wide : throttle.window + slack ≤ throttle.lockout) {now : Int}
    (le : now ≤ logins.clock) (near : logins.clock ≤ now + slack)
    (allowed : current.allowed username now = true)
    (none_open : ∀ other, (logins.phase other).Closed) :
    Invariant username slack throttle
      { logins.move login (.failing now true) with
        verifications := logins.clock :: logins.verifications }
      current recorded where
  present := invariant.present
  configured := invariant.configured
  covers := invariant.covers
  rejected := by
    refine forall_phase_move (LoginPhase.Rejected logins.clock)
      invariant.rejected ⟨?_, by simp⟩
    rintro read ⟨⟩
    exact le
  recorded := by
    rcases invariant.recorded with ⟨-, all⟩ | ⟨other, read, time, open_, -⟩
    · refine .inr ⟨login, now, logins.clock, phase_move_self _, near,
        fun other later found => ?_, all.cons _⟩
      by_contra differ
      exact none_open other later ((phase_move_of_ne differ).symm.trans found)
    · exact absurd open_ (none_open other read)
  throttled := by
    intro since
    have bound := invariant.throttled since
    have unlocked : ∀ lockedUntil ∈ (current.attempts username).lockedUntil,
        lockedUntil ≤ logins.clock := fun lockedUntil locked =>
      (LoginThrottle.allowed_iff.mp allowed lockedUntil locked).trans le
    rcases invariant.recorded with ⟨-, all⟩ | ⟨other, read, time, open_, -⟩
    · rw [List.countP_cons]
      split_ifs with inside
      · have recent := invariant.covers.countP_lt wide unlocked
          (of_decide_eq_true inside).2
        have fewer : logins.verifications.countP (fun time =>
            since ≤ time ∧ time < since + throttle.window) ≤
            recorded.countP fun time => since ≤ time := by
          rw [← all.countP_eq]
          apply List.countP_mono_left
          intro time _ within
          simpa using (of_decide_eq_true within).1
        omega
      · exact bound
    · exact absurd open_ (none_open other read)

/-- A failure is recorded in order. -/
theorem record
    (invariant : Invariant username slack throttle logins current recorded)
    (patient : 0 ≤ slack) {now : Int} {verified : Bool}
    (failing : logins.phase login = .failing now verified)
    (inOrder : current.InOrder (current.attempts username) now)
    (spares : current.Spares slack (current.attempts username) now)
    {next : LoginThrottle}
    (done : current.recordFailure username now = some next) :
    ∃ recorded', Invariant username slack throttle
      { logins.move login .ended with throttle := some next }
      next recorded' := by
  have le : now ≤ logins.clock :=
    (invariant.rejected login).1 now (by rw [failing]; rfl)
  obtain ⟨failed, later, same⟩ := LoginThrottle.recordFailure_eq_some done
  obtain ⟨state, configured⟩ := invariant.configured
  have covers : ∀ time, time ≤ now + slack →
      throttle.Covers slack (next.attempts username) (time :: recorded)
        logins.clock := by
    intro time near
    subst configured
    exact LoginThrottle.Covers.fail invariant.covers inOrder spares le near
      failed
  have configured' : ∃ state, next = { throttle with state := state } := by
    rw [same, configured]
    exact ⟨_, rfl⟩
  have ended : LoginPhase.Rejected logins.clock .ended := by
    simp [LoginPhase.Rejected, LoginPhase.now]
  have rejected : ∀ other, ((logins.move login .ended).phase other).Rejected
      logins.clock :=
    forall_phase_move (LoginPhase.Rejected logins.clock) invariant.rejected
      ended
  cases verified with
  | true =>
      obtain ⟨time, near, closed⟩ := invariant.recorded.close failing
      exact ⟨time :: recorded, rfl, configured', covers time near, rejected,
        closed, invariant.throttled⟩
  | false =>
      have kept := (covers now (by omega)).of_sublist
        (List.sublist_cons_self _ _)
      refine ⟨recorded, rfl, configured', kept, rejected, ?_,
        invariant.throttled⟩
      exact invariant.recorded.move (by simp [failing, LoginPhase.Closed])
        (by simp [LoginPhase.Closed])

/-- Every step that keeps to the order keeps the invariant, or panics. -/
theorem step
    (invariant : Invariant username slack throttle logins current recorded)
    (patient : 0 ≤ slack)
    (wide : throttle.window + slack ≤ throttle.lockout)
    {action : LoginStep ι} {next : Logins ι}
    (taken : step username logins action = some next)
    (unsuccessful : ∀ login, action ≠ .verifyPassword login (.ok true))
    (inTurn : OneAtATime username slack logins action) :
    Standing username slack throttle next := by
  cases action with
  | tick elapsed =>
      cases taken
      exact .inl ⟨current, recorded, invariant.tick (by omega)⟩
  | readClock login =>
      cases phase : logins.phase login with
      | awaited =>
          simp only [Logins.step, phase, Option.some.injEq] at taken
          subst taken
          exact .inl ⟨current, recorded, invariant.move
            (by simp [phase, LoginPhase.Closed])
            (by simp [LoginPhase.Closed])
            (by simp [LoginPhase.Rejected, LoginPhase.now])⟩
      | _ => simp [Logins.step, phase] at taken
  | allowed login =>
      cases phase : logins.phase login with
      | clocked now =>
          simp only [Logins.step, phase, Option.some.injEq] at taken
          subst taken
          have le := (invariant.rejected login).1 now (by rw [phase]; rfl)
          refine .inl ⟨current, recorded, invariant.move
            (by simp [phase, LoginPhase.Closed]) ?_ ?_⟩
          · split <;> simp [LoginPhase.Closed]
          · split <;> simp [LoginPhase.Rejected, LoginPhase.now, le]
      | _ => simp [Logins.step, phase] at taken
  | loadUser login user =>
      cases phase : logins.phase login with
      | permitted now =>
          simp only [Logins.step, phase, Option.some.injEq] at taken
          subst taken
          have le := (invariant.rejected login).1 now (by rw [phase]; rfl)
          refine .inl ⟨current, recorded, invariant.move
            (by simp [phase, LoginPhase.Closed]) ?_ ?_⟩
          · cases user <;> simp [loaded, LoginPhase.Closed]
          · cases user <;> simp [loaded, LoginPhase.Rejected, LoginPhase.now,
              le]
      | _ => simp [Logins.step, phase] at taken
  | verifyPassword login answer =>
      cases phase : logins.phase login with
      | loaded now =>
          obtain ⟨near, ⟨_, found, allowed⟩, none_open⟩ := inTurn now phase
          cases invariant.present.symm.trans found
          match answer with
          | .error message =>
              simp only [Logins.step, phase, Option.some.injEq] at taken
              subst taken
              exact .inl ⟨current, recorded, invariant.move
                (by simp [phase, LoginPhase.Closed])
                (by simp [LoginPhase.Closed])
                (by simp [LoginPhase.Rejected, LoginPhase.now])⟩
          | .ok true => exact absurd rfl (unsuccessful login)
          | .ok false =>
              simp only [Logins.step, phase, Option.some.injEq] at taken
              subst taken
              have le := (invariant.rejected login).1 now (by rw [phase]; rfl)
              exact .inl ⟨current, recorded,
                invariant.verify wide le near allowed none_open⟩
      | _ => simp [Logins.step, phase] at taken
  | recordFailure login =>
      cases phase : logins.phase login with
      | failing now verified =>
          simp only [Logins.step, phase, Option.some.injEq,
            invariant.present, Option.bind_some] at taken
          subst taken
          obtain ⟨inOrder, spares⟩ :=
            inTurn now verified phase current invariant.present
          cases done : current.recordFailure username now with
          | none => exact .inr ⟨rfl, invariant.throttled⟩
          | some next =>
              exact .inl ⟨next,
                invariant.record patient phase inOrder spares done⟩
      | _ => simp [Logins.step, phase] at taken
  | recordSuccess login =>
      cases phase : logins.phase login with
      | accepted => exact absurd phase (invariant.rejected login).2
      | _ => simp [Logins.step, phase] at taken

end Invariant

/-- With the throttle poisoned no password is verified any more. -/
theorem poisoned_step
    (poisoned : logins.throttle = none) {action : LoginStep ι}
    {next : Logins ι} (taken : step username logins action = some next)
    (inTurn : OneAtATime username slack logins action) :
    next.throttle = none ∧ next.verifications = logins.verifications := by
  cases action with
  | tick elapsed =>
      cases taken
      exact ⟨poisoned, rfl⟩
  | verifyPassword login answer =>
      cases phase : logins.phase login with
      | loaded now =>
          obtain ⟨-, ⟨throttle, found, -⟩, -⟩ := inTurn now phase
          cases poisoned.symm.trans found
      | _ => simp [step, phase] at taken
  | _ login =>
      cases phase : logins.phase login <;>
        simp only [step, phase, reduceCtorEq, Option.some.injEq] at taken
      all_goals
        subst taken
        simp [move, poisoned]

theorem Standing.step
    (standing : Standing username slack throttle logins)
    (patient : 0 ≤ slack)
    (wide : throttle.window + slack ≤ throttle.lockout)
    {action : LoginStep ι} {next : Logins ι}
    (taken : Logins.step username logins action = some next)
    (unsuccessful : ∀ login, action ≠ .verifyPassword login (.ok true))
    (inTurn : OneAtATime username slack logins action) :
    Standing username slack throttle next := by
  rcases standing with
    ⟨current, recorded, invariant⟩ | ⟨poisoned, throttled⟩
  · exact invariant.step patient wide taken unsuccessful inTurn
  · obtain ⟨poisoned, same⟩ := poisoned_step poisoned taken inTurn
    refine .inr ⟨poisoned, fun since => ?_⟩
    rw [same]
    exact throttled since

omit [DecidableEq ι] in
theorem Standing.throttled
    (standing : Standing username slack throttle logins) :
    Throttled throttle.window throttle.maxFailures logins := by
  rcases standing with ⟨current, recorded, invariant⟩ | ⟨-, throttled⟩
  · exact invariant.throttled
  · exact throttled

theorem Standing.run
    (standing : Standing username slack throttle logins)
    (patient : 0 ≤ slack)
    (wide : throttle.window + slack ≤ throttle.lockout)
    {steps : List (LoginStep ι)} {final : Logins ι}
    (ran : steps.foldlM (Logins.step username) logins = some final)
    (unsuccessful : ∀ login, .verifyPassword login (.ok true) ∉ steps)
    (inTurn : Throughout (Logins.step username) (OneAtATime username slack)
      logins steps) :
    Standing username slack throttle final := by
  induction steps generalizing logins with
  | nil =>
      cases ran
      exact standing
  | cons action rest induction =>
      rw [List.foldlM_cons, Option.bind_eq_bind,
        Option.bind_eq_some_iff] at ran
      obtain ⟨next, taken, ran⟩ := ran
      have stands := standing.step patient wide taken
        (fun login same => unsuccessful login (same ▸ List.mem_cons_self))
        inTurn.1
      exact induction stands ran
        (fun login member => unsuccessful login
          (List.mem_cons_of_mem _ member))
        (inTurn.2 next taken)

end Logins

/--
No interval of the length of the window has more verifications than failures
are allowed, in every state that logins for a username reach, none of which
succeeds, as long as they take turns.  A verification may come later than the
time that its login has read, by up to what the lock outlasts the window.
-/
theorem Logins.throttled_of_oneAtATime
    {ι : Type} [DecidableEq ι] (username : Text) (maxFailures : UInt32)
    (windowSecs lockoutSecs : UInt64) (positive : 1 ≤ maxFailures.toNat)
    (slack : Int) (patient : 0 ≤ slack)
    (wide : (LoginThrottle.new maxFailures windowSecs lockoutSecs).window +
        slack ≤
      (LoginThrottle.new maxFailures windowSecs lockoutSecs).lockout)
    (clock : Int) (steps : List (LoginStep ι)) (final : Logins ι)
    (ran : steps.foldlM (Logins.step username)
      (Logins.start (.new maxFailures windowSecs lockoutSecs) clock) =
        some final)
    (unsuccessful : ∀ login, .verifyPassword login (.ok true) ∉ steps)
    (inTurn : Throughout (Logins.step username)
      (Logins.OneAtATime username slack)
      (Logins.start (.new maxFailures windowSecs lockoutSecs) clock) steps) :
    final.Throttled
      (LoginThrottle.new maxFailures windowSecs lockoutSecs).window
      maxFailures := by
  have started : Logins.Standing username slack
      (.new maxFailures windowSecs lockoutSecs)
      (Logins.start (.new maxFailures windowSecs lockoutSecs) clock :
        Logins ι) := by
    refine .inl ⟨_, [], Logins.invariant_start ?_ ?_ clock⟩
    · rfl
    · exact positive
  exact (started.run patient wide ran unsuccessful inTurn).throttled

/-- A throttle that locks for five minutes after one failure in a minute. -/
def strictThrottle : LoginThrottle :=
  .new 1 60 300

/--
Two logins verify ten seconds after they read the clock, the second one when
the first lock is over.
-/
def oneByOne : List (LoginStep Bool) :=
  [.readClock true, .allowed true, .loadUser true .hashed,
    .tick 10000000000, .verifyPassword true (.ok false), .recordFailure true,
    .tick 290000000000, .readClock false, .allowed false,
    .loadUser false .hashed, .tick 10000000000,
    .verifyPassword false (.ok false), .recordFailure false]

theorem throttled_oneByOne :
    ∃ final, oneByOne.foldlM (Logins.step []) (Logins.start strictThrottle 0) =
        some final ∧ final.verifications = [310000000000, 10000000000] ∧
      final.Throttled strictThrottle.window 1 := by
  obtain ⟨final, ran, times⟩ : ∃ final, oneByOne.foldlM (Logins.step [])
      (Logins.start strictThrottle 0) = some final ∧
        final.verifications = [310000000000, 10000000000] := ⟨_, rfl, rfl⟩
  refine ⟨final, ran, times, Logins.throttled_of_oneAtATime [] 1 60 300
    (by decide) 240000000000 (by decide) (by decide) 0 oneByOne final ran
    (by simp [oneByOne]) ?_⟩
  refine .cons trivial rfl (.cons trivial rfl (.cons trivial rfl
    (.cons trivial rfl (.cons ?_ rfl (.cons ?_ rfl (.cons trivial rfl
      (.cons trivial rfl (.cons trivial rfl (.cons trivial rfl
        (.cons trivial rfl (.cons ?_ rfl (.cons ?_ rfl trivial))))))))))))
  · rintro now ⟨⟩
    refine ⟨by decide, ⟨_, rfl, rfl⟩, fun other => ?_⟩
    cases other <;> rintro time ⟨⟩
  · rintro now verified ⟨⟩ throttle ⟨⟩
    refine ⟨⟨?_, ?_⟩, ?_⟩
    · rintro time ⟨⟩
    · rintro lockedUntil ⟨⟩
    · rintro time ⟨⟩
  · rintro now ⟨⟩
    refine ⟨by decide, ⟨_, rfl, rfl⟩, fun other => ?_⟩
    cases other <;> rintro time ⟨⟩
  · rintro now verified ⟨⟩ throttle ⟨⟩
    refine ⟨⟨?_, ?_⟩, ?_⟩
    · rintro time ⟨⟩
    · rintro lockedUntil ⟨⟩
      decide
    · rintro time ⟨⟩

/-- A login that verifies some time after it has read the clock. -/
def attempt (login : Fin 3) (late : Nat) : List (LoginStep (Fin 3)) :=
  [.readClock login, .allowed login, .loadUser login .hashed, .tick late,
    .verifyPassword login (.ok false), .recordFailure login]

/--
That failures are recorded one after the other is not enough: the first one
leaves the window before its verification does.
-/
example : ∃ final, (attempt 0 10000000000 ++ .tick 55000000000 ::
      (attempt 1 0 ++ attempt 2 0)).foldlM (Logins.step [])
        (Logins.start (.new 2 60 300) 0) = some final ∧
    ¬ final.Throttled (LoginThrottle.new 2 60 300).window 2 := by
  refine ⟨_, rfl, fun throttled => ?_⟩
  have bound := throttled 10000000000
  revert bound
  decide

/-- Two logins ask the throttle before either has failed. -/
def sideBySide : List (LoginStep Bool) :=
  [.readClock true, .allowed true, .readClock false, .allowed false,
    .loadUser true .hashed, .verifyPassword true (.ok false),
    .loadUser false .hashed, .verifyPassword false (.ok false),
    .recordFailure true, .recordFailure false]

theorem not_throttled_sideBySide :
    ∃ final, sideBySide.foldlM (Logins.step [])
        (Logins.start strictThrottle 0) = some final ∧
      (∀ login, .verifyPassword login (.ok true) ∉ sideBySide) ∧
      ¬ final.Throttled strictThrottle.window 1 := by
  refine ⟨_, rfl, by simp [sideBySide], fun throttled => ?_⟩
  have bound := throttled 0
  revert bound
  decide

end LightWaf.Governance
