import LightWaf.Rust.Text
import LightWaf.Theory.Machine

/-!
# Sessions of a replaced password

The statements of `login`, `change_password` and `reset_password` requests for
one user, interleaved.  A login loads the password hash, verifies it and
creates a session; a change or a reset replaces the hash and deletes the
sessions.  A login that has loaded the old hash can create its session after
the sessions were deleted, and nothing compares the hashes then.
-/

namespace LightWaf.ControlPlane.PasswordChange

open LightWaf.Rust
open LightWaf.Theory.Machine

/-! ## Requests -/

/--
A row of `gov_sessions`: the login that created it, and the version of the
password hash that the login verified.
-/
structure Session (ι : Type) where
  id : ι
  verified : Nat
deriving DecidableEq

/-- The bodies of the requests; a new hash is salted, and differs each time. -/
inductive Request (ι : Type)
  | login (password : Text)
  | changePassword (session : ι) (oldPassword newHash : Text)
  | resetPassword (newHash : Text)

/--
Where a request is.  A hash that has been replaced is counted by its version.
After the sessions are deleted only an audit record is appended before the
request succeeds.
-/
inductive Phase (ι : Type)
  | awaited
  | login (password : Text)
  | loginLoaded (password hash : Text) (version : Nat)
  | loginVerified (version : Nat)
  | change (session : ι) (oldPassword newHash : Text)
  | changeLoaded (session : ι) (oldPassword newHash hash : Text)
  | changeVerified (session : ι) (newHash : Text)
  | reset (newHash : Text)
  | replaced (version : Nat) (keep : Option ι)
  | succeeded (version : Nat) (keep : Option ι)
  | ended
deriving DecidableEq

/-- The session that a request acts for. -/
def Phase.session {ι : Type} : Phase ι → Option ι
  | .change session _ _ | .changeLoaded session _ _ _
  | .changeVerified session _ => some session
  | .replaced _ keep | .succeeded _ keep => keep
  | _ => none

/-- A request that is still under way. -/
def Phase.Active {ι : Type} : Phase ι → Prop
  | .succeeded _ _ | .ended => False
  | _ => True

/-- A phase that a request can go on with: no success, and no new session. -/
def Phase.Follows {ι : Type} (before after : Phase ι) : Prop :=
  (∀ version keep, after ≠ .succeeded version keep) ∧
    ∀ session, after.session = some session →
      before.session = some session

theorem Phase.follows_ended {ι : Type} (before : Phase ι) :
    before.Follows .ended := by
  constructor
  · intro version keep same
    cases same
  · intro session found
    cases found

/--
The row of the user with the version of its hash, the sessions of the user,
and the requests.
-/
structure Accounts (ι : Type) where
  disabled : Bool
  passwordHash : Option Text
  version : Nat
  sessions : List (Session ι)
  phase : ι → Phase ι

/-- A request comes in, executes its next statement, or breaks off. -/
inductive Action (ι : Type)
  | receive (request : ι) (body : Request ι)
  | advance (request : ι)
  | drop (request : ι)

section Requests

variable {ι : Type}

namespace Accounts

/-- What a login goes on with after `get_user_with_hash`. -/
def loaded (accounts : Accounts ι) (password : Text) : Phase ι :=
  if accounts.disabled then .ended
  else match accounts.passwordHash with
    | some hash => .loginLoaded password hash accounts.version
    | none => .ended

/-- What a change goes on with after `get_user_with_hash`. -/
def changeLoaded (accounts : Accounts ι) (session : ι)
    (oldPassword newHash : Text) : Phase ι :=
  match accounts.passwordHash with
  | some hash => .changeLoaded session oldPassword newHash hash
  | none => .ended

theorem follows_loaded
    {accounts : Accounts ι} {before : Phase ι} (password : Text) :
    before.Follows (accounts.loaded password) := by
  rw [loaded]
  split
  · exact before.follows_ended
  · split
    · simp [Phase.Follows, Phase.session]
    · exact before.follows_ended

theorem follows_changeLoaded
    {accounts : Accounts ι} {before : Phase ι} {session : ι}
    (acts : before.session = some session) (oldPassword newHash : Text) :
    before.Follows (accounts.changeLoaded session oldPassword newHash) := by
  rw [changeLoaded]
  split
  · refine ⟨by simp, fun other found => ?_⟩
    cases found
    exact acts
  · exact before.follows_ended

variable [DecidableEq ι]

/-- A request moves on. -/
def move (accounts : Accounts ι) (request : ι) (phase : Phase ι) :
    Accounts ι :=
  { accounts with phase := Function.update accounts.phase request phase }

/-- `create_session`. -/
def createSession (accounts : Accounts ι) (id : ι) (verified : Nat) :
    Accounts ι :=
  { accounts with sessions := ⟨id, verified⟩ :: accounts.sessions }

/-- `set_password_hash`. -/
def setPasswordHash (accounts : Accounts ι) (newHash : Text) : Accounts ι :=
  { accounts with
    passwordHash := some newHash
    version := accounts.version + 1 }

/-- `delete_sessions_for_user` and `delete_other_sessions_for_user`. -/
def deleteSessions (accounts : Accounts ι) (keep : Option ι) : Accounts ι :=
  { accounts with
    sessions := accounts.sessions.filter fun session =>
      some session.id = keep }

/-- What a request does first; a session has to resolve to change a password. -/
def received (accounts : Accounts ι) : Request ι → Phase ι
  | .login password => .login password
  | .changePassword session oldPassword newHash =>
      if (accounts.sessions.any fun row => row.id = session) ∧
          ¬ accounts.disabled then
        .change session oldPassword newHash
      else .ended
  | .resetPassword newHash => .reset newHash

end Accounts

variable (verifyPassword : Text → Text → Except Text Bool)

/-- What a request goes on with after `verify_password`. -/
def verified (password hash : Text) (accepted : Phase ι) : Phase ι :=
  match verifyPassword password hash with
  | .ok true => accepted
  | _ => .ended

theorem follows_verified
    {before accepted : Phase ι} (follows : before.Follows accepted)
    (password hash : Text) :
    before.Follows (verified verifyPassword password hash accepted) := by
  rw [verified]
  split
  · exact follows
  · exact before.follows_ended

variable [DecidableEq ι]

/-- One statement of one request. -/
def step (accounts : Accounts ι) : Action ι → Option (Accounts ι)
  | .receive request body =>
      if accounts.phase request = .awaited then
        some (accounts.move request (accounts.received body))
      else none
  | .advance request =>
      match accounts.phase request with
      | .login password =>
          some (accounts.move request (accounts.loaded password))
      | .loginLoaded password hash version =>
          some (accounts.move request
            (verified verifyPassword password hash (.loginVerified version)))
      | .loginVerified version =>
          some ((accounts.createSession request version).move request .ended)
      | .change session oldPassword newHash =>
          some (accounts.move request
            (accounts.changeLoaded session oldPassword newHash))
      | .changeLoaded session oldPassword newHash hash =>
          some (accounts.move request (verified verifyPassword oldPassword
            hash (.changeVerified session newHash)))
      | .changeVerified session newHash =>
          some ((accounts.setPasswordHash newHash).move request
            (.replaced (accounts.version + 1) (some session)))
      | .reset newHash =>
          some ((accounts.setPasswordHash newHash).move request
            (.replaced (accounts.version + 1) none))
      | .replaced version keep =>
          some ((accounts.deleteSessions keep).move request
            (.succeeded version keep))
      | .awaited | .succeeded _ _ | .ended => none
  | .drop request =>
      match accounts.phase request with
      | .awaited | .succeeded _ _ | .ended => none
      | _ => some (accounts.move request .ended)

/-- A user with a password, before the first request. -/
def Accounts.start (passwordHash : Option Text) (disabled : Bool) :
    Accounts ι :=
  ⟨disabled, passwordHash, 0, [], fun _ => .awaited⟩

/-! ## The properties -/

/--
No session of an older hash is left once a request that replaced the hash has
succeeded, but the one that the request was made with.
-/
def Evicts (accounts : Accounts ι) : Prop :=
  ∀ request version keep, accounts.phase request = .succeeded version keep →
    ∀ session ∈ accounts.sessions, session.verified < version →
      keep = some session.id

/--
A login creates its session before any request that replaced the hash that it
verified has succeeded.
-/
def InTime (accounts : Accounts ι) : Action ι → Prop
  | .advance login => ∀ verified,
      accounts.phase login = .loginVerified verified →
      ∀ request version keep,
        accounts.phase request = .succeeded version keep →
        version ≤ verified
  | _ => True

/-! ## What a step does -/

/--
A step creates a session, or deletes the sessions and succeeds, or does
neither.
-/
inductive Step (accounts : Accounts ι) : Action ι → Accounts ι → Prop
  | other {action : Action ι} {next : Accounts ι} {request : ι}
      {phase : Phase ι}
      (active : (accounts.phase request).Active)
      (unsuccessful : ∀ version keep, phase ≠ .succeeded version keep)
      (session : ∀ session, phase.session = some session →
        (accounts.phase request).session = some session ∨
          ∃ row ∈ accounts.sessions, row.id = session)
      (inTime : InTime accounts action)
      (sessions : next.sessions = accounts.sessions)
      (phases : next.phase = Function.update accounts.phase request phase) :
      Step accounts action next
  | create {login : ι} {version : Nat}
      (verified : accounts.phase login = .loginVerified version) :
      Step accounts (.advance login)
        ((accounts.createSession login version).move login .ended)
  | delete {request : ι} {version : Nat} {keep : Option ι}
      (replaced : accounts.phase request = .replaced version keep) :
      Step accounts (.advance request)
        ((accounts.deleteSessions keep).move request
          (.succeeded version keep))

variable {verifyPassword} {accounts next : Accounts ι} {request : ι}

/-- A move within a request: it does not succeed, and keeps its session. -/
theorem step_advance
    {phase : Phase ι} (active : (accounts.phase request).Active)
    (unverified : ∀ version,
      accounts.phase request ≠ .loginVerified version)
    (follows : (accounts.phase request).Follows phase)
    (sessions : next.sessions = accounts.sessions)
    (phases : next.phase = Function.update accounts.phase request phase) :
    Step accounts (.advance request) next :=
  .other active follows.1 (fun id found => .inl (follows.2 id found))
    (fun version verified => absurd verified (unverified version)) sessions
    phases

theorem step_of_receive
    {body : Request ι}
    (taken : step verifyPassword accounts (.receive request body) =
      some next) : Step accounts (.receive request body) next := by
  rw [step] at taken
  split_ifs at taken with awaited
  cases taken
  have active : (accounts.phase request).Active := by
    rw [awaited]
    trivial
  cases body with
  | login password =>
      exact .other active (by simp [Accounts.received])
        (by simp [Accounts.received, Phase.session]) trivial rfl rfl
  | changePassword session oldPassword newHash =>
      by_cases resolves : (accounts.sessions.any fun row =>
          row.id = session) ∧ ¬ accounts.disabled
      · have received : accounts.received (.changePassword session
            oldPassword newHash) = .change session oldPassword newHash :=
          if_pos resolves
        refine .other active ?_ ?_ trivial rfl rfl
        · simp [received]
        · intro id found
          rw [received] at found
          obtain ⟨row, member, same⟩ := List.any_eq_true.mp resolves.1
          exact .inr ⟨row, member,
            (of_decide_eq_true same).trans (Option.some.inj found)⟩
      · have received : accounts.received (.changePassword session
            oldPassword newHash) = .ended := if_neg resolves
        exact .other active (by simp [received])
          (by simp [received, Phase.session]) trivial rfl rfl
  | resetPassword newHash =>
      exact .other active (by simp [Accounts.received])
        (by simp [Accounts.received, Phase.session]) trivial rfl rfl

theorem step_of_advance
    (taken : step verifyPassword accounts (.advance request) = some next) :
    Step accounts (.advance request) next := by
  cases phase : accounts.phase request with
  | awaited | succeeded _ _ | ended => simp [step, phase] at taken
  | login password =>
      simp only [step, phase] at taken
      cases taken
      exact step_advance (by rw [phase]; trivial) (by simp [phase])
        (Accounts.follows_loaded password) rfl rfl
  | loginLoaded password hash version =>
      simp only [step, phase] at taken
      cases taken
      refine step_advance (by rw [phase]; trivial) (by simp [phase])
        (follows_verified _ ?_ password hash) rfl rfl
      simp [Phase.Follows, Phase.session]
  | loginVerified version =>
      simp only [step, phase] at taken
      cases taken
      exact .create phase
  | change session oldPassword newHash =>
      simp only [step, phase] at taken
      cases taken
      refine step_advance (by rw [phase]; trivial) (by simp [phase])
        (Accounts.follows_changeLoaded ?_ oldPassword newHash) rfl rfl
      rw [phase]
      rfl
  | changeLoaded session oldPassword newHash hash =>
      simp only [step, phase] at taken
      cases taken
      refine step_advance (by rw [phase]; trivial) (by simp [phase])
        (follows_verified _ ?_ oldPassword hash) rfl rfl
      simp [Phase.Follows, phase, Phase.session]
  | changeVerified session newHash =>
      simp only [step, phase] at taken
      cases taken
      refine step_advance (by rw [phase]; trivial) (by simp [phase]) ?_ rfl
        rfl
      simp [Phase.Follows, phase, Phase.session]
  | reset newHash =>
      simp only [step, phase] at taken
      cases taken
      refine step_advance (by rw [phase]; trivial) (by simp [phase]) ?_ rfl
        rfl
      simp [Phase.Follows, Phase.session]
  | replaced version keep =>
      simp only [step, phase] at taken
      cases taken
      exact .delete phase

theorem step_of_drop
    (taken : step verifyPassword accounts (.drop request) = some next) :
    Step accounts (.drop request) next := by
  have moved : (accounts.phase request).Active ∧
      next = accounts.move request .ended := by
    rw [step] at taken
    cases phase : accounts.phase request <;> rw [phase] at taken <;>
      cases taken <;> exact ⟨trivial, rfl⟩
  obtain ⟨active, rfl⟩ := moved
  have follows := (accounts.phase request).follows_ended
  exact .other active follows.1 (fun id found => .inl (follows.2 id found))
    trivial rfl rfl

theorem step_of_some
    {action : Action ι}
    (taken : step verifyPassword accounts action = some next) :
    Step accounts action next := by
  cases action with
  | receive request body => exact step_of_receive taken
  | advance request => exact step_of_advance taken
  | drop request => exact step_of_drop taken

/-! ## Eviction -/

/-- The sessions that exist or are acted for were created by past logins. -/
structure Invariant (accounts : Accounts ι) : Prop where
  rows : ∀ session ∈ accounts.sessions, accounts.phase session.id = .ended
  acting : ∀ request session,
    (accounts.phase request).session = some session →
    accounts.phase session = .ended

omit [DecidableEq ι] in
theorem invariant_start (passwordHash : Option Text) (disabled : Bool) :
    Invariant (Accounts.start passwordHash disabled : Accounts ι) where
  rows := by simp [Accounts.start]
  acting := by simp [Accounts.start, Phase.session]

/-- A request that has ended stays so when another one moves on. -/
theorem ended_update
    {other : ι} {phase : Phase ι} (active : (accounts.phase request).Active)
    (ended : accounts.phase other = .ended) :
    Function.update accounts.phase request phase other = .ended := by
  have differ : other ≠ request := by
    rintro rfl
    rw [ended] at active
    exact active
  rw [Function.update_of_ne differ, ended]

/-- What moves on and keeps to past logins keeps the invariant. -/
theorem Invariant.moved
    (invariant : Invariant accounts) {phase : Phase ι}
    (active : (accounts.phase request).Active)
    (rows : ∀ session ∈ next.sessions, session ∈ accounts.sessions ∨
      session.id = request ∧ phase = .ended)
    (acting : ∀ session, phase.session = some session →
      accounts.phase session = .ended)
    (phases : next.phase = Function.update accounts.phase request phase) :
    Invariant next := by
  constructor
  · intro session member
    rw [phases]
    rcases rows session member with old | ⟨new, ended⟩
    · exact ended_update active (invariant.rows session old)
    · rw [new, Function.update_self, ended]
  · intro other session acts
    rw [phases] at acts ⊢
    by_cases same : other = request
    · rw [same, Function.update_self] at acts
      exact ended_update active (acting session acts)
    · rw [Function.update_of_ne same] at acts
      exact ended_update active (invariant.acting other session acts)

theorem Invariant.step
    (invariant : Invariant accounts) {action : Action ι}
    (taken : Step accounts action next) : Invariant next := by
  cases taken with
  | @other _ _ request phase active _ session _ sessions phases =>
      refine invariant.moved active (fun row member => .inl ?_)
        (fun id acts => ?_) phases
      · exact sessions ▸ member
      · rcases session id acts with kept | ⟨row, member, rfl⟩
        · exact invariant.acting request id kept
        · exact invariant.rows row member
  | @create login version verified =>
      have active : (accounts.phase login).Active := by
        rw [verified]
        trivial
      refine invariant.moved active (fun row member => ?_)
        (fun id acts => by cases acts) rfl
      rcases List.mem_cons.mp member with rfl | member
      · exact .inr ⟨rfl, rfl⟩
      · exact .inl member
  | @delete request version keep replaced =>
      have active : (accounts.phase request).Active := by
        rw [replaced]
        trivial
      refine invariant.moved active (fun row member =>
        .inl (List.mem_of_mem_filter member)) (fun id acts => ?_) rfl
      exact invariant.acting request id (by rw [replaced]; exact acts)

/-- A request that did not succeed just now had succeeded before. -/
theorem succeeded_before
    {phase : Phase ι} {other : ι} {version : Nat} {keep : Option ι}
    (unsuccessful : ∀ version keep, phase ≠ .succeeded version keep)
    (succeeded : Function.update accounts.phase request phase other =
      .succeeded version keep) :
    accounts.phase other = .succeeded version keep := by
  by_cases same : other = request
  · rw [same, Function.update_self] at succeeded
    exact absurd succeeded (unsuccessful version keep)
  · rw [Function.update_of_ne same] at succeeded
    exact succeeded

/-- A session that is created is evicted from now on, or comes in time. -/
theorem evicts_create_iff
    (invariant : Invariant accounts) (evicts : Evicts accounts) {login : ι}
    {version : Nat}
    (verified : accounts.phase login = .loginVerified version) :
    Evicts ((accounts.createSession login version).move login .ended) ↔
      InTime accounts (.advance login) := by
  constructor
  · intro evicted other_version same request newer keep succeeded
    cases verified.symm.trans same
    by_contra late
    have differ : request ≠ login := by
      rintro rfl
      rw [verified] at succeeded
      cases succeeded
    have kept : keep = some login := by
      apply evicted request newer keep _ ⟨login, version⟩ List.mem_cons_self
        (Nat.lt_of_not_le late)
      exact (Function.update_of_ne differ _ _).trans succeeded
    have ended := invariant.acting request login
      (by rw [succeeded]; exact kept)
    rw [verified] at ended
    cases ended
  · intro in_time request newer keep succeeded session member older
    have succeeded : accounts.phase request = .succeeded newer keep :=
      succeeded_before (by simp) succeeded
    rcases List.mem_cons.mp member with rfl | member
    · exact absurd (in_time version verified request newer keep succeeded)
        (Nat.not_le_of_lt older)
    · exact evicts request newer keep succeeded session member older

theorem evicts_step_iff
    (invariant : Invariant accounts) (evicts : Evicts accounts)
    {action : Action ι} (taken : Step accounts action next) :
    Evicts next ↔ InTime accounts action := by
  cases taken with
  | @other _ _ request phase _ unsuccessful _ inTime sessions phases =>
      refine iff_of_true (fun other version keep succeeded => ?_) inTime
      rw [phases] at succeeded
      rw [sessions]
      exact evicts other version keep
        (succeeded_before unsuccessful succeeded)
  | create verified => exact evicts_create_iff invariant evicts verified
  | @delete request version keep replaced =>
      refine iff_of_true (fun other newer kept succeeded => ?_)
        (fun version verified => ?_)
      · intro session member older
        obtain ⟨member, left⟩ := List.mem_filter.mp member
        by_cases same : other = request
        · subst same
          have succeeded := (Function.update_self other _ _).symm.trans
            succeeded
          cases succeeded
          exact (of_decide_eq_true left).symm
        · have succeeded := (Function.update_of_ne same _ _).symm.trans
            succeeded
          exact evicts other newer kept succeeded session member older
      · rw [replaced] at verified
        cases verified

/-- The login that would create a session too late is the one step to refuse. -/
theorem inTime_of_evicts
    (invariant : Invariant accounts) (evicts : Evicts accounts)
    {action : Action ι}
    (after : ∀ next, step verifyPassword accounts action = some next →
      Evicts next) :
    InTime accounts action := by
  cases action with
  | receive request body => trivial
  | advance login =>
      intro version verified
      have taken : step verifyPassword accounts (.advance login) =
          some ((accounts.createSession login version).move login .ended) := by
        simp only [step, verified]
      exact (evicts_create_iff invariant evicts verified).mp (after _ taken)
        version verified
  | drop request => trivial

/-- The invariant, with the eviction so far. -/
def Sound (accounts : Accounts ι) : Prop :=
  Invariant accounts ∧ Evicts accounts

/--
A changed or reset password evicts the sessions of the old one in every state
of a run exactly when every login of the run creates its session before a
request that replaced its password has succeeded.
-/
theorem evicts_iff_inTime
    (verifyPassword : Text → Text → Except Text Bool)
    (passwordHash : Option Text) (disabled : Bool)
    (actions : List (Action ι)) :
    Throughout (step verifyPassword)
        (fun accounts action => ∀ next,
          step verifyPassword accounts action = some next → Evicts next)
        (Accounts.start passwordHash disabled) actions ↔
      Throughout (step verifyPassword) InTime
        (Accounts.start passwordHash disabled) actions := by
  have started : Sound (Accounts.start passwordHash disabled :
      Accounts ι) :=
    ⟨invariant_start passwordHash disabled, fun request version keep
      succeeded => by cases succeeded⟩
  constructor
  · intro throughout
    refine throughout.imp_of_invariant ?_ ?_ started
    · rintro accounts action ⟨invariant, evicts⟩ after
      exact inTime_of_evicts invariant evicts after
    · rintro accounts action next ⟨invariant, -⟩ after taken
      exact ⟨invariant.step (step_of_some taken), after next taken⟩
  · intro throughout
    refine throughout.imp_of_invariant ?_ ?_ started
    · rintro accounts action ⟨invariant, evicts⟩ in_time next taken
      exact (evicts_step_iff invariant evicts (step_of_some taken)).mpr in_time
    · rintro accounts action next ⟨invariant, evicts⟩ in_time taken
      have stepped := step_of_some taken
      exact ⟨invariant.step stepped,
        (evicts_step_iff invariant evicts stepped).mpr in_time⟩

end Requests

/-- A password, and a hash of it. -/
def samplePassword : Text :=
  "password".toList

def sampleHash : Text :=
  "$argon2i$v=19$m=65536,t=2,p=4$c29tZXNhbHQ$RdescudvJCsgt3ub+b0dWRWJTmaaJObG".toList

/-- The hash that a reset sets. -/
def sampleNewHash : Text :=
  "$argon2i$v=19$m=65536,t=2,p=1$c29tZXNhbHQ$wWKIMhR9lyDFvRz9YTZwcHKfbftvj+qf+YFY4NeBbtA".toList

/-- `verify_password` on the sample. -/
def sampleVerify (password hash : Text) : Except Text Bool :=
  .ok (password = samplePassword ∧ hash = sampleHash)

/-- A login verifies the old hash; a reset comes in before its session. -/
def lateLogin : List (Action Bool) :=
  [.receive true (.login samplePassword), .advance true, .advance true,
    .receive false (.resetPassword sampleNewHash), .advance false,
    .advance false, .advance true]

theorem not_evicts_lateLogin :
    ¬ Throughout (step sampleVerify)
        (fun accounts action => ∀ next,
          step sampleVerify accounts action = some next → Evicts next)
        (Accounts.start (some sampleHash) false) lateLogin := by
  intro throughout
  have loaded := (throughout.2 _ rfl).2 _ rfl
  have verified := loaded.2 _ rfl
  have reset := ((verified.2 _ rfl).2 _ rfl).2 _ rfl
  have kept := reset.1 _ rfl false 1 none rfl ⟨true, 0⟩ List.mem_cons_self
    Nat.one_pos
  cases kept

end LightWaf.ControlPlane.PasswordChange
