import LightWaf.Governance.AccessControl

/-!
# What requests can do to accounts and tokens

Two results about every interleaving of requests.  As long as no request is
resolved to an administrator, the service tokens stay as they are and no
account is created, deleted, disabled, enabled, or given a role, but for the
federated accounts, which get the roles that the identity provider attests.
And whoever the requests are resolved to: an account that was deleted and a
token that was revoked never resolve a request again.
-/

namespace LightWaf.Governance.Access

open LightWaf.Rust
open LightWaf.Theory
open LightWaf.Theory.Interleaving

/-! ## Statements that every request can make -/

/-- The identity provider vouches for a user with a role. -/
def Attested (settings : Settings) (username : Text) (role : Role) : Prop :=
  ∃ code pkceVerifier nonce,
    verifyCallback settings code pkceVerifier nonce = some ⟨username, role⟩

/--
A relation that the statements of every request keep to: those on sessions
and flows, the provisioning of federated accounts, and a new password for an
account that acts.
-/
structure Closed (settings : Settings) (acts : Nat → Prop)
    (relation : Tables → Tables → Prop) : Prop where
  others : ∀ before after : Tables, after.users = before.users →
    after.tokens = before.tokens →
    after.userSequence = before.userSequence →
    (∀ session ∈ after.sessions, session ∈ before.sessions ∨
      before.hasUser session.userId = true) → relation before after
  provision : ∀ tables username role, Attested settings username role →
    relation tables (tables.upsertOidcUser username role).1
  password : ∀ tables id newHash, acts id →
    relation tables (tables.setPasswordHash id newHash)

namespace Closed

open Prog

variable {settings : Settings} {acts : Nat → Prop}
variable {relation : Tables → Tables → Prop}

theorem refl (closed : Closed settings acts relation) (tables : Tables) :
    relation tables tables :=
  closed.others _ _ rfl rfl rfl fun _ member => .inl member

theorem deleteSessions
    (closed : Closed settings acts relation) (tables : Tables)
    (gone : Session → Bool) :
    relation tables (tables.deleteSessions gone) :=
  closed.others _ _ rfl rfl rfl
    fun _ member => .inl (List.mem_of_mem_filter member)

theorem createSession
    (closed : Closed settings acts relation) (tables : Tables) (id : Text)
    (userId : Nat) (expiresAt : Int) :
    relation tables (tables.createSession id userId expiresAt) := by
  rw [Tables.createSession]
  split_ifs with accepts
  · rw [Tables.acceptsSession, Bool.and_eq_true] at accepts
    refine closed.others _ _ rfl rfl rfl fun session member => ?_
    rcases List.mem_append.mp member with present | new
    · exact .inl present
    · rw [List.mem_singleton.mp new]
      exact .inr accepts.1
  · exact closed.refl tables

theorem guarantee_openSession
    (closed : Closed settings acts relation) (sessionId : Text) (user : User)
    (status : Nat) :
    (openSession settings sessionId user status).Guarantee relation := by
  refine guarantee_exec (fun tables => closed.createSession tables _ _ _)
    fun tables => ?_
  split_ifs <;> exact guarantee_done _

theorem guarantee_login
    (closed : Closed settings acts relation)
    (username password sessionId : Text) :
    (login settings username password sessionId).Guarantee relation := by
  refine guarantee_read closed.refl fun tables => ?_
  repeat' split
  all_goals first
    | exact closed.guarantee_openSession _ _ _
    | exact guarantee_done _

theorem guarantee_provision
    (closed : Closed settings acts relation) {identity : VerifiedIdentity}
    (attested : Attested settings identity.username identity.role)
    (sessionId : Text) :
    (Access.provision settings identity sessionId).Guarantee relation := by
  refine guarantee_exec (fun tables => closed.provision tables _ _ attested)
    fun tables => ?_
  repeat' split
  all_goals first
    | exact closed.guarantee_openSession _ _ _
    | exact guarantee_done _

theorem guarantee_oidcCallback
    (closed : Closed settings acts relation)
    (error code state : Option Text) (sessionId : Text) :
    (oidcCallback settings error code state sessionId).Guarantee
      relation := by
  unfold oidcCallback
  split
  · exact guarantee_done _
  split
  · exact guarantee_done _
  · refine guarantee_exec (fun tables => closed.others _ _ rfl rfl rfl
      fun _ member => .inl member) fun tables => ?_
    split
    · exact guarantee_done _
    split
    · exact guarantee_done _
    · rename_i identity verified
      exact closed.guarantee_provision ⟨_, _, _, verified⟩ sessionId
  · exact guarantee_done _

theorem guarantee_oidcLogin
    (closed : Closed settings acts relation)
    (state pkceVerifier nonce : Text) :
    (oidcLogin settings state pkceVerifier nonce).Guarantee relation := by
  rw [oidcLogin]
  split
  · exact guarantee_done _
  · refine guarantee_exec (fun tables => ?_) fun _ => guarantee_done _
    rw [Tables.putOidcFlow]
    split
    · exact closed.refl tables
    · exact closed.others _ _ rfl rfl rfl fun _ member => .inl member

theorem guarantee_publicHandler
    (closed : Closed settings acts relation) (call : PublicCall) :
    (publicHandler settings call).Guarantee relation := by
  cases call with
  | login username password sessionId =>
      exact closed.guarantee_login username password sessionId
  | oidcLogin state pkceVerifier nonce =>
      exact closed.guarantee_oidcLogin state pkceVerifier nonce
  | oidcCallback error code state sessionId =>
      exact closed.guarantee_oidcCallback error code state sessionId

theorem guarantee_logout
    (closed : Closed settings acts relation) (headers : Headers) :
    (logout headers).Guarantee relation := by
  rw [logout]
  split
  · exact guarantee_exec (fun tables => closed.deleteSessions tables _)
      fun _ => guarantee_done _
  · exact guarantee_done _

theorem guarantee_revokeSession
    (closed : Closed settings acts relation) (principal : Principal)
    (id : Text) : (revokeSession principal id).Guarantee relation := by
  rw [revokeSession]
  split
  · exact guarantee_done _
  · refine guarantee_read closed.refl fun tables => ?_
    split
    · exact guarantee_exec (fun tables => closed.deleteSessions tables _)
        fun _ => guarantee_done _
    · exact guarantee_done _

theorem guarantee_changePassword
    (closed : Closed settings acts relation) {principal : Principal}
    (own : ∀ id, principal.userId = some id → acts id)
    (oldPassword newHash : Text) :
    (changePassword settings principal oldPassword newHash).Guarantee
      relation := by
  rw [changePassword]
  split
  · rename_i userId sessionId user session
    refine guarantee_read closed.refl fun tables => ?_
    repeat' split
    all_goals first
      | exact guarantee_done _
      | refine guarantee_exec (fun tables =>
          closed.password tables _ newHash (own _ user)) fun _ => ?_
        exact guarantee_exec (fun tables => closed.deleteSessions tables _)
          fun _ => guarantee_done _
  · exact guarantee_done _

end Closed

/-! ## What a step does -/

section Step

variable {ι : Type} [DecidableEq ι] {settings : Settings}

/-- The rest of a request keeps to a relation. -/
def Phase.Guarantees (relation : Tables → Tables → Prop) : Phase → Prop
  | .admitted _ rest | .loggingIn rest => rest.Guarantee relation
  | _ => True

/-- All requests in flight keep to a relation. -/
def System.Guarantees (relation : Tables → Tables → Prop)
    (system : System ι) : Prop :=
  ∀ request, (system.phase request).Guarantees relation

/-- Every principal that a step resolves is let in only to what keeps to a relation. -/
def Admits (settings : Settings) (relation : Tables → Tables → Prop)
    (system : System ι) : Action ι → Prop
  | .advance request fails =>
      ∀ principal,
        resolved settings system.tables fails (system.phase request) =
          some principal →
        ∀ headers call, principal.role.allows call.permission = true →
          (handler settings principal headers call).Guarantee relation
  | _ => True

variable {relation : Tables → Tables → Prop} {system next : System ι}

theorem System.Guarantees.move
    (guarantees : system.Guarantees relation) (request : ι) {phase : Phase}
    (kept : phase.Guarantees relation) :
    (system.move request phase).Guarantees relation := by
  intro other
  show (Function.update system.phase request phase other).Guarantees relation
  by_cases same : other = request
  · subst same
    rw [Function.update_self]
    exact kept
  · rw [Function.update_of_ne same]
    exact guarantees other

theorem guarantees_permit
    {principal : Option Principal} (headers : Headers) (call : Call)
    (admits : ∀ found, principal = some found →
      found.role.allows call.permission = true →
      (handler settings found headers call).Guarantee relation) :
    (permit settings headers call principal).Guarantees relation := by
  cases principal with
  | none => trivial
  | some principal =>
      rw [permit]
      split_ifs with allowed
      · exact admits principal rfl allowed
      · trivial

theorem System.Guarantees.execute
    (refl : ∀ tables, relation tables tables)
    (guarantees : system.Guarantees relation)
    {request : ι} {rest : Handler} {fails : Bool} {goOn : Handler → Phase}
    (kept : rest.Guarantee relation)
    (goesOn : ∀ rest, (goOn rest).Guarantees relation = rest.Guarantee relation)
    (taken : system.execute request rest fails goOn = some next) :
    relation system.tables next.tables ∧ next.Guarantees relation := by
  cases rest with
  | done status =>
      cases taken
      exact ⟨refl _, guarantees.move request trivial⟩
  | exec effect next =>
      rw [System.execute] at taken
      split_ifs at taken
      · cases taken
        exact ⟨refl _, guarantees.move request trivial⟩
      · cases taken
        obtain ⟨changed, later⟩ := kept system.tables
        refine ⟨changed, System.Guarantees.move guarantees request ?_⟩
        rw [goesOn]
        exact later

/--
A step changes the tables within a relation, if all requests in flight keep to
it and everybody who is let in does.
-/
theorem System.Guarantees.step
    {acts : Nat → Prop} (closed : Closed settings acts relation)
    (guarantees : system.Guarantees relation) {action : Action ι}
    (admits : Admits settings relation system action)
    (taken : system.step settings action = some next) :
    relation system.tables next.tables ∧ next.Guarantees relation := by
  cases action with
  | receive request headers call =>
      rw [System.step] at taken
      split at taken <;> cases taken
      exact ⟨closed.refl _, guarantees.move request trivial⟩
  | receivePublic request call =>
      rw [System.step] at taken
      split at taken <;> cases taken
      exact ⟨closed.refl _, guarantees.move request
        (closed.guarantee_publicHandler call)⟩
  | drop request =>
      cases taken
      exact ⟨closed.refl _, guarantees.move request trivial⟩
  | pass seconds =>
      cases taken
      exact ⟨closed.others _ _ rfl rfl rfl fun _ member => .inl member,
        guarantees⟩
  | advance request fails =>
      have here := guarantees request
      rw [System.step] at taken
      split at taken
      · rename_i headers call arrived
        rw [Admits, arrived] at admits
        split at taken <;> cases taken
        · exact ⟨closed.refl _, guarantees.move request trivial⟩
        · rename_i principal found
          refine ⟨closed.refl _, guarantees.move request
            (guarantees_permit headers call ?_)⟩
          rintro _ ⟨⟩ allowed
          exact admits principal found headers call allowed
      · rename_i headers call arrived
        rw [Admits, arrived] at admits
        cases taken
        exact ⟨closed.refl _, guarantees.move request
          (guarantees_permit headers call fun principal found allowed =>
            admits principal found headers call allowed)⟩
      · rename_i principal rest admitted
        rw [admitted] at here
        exact guarantees.execute closed.refl here (fun _ => rfl) taken
      · rename_i rest loggingIn
        rw [loggingIn] at here
        exact guarantees.execute closed.refl here (fun _ => rfl) taken
      · cases taken

end Step

/-! ## Without an administrator -/

section Unprivileged

variable (settings : Settings) (acts : Nat → Prop)

/--
What can become of a row: the role of a federated account is replaced by an
attested one, and who acts for an account can replace its password.
-/
structure Descends (old row : User) : Prop where
  id : row.id = old.id
  username : row.username = old.username
  disabled : row.disabled = old.disabled
  source : row.authSource = .oidc → old.authSource = .oidc
  role : row.role = old.role ∨
    old.authSource = .oidc ∧ Attested settings row.username row.role
  password : row.passwordHash = old.passwordHash ∨ acts old.id

/-- A federated account that was created since. -/
structure Provisioned (tables : Tables) (row : User) : Prop where
  later : tables.userSequence ≤ row.id
  enabled : row.disabled = false
  role : Attested settings row.username row.role
  password : row.passwordHash = none ∨ acts row.id

/-- What requests can do that no administrator has made. -/
structure Unprivileged (before after : Tables) : Prop where
  tokens : after.tokens = before.tokens
  sequence : before.userSequence ≤ after.userSequence
  kept : ∀ old ∈ before.users, ∃ row ∈ after.users,
    Descends settings acts old row
  users : ∀ row ∈ after.users,
    (∃ old ∈ before.users, Descends settings acts old row) ∨
      Provisioned settings acts before row

variable {settings acts}

theorem Descends.refl (row : User) : Descends settings acts row row :=
  ⟨rfl, rfl, rfl, fun federated => federated, .inl rfl, .inl rfl⟩

theorem Descends.trans
    {first second third : User} (before : Descends settings acts first second)
    (after : Descends settings acts second third) :
    Descends settings acts first third where
  id := after.id.trans before.id
  username := after.username.trans before.username
  disabled := after.disabled.trans before.disabled
  source := fun federated => before.source (after.source federated)
  role := by
    rcases after.role with same | ⟨federated, attested⟩
    · rcases before.role with kept | ⟨federated, attested⟩
      · exact .inl (same.trans kept)
      · refine .inr ⟨federated, ?_⟩
        rw [after.username, same]
        exact attested
    · exact .inr ⟨before.source federated, attested⟩
  password := by
    rcases after.password with same | own
    · rcases before.password with kept | own
      · exact .inl (same.trans kept)
      · exact .inr own
    · exact .inr (before.id ▸ own)

theorem Provisioned.descends
    {tables : Tables} {old row : User}
    (provisioned : Provisioned settings acts tables old)
    (descends : Descends settings acts old row) :
    Provisioned settings acts tables row where
  later := provisioned.later.trans_eq descends.id.symm
  enabled := descends.disabled.trans provisioned.enabled
  role := by
    rcases descends.role with same | ⟨-, attested⟩
    · rw [descends.username, same]
      exact provisioned.role
    · exact attested
  password := by
    rcases descends.password with same | own
    · rcases provisioned.password with none | own
      · exact .inl (same.trans none)
      · exact .inr (descends.id ▸ own)
    · exact .inr (descends.id ▸ own)

namespace Unprivileged

variable {before middle after : Tables}

theorem refl (tables : Tables) : Unprivileged settings acts tables tables :=
  ⟨rfl, le_rfl, fun old member => ⟨old, member, .refl old⟩,
    fun row member => .inl ⟨row, member, .refl row⟩⟩

theorem trans
    (first : Unprivileged settings acts before middle)
    (second : Unprivileged settings acts middle after) :
    Unprivileged settings acts before after where
  tokens := second.tokens.trans first.tokens
  sequence := first.sequence.trans second.sequence
  kept := by
    intro old member
    obtain ⟨between, found, descends⟩ := first.kept old member
    obtain ⟨row, present, later⟩ := second.kept between found
    exact ⟨row, present, descends.trans later⟩
  users := by
    intro row member
    rcases second.users row member with
      ⟨between, found, descends⟩ | provisioned
    · rcases first.users between found with
        ⟨old, present, earlier⟩ | provisioned
      · exact .inl ⟨old, present, earlier.trans descends⟩
      · exact .inr (provisioned.descends descends)
    · exact .inr { provisioned with
        later := first.sequence.trans provisioned.later }

/-- Rows that only change in the ways allowed. -/
theorem of_map
    {change : User → User} (descends : ∀ user, Descends settings acts user
      (change user))
    (users : after.users = before.users.map change)
    (tokens : after.tokens = before.tokens)
    (sequence : before.userSequence ≤ after.userSequence) :
    Unprivileged settings acts before after where
  tokens := tokens
  sequence := sequence
  kept := fun old member =>
    ⟨change old, users ▸ List.mem_map_of_mem member, descends old⟩
  users := by
    intro row member
    rw [users] at member
    obtain ⟨old, present, rfl⟩ := List.mem_map.mp member
    exact .inl ⟨old, present, descends old⟩

/-- Statements on other tables. -/
theorem of_users_eq
    (users : after.users = before.users) (tokens : after.tokens = before.tokens)
    (sequence : after.userSequence = before.userSequence) :
    Unprivileged settings acts before after :=
  of_map Descends.refl (users.trans (List.map_id _).symm) tokens
    sequence.symm.le

end Unprivileged

theorem unprivileged_setPasswordHash
    {id : Nat} (own : acts id) (tables : Tables) (newHash : Text) :
    Unprivileged settings acts tables (tables.setPasswordHash id newHash) := by
  refine .of_map (fun user => ?_) rfl rfl le_rfl
  split_ifs with same
  · exact ⟨rfl, rfl, rfl, nofun, .inl rfl, .inr (same ▸ own)⟩
  · exact .refl user

theorem unprivileged_upsertOidcUser
    {username : Text} {role : Role} (attested : Attested settings username role)
    (tables : Tables) :
    Unprivileged settings acts tables
      (tables.upsertOidcUser username role).1 := by
  rw [Tables.upsertOidcUser]
  split
  · refine ⟨rfl, Nat.le_succ _, fun old member => ?_, fun row member => ?_⟩
    · exact ⟨old, List.mem_append_left _ member, .refl old⟩
    · rcases List.mem_append.mp member with present | new
      · exact .inl ⟨row, present, .refl row⟩
      · rw [List.mem_singleton.mp new]
        exact .inr ⟨le_rfl, rfl, attested, .inl rfl⟩
  · split
    · refine .of_map (fun user => ?_) rfl rfl (Nat.le_succ _)
      split_ifs with federated
      · obtain ⟨named, federated⟩ := federated
        exact ⟨rfl, rfl, rfl, fun _ => federated,
          .inr ⟨federated, named ▸ attested⟩, .inl rfl⟩
      · exact .refl user
    · exact .of_map .refl (List.map_id _).symm rfl (Nat.le_succ _)

theorem closed_unprivileged :
    Closed settings acts (Unprivileged settings acts) where
  others := fun _ _ users tokens sequence _ =>
    .of_users_eq users tokens sequence
  provision := fun tables _ _ attested =>
    unprivileged_upsertOidcUser attested tables
  password := fun tables _ newHash own =>
    unprivileged_setPasswordHash own tables newHash

/-- What a principal below an administrator is admitted to. -/
theorem guarantee_handler
    {principal : Principal} {call : Call}
    (below : principal.role ≠ .admin)
    (own : ∀ id, principal.userId = some id → acts id)
    (allowed : principal.role.allows call.permission = true)
    (headers : Headers) :
    (handler settings principal headers call).Guarantee
      (Unprivileged settings acts) := by
  cases call with
  | logout => exact closed_unprivileged.guarantee_logout headers
  | revokeSession id =>
      exact closed_unprivileged.guarantee_revokeSession principal id
  | changePassword oldPassword newHash =>
      exact closed_unprivileged.guarantee_changePassword own oldPassword
        newHash
  | other permission => exact Prog.guarantee_done _
  | createUser | updateUser | deleteUser | revokeUserSessions
  | resetPassword | createToken | revokeToken =>
      exact absurd (of_decide_eq_true allowed) below

/-! ## Runs -/

section Runs

variable {ι : Type} [DecidableEq ι]

/-- Nobody is resolved to an administrator, and only some accounts act. -/
def WithoutAdmin (settings : Settings) (acts : Nat → Prop)
    (system : System ι) : Action ι → Prop
  | .advance request fails =>
      ∀ principal,
        resolved settings system.tables fails (system.phase request) =
          some principal →
        principal.role ≠ .admin ∧
          ∀ id, principal.userId = some id → acts id
  | _ => True

omit [DecidableEq ι] in
theorem admits_of_withoutAdmin
    {system : System ι} {action : Action ι}
    (without : WithoutAdmin settings acts system action) :
    Admits settings (Unprivileged settings acts) system action := by
  cases action with
  | advance request fails =>
      intro principal found headers call allowed
      obtain ⟨below, own⟩ := without principal found
      exact guarantee_handler below own allowed headers
  | receive | receivePublic | drop | pass => trivial

/--
In every interleaving of requests of which none is resolved to an
administrator, the tokens stay as they are and every account stays with its
name, its role and its being enabled.  New are federated accounts only, roles
change only for those, to what the identity provider attests, and passwords
only of accounts that act themselves.
-/
theorem unprivileged_of_run
    {tables : Tables} {actions : List (Action ι)} {final : System ι}
    (without : Machine.Throughout (System.step settings)
      (WithoutAdmin settings acts) (System.start tables) actions)
    (ran : actions.foldlM (System.step settings) (System.start tables) =
      some final) :
    Unprivileged settings acts tables final.tables := by
  have reached : Unprivileged settings acts tables final.tables ∧
      final.Guarantees (Unprivileged settings acts) :=
    @Machine.Throughout.invariant_of_run _ _ (System.step settings) _
      (fun system => Unprivileged settings acts tables system.tables ∧
        system.Guarantees (Unprivileged settings acts)) _ _ _ without
      (fun system action next ⟨since, guarantees⟩ held taken => by
        obtain ⟨changed, kept⟩ := guarantees.step closed_unprivileged
          (admits_of_withoutAdmin held) taken
        exact ⟨since.trans changed, kept⟩)
      ⟨.refl tables, fun _ => trivial⟩ ran
  exact reached.1

end Runs

end Unprivileged

/-- The step that resolves a request by its session. -/
theorem step_arrived
    {ι : Type} [DecidableEq ι] {settings : Settings} {system : System ι}
    {request : ι} {headers : Headers} {call : Call} {principal : Principal}
    (arrived : system.phase request = .arrived headers call)
    (found : resolveSession system.tables headers = some principal) :
    system.step settings (.advance request false) =
      some (system.move request
        (permit settings headers call (some principal))) := by
  have resolves : resolved settings system.tables false
      (.arrived headers call) = some principal := found
  rw [System.step, arrived]
  simp only [resolves]

/-- Passwords are their own hashes, and nobody is vouched for. -/
def plainSettings : Settings where
  apiToken := none
  sessionTtl := 60
  verifyPassword := fun password hash => .ok (password = hash)
  hashToken := fun token => token
  oidc := false
  exchange := fun _ _ _ => .error []
  roleMap := []
  defaultRole := none

/-- A viewer, a deleted account and a revoked token. -/
def oneViewer : Tables where
  users := [⟨1, ['e'], some ['p'], .viewer, false, .password⟩]
  userSequence := 2
  sessions := []
  tokens := [⟨0, ['t'], ['h'], .operator, true⟩]
  tokenSequence := 1
  flows := []
  now := 0

def viewerHeaders : Headers :=
  ⟨some ['w', 'a', 'f', '_', 'c', 'p', '_', 's', 'e', 's', 's', 'i', 'o',
    'n', '=', 's'], none⟩

theorem sessionIdFromCookies_viewerHeaders :
    sessionIdFromCookies viewerHeaders = some ['s'] := by
  unfold sessionIdFromCookies viewerHeaders
  simp only [String.reduceToList]
  rfl

/-- The viewer logs in, and asks for a new password. -/
def passwordAsked : List (Action Bool) :=
  [.receivePublic false (.login ['e'] ['p'] ['s']), .advance false false,
    .advance false false,
    .receive true viewerHeaders (.changePassword ['p'] ['q'])]

/-- The request is resolved, and carried through. -/
def passwordChanged : List (Action Bool) :=
  passwordAsked ++ List.replicate 4 (.advance true false)

theorem resolveSession_viewerHeaders :
    resolveSession { oneViewer with sessions := [⟨['s'], 1, 60⟩] }
        viewerHeaders =
      some ⟨['e'], .viewer, .session, some 1, some ['s']⟩ := by
  rw [resolveSession, sessionIdFromCookies_viewerHeaders]
  rfl

theorem withoutAdmin_passwordChanged :
    Machine.Throughout (System.step plainSettings)
      (WithoutAdmin plainSettings (· = 1)) (System.start oneViewer)
      passwordChanged := by
  refine .cons trivial rfl (.cons nofun rfl (.cons nofun rfl
    (.cons trivial rfl (.cons ?_ (step_arrived rfl
      resolveSession_viewerHeaders) (.cons nofun rfl (.cons nofun rfl
        (.cons nofun rfl trivial)))))))
  intro principal found
  cases resolveSession_viewerHeaders.symm.trans found
  exact ⟨nofun, fun id own => (Option.some.inj own).symm⟩

theorem unprivileged_of_run_passwordChanged :
    ∃ final, passwordChanged.foldlM (System.step plainSettings)
        (System.start oneViewer) = some final ∧
      Unprivileged plainSettings (· = 1) oneViewer final.tables := by
  obtain ⟨asked, begun, arrived, tables⟩ :
      ∃ asked, passwordAsked.foldlM (System.step plainSettings)
          (System.start oneViewer) = some asked ∧
        asked.phase true =
          .arrived viewerHeaders (.changePassword ['p'] ['q']) ∧
        asked.tables = { oneViewer with sessions := [⟨['s'], 1, 60⟩] } :=
    ⟨_, rfl, rfl, rfl⟩
  have found := resolveSession_viewerHeaders
  rw [← tables] at found
  have resolves := @step_arrived _ _ plainSettings _ _ _ _ _ arrived found
  obtain ⟨final, carried⟩ : ∃ final,
      (List.replicate 3 (Action.advance true false)).foldlM
        (System.step plainSettings)
        (asked.move true (permit plainSettings viewerHeaders
          (.changePassword ['p'] ['q'])
          (some ⟨['e'], .viewer, .session, some 1, some ['s']⟩))) =
        some final := by
    obtain ⟨_, phases⟩ := asked
    cases tables
    exact ⟨_, rfl⟩
  have ran : passwordChanged.foldlM (System.step plainSettings)
      (System.start oneViewer) = some final := by
    rw [passwordChanged, List.foldlM_append, begun, Option.bind_eq_bind,
      Option.bind_some, List.replicate_succ, List.foldlM_cons, resolves]
    exact carried
  exact ⟨final, ran, unprivileged_of_run withoutAdmin_passwordChanged ran⟩

/-! ## For good -/

/--
What every statement keeps: ids of accounts are not used again, tokens stay
under their names and stay revoked, no two tokens share a name, and every
session belongs to an account.
-/
structure Stable (before after : Tables) : Prop where
  sequence : before.userSequence ≤ after.userSequence
  users : ∀ row ∈ after.users, before.hasUser row.id = true ∨
    before.userSequence ≤ row.id ∧ row.id < after.userSequence
  tokens : ∀ token ∈ before.tokens, ∃ later ∈ after.tokens,
    later.name = token.name ∧ (token.revoked = true → later.revoked = true)
  names : (before.tokens.map Token.name).Nodup →
    (after.tokens.map Token.name).Nodup
  sessions :
    (∀ session ∈ before.sessions, before.hasUser session.userId = true) →
      ∀ session ∈ after.sessions, after.hasUser session.userId = true

theorem hasUser_eq_true {tables : Tables} {id : Nat} :
    tables.hasUser id = true ↔ ∃ user ∈ tables.users, user.id = id := by
  simp [Tables.hasUser]

theorem hasUser_of_mem {tables : Tables} {user : User}
    (member : user ∈ tables.users) : tables.hasUser user.id = true :=
  hasUser_eq_true.mpr ⟨user, member, rfl⟩

namespace Stable

variable {before middle after : Tables}

/-- Statements on sessions and on flows. -/
theorem of_eq
    (users : after.users = before.users) (tokens : after.tokens = before.tokens)
    (sequence : after.userSequence = before.userSequence)
    (sessions : ∀ session ∈ after.sessions, session ∈ before.sessions ∨
      before.hasUser session.userId = true) :
    Stable before after where
  sequence := sequence.symm.le
  users := fun row member => .inl (hasUser_of_mem (users ▸ member))
  tokens := fun token member =>
    ⟨token, tokens ▸ member, rfl, fun revoked => revoked⟩
  names := fun nodup => tokens ▸ nodup
  sessions := by
    intro owned session member
    have same : after.hasUser session.userId =
        before.hasUser session.userId := by
      rw [Tables.hasUser, users]
      rfl
    rw [same]
    rcases sessions session member with old | new
    · exact owned session old
    · exact new

theorem refl (tables : Tables) : Stable tables tables :=
  of_eq rfl rfl rfl fun _ member => .inl member

theorem trans (first : Stable before middle) (second : Stable middle after) :
    Stable before after where
  sequence := first.sequence.trans second.sequence
  users := by
    intro row member
    rcases second.users row member with found | ⟨low, high⟩
    · obtain ⟨between, present, same⟩ := hasUser_eq_true.mp found
      rw [← same]
      rcases first.users between present with older | ⟨low, high⟩
      · exact .inl older
      · exact .inr ⟨low, high.trans_le second.sequence⟩
    · exact .inr ⟨first.sequence.trans low, high⟩
  tokens := by
    intro token member
    obtain ⟨between, present, named, revoked⟩ := first.tokens token member
    obtain ⟨later, found, alike, still⟩ := second.tokens between present
    exact ⟨later, found, alike.trans named, fun gone => still (revoked gone)⟩
  names := fun nodup => second.names (first.names nodup)
  sessions := fun owned => second.sessions (first.sessions owned)

/-- Statements on accounts that keep the tokens. -/
theorem of_users
    (sequence : before.userSequence ≤ after.userSequence)
    (users : ∀ row ∈ after.users, before.hasUser row.id = true ∨
      before.userSequence ≤ row.id ∧ row.id < after.userSequence)
    (tokens : after.tokens = before.tokens)
    (sessions : ∀ session ∈ after.sessions, session ∈ before.sessions ∧
      (before.hasUser session.userId = true →
        after.hasUser session.userId = true)) :
    Stable before after where
  sequence := sequence
  users := users
  tokens := fun token member =>
    ⟨token, tokens ▸ member, rfl, fun revoked => revoked⟩
  names := fun nodup => tokens ▸ nodup
  sessions := fun owned session member =>
    (sessions session member).2 (owned session (sessions session member).1)

end Stable

theorem stable_updateUser
    (tables : Tables) (id : Nat) {change : User → User}
    (keeps : ∀ user, (change user).id = user.id) :
    Stable tables (tables.updateUser id change) := by
  have ids : ∀ user : User,
      (if user.id = id then change user else user).id = user.id := by
    intro user
    split_ifs
    · exact keeps user
    · rfl
  refine .of_users le_rfl (fun row member => .inl ?_) rfl
    fun session member => ⟨member, fun found => ?_⟩
  · obtain ⟨user, present, rfl⟩ := List.mem_map.mp member
    rw [ids]
    exact hasUser_of_mem present
  · obtain ⟨user, present, same⟩ := hasUser_eq_true.mp found
    exact hasUser_eq_true.mpr
      ⟨_, List.mem_map_of_mem present, (ids user).trans same⟩

/-- A row that is appended under the next id. -/
theorem stable_appendUser
    (tables : Tables) {user : User} (fresh : user.id = tables.userSequence) :
    Stable tables { tables with
      users := tables.users ++ [user]
      userSequence := tables.userSequence + 1 } := by
  refine .of_users (Nat.le_succ _) (fun row member => ?_) rfl
    fun session member => ⟨member, fun found => ?_⟩
  · rcases List.mem_append.mp member with present | new
    · exact .inl (hasUser_of_mem present)
    · rw [List.mem_singleton.mp new, fresh]
      exact .inr ⟨le_rfl, Nat.lt_succ_self _⟩
  · obtain ⟨old, present, same⟩ := hasUser_eq_true.mp found
    exact hasUser_eq_true.mpr ⟨old, List.mem_append_left _ present, same⟩

/-- An id that is used up. -/
theorem stable_skipUser (tables : Tables) :
    Stable tables { tables with userSequence := tables.userSequence + 1 } :=
  .of_users (Nat.le_succ _) (fun _ member => .inl (hasUser_of_mem member)) rfl
    fun _ member => ⟨member, fun found => found⟩

theorem stable_createUser
    (tables : Tables) (username passwordHash : Text) (role : Role) :
    Stable tables (tables.createUser username passwordHash role) := by
  rw [Tables.createUser]
  split_ifs
  · exact stable_skipUser tables
  · exact stable_appendUser tables rfl

theorem stable_deleteUser (tables : Tables) (id : Nat) :
    Stable tables (tables.deleteUser id) := by
  refine .of_users le_rfl (fun row member => ?_) rfl
    fun session member => ?_
  · exact .inl (hasUser_of_mem (List.mem_of_mem_filter member))
  · obtain ⟨present, other⟩ := List.mem_filter.mp member
    refine ⟨present, fun found => ?_⟩
    obtain ⟨user, known, same⟩ := hasUser_eq_true.mp found
    refine hasUser_eq_true.mpr ⟨user, List.mem_filter.mpr ⟨known, ?_⟩, same⟩
    rw [same]
    exact other

theorem stable_upsertOidcUser
    (tables : Tables) (username : Text) (role : Role) :
    Stable tables (tables.upsertOidcUser username role).1 := by
  rw [Tables.upsertOidcUser]
  split
  · exact stable_appendUser tables rfl
  · split
    · have ids : ∀ user : User,
          (if user.username = username ∧ user.authSource = .oidc then
            { user with role := role } else user).id = user.id := by
        intro user
        split_ifs <;> rfl
      refine .of_users (Nat.le_succ _) (fun row member => .inl ?_) rfl
        fun session member => ⟨member, fun found => ?_⟩
      · obtain ⟨user, present, rfl⟩ := List.mem_map.mp member
        rw [ids]
        exact hasUser_of_mem present
      · obtain ⟨user, present, same⟩ := hasUser_eq_true.mp found
        exact hasUser_eq_true.mpr
          ⟨_, List.mem_map_of_mem present, (ids user).trans same⟩
    · exact stable_skipUser tables

theorem stable_createToken
    (tables : Tables) (name tokenHash : Text) (role : Role) :
    Stable tables (tables.createToken name tokenHash role) := by
  rw [Tables.createToken]
  split_ifs with taken
  · exact .of_eq rfl rfl rfl fun _ member => .inl member
  · refine ⟨le_rfl, fun row member => .inl (hasUser_of_mem member),
      fun token member => ?_, fun nodup => ?_, fun owned => owned⟩
    · exact ⟨token, List.mem_append_left _ member, rfl, fun revoked => revoked⟩
    · rw [List.map_append, List.nodup_append]
      refine ⟨nodup, List.nodup_singleton _, ?_⟩
      intro first member second other same
      rw [List.map_singleton, List.mem_singleton] at other
      obtain ⟨token, present, named⟩ := List.mem_map.mp member
      refine taken (List.any_eq_true.mpr ⟨token, present, ?_⟩)
      rw [decide_eq_true_eq, named, same, other]

theorem stable_revokeToken (tables : Tables) (id : Nat) :
    Stable tables (tables.revokeToken id) := by
  have named : ∀ token : Token,
      (if token.id = id then { token with revoked := true }
        else token).name = token.name := by
    intro token
    split_ifs <;> rfl
  refine ⟨le_rfl, fun row member => .inl (hasUser_of_mem member),
    fun token member => ?_, fun nodup => ?_, fun owned => owned⟩
  · refine ⟨_, List.mem_map_of_mem member, named token, fun revoked => ?_⟩
    split_ifs
    · rfl
    · exact revoked
  · have names : (tables.revokeToken id).tokens.map Token.name =
        tables.tokens.map Token.name := by
      rw [Tables.revokeToken, List.map_map]
      exact List.map_congr_left fun token _ => named token
    rw [names]
    exact nodup

/-! ## Every handler -/

section Handlers

open Prog

variable (settings : Settings)

theorem closed_stable : Closed settings (fun _ => True) Stable where
  others := fun _ _ users tokens sequence sessions =>
    .of_eq users tokens sequence sessions
  provision := fun tables username role _ =>
    stable_upsertOidcUser tables username role
  password := fun tables id _ _ => stable_updateUser tables id fun _ => rfl

theorem stable_deleteSessions (tables : Tables) (gone : Session → Bool) :
    Stable tables (tables.deleteSessions gone) :=
  .of_eq rfl rfl rfl fun _ member => .inl (List.mem_of_mem_filter member)

theorem stable_updatedUser (id : Nat) (disabled : Option Bool)
    (changed : Bool) : (updatedUser id disabled changed).Guarantee Stable := by
  rw [updatedUser]
  split_ifs
  · exact guarantee_done _
  · exact guarantee_exec (fun tables => stable_deleteSessions tables _)
      fun _ => guarantee_done _
  · exact guarantee_done _

theorem stable_updateDisabled (id : Nat) (disabled : Option Bool)
    (changed : Bool) :
    (updateDisabled id disabled changed).Guarantee Stable := by
  cases disabled with
  | none => exact stable_updatedUser id none changed
  | some value =>
      exact guarantee_exec
        (fun tables => stable_updateUser tables id fun _ => rfl)
        fun _ => stable_updatedUser id _ _

theorem stable_handler
    (principal : Principal) (headers : Headers) (call : Call) :
    (handler settings principal headers call).Guarantee Stable := by
  cases call with
  | logout => exact (closed_stable settings).guarantee_logout headers
  | revokeSession id =>
      exact (closed_stable settings).guarantee_revokeSession principal id
  | changePassword oldPassword newHash =>
      exact (closed_stable settings).guarantee_changePassword
        (fun _ _ => trivial) oldPassword newHash
  | createUser username passwordHash role =>
      refine guarantee_exec (fun tables => stable_createUser tables _ _ _)
        fun tables => ?_
      split_ifs <;> exact guarantee_done _
  | updateUser id role disabled =>
      cases role with
      | none => exact stable_updateDisabled id disabled false
      | some value =>
          exact guarantee_exec
            (fun tables => stable_updateUser tables id fun _ => rfl)
            fun _ => stable_updateDisabled id disabled _
  | deleteUser id =>
      refine guarantee_exec (fun tables => stable_deleteUser tables id)
        fun tables => ?_
      split_ifs <;> exact guarantee_done _
  | revokeUserSessions userId =>
      exact guarantee_exec (fun tables => stable_deleteSessions tables _)
        fun _ => guarantee_done _
  | resetPassword id newHash =>
      refine guarantee_exec
        (fun tables => stable_updateUser tables id fun _ => rfl)
        fun tables => ?_
      split_ifs
      · exact guarantee_exec (fun tables => stable_deleteSessions tables _)
          fun _ => guarantee_done _
      · exact guarantee_done _
  | createToken name tokenHash role =>
      refine guarantee_exec (fun tables => stable_createToken tables _ _ _)
        fun tables => ?_
      split_ifs <;> exact guarantee_done _
  | revokeToken id =>
      refine guarantee_exec (fun tables => stable_revokeToken tables id)
        fun tables => ?_
      split_ifs <;> exact guarantee_done _
  | other permission => exact guarantee_done _

end Handlers

/-- A run keeps to what every statement does. -/
theorem stable_of_run
    {ι : Type} [DecidableEq ι] {settings : Settings} {system final : System ι}
    {actions : List (Action ι)} (guarantees : system.Guarantees Stable)
    (ran : actions.foldlM (System.step settings) system = some final) :
    Stable system.tables final.tables ∧ final.Guarantees Stable :=
  @Machine.invariant_of_run _ _ (System.step settings)
    (fun reached => Stable system.tables reached.tables ∧
      reached.Guarantees Stable)
    (fun reached action next ⟨since, guarantees⟩ taken => by
      have admits : Admits settings Stable reached action := by
        cases action with
        | advance request fails =>
            exact fun principal _ headers call _ =>
              stable_handler settings principal headers call
        | receive | receivePublic | drop | pass => trivial
      obtain ⟨changed, kept⟩ := guarantees.step (closed_stable settings)
        admits taken
      exact ⟨since.trans changed, kept⟩)
    _ _ _ ⟨.refl _, guarantees⟩ ran

/--
Whatever requests are made by whom and in whatever order: a request is never
again attributed to a token that was revoked, nor to an account that was
deleted.
-/
theorem never_resolved_again
    {ι : Type} [DecidableEq ι] {settings : Settings} {tables : Tables}
    (names : (tables.tokens.map Token.name).Nodup)
    {earlier later : List (Action ι)} {middle final : System ι}
    (before : earlier.foldlM (System.step settings) (System.start tables) =
      some middle)
    (after : later.foldlM (System.step settings) middle = some final)
    (headers : Headers) :
    (∀ token ∈ middle.tables.tokens, token.revoked = true →
      ∀ principal, resolveToken settings final.tables headers =
        some principal → principal.actor ≠ token.name) ∧
      ∀ id < middle.tables.userSequence, middle.tables.hasUser id = false →
        ∀ principal, resolveSession final.tables headers = some principal →
          principal.userId ≠ some id := by
  have idle : (System.start tables : System ι).Guarantees Stable :=
    fun _ => trivial
  obtain ⟨since, guarantees⟩ := stable_of_run idle before
  obtain ⟨lasting, -⟩ := stable_of_run guarantees after
  constructor
  · intro token member revoked principal resolves same
    obtain ⟨later, present, named, gone⟩ := lasting.tokens token member
    rw [resolveToken, Option.bind_eq_bind, Option.bind_eq_some_iff] at resolves
    obtain ⟨presented, -, resolves⟩ := resolves
    rw [Option.bind_eq_bind, Option.bind_eq_some_iff] at resolves
    obtain ⟨active, found, resolves⟩ := resolves
    cases resolves
    have matched := List.find?_some found
    rw [decide_eq_true_eq] at matched
    have unique := lasting.names (since.names names)
    have equal : active = later :=
      List.inj_on_of_nodup_map unique (List.mem_of_find?_eq_some found) present
        (same.trans named.symm)
    exact matched.2 (equal ▸ gone revoked)
  · intro id used deleted principal resolves same
    rw [resolveSession, Option.bind_eq_bind,
      Option.bind_eq_some_iff] at resolves
    obtain ⟨sessionId, -, resolves⟩ := resolves
    rw [Option.bind_eq_bind, Option.bind_eq_some_iff] at resolves
    obtain ⟨⟨session, user⟩, found, resolves⟩ := resolves
    dsimp only at resolves
    split_ifs at resolves
    cases resolves
    cases same
    rw [Tables.getSessionWithUser, Option.bind_eq_bind,
      Option.bind_eq_some_iff] at found
    obtain ⟨row, -, found⟩ := found
    rw [Option.bind_eq_bind, Option.bind_eq_some_iff] at found
    obtain ⟨owner, found, pair⟩ := found
    cases pair
    rcases lasting.users _ (List.mem_of_find?_eq_some found) with
      known | ⟨fresh, -⟩
    · rw [deleted] at known
      cases known
    · exact absurd used (Nat.not_lt.mpr fresh)

/-- The session of the viewer, and the token that was revoked. -/
def bearerHeaders : Headers :=
  { viewerHeaders with
    authorization := some ['B', 'e', 'a', 'r', 'e', 'r', ' ', 'h'] }

theorem bearer_bearerHeaders : bearer bearerHeaders = some ['h'] := by
  unfold bearer bearerHeaders
  simp only [String.reduceToList]
  rfl

/-- The token is presented and found, and yet it is nobody's. -/
theorem never_resolved_again_passwordAsked :
    ∃ final : System Bool, passwordAsked.foldlM (System.step plainSettings)
        (System.start oneViewer) = some final ∧
      bearer bearerHeaders = some ['h'] ∧
      (∃ token ∈ final.tables.tokens, token.tokenHash = ['h']) ∧
      (∀ principal, resolveToken plainSettings final.tables bearerHeaders =
        some principal → principal.actor ≠ ['t']) ∧
      ∀ principal, resolveSession final.tables bearerHeaders =
        some principal → principal.userId ≠ some 0 := by
  obtain ⟨final, ran, found⟩ : ∃ final, passwordAsked.foldlM
      (System.step plainSettings) (System.start oneViewer) = some final ∧
      ∃ token ∈ final.tables.tokens, token.tokenHash = ['h'] :=
    ⟨_, rfl, _, List.mem_cons_self, rfl⟩
  have never := @never_resolved_again Bool _ plainSettings oneViewer
    (by decide) [] passwordAsked (System.start oneViewer) final rfl ran
    bearerHeaders
  exact ⟨final, ran, bearer_bearerHeaders, found,
    never.1 _ List.mem_cons_self rfl, never.2 0 (by decide) rfl⟩

end LightWaf.Governance.Access
