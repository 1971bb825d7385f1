import LightWaf.Rust.Search
import LightWaf.Theory.Interleaving
import LightWaf.Theory.Machine

/-!
# Accounts, sessions and service tokens

The embedding of `waf-governance/src/rbac.rs`, of the statements on users,
sessions, tokens and login flows of `waf-governance/src/store.rs`, and of the
handlers of `waf-controlplane/src/gov_api.rs` that change them.  A request is
resolved to a principal by one or two statements, checked against the
permission of its route, and then executes the statements of its handler;
between any two of them other requests may come.  A statement that fails ends
its request, as does a client that goes away.
-/

namespace LightWaf.Governance.Access

open LightWaf.Rust
open LightWaf.Theory.Interleaving

/-! ## Roles -/

/-- `Role`. -/
inductive Role
  | viewer
  | operator
  | admin
deriving DecidableEq

/-- The place of a role in the order of the declaration. -/
def Role.rank : Role → Nat
  | .viewer => 0
  | .operator => 1
  | .admin => 2

theorem Role.rank_injective : Function.Injective Role.rank := by
  intro first second same
  cases first <;> cases second <;> first | rfl | cases same

instance : LinearOrder Role :=
  LinearOrder.lift' Role.rank Role.rank_injective

/-- `Permission`. -/
inductive Permission
  | readObservability
  | manageAlerts
  | manageUsers
  | manageTokens
  | viewAudit
  | manageConfig
  | manageRules
  | viewCaptures
deriving DecidableEq

/-- `Role::allows`. -/
def Role.allows (role : Role) : Permission → Bool
  | .readObservability => true
  | .manageAlerts | .manageRules | .viewCaptures => Role.operator ≤ role
  | .manageUsers | .manageTokens | .viewAudit | .manageConfig =>
      role = .admin

/-- `map_claims_to_role`. -/
def mapClaimsToRole (claimValues : List Text) (roleMap : List (Text × Role)) :
    Option Role :=
  (claimValues.filterMap fun value =>
    (roleMap.find? fun entry => entry.1 = value).map Prod.snd).max?

/-! ## The tables -/

/-- The column `auth_source`. -/
inductive AuthSource
  | password
  | oidc
deriving DecidableEq

/-- A row of `gov_users`. -/
structure User where
  id : Nat
  username : Text
  passwordHash : Option Text
  role : Role
  disabled : Bool
  authSource : AuthSource
deriving DecidableEq

/-- A row of `gov_sessions`. -/
structure Session where
  id : Text
  userId : Nat
  expiresAt : Int
deriving DecidableEq

/-- A row of `gov_tokens`. -/
structure Token where
  id : Nat
  name : Text
  tokenHash : Text
  role : Role
  revoked : Bool
deriving DecidableEq

/-- A row of `gov_oidc_flows`. -/
structure Flow where
  state : Text
  pkceVerifier : Text
  nonce : Text
  createdAt : Int
deriving DecidableEq

/-- The tables with the sequences of their ids, and the time. -/
structure Tables where
  users : List User
  userSequence : Nat
  sessions : List Session
  tokens : List Token
  tokenSequence : Nat
  flows : List Flow
  now : Int

namespace Tables

variable (tables : Tables)

/-- A user with the given id exists. -/
def hasUser (id : Nat) : Bool :=
  tables.users.any (·.id = id)

/-- `get_user_with_hash`. -/
def getUserWithHash (username : Text) : Option User :=
  tables.users.find? (·.username = username)

/-- Change the row of a user. -/
def updateUser (id : Nat) (change : User → User) : Tables :=
  { tables with
    users := tables.users.map fun user =>
      if user.id = id then change user else user }

/-- `create_user`; a duplicate username has only used up an id. -/
def createUser (username passwordHash : Text) (role : Role) : Tables :=
  if (tables.getUserWithHash username).isSome then
    { tables with userSequence := tables.userSequence + 1 }
  else
    { tables with
      users := tables.users ++
        [⟨tables.userSequence, username, some passwordHash, role, false,
          .password⟩]
      userSequence := tables.userSequence + 1 }

/-- `set_user_role`. -/
def setUserRole (id : Nat) (role : Role) : Tables :=
  tables.updateUser id fun user => { user with role := role }

/-- `set_user_disabled`. -/
def setUserDisabled (id : Nat) (disabled : Bool) : Tables :=
  tables.updateUser id fun user => { user with disabled := disabled }

/-- `set_password_hash`. -/
def setPasswordHash (id : Nat) (passwordHash : Text) : Tables :=
  tables.updateUser id fun user =>
    { user with passwordHash := some passwordHash, authSource := .password }

/-- `delete_user`, with the sessions of the user. -/
def deleteUser (id : Nat) : Tables :=
  { tables with
    users := tables.users.filter fun user => user.id ≠ id
    sessions := tables.sessions.filter fun session => session.userId ≠ id }

/-- `upsert_oidc_user`: the statement, and the row it returns. -/
def upsertOidcUser (username : Text) (role : Role) : Tables × Option User :=
  let next := { tables with userSequence := tables.userSequence + 1 }
  match tables.getUserWithHash username with
  | none =>
      let user : User :=
        ⟨tables.userSequence, username, none, role, false, .oidc⟩
      ({ next with users := tables.users ++ [user] }, some user)
  | some user =>
      if user.authSource = .oidc then
        ({ next with
          users := tables.users.map fun user =>
            if user.username = username ∧ user.authSource = .oidc then
              { user with role := role }
            else user }, some { user with role := role })
      else (next, none)

/-- A session can be inserted: its id is new, and its user exists. -/
def acceptsSession (id : Text) (userId : Nat) : Bool :=
  tables.hasUser userId && !tables.sessions.any (·.id = id)

/-- `create_session`. -/
def createSession (id : Text) (userId : Nat) (expiresAt : Int) : Tables :=
  if tables.acceptsSession id userId then
    { tables with sessions := tables.sessions ++ [⟨id, userId, expiresAt⟩] }
  else tables

/-- `get_session_with_user`. -/
def getSessionWithUser (id : Text) : Option (Session × User) := do
  let session ← tables.sessions.find? fun session =>
    session.id = id ∧ tables.now < session.expiresAt
  let user ← tables.users.find? (·.id = session.userId)
  some (session, user)

/-- Delete the sessions that a statement names. -/
def deleteSessions (gone : Session → Bool) : Tables :=
  { tables with
    sessions := tables.sessions.filter fun session => !(gone session) }

/-- `create_token`; a duplicate name has only used up an id. -/
def createToken (name tokenHash : Text) (role : Role) : Tables :=
  if tables.tokens.any (·.name = name) then
    { tables with tokenSequence := tables.tokenSequence + 1 }
  else
    { tables with
      tokens := tables.tokens ++
        [⟨tables.tokenSequence, name, tokenHash, role, false⟩]
      tokenSequence := tables.tokenSequence + 1 }

/-- `find_active_token`. -/
def findActiveToken (tokenHash : Text) : Option Token :=
  tables.tokens.find? fun token => token.tokenHash = tokenHash ∧ ¬ token.revoked

/-- `revoke_token`. -/
def revokeToken (id : Nat) : Tables :=
  { tables with
    tokens := tables.tokens.map fun token =>
      if token.id = id then { token with revoked := true } else token }

/-- `put_oidc_flow`; a state that is taken is refused. -/
def putOidcFlow (state pkceVerifier nonce : Text) : Tables :=
  if tables.flows.any (·.state = state) then tables
  else
    { tables with
      flows := tables.flows ++ [⟨state, pkceVerifier, nonce, tables.now⟩] }

/-- `take_oidc_flow`: the statement, and the row it returns. -/
def takeOidcFlow (state : Text) : Tables × Option Flow :=
  ({ tables with flows := tables.flows.filter fun flow => flow.state ≠ state },
    tables.flows.find? (·.state = state))

end Tables

/-! ## Principals -/

/-- `AuthVia`. -/
inductive AuthVia
  | session
  | token
deriving DecidableEq

/-- `Principal`. -/
structure Principal where
  actor : Text
  role : Role
  via : AuthVia
  userId : Option Nat
  sessionId : Option Text

/-- The headers that a request is resolved by, if they are readable. -/
structure Headers where
  cookie : Option Text
  authorization : Option Text

/-- `session_id_from_cookies`. -/
def sessionIdFromCookies (headers : Headers) : Option Text := do
  let cookie ← headers.cookie
  (cookie.splitOn ';').findSome? fun part =>
    (stripPrefix "waf_cp_session=".toList (trim part)).filter
      fun value => !value.isEmpty

/-- The token behind `Bearer `. -/
def bearer (headers : Headers) : Option Text := do
  let presented ← headers.authorization
  stripPrefix "Bearer ".toList presented

/-- What the claims of a verified identity token say. -/
structure Claims where
  preferredUsername : Option Text
  email : Option Text
  roleValues : List Text

/--
What the handlers use besides the tables: the configuration, the hash
functions, and the identity provider, which exchanges a code for a verified
token.
-/
structure Settings where
  apiToken : Option Text
  sessionTtl : Int
  verifyPassword : Text → Text → Except Text Bool
  hashToken : Text → Text
  oidc : Bool
  exchange : (code pkceVerifier nonce : Text) → Except Text Claims
  roleMap : List (Text × Role)
  defaultRole : Option Role

variable (settings : Settings)

/-- The session of `resolve_principal`. -/
def resolveSession (tables : Tables) (headers : Headers) :
    Option Principal := do
  let id ← sessionIdFromCookies headers
  let (session, user) ← tables.getSessionWithUser id
  if user.disabled then none
  else some ⟨user.username, user.role, .session, some user.id,
    some session.id⟩

/-- The service token of `resolve_principal`. -/
def resolveToken (tables : Tables) (headers : Headers) : Option Principal := do
  let presented ← bearer headers
  let token ← tables.findActiveToken (settings.hashToken presented)
  some ⟨token.name, token.role, .token, none, none⟩

/-- The static bearer of `resolve_principal`, `check_bearer`. -/
def resolveBearer (headers : Headers) : Option Principal := do
  let token ← settings.apiToken
  let presented ← bearer headers
  if presented = token then
    some ⟨"api-token".toList, .admin, .token, none, none⟩
  else none

/-! ## Handlers -/

/-- A handler ends with the status of its response. -/
abbrev Handler := Prog Tables Nat

/-- The routes behind a permission, with what their handlers read. -/
inductive Call
  | logout
  | revokeSession (id : Text)
  | changePassword (oldPassword newHash : Text)
  | createUser (username passwordHash : Text) (role : Role)
  | updateUser (id : Nat) (role : Option Role) (disabled : Option Bool)
  | deleteUser (id : Nat)
  | revokeUserSessions (userId : Nat)
  | resetPassword (id : Nat) (newHash : Text)
  | createToken (name tokenHash : Text) (role : Role)
  | revokeToken (id : Nat)
  /-- A route whose handler changes none of these tables. -/
  | other (permission : Permission)

/-- The permission that the router requires. -/
def Call.permission : Call → Permission
  | .logout | .revokeSession _ | .changePassword _ _ => .readObservability
  | .createUser _ _ _ | .updateUser _ _ _ | .deleteUser _
  | .revokeUserSessions _ | .resetPassword _ _ => .manageUsers
  | .createToken _ _ _ | .revokeToken _ => .manageTokens
  | .other permission => permission

/-- `logout`. -/
def logout (headers : Headers) : Handler :=
  match sessionIdFromCookies headers with
  | some id =>
      .exec (·.deleteSessions (·.id = id)) fun _ => .done 200
  | none => .done 200

/-- `revoke_session`. -/
def revokeSession (principal : Principal) (id : Text) : Handler :=
  match principal.userId with
  | none => .done 400
  | some userId =>
      .read fun tables =>
        if tables.sessions.any fun session =>
            session.userId = userId ∧ session.id = id then
          .exec (·.deleteSessions (·.id = id)) fun _ => .done 200
        else .done 404

/-- `change_password`; a hash that cannot be computed ends the request. -/
def changePassword (principal : Principal) (oldPassword newHash : Text) :
    Handler :=
  match principal.userId, principal.sessionId with
  | some userId, some sessionId =>
      .read fun tables =>
        match tables.getUserWithHash principal.actor with
        | none => .done 404
        | some user =>
            match user.passwordHash with
            | none => .done 400
            | some hash =>
                match settings.verifyPassword oldPassword hash with
                | .ok true =>
                    .exec (·.setPasswordHash userId newHash) fun _ =>
                      .exec (·.deleteSessions fun session =>
                        session.userId = userId ∧ session.id ≠ sessionId)
                        fun _ => .done 200
                | .ok false => .done 401
                | .error _ => .done 500
  | _, _ => .done 400

/-- `create_user`. -/
def createUser (username passwordHash : Text) (role : Role) : Handler :=
  .exec (·.createUser username passwordHash role) fun tables =>
    if (tables.getUserWithHash username).isSome then .done 409 else .done 201

/-- The end of `update_user`. -/
def updatedUser (id : Nat) (disabled : Option Bool) (changed : Bool) :
    Handler :=
  if !changed then .done 404
  else if disabled = some true then
    .exec (·.deleteSessions (·.userId = id)) fun _ => .done 200
  else .done 200

/-- `update_user` behind the change of the role. -/
def updateDisabled (id : Nat) (disabled : Option Bool) (changed : Bool) :
    Handler :=
  match disabled with
  | some value =>
      .exec (·.setUserDisabled id value) fun tables =>
        updatedUser id disabled (changed || tables.hasUser id)
  | none => updatedUser id disabled changed

/-- `update_user`. -/
def updateUser (id : Nat) (role : Option Role) (disabled : Option Bool) :
    Handler :=
  match role with
  | some value =>
      .exec (·.setUserRole id value) fun tables =>
        updateDisabled id disabled (tables.hasUser id)
  | none => updateDisabled id disabled false

/-- `delete_user`. -/
def deleteUser (id : Nat) : Handler :=
  .exec (·.deleteUser id) fun tables =>
    if tables.hasUser id then .done 200 else .done 404

/-- `revoke_user_sessions`. -/
def revokeUserSessions (userId : Nat) : Handler :=
  .exec (·.deleteSessions (·.userId = userId)) fun _ => .done 200

/-- `reset_password`. -/
def resetPassword (id : Nat) (newHash : Text) : Handler :=
  .exec (·.setPasswordHash id newHash) fun tables =>
    if tables.hasUser id then
      .exec (·.deleteSessions (·.userId = id)) fun _ => .done 200
    else .done 404

/-- `create_token`. -/
def createToken (name tokenHash : Text) (role : Role) : Handler :=
  .exec (·.createToken name tokenHash role) fun tables =>
    if tables.tokens.any (·.name = name) then .done 409 else .done 201

/-- `revoke_token`. -/
def revokeToken (id : Nat) : Handler :=
  .exec (·.revokeToken id) fun tables =>
    if tables.tokens.any (·.id = id) then .done 200 else .done 404

/-- The handler of a route. -/
def handler (principal : Principal) (headers : Headers) : Call → Handler
  | .logout => logout headers
  | .revokeSession id => revokeSession principal id
  | .changePassword oldPassword newHash =>
      changePassword settings principal oldPassword newHash
  | .createUser username passwordHash role =>
      createUser username passwordHash role
  | .updateUser id role disabled => updateUser id role disabled
  | .deleteUser id => deleteUser id
  | .revokeUserSessions userId => revokeUserSessions userId
  | .resetPassword id newHash => resetPassword id newHash
  | .createToken name tokenHash role => createToken name tokenHash role
  | .revokeToken id => revokeToken id
  | .other _ => .done 200

/-! ## Logging in -/

/-- The public routes; `sessionId` and the flow are freshly drawn. -/
inductive PublicCall
  | login (username password sessionId : Text)
  | oidcLogin (state pkceVerifier nonce : Text)
  | oidcCallback (error code state : Option Text) (sessionId : Text)

/-- The session that a login ends with. -/
def openSession (sessionId : Text) (user : User) (status : Nat) : Handler :=
  .exec (fun tables => tables.createSession sessionId user.id
      (tables.now + settings.sessionTtl)) fun tables =>
    if tables.acceptsSession sessionId user.id then .done status
    else .done 500

/-- `login`, once the throttle lets it through. -/
def login (username password sessionId : Text) : Handler :=
  .read fun tables =>
    match tables.getUserWithHash username with
    | none => .done 401
    | some user =>
        if user.disabled then .done 401
        else match user.passwordHash with
          | none => .done 401
          | some hash =>
              match settings.verifyPassword password hash with
              | .ok true => openSession settings sessionId user 200
              | .ok false => .done 401
              | .error _ => .done 500

/-- `VerifiedIdentity`. -/
structure VerifiedIdentity where
  username : Text
  role : Role

/-- `verify_callback`; its messages are left out. -/
def verifyCallback (code pkceVerifier nonce : Text) :
    Option VerifiedIdentity :=
  match settings.exchange code pkceVerifier nonce with
  | .error _ => none
  | .ok claims => do
      let username ← claims.preferredUsername.or claims.email
      let role ← (mapClaimsToRole claims.roleValues settings.roleMap).or
        settings.defaultRole
      some ⟨username, role⟩

/-- `oidc_callback` behind the verified identity. -/
def provision (identity : VerifiedIdentity) (sessionId : Text) : Handler :=
  .exec (fun tables =>
      (tables.upsertOidcUser identity.username identity.role).1)
    fun tables =>
      match (tables.upsertOidcUser identity.username identity.role).2 with
      | none => .done 409
      | some user =>
          if user.disabled then .done 403
          else openSession settings sessionId user 302

/-- `oidc_callback`. -/
def oidcCallback (error code state : Option Text) (sessionId : Text) :
    Handler :=
  if !settings.oidc then .done 404
  else match error, code, state with
    | some _, _, _ => .done 401
    | none, some code, some state =>
        .exec (fun tables => (tables.takeOidcFlow state).1) fun tables =>
          match (tables.takeOidcFlow state).2 with
          | none => .done 400
          | some flow =>
              match verifyCallback settings code flow.pkceVerifier
                  flow.nonce with
              | none => .done 401
              | some identity => provision settings identity sessionId
    | none, _, _ => .done 400

/-- `oidc_login`. -/
def oidcLogin (state pkceVerifier nonce : Text) : Handler :=
  if !settings.oidc then .done 404
  else .exec (·.putOidcFlow state pkceVerifier nonce) fun _ => .done 302

/-- The handler of a public route. -/
def publicHandler : PublicCall → Handler
  | .login username password sessionId =>
      login settings username password sessionId
  | .oidcLogin state pkceVerifier nonce =>
      oidcLogin settings state pkceVerifier nonce
  | .oidcCallback error code state sessionId =>
      oidcCallback settings error code state sessionId

/-! ## Requests in flight -/

/-- Where a request is. -/
inductive Phase
  | awaited
  | arrived (headers : Headers) (call : Call)
  | withoutSession (headers : Headers) (call : Call)
  | admitted (principal : Principal) (rest : Handler)
  | loggingIn (rest : Handler)
  | ended

/-- The tables and the requests. -/
structure System (ι : Type) where
  tables : Tables
  phase : ι → Phase

inductive Action (ι : Type)
  | receive (request : ι) (headers : Headers) (call : Call)
  | receivePublic (request : ι) (call : PublicCall)
  /-- The next statement of a request, which may fail. -/
  | advance (request : ι) (fails : Bool)
  /-- The client goes away. -/
  | drop (request : ι)
  | pass (seconds : Nat)

/-- `require` behind the resolution: a principal needs the permission. -/
def permit (headers : Headers) (call : Call) : Option Principal → Phase
  | none => .ended
  | some principal =>
      if principal.role.allows call.permission then
        .admitted principal (handler settings principal headers call)
      else .ended

/-- The principal that the next statement of a request resolves it to. -/
def resolved (tables : Tables) (fails : Bool) : Phase → Option Principal
  | .arrived headers _ =>
      if fails then none else resolveSession tables headers
  | .withoutSession headers _ =>
      (if fails then none else resolveToken settings tables headers).or
        (resolveBearer settings headers)
  | _ => none

variable {ι : Type} [DecidableEq ι]

namespace System

/-- A request moves on. -/
def move (system : System ι) (request : ι) (phase : Phase) : System ι :=
  { system with phase := Function.update system.phase request phase }

/-- The rest of a handler after its next statement. -/
def execute (system : System ι) (request : ι) (rest : Handler) (fails : Bool)
    (goOn : Handler → Phase) : Option (System ι) :=
  match rest with
  | .done _ => some (system.move request .ended)
  | .exec effect next =>
      if fails then some (system.move request .ended)
      else some ({ system with tables := effect system.tables }.move request
        (goOn (next system.tables)))

/-- One step. -/
def step (system : System ι) : Action ι → Option (System ι)
  | .receive request headers call =>
      match system.phase request with
      | .awaited => some (system.move request (.arrived headers call))
      | _ => none
  | .receivePublic request call =>
      match system.phase request with
      | .awaited =>
          some (system.move request (.loggingIn (publicHandler settings call)))
      | _ => none
  | .advance request fails =>
      match system.phase request with
      | .arrived headers call =>
          match resolved settings system.tables fails
              (.arrived headers call) with
          | none => some (system.move request (.withoutSession headers call))
          | some principal =>
              some (system.move request
                (permit settings headers call (some principal)))
      | .withoutSession headers call =>
          some (system.move request (permit settings headers call
            (resolved settings system.tables fails
              (.withoutSession headers call))))
      | .admitted principal rest =>
          system.execute request rest fails (.admitted principal)
      | .loggingIn rest => system.execute request rest fails .loggingIn
      | _ => none
  | .drop request => some (system.move request .ended)
  | .pass seconds =>
      some { system with
        tables := { system.tables with now := system.tables.now + seconds } }

/-- No request has come in yet. -/
def start (tables : Tables) : System ι :=
  ⟨tables, fun _ => .awaited⟩

end System

end LightWaf.Governance.Access
