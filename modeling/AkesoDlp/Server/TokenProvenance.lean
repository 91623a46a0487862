import AkesoDlp.Lib.Ledger
import AkesoDlp.Server.Auth

/-!
# Where tokens come from

The endpoints of `api/auth.py` together with those of `api/users.py` that write users, behind
`get_current_user` and `RequirePermission`. Clients keep and replay whatever tokens they were
given. The trace of a run has every call with the tables before it and its result.
-/

namespace AkesoDlp.Server.TokenProvenance

open Lib Auth

/-! ## Current users -/

/-- What is taken of `jose.jwt` for access tokens. -/
structure TokenEnv extends AuthEnv where
  encodeAccess : AccessPayload → String
  /-- `payload["username"]` and `payload["role"]`. -/
  claims : String → Option (String × String)

structure CurrentUser where
  id : Uuid
  username : String
  role : String
deriving DecidableEq, Repr

def rolePermissions : List (String × List String) :=
  [("Admin", ["users:read", "users:write", "policies:read", "policies:write", "incidents:read",
      "incidents:write", "discovers:read", "discovers:write", "detection:run", "system:admin"]),
    ("Analyst", ["incidents:read", "incidents:write", "policies:read", "discovers:read",
      "detection:run"]),
    ("Remediator", ["incidents:read", "incidents:write"])]

def hasPermission (roleName permission : String) : Bool :=
  ((rolePermissions.lookup roleName).getD []).contains permission

variable (env : TokenEnv)

def getCurrentUser (credentials : Option String) (now : Nat) : Except HttpError CurrentUser :=
  match credentials with
  | none => .error ⟨401, "Not authenticated"⟩
  | some token =>
      match env.decodeToken now token with
      | none => .error ⟨401, "Invalid or expired token"⟩
      | some payload =>
          if payload.type ≠ some "access" then .error ⟨401, "Invalid token type"⟩
          else
            match payload.sub.bind env.parseUuid, env.claims token with
            | some id, some (username, role) => .ok ⟨id, username, role⟩
            | _, _ => .error internalError

/-- `RequirePermission`. -/
def requirePermission (permission : String) (credentials : Option String) (now : Nat) :
    Except HttpError CurrentUser :=
  (getCurrentUser env credentials now).bind fun user =>
    if hasPermission user.role permission then .ok user
    else .error ⟨403, "Permission denied: requires '" ++ permission ++ "'"⟩

/-! ## Endpoints behind an access token -/

/-- An update of the row of a user. -/
def changeUser (s : AuthState) (userId : Uuid) (f : User → User) (hf : ∀ u, (f u).id = u.id) :
    AuthState :=
  { s with
    users := s.users.map fun u => if u.id == userId then f u else u
    unique := by
      have hid : (s.users.map fun u => if u.id == userId then f u else u).map (·.id) =
          s.users.map (·.id) := by
        rw [List.map_map]
        refine List.map_congr_left fun u _ => ?_
        by_cases h : u.id = userId <;> simp [h, hf]
      rw [hid]
      exact s.unique }

def userNotFound : HttpError := ⟨404, "User not found"⟩

def mfaEnroll (s : AuthState) (user : CurrentUser) (secret : String) : Handled :=
  match getUserById s user.id with
  | none => (s, .error userNotFound)
  | some u =>
      if u.mfaEnabled then (s, .error ⟨400, "MFA is already enabled"⟩)
      else
        (changeUser s user.id (fun u => { u with mfaSecret := some secret }) fun _ => rfl, .ok {})

def mfaEnrollVerify (s : AuthState) (user : CurrentUser) (code : String) (now : Nat) : Handled :=
  match getUserById s user.id with
  | none => (s, .error userNotFound)
  | some u =>
      if u.mfaEnabled then (s, .error ⟨400, "MFA is already enabled"⟩)
      else
        match secretOf u with
        | none => (s, .error ⟨400, "MFA enrollment not started"⟩)
        | some secret =>
            if env.verifyTotp now secret code then
              (changeUser s user.id (fun u => { u with mfaEnabled := true }) fun _ => rfl, .ok {})
            else (s, .error ⟨400, "Invalid TOTP code"⟩)

def mfaDisable (s : AuthState) (user : CurrentUser) (password : String) : Handled :=
  match getUserById s user.id with
  | none => (s, .error userNotFound)
  | some u =>
      if !u.mfaEnabled then (s, .error ⟨400, "MFA is not enabled"⟩)
      else if !env.verifyPassword password u.passwordHash then
        (s, .error ⟨401, "Invalid password"⟩)
      else
        (changeUser s user.id (fun u => { u with mfaEnabled := false, mfaSecret := none })
          fun _ => rfl, .ok {})

/-- `newHash` is what `hash_password` makes of the new password. -/
def changePassword (s : AuthState) (user : CurrentUser) (currentPassword newHash : String) :
    Handled :=
  match getUserById s user.id with
  | none => (s, .error userNotFound)
  | some u =>
      if !env.verifyPassword currentPassword u.passwordHash then
        (s, .error ⟨401, "Current password is incorrect"⟩)
      else
        (changeUser s user.id (fun u => { u with passwordHash := newHash }) fun _ => rfl, .ok {})

/-- The fields of a new row that the endpoints read. -/
structure UserCreate where
  username : String
  passwordHash : String
  roleId : Uuid
deriving DecidableEq, Repr

/-- `create_user`, with the id of the new row; `stored` is false where the commit raises. -/
def createUser (s : AuthState) (body : UserCreate) (roleFound stored : Bool) (newId : Uuid) :
    Handled :=
  if (getUserByUsername s body.username).isSome then
    (s, .error ⟨409, "Username '" ++ body.username ++ "' already exists"⟩)
  else if !roleFound then (s, .error ⟨400, "Role not found"⟩)
  else if h : stored = true ∧ newId ∉ s.users.map (·.id) then
    ({ s with
      users := s.users ++ [{
        id := newId
        username := body.username
        passwordHash := body.passwordHash
        isActive := true
        mfaEnabled := false
        mfaSecret := none
        roleId := body.roleId }]
      unique := by
        rw [List.map_append]
        exact List.nodup_append'.mpr ⟨s.unique, List.nodup_singleton _, by simpa using h.2⟩ },
      .ok {})
  else (s, .error internalError)

/-! ## Calls -/

inductive Request
  | login (username password clientIp newRefresh : String)
  | mfaVerify (challenge code newRefresh : String)
  | refresh (cookie : Option String) (newRefresh : String)
  | logout (cookie : Option String)
  | mfaEnroll (credentials : Option String) (secret : String)
  | mfaEnrollVerify (credentials : Option String) (code : String)
  | mfaDisable (credentials : Option String) (password : String)
  | changePassword (credentials : Option String) (currentPassword newHash : String)
  | createUser (credentials : Option String) (body : UserCreate) (roleFound stored : Bool)
      (newId : Uuid)
  | updateUser (credentials : Option String) (userId : Uuid) (body : UserUpdate)
deriving DecidableEq, Repr

structure Call where
  request : Request
  now : Nat
deriving DecidableEq, Repr

/-- A dependency that raises keeps the endpoint from running. -/
def depends (s : AuthState) (user : Except HttpError CurrentUser)
    (endpoint : CurrentUser → Handled) : Handled :=
  match user with
  | .error e => (s, .error e)
  | .ok user => endpoint user

def handle (s : AuthState) (call : Call) : Handled :=
  match call.request with
  | .login username password clientIp newRefresh =>
      Auth.login env.toAuthEnv s username password clientIp newRefresh call.now
  | .mfaVerify challenge code newRefresh =>
      Auth.mfaVerify env.toAuthEnv s challenge code newRefresh call.now
  | .refresh cookie newRefresh => Auth.refreshToken env.toAuthEnv s cookie newRefresh call.now
  | .logout cookie => Auth.logout env.toAuthEnv s cookie call.now
  | .mfaEnroll credentials secret =>
      depends s (getCurrentUser env credentials call.now) fun user => mfaEnroll s user secret
  | .mfaEnrollVerify credentials code =>
      depends s (getCurrentUser env credentials call.now) fun user =>
        mfaEnrollVerify env s user code call.now
  | .mfaDisable credentials password =>
      depends s (getCurrentUser env credentials call.now) fun user => mfaDisable env s user password
  | .changePassword credentials currentPassword newHash =>
      depends s (getCurrentUser env credentials call.now) fun user =>
        changePassword env s user currentPassword newHash
  | .createUser credentials body roleFound stored newId =>
      depends s (requirePermission env "users:write" credentials call.now) fun _ =>
        createUser s body roleFound stored newId
  | .updateUser credentials userId body =>
      depends s (requirePermission env "users:write" credentials call.now) fun _ =>
        Auth.updateUser s userId body

/-- A call in a trace. -/
structure Entry where
  before : AuthState
  call : Call
  result : Except HttpError TokenResponse

structure Run where
  state : AuthState
  trace : List Entry

def step (r : Run) (call : Call) : Option Run :=
  let handled := handle env r.state call
  some ⟨handled.1, r.trace ++ [⟨r.state, call, handled.2⟩]⟩

/-- Nobody is logged in at the beginning. -/
def server : TSys Run Call where
  init := fun r => r.state.sessions = [] ∧ r.trace = []
  step := step env

/-! ## Tokens -/

/-- The challenge token of a response. -/
def challengeOf (r : Except HttpError TokenResponse) : Option String :=
  r.toOption.bind (·.mfaChallengeToken)

/-- The JWTs that a response carries. -/
def Entry.tokens (e : Entry) : List String :=
  ((granted e.result).map env.encodeAccess).toList ++ (challengeOf e.result).toList

/-- The JWT that a request carries. -/
def Request.token : Request → Option String
  | .login .. | .refresh .. | .logout .. => none
  | .mfaVerify challenge .. => some challenge
  | .mfaEnroll credentials _ | .mfaEnrollVerify credentials _ | .mfaDisable credentials _
  | .changePassword credentials .. | .createUser credentials .. | .updateUser credentials .. =>
      credentials

/-- What `jose.jwt` and `uuid` promise: a token that decodes has the claims that were encoded,
and is not expired. -/
structure Lawful : Prop where
  parse_toStr : ∀ u v : Uuid, env.parseUuid u.toStr = some v → v = u
  decode_encode : ∀ now payload payload',
    env.decodeToken now (env.encodeToken payload) = some payload' →
      payload' = payload ∧ now < payload.exp
  decode_access : ∀ now access payload',
    env.decodeToken now (env.encodeAccess access) = some payload' →
      payload' = ⟨some access.sub.toStr, some "access", access.exp⟩ ∧ now < access.exp ∧
        env.claims (env.encodeAccess access) = some (access.username, access.role)

/-- Clients cannot sign: a token that decodes has been in a response. -/
def Unforged (r : Run) (call : Call) : Prop :=
  ∀ token, call.request.token = some token → (env.decodeToken call.now token).isSome = true →
    ∃ e ∈ r.trace, token ∈ e.tokens env

/-! ## Evidence -/

/-- The right password of an active user, whose MFA is on or off, in a login that does not fail. -/
def Entry.LoginOf (e : Entry) (userId : Uuid) (mfa : Bool) : Prop :=
  ∃ username password clientIp newRefresh u,
    e.call.request = .login username password clientIp newRefresh ∧
    getUserByUsername e.before username = some u ∧ u.id = userId ∧ u.isActive = true ∧
    env.verifyPassword password u.passwordHash = true ∧ u.mfaEnabled = mfa

/-- A right TOTP code of the user. -/
def Entry.TotpOf (e : Entry) (userId : Uuid) : Prop :=
  ∃ challenge code newRefresh u secret,
    e.call.request = .mfaVerify challenge code newRefresh ∧
    getUserById e.before userId = some u ∧ secretOf u = some secret ∧
    env.verifyTotp e.call.now secret code = true

/-- A user was authenticated in a trace: with the password while MFA was off, or with the
password while it was on and within five minutes after that with a TOTP code. -/
inductive Authenticated (trace : List Entry) (userId : Uuid) : Prop
  | password {e} : e ∈ trace → e.LoginOf env userId false → Authenticated trace userId
  | totp {l₁ e l₂ e'} : trace = l₁ ++ e :: l₂ → e.LoginOf env userId true →
      e' ∈ l₂ → e'.TotpOf env userId → e'.call.now < e.call.now + 5 * 60 →
      Authenticated trace userId

variable {env}

theorem Authenticated.append {trace : List Entry} {userId : Uuid}
    (h : Authenticated env trace userId) (later : List Entry) :
    Authenticated env (trace ++ later) userId := by
  cases h with
  | password he hlogin => exact .password (List.mem_append_left _ he) hlogin
  | @totp l₁ e l₂ e' htrace hlogin he' htotp hnow =>
      have hlater : trace ++ later = l₁ ++ e :: (l₂ ++ later) := by
        rw [htrace, List.append_assoc, List.cons_append]
      exact .totp hlater hlogin (List.mem_append_left _ he') htotp hnow

/-! ## What a call does -/

theorem granted_login {s : AuthState} {username password clientIp newRefresh : String}
    {now : Nat} {a : AccessPayload}
    (h : granted (Auth.login env.toAuthEnv s username password clientIp newRefresh now).2 =
      some a) :
    ∃ u, getUserByUsername s username = some u ∧ u.isActive = true ∧
      env.verifyPassword password u.passwordHash = true ∧ u.mfaEnabled = false ∧
      createAccessToken env.toAuthEnv u now = a := by
  simp only [Auth.login] at h
  split at h
  · cases h
  · split at h
    · cases h
    · next u hu =>
      obtain ⟨hname, hpassword⟩ := Option.filter_eq_some_iff.mp hu
      split at h
      · cases h
      · next hactive =>
        split at h
        · cases h
        · next hmfa =>
          exact ⟨u, hname, by simpa using hactive, hpassword, by simpa using hmfa,
            (granted_issueTokens.mp h).2⟩

theorem challengeOf_issueTokens {s : AuthState} {u : User} {newRefresh : String} {now : Nat} :
    challengeOf (issueTokens env.toAuthEnv s u newRefresh now).2 = none := by
  unfold issueTokens
  split <;> rfl

theorem challengeOf_login {s : AuthState} {username password clientIp newRefresh : String}
    {now : Nat} {token : String}
    (h : challengeOf (Auth.login env.toAuthEnv s username password clientIp newRefresh now).2 =
      some token) :
    ∃ u, getUserByUsername s username = some u ∧ u.isActive = true ∧
      env.verifyPassword password u.passwordHash = true ∧ u.mfaEnabled = true ∧
      token = createMfaChallengeToken env.toAuthEnv u.id now := by
  simp only [Auth.login] at h
  split at h
  · cases h
  · split at h
    · cases h
    · next u hu =>
      obtain ⟨hname, hpassword⟩ := Option.filter_eq_some_iff.mp hu
      split at h
      · cases h
      · next hactive =>
        split at h
        · next hmfa =>
          exact ⟨u, hname, by simpa using hactive, hpassword, hmfa, (Option.some.inj h).symm⟩
        · rw [challengeOf_issueTokens] at h
          cases h

/-- An endpoint that leaves the users: the sessions after it are for users who had one, or to
whom it granted access. -/
structure SessionsFrom (s : AuthState) (h : Handled) : Prop where
  users : h.1.users = s.users
  sessions : ∀ x ∈ h.1.sessions, (∃ y ∈ s.sessions, y.userId = x.userId) ∨
    ∃ a, granted h.2 = some a ∧ a.sub = x.userId

theorem sessionsFrom_same {s : AuthState} {h : Handled} (husers : h.1.users = s.users)
    (hsessions : h.1.sessions = s.sessions) : SessionsFrom s h where
  users := husers
  sessions x hx := .inl ⟨x, hsessions ▸ hx, rfl⟩

theorem sessionsFrom_issueTokens (s : AuthState) (u : User) (newRefresh : String) (now : Nat) :
    SessionsFrom s (issueTokens env.toAuthEnv s u newRefresh now) := by
  unfold issueTokens
  cases hcreate : createSession env.toAuthEnv s u.id newRefresh now with
  | none => exact sessionsFrom_same rfl rfl
  | some s' =>
      rw [createSession, Option.ite_none_left_eq_some, Option.some.injEq] at hcreate
      obtain ⟨-, rfl⟩ := hcreate
      refine ⟨rfl, fun x hx => ?_⟩
      rcases List.mem_append.mp hx with hold | hnew
      · exact .inl ⟨x, hold, rfl⟩
      · rw [List.mem_singleton.mp hnew]
        exact .inr ⟨_, rfl, rfl⟩

theorem mem_revokeSession {s : AuthState} {session x : Session}
    (hx : x ∈ (revokeSession s session).sessions) : ∃ y ∈ s.sessions, y.userId = x.userId := by
  obtain ⟨y, hy, rfl⟩ := List.mem_map.mp hx
  refine ⟨y, hy, ?_⟩
  split <;> rfl

theorem sessionsFrom_login {s : AuthState} {username password clientIp newRefresh : String}
    {now : Nat} :
    SessionsFrom s (Auth.login env.toAuthEnv s username password clientIp newRefresh now) := by
  simp only [Auth.login]
  split
  · exact sessionsFrom_same rfl rfl
  · split
    · exact sessionsFrom_same rfl rfl
    · split
      · exact sessionsFrom_same rfl rfl
      · split
        · exact sessionsFrom_same rfl rfl
        · -- the attempts of the address are reset before
          exact ⟨(sessionsFrom_issueTokens _ _ _ _).users,
            (sessionsFrom_issueTokens _ _ _ _).sessions⟩

theorem sessionsFrom_mfaVerify {s : AuthState} {challenge code newRefresh : String} {now : Nat} :
    SessionsFrom s (Auth.mfaVerify env.toAuthEnv s challenge code newRefresh now) := by
  simp only [Auth.mfaVerify]
  split
  · exact sessionsFrom_same rfl rfl
  · split
    · exact sessionsFrom_same rfl rfl
    · split
      · exact sessionsFrom_same rfl rfl
      · split
        · exact sessionsFrom_same rfl rfl
        · split
          · exact sessionsFrom_same rfl rfl
          · split
            · exact sessionsFrom_issueTokens _ _ _ _
            · exact sessionsFrom_same rfl rfl

theorem sessionsFrom_refreshToken {s : AuthState} {cookie : Option String} {newRefresh : String}
    {now : Nat} :
    SessionsFrom s (Auth.refreshToken env.toAuthEnv s cookie newRefresh now) := by
  simp only [Auth.refreshToken]
  split
  · exact sessionsFrom_same rfl rfl
  · split
    · exact sessionsFrom_same rfl rfl
    · split
      · exact ⟨rfl, fun x hx => .inl (mem_revokeSession hx)⟩
      · split
        · exact ⟨rfl, fun x hx => .inl (mem_revokeSession hx)⟩
        · next u _ s' hcreate =>
          rw [createSession, Option.ite_none_left_eq_some, Option.some.injEq] at hcreate
          obtain ⟨-, rfl⟩ := hcreate
          refine ⟨rfl, fun x hx => ?_⟩
          rcases List.mem_append.mp hx with hold | hnew
          · exact .inl (mem_revokeSession hold)
          · rw [List.mem_singleton.mp hnew]
            exact .inr ⟨_, rfl, rfl⟩

theorem sessionsFrom_logout {s : AuthState} {cookie : Option String} {now : Nat} :
    SessionsFrom s (Auth.logout env.toAuthEnv s cookie now) := by
  simp only [Auth.logout]
  split
  · exact ⟨rfl, fun x hx => .inl (mem_revokeSession hx)⟩
  · exact sessionsFrom_same rfl rfl

/-- An endpoint that leaves the sessions and returns no token. -/
structure Plain (s : AuthState) (h : Handled) : Prop where
  sessions : h.1.sessions = s.sessions
  granted : granted h.2 = none
  challenge : challengeOf h.2 = none

theorem plain_error (s : AuthState) (e : HttpError) : Plain s (s, .error e) := ⟨rfl, rfl, rfl⟩

theorem plain_mfaEnroll (s : AuthState) (user : CurrentUser) (secret : String) :
    Plain s (mfaEnroll s user secret) := by
  unfold mfaEnroll
  split
  · exact plain_error s _
  · split
    · exact plain_error s _
    · exact ⟨rfl, rfl, rfl⟩

theorem plain_mfaEnrollVerify (s : AuthState) (user : CurrentUser) (code : String) (now : Nat) :
    Plain s (mfaEnrollVerify env s user code now) := by
  unfold mfaEnrollVerify
  split
  · exact plain_error s _
  · split
    · exact plain_error s _
    · split
      · exact plain_error s _
      · split
        · exact ⟨rfl, rfl, rfl⟩
        · exact plain_error s _

theorem plain_mfaDisable (s : AuthState) (user : CurrentUser) (password : String) :
    Plain s (mfaDisable env s user password) := by
  unfold mfaDisable
  split
  · exact plain_error s _
  · split
    · exact plain_error s _
    · split
      · exact plain_error s _
      · exact ⟨rfl, rfl, rfl⟩

theorem plain_changePassword (s : AuthState) (user : CurrentUser)
    (currentPassword newHash : String) :
    Plain s (changePassword env s user currentPassword newHash) := by
  unfold changePassword
  split
  · exact plain_error s _
  · split
    · exact plain_error s _
    · exact ⟨rfl, rfl, rfl⟩

theorem plain_createUser (s : AuthState) (body : UserCreate) (roleFound stored : Bool)
    (newId : Uuid) : Plain s (createUser s body roleFound stored newId) := by
  unfold createUser
  split
  · exact plain_error s _
  · split
    · exact plain_error s _
    · split
      · exact ⟨rfl, rfl, rfl⟩
      · exact plain_error s _

theorem plain_updateUser (s : AuthState) (userId : Uuid) (body : UserUpdate) :
    Plain s (Auth.updateUser s userId body) := by
  unfold Auth.updateUser
  split
  · exact plain_error s _
  · exact ⟨rfl, rfl, rfl⟩

theorem plain_depends {s : AuthState} {endpoint : CurrentUser → Handled}
    (h : ∀ user, Plain s (endpoint user)) (user : Except HttpError CurrentUser) :
    Plain s (depends s user endpoint) := by
  cases user with
  | error e => exact plain_error s e
  | ok user => exact h user

/-- The calls that may return a token or touch a session, and the others. -/
inductive Kind (env : TokenEnv) (s : AuthState) (call : Call) : Prop
  | login {username password clientIp newRefresh} :
      call.request = .login username password clientIp newRefresh → Kind env s call
  | mfaVerify {challenge code newRefresh} :
      call.request = .mfaVerify challenge code newRefresh → Kind env s call
  | refresh {cookie newRefresh} : call.request = .refresh cookie newRefresh → Kind env s call
  | logout {cookie} : call.request = .logout cookie → Kind env s call
  | plain : Plain s (handle env s call) → Kind env s call

theorem kind (env : TokenEnv) (s : AuthState) (call : Call) : Kind env s call := by
  obtain ⟨request, now⟩ := call
  cases request with
  | login => exact .login rfl
  | mfaVerify => exact .mfaVerify rfl
  | refresh => exact .refresh rfl
  | logout => exact .logout rfl
  | mfaEnroll => exact .plain (plain_depends (fun _ => plain_mfaEnroll s _ _) _)
  | mfaEnrollVerify => exact .plain (plain_depends (fun _ => plain_mfaEnrollVerify s _ _ _) _)
  | mfaDisable => exact .plain (plain_depends (fun _ => plain_mfaDisable s _ _) _)
  | changePassword => exact .plain (plain_depends (fun _ => plain_changePassword s _ _ _) _)
  | createUser => exact .plain (plain_depends (fun _ => plain_createUser s _ _ _ _) _)
  | updateUser => exact .plain (plain_depends (fun _ => plain_updateUser s _ _) _)

theorem sessions_handle {s : AuthState} {call : Call} {x : Session}
    (hx : x ∈ (handle env s call).1.sessions) : (∃ y ∈ s.sessions, y.userId = x.userId) ∨
      ∃ a, granted (handle env s call).2 = some a ∧ a.sub = x.userId := by
  obtain ⟨request, now⟩ := call
  rcases kind env s ⟨request, now⟩ with h | h | h | h | h
  · obtain rfl := h
    exact sessionsFrom_login.sessions x hx
  · obtain rfl := h
    exact sessionsFrom_mfaVerify.sessions x hx
  · obtain rfl := h
    exact sessionsFrom_refreshToken.sessions x hx
  · obtain rfl := h
    exact sessionsFrom_logout.sessions x hx
  · exact .inl ⟨x, h.sessions ▸ hx, rfl⟩

theorem challengeOf_mfaVerify {s : AuthState} {challenge code newRefresh : String} {now : Nat} :
    challengeOf (Auth.mfaVerify env.toAuthEnv s challenge code newRefresh now).2 = none := by
  simp only [Auth.mfaVerify]
  split
  · rfl
  · split
    · rfl
    · split
      · rfl
      · split
        · rfl
        · split
          · rfl
          · split
            · exact challengeOf_issueTokens
            · rfl

theorem challengeOf_refreshToken {s : AuthState} {cookie : Option String} {newRefresh : String}
    {now : Nat} :
    challengeOf (Auth.refreshToken env.toAuthEnv s cookie newRefresh now).2 = none := by
  simp only [Auth.refreshToken]
  split
  · rfl
  · split
    · rfl
    · split
      · rfl
      · split
        · rfl
        · rfl

/-- Only a login with the right password returns a challenge, and only while MFA is on. -/
theorem challengeOf_handle {s : AuthState} {call : Call} {token : String}
    (h : challengeOf (handle env s call).2 = some token) :
    ∃ userId, Entry.LoginOf env ⟨s, call, (handle env s call).2⟩ userId true ∧
      token = createMfaChallengeToken env.toAuthEnv userId call.now := by
  obtain ⟨request, now⟩ := call
  rcases kind env s ⟨request, now⟩ with hr | hr | hr | hr | hr
  · obtain rfl := hr
    obtain ⟨u, hname, hactive, hpassword, hmfa, htoken⟩ := challengeOf_login h
    exact ⟨u.id, ⟨_, _, _, _, u, rfl, hname, rfl, hactive, hpassword, hmfa⟩, htoken⟩
  · obtain rfl := hr
    cases challengeOf_mfaVerify.symm.trans h
  · obtain rfl := hr
    cases challengeOf_refreshToken.symm.trans h
  · obtain rfl := hr
    simp only [handle, Auth.logout] at h
    split at h <;> cases h
  · cases hr.challenge.symm.trans h

/-- Access is granted to a user whose password was right, whose TOTP code was, or who has a
session, and with the role of that user's row. -/
theorem granted_handle {s : AuthState} {call : Call} {a : AccessPayload}
    (h : granted (handle env s call).2 = some a) :
    (∃ u, getUserById s a.sub = some u ∧ a.role = env.roleName u.roleId) ∧
    (Entry.LoginOf env ⟨s, call, (handle env s call).2⟩ a.sub false ∨
      (∃ challenge code newRefresh u, call.request = .mfaVerify challenge code newRefresh ∧
        MfaVerified env.toAuthEnv s challenge code call.now u ∧ u.id = a.sub) ∨
      ∃ x ∈ s.sessions, x.userId = a.sub) := by
  obtain ⟨request, now⟩ := call
  rcases kind env s ⟨request, now⟩ with hr | hr | hr | hr | hr
  · obtain rfl := hr
    obtain ⟨u, hname, hactive, hpassword, hmfa, rfl⟩ := granted_login h
    exact ⟨⟨u, getUserById_of_mem (List.mem_of_find?_eq_some hname), rfl⟩,
      .inl ⟨_, _, _, _, u, rfl, hname, rfl, hactive, hpassword, hmfa⟩⟩
  · obtain rfl := hr
    obtain ⟨u, hu, -, rfl⟩ := granted_mfaVerify.mp h
    exact ⟨⟨u, hu.getUserById, rfl⟩, .inr (.inl ⟨_, _, _, u, rfl, hu, rfl⟩)⟩
  · obtain rfl := hr
    obtain ⟨u, hu, -, rfl⟩ := granted_refreshToken.mp h
    refine ⟨⟨u, hu.getUserById, rfl⟩, .inr (.inr ?_)⟩
    obtain ⟨token, session, -, hsession, huser⟩ := hu
    exact ⟨session, List.mem_of_find?_eq_some hsession, (getUserById_id huser).symm⟩
  · obtain rfl := hr
    simp only [handle, Auth.logout] at h
    split at h <;> cases h
  · rw [hr.granted] at h
    cases h

/-! ## What a call does to the users -/

/-- What the endpoints behind a user's own token write. -/
def credentials (u : User) : String × Bool × Option String :=
  (u.passwordHash, u.mfaEnabled, u.mfaSecret)

/-- What the endpoints of administrators write. -/
def standing (u : User) : String × Uuid × Bool := (u.username, u.roleId, u.isActive)

inductive UsersChange (env : TokenEnv) (s : AuthState) (call : Call) : List User → Prop
  | same : UsersChange env s call s.users
  | own {user} {f : User → User} : getCurrentUser env call.request.token call.now = .ok user →
      (∀ u : User, (f u).id = u.id ∧ standing (f u) = standing u) →
      UsersChange env s call (s.users.map fun u => if u.id == user.id then f u else u)
  | admin {user users} :
      requirePermission env "users:write" call.request.token call.now = .ok user →
      (∀ u ∈ s.users, ∀ u' ∈ users, u'.id = u.id → credentials u' = credentials u) →
      UsersChange env s call users

theorem usersChange_same {s : AuthState} {call : Call} {users : List User}
    (h : users = s.users) : UsersChange env s call users := h ▸ .same

theorem eq_of_id_eq {s : AuthState} {u u' : User} (hu : u ∈ s.users) (hu' : u' ∈ s.users)
    (h : u'.id = u.id) : u' = u :=
  Option.some.inj ((getUserById_of_mem hu').symm.trans (h ▸ getUserById_of_mem hu))

/-- The endpoint writes no more than credentials, and no other row than the user's. -/
def OwnRow (s : AuthState) (user : CurrentUser) (h : Handled) : Prop :=
  h.1.users = s.users ∨ ∃ f : User → User,
    (∀ u, (f u).id = u.id ∧ standing (f u) = standing u) ∧
      h.1.users = s.users.map fun u => if u.id == user.id then f u else u

theorem usersChange_own {s : AuthState} {call : Call} {endpoint : CurrentUser → Handled}
    (h : ∀ user, OwnRow s user (endpoint user)) :
    UsersChange env s call
      (depends s (getCurrentUser env call.request.token call.now) endpoint).1.users := by
  cases huser : getCurrentUser env call.request.token call.now with
  | error e => exact .same
  | ok user =>
      show UsersChange env s call (endpoint user).1.users
      rcases h user with heq | ⟨f, hf, heq⟩
      · exact heq ▸ .same
      · exact heq ▸ .own huser hf

/-- Endpoints that require the permission to write users. -/
theorem usersChange_admin {s : AuthState} {call : Call} {endpoint : CurrentUser → Handled}
    (h : ∀ user, ∀ u ∈ s.users, ∀ u' ∈ (endpoint user).1.users, u'.id = u.id →
      credentials u' = credentials u) :
    UsersChange env s call
      (depends s (requirePermission env "users:write" call.request.token call.now)
        endpoint).1.users := by
  cases huser : requirePermission env "users:write" call.request.token call.now with
  | error e => exact .same
  | ok user => exact .admin huser (h user)

theorem ownRow_changeUser {s : AuthState} {user : CurrentUser} {f : User → User}
    (hf : ∀ u, (f u).id = u.id) (hstanding : ∀ u, standing (f u) = standing u) :
    OwnRow s user (changeUser s user.id f hf, .ok {}) :=
  .inr ⟨f, fun u => ⟨hf u, hstanding u⟩, rfl⟩

theorem ownRow_mfaEnroll (s : AuthState) (user : CurrentUser) (secret : String) :
    OwnRow s user (mfaEnroll s user secret) := by
  unfold mfaEnroll
  split
  · exact .inl rfl
  · split
    · exact .inl rfl
    · exact ownRow_changeUser _ fun _ => rfl

theorem ownRow_mfaEnrollVerify (s : AuthState) (user : CurrentUser) (code : String) (now : Nat) :
    OwnRow s user (mfaEnrollVerify env s user code now) := by
  unfold mfaEnrollVerify
  split
  · exact .inl rfl
  · split
    · exact .inl rfl
    · split
      · exact .inl rfl
      · split
        · exact ownRow_changeUser _ fun _ => rfl
        · exact .inl rfl

theorem ownRow_mfaDisable (s : AuthState) (user : CurrentUser) (password : String) :
    OwnRow s user (mfaDisable env s user password) := by
  unfold mfaDisable
  split
  · exact .inl rfl
  · split
    · exact .inl rfl
    · split
      · exact .inl rfl
      · exact ownRow_changeUser _ fun _ => rfl

theorem ownRow_changePassword (s : AuthState) (user : CurrentUser)
    (currentPassword newHash : String) :
    OwnRow s user (changePassword env s user currentPassword newHash) := by
  unfold changePassword
  split
  · exact .inl rfl
  · split
    · exact .inl rfl
    · exact ownRow_changeUser _ fun _ => rfl

theorem credentials_createUser {s : AuthState} {body : UserCreate} {roleFound stored : Bool}
    {newId : Uuid} {u u' : User} (hu : u ∈ s.users)
    (hu' : u' ∈ (createUser s body roleFound stored newId).1.users) (hid : u'.id = u.id) :
    credentials u' = credentials u := by
  unfold createUser at hu'
  split at hu'
  · rw [eq_of_id_eq hu hu' hid]
  · split at hu'
    · rw [eq_of_id_eq hu hu' hid]
    · split at hu'
      · next hnew =>
        rcases List.mem_append.mp hu' with hold | hlast
        · rw [eq_of_id_eq hu hold hid]
        · -- the id of the new row is in no other
          rw [List.mem_singleton.mp hlast] at hid
          exact absurd (List.mem_map.mpr ⟨u, hu, hid.symm⟩) hnew.2
      · rw [eq_of_id_eq hu hu' hid]

theorem credentials_updateUser {s : AuthState} {userId : Uuid} {body : UserUpdate} {u u' : User}
    (hu : u ∈ s.users) (hu' : u' ∈ (Auth.updateUser s userId body).1.users)
    (hid : u'.id = u.id) : credentials u' = credentials u := by
  unfold Auth.updateUser at hu'
  split at hu'
  · rw [eq_of_id_eq hu hu' hid]
  · obtain ⟨v, hv, rfl⟩ := List.mem_map.mp hu'
    have hkeep : ∀ v : User, (if v.id == userId then body.apply v else v).id = v.id ∧
        credentials (if v.id == userId then body.apply v else v) = credentials v := by
      intro v
      split <;> exact ⟨rfl, rfl⟩
    rw [(hkeep v).2, eq_of_id_eq hu hv ((hkeep v).1.symm.trans hid)]

theorem usersChange_handle (env : TokenEnv) (s : AuthState) (call : Call) :
    UsersChange env s call (handle env s call).1.users := by
  obtain ⟨request, now⟩ := call
  cases request with
  | login => exact usersChange_same sessionsFrom_login.users
  | mfaVerify => exact usersChange_same sessionsFrom_mfaVerify.users
  | refresh => exact usersChange_same sessionsFrom_refreshToken.users
  | logout => exact usersChange_same sessionsFrom_logout.users
  | mfaEnroll => exact usersChange_own fun user => ownRow_mfaEnroll s user _
  | mfaEnrollVerify => exact usersChange_own fun user => ownRow_mfaEnrollVerify s user _ _
  | mfaDisable => exact usersChange_own fun user => ownRow_mfaDisable s user _
  | changePassword => exact usersChange_own fun user => ownRow_changePassword s user _ _
  | createUser => exact usersChange_admin fun _ _ hu _ hu' => credentials_createUser hu hu'
  | updateUser => exact usersChange_admin fun _ _ hu _ hu' => credentials_updateUser hu hu'

/-! ## What every run keeps -/

/-- Whom a token was issued to, and with which role at that time. -/
def IssuedTo (env : TokenEnv) (trace : List Entry) (token : String) (user : CurrentUser) : Prop :=
  ∃ e ∈ trace, ∃ a u, granted e.result = some a ∧ token = env.encodeAccess a ∧ a.sub = user.id ∧
    a.role = user.role ∧ getUserById e.before user.id = some u ∧ user.role = env.roleName u.roleId

/-- The call is one of this user, who was authenticated, and to whom the token that it carries
was issued. -/
def CallOf (env : TokenEnv) (before : List Entry) (call : Call) (user : CurrentUser) : Prop :=
  getCurrentUser env call.request.token call.now = .ok user ∧ Authenticated env before user.id ∧
    ∃ token, call.request.token = some token ∧ IssuedTo env before token user

/-- What an entry rests on, given those before it. -/
structure EntryOk (env : TokenEnv) (before : List Entry) (e : Entry) : Prop where
  /-- A token goes to a user who was authenticated, in this call at the latest. -/
  tokens : ∀ a, granted e.result = some a → Authenticated env (before ++ [e]) a.sub
  /-- Passwords, secrets and MFA are changed by a call of their user. -/
  credentials : ∀ u ∈ e.before.users, ∀ u' ∈ (handle env e.before e.call).1.users,
    u'.id = u.id → credentials u' ≠ credentials u →
      ∃ user, CallOf env before e.call user ∧ user.id = u.id
  /-- Users are created, and their roles and `is_active` changed, by a call of a user whose role
  allowed it when the token was issued. -/
  standing : ∀ u' ∈ (handle env e.before e.call).1.users,
    (∀ u ∈ e.before.users, u.id = u'.id → standing u ≠ standing u') →
      ∃ admin, CallOf env before e.call admin ∧ hasPermission admin.role "users:write" = true

structure Inv (env : TokenEnv) (r : Run) : Prop where
  sessions : ∀ x ∈ r.state.sessions, Authenticated env r.trace x.userId
  tokens : ∀ e ∈ r.trace, ∀ a, granted e.result = some a → Authenticated env r.trace a.sub ∧
    ∃ u, getUserById e.before a.sub = some u ∧ a.role = env.roleName u.roleId
  challenges : ∀ e ∈ r.trace, ∀ token, challengeOf e.result = some token →
    ∃ userId, e.LoginOf env userId true ∧
      token = createMfaChallengeToken env.toAuthEnv userId e.call.now
  entries : Justified (EntryOk env) r.trace

variable {r : Run} {call : Call}

theorem mem_tokens {e : Entry} {token : String} (h : token ∈ e.tokens env) :
    (∃ a, granted e.result = some a ∧ token = env.encodeAccess a) ∨
      challengeOf e.result = some token := by
  rcases List.mem_append.mp h with h | h
  · rw [Option.mem_toList, Option.map_eq_some_iff] at h
    obtain ⟨a, ha, rfl⟩ := h
    exact .inl ⟨a, ha, rfl⟩
  · exact .inr (Option.mem_toList.mp h)

/-- A challenge that decodes as one comes from a login less than five minutes ago. -/
theorem Inv.challenged (h : Inv env r) (hlaw : Lawful env) {challenge code newRefresh : String}
    {now : Nat} (hunforged : Unforged env r ⟨.mfaVerify challenge code newRefresh, now⟩) {u : User}
    (hu : MfaVerified env.toAuthEnv r.state challenge code now u) :
    ∃ e ∈ r.trace, e.LoginOf env u.id true ∧ now < e.call.now + 5 * 60 := by
  obtain ⟨payload, userId, secret, hdecode, htype, hparse, huser, -⟩ := hu
  obtain ⟨e, he, htoken⟩ := hunforged challenge rfl (by rw [hdecode]; rfl)
  rcases mem_tokens htoken with ⟨a, -, rfl⟩ | hchallenge
  · -- an access token has another type
    obtain ⟨rfl, -⟩ := hlaw.decode_access now a payload hdecode
    exact absurd (Option.some.inj htype) (by decide)
  · obtain ⟨userId', hlogin, rfl⟩ := h.challenges e he challenge hchallenge
    obtain ⟨rfl, hexp⟩ := hlaw.decode_encode now _ payload hdecode
    rw [getUserById_id huser, hlaw.parse_toStr _ _ hparse]
    exact ⟨e, he, hlogin, hexp⟩

/-- A current user was authenticated, and has the role of the token. -/
theorem Inv.current (h : Inv env r) (hlaw : Lawful env) (hunforged : Unforged env r call)
    {user : CurrentUser} (huser : getCurrentUser env call.request.token call.now = .ok user) :
    CallOf env r.trace call user := by
  have hcurrent := huser
  unfold getCurrentUser at huser
  split at huser
  · cases huser
  · next token htoken =>
    split at huser
    · cases huser
    · next payload hdecode =>
      split at huser
      · cases huser
      · next htype =>
        rw [ne_eq, not_not] at htype
        split at huser
        · next id username role hid hclaims =>
          obtain rfl := Except.ok.inj huser
          obtain ⟨e, he, hmem⟩ := hunforged token htoken (by rw [hdecode]; rfl)
          rcases mem_tokens hmem with ⟨a, ha, rfl⟩ | hchallenge
          · obtain ⟨rfl, -, hwritten⟩ := hlaw.decode_access _ a payload hdecode
            obtain rfl := hlaw.parse_toStr _ _ hid
            rw [hwritten, Option.some.injEq, Prod.mk.injEq] at hclaims
            obtain ⟨rfl, rfl⟩ := hclaims
            obtain ⟨hauth, u, hu, hrole⟩ := h.tokens e he a ha
            exact ⟨hcurrent, hauth, _, htoken, e, he, a, u, ha, rfl, rfl, rfl, hu, hrole⟩
          · -- a challenge has another type
            obtain ⟨userId, -, rfl⟩ := h.challenges e he token hchallenge
            obtain ⟨rfl, -⟩ := hlaw.decode_encode _ _ payload hdecode
            exact absurd (Option.some.inj htype) (by decide)
        · cases huser

theorem tokens_of_granted (h : Inv env r) (hlaw : Lawful env) (hunforged : Unforged env r call)
    {a : AccessPayload} (ha : granted (handle env r.state call).2 = some a) :
    Authenticated env (r.trace ++ [⟨r.state, call, (handle env r.state call).2⟩]) a.sub := by
  obtain ⟨request, now⟩ := call
  rcases (granted_handle ha).2 with hlogin | ⟨challenge, code, newRefresh, u, hr, hu, hid⟩ |
    ⟨x, hx, hid⟩
  · exact .password (List.mem_append_right _ (List.mem_singleton.mpr rfl)) hlogin
  · obtain rfl := hr
    obtain ⟨e, he, hlogin, hnow⟩ := h.challenged hlaw hunforged hu
    obtain ⟨l₁, l₂, htrace⟩ := List.append_of_mem he
    obtain ⟨payload, userId, secret, -, -, -, huser, -, hsecret, htotp⟩ := hu
    rw [hid] at hlogin
    have hsplit : r.trace ++ [⟨r.state, ⟨.mfaVerify challenge code newRefresh, now⟩,
        (handle env r.state ⟨.mfaVerify challenge code newRefresh, now⟩).2⟩] =
          l₁ ++ e :: (l₂ ++ [⟨r.state, ⟨.mfaVerify challenge code newRefresh, now⟩,
            (handle env r.state ⟨.mfaVerify challenge code newRefresh, now⟩).2⟩]) := by
      rw [htrace, List.append_assoc, List.cons_append]
    refine .totp hsplit hlogin (List.mem_append_right _ (List.mem_singleton.mpr rfl)) ?_ hnow
    exact ⟨challenge, code, newRefresh, u, secret, rfl, hid ▸ getUserById_id huser ▸ huser,
      hsecret, htotp⟩
  · exact hid ▸ (h.sessions x hx).append _

theorem requirePermission_eq_ok {permission : String} {token : Option String} {now : Nat}
    {user : CurrentUser} (h : requirePermission env permission token now = .ok user) :
    getCurrentUser env token now = .ok user ∧ hasPermission user.role permission = true := by
  unfold requirePermission at h
  cases huser : getCurrentUser env token now with
  | error e =>
      rw [huser] at h
      cases h
  | ok current =>
      rw [huser, Except.bind] at h
      split at h
      · next hpermission =>
        obtain rfl := Except.ok.inj h
        exact ⟨rfl, hpermission⟩
      · cases h

theorem entryOk_step (h : Inv env r) (hlaw : Lawful env) (hunforged : Unforged env r call) :
    EntryOk env r.trace ⟨r.state, call, (handle env r.state call).2⟩ where
  tokens _ ha := tokens_of_granted h hlaw hunforged ha
  credentials := by
    intro u hu u' hu' hid hne
    have hchange := usersChange_handle env r.state call
    dsimp only at hu hu'
    generalize (handle env r.state call).1.users = users at hchange hu'
    cases hchange with
    | same => exact absurd (congrArg _ (eq_of_id_eq hu hu' hid)) hne
    | @own user f huser hf =>
        obtain ⟨v, hv, rfl⟩ := List.mem_map.mp hu'
        by_cases hself : v.id = user.id
        · rw [if_pos (beq_iff_eq.mpr hself), (hf v).1] at hid
          exact ⟨user, h.current hlaw hunforged huser, hself.symm.trans hid⟩
        · -- another row, which stays
          rw [if_neg (by simpa using hself)] at hid hne
          exact absurd (congrArg _ (eq_of_id_eq hu hv hid)) hne
    | admin huser hkeep => exact absurd (hkeep u hu u' hu' hid) hne
  standing := by
    intro u' hu' hnone
    have hchange := usersChange_handle env r.state call
    dsimp only at hnone hu'
    generalize (handle env r.state call).1.users = users at hchange hu'
    cases hchange with
    | same => exact absurd rfl (hnone u' hu' rfl)
    | own huser hf =>
        obtain ⟨v, hv, rfl⟩ := List.mem_map.mp hu'
        split at hnone
        · exact absurd (hf v).2.symm (hnone v hv (hf v).1.symm)
        · exact absurd rfl (hnone v hv rfl)
    | @admin user users huser hkeep =>
        obtain ⟨hcurrent, hpermission⟩ := requirePermission_eq_ok huser
        exact ⟨user, h.current hlaw hunforged hcurrent, hpermission⟩

theorem inv_step (hlaw : Lawful env) {r' : Run} (h : Inv env r) (hunforged : Unforged env r call)
    (hstep : step env r call = some r') : Inv env r' := by
  obtain rfl := Option.some.inj hstep
  have hentry := entryOk_step h hlaw hunforged
  constructor
  · intro x hx
    rcases sessions_handle hx with ⟨y, hy, hid⟩ | ⟨a, ha, hid⟩
    · exact hid ▸ (h.sessions y hy).append _
    · exact hid ▸ hentry.tokens a ha
  · intro e he a ha
    rcases List.mem_append.mp he with hold | hnew
    · exact ⟨(h.tokens e hold a ha).1.append _, (h.tokens e hold a ha).2⟩
    · obtain rfl := List.mem_singleton.mp hnew
      exact ⟨hentry.tokens a ha, (granted_handle ha).1⟩
  · intro e he token htoken
    rcases List.mem_append.mp he with hold | hnew
    · exact h.challenges e hold token htoken
    · obtain rfl := List.mem_singleton.mp hnew
      exact challengeOf_handle htoken
  · exact h.entries.concat hentry

theorem inv_inductive (hlaw : Lawful env) : (server env).InductiveBy (Unforged env) (Inv env) where
  init := by
    rintro r ⟨hsessions, htrace⟩
    constructor
    · rw [hsessions]
      exact List.forall_mem_nil _
    · rw [htrace]
      exact List.forall_mem_nil _
    · rw [htrace]
      exact List.forall_mem_nil _
    · rw [htrace]
      exact justified_nil
  step := fun _ _ _ h hunforged hstep => inv_step hlaw h hunforged hstep

/-- In every run in which clients present no token but those they were given, each call rests on
the calls before it: an access token only goes to a user who gave the right password while
active, and if MFA was on at that login then also the right TOTP code within five minutes, or
who refreshes a session that began so; passwords, TOTP secrets and MFA are only changed by calls
of the user they belong to, so authenticated; and users are only created, and their roles and
`is_active` changed, by calls of one so authenticated with a role that may write users. -/
theorem calls_accountable {r : Run} (hlaw : Lawful env)
    (h : (server env).ReachableBy (Unforged env) r) (before : List Entry) (e : Entry)
    (later : List Entry) (htrace : r.trace = before ++ e :: later) : EntryOk env before e :=
  ((inv_inductive hlaw).invariant r h).entries before e later htrace

/-! ## A run with MFA -/

def challengePayload : TokenPayload := ⟨some (Uuid.toStr 1), some "mfa_challenge", 300⟩

def accessPayload : AccessPayload := ⟨1, "alice", "Admin", 960, 60⟩

/-- Libraries that are right about the tokens of the run below. -/
def mfaEnv : TokenEnv where
  encodeToken := fun payload => if payload = challengePayload then "challenge" else "other"
  encodeAccess := fun access => if access = accessPayload then "access" else "other"
  decodeToken := fun now token =>
    if token = "challenge" ∧ now < 300 then some challengePayload
    else if token = "access" ∧ now < 960 then
      some ⟨some (Uuid.toStr 1), some "access", 960⟩
    else none
  claims := fun _ => some ("alice", "Admin")
  hashRefreshToken := id
  verifyPassword := fun password hashed => password == hashed
  verifyTotp := fun _ secret code => secret == code
  parseUuid := fun text => if text = Uuid.toStr 1 then some 1 else none
  roleName := fun _ => "Admin"
  maxAttempts := 5
  windowSeconds := 60
  accessTokenExpireMinutes := 15
  refreshTokenExpireDays := 7

theorem decodeToken_mfaEnv {now : Nat} {token : String} {payload : TokenPayload}
    (h : mfaEnv.decodeToken now token = some payload) :
    (token = "challenge" ∧ now < 300 ∧ payload = challengePayload) ∨
      (token = "access" ∧ now < 960 ∧ payload = ⟨some (Uuid.toStr 1), some "access", 960⟩) := by
  have htext : mfaEnv.decodeToken now token =
      if token = "challenge" ∧ now < 300 then some challengePayload
      else if token = "access" ∧ now < 960 then some ⟨some (Uuid.toStr 1), some "access", 960⟩
      else none := rfl
  rw [htext] at h
  split at h
  · next hc => exact .inl ⟨hc.1, hc.2, (Option.some.inj h).symm⟩
  · split at h
    · next ha => exact .inr ⟨ha.1, ha.2, (Option.some.inj h).symm⟩
    · cases h

theorem lawful_mfaEnv : Lawful mfaEnv where
  parse_toStr := by
    intro u v h
    simp only [mfaEnv, Option.ite_none_right_eq_some, Option.some.injEq] at h
    obtain ⟨htext, rfl⟩ := h
    exact (Uuid.toStr_injective htext).symm
  decode_encode := by
    intro now payload payload' h
    have htext : mfaEnv.encodeToken payload =
        if payload = challengePayload then "challenge" else "other" := rfl
    rw [htext] at h
    split at h
    · next hpayload =>
      rcases decodeToken_mfaEnv h with ⟨-, hnow, rfl⟩ | ⟨hne, -⟩
      · exact ⟨hpayload.symm, hpayload ▸ hnow⟩
      · exact absurd hne (by decide)
    · rcases decodeToken_mfaEnv h with ⟨hne, -⟩ | ⟨hne, -⟩ <;> exact absurd hne (by decide)
  decode_access := by
    intro now access payload' h
    have htext : mfaEnv.encodeAccess access =
        if access = accessPayload then "access" else "other" := rfl
    rw [htext] at h
    split at h
    · next haccess =>
      rcases decodeToken_mfaEnv h with ⟨hne, -⟩ | ⟨-, hnow, rfl⟩
      · exact absurd hne (by decide)
      · subst haccess
        exact ⟨rfl, hnow, rfl⟩
    · rcases decodeToken_mfaEnv h with ⟨hne, -⟩ | ⟨hne, -⟩ <;> exact absurd hne (by decide)

def aliceWithMfa : Run where
  state := {
    users := [{ alice with mfaEnabled := true, mfaSecret := some "123456" }]
    sessions := []
    attempts := fun _ => []
    unique := by decide }
  trace := []

def mfaCalls : List Call :=
  [⟨.login "alice" "pw" "10.0.0.1" "t1", 0⟩, ⟨.mfaVerify "challenge" "123456" "t1", 60⟩,
    ⟨.changePassword (some "access") "pw" "pw2", 70⟩]

/-- `Unforged`, as a test. -/
def unforged (env : TokenEnv) (r : Run) (call : Call) : Bool :=
  match call.request.token with
  | none => true
  | some token => (env.decodeToken call.now token).isNone ||
      r.trace.any fun e => (e.tokens env).contains token

theorem unforged_of_test {r : Run} {call : Call} (h : unforged env r call = true) :
    Unforged env r call := by
  intro token htoken hdecodes
  rw [unforged, htoken, Bool.or_eq_true] at h
  rcases h with h | h
  · rw [Option.isNone_iff_eq_none.mp h] at hdecodes
    cases hdecodes
  · obtain ⟨e, he, hmem⟩ := List.any_eq_true.mp h
    exact ⟨e, he, List.contains_iff_mem.mp hmem⟩

/-- The user logs in with the password, answers the challenge with the code, and changes the
password with the access token, which the two calls before are the grounds of. -/
theorem calls_accountable_mfa : ∃ r before e,
    (server mfaEnv).ReachableBy (Unforged mfaEnv) r ∧ r.trace = before ++ [e] ∧
      before.length = 2 ∧ r.state.users.map (·.passwordHash) = ["pw2"] ∧
      EntryOk mfaEnv before e := by
  have hruns : ((server mfaEnv).run aliceWithMfa mfaCalls).map
      (fun r => (r.trace.length, r.state.users.map (·.passwordHash))) = some (3, ["pw2"]) := by
    decide +kernel
  obtain ⟨r, hrun, hr⟩ := Option.map_eq_some_iff.mp hruns
  obtain ⟨hlength, hchanged⟩ := Prod.mk.inj hr
  have hne : r.trace ≠ [] := List.ne_nil_of_length_pos (by rw [hlength]; decide)
  have htrace : r.trace = r.trace.dropLast ++ [r.trace.getLast hne] :=
    (List.dropLast_append_getLast hne).symm
  have hok : (server mfaEnv).RunOk (Unforged mfaEnv) aliceWithMfa mfaCalls :=
    TSys.runOk_of_runAll (fun _ _ => unforged_of_test) rfl
  have hinit : (server mfaEnv).init aliceWithMfa := ⟨rfl, rfl⟩
  have hreach := TSys.reachableBy_run (.init hinit) mfaCalls hok hrun
  exact ⟨r, _, _, hreach, htrace, by rw [List.length_dropLast, hlength], hchanged,
    calls_accountable lawful_mfaEnv hreach _ _ [] htrace⟩

end AkesoDlp.Server.TokenProvenance
