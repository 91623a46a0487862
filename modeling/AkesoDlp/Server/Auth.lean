import AkesoDlp.Server.CommandQueue
import AkesoDlp.Lib.Keyed
import Mathlib.Data.List.Nodup

/-!
# Logins, refresh tokens and deactivated users

The endpoints of `api/auth.py` that issue access tokens, `logout`, and
`update_user` of `api/users.py`, as requests that run one after the other. JWT,
bcrypt, TOTP and SHA-256 are parameters. Every access token that an endpoint
returns is entered in a ledger with the `is_active` flag that its user had at
that moment.
-/

namespace AkesoDlp.Server.Auth

open Lib

/-- The claims of a JWT that the server reads back. -/
structure TokenPayload where
  sub : Option String
  type : Option String
  exp : Nat
deriving DecidableEq, Repr

/-- What the service takes from its libraries and settings. -/
structure AuthEnv where
  /-- `jwt.encode` with the server's secret. -/
  encodeToken : TokenPayload → String
  /-- `jwt.decode` at a time: `none` when the token is invalid or expired. -/
  decodeToken : Nat → String → Option TokenPayload
  hashRefreshToken : String → String
  verifyPassword : String → String → Bool
  verifyTotp : Nat → String → String → Bool
  parseUuid : String → Option Uuid
  roleName : Uuid → String
  maxAttempts : Nat
  windowSeconds : Nat
  accessTokenExpireMinutes : Nat
  refreshTokenExpireDays : Nat

structure HttpError where
  status : Nat
  detail : String
deriving DecidableEq, Repr

structure User where
  id : Uuid
  username : String
  passwordHash : String
  isActive : Bool
  mfaEnabled : Bool
  mfaSecret : Option String
  roleId : Uuid
deriving DecidableEq, Repr

structure Session where
  userId : Uuid
  refreshTokenHash : String
  expiresAt : Nat
  revoked : Bool
deriving DecidableEq, Repr

/-- The claims of an access token. -/
structure AccessPayload where
  sub : Uuid
  username : String
  role : String
  exp : Nat
  iat : Nat
deriving DecidableEq, Repr

/-- The body of a successful response; `access_token` is empty in an MFA
challenge. -/
structure TokenResponse where
  accessToken : Option AccessPayload := none
  mfaChallengeToken : Option String := none
deriving DecidableEq, Repr

/-- The tables and the rate limiter. User ids are a primary key. -/
structure AuthState where
  users : List User
  sessions : List Session
  /-- The login attempts of each client address. -/
  attempts : String → List Nat
  unique : (users.map (·.id)).Nodup

/-- A result that the endpoint returns or raises, with what it committed. -/
abbrev Handled := AuthState × Except HttpError TokenResponse

variable (env : AuthEnv)

def getUserByUsername (s : AuthState) (username : String) : Option User :=
  s.users.find? fun u => u.username == username

def getUserById (s : AuthState) (userId : Uuid) : Option User :=
  s.users.find? fun u => u.id == userId

def createAccessToken (u : User) (now : Nat) : AccessPayload where
  sub := u.id
  username := u.username
  role := env.roleName u.roleId
  exp := now + env.accessTokenExpireMinutes * 60
  iat := now

/-- `create_mfa_challenge_token`: five minutes. -/
def createMfaChallengeToken (userId : Uuid) (now : Nat) : String :=
  env.encodeToken ⟨some userId.toStr, some "mfa_challenge", now + 5 * 60⟩

/-- `create_session`: `none` when the hash is taken (a unique column). -/
def createSession (s : AuthState) (userId : Uuid) (refreshToken : String) (now : Nat) :
    Option AuthState :=
  if s.sessions.any fun x => x.refreshTokenHash == env.hashRefreshToken refreshToken then none
  else some { s with
    sessions := s.sessions ++ [{
      userId := userId
      refreshTokenHash := env.hashRefreshToken refreshToken
      expiresAt := now + env.refreshTokenExpireDays * 86400
      revoked := false }] }

/-- `get_session_by_token`: not revoked and not expired. -/
def getSessionByToken (s : AuthState) (refreshToken : String) (now : Nat) : Option Session :=
  s.sessions.find? fun x =>
    x.refreshTokenHash == env.hashRefreshToken refreshToken && !x.revoked &&
      decide (now < x.expiresAt)

/-- `revoke_session`. The hash is unique, so it names the row. -/
def revokeSession (s : AuthState) (session : Session) : AuthState :=
  { s with
    sessions := s.sessions.map fun x =>
      if x.refreshTokenHash == session.refreshTokenHash then { x with revoked := true } else x }

/-- `RateLimiter.check`: prune the bucket, and tell whether it is full. -/
def checkLimit (s : AuthState) (clientIp : String) (now : Nat) : AuthState × Bool :=
  let recent := (s.attempts clientIp).filter fun t => decide (now - t < env.windowSeconds)
  ({ s with attempts := Function.update s.attempts clientIp recent },
    decide (env.maxAttempts ≤ recent.length))

/-- `RateLimiter.record`. -/
def recordAttempt (s : AuthState) (clientIp : String) (now : Nat) : AuthState :=
  { s with attempts := Function.update s.attempts clientIp (s.attempts clientIp ++ [now]) }

/-- `RateLimiter.reset`. -/
def resetAttempts (s : AuthState) (clientIp : String) : AuthState :=
  { s with attempts := Function.update s.attempts clientIp [] }

/-- What FastAPI answers when an exception escapes the endpoint. -/
def internalError : HttpError := ⟨500, "Internal Server Error"⟩

/-- `_issue_tokens`. -/
def issueTokens (s : AuthState) (u : User) (newRefresh : String) (now : Nat) : Handled :=
  let access := createAccessToken env u now
  match createSession env s u.id newRefresh now with
  | some s' => (s', .ok { accessToken := some access })
  | none => (s, .error internalError)

def login (s : AuthState) (username password clientIp newRefresh : String) (now : Nat) : Handled :=
  let (s, full) := checkLimit env s clientIp now
  if full then (s, .error ⟨429, "Too many login attempts. Try again later."⟩)
  else
    match (getUserByUsername s username).filter
        fun u => env.verifyPassword password u.passwordHash with
    | none => (recordAttempt s clientIp now, .error ⟨401, "Invalid username or password"⟩)
    | some u =>
        if !u.isActive then (s, .error ⟨403, "Account is disabled"⟩)
        else if u.mfaEnabled then
          (s, .ok { mfaChallengeToken := some (createMfaChallengeToken env u.id now) })
        else issueTokens env (resetAttempts s clientIp) u newRefresh now

/-- `if not user.mfa_secret`. -/
def secretOf (u : User) : Option String := u.mfaSecret.filter fun secret => !secret.isEmpty

def mfaVerify (s : AuthState) (challenge code newRefresh : String) (now : Nat) : Handled :=
  match env.decodeToken now challenge with
  | none => (s, .error ⟨401, "Invalid or expired MFA challenge token"⟩)
  | some payload =>
      if payload.type ≠ some "mfa_challenge" then (s, .error ⟨401, "Invalid token type"⟩)
      else
        match payload.sub.bind env.parseUuid with
        | none => (s, .error internalError)
        | some userId =>
            match (getUserById s userId).filter (·.mfaEnabled) with
            | none => (s, .error ⟨401, "MFA not configured for this user"⟩)
            | some u =>
                match secretOf u with
                | none => (s, .error ⟨401, "MFA not configured for this user"⟩)
                | some secret =>
                    if env.verifyTotp now secret code then issueTokens env s u newRefresh now
                    else (s, .error ⟨401, "Invalid TOTP code"⟩)

/-- `if not refresh_token`. -/
def cookieValue (cookie : Option String) : Option String := cookie.filter fun t => !t.isEmpty

def refreshToken (s : AuthState) (cookie : Option String) (newRefresh : String) (now : Nat) :
    Handled :=
  match cookieValue cookie with
  | none => (s, .error ⟨401, "No refresh token provided"⟩)
  | some token =>
      match getSessionByToken env s token now with
      | none => (s, .error ⟨401, "Invalid or expired refresh token"⟩)
      | some session =>
          let s := revokeSession s session
          match getUserById s session.userId with
          | none => (s, .error internalError)
          | some u =>
              match createSession env s u.id newRefresh now with
              | none => (s, .error internalError)
              | some s' => (s', .ok { accessToken := some (createAccessToken env u now) })

def logout (s : AuthState) (cookie : Option String) (now : Nat) : Handled :=
  match (cookieValue cookie).bind fun token => getSessionByToken env s token now with
  | some session => (revokeSession s session, .ok {})
  | none => (s, .ok {})

/-- The fields of `UserUpdate` that the endpoints above read. -/
structure UserUpdate where
  isActive : Option Bool := none
  roleId : Option Uuid := none
deriving DecidableEq, Repr

def UserUpdate.apply (body : UserUpdate) (u : User) : User :=
  { u with isActive := body.isActive.getD u.isActive, roleId := body.roleId.getD u.roleId }

theorem map_id_update (users : List User) (userId : Uuid) (body : UserUpdate) :
    ((users.map fun u => if u.id == userId then body.apply u else u).map (·.id)) =
      users.map (·.id) := by
  rw [List.map_map]
  apply List.map_congr_left
  intro u _
  by_cases h : u.id = userId <;> simp [h, UserUpdate.apply]

def updateUser (s : AuthState) (userId : Uuid) (body : UserUpdate) : Handled :=
  match getUserById s userId with
  | none => (s, .error ⟨404, "User not found"⟩)
  | some _ =>
      ({ s with
        users := s.users.map fun u => if u.id == userId then body.apply u else u
        unique := by
          rw [map_id_update]
          exact s.unique }, .ok {})

/-- A request; `newRefresh` is what `secrets.token_urlsafe` returns in it. -/
inductive AuthRequest
  | login (username password clientIp newRefresh : String) (now : Nat)
  | mfaVerify (challenge code newRefresh : String) (now : Nat)
  | refresh (cookie : Option String) (newRefresh : String) (now : Nat)
  | logout (cookie : Option String) (now : Nat)
  | updateUser (userId : Uuid) (body : UserUpdate)
deriving DecidableEq, Repr

def handle (s : AuthState) : AuthRequest → Handled
  | .login username password clientIp newRefresh now =>
      login env s username password clientIp newRefresh now
  | .mfaVerify challenge code newRefresh now => mfaVerify env s challenge code newRefresh now
  | .refresh cookie newRefresh now => refreshToken env s cookie newRefresh now
  | .logout cookie now => logout env s cookie now
  | .updateUser userId body => updateUser s userId body

/-- The access token of a response. -/
def granted (r : Except HttpError TokenResponse) : Option AccessPayload :=
  r.toOption.bind (·.accessToken)

/-- An access token in the ledger: for whom, and the user's `is_active` when it
was issued. -/
structure Issued where
  userId : Uuid
  isActive : Bool
deriving DecidableEq, Repr

structure AuthRun where
  state : AuthState
  issued : List Issued

def activeNow (s : AuthState) (userId : Uuid) : Bool :=
  (getUserById s userId).any (·.isActive)

def authStep (r : AuthRun) (req : AuthRequest) : Option AuthRun :=
  let handled := handle env r.state req
  some {
    state := handled.1
    issued := r.issued ++ (granted handled.2).toList.map fun access =>
      ⟨access.sub, activeNow r.state access.sub⟩ }

def auth : TSys AuthRun AuthRequest where
  init := fun r => r.issued = []
  step := authStep env

/-- No access token was issued for a user who was inactive at that moment. -/
def NoInactiveIssue (r : AuthRun) : Prop := ∀ e ∈ r.issued, e.isActive = true

/-! ## Who gets an access token -/

/-- The challenge token and the TOTP code are right for the user. -/
def MfaVerified (s : AuthState) (challenge code : String) (now : Nat) (u : User) : Prop :=
  ∃ payload userId secret, env.decodeToken now challenge = some payload ∧
    payload.type = some "mfa_challenge" ∧ payload.sub.bind env.parseUuid = some userId ∧
    getUserById s userId = some u ∧ u.mfaEnabled = true ∧ secretOf u = some secret ∧
    env.verifyTotp now secret code = true

/-- The cookie names a live session of the user. -/
def Refreshable (s : AuthState) (cookie : Option String) (now : Nat) (u : User) : Prop :=
  ∃ token session, cookieValue cookie = some token ∧
    getSessionByToken env s token now = some session ∧ getUserById s session.userId = some u

/-- A session with the new refresh token can be stored. -/
def HashFree (s : AuthState) (newRefresh : String) : Prop :=
  ∀ x ∈ s.sessions, x.refreshTokenHash ≠ env.hashRefreshToken newRefresh

/-- The requests that grant nothing to an inactive user: none that completes an
MFA challenge or refreshes a session of one. -/
def OnlyActive (r : AuthRun) : AuthRequest → Prop
  | .mfaVerify challenge code newRefresh now =>
      ∀ u, MfaVerified env r.state challenge code now u → HashFree env r.state newRefresh →
        u.isActive = true
  | .refresh cookie newRefresh now =>
      ∀ u, Refreshable env r.state cookie now u → HashFree env r.state newRefresh →
        u.isActive = true
  | _ => True

variable {env} {s : AuthState}

theorem getUserById_id {userId : Uuid} {u : User} (h : getUserById s userId = some u) :
    u.id = userId := by
  have := List.find?_some h
  simpa using this

/-- Ids are unique, so a user that any query finds is found by its id. -/
theorem getUserById_of_mem {u : User} (h : u ∈ s.users) : getUserById s u.id = some u :=
  find?_key_of_mem s.unique h

theorem activeNow_of_getUserById {userId : Uuid} {u : User} (h : getUserById s userId = some u) :
    activeNow s u.id = u.isActive := by
  rw [activeNow, getUserById_id h, h, Option.any_some]

theorem createSession_eq_none {userId : Uuid} {newRefresh : String} {now : Nat} :
    createSession env s userId newRefresh now = none ↔ ¬ HashFree env s newRefresh := by
  simp [createSession, HashFree]

theorem hashFree_revokeSession {session : Session} {newRefresh : String} :
    HashFree env (revokeSession s session) newRefresh ↔ HashFree env s newRefresh := by
  simp only [HashFree, revokeSession, List.forall_mem_map]
  refine forall₂_congr fun x _ => ?_
  split <;> rfl

theorem granted_issueTokens {u : User} {newRefresh : String} {now : Nat} {a : AccessPayload} :
    granted (issueTokens env s u newRefresh now).2 = some a ↔
      HashFree env s newRefresh ∧ createAccessToken env u now = a := by
  unfold issueTokens
  cases h : createSession env s u.id newRefresh now with
  | none =>
      have := createSession_eq_none.mp h
      simp [granted, Except.toOption, this]
  | some s' =>
      have : HashFree env s newRefresh := by
        by_contra hnot
        rw [createSession_eq_none.mpr hnot] at h
        cases h
      simp [granted, Except.toOption, this]

/-- `login` checks `is_active`. -/
theorem active_of_login {username password clientIp newRefresh : String} {now : Nat}
    {a : AccessPayload}
    (h : granted (login env s username password clientIp newRefresh now).2 = some a) :
    activeNow s a.sub = true := by
  simp only [login] at h
  split at h
  · simp [granted, Except.toOption] at h
  · split at h
    · simp [granted, Except.toOption] at h
    · next u hu =>
        split at h
        · simp [granted, Except.toOption] at h
        · next hactive =>
            split at h
            · simp [granted, Except.toOption] at h
            · obtain ⟨-, rfl⟩ := granted_issueTokens.mp h
              have hmem : u ∈ s.users :=
                List.mem_of_find?_eq_some (Option.filter_eq_some_iff.mp hu).1
              show activeNow s u.id = true
              rw [activeNow_of_getUserById (getUserById_of_mem hmem)]
              simpa using hactive

theorem granted_mfaVerify {challenge code newRefresh : String} {now : Nat} {a : AccessPayload} :
    granted (mfaVerify env s challenge code newRefresh now).2 = some a ↔
      ∃ u, MfaVerified env s challenge code now u ∧ HashFree env s newRefresh ∧
        createAccessToken env u now = a := by
  unfold mfaVerify MfaVerified
  cases hpayload : env.decodeToken now challenge with
  | none => simp [granted, Except.toOption]
  | some payload =>
      by_cases htype : payload.type = some "mfa_challenge"
      · cases hid : payload.sub.bind env.parseUuid with
        | none => simp [granted, Except.toOption, htype, hid]
        | some userId =>
            cases hu : getUserById s userId with
            | none => simp [granted, Except.toOption, htype, hid, hu]
            | some u =>
                cases hmfa : u.mfaEnabled with
                | false => simp [granted, Except.toOption, htype, hid, hu, hmfa, Option.filter]
                | true =>
                    cases hsecret : secretOf u with
                    | none =>
                        simp [granted, Except.toOption, htype, hid, hu, hmfa, hsecret,
                          Option.filter]
                    | some secret =>
                        cases htotp : env.verifyTotp now secret code with
                        | false =>
                            simp [granted, Except.toOption, htype, hid, hu, hmfa, hsecret, htotp,
                              Option.filter]
                        | true =>
                            simp [htype, hid, hu, hmfa, hsecret, htotp, Option.filter,
                              granted_issueTokens]
      · simp [granted, Except.toOption, htype]

theorem granted_refreshToken {cookie : Option String} {newRefresh : String} {now : Nat}
    {a : AccessPayload} :
    granted (refreshToken env s cookie newRefresh now).2 = some a ↔
      ∃ u, Refreshable env s cookie now u ∧ HashFree env s newRefresh ∧
        createAccessToken env u now = a := by
  unfold refreshToken Refreshable
  cases htoken : cookieValue cookie with
  | none => simp [granted, Except.toOption]
  | some token =>
      cases hsession : getSessionByToken env s token now with
      | none => simp [granted, Except.toOption, hsession]
      | some session =>
          -- revoking a session touches no user
          have husers : getUserById (revokeSession s session) session.userId =
            getUserById s session.userId := rfl
          cases hu : getUserById s session.userId with
          | none => simp [granted, Except.toOption, hsession, husers, hu]
          | some u =>
              have hgranted := @granted_issueTokens env (revokeSession s session) u newRefresh now a
              rw [hashFree_revokeSession] at hgranted
              unfold issueTokens at hgranted
              simp only [hsession, husers, hu, Option.some.injEq, exists_eq_left',
                exists_and_left, ← hgranted]
              cases createSession env (revokeSession s session) u.id newRefresh now with
              | none => simp
              | some s' => simp

theorem Refreshable.getUserById {cookie : Option String} {now : Nat} {u : User}
    (h : Refreshable env s cookie now u) : getUserById s u.id = some u := by
  obtain ⟨_, session, -, -, hu⟩ := h
  exact getUserById_id hu ▸ hu

theorem MfaVerified.getUserById {challenge code : String} {now : Nat} {u : User}
    (h : MfaVerified env s challenge code now u) : getUserById s u.id = some u := by
  obtain ⟨_, _, _, -, -, -, hu, -⟩ := h
  exact getUserById_id hu ▸ hu

/-- A grant that follows from a credential of a user goes to an active user
exactly when every user with that credential is active. -/
theorem active_iff_of_grant {Credential : User → Prop} {free : Prop} {now : Nat}
    {r : Except HttpError TokenResponse}
    (hgrant : ∀ a, granted r = some a ↔
      ∃ u, Credential u ∧ free ∧ createAccessToken env u now = a)
    (huser : ∀ u, Credential u → getUserById s u.id = some u) :
    (∀ a, granted r = some a → activeNow s a.sub = true) ↔
      ∀ u, Credential u → free → u.isActive = true := by
  constructor
  · intro h u hu hfree
    rw [← activeNow_of_getUserById (huser u hu)]
    exact h (createAccessToken env u now) ((hgrant _).mpr ⟨u, hu, hfree, rfl⟩)
  · intro h a ha
    obtain ⟨u, hu, hfree, rfl⟩ := (hgrant a).mp ha
    show activeNow s u.id = true
    rw [activeNow_of_getUserById (huser u hu)]
    exact h u hu hfree

/-- What one request grants goes to an active user exactly under `OnlyActive`. -/
theorem active_of_granted_iff (r : AuthRun) (req : AuthRequest) :
    (∀ a, granted (handle env r.state req).2 = some a → activeNow r.state a.sub = true) ↔
      OnlyActive env r req := by
  cases req with
  | login username password clientIp newRefresh now =>
      exact iff_of_true (fun a ha => active_of_login ha) trivial
  | mfaVerify challenge code newRefresh now =>
      exact active_iff_of_grant (fun a => granted_mfaVerify) fun u hu => hu.getUserById
  | refresh cookie newRefresh now =>
      exact active_iff_of_grant (fun a => granted_refreshToken) fun u hu => hu.getUserById
  | logout cookie now =>
      refine iff_of_true (fun a ha => ?_) trivial
      simp only [handle, logout] at ha
      split at ha <;> simp [granted, Except.toOption] at ha
  | updateUser userId body =>
      refine iff_of_true (fun a ha => ?_) trivial
      simp only [handle, updateUser] at ha
      split at ha <;> simp [granted, Except.toOption] at ha

theorem noInactiveIssue_step {r r' : AuthRun} {req : AuthRequest}
    (h : authStep env r req = some r') :
    NoInactiveIssue r' ↔ NoInactiveIssue r ∧ OnlyActive env r req := by
  rw [← active_of_granted_iff, authStep, Option.some.injEq] at *
  subst h
  simp only [NoInactiveIssue, List.forall_mem_append, List.forall_mem_map, Option.mem_toList]

/-- A run has issued nothing to an inactive user if and only if all its requests
satisfied `OnlyActive` where they were made. -/
theorem noInactiveIssue_iff {r r' : AuthRun} {reqs : List AuthRequest} (hr : r.issued = [])
    (h : (auth env).run r reqs = some r') :
    NoInactiveIssue r' ↔ (auth env).RunOk (OnlyActive env) r reqs := by
  rw [TSys.run_iff_runOk (fun _ _ _ => noInactiveIssue_step) h]
  refine and_iff_right fun e he => ?_
  rw [hr] at he
  exact (List.not_mem_nil he).elim

/-! ## A deactivated user with a refresh token -/

def alice : User where
  id := 1
  username := "alice"
  passwordHash := "pw"
  isActive := true
  mfaEnabled := false
  mfaSecret := none
  roleId := 2

/-- Libraries that are right about the inputs below. -/
def sampleEnv : AuthEnv where
  encodeToken := fun _ => ""
  decodeToken := fun _ _ => none
  hashRefreshToken := id
  verifyPassword := fun password hashed => password == hashed
  verifyTotp := fun _ _ _ => false
  parseUuid := fun _ => none
  roleName := fun _ => "Analyst"
  maxAttempts := 5
  windowSeconds := 60
  accessTokenExpireMinutes := 15
  refreshTokenExpireDays := 7

def aliceOnly : AuthRun where
  state := { users := [alice], sessions := [], attempts := fun _ => [], unique := by decide }
  issued := []

/-- While alice is active her login and her refresh are fine. -/
theorem noInactiveIssue_alice :
    ∃ r, (auth sampleEnv).run aliceOnly
        [.login "alice" "pw" "10.0.0.1" "t1" 0, .refresh (some "t1") "t2" 60] = some r ∧
      r.issued.length = 2 ∧
      (NoInactiveIssue r ↔ (auth sampleEnv).RunOk (OnlyActive sampleEnv) aliceOnly
        [.login "alice" "pw" "10.0.0.1" "t1" 0, .refresh (some "t1") "t2" 60]) :=
  ⟨_, rfl, rfl, noInactiveIssue_iff rfl rfl⟩

/-- Alice logs in, is deactivated, and refreshes her access token. -/
theorem inactive_alice_refreshes :
    ¬ ∀ env r reqs r', r.issued = [] → (auth env).run r reqs = some r' → NoInactiveIssue r' := by
  intro h
  have hrun : ∃ r, (auth sampleEnv).run aliceOnly
        [.login "alice" "pw" "10.0.0.1" "t1" 0, .updateUser 1 { isActive := some false },
          .refresh (some "t1") "t2" 60] = some r ∧
      r.issued = [⟨1, true⟩, ⟨1, false⟩] := ⟨_, rfl, rfl⟩
  obtain ⟨r, hr, hissued⟩ := hrun
  have hactive := h sampleEnv aliceOnly _ r rfl hr ⟨1, false⟩ (by simp [hissued])
  cases hactive

end AkesoDlp.Server.Auth
