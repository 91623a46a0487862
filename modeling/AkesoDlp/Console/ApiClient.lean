import AkesoDlp.Server.TokenProvenance

/-!
# The console and its server

`request` and `refreshToken` of the console's API client with the calls of its `authStore`, for
any number of page loads that share the cookies of one browser, against the endpoints of
`api/auth.py`. Sending a fetch, serving it, the arrival of the response and the continuation of
the caller are steps of their own, so any number of fetches are on their way at once, and a
response may come late or never. On the server a refresh is its SELECT and, later, its commits.
-/

namespace AkesoDlp.Console

open Lib Server Server.Auth Server.TokenProvenance

structure ConsoleEnv extends TokenEnv where
  /-- The `detail` that `request` reads off the body of an error. -/
  errorDetail : String → String

/-- A page load: `accessToken` is a variable of its module. -/
abbrev Tab := Nat

abbrev CallId := Nat

/-- The endpoint that a call is for. -/
inductive Path
  /-- One that depends on a current user. -/
  | api
  | login (username password clientIp : String)
  | mfaVerify (challenge code : String)
  | refresh
  | logout
deriving DecidableEq, Repr

/-- The fetches of one call of `request`, in order. -/
inductive Attempt
  | first
  /-- That of `refreshToken`. -/
  | silent
  | retry
deriving DecidableEq, Repr

structure Fetch where
  path : Path
  authorization : Option String
  cookie : Option String
deriving DecidableEq, Repr

structure Reply where
  status : Nat
  body : String := ""
  /-- `access_token` of a JSON body. -/
  accessToken : Option String := none
  /-- The new value of the cookie, where the response sets it. -/
  setCookie : Option String := none
deriving DecidableEq, Repr

def Reply.ok (r : Reply) : Bool := decide (200 ≤ r.status ∧ r.status < 300)

/-- How a call of `request` ends. -/
inductive Outcome
  | value (body : String)
  | apiError (status : Nat) (detail : String)
  /-- The second fetch itself throws. -/
  | rejected
deriving DecidableEq, Repr

inductive Phase
  | waiting (attempt : Attempt)
  | arrived (attempt : Attempt) (reply : Reply)
  | settled (outcome : Outcome)
deriving DecidableEq, Repr

structure Call where
  tab : Tab
  path : Path
  phase : Phase
deriving DecidableEq, Repr

/-- What has become of a fetch outside the page. -/
inductive Exchange
  | unsent
  | sent (fetch : Fetch)
  /-- A refresh whose SELECT has found the session of the token. -/
  | selected (token : String) (session : Session) (user : User)
  | replied (reply : Reply)
deriving DecidableEq, Repr

/-- What happens to sessions and logins, in order. -/
inductive Event
  | issued (token : String) (expiresAt : Nat)
  | used (token : String)
  /-- The SELECT of a refresh finds the session of the cookie. -/
  | accepted (call : CallId) (cookie : Option String) (now : Nat)
  | refused (call : CallId) (cookie : Option String) (now : Nat)
  /-- A refresh gets no response, or an internal error. -/
  | failed (call : CallId)
  /-- The page goes to the login page. -/
  | signedOut (call : CallId)
deriving DecidableEq, Repr

structure World where
  server : AuthState
  cookie : Option String
  accessToken : Tab → Option String
  calls : CallId → Option Call
  exchanges : CallId × Attempt → Exchange
  /-- What the endpoints behind a current user have answered. -/
  served : List (CallId × Reply)
  events : List Event

inductive Action
  | start (call : CallId) (tab : Tab) (path : Path)
  /-- `own` is the status and the body of the endpoint, where it is not one of `api/auth.py`. -/
  | serve (call : CallId) (attempt : Attempt) (newRefresh : String) (now : Nat)
      (own : Nat × String)
  | select (call : CallId) (attempt : Attempt) (now : Nat)
  | commit (call : CallId) (attempt : Attempt) (newRefresh : String) (now : Nat)
  | arrive (call : CallId)
  | resume (call : CallId)
  /-- `fetch` throws. -/
  | fail (call : CallId) (detail : String)
deriving DecidableEq, Repr

/-! ## The page -/

def World.setPhase (w : World) (c : CallId) (call : Call) (phase : Phase) : World :=
  { w with calls := Function.update w.calls c (some { call with phase := phase }) }

def World.setToken (w : World) (tab : Tab) (token : Option String) : World :=
  { w with accessToken := Function.update w.accessToken tab token }

def World.setExchange (w : World) (c : CallId) (attempt : Attempt) (x : Exchange) : World :=
  { w with exchanges := Function.update w.exchanges (c, attempt) x }

/-- `fetch`, with `credentials: 'include'`. -/
def World.fetch (w : World) (c : CallId) (call : Call) (attempt : Attempt) (path : Path)
    (authorization : Option String) : World :=
  (w.setPhase c call (.waiting attempt)).setExchange c attempt
    (.sent ⟨path, authorization, w.cookie⟩)

/-- What the caller in `authStore` does with the token of its page when `request` ends: `reply`
is the response that it returns. -/
def continuation (path : Path) (reply : Option Reply) (current : Option String) :
    Option String :=
  match path with
  | .api => current
  | .login .. | .mfaVerify .. | .refresh => (reply.bind (·.accessToken)).or current
  | .logout => none

def World.settle (w : World) (c : CallId) (call : Call) (outcome : Outcome)
    (reply : Option Reply) : World :=
  (w.setPhase c call (.settled outcome)).setToken call.tab
    (continuation call.path reply (w.accessToken call.tab))

/-- The end of `request`; `detail` is how it reads the body of an error. -/
def World.finish (w : World) (c : CallId) (call : Call) (reply : Reply)
    (detail : String → String) : World :=
  if reply.ok then w.settle c call (.value reply.body) (some reply)
  else w.settle c call (.apiError reply.status (detail reply.body)) none

def World.log (w : World) (events : List Event) : World := { w with events := w.events ++ events }

def World.signOut (w : World) (c : CallId) (call : Call) : World :=
  ((w.setToken call.tab none).log [.signedOut c]).settle c call
    (.apiError 401 "Session expired") none

variable (env : ConsoleEnv)

/-- `request`, from the response of a fetch on. -/
def World.resume (w : World) (c : CallId) (call : Call) (attempt : Attempt) (reply : Reply) :
    World :=
  match attempt with
  | .first =>
      if reply.status = 401 ∧ (w.accessToken call.tab).isSome then
        w.fetch c call .silent .refresh none
      else w.finish c call reply env.errorDetail
  | .silent =>
      match if reply.ok then reply.accessToken else none with
      | some token =>
          (w.setToken call.tab (some token)).fetch c call .retry call.path (some token)
      | none => w.signOut c call
  | .retry => w.finish c call reply id

/-- `request`, where a fetch throws. -/
def World.fail (w : World) (c : CallId) (call : Call) (attempt : Attempt) (detail : String) :
    World :=
  match attempt with
  | .first => w.settle c call (.apiError 0 detail) none
  | .silent => (w.log [.failed c]).signOut c call
  | .retry => w.settle c call .rejected none

/-! ## The server -/

def Reply.ofError (e : HttpError) : Reply := { status := e.status, body := e.detail }

/-- The response with the tokens of a `Handled`; `newRefresh` is in the cookie. -/
def Reply.ofHandled (newRefresh : String) (r : Except HttpError TokenResponse) : Reply :=
  match r with
  | .error e => .ofError e
  | .ok response => {
      status := 200
      accessToken := response.accessToken.map env.encodeAccess
      setCookie := response.accessToken.map fun _ => newRefresh }

def expiry (now : Nat) : Nat := now + env.refreshTokenExpireDays * 86400

/-- The session that a granted token comes with. -/
def issuedBy (newRefresh : String) (now : Nat) (r : Except HttpError TokenResponse) : List Event :=
  if (granted r).isSome then [.issued newRefresh (expiry env now)] else []

/-- The session that `logout` revokes. -/
def usedBy (s : AuthState) (cookie : Option String) (now : Nat) : List Event :=
  (((cookieValue cookie).filter fun t =>
    (getSessionByToken env.toAuthEnv s t now).isSome).map Event.used).toList

/-- An endpoint leaves the tables `s` and responds. -/
def World.answer (w : World) (c : CallId) (attempt : Attempt) (s : AuthState) (reply : Reply) :
    World :=
  { w.setExchange c attempt (.replied reply) with server := s }

def World.answerHandled (w : World) (c : CallId) (attempt : Attempt) (newRefresh : String)
    (now : Nat) (handled : Handled) : World :=
  (w.answer c attempt handled.1 (.ofHandled env newRefresh handled.2)).log
    (issuedBy env newRefresh now handled.2)

/-- An endpoint behind `get_current_user`. -/
def apiReply (fetch : Fetch) (now : Nat) (own : Nat × String) : Reply :=
  match getCurrentUser env.toTokenEnv fetch.authorization now with
  | .error e => .ofError e
  | .ok _ => { status := own.1, body := own.2 }

/-- The endpoints but `refresh_token`. -/
def World.serve (w : World) (c : CallId) (attempt : Attempt) (fetch : Fetch) (newRefresh : String)
    (now : Nat) (own : Nat × String) : Option World :=
  match fetch.path with
  | .api =>
      let reply := apiReply env fetch now own
      some { w.answer c attempt w.server reply with served := w.served ++ [(c, reply)] }
  | .login username password clientIp =>
      let handled := Auth.login env.toAuthEnv w.server username password clientIp newRefresh now
      some (w.answerHandled env c attempt newRefresh now handled)
  | .mfaVerify challenge code =>
      let handled := Auth.mfaVerify env.toAuthEnv w.server challenge code newRefresh now
      some (w.answerHandled env c attempt newRefresh now handled)
  | .logout =>
      let handled := Auth.logout env.toAuthEnv w.server fetch.cookie now
      -- `delete_cookie` has another path than the cookie, which the browser keeps
      some ((w.answer c attempt handled.1 { status := 204 }).log
        (usedBy env w.server fetch.cookie now))
  | .refresh => none

/-- `refresh_token`, up to its SELECT. -/
def World.select (w : World) (c : CallId) (attempt : Attempt) (fetch : Fetch) (now : Nat) :
    World :=
  match cookieValue fetch.cookie with
  | none =>
      (w.answer c attempt w.server (.ofError ⟨401, "No refresh token provided"⟩)).log
        [.refused c fetch.cookie now]
  | some token =>
      match getSessionByToken env.toAuthEnv w.server token now with
      | none =>
          (w.answer c attempt w.server (.ofError ⟨401, "Invalid or expired refresh token"⟩)).log
            [.refused c fetch.cookie now]
      | some session =>
          match getUserById w.server session.userId with
          | none =>
              (w.answer c attempt w.server (.ofError internalError)).log
                [.accepted c fetch.cookie now, .failed c]
          | some user =>
              (w.setExchange c attempt (.selected token session user)).log
                [.accepted c fetch.cookie now]

/-- The rest of `refresh_token`: it revokes the session and stores a new one. -/
def World.commit (w : World) (c : CallId) (attempt : Attempt) (token : String) (session : Session)
    (user : User) (newRefresh : String) (now : Nat) : World :=
  let s := revokeSession w.server session
  match createSession env.toAuthEnv s user.id newRefresh now with
  | none => (w.answer c attempt s (.ofError internalError)).log [.used token, .failed c]
  | some s' =>
      (w.answer c attempt s' {
        status := 200
        accessToken := some (env.encodeAccess (createAccessToken env.toAuthEnv user now))
        setCookie := some newRefresh }).log
        [.used token, .issued newRefresh (expiry env now)]

/-! ## Steps -/

def step (w : World) : Action → Option World
  | .start c tab path =>
      match w.calls c with
      | some _ => none
      | none =>
          some (w.fetch c ⟨tab, path, .waiting .first⟩ .first path (w.accessToken tab))
  | .serve c attempt newRefresh now own =>
      match w.exchanges (c, attempt) with
      | .sent fetch => w.serve env c attempt fetch newRefresh now own
      | _ => none
  | .select c attempt now =>
      match w.exchanges (c, attempt) with
      | .sent fetch =>
          if fetch.path = .refresh then some (w.select env c attempt fetch now) else none
      | _ => none
  | .commit c attempt newRefresh now =>
      match w.exchanges (c, attempt) with
      | .selected token session user =>
          some (w.commit env c attempt token session user newRefresh now)
      | _ => none
  | .arrive c =>
      match w.calls c with
      | some call =>
          match call.phase with
          | .waiting attempt =>
              match w.exchanges (c, attempt) with
              | .replied reply =>
                  some { w.setPhase c call (.arrived attempt reply) with
                    cookie := reply.setCookie.or w.cookie }
              | _ => none
          | _ => none
      | none => none
  | .resume c =>
      match w.calls c with
      | some call =>
          match call.phase with
          | .arrived attempt reply => some (w.resume env c call attempt reply)
          | _ => none
      | none => none
  | .fail c detail =>
      match w.calls c with
      | some call =>
          match call.phase with
          | .waiting attempt => some (w.fail c call attempt detail)
          | _ => none
      | none => none

def client : TSys World Action where
  init := fun w => w.calls = (fun _ => none) ∧ w.exchanges = (fun _ => .unsent) ∧ w.served = []
  step := step env

/-! ## What a step touches -/

/-- The world outside a call: what the call and its fetches do does not show in the others. -/
structure Others (c : CallId) (w w' : World) : Prop where
  calls : ∀ c', c' ≠ c → w'.calls c' = w.calls c'
  exchanges : ∀ c' attempt, c' ≠ c → w'.exchanges (c', attempt) = w.exchanges (c', attempt)
  served : ∀ c', c' ≠ c → w'.served.filter (·.1 == c') = w.served.filter (·.1 == c')

variable {env} {w w' : World} {c : CallId}

theorem Others.refl (c : CallId) (w : World) : Others c w w :=
  ⟨fun _ _ => rfl, fun _ _ _ => rfl, fun _ _ => rfl⟩

theorem Others.trans {w'' : World} (h : Others c w w') (h' : Others c w' w'') : Others c w w'' where
  calls c' hc := (h'.calls c' hc).trans (h.calls c' hc)
  exchanges c' attempt hc := (h'.exchanges c' attempt hc).trans (h.exchanges c' attempt hc)
  served c' hc := (h'.served c' hc).trans (h.served c' hc)

theorem Others.log (h : Others c w w') {events : List Event} : Others c w (w'.log events) :=
  ⟨h.calls, h.exchanges, h.served⟩

theorem others_setPhase (w : World) (c : CallId) (call : Call) (phase : Phase) :
    Others c w (w.setPhase c call phase) :=
  ⟨fun _ hc => Function.update_of_ne hc _ _, fun _ _ _ => rfl, fun _ _ => rfl⟩

theorem others_setExchange (w : World) (c : CallId) (attempt : Attempt) (x : Exchange) :
    Others c w (w.setExchange c attempt x) :=
  ⟨fun _ _ => rfl, fun _ _ hc => Function.update_of_ne (fun h => hc (congrArg Prod.fst h)) _ _,
    fun _ _ => rfl⟩

theorem others_answer (w : World) (c : CallId) (attempt : Attempt) (s : AuthState)
    (reply : Reply) : Others c w (w.answer c attempt s reply) :=
  let h := others_setExchange w c attempt (.replied reply)
  ⟨h.calls, h.exchanges, h.served⟩

theorem others_answerHandled (w : World) (c : CallId) (attempt : Attempt) (newRefresh : String)
    (now : Nat) (handled : Handled) :
    Others c w (w.answerHandled env c attempt newRefresh now handled) :=
  (others_answer w c attempt handled.1 _).log

theorem others_fetch (w : World) (c : CallId) (call : Call) (attempt : Attempt) (path : Path)
    (authorization : Option String) : Others c w (w.fetch c call attempt path authorization) :=
  (others_setPhase w c call _).trans (others_setExchange _ c attempt _)

theorem others_settle (w : World) (c : CallId) (call : Call) (outcome : Outcome)
    (reply : Option Reply) : Others c w (w.settle c call outcome reply) :=
  let h := others_setPhase w c call (.settled outcome)
  ⟨h.calls, h.exchanges, h.served⟩

theorem others_finish (w : World) (c : CallId) (call : Call) (reply : Reply)
    (detail : String → String) : Others c w (w.finish c call reply detail) := by
  unfold World.finish
  split <;> exact others_settle ..

theorem others_signOut (w : World) (c : CallId) (call : Call) : Others c w (w.signOut c call) :=
  let h := others_settle ((w.setToken call.tab none).log [.signedOut c]) c call
    (.apiError 401 "Session expired") none
  ⟨h.calls, h.exchanges, h.served⟩

theorem others_resume (w : World) (c : CallId) (call : Call) (attempt : Attempt) (reply : Reply) :
    Others c w (w.resume env c call attempt reply) := by
  cases attempt with
  | first =>
      simp only [World.resume]
      split
      · exact others_fetch ..
      · exact others_finish ..
  | silent =>
      simp only [World.resume]
      split
      · next token _ =>
        let h := others_fetch (w.setToken call.tab (some token)) c call .retry call.path
          (some token)
        exact ⟨h.calls, h.exchanges, h.served⟩
      · exact others_signOut ..
  | retry => exact others_finish ..

theorem others_fail (w : World) (c : CallId) (call : Call) (attempt : Attempt) (detail : String) :
    Others c w (w.fail c call attempt detail) := by
  cases attempt with
  | first => exact others_settle ..
  | silent =>
      let h := others_signOut (w.log [.failed c]) c call
      exact ⟨h.calls, h.exchanges, h.served⟩
  | retry => exact others_settle ..

theorem others_serve {attempt : Attempt} {fetch : Fetch} {newRefresh : String} {now : Nat}
    {own : Nat × String} (h : w.serve env c attempt fetch newRefresh now own = some w') :
    Others c w w' := by
  unfold World.serve at h
  split at h
  · obtain rfl := Option.some.inj h
    have hanswer := others_answer w c attempt w.server (apiReply env fetch now own)
    refine ⟨hanswer.calls, hanswer.exchanges, fun c' hc => ?_⟩
    have hne : [(c, apiReply env fetch now own)].filter (·.1 == c') = [] :=
      List.filter_cons_of_neg (by simpa using Ne.symm hc)
    rw [List.filter_append, hne, List.append_nil]
  · obtain rfl := Option.some.inj h
    exact others_answerHandled ..
  · obtain rfl := Option.some.inj h
    exact others_answerHandled ..
  · obtain rfl := Option.some.inj h
    exact (others_answer ..).log
  · cases h

theorem others_select (w : World) (c : CallId) (attempt : Attempt) (fetch : Fetch) (now : Nat) :
    Others c w (w.select env c attempt fetch now) := by
  unfold World.select
  split
  · exact (others_answer ..).log
  · split
    · exact (others_answer ..).log
    · split
      · exact (others_answer ..).log
      · exact (others_setExchange ..).log

theorem others_commit (w : World) (c : CallId) (attempt : Attempt) (token : String)
    (session : Session) (user : User) (newRefresh : String) (now : Nat) :
    Others c w (w.commit env c attempt token session user newRefresh now) := by
  simp only [World.commit]
  split <;> exact (others_answer ..).log

def Action.call : Action → CallId
  | .start c _ _ | .serve c .. | .select c .. | .commit c .. | .arrive c | .resume c
  | .fail c _ => c

/-- What each step does, and when. -/
inductive Stepped (env : ConsoleEnv) (w : World) : Action → World → Prop
  | start {c tab path} : w.calls c = none →
      Stepped env w (.start c tab path)
        (w.fetch c ⟨tab, path, .waiting .first⟩ .first path (w.accessToken tab))
  | serve {c attempt fetch newRefresh now own w'} : w.exchanges (c, attempt) = .sent fetch →
      w.serve env c attempt fetch newRefresh now own = some w' →
      Stepped env w (.serve c attempt newRefresh now own) w'
  | select {c attempt fetch now} : w.exchanges (c, attempt) = .sent fetch →
      fetch.path = .refresh →
      Stepped env w (.select c attempt now) (w.select env c attempt fetch now)
  | commit {c attempt token session user newRefresh now} :
      w.exchanges (c, attempt) = .selected token session user →
      Stepped env w (.commit c attempt newRefresh now)
        (w.commit env c attempt token session user newRefresh now)
  | arrive {c call attempt reply} : w.calls c = some call → call.phase = .waiting attempt →
      w.exchanges (c, attempt) = .replied reply →
      Stepped env w (.arrive c) { w.setPhase c call (.arrived attempt reply) with
        cookie := reply.setCookie.or w.cookie }
  | resume {c call attempt reply} : w.calls c = some call → call.phase = .arrived attempt reply →
      Stepped env w (.resume c) (w.resume env c call attempt reply)
  | fail {c call attempt detail} : w.calls c = some call → call.phase = .waiting attempt →
      Stepped env w (.fail c detail) (w.fail c call attempt detail)

theorem stepped {a : Action} (h : step env w a = some w') : Stepped env w a w' := by
  cases a with
  | start c tab path =>
      simp only [step] at h
      split at h
      · cases h
      · next hcall => exact Option.some.inj h ▸ .start hcall
  | serve c attempt newRefresh now own =>
      simp only [step] at h
      split at h
      · next fetch hsent => exact .serve hsent h
      · cases h
  | select c attempt now =>
      simp only [step] at h
      split at h
      · next fetch hsent =>
        split at h
        · next hpath => exact Option.some.inj h ▸ .select hsent hpath
        · cases h
      · cases h
  | commit c attempt newRefresh now =>
      simp only [step] at h
      split at h
      · next token session user hselected => exact Option.some.inj h ▸ .commit hselected
      · cases h
  | arrive c =>
      simp only [step] at h
      split at h
      · next call hcall =>
        split at h
        · next attempt hphase =>
          split at h
          · next reply hreplied => exact Option.some.inj h ▸ .arrive hcall hphase hreplied
          · cases h
        · cases h
      · cases h
  | resume c =>
      simp only [step] at h
      split at h
      · next call hcall =>
        split at h
        · next attempt reply hphase => exact Option.some.inj h ▸ .resume hcall hphase
        · cases h
      · cases h
  | fail c detail =>
      simp only [step] at h
      split at h
      · next call hcall =>
        split at h
        · next attempt hphase => exact Option.some.inj h ▸ .fail hcall hphase
        · cases h
      · cases h

theorem others_step {a : Action} (h : Stepped env w a w') : Others a.call w w' := by
  cases h with
  | start _ => exact others_fetch ..
  | serve _ hserve => exact others_serve hserve
  | select _ _ => exact others_select ..
  | commit _ => exact others_commit ..
  | @arrive c call attempt reply _ _ _ =>
      have hphase := others_setPhase w c call (.arrived attempt reply)
      exact ⟨hphase.calls, hphase.exchanges, hphase.served⟩
  | resume _ _ => exact others_resume ..
  | fail _ _ => exact others_fail ..

end AkesoDlp.Console
