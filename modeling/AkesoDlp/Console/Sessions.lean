import AkesoDlp.Console.Calls
import AkesoDlp.Lib.Ledger

/-!
# Why a page is signed out

A refresh uses up the token in the cookie, which all pages of the browser share. Two pages, or
two calls of one page, that refresh at once both send the token, and the one that the server
reads last is refused.
-/

namespace AkesoDlp.Console

open Lib Server Server.Auth Server.TokenProvenance

/-! ## The table of sessions -/

def issued (events : List Event) : List (String × Nat) :=
  events.filterMap fun
    | .issued token expiresAt => some (token, expiresAt)
    | _ => none

/-- What a row of the table says about its session. -/
def sessionView (x : Session) : String × Nat × Bool := (x.refreshTokenHash, x.expiresAt, x.revoked)

variable (env : ConsoleEnv)

/-- The rows are the tokens that were issued, in order, revoked if they were used. -/
def rowsOf (events : List Event) : List (String × Nat × Bool) :=
  (issued events).map fun x => (env.hashRefreshToken x.1, x.2, decide (Event.used x.1 ∈ events))

structure TableOk (s : AuthState) (events : List Event) : Prop where
  rows : s.sessions.map sessionView = rowsOf env events
  used : ∀ token, Event.used token ∈ events → ∃ e, (token, e) ∈ issued events

/-- The cookie names a session that was issued, was not used and has not expired. -/
def Live (events : List Event) (cookie : Option String) (now : Nat) : Prop :=
  ∃ token expiresAt, cookieValue cookie = some token ∧ Event.issued token expiresAt ∈ events ∧
    now < expiresAt ∧ Event.used token ∉ events

/-- The silent refresh of a call has come to nothing. -/
def Lost (events : List Event) (c : CallId) : Prop :=
  Event.failed c ∈ events ∨ ∃ cookie now, Event.refused c cookie now ∈ events

/-- What an event rests on. -/
def EventOk (before : List Event) : Event → Prop
  | .accepted _ cookie now => Live before cookie now
  | .refused _ cookie now => ¬ Live before cookie now
  | .signedOut c => Lost before c
  | .issued .. | .used _ | .failed _ => True

variable {env} {s s' : AuthState} {events new : List Event} {w w' : World} {c : CallId}

theorem mem_issued {token : String} {e : Nat} :
    (token, e) ∈ issued events ↔ Event.issued token e ∈ events := by
  rw [issued, List.mem_filterMap]
  constructor
  · rintro ⟨event, hmem, hevent⟩
    split at hevent
    · rw [Option.some.injEq, Prod.mk.injEq] at hevent
      obtain ⟨rfl, rfl⟩ := hevent
      exact hmem
    · cases hevent
  · exact fun hmem => ⟨_, hmem, rfl⟩

theorem Lost.append (h : Lost events c) (new : List Event) :
    Lost (events ++ new) c :=
  h.imp (List.mem_append_left _) fun ⟨cookie, now, hmem⟩ =>
    ⟨cookie, now, List.mem_append_left _ hmem⟩

/-- The lookup of `get_session_by_token`. -/
theorem isSome_getSessionByToken (hinj : Function.Injective env.hashRefreshToken)
    (h : TableOk env s events) {token : String} {now : Nat} :
    (getSessionByToken env.toAuthEnv s token now).isSome = true ↔
      ∃ e, Event.issued token e ∈ events ∧ now < e ∧ Event.used token ∉ events := by
  have hrow : (getSessionByToken env.toAuthEnv s token now).isSome = true ↔
      ∃ row ∈ s.sessions.map sessionView, row.1 = env.hashRefreshToken token ∧
        row.2.2 = false ∧ now < row.2.1 := by
    rw [getSessionByToken, List.find?_isSome]
    simp [sessionView, and_assoc]
  rw [hrow, h.rows, rowsOf]
  constructor
  · rintro ⟨row, hmem, hhash, hused, hnow⟩
    obtain ⟨⟨t, e⟩, ht, rfl⟩ := List.mem_map.mp hmem
    obtain rfl := hinj hhash
    exact ⟨e, mem_issued.mp ht, hnow, of_decide_eq_false hused⟩
  · rintro ⟨e, hmem, hnow, hused⟩
    exact ⟨_, List.mem_map.mpr ⟨(token, e), mem_issued.mpr hmem, rfl⟩, rfl,
      decide_eq_false hused, hnow⟩

/-! ## Changes of the table -/

def Event.Neutral : Event → Prop
  | .issued .. | .used _ => False
  | _ => True

theorem issued_neutral (h : ∀ e ∈ new, e.Neutral) : issued (events ++ new) = issued events := by
  have hnone : issued new = [] := by
    rw [issued, List.filterMap_eq_nil_iff]
    intro e he
    cases e with
    | issued => exact (h _ he).elim
    | _ => rfl
  rw [issued, List.filterMap_append, ← issued, ← issued, hnone, List.append_nil]

theorem used_neutral (h : ∀ e ∈ new, e.Neutral) (token : String) :
    Event.used token ∈ events ++ new ↔ Event.used token ∈ events := by
  rw [List.mem_append, or_iff_left]
  exact fun hmem => h _ hmem

theorem TableOk.neutral (h : TableOk env s events) (hsessions : s'.sessions = s.sessions)
    (hnew : ∀ e ∈ new, e.Neutral) : TableOk env s' (events ++ new) where
  rows := by
    rw [hsessions, h.rows, rowsOf, rowsOf, issued_neutral hnew]
    simp only [used_neutral hnew]
  used token htoken := by
    rw [issued_neutral hnew]
    exact h.used token ((used_neutral hnew token).mp htoken)

theorem issued_append_issued (token : String) (e : Nat) :
    issued (events ++ [.issued token e]) = issued events ++ [(token, e)] := by
  rw [issued, List.filterMap_append]
  rfl

theorem issued_append_used (token : String) : issued (events ++ [.used token]) = issued events := by
  rw [issued, List.filterMap_append]
  exact List.append_nil _

theorem sessions_createSession {userId : Uuid} {newRefresh : String} {now : Nat}
    (h : createSession env.toAuthEnv s userId newRefresh now = some s') :
    s'.sessions.map sessionView =
      s.sessions.map sessionView ++ [(env.hashRefreshToken newRefresh, expiry env now, false)] := by
  unfold createSession at h
  split at h
  · cases h
  · obtain rfl := Option.some.inj h
    rw [List.map_append]
    rfl

theorem hashFree_of_createSession {userId : Uuid} {newRefresh : String} {now : Nat}
    (h : createSession env.toAuthEnv s userId newRefresh now = some s') :
    HashFree env.toAuthEnv s newRefresh := by
  by_contra hnot
  rw [createSession_eq_none.mpr hnot] at h
  cases h

/-- A token whose hash is in no row has not been issued. -/
theorem TableOk.not_issued (h : TableOk env s events) {token : String}
    (hfree : HashFree env.toAuthEnv s token) (e : Nat) : (token, e) ∉ issued events := by
  intro hmem
  have hrow : (env.hashRefreshToken token, e, decide (Event.used token ∈ events)) ∈
      s.sessions.map sessionView := by
    rw [h.rows]
    exact List.mem_map.mpr ⟨_, hmem, rfl⟩
  obtain ⟨x, hx, heq⟩ := List.mem_map.mp hrow
  exact hfree x hx (congrArg Prod.fst heq)

theorem TableOk.issue (h : TableOk env s events) {userId : Uuid} {newRefresh : String} {now : Nat}
    (hcreate : createSession env.toAuthEnv s userId newRefresh now = some s') :
    TableOk env s' (events ++ [.issued newRefresh (expiry env now)]) where
  rows := by
    have hunused : Event.used newRefresh ∉ events := by
      intro hused
      obtain ⟨e, hmem⟩ := h.used newRefresh hused
      exact h.not_issued (hashFree_of_createSession hcreate) e hmem
    rw [sessions_createSession hcreate, h.rows, rowsOf, rowsOf, issued_append_issued,
      List.map_append]
    simp [hunused]
  used token htoken := by
    rw [issued_append_issued]
    obtain ⟨e, hmem⟩ := h.used token (by simpa using htoken)
    exact ⟨e, List.mem_append_left _ hmem⟩

theorem sessions_revokeSession (session : Session) :
    (revokeSession s session).sessions.map sessionView = (s.sessions.map sessionView).map
      fun row => if row.1 = session.refreshTokenHash then (row.1, row.2.1, true) else row := by
  rw [revokeSession, List.map_map, List.map_map]
  refine List.map_congr_left fun x _ => ?_
  by_cases hx : x.refreshTokenHash = session.refreshTokenHash <;> simp [sessionView, hx]

theorem TableOk.use (hinj : Function.Injective env.hashRefreshToken) (h : TableOk env s events)
    {session : Session} {token : String}
    (hhash : session.refreshTokenHash = env.hashRefreshToken token)
    (hissued : ∃ e, (token, e) ∈ issued events) :
    TableOk env (revokeSession s session) (events ++ [.used token]) where
  rows := by
    rw [sessions_revokeSession, h.rows, rowsOf, rowsOf, issued_append_used, List.map_map, hhash]
    refine List.map_congr_left fun x _ => ?_
    by_cases hx : x.1 = token
    · simp [hx]
    · have hne : env.hashRefreshToken x.1 ≠ env.hashRefreshToken token := fun heq => hx (hinj heq)
      simp [hx, hne]
  used t ht := by
    rw [issued_append_used]
    rcases List.mem_append.mp ht with hold | hnew
    · exact h.used t hold
    · obtain rfl := Event.used.inj (List.mem_singleton.mp hnew)
      exact hissued

/-! ## Endpoints -/

theorem TableOk.refuse (h : TableOk env s events) {r : Except HttpError TokenResponse}
    {newRefresh : String} {now : Nat} (hsessions : s'.sessions = s.sessions)
    (hgranted : granted r = none) : TableOk env s' (events ++ issuedBy env newRefresh now r) := by
  rw [issuedBy, hgranted]
  exact h.neutral hsessions nofun

theorem TableOk.issueTokens (h : TableOk env s events) (u : User) (newRefresh : String)
    (now : Nat) :
    TableOk env (Auth.issueTokens env.toAuthEnv s u newRefresh now).1
      (events ++ issuedBy env newRefresh now
        (Auth.issueTokens env.toAuthEnv s u newRefresh now).2) := by
  unfold Auth.issueTokens
  split
  · next hcreate => exact h.issue hcreate
  · exact h.refuse rfl rfl

theorem TableOk.login (h : TableOk env s events) (username password clientIp newRefresh : String)
    (now : Nat) :
    TableOk env (Auth.login env.toAuthEnv s username password clientIp newRefresh now).1
      (events ++ issuedBy env newRefresh now
        (Auth.login env.toAuthEnv s username password clientIp newRefresh now).2) := by
  simp only [Auth.login]
  split
  · exact h.refuse rfl rfl
  · split
    · exact h.refuse rfl rfl
    · split
      · exact h.refuse rfl rfl
      · split
        · exact h.refuse rfl rfl
        · refine TableOk.issueTokens ?_ _ _ _
          have hsame : TableOk env (resetAttempts (checkLimit env.toAuthEnv s clientIp now).1
              clientIp) (events ++ []) := h.neutral rfl (List.forall_mem_nil _)
          rwa [List.append_nil] at hsame

theorem TableOk.mfaVerify (h : TableOk env s events) (challenge code newRefresh : String)
    (now : Nat) :
    TableOk env (Auth.mfaVerify env.toAuthEnv s challenge code newRefresh now).1
      (events ++ issuedBy env newRefresh now
        (Auth.mfaVerify env.toAuthEnv s challenge code newRefresh now).2) := by
  simp only [Auth.mfaVerify]
  split
  · exact h.refuse rfl rfl
  · split
    · exact h.refuse rfl rfl
    · split
      · exact h.refuse rfl rfl
      · split
        · exact h.refuse rfl rfl
        · split
          · exact h.refuse rfl rfl
          · split
            · exact h.issueTokens _ _ _
            · exact h.refuse rfl rfl

theorem getSessionByToken_hash {token : String} {now : Nat} {session : Session}
    (h : getSessionByToken env.toAuthEnv s token now = some session) :
    session.refreshTokenHash = env.hashRefreshToken token := by
  have hsome := List.find?_some h
  simp only [Bool.and_eq_true, beq_iff_eq] at hsome
  exact hsome.1.1

theorem TableOk.logout (hinj : Function.Injective env.hashRefreshToken) (h : TableOk env s events)
    (cookie : Option String) (now : Nat) :
    TableOk env (Auth.logout env.toAuthEnv s cookie now).1
      (events ++ usedBy env s cookie now) := by
  unfold Auth.logout usedBy
  cases hcookie : cookieValue cookie with
  | none => exact h.neutral rfl nofun
  | some token =>
      cases hsession : getSessionByToken env.toAuthEnv s token now with
      | none =>
          rw [Option.bind_some, hsession]
          rw [Option.filter_some, hsession]
          exact h.neutral rfl nofun
      | some session =>
          rw [Option.bind_some, hsession, Option.filter_some, hsession]
          have hlive : (getSessionByToken env.toAuthEnv s token now).isSome = true := by
            rw [hsession]
            rfl
          obtain ⟨e, hmem, -⟩ := (isSome_getSessionByToken hinj h).mp hlive
          exact h.use hinj (getSessionByToken_hash hsession) ⟨e, mem_issued.mpr hmem⟩

/-! ## Steps -/

/-- The response brings a token to `refreshToken`. -/
def Granted (r : Reply) : Prop := r.ok = true ∧ r.accessToken.isSome = true

/-- The silent refresh of a call. -/
structure SilentOk (w : World) (c : CallId) : Prop where
  sent : ∀ fetch, w.exchanges (c, .silent) = .sent fetch → fetch.path = .refresh
  replied : ∀ r, w.exchanges (c, .silent) = .replied r → Granted r ∨ Lost w.events c
  arrived : ∀ call r, w.calls c = some call → call.phase = .arrived .silent r →
    Granted r ∨ Lost w.events c

/-- What a SELECT has found was issued. -/
def SelectedOk (env : ConsoleEnv) (w : World) (c : CallId) : Prop :=
  ∀ attempt token session user, w.exchanges (c, attempt) = .selected token session user →
    session.refreshTokenHash = env.hashRefreshToken token ∧ ∃ e, (token, e) ∈ issued w.events

structure SessionInv (env : ConsoleEnv) (w : World) : Prop where
  table : TableOk env w.server w.events
  silent : ∀ c, SilentOk w c
  selected : ∀ c, SelectedOk env w c
  events : Justified EventOk w.events

variable {call : Call} {attempt : Attempt}

theorem SessionInv.of_step (h : SessionInv env w) (hothers : Others c w w')
    (hevents : w'.events = w.events ++ new) (htable : TableOk env w'.server w'.events)
    (hok : Justified (fun before e => EventOk (w.events ++ before) e) new)
    (hsilent : SilentOk w' c) (hselected : SelectedOk env w' c) : SessionInv env w' where
  table := htable
  silent := by
    intro c'
    by_cases hc : c' = c
    · exact hc ▸ hsilent
    · have hold := h.silent c'
      constructor
      · rw [hothers.exchanges c' _ hc]
        exact hold.sent
      · rw [hothers.exchanges c' _ hc, hevents]
        exact fun r hr => (hold.replied r hr).imp_right fun hlost => hlost.append new
      · rw [hothers.calls c' hc, hevents]
        exact fun call r hcall hr =>
          (hold.arrived call r hcall hr).imp_right fun hlost => hlost.append new
  selected := by
    intro c'
    by_cases hc : c' = c
    · exact hc ▸ hselected
    · intro attempt token session user hx
      rw [hothers.exchanges c' _ hc] at hx
      obtain ⟨hhash, e, hmem⟩ := h.selected c' attempt token session user hx
      refine ⟨hhash, e, ?_⟩
      rw [hevents, mem_issued]
      exact List.mem_append_left _ (mem_issued.mp hmem)
  events := hevents ▸ h.events.append hok

/-- A step of the page: it leaves the server and the exchanges. -/
theorem SessionInv.of_page (h : SessionInv env w) (hothers : Others c w w')
    (hevents : w'.events = w.events ++ new) (hserver : w'.server = w.server)
    (hneutral : ∀ e ∈ new, e.Neutral)
    (hok : Justified (fun before e => EventOk (w.events ++ before) e) new)
    (hexchanges : w'.exchanges = w.exchanges)
    (harrived : ∀ call r, w'.calls c = some call → call.phase = .arrived .silent r →
      Granted r ∨ Lost w'.events c) : SessionInv env w' := by
  refine h.of_step hothers hevents ?_ hok ⟨?_, ?_, harrived⟩ ?_
  · rw [hevents]
    exact h.table.neutral (congrArg AuthState.sessions hserver) hneutral
  · rw [hexchanges]
    exact (h.silent c).sent
  · rw [hexchanges, hevents]
    exact fun r hr => ((h.silent c).replied r hr).imp_right fun hlost => hlost.append new
  · intro attempt token session user hx
    rw [hexchanges] at hx
    obtain ⟨hhash, e, hmem⟩ := h.selected c attempt token session user hx
    refine ⟨hhash, e, ?_⟩
    rw [hevents, mem_issued]
    exact List.mem_append_left _ (mem_issued.mp hmem)

/-- The exchange of a fetch moves. -/
theorem SessionInv.of_exchange {x : Exchange} (h : SessionInv env w) (hothers : Others c w w')
    (hevents : w'.events = w.events ++ new) (htable : TableOk env w'.server w'.events)
    (hok : Justified (fun before e => EventOk (w.events ++ before) e) new)
    (hexchanges : w'.exchanges = Function.update w.exchanges (c, attempt) x)
    (harrived : ∀ call r, w'.calls c = some call → call.phase = .arrived .silent r →
      w.calls c = some call)
    (hsent : ∀ fetch, x = .sent fetch → attempt = .silent → fetch.path = .refresh)
    (hreplied : ∀ r, x = .replied r → attempt = .silent → Granted r ∨ Lost w'.events c)
    (hselected : ∀ token session user, x = .selected token session user →
      session.refreshTokenHash = env.hashRefreshToken token ∧ ∃ e, (token, e) ∈ issued w.events) :
    SessionInv env w' := by
  have hgrows : ∀ token e, (token, e) ∈ issued w.events → (token, e) ∈ issued w'.events := by
    intro token e hmem
    rw [hevents, mem_issued]
    exact List.mem_append_left _ (mem_issued.mp hmem)
  have hat : ∀ a, (a = attempt ∧ w'.exchanges (c, a) = x) ∨
      w'.exchanges (c, a) = w.exchanges (c, a) := by
    intro a
    rw [hexchanges]
    by_cases ha : a = attempt
    · subst ha
      exact .inl ⟨rfl, Function.update_self ..⟩
    · exact .inr (Function.update_of_ne (fun heq => ha (congrArg Prod.snd heq)) _ _)
  refine h.of_step hothers hevents htable hok ⟨?_, ?_, ?_⟩ ?_
  · intro fetch hfetch
    rcases hat .silent with ⟨ha, hx⟩ | hx
    · exact hsent fetch (hx.symm.trans hfetch) ha.symm
    · exact (h.silent c).sent fetch (hx ▸ hfetch)
  · intro r hr
    rcases hat .silent with ⟨ha, hx⟩ | hx
    · exact hreplied r (hx.symm.trans hr) ha.symm
    · rw [hevents]
      exact ((h.silent c).replied r (hx ▸ hr)).imp_right fun hlost => hlost.append new
  · intro call r hcall hphase
    rw [hevents]
    exact ((h.silent c).arrived call r (harrived call r hcall hphase) hphase).imp_right
      fun hlost => hlost.append new
  · intro a token session user ha
    rcases hat a with ⟨-, hx⟩ | hx
    · obtain ⟨hhash, e, hmem⟩ := hselected token session user (hx.symm.trans ha)
      exact ⟨hhash, e, hgrows token e hmem⟩
    · obtain ⟨hhash, e, hmem⟩ := h.selected c a token session user (hx ▸ ha)
      exact ⟨hhash, e, hgrows token e hmem⟩

theorem sessionInv_fetch (h : SessionInv env w) (c : CallId) (call : Call) {attempt : Attempt}
    {path : Path} {authorization : Option String} (hpath : attempt = .silent → path = .refresh) :
    SessionInv env (w.fetch c call attempt path authorization) := by
  refine h.of_exchange (others_fetch ..) (List.append_nil _).symm h.table justified_nil rfl
    (fun call' r hcall hphase => ?_) (fun fetch hfetch ha => ?_) (fun _ => nofun)
    (fun _ _ _ => nofun)
  · rw [show (w.fetch c call attempt path authorization).calls c =
      some { call with phase := .waiting attempt } from calls_setPhase_self .., Option.some.injEq]
      at hcall
    rw [← hcall] at hphase
    cases hphase
  · rw [← Exchange.sent.inj hfetch]
    exact hpath ha

theorem sessionInv_setToken (h : SessionInv env w) (tab : Tab) (token : Option String) :
    SessionInv env (w.setToken tab token) where
  table := h.table
  silent c := ⟨(h.silent c).sent, (h.silent c).replied, (h.silent c).arrived⟩
  selected := h.selected
  events := h.events

theorem sessionInv_log (h : SessionInv env w) (hneutral : ∀ e ∈ new, e.Neutral)
    (hok : Justified (fun before e => EventOk (w.events ++ before) e) new) :
    SessionInv env (w.log new) where
  table := h.table.neutral rfl hneutral
  silent c := by
    have hc := h.silent c
    exact ⟨hc.sent, fun r hr => (hc.replied r hr).imp_right fun hlost => hlost.append new,
      fun call r hcall hr => (hc.arrived call r hcall hr).imp_right fun hlost => hlost.append new⟩
  selected c attempt token session user hx := by
    obtain ⟨hhash, e, hmem⟩ := h.selected c attempt token session user hx
    exact ⟨hhash, e, mem_issued.mpr (List.mem_append_left _ (mem_issued.mp hmem))⟩
  events := h.events.append hok

theorem sessionInv_settle (h : SessionInv env w) (c : CallId) (call : Call) (outcome : Outcome)
    (reply : Option Reply) : SessionInv env (w.settle c call outcome reply) := by
  refine h.of_page (others_settle ..) (List.append_nil _).symm rfl nofun justified_nil rfl
    fun call' r hcall hphase => ?_
  rw [show (w.settle c call outcome reply).calls c = some { call with phase := .settled outcome }
    from calls_setPhase_self .., Option.some.injEq] at hcall
  rw [← hcall] at hphase
  cases hphase

theorem sessionInv_finish (h : SessionInv env w) (c : CallId) (call : Call) (reply : Reply)
    (detail : String → String) : SessionInv env (w.finish c call reply detail) := by
  unfold World.finish
  split <;> exact sessionInv_settle h ..

theorem sessionInv_signOut (h : SessionInv env w) (c : CallId) (call : Call)
    (hlost : Lost w.events c) : SessionInv env (w.signOut c call) := by
  refine sessionInv_settle (sessionInv_log (sessionInv_setToken h _ _) ?_ ?_) ..
  · exact List.forall_mem_singleton.mpr trivial
  · refine justified_singleton ?_
    show Lost (w.events ++ []) c
    rwa [List.append_nil]

theorem sessionInv_resume {reply : Reply} (h : SessionInv env w) (hcall : w.calls c = some call)
    (hphase : call.phase = .arrived attempt reply) :
    SessionInv env (w.resume env c call attempt reply) := by
  cases attempt with
  | first =>
      simp only [World.resume]
      split
      · exact sessionInv_fetch h c call fun _ => rfl
      · exact sessionInv_finish h ..
  | silent =>
      simp only [World.resume]
      split
      · refine sessionInv_fetch (sessionInv_setToken h _ _) c call ?_
        intro hsilent
        cases hsilent
      · next hnone =>
        refine sessionInv_signOut h c call ?_
        refine ((h.silent c).arrived call reply hcall hphase).resolve_left fun hgranted => ?_
        rw [if_pos hgranted.1] at hnone
        exact absurd hgranted.2 (by rw [hnone]; decide)
  | retry => exact sessionInv_finish h ..

theorem sessionInv_fail (h : SessionInv env w) (c : CallId) (call : Call) (attempt : Attempt)
    (detail : String) : SessionInv env (w.fail c call attempt detail) := by
  cases attempt with
  | first => exact sessionInv_settle h ..
  | silent =>
      refine sessionInv_signOut (sessionInv_log h ?_ ?_) c call (.inl ?_)
      · exact List.forall_mem_singleton.mpr trivial
      · exact justified_singleton trivial
      · exact List.mem_append_right _ (List.mem_singleton.mpr rfl)
  | retry => exact sessionInv_settle h ..

theorem sessionInv_arrive {reply : Reply} (h : SessionInv env w)
    (hreplied : w.exchanges (c, attempt) = .replied reply) :
    SessionInv env { w.setPhase c call (.arrived attempt reply) with
      cookie := reply.setCookie.or w.cookie } := by
  have hothers := others_setPhase w c call (.arrived attempt reply)
  refine h.of_page ⟨hothers.calls, hothers.exchanges, hothers.served⟩ (List.append_nil _).symm rfl
    nofun justified_nil rfl fun call' r hcall hphase => ?_
  rw [show (w.setPhase c call (.arrived attempt reply)).calls c =
    some { call with phase := .arrived attempt reply } from calls_setPhase_self ..,
    Option.some.injEq] at hcall
  rw [← hcall, Phase.arrived.injEq] at hphase
  obtain ⟨rfl, rfl⟩ := hphase
  exact (h.silent c).replied _ hreplied

/-! ### The server -/

theorem justified_issuedBy (before : List Event) (newRefresh : String) (now : Nat)
    (r : Except HttpError TokenResponse) :
    Justified (fun before' e => EventOk (before ++ before') e) (issuedBy env newRefresh now r) := by
  refine justified_of_forall fun e he _ => ?_
  unfold issuedBy at he
  split at he
  · rw [List.mem_singleton.mp he]
    trivial
  · cases he

theorem justified_usedBy (before : List Event) (cookie : Option String) (now : Nat) :
    Justified (fun before' e => EventOk (before ++ before') e) (usedBy env s cookie now) := by
  refine justified_of_forall fun e he _ => ?_
  obtain ⟨t, -, rfl⟩ := Option.map_eq_some_iff.mp (Option.mem_toList.mp he)
  trivial

/-- An endpoint responds to a fetch of something else than a refresh. -/
theorem SessionInv.answer {reply : Reply} {served : List (CallId × Reply)} (h : SessionInv env w)
    (hne : attempt ≠ .silent) (htable : TableOk env s (w.events ++ new))
    (hok : Justified (fun before e => EventOk (w.events ++ before) e) new)
    (hothers : Others c w { (w.answer c attempt s reply).log new with served := served }) :
    SessionInv env { (w.answer c attempt s reply).log new with served := served } :=
  h.of_exchange hothers rfl htable hok rfl (fun _ _ hcall _ => hcall) (fun _ => nofun)
    (fun _ _ ha => absurd ha hne) fun _ _ _ => nofun

theorem sessionInv_serve (hinj : Function.Injective env.hashRefreshToken) (h : SessionInv env w)
    {fetch : Fetch} {newRefresh : String} {now : Nat} {own : Nat × String}
    (hsent : w.exchanges (c, attempt) = .sent fetch)
    (hserve : w.serve env c attempt fetch newRefresh now own = some w') : SessionInv env w' := by
  have hothers := others_serve hserve
  have hne : fetch.path ≠ .refresh → attempt ≠ .silent := by
    rintro hpath rfl
    exact hpath ((h.silent c).sent fetch hsent)
  unfold World.serve at hserve
  split at hserve
  · next hpath =>
    obtain rfl := Option.some.inj hserve
    refine h.of_exchange hothers (List.append_nil _).symm h.table justified_nil rfl
      (fun _ _ hcall _ => hcall) (fun _ => nofun) (fun _ _ ha => absurd ha (hne ?_))
      fun _ _ _ => nofun
    rw [hpath]
    exact nofun
  · next hpath =>
    obtain rfl := Option.some.inj hserve
    refine h.answer (hne ?_) (h.table.login ..) (justified_issuedBy _ _ _ _) hothers
    rw [hpath]
    exact nofun
  · next hpath =>
    obtain rfl := Option.some.inj hserve
    refine h.answer (hne ?_) (h.table.mfaVerify ..) (justified_issuedBy _ _ _ _) hothers
    rw [hpath]
    exact nofun
  · next hpath =>
    obtain rfl := Option.some.inj hserve
    refine h.answer (hne ?_) (h.table.logout hinj _ _) (justified_usedBy _ _ _) hothers
    rw [hpath]
    exact nofun
  · cases hserve

/-- A refresh gets an error, which an event tells. -/
theorem SessionInv.refresh_error {e : HttpError} (h : SessionInv env w)
    (htable : TableOk env s (w.events ++ new))
    (hok : Justified (fun before e => EventOk (w.events ++ before) e) new)
    (hlost : Lost new c) :
    SessionInv env ((w.answer c attempt s (.ofError e)).log new) := by
  have hlost' : Lost (w.events ++ new) c :=
    hlost.imp (List.mem_append_right _) fun ⟨cookie, now, hmem⟩ =>
      ⟨cookie, now, List.mem_append_right _ hmem⟩
  exact h.of_exchange (others_answer ..).log rfl htable hok rfl (fun _ _ hcall _ => hcall)
    (fun _ => nofun) (fun _ _ _ => .inr hlost') fun _ _ _ => nofun

theorem sessionInv_select (hinj : Function.Injective env.hashRefreshToken) (h : SessionInv env w)
    (c : CallId) (attempt : Attempt) (fetch : Fetch) (now : Nat) :
    SessionInv env (w.select env c attempt fetch now) := by
  have hlive : ∀ token, cookieValue fetch.cookie = some token →
      ((getSessionByToken env.toAuthEnv w.server token now).isSome = true ↔
        Live w.events fetch.cookie now) := by
    intro token htoken
    rw [isSome_getSessionByToken hinj h.table, Live, htoken]
    simp
  have hrefused : ¬ Live w.events fetch.cookie now → ∀ e,
      SessionInv env ((w.answer c attempt w.server (.ofError e)).log
        [.refused c fetch.cookie now]) := by
    intro hnot e
    refine h.refresh_error (h.table.neutral rfl ?_) ?_ (.inr ⟨_, _, List.mem_singleton.mpr rfl⟩)
    · exact List.forall_mem_singleton.mpr trivial
    · refine justified_singleton ?_
      show ¬ Live (w.events ++ []) fetch.cookie now
      rwa [List.append_nil]
  have haccepted : Live w.events fetch.cookie now →
      Justified (fun before e => EventOk (w.events ++ before) e)
        [.accepted c fetch.cookie now] := by
    intro hlive
    refine justified_singleton ?_
    show Live (w.events ++ []) fetch.cookie now
    rwa [List.append_nil]
  unfold World.select
  split
  · next hnone =>
    refine hrefused ?_ _
    rintro ⟨token, e, htoken, -⟩
    rw [hnone] at htoken
    cases htoken
  · next token htoken =>
    split
    · next hnone =>
      refine hrefused ?_ _
      rw [← hlive token htoken, hnone]
      decide
    · next session hsession =>
      have hfound : Live w.events fetch.cookie now := by
        rw [← hlive token htoken, hsession]
        rfl
      split
      · refine h.refresh_error (h.table.neutral rfl ?_) ?_ (.inl ?_)
        · intro e he
          rcases List.mem_pair.mp he with rfl | rfl <;> trivial
        · exact (haccepted hfound).concat trivial
        · exact List.mem_pair.mpr (.inr rfl)
      · next user huser =>
        obtain ⟨t, e, ht, hmem, -⟩ := hfound
        refine h.of_exchange (others_setExchange ..).log rfl (h.table.neutral rfl ?_)
          (haccepted ?_) rfl (fun _ _ hcall _ => hcall) (fun _ => nofun) (fun _ => nofun) ?_
        · exact List.forall_mem_singleton.mpr trivial
        · rw [← hlive token htoken, hsession]
          rfl
        · rintro token' session' user' hx
          obtain ⟨rfl, rfl, rfl⟩ := Exchange.selected.inj hx
          rw [htoken, Option.some.injEq] at ht
          exact ⟨getSessionByToken_hash hsession, e, mem_issued.mpr (ht ▸ hmem)⟩

theorem sessionInv_commit (hinj : Function.Injective env.hashRefreshToken) (h : SessionInv env w)
    {token newRefresh : String} {session : Session} {user : User} {now : Nat}
    (hselected : w.exchanges (c, attempt) = .selected token session user) :
    SessionInv env (w.commit env c attempt token session user newRefresh now) := by
  obtain ⟨hhash, hissued⟩ := h.selected c attempt token session user hselected
  have hused := h.table.use hinj hhash hissued
  simp only [World.commit]
  split
  · refine h.refresh_error ?_ (justified_of_forall ?_) (.inl ?_)
    · rw [List.append_cons]
      exact hused.neutral rfl (List.forall_mem_singleton.mpr trivial)
    · intro e he before
      rcases List.mem_pair.mp he with rfl | rfl <;> trivial
    · exact List.mem_pair.mpr (.inr rfl)
  · next s' hcreate =>
    have htable := hused.issue hcreate
    rw [← List.append_cons] at htable
    refine h.of_exchange (others_answer ..).log rfl htable (justified_of_forall ?_) rfl
      (fun _ _ hcall _ => hcall) ?_ ?_ ?_
    · intro e he before
      rcases List.mem_pair.mp he with rfl | rfl <;> trivial
    · intro fetch hsent
      cases hsent
    · intro r hr _
      obtain rfl := Exchange.replied.inj hr
      exact .inl ⟨rfl, rfl⟩
    · intro token' session' user' hselected'
      cases hselected'

theorem sessionInv_step (hinj : Function.Injective env.hashRefreshToken) {a : Action}
    (h : SessionInv env w) (hstep : Stepped env w a w') : SessionInv env w' := by
  cases hstep with
  | start _ => exact sessionInv_fetch h _ _ nofun
  | serve hsent hserve => exact sessionInv_serve hinj h hsent hserve
  | select _ _ => exact sessionInv_select hinj h ..
  | commit hselected => exact sessionInv_commit hinj h hselected
  | arrive _ _ hreplied => exact sessionInv_arrive h hreplied
  | resume hcall hphase => exact sessionInv_resume h hcall hphase
  | fail _ _ => exact sessionInv_fail h ..

/-- The console and a server on which nobody is logged in. -/
def console (env : ConsoleEnv) : TSys World Action where
  init := fun w => (client env).init w ∧ w.server.sessions = [] ∧ w.events = []
  step := step env

theorem sessionInv_inductive (hinj : Function.Injective env.hashRefreshToken) :
    (console env).InductiveBy (fun _ _ => True) (SessionInv env) where
  init := by
    rintro w ⟨⟨hcalls, hexchanges, -⟩, hsessions, hevents⟩
    constructor
    · rw [hevents]
      exact ⟨by rw [hsessions]; rfl, nofun⟩
    · intro c
      constructor
      · intro fetch hsent
        rw [hexchanges] at hsent
        cases hsent
      · intro r hreplied
        rw [hexchanges] at hreplied
        cases hreplied
      · intro call r hcall
        rw [hcalls] at hcall
        cases hcall
    · intro c attempt token session user hselected
      rw [hexchanges] at hselected
      cases hselected
    · rw [hevents]
      exact justified_nil
  step := fun _ _ _ h _ hstep => sessionInv_step hinj h (stepped hstep)

/-- In every run of any number of pages and calls, with refreshes, logins and logouts that
interleave on the server, and responses that come in any order or never: the server accepts a
refresh exactly if its cookie names a session that was issued, has not been used by another
refresh or a logout before, and has not expired; and a page is sent to the login page only by a
call whose refresh was refused so, or got no response or an internal error. -/
theorem signedOut_cause (hinj : Function.Injective env.hashRefreshToken)
    (h : (console env).Reachable w) : Justified EventOk w.events :=
  ((sessionInv_inductive hinj).invariant w h).events

/-! ## Two calls that refresh at once -/

def nobody : World where
  server := {
    users := [alice]
    sessions := []
    attempts := fun _ => []
    unique := alice_unique }
  cookie := none
  accessToken := fun _ => none
  calls := fun _ => none
  exchanges := fun _ => .unsent
  served := []
  events := []

def twoRefreshes : List Action :=
  [.start 0 0 (.login "alice" "pw" "10.0.0.1"), .serve 0 .first "t1" 0 (0, ""), .arrive 0,
    .resume 0, .start 1 0 .api, .start 2 0 .api, .serve 1 .first "" 60 (200, ""),
    .serve 2 .first "" 60 (200, ""), .arrive 1, .arrive 2, .resume 1, .resume 2,
    .select 1 .silent 60, .commit 1 .silent "t2" 60, .select 2 .silent 60, .arrive 1, .resume 1,
    .arrive 2, .resume 2]

/-- Both calls send the same cookie; the second is refused, and signs the page out. -/
theorem signedOut_cause_twoRefreshes :
    ∃ w, (console sampleEnv).run nobody twoRefreshes = some w ∧ w.events =
      [.issued "t1" 604800, .accepted 1 (some "t1") 60, .used "t1", .issued "t2" 604860,
        .refused 2 (some "t1") 60, .signedOut 2] ∧ Justified EventOk w.events := by
  have hruns : ((console sampleEnv).run nobody twoRefreshes).map (·.events) =
      some [.issued "t1" 604800, .accepted 1 (some "t1") 60, .used "t1", .issued "t2" 604860,
        .refused 2 (some "t1") 60, .signedOut 2] := by
    decide +kernel
  obtain ⟨w, hrun, hevents⟩ := Option.map_eq_some_iff.mp hruns
  have hinit : (console sampleEnv).init nobody := ⟨⟨rfl, rfl, rfl⟩, rfl, rfl⟩
  have hreach := TSys.reachable_run (.init hinit) twoRefreshes hrun
  have hinj : Function.Injective (sampleEnv).hashRefreshToken := Function.injective_id
  exact ⟨w, hrun, hevents, signedOut_cause hinj hreach⟩

end AkesoDlp.Console
