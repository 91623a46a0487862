import AkesoDlp.Console.Sessions

/-!
# Staying signed in

Where the refreshes of a browser take turns, its cookie is always one that can be refreshed, or
the response with the next one is on its way, and no page is signed out.
-/

namespace AkesoDlp.Console

open Lib Server Server.Auth Server.TokenProvenance

/-- The fetch is one of `refresh_token`. -/
def IsRefresh (call : Call) (attempt : Attempt) : Prop :=
  attempt = .silent ∨ call.path = .refresh

/-- The call waits for the response to a refresh. -/
def Refreshing (w : World) (c : CallId) : Prop :=
  ∃ call attempt, w.calls c = some call ∧ call.phase = .waiting attempt ∧ IsRefresh call attempt

/-- Refreshes take turns, and each is answered in the lifetime of its session with a new token;
nobody logs in or out. -/
def Calm (env : ConsoleEnv) (w : World) (a : Action) : Prop :=
  (∀ w', step env w a = some w' → ∀ c c', Refreshing w' c → Refreshing w' c' → c = c') ∧
  match a with
  | .start _ _ path => path = .api ∨ path = .refresh
  | .select c attempt now => ∀ fetch token e, w.exchanges (c, attempt) = .sent fetch →
      cookieValue fetch.cookie = some token → Event.issued token e ∈ w.events → now < e
  | .commit _ _ newRefresh _ =>
      newRefresh.isEmpty = false ∧ HashFree env.toAuthEnv w.server newRefresh
  | .fail c _ => ¬ Refreshing w c
  | _ => True

/-- The cookie has a token that was issued and not used. -/
def Unused (events : List Event) (cookie : Option String) : Prop :=
  ∃ token e, cookieValue cookie = some token ∧ Event.issued token e ∈ events ∧
    Event.used token ∉ events

/-- How a refresh goes that a call waits for. -/
inductive Turn (events : List Event) (cookie : Option String) : Exchange → Prop
  | sent {fetch} : fetch.path = .refresh → fetch.cookie = cookie → Unused events cookie →
      Turn events cookie (.sent fetch)
  | selected {token session user} : Turn events cookie (.selected token session user)
  | replied {r token} : Granted r → r.setCookie = some token →
      Unused events (some token) → Turn events cookie (.replied r)

/-- A refresh on the server, or on its way there. -/
def Exchange.AtServer : Exchange → Prop
  | .sent fetch => fetch.path = .refresh
  | .selected .. => True
  | _ => False

/-- What holds of a call and its fetches. -/
structure CallTurn (w : World) (c : CallId) : Prop where
  /-- Calls that go on are for these endpoints. -/
  paths : ∀ call, w.calls c = some call → (∀ o, call.phase ≠ .settled o) →
    call.path = .api ∨ call.path = .refresh
  waiting : ∀ call attempt, w.calls c = some call → call.phase = .waiting attempt →
    IsRefresh call attempt → Turn w.events w.cookie (w.exchanges (c, attempt))
  /-- Other responses leave the cookie. -/
  others : ∀ call attempt r, w.calls c = some call → call.phase = .waiting attempt →
    ¬ IsRefresh call attempt → w.exchanges (c, attempt) = .replied r → r.setCookie = none
  arrived : ∀ call attempt r, w.calls c = some call → call.phase = .arrived attempt r →
    IsRefresh call attempt → Granted r
  atServer : ∀ attempt, (w.exchanges (c, attempt)).AtServer →
    ∃ call, w.calls c = some call ∧ call.phase = .waiting attempt ∧ IsRefresh call attempt
  sent : ∀ attempt fetch, w.exchanges (c, attempt) = .sent fetch →
    fetch.path = .api ∨ fetch.path = .refresh
  found : ∀ attempt token session user, w.exchanges (c, attempt) = .selected token session user →
    (getUserById w.server user.id).isSome = true

structure SignedIn (env : ConsoleEnv) (w : World) : Prop where
  sessions : SessionInv env w
  /-- Every session has its user. -/
  users : ∀ x ∈ w.server.sessions, (getUserById w.server x.userId).isSome = true
  one : ∀ c c', Refreshing w c → Refreshing w c' → c = c'
  jar : (∀ c, ¬ Refreshing w c) → Unused w.events w.cookie
  turns : ∀ c, CallTurn w c

variable {env : ConsoleEnv} {w w' : World} {c : CallId} {call : Call} {attempt : Attempt}
  {events new : List Event} {cookie : Option String}

theorem Unused.neutral (h : Unused events cookie) (hnew : ∀ e ∈ new, e.Neutral) :
    Unused (events ++ new) cookie := by
  obtain ⟨token, e, htoken, hissued, hused⟩ := h
  exact ⟨token, e, htoken, List.mem_append_left _ hissued,
    fun hmem => hused ((used_neutral hnew _).mp hmem)⟩

theorem Turn.neutral {x : Exchange} (h : Turn events cookie x) (hnew : ∀ e ∈ new, e.Neutral) :
    Turn (events ++ new) cookie x := by
  cases h with
  | sent hpath hcookie hunused => exact .sent hpath hcookie (hunused.neutral hnew)
  | selected => exact .selected
  | replied hgranted hset hunused => exact .replied hgranted hset (hunused.neutral hnew)

theorem refreshing_of_others (hothers : Others c w w') {c' : CallId} (hne : c' ≠ c) :
    Refreshing w' c' ↔ Refreshing w c' := by
  rw [Refreshing, Refreshing, hothers.calls c' hne]

theorem CallTurn.of_others {c' : CallId} (h : CallTurn w c') (hothers : Others c w w')
    (hne : c' ≠ c)
    (husers : ∀ id, (getUserById w.server id).isSome = (getUserById w'.server id).isSome)
    (hturn : Refreshing w c' → w'.cookie = w.cookie ∧
      ∃ new, w'.events = w.events ++ new ∧ ∀ e ∈ new, e.Neutral) : CallTurn w' c' := by
  have hcalls := hothers.calls c' hne
  have hexchanges : ∀ attempt, w'.exchanges (c', attempt) = w.exchanges (c', attempt) :=
    fun attempt => hothers.exchanges c' attempt hne
  constructor
  · rw [hcalls]
    exact h.paths
  · intro call attempt hcall hphase href
    rw [hcalls] at hcall
    obtain ⟨hcookie, new, hevents, hneutral⟩ := hturn ⟨call, attempt, hcall, hphase, href⟩
    rw [hexchanges, hcookie, hevents]
    exact (h.waiting call attempt hcall hphase href).neutral hneutral
  · intro call attempt r hcall
    rw [hcalls] at hcall
    rw [hexchanges]
    exact h.others call attempt r hcall
  · rw [hcalls]
    exact h.arrived
  · intro attempt
    rw [hexchanges, hcalls]
    exact h.atServer attempt
  · intro attempt
    rw [hexchanges]
    exact h.sent attempt
  · intro attempt token session user
    rw [hexchanges, ← husers]
    exact h.found attempt token session user

/-! ## The page -/

/-- A call that does not wait for a refresh has none at the server. -/
theorem CallTurn.not_atServer (h : CallTurn w c) (hnot : ¬ Refreshing w c) (attempt : Attempt) :
    ¬ (w.exchanges (c, attempt)).AtServer := by
  intro hat
  obtain ⟨call, hcall, hphase, href⟩ := h.atServer attempt hat
  exact hnot ⟨call, attempt, hcall, hphase, href⟩

/-- A call settles that does not wait for a refresh. -/
theorem SignedIn.settle (h : SignedIn env w) (hnot : ¬ Refreshing w c) (call : Call)
    (outcome : Outcome) (reply : Option Reply) :
    SignedIn env (w.settle c call outcome reply) := by
  have hcalls : (w.settle c call outcome reply).calls c =
      some { call with phase := .settled outcome } := calls_setPhase_self ..
  have hothers := others_settle w c call outcome reply
  have hnot' : ¬ Refreshing (w.settle c call outcome reply) c := by
    rintro ⟨call', attempt, hcall', hphase, -⟩
    rw [hcalls, Option.some.injEq] at hcall'
    rw [← hcall'] at hphase
    cases hphase
  have hsame : ∀ c', Refreshing (w.settle c call outcome reply) c' ↔ Refreshing w c' := by
    intro c'
    by_cases hc : c' = c
    · rw [hc]
      exact iff_of_false hnot' hnot
    · exact refreshing_of_others hothers hc
  constructor
  · exact sessionInv_settle h.sessions ..
  · exact h.users
  · intro c₁ c₂ h₁ h₂
    exact h.one c₁ c₂ ((hsame c₁).mp h₁) ((hsame c₂).mp h₂)
  · intro hnone
    exact h.jar fun c' hc' => hnone c' ((hsame c').mpr hc')
  · intro c'
    by_cases hc : c' = c
    · subst hc
      have hold := h.turns c'
      constructor
      · intro call' hcall' hphase
        rw [hcalls, Option.some.injEq] at hcall'
        exact absurd rfl (hcall' ▸ hphase outcome)
      · intro call' attempt hcall' hphase href
        exact absurd ⟨call', attempt, hcall', hphase, href⟩ hnot'
      · intro call' attempt r hcall' hphase
        rw [hcalls, Option.some.injEq] at hcall'
        rw [← hcall'] at hphase
        cases hphase
      · intro call' attempt r hcall' hphase
        rw [hcalls, Option.some.injEq] at hcall'
        rw [← hcall'] at hphase
        cases hphase
      · exact fun attempt hat => absurd hat (hold.not_atServer hnot attempt)
      · exact hold.sent
      · exact hold.found
    · exact (h.turns c').of_others hothers hc (fun _ => rfl) fun _ =>
        ⟨rfl, [], (List.append_nil _).symm, nofun⟩

theorem SignedIn.setToken (h : SignedIn env w) (tab : Tab) (token : Option String) :
    SignedIn env (w.setToken tab token) where
  sessions := sessionInv_setToken h.sessions tab token
  users := h.users
  one := h.one
  jar := h.jar
  turns c :=
    let hc := h.turns c
    ⟨hc.paths, hc.waiting, hc.others, hc.arrived, hc.atServer, hc.sent, hc.found⟩

/-- A call that does not wait for a refresh sends a fetch. -/
theorem SignedIn.fetch (h : SignedIn env w) (hnot : ¬ Refreshing w c) (call : Call)
    (attempt : Attempt) (path : Path) (authorization : Option String)
    (hcall : call.path = .api ∨ call.path = .refresh) (hpath : path = .api ∨ path = .refresh)
    (href : path = .refresh ↔ IsRefresh call attempt)
    (hone : ∀ c₁ c₂, Refreshing (w.fetch c call attempt path authorization) c₁ →
      Refreshing (w.fetch c call attempt path authorization) c₂ → c₁ = c₂) :
    SignedIn env (w.fetch c call attempt path authorization) := by
  generalize hw' : w.fetch c call attempt path authorization = w' at hone
  have hcalls : w'.calls c = some { call with phase := .waiting attempt } :=
    hw' ▸ calls_setPhase_self ..
  have hothers : Others c w w' := hw' ▸ others_fetch ..
  have hself : w'.exchanges (c, attempt) = .sent ⟨path, authorization, w.cookie⟩ :=
    hw' ▸ Function.update_self ..
  have hother : ∀ a, a ≠ attempt → w'.exchanges (c, a) = w.exchanges (c, a) := by
    intro a ha
    rw [← hw']
    exact Function.update_of_ne (fun heq => ha (congrArg Prod.snd heq)) _ _
  have hserver : w'.server = w.server := hw' ▸ rfl
  have hcookie : w'.cookie = w.cookie := hw' ▸ rfl
  have hevents : w'.events = w.events := hw' ▸ rfl
  have hwaits : Refreshing w' c ↔ IsRefresh call attempt := by
    constructor
    · rintro ⟨call', a, hcall', hphase, href'⟩
      rw [hcalls, Option.some.injEq] at hcall'
      subst hcall'
      obtain rfl := Phase.waiting.inj hphase
      exact href'
    · exact fun href' => ⟨_, attempt, hcalls, rfl, href'⟩
  have hjar : Refreshing w' c → Unused w.events w.cookie := by
    intro hc
    refine h.jar fun c' hc' => ?_
    by_cases heq : c' = c
    · exact hnot (heq ▸ hc')
    · exact heq (hone c' c ((refreshing_of_others hothers heq).mpr hc') hc)
  constructor
  · rw [← hw']
    refine sessionInv_fetch h.sessions c call ?_
    rintro rfl
    exact href.mpr (.inl rfl)
  · rw [hserver]
    exact h.users
  · exact hone
  · intro hnone
    rw [hevents, hcookie]
    refine h.jar fun c' hc' => ?_
    by_cases heq : c' = c
    · exact hnot (heq ▸ hc')
    · exact hnone c' ((refreshing_of_others hothers heq).mpr hc')
  · intro c'
    by_cases hc : c' = c
    · subst hc
      have hold := h.turns c'
      constructor
      · intro call' hcall' _
        rw [hcalls, Option.some.injEq] at hcall'
        exact hcall' ▸ hcall
      · intro call' a hcall' hphase href'
        have hwaiting : Refreshing w' c' := ⟨call', a, hcall', hphase, href'⟩
        rw [hcalls, Option.some.injEq] at hcall'
        subst hcall'
        obtain rfl := Phase.waiting.inj hphase
        rw [hself, hevents, hcookie]
        exact .sent (href.mpr href') rfl (hjar hwaiting)
      · intro call' a r hcall' hphase _ hreplied
        rw [hcalls, Option.some.injEq] at hcall'
        subst hcall'
        obtain rfl := Phase.waiting.inj hphase
        rw [hself] at hreplied
        cases hreplied
      · intro call' a r hcall' hphase
        rw [hcalls, Option.some.injEq] at hcall'
        rw [← hcall'] at hphase
        cases hphase
      · intro a hat
        by_cases ha : a = attempt
        · subst ha
          rw [hself] at hat
          exact ⟨_, hcalls, rfl, href.mp hat⟩
        · rw [hother a ha] at hat
          exact absurd hat (hold.not_atServer hnot a)
      · intro a fetch hfetch
        by_cases ha : a = attempt
        · subst ha
          rw [hself, Exchange.sent.injEq] at hfetch
          exact hfetch ▸ hpath
        · exact hold.sent a fetch (hother a ha ▸ hfetch)
      · intro a token session user hselected
        rw [hserver]
        by_cases ha : a = attempt
        · subst ha
          rw [hself] at hselected
          cases hselected
        · exact hold.found a token session user (hother a ha ▸ hselected)
    · exact (h.turns c').of_others hothers hc (fun _ => by rw [hserver]) fun _ =>
        ⟨hcookie, [], by rw [hevents, List.append_nil], nofun⟩

theorem not_refreshing_of_arrived (hcall : w.calls c = some call) {reply : Reply}
    (hphase : call.phase = .arrived attempt reply) : ¬ Refreshing w c := by
  rintro ⟨call', a, hcall', hphase', -⟩
  rw [hcall, Option.some.injEq] at hcall'
  rw [← hcall', hphase] at hphase'
  cases hphase'

theorem SignedIn.finish (h : SignedIn env w) (hnot : ¬ Refreshing w c) (call : Call)
    (reply : Reply) (detail : String → String) : SignedIn env (w.finish c call reply detail) := by
  unfold World.finish
  split <;> exact h.settle hnot ..

theorem SignedIn.resume {reply : Reply} (h : SignedIn env w) (hcall : w.calls c = some call)
    (hphase : call.phase = .arrived attempt reply)
    (hone : ∀ c₁ c₂, Refreshing (w.resume env c call attempt reply) c₁ →
      Refreshing (w.resume env c call attempt reply) c₂ → c₁ = c₂) :
    SignedIn env (w.resume env c call attempt reply) := by
  have hnot := not_refreshing_of_arrived hcall hphase
  have hpath := (h.turns c).paths call hcall (by rw [hphase]; exact fun _ => nofun)
  have hgranted := (h.turns c).arrived call attempt reply hcall hphase
  cases attempt with
  | first =>
      simp only [World.resume] at hone ⊢
      split at hone
      · next hstatus =>
        rw [if_pos hstatus]
        exact h.fetch hnot call .silent .refresh none hpath (.inr rfl)
          (iff_of_true rfl (.inl rfl)) hone
      · next hstatus =>
        rw [if_neg hstatus]
        exact h.finish hnot ..
  | silent =>
      have hgranted := hgranted (.inl rfl)
      obtain ⟨token, htoken⟩ := Option.isSome_iff_exists.mp hgranted.2
      simp only [World.resume, if_pos hgranted.1, htoken] at hone ⊢
      exact (h.setToken _ _).fetch hnot call .retry call.path _ hpath hpath
        (iff_of_eq (by simp [IsRefresh])) hone
  | retry => exact h.finish hnot ..

theorem SignedIn.fail (h : SignedIn env w) (hcall : w.calls c = some call)
    (hphase : call.phase = .waiting attempt) (hnot : ¬ Refreshing w c) (detail : String) :
    SignedIn env (w.fail c call attempt detail) := by
  cases attempt with
  | first => exact h.settle hnot ..
  | silent => exact absurd ⟨call, .silent, hcall, hphase, .inl rfl⟩ hnot
  | retry => exact h.settle hnot ..

/-! ## The server -/

/-- The exchange of a fetch moves. Other refreshes do not see it: the events say nothing of
sessions, or it is the one refresh itself. -/
theorem SignedIn.of_exchange {x : Exchange} (h : SignedIn env w) (hsessions : SessionInv env w')
    (hothers : Others c w w') (hcalls : w'.calls = w.calls)
    (hexchanges : w'.exchanges = Function.update w.exchanges (c, attempt) x)
    (hcookie : w'.cookie = w.cookie)
    (husers : ∀ id, (getUserById w.server id).isSome = (getUserById w'.server id).isSome)
    (howners : ∀ y ∈ w'.server.sessions, (getUserById w'.server y.userId).isSome = true)
    (hkeep : (∃ new, w'.events = w.events ++ new ∧ ∀ e ∈ new, e.Neutral) ∨
      ∃ call, w.calls c = some call ∧ call.phase = .waiting attempt ∧ IsRefresh call attempt)
    (hturn : ∀ call, w.calls c = some call → call.phase = .waiting attempt →
      IsRefresh call attempt → Turn w'.events w.cookie x)
    (hreplied : ∀ call r, w.calls c = some call → call.phase = .waiting attempt →
      ¬ IsRefresh call attempt → x = .replied r → r.setCookie = none)
    (hat : x.AtServer → (w.exchanges (c, attempt)).AtServer)
    (hsent : ∀ fetch, x ≠ .sent fetch)
    (hfound : ∀ token session user, x = .selected token session user →
      (getUserById w'.server user.id).isSome = true) : SignedIn env w' := by
  have hsame : ∀ c', Refreshing w' c' ↔ Refreshing w c' := by
    intro c'
    rw [Refreshing, Refreshing, hcalls]
  have hself : w'.exchanges (c, attempt) = x := by
    rw [hexchanges]
    exact Function.update_self ..
  have hother : ∀ a, a ≠ attempt → w'.exchanges (c, a) = w.exchanges (c, a) := by
    intro a ha
    rw [hexchanges]
    exact Function.update_of_ne (fun heq => ha (congrArg Prod.snd heq)) _ _
  have hneutral : ∀ c', c' ≠ c → Refreshing w c' →
      ∃ new, w'.events = w.events ++ new ∧ ∀ e ∈ new, e.Neutral := by
    intro c' hc hc'
    refine hkeep.resolve_right fun ⟨call, hcall, hphase, href⟩ => ?_
    exact hc (h.one c' c hc' ⟨call, attempt, hcall, hphase, href⟩)
  constructor
  · exact hsessions
  · exact howners
  · intro c₁ c₂ h₁ h₂
    exact h.one c₁ c₂ ((hsame c₁).mp h₁) ((hsame c₂).mp h₂)
  · intro hnone
    rcases hkeep with ⟨new, hevents, hnew⟩ | ⟨call, hcall, hphase, href⟩
    · rw [hcookie, hevents]
      exact (h.jar fun c' hc' => hnone c' ((hsame c').mpr hc')).neutral hnew
    · exact absurd ((hsame c).mpr ⟨call, attempt, hcall, hphase, href⟩) (hnone c)
  · intro c'
    by_cases hc : c' = c
    · subst hc
      have hold := h.turns c'
      constructor
      · rw [hcalls]
        exact hold.paths
      · intro call a hcall hphase href
        rw [hcalls] at hcall
        rw [hcookie]
        by_cases ha : a = attempt
        · subst ha
          rw [hself]
          exact hturn call hcall hphase href
        · rw [hother a ha]
          rcases hkeep with ⟨new, hevents, hnew⟩ | ⟨call', hcall', hphase', -⟩
          · rw [hevents]
            exact (hold.waiting call a hcall hphase href).neutral hnew
          · -- the call waits for one fetch only
            rw [hcall, Option.some.injEq] at hcall'
            rw [← hcall', hphase] at hphase'
            exact absurd (Phase.waiting.inj hphase') ha
      · intro call a r hcall hphase hnot hr
        rw [hcalls] at hcall
        by_cases ha : a = attempt
        · subst ha
          exact hreplied call r hcall hphase hnot (hself.symm.trans hr)
        · exact hold.others call a r hcall hphase hnot (hother a ha ▸ hr)
      · rw [hcalls]
        exact hold.arrived
      · intro a ha'
        rw [hcalls]
        by_cases ha : a = attempt
        · subst ha
          rw [hself] at ha'
          exact hold.atServer a (hat ha')
        · rw [hother a ha] at ha'
          exact hold.atServer a ha'
      · intro a fetch hfetch
        by_cases ha : a = attempt
        · subst ha
          exact absurd (hself.symm.trans hfetch) (hsent fetch)
        · exact hold.sent a fetch (hother a ha ▸ hfetch)
      · intro a token session user hselected
        by_cases ha : a = attempt
        · subst ha
          exact hfound token session user (hself.symm.trans hselected)
        · rw [← husers]
          exact hold.found a token session user (hother a ha ▸ hselected)
    · exact (h.turns c').of_others hothers hc husers fun hc' => ⟨hcookie, hneutral c' hc hc'⟩

theorem setCookie_apiReply (fetch : Fetch) (now : Nat) (own : Nat × String) :
    (apiReply env fetch now own).setCookie = none := by
  unfold apiReply
  split <;> rfl

theorem SignedIn.serve (hinj : Function.Injective env.hashRefreshToken) (h : SignedIn env w)
    {fetch : Fetch} {newRefresh : String} {now : Nat} {own : Nat × String}
    (hsent : w.exchanges (c, attempt) = .sent fetch)
    (hserve : w.serve env c attempt fetch newRefresh now own = some w') :
    SignedIn env w' ∧ w'.events = w.events := by
  have hsessions := sessionInv_serve hinj h.sessions hsent hserve
  have hothers := others_serve hserve
  rcases (h.turns c).sent attempt fetch hsent with hpath | hpath
  · simp only [World.serve, hpath, Option.some.injEq] at hserve
    subst hserve
    refine ⟨?_, rfl⟩
    refine h.of_exchange hsessions hothers rfl rfl rfl (fun _ => rfl) h.users
      (.inl ⟨[], (List.append_nil _).symm, List.forall_mem_nil _⟩) ?_ ?_ not_false.elim ?_ ?_
    · intro call hcall hphase href
      -- a refresh is not waited for with another fetch
      have hturn := (h.turns c).waiting call attempt hcall hphase href
      rw [hsent] at hturn
      cases hturn with
      | sent hrefresh =>
          rw [hpath] at hrefresh
          cases hrefresh
    · intro call r _ _ _ hr
      rw [← Exchange.replied.inj hr]
      exact setCookie_apiReply fetch now own
    · intro fetch' heq
      cases heq
    · intro token session user heq
      cases heq
  · rw [World.serve, hpath] at hserve
    cases hserve

/-- The refresh that a fetch belongs to, and the cookie that it brought. -/
theorem SignedIn.turn_of_sent (h : SignedIn env w) {fetch : Fetch}
    (hsent : w.exchanges (c, attempt) = .sent fetch) (hpath : fetch.path = .refresh) :
    (∃ call, w.calls c = some call ∧ call.phase = .waiting attempt ∧ IsRefresh call attempt) ∧
      Unused w.events fetch.cookie := by
  have hat : (w.exchanges (c, attempt)).AtServer := hsent ▸ hpath
  obtain ⟨call, hcall, hphase, href⟩ := (h.turns c).atServer attempt hat
  refine ⟨⟨call, hcall, hphase, href⟩, ?_⟩
  have hturn := (h.turns c).waiting call attempt hcall hphase href
  rw [hsent] at hturn
  cases hturn with
  | sent _ hcookie hunused => exact hcookie ▸ hunused

theorem select_found {fetch : Fetch} {token : String} {session : Session} {user : User} {now : Nat}
    (htoken : cookieValue fetch.cookie = some token)
    (hsession : getSessionByToken env.toAuthEnv w.server token now = some session)
    (huser : getUserById w.server session.userId = some user) :
    w.select env c attempt fetch now =
      (w.setExchange c attempt (.selected token session user)).log
        [.accepted c fetch.cookie now] := by
  simp only [World.select, htoken, hsession, huser]

/-- In its turn a refresh finds its session. -/
theorem SignedIn.select (hinj : Function.Injective env.hashRefreshToken) (h : SignedIn env w)
    {fetch : Fetch} {now : Nat} (hsent : w.exchanges (c, attempt) = .sent fetch)
    (hpath : fetch.path = .refresh)
    (hlife : ∀ token e, cookieValue fetch.cookie = some token →
      Event.issued token e ∈ w.events → now < e) :
    SignedIn env (w.select env c attempt fetch now) ∧
      (w.select env c attempt fetch now).events = w.events ++ [.accepted c fetch.cookie now] := by
  have hsessions := sessionInv_select hinj h.sessions c attempt fetch now
  have hothers : Others c w (w.select env c attempt fetch now) := others_select ..
  obtain ⟨hwaits, token, e, htoken, hissued, hused⟩ := h.turn_of_sent hsent hpath
  have hlive := (isSome_getSessionByToken hinj h.sessions.table).mpr
    ⟨e, hissued, hlife token e htoken hissued, hused⟩
  obtain ⟨session, hsession⟩ := Option.isSome_iff_exists.mp hlive
  have howner := h.users session (List.mem_of_find?_eq_some hsession)
  obtain ⟨user, huser⟩ := Option.isSome_iff_exists.mp howner
  rw [select_found htoken hsession huser] at hsessions hothers ⊢
  refine ⟨?_, rfl⟩
  refine h.of_exchange hsessions hothers rfl rfl rfl (fun _ => rfl) h.users (.inr hwaits)
    (fun _ _ _ _ => .selected) (fun _ _ _ _ _ => nofun) ?_ (fun _ => nofun) ?_
  · exact fun _ => hsent ▸ hpath
  · intro token' session' user' hx
    obtain ⟨rfl, rfl, rfl⟩ := Exchange.selected.inj hx
    show (getUserById w.server user.id).isSome = true
    rw [getUserById_id huser]
    exact howner

theorem owners_createSession {s s' : AuthState} {userId : Uuid} {newRefresh : String} {now : Nat}
    (h : createSession env.toAuthEnv s userId newRefresh now = some s') :
    s'.users = s.users ∧ ∀ y ∈ s'.sessions, y ∈ s.sessions ∨ y.userId = userId := by
  unfold createSession at h
  split at h
  · cases h
  · obtain rfl := Option.some.inj h
    refine ⟨rfl, fun y hy => ?_⟩
    refine (List.mem_append.mp hy).imp_right fun hnew => ?_
    rw [List.mem_singleton.mp hnew]

theorem mem_revokeSession {s : AuthState} {session y : Session}
    (h : y ∈ (revokeSession s session).sessions) : ∃ x ∈ s.sessions, x.userId = y.userId := by
  obtain ⟨x, hx, rfl⟩ := List.mem_map.mp h
  refine ⟨x, hx, ?_⟩
  split <;> rfl

/-- The rest of a refresh stores the next token and sends it. -/
theorem SignedIn.commit (hinj : Function.Injective env.hashRefreshToken) (h : SignedIn env w)
    {token newRefresh : String} {session : Session} {user : User} {now : Nat}
    (hselected : w.exchanges (c, attempt) = .selected token session user)
    (hne : newRefresh.isEmpty = false) (hfree : HashFree env.toAuthEnv w.server newRefresh) :
    SignedIn env (w.commit env c attempt token session user newRefresh now) ∧
      (w.commit env c attempt token session user newRefresh now).events =
        w.events ++ [.used token, .issued newRefresh (expiry env now)] := by
  have hsessions : SessionInv env (w.commit env c attempt token session user newRefresh now) :=
    sessionInv_commit hinj h.sessions hselected
  have hothers : Others c w (w.commit env c attempt token session user newRefresh now) :=
    others_commit ..
  have howner := (h.turns c).found attempt token session user hselected
  have hwaits := (h.turns c).atServer attempt (hselected ▸ trivial)
  obtain ⟨-, e, htoken⟩ := h.sessions.selected c attempt token session user hselected
  -- the next token is not among those of before, so it is not used
  have hnew := h.sessions.table.not_issued hfree
  have hunused : Event.used newRefresh ∉
      w.events ++ [.used token, .issued newRefresh (expiry env now)] := by
    intro hmem
    rcases List.mem_append.mp hmem with hold | hlast
    · obtain ⟨e', he'⟩ := h.sessions.table.used newRefresh hold
      exact hnew e' he'
    · rcases List.mem_pair.mp hlast with heq | heq
      · exact hnew e (Event.used.inj heq ▸ htoken)
      · cases heq
  obtain ⟨s', hcreate⟩ : ∃ s', createSession env.toAuthEnv (revokeSession w.server session)
      user.id newRefresh now = some s' := by
    rw [← Option.ne_none_iff_exists', Ne, createSession_eq_none, not_not]
    exact hashFree_revokeSession.mpr hfree
  simp only [World.commit, hcreate] at hsessions hothers ⊢
  refine ⟨?_, rfl⟩
  obtain ⟨husers, howners⟩ := owners_createSession hcreate
  have hsame : ∀ id, (getUserById w.server id).isSome = (getUserById s' id).isSome := by
    intro id
    rw [getUserById, getUserById, husers]
    rfl
  refine h.of_exchange hsessions hothers rfl rfl rfl hsame ?_ (.inr hwaits) ?_ ?_ not_false.elim
    ?_ ?_
  · intro y hy
    show (getUserById s' y.userId).isSome = true
    rw [← hsame]
    rcases howners y hy with hy | hy
    · obtain ⟨x, hx, hid⟩ := mem_revokeSession hy
      exact hid ▸ h.users x hx
    · exact hy ▸ howner
  · intro _ _ _ _
    refine .replied ⟨rfl, rfl⟩ rfl ⟨newRefresh, expiry env now, ?_, ?_, hunused⟩
    · simp [cookieValue, hne]
    · exact List.mem_append_right _ (List.mem_pair.mpr (.inr rfl))
  · intro call _ hcall hphase hnot _
    obtain ⟨call', hcall', -, href⟩ := hwaits
    rw [hcall, Option.some.injEq] at hcall'
    exact absurd (hcall' ▸ href) hnot
  · intro fetch heq
    cases heq
  · intro token' session' user' heq
    cases heq

/-- The response to a refresh brings its cookie; the others leave the cookie. -/
theorem SignedIn.arrive {reply : Reply} (h : SignedIn env w) (hcall : w.calls c = some call)
    (hphase : call.phase = .waiting attempt)
    (hreplied : w.exchanges (c, attempt) = .replied reply) :
    SignedIn env { w.setPhase c call (.arrived attempt reply) with
      cookie := reply.setCookie.or w.cookie } := by
  have hsessions := @sessionInv_arrive env w c call attempt reply h.sessions hreplied
  have hphases := others_setPhase w c call (.arrived attempt reply)
  have hcalls : (w.setPhase c call (.arrived attempt reply)).calls c =
      some { call with phase := .arrived attempt reply } := calls_setPhase_self ..
  generalize hw' : { w.setPhase c call (.arrived attempt reply) with
    cookie := reply.setCookie.or w.cookie } = w' at hsessions ⊢
  have hothers : Others c w w' := hw' ▸ ⟨hphases.calls, hphases.exchanges, hphases.served⟩
  have hcalls : w'.calls c = some { call with phase := .arrived attempt reply } := hw' ▸ hcalls
  have hexchanges : w'.exchanges = w.exchanges := hw' ▸ rfl
  have hserver : w'.server = w.server := hw' ▸ rfl
  have hevents : w'.events = w.events := hw' ▸ rfl
  have hcookie : w'.cookie = reply.setCookie.or w.cookie := hw' ▸ rfl
  have hold := h.turns c
  have hdone : ¬ Refreshing w' c := not_refreshing_of_arrived hcalls rfl
  have hwaits : Refreshing w c ↔ IsRefresh call attempt := by
    constructor
    · rintro ⟨call', a, hcall', hphase', href⟩
      rw [hcall, Option.some.injEq] at hcall'
      subst hcall'
      rw [hphase, Phase.waiting.injEq] at hphase'
      exact hphase' ▸ href
    · exact fun href => ⟨call, attempt, hcall, hphase, href⟩
  have hkeeps : ¬ IsRefresh call attempt → w'.cookie = w.cookie := by
    intro hnot
    rw [hcookie, hold.others call attempt reply hcall hphase hnot hreplied, Option.none_or]
  constructor
  · exact hsessions
  · rw [hserver]
    exact h.users
  · intro c₁ c₂ h₁ h₂
    have hne : ∀ c', Refreshing w' c' → c' ≠ c := fun c' hc' heq => hdone (heq ▸ hc')
    exact h.one c₁ c₂ ((refreshing_of_others hothers (hne c₁ h₁)).mp h₁)
      ((refreshing_of_others hothers (hne c₂ h₂)).mp h₂)
  · intro hnone
    rw [hevents]
    by_cases href : IsRefresh call attempt
    · have hturn := hold.waiting call attempt hcall hphase href
      rw [hreplied] at hturn
      cases hturn with
      | replied _ hset hunused => rwa [hcookie, hset]
    · rw [hkeeps href]
      refine h.jar fun c' hc' => ?_
      by_cases heq : c' = c
      · exact href (hwaits.mp (heq ▸ hc'))
      · exact hnone c' ((refreshing_of_others hothers heq).mpr hc')
  · intro c'
    by_cases hc : c' = c
    · subst hc
      constructor
      · intro call' hcall' _
        rw [hcalls, Option.some.injEq] at hcall'
        subst hcall'
        exact hold.paths call hcall (by rw [hphase]; exact fun _ => nofun)
      · intro call' a hcall' hphase' href
        exact absurd ⟨call', a, hcall', hphase', href⟩ hdone
      · intro call' a r hcall' hphase'
        rw [hcalls, Option.some.injEq] at hcall'
        rw [← hcall'] at hphase'
        cases hphase'
      · intro call' a r hcall' hphase' href
        rw [hcalls, Option.some.injEq] at hcall'
        subst hcall'
        obtain ⟨rfl, rfl⟩ := Phase.arrived.inj hphase'
        have hturn := hold.waiting call attempt hcall hphase href
        rw [hreplied] at hturn
        cases hturn with
        | replied hgranted => exact hgranted
      · intro a hat
        rw [hexchanges] at hat
        -- only the fetch that it waited for was at the server, and that has its response
        obtain ⟨call', hcall', hphase', -⟩ := hold.atServer a hat
        rw [hcall, Option.some.injEq] at hcall'
        rw [← hcall', hphase, Phase.waiting.injEq] at hphase'
        rw [← hphase', hreplied] at hat
        exact hat.elim
      · rw [hexchanges]
        exact hold.sent
      · rw [hexchanges, hserver]
        exact hold.found
    · refine (h.turns c').of_others hothers hc (fun _ => by rw [hserver]) fun hc' => ?_
      refine ⟨hkeeps fun href => hc (h.one c' c hc' (hwaits.mpr href)), [], ?_, nofun⟩
      rw [hevents, List.append_nil]

/-! ## Runs -/

/-- What goes wrong with a refresh. -/
def Event.trouble : Event → Bool
  | .refused .. | .failed _ | .signedOut _ => true
  | .issued .. | .used _ | .accepted .. => false

def troubles (events : List Event) : List Event := events.filter Event.trouble

theorem troubles_append (h : ∀ e ∈ new, e.trouble = false) :
    troubles (events ++ new) = troubles events := by
  have hnone : new.filter Event.trouble = [] :=
    List.filter_eq_nil_iff.mpr fun e he => by simp [h e he]
  rw [troubles, List.filter_append, hnone, List.append_nil, troubles]

theorem events_resume {reply : Reply} (h : attempt = .silent → Granted reply) :
    (w.resume env c call attempt reply).events = w.events := by
  cases attempt with
  | first =>
      simp only [World.resume, World.finish]
      split_ifs <;> rfl
  | silent =>
      obtain ⟨hok, htoken⟩ := h rfl
      obtain ⟨token, htoken⟩ := Option.isSome_iff_exists.mp htoken
      simp only [World.resume, if_pos hok, htoken]
      rfl
  | retry =>
      simp only [World.resume, World.finish]
      split_ifs <;> rfl

theorem signedIn_step (hinj : Function.Injective env.hashRefreshToken) {a : Action}
    (h : SignedIn env w) (hcalm : Calm env w a) (hstep : step env w a = some w') :
    SignedIn env w' ∧ troubles w'.events = troubles w.events := by
  have hone := hcalm.1 w' hstep
  cases stepped hstep with
  | @start c tab path hnone =>
      refine ⟨?_, rfl⟩
      have hnot : ¬ Refreshing w c := by
        rintro ⟨call, a, hcall, -⟩
        rw [hnone] at hcall
        cases hcall
      refine h.fetch hnot _ .first path _ hcalm.2 hcalm.2 ?_ hone
      simp [IsRefresh]
  | serve hsent hserve =>
      obtain ⟨hkept, hevents⟩ := h.serve hinj hsent hserve
      exact ⟨hkept, by rw [hevents]⟩
  | select hsent hpath =>
      obtain ⟨hkept, hevents⟩ := h.select hinj hsent hpath
        fun token e => hcalm.2 _ token e hsent
      rw [hevents]
      exact ⟨hkept, troubles_append (List.forall_mem_singleton.mpr rfl)⟩
  | commit hselected =>
      obtain ⟨hkept, hevents⟩ := h.commit hinj hselected hcalm.2.1 hcalm.2.2
      rw [hevents]
      refine ⟨hkept, troubles_append fun e he => ?_⟩
      rcases List.mem_pair.mp he with rfl | rfl <;> rfl
  | arrive hcall hphase hreplied => exact ⟨h.arrive hcall hphase hreplied, rfl⟩
  | @resume c call attempt reply hcall hphase =>
      have hgranted : attempt = .silent → Granted reply := fun hsilent =>
        (h.turns c).arrived call attempt reply hcall hphase (.inl hsilent)
      exact ⟨h.resume hcall hphase hone, by rw [events_resume hgranted]⟩
  | @fail c call attempt detail hcall hphase =>
      refine ⟨h.fail hcall hphase hcalm.2 detail, ?_⟩
      cases attempt with
      | silent => exact absurd ⟨call, .silent, hcall, hphase, .inl rfl⟩ hcalm.2
      | _ => rfl

/-- No fetch is on its way to the server or at it. -/
def Exchange.idle : Exchange → Bool
  | .unsent | .replied _ => true
  | .sent _ | .selected .. => false

/-- All calls have ended, no fetch is on its way, and the cookie can be used. -/
structure Rested (w : World) : Prop where
  settled : ∀ c call, w.calls c = some call → ∃ o, call.phase = .settled o
  idle : ∀ x, (w.exchanges x).idle = true
  /-- The foreign key of the sessions. -/
  users : ∀ x ∈ w.server.sessions, (getUserById w.server x.userId).isSome = true
  cookie : Unused w.events w.cookie

theorem Rested.signedIn (h : Rested w) (hsessions : SessionInv env w) : SignedIn env w := by
  have hcalls : ∀ c call, w.calls c = some call → (∀ o, call.phase ≠ .settled o) → False := by
    intro c call hcall hnot
    obtain ⟨o, ho⟩ := h.settled c call hcall
    exact hnot o ho
  have hnone : ∀ c, ¬ Refreshing w c := by
    rintro c ⟨call, attempt, hcall, hphase, -⟩
    exact hcalls c call hcall (by rw [hphase]; exact fun _ => nofun)
  constructor
  · exact hsessions
  · exact h.users
  · exact fun c _ hc => absurd hc (hnone c)
  · exact fun _ => h.cookie
  · intro c
    constructor
    · exact fun call hcall hnot => (hcalls c call hcall hnot).elim
    · exact fun call attempt hcall hphase href =>
        absurd ⟨call, attempt, hcall, hphase, href⟩ (hnone c)
    · exact fun call attempt r hcall hphase =>
        (hcalls c call hcall (by rw [hphase]; exact fun _ => nofun)).elim
    · exact fun call attempt r hcall hphase =>
        (hcalls c call hcall (by rw [hphase]; exact fun _ => nofun)).elim
    · intro attempt hat
      have hidle := h.idle (c, attempt)
      cases hx : w.exchanges (c, attempt) <;> rw [hx] at hidle hat <;>
        first | exact hat.elim | cases hidle
    · intro attempt fetch hsent
      exact absurd (h.idle (c, attempt)) (by rw [hsent]; exact nofun)
    · intro attempt token session user hselected
      exact absurd (h.idle (c, attempt)) (by rw [hselected]; exact nofun)

/-- From any reachable state in which all calls have ended, no fetch is on its way and the cookie
can be used, whatever the pages of the browser then call, in any order, on any number of page
loads: where their refreshes take turns, none of them is refused, no page is signed out, and
between two refreshes the cookie is always a token that was issued and not used. -/
theorem signedIn_kept (hinj : Function.Injective env.hashRefreshToken)
    (hreach : (console env).Reachable w) (hrest : Rested w) {actions : List Action}
    (hcalm : (console env).RunOk (Calm env) w actions)
    (hrun : (console env).run w actions = some w') :
    troubles w'.events = troubles w.events ∧
      ((∀ c, ¬ Refreshing w' c) → Unused w'.events w'.cookie) := by
  have hstart := hrest.signedIn ((sessionInv_inductive hinj).invariant w hreach)
  have hkept : SignedIn env w' ∧ troubles w'.events = troubles w.events := by
    refine TSys.run_keeps (P := fun v => SignedIn env v ∧ troubles v.events = troubles w.events)
      ?_ actions ⟨hstart, rfl⟩ hcalm hrun
    rintro s a s' ⟨hs, htroubles⟩ hok hstep
    obtain ⟨hs', hsame⟩ := signedIn_step hinj hs hok hstep
    exact ⟨hs', hsame.trans htroubles⟩
  exact ⟨hkept.2, hkept.1.jar⟩

/-! ## Two refreshes in turn -/

def waitsForRefresh (w : World) (c : CallId) : Bool :=
  (w.calls c).any fun call =>
    match call.phase with
    | .waiting attempt => decide (attempt = .silent ∨ call.path = .refresh)
    | _ => false

theorem waitsForRefresh_of_refreshing (h : Refreshing w c) : waitsForRefresh w c = true := by
  obtain ⟨call, attempt, hcall, hphase, href⟩ := h
  rw [waitsForRefresh, hcall, Option.any_some, hphase]
  exact decide_eq_true href

/-- A test of `Calm` where only these calls are made. -/
def calmTest (env : ConsoleEnv) (ids : List CallId) (w : World) (a : Action) : Bool :=
  decide (a.call ∈ ids) &&
    ((step env w a).all fun w' => ids.all fun c => ids.all fun c' =>
      decide (waitsForRefresh w' c = true → waitsForRefresh w' c' = true → c = c')) &&
    match a with
    | .start _ _ path => decide (path = .api ∨ path = .refresh)
    | .select c attempt now =>
        match w.exchanges (c, attempt) with
        | .sent fetch => (issued w.events).all fun x =>
            decide (cookieValue fetch.cookie = some x.1 → now < x.2)
        | _ => true
    | .commit _ _ newRefresh _ => !newRefresh.isEmpty &&
        w.server.sessions.all fun x => x.refreshTokenHash != env.hashRefreshToken newRefresh
    | .fail c _ => !waitsForRefresh w c
    | _ => true

/-- Calls that were not made. -/
def Only (ids : List CallId) (w : World) : Prop := ∀ c, c ∉ ids → w.calls c = none

variable {ids : List CallId} {a : Action}

theorem only_step (h : Only ids w) (ha : a.call ∈ ids) (hstep : step env w a = some w') :
    Only ids w' := by
  intro c hc
  rw [(others_step (stepped hstep)).calls c fun heq => hc (heq ▸ ha)]
  exact h c hc

theorem mem_of_refreshing (h : Only ids w) (href : Refreshing w c) : c ∈ ids := by
  by_contra hnot
  obtain ⟨call, -, hcall, -⟩ := href
  rw [h c hnot] at hcall
  cases hcall

theorem calm_of_test (h : Only ids w) (htest : calmTest env ids w a = true) : Calm env w a := by
  obtain ⟨hboth, hact⟩ := Bool.and_eq_true_iff.mp htest
  obtain ⟨hids, hone⟩ := Bool.and_eq_true_iff.mp hboth
  have hids := of_decide_eq_true hids
  constructor
  · intro w' hstep c c' hc hc'
    have honly := only_step h hids hstep
    rw [hstep, Option.all_some, List.all_eq_true] at hone
    have hone := List.all_eq_true.mp (hone c (mem_of_refreshing honly hc)) c'
      (mem_of_refreshing honly hc')
    exact of_decide_eq_true hone (waitsForRefresh_of_refreshing hc)
      (waitsForRefresh_of_refreshing hc')
  · cases a with
    | start c tab path => exact of_decide_eq_true hact
    | select c attempt now =>
        intro fetch token e hsent htoken hissued
        simp only [hsent] at hact
        exact of_decide_eq_true (List.all_eq_true.mp hact _ (mem_issued.mpr hissued)) htoken
    | commit c attempt newRefresh now =>
        obtain ⟨hne, hfree⟩ := Bool.and_eq_true_iff.mp hact
        rw [List.all_eq_true] at hfree
        exact ⟨Bool.not_eq_true' _ ▸ hne, fun x hx => bne_iff_ne.mp (hfree x hx)⟩
    | fail c detail =>
        intro href
        have hwaits : (!waitsForRefresh w c) = true := hact
        rw [waitsForRefresh_of_refreshing href] at hwaits
        cases hwaits
    | serve | arrive | resume => trivial

theorem calm_of_tests (h : Only ids w) {actions : List Action}
    (htest : (console env).runAll (calmTest env ids) w actions = true) :
    (console env).RunOk (Calm env) w actions := by
  refine TSys.runOk_of_runAll_of_inv (I := Only ids) (fun s a s' hs ha hstep => ?_)
    (fun s a hs ha => calm_of_test hs ha) h htest
  have hids := (Bool.and_eq_true_iff.mp (Bool.and_eq_true_iff.mp ha).1).1
  exact only_step hs (of_decide_eq_true hids) hstep

def loginRun : List Action :=
  [.start 0 0 (.login "alice" "pw" "10.0.0.1"), .serve 0 .first "t1" 0 (0, ""), .arrive 0,
    .resume 0]

/-- A call whose access token has expired, and then the refresh of a second page load. -/
def turnsRun : List Action :=
  [.start 1 0 .api, .serve 1 .first "" 60 (200, ""), .arrive 1, .resume 1, .select 1 .silent 60,
    .commit 1 .silent "t2" 60, .arrive 1, .resume 1, .serve 1 .retry "" 60 (200, "42"),
    .start 2 1 .refresh, .select 2 .first 120, .commit 2 .first "t3" 120, .arrive 2, .arrive 1,
    .resume 1, .resume 2]

/-- A run of other calls leaves a call and its fetches. -/
theorem untouched_run {w₀ : World} {actions : List Action} (hcalls : ∀ a ∈ actions, a.call ≠ c)
    (hrun : (console env).run w₀ actions = some w) :
    w.calls c = w₀.calls c ∧ ∀ attempt, w.exchanges (c, attempt) = w₀.exchanges (c, attempt) := by
  have hok : (console env).RunOk (fun _ a => a.call ≠ c) w₀ actions :=
    TSys.runOk_of_forall (fun a ha _ => hcalls a ha) w₀
  refine TSys.run_keeps
    (P := fun v => v.calls c = w₀.calls c ∧ ∀ attempt,
      v.exchanges (c, attempt) = w₀.exchanges (c, attempt))
    (fun s a s' hs hne hstep => ?_) actions ⟨rfl, fun _ => rfl⟩ hok hrun
  have hothers := others_step (stepped hstep)
  exact ⟨(hothers.calls c hne.symm).trans hs.1, fun attempt =>
    (hothers.exchanges c attempt hne.symm).trans (hs.2 attempt)⟩

theorem untouched_loginRun (hc : c ≠ 0) (hrun : (console sampleEnv).run nobody loginRun = some w) :
    w.calls c = none ∧ ∀ attempt, w.exchanges (c, attempt) = .unsent := by
  refine untouched_run ?_ hrun
  intro a ha heq
  simp only [loginRun, List.mem_cons, List.not_mem_nil, or_false] at ha
  rcases ha with rfl | rfl | rfl | rfl <;> exact hc heq.symm

theorem only_loginRun (hrun : (console sampleEnv).run nobody loginRun = some w) : Only [0] w :=
  fun _ hc => (untouched_loginRun (fun heq => hc (List.mem_singleton.mpr heq)) hrun).1

theorem rested_loginRun (hrun : (console sampleEnv).run nobody loginRun = some w) : Rested w := by
  have hviews : ((console sampleEnv).run nobody loginRun).map (fun w =>
      ((w.calls 0).map Call.phase, [Attempt.first, .silent, .retry].all fun a =>
        (w.exchanges (0, a)).idle, w.server.sessions.all fun x =>
          (getUserById w.server x.userId).isSome)) =
      some (some (.settled (.value "")), true, true) := by
    decide +kernel
  have hevents : ((console sampleEnv).run nobody loginRun).map (fun w => (w.events, w.cookie)) =
      some ([.issued "t1" 604800], some "t1") := by
    decide +kernel
  rw [hrun, Option.map_some, Option.some.injEq] at hviews hevents
  obtain ⟨hevents, hcookie⟩ := Prod.mk.inj hevents
  obtain ⟨hphase, hboth⟩ := Prod.mk.inj hviews
  obtain ⟨hidle, husers⟩ := Prod.mk.inj hboth
  constructor
  · intro c call hcall
    by_cases hc : c = 0
    · subst hc
      rw [hcall, Option.map_some, Option.some.injEq] at hphase
      exact ⟨_, hphase⟩
    · rw [only_loginRun hrun c (by simpa using hc)] at hcall
      cases hcall
  · rintro ⟨c, attempt⟩
    by_cases hc : c = 0
    · subst hc
      exact List.all_eq_true.mp hidle attempt (by cases attempt <;> decide)
    · rw [(untouched_loginRun hc hrun).2 attempt]
      rfl
  · exact fun x hx => List.all_eq_true.mp husers x hx
  · rw [hevents, hcookie]
    exact ⟨"t1", 604800, rfl, List.mem_singleton.mpr rfl, by simp⟩

/-- Both refreshes are accepted. -/
theorem signedIn_kept_turns :
    ∃ w w', (console sampleEnv).run nobody loginRun = some w ∧
      (console sampleEnv).run w turnsRun = some w' ∧
      w'.events = [.issued "t1" 604800, .accepted 1 (some "t1") 60, .used "t1",
        .issued "t2" 604860, .accepted 2 (some "t2") 120, .used "t2", .issued "t3" 604920] ∧
      troubles w'.events = troubles w.events ∧
      ((∀ c, ¬ Refreshing w' c) → Unused w'.events w'.cookie) := by
  have hviews : (((console sampleEnv).run nobody loginRun).bind fun w =>
      if (console sampleEnv).runAll (calmTest sampleEnv [0, 1, 2]) w turnsRun then
        ((console sampleEnv).run w turnsRun).map (·.events) else none) =
      some [.issued "t1" 604800, .accepted 1 (some "t1") 60, .used "t1", .issued "t2" 604860,
        .accepted 2 (some "t2") 120, .used "t2", .issued "t3" 604920] := by
    decide +kernel
  obtain ⟨w, hrun, hrest⟩ := Option.bind_eq_some_iff.mp hviews
  split at hrest
  · next htest =>
    obtain ⟨w', hrun', hevents⟩ := Option.map_eq_some_iff.mp hrest
    have hinit : (console sampleEnv).init nobody := ⟨⟨rfl, rfl, rfl⟩, rfl, rfl⟩
    have hreach := TSys.reachable_run (.init hinit) loginRun hrun
    have honly : Only [0, 1, 2] w := fun c hc =>
      only_loginRun hrun c fun hmem => hc (List.mem_cons.mpr (.inl (List.mem_singleton.mp hmem)))
    have hinj : Function.Injective (sampleEnv).hashRefreshToken := Function.injective_id
    exact ⟨w, w', hrun, hrun', hevents, signedIn_kept hinj hreach (rested_loginRun hrun)
      (calm_of_tests honly htest) hrun'⟩
  · cases hrest

end AkesoDlp.Console
