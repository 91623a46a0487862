import AkesoDlp.Console.ApiClient

/-!
# What a call has done

A call of `request` sends its fetch again after a 401 and a refresh, and its fetches and their
responses can be lost or late. Whatever happens to them, it takes effect at most once, and what
it reports is what has happened.
-/

namespace AkesoDlp.Console

open Lib Server Server.Auth Server.TokenProvenance

/-- What the endpoints behind a current user have answered to a call. -/
def servedTo (w : World) (c : CallId) : List Reply :=
  (w.served.filter (·.1 == c)).map (·.2)

/-- Without those that turned it away. -/
def effects (w : World) (c : CallId) : List Reply :=
  (servedTo w c).filter fun r => decide (r.status ≠ 401)

def Exchange.replies : Exchange → List Reply
  | .replied r => [r]
  | _ => []

/-- A fetch of an endpoint behind a current user. -/
def Exchange.ForApi : Exchange → Prop
  | .sent fetch => fetch.path = .api
  | .selected .. => False
  | _ => True

/-- How a call ends with a response. -/
def Ends (r : Reply) (o : Outcome) : Prop :=
  (r.ok = true ∧ o = .value r.body) ∨ (r.ok = false ∧ ∃ detail, o = .apiError r.status detail)

/-- Where a call stands, with its first fetch and its retry. -/
inductive Progress : Phase → Exchange → Exchange → Prop
  | asking {x} : Progress (.waiting .first) x .unsent
  | asked {r} : Progress (.arrived .first r) (.replied r) .unsent
  | refreshing {r} : r.status = 401 → Progress (.waiting .silent) (.replied r) .unsent
  | refreshed {r r'} : r.status = 401 → Progress (.arrived .silent r') (.replied r) .unsent
  | retrying {r y} : r.status = 401 → Progress (.waiting .retry) (.replied r) y
  | retried {r r'} : r.status = 401 → Progress (.arrived .retry r') (.replied r) (.replied r')
  | ended {r o} : Ends r o → Progress (.settled o) (.replied r) .unsent
  | endedRetry {r r' o} : r.status = 401 → Ends r' o →
      Progress (.settled o) (.replied r) (.replied r')
  | expired {r detail} : r.status = 401 →
      Progress (.settled (.apiError 401 detail)) (.replied r) .unsent
  | unreachable {x detail} : Progress (.settled (.apiError 0 detail)) x .unsent
  | rejected {r y} : r.status = 401 → Progress (.settled .rejected) (.replied r) y

structure ApiCall (w : World) (c : CallId) (phase : Phase) : Prop where
  first : (w.exchanges (c, .first)).ForApi
  retry : (w.exchanges (c, .retry)).ForApi
  silent : ∀ fetch, w.exchanges (c, .silent) = .sent fetch → fetch.path = .refresh
  progress : Progress phase (w.exchanges (c, .first)) (w.exchanges (c, .retry))
  served : servedTo w c =
    (w.exchanges (c, .first)).replies ++ (w.exchanges (c, .retry)).replies

structure CallInv (w : World) (c : CallId) : Prop where
  unused : w.calls c = none → (∀ attempt, w.exchanges (c, attempt) = .unsent) ∧ servedTo w c = []
  api : ∀ call, w.calls c = some call → call.path = .api → ApiCall w c call.phase

variable {env : ConsoleEnv} {w w' : World} {c : CallId} {call : Call}

/-! ## Frames -/

theorem CallInv.of_others {c' : CallId} (h : CallInv w c) (hothers : Others c' w w')
    (hne : c ≠ c') : CallInv w' c := by
  have hserved : servedTo w' c = servedTo w c := by rw [servedTo, hothers.served c hne, servedTo]
  have hexchanges : ∀ attempt, w'.exchanges (c, attempt) = w.exchanges (c, attempt) :=
    fun attempt => hothers.exchanges c attempt hne
  constructor
  · intro hcall
    rw [hothers.calls c hne] at hcall
    rw [hserved]
    exact ⟨fun attempt => (hexchanges attempt).trans ((h.unused hcall).1 attempt),
      (h.unused hcall).2⟩
  · intro call hcall hpath
    rw [hothers.calls c hne] at hcall
    have hapi := h.api call hcall hpath
    constructor
    · exact hexchanges _ ▸ hapi.first
    · exact hexchanges _ ▸ hapi.retry
    · exact hexchanges _ ▸ hapi.silent
    · rw [hexchanges, hexchanges]
      exact hapi.progress
    · rw [hserved, hexchanges, hexchanges]
      exact hapi.served

theorem calls_setPhase_self (w : World) (c : CallId) (call : Call) (phase : Phase) :
    (w.setPhase c call phase).calls c = some { call with phase := phase } :=
  Function.update_self ..

/-- A phase is entered without a fetch. -/
theorem CallInv.of_phase {phase : Phase} (h : CallInv w c) (hcall : w.calls c = some call)
    (hcalls : w'.calls c = some { call with phase := phase })
    (hexchanges : w'.exchanges = w.exchanges) (hserved : w'.served = w.served)
    (hprogress : call.path = .api → ApiCall w c call.phase →
      Progress phase (w.exchanges (c, .first)) (w.exchanges (c, .retry))) : CallInv w' c := by
  constructor
  · intro hnone
    rw [hcalls] at hnone
    cases hnone
  · intro call' hcall' hpath
    rw [hcalls, Option.some.injEq] at hcall'
    subst hcall'
    have hapi := h.api call hcall hpath
    constructor
    · exact hexchanges ▸ hapi.first
    · exact hexchanges ▸ hapi.retry
    · exact hexchanges ▸ hapi.silent
    · exact hexchanges ▸ hprogress hpath hapi
    · rw [servedTo, hserved, hexchanges]
      exact hapi.served

/-- The silent refresh, or the retry, is sent. -/
theorem CallInv.of_fetch {attempt : Attempt} {fetch : Fetch} (h : CallInv w c)
    (hcall : w.calls c = some call)
    (hcalls : w'.calls c = some { call with phase := .waiting attempt })
    (hexchanges : w'.exchanges = Function.update w.exchanges (c, attempt) (.sent fetch))
    (hserved : w'.served = w.served)
    (hfor : call.path = .api → fetch.path = if attempt = .silent then .refresh else .api)
    (hturned : ApiCall w c call.phase → attempt ≠ .first ∧ ∃ r, r.status = 401 ∧
      w.exchanges (c, .first) = .replied r ∧ w.exchanges (c, .retry) = .unsent) :
    CallInv w' c := by
  have hself : w'.exchanges (c, attempt) = .sent fetch := by
    rw [hexchanges]
    exact Function.update_self ..
  have hother : ∀ a, a ≠ attempt → w'.exchanges (c, a) = w.exchanges (c, a) := by
    intro a ha
    rw [hexchanges]
    exact Function.update_of_ne (fun heq => ha (congrArg Prod.snd heq)) _ _
  constructor
  · intro hnone
    rw [hcalls] at hnone
    cases hnone
  · intro call' hcall' hpath
    rw [hcalls, Option.some.injEq] at hcall'
    subst hcall'
    have hapi := h.api call hcall hpath
    obtain ⟨hne, r, hr, hfirst, hretry⟩ := hturned hapi
    have hserved' : servedTo w' c = servedTo w c := by rw [servedTo, hserved, servedTo]
    cases attempt with
    | first => exact absurd rfl hne
    | silent =>
        constructor
        · exact hother .first (by decide) ▸ hapi.first
        · exact hother .retry (by decide) ▸ hapi.retry
        · intro fetch' hfetch'
          rw [hself, Exchange.sent.injEq] at hfetch'
          exact hfetch' ▸ hfor hpath
        · rw [hother .first (by decide), hother .retry (by decide), hfirst, hretry]
          exact .refreshing hr
        · rw [hserved', hother .first (by decide), hother .retry (by decide)]
          exact hapi.served
    | retry =>
        constructor
        · exact hother .first (by decide) ▸ hapi.first
        · rw [hself]
          exact hfor hpath
        · exact hother .silent (by decide) ▸ hapi.silent
        · rw [hother .first (by decide), hfirst]
          exact .retrying hr
        · rw [hserved', hapi.served, hretry, hself, hother .first (by decide)]
          rfl

/-- The exchange of a refresh moves. -/
theorem CallInv.of_refresh {attempt : Attempt} {x : Exchange} (h : CallInv w c)
    (hsent : w.exchanges (c, attempt) ≠ .unsent) (hfor : ¬ (w.exchanges (c, attempt)).ForApi)
    (hcalls : w'.calls = w.calls)
    (hexchanges : w'.exchanges = Function.update w.exchanges (c, attempt) x)
    (hserved : w'.served = w.served) (hx : ∀ fetch, x ≠ .sent fetch) : CallInv w' c := by
  constructor
  · intro hnone
    rw [hcalls] at hnone
    exact absurd ((h.unused hnone).1 attempt) hsent
  · intro call hcall hpath
    rw [hcalls] at hcall
    have hapi := h.api call hcall hpath
    cases attempt with
    | first => exact absurd hapi.first hfor
    | retry => exact absurd hapi.retry hfor
    | silent =>
        have hfirst : w'.exchanges (c, .first) = w.exchanges (c, .first) := by
          rw [hexchanges]
          exact Function.update_of_ne (by simp) _ _
        have hretry : w'.exchanges (c, .retry) = w.exchanges (c, .retry) := by
          rw [hexchanges]
          exact Function.update_of_ne (by simp) _ _
        constructor
        · exact hfirst ▸ hapi.first
        · exact hretry ▸ hapi.retry
        · intro fetch hfetch
          rw [hexchanges, Function.update_self] at hfetch
          exact absurd hfetch (hx fetch)
        · rw [hfirst, hretry]
          exact hapi.progress
        · rw [servedTo, hserved, hfirst, hretry]
          exact hapi.served

/-! ## Steps -/

theorem Progress.replied_first {phase : Phase} {fetch : Fetch} {y : Exchange}
    (h : Progress phase (.sent fetch) y) :
    y = .unsent ∧ ∀ r, Progress phase (.replied r) .unsent := by
  cases h with
  | asking => exact ⟨rfl, fun _ => .asking⟩
  | unreachable => exact ⟨rfl, fun _ => .unreachable⟩

theorem Progress.replied_retry {phase : Phase} {x : Exchange} {fetch : Fetch}
    (h : Progress phase x (.sent fetch)) (r : Reply) : Progress phase x (.replied r) := by
  cases h with
  | retrying hr => exact .retrying hr
  | rejected hr => exact .rejected hr

theorem Progress.arrive {attempt : Attempt} {x y : Exchange} {r : Reply}
    (h : Progress (.waiting attempt) x y) (hfirst : attempt = .first → x = .replied r)
    (hretry : attempt = .retry → y = .replied r) : Progress (.arrived attempt r) x y := by
  cases h with
  | asking =>
      obtain rfl := hfirst rfl
      exact .asked
  | refreshing hr => exact .refreshed hr
  | retrying hr =>
      obtain rfl := hretry rfl
      exact .retried hr

theorem Progress.turned_first {x y : Exchange} {r : Reply} (h : Progress (.arrived .first r) x y)
    (hr : r.status = 401) : ∃ r, r.status = 401 ∧ x = .replied r ∧ y = .unsent := by
  cases h
  exact ⟨r, hr, rfl, rfl⟩

theorem Progress.turned_silent {x y : Exchange} {r : Reply}
    (h : Progress (.arrived .silent r) x y) :
    ∃ r, r.status = 401 ∧ x = .replied r ∧ y = .unsent := by
  cases h with
  | refreshed hr => exact ⟨_, hr, rfl, rfl⟩

theorem Progress.fail_first {x y : Exchange} {detail : String}
    (h : Progress (.waiting .first) x y) : Progress (.settled (.apiError 0 detail)) x y := by
  cases h
  exact .unreachable

theorem Progress.fail_silent {x y : Exchange} {detail : String}
    (h : Progress (.waiting .silent) x y) : Progress (.settled (.apiError 401 detail)) x y := by
  cases h with
  | refreshing hr => exact .expired hr

theorem Progress.fail_retry {x y : Exchange} (h : Progress (.waiting .retry) x y) :
    Progress (.settled .rejected) x y := by
  cases h with
  | retrying hr => exact .rejected hr

theorem Progress.end_first {x y : Exchange} {r : Reply} {o : Outcome}
    (h : Progress (.arrived .first r) x y) (ho : Ends r o) : Progress (.settled o) x y := by
  cases h
  exact .ended ho

theorem Progress.end_retry {x y : Exchange} {r : Reply} {o : Outcome}
    (h : Progress (.arrived .retry r) x y) (ho : Ends r o) : Progress (.settled o) x y := by
  cases h with
  | retried hr => exact .endedRetry hr ho

theorem serve_api {attempt : Attempt} {fetch : Fetch} {newRefresh : String} {now : Nat}
    {own : Nat × String} (hpath : fetch.path = .api)
    (h : w.serve env c attempt fetch newRefresh now own = some w') :
    ∃ r, w'.exchanges = Function.update w.exchanges (c, attempt) (.replied r) ∧
      w'.served = w.served ++ [(c, r)] := by
  simp only [World.serve, hpath, Option.some.injEq] at h
  exact ⟨apiReply env fetch now own, h ▸ rfl, h ▸ rfl⟩

theorem serve_calls {attempt : Attempt} {fetch : Fetch} {newRefresh : String} {now : Nat}
    {own : Nat × String} (h : w.serve env c attempt fetch newRefresh now own = some w') :
    w'.calls = w.calls := by
  unfold World.serve at h
  split at h
  · exact Option.some.inj h ▸ rfl
  · exact Option.some.inj h ▸ rfl
  · exact Option.some.inj h ▸ rfl
  · exact Option.some.inj h ▸ rfl
  · cases h

theorem servedTo_append {r : Reply} (h : w'.served = w.served ++ [(c, r)]) :
    servedTo w' c = servedTo w c ++ [r] := by
  have hself : [(c, r)].filter (·.1 == c) = [(c, r)] := List.filter_cons_of_pos (beq_self_eq_true c)
  rw [servedTo, h, List.filter_append, hself, List.map_append]
  rfl

theorem callInv_serve {attempt : Attempt} {fetch : Fetch} {newRefresh : String} {now : Nat}
    {own : Nat × String} (h : CallInv w c) (hsent : w.exchanges (c, attempt) = .sent fetch)
    (hserve : w.serve env c attempt fetch newRefresh now own = some w') : CallInv w' c := by
  constructor
  · intro hnone
    rw [serve_calls hserve] at hnone
    rw [(h.unused hnone).1 attempt] at hsent
    cases hsent
  · intro call hcall hpath
    rw [serve_calls hserve] at hcall
    have hapi := h.api call hcall hpath
    cases attempt with
    | first =>
        have hfor := hapi.first
        rw [hsent] at hfor
        obtain ⟨r, hexchanges, hserved⟩ := serve_api hfor hserve
        have hprogress := hapi.progress
        rw [hsent] at hprogress
        obtain ⟨hretry, hreplied⟩ := hprogress.replied_first
        have hfirst' : w'.exchanges (c, .first) = .replied r := by
          rw [hexchanges]
          exact Function.update_self ..
        have hother : ∀ a, a ≠ .first → w'.exchanges (c, a) = w.exchanges (c, a) := by
          intro a ha
          rw [hexchanges]
          exact Function.update_of_ne (fun heq => ha (congrArg Prod.snd heq)) _ _
        constructor
        · rw [hfirst']
          trivial
        · exact hother .retry (by decide) ▸ hapi.retry
        · exact hother .silent (by decide) ▸ hapi.silent
        · rw [hfirst', hother .retry (by decide), hretry]
          exact hreplied r
        · rw [servedTo_append hserved, hapi.served, hsent, hretry, hfirst',
            hother .retry (by decide), hretry]
          rfl
    | silent =>
        rw [World.serve, hapi.silent fetch hsent] at hserve
        cases hserve
    | retry =>
        have hfor := hapi.retry
        rw [hsent] at hfor
        obtain ⟨r, hexchanges, hserved⟩ := serve_api hfor hserve
        have hprogress := hapi.progress
        rw [hsent] at hprogress
        have hretry' : w'.exchanges (c, .retry) = .replied r := by
          rw [hexchanges]
          exact Function.update_self ..
        have hother : ∀ a, a ≠ .retry → w'.exchanges (c, a) = w.exchanges (c, a) := by
          intro a ha
          rw [hexchanges]
          exact Function.update_of_ne (fun heq => ha (congrArg Prod.snd heq)) _ _
        constructor
        · exact hother .first (by decide) ▸ hapi.first
        · rw [hretry']
          trivial
        · exact hother .silent (by decide) ▸ hapi.silent
        · rw [hretry', hother .first (by decide)]
          exact hprogress.replied_retry r
        · rw [servedTo_append hserved, hapi.served, hsent, hretry', hother .first (by decide)]
          simp [Exchange.replies]

theorem callInv_select {attempt : Attempt} {fetch : Fetch} {now : Nat} (h : CallInv w c)
    (hsent : w.exchanges (c, attempt) = .sent fetch) (hpath : fetch.path = .refresh) :
    CallInv (w.select env c attempt fetch now) c := by
  have hfor : ¬ (w.exchanges (c, attempt)).ForApi := by
    rw [hsent, Exchange.ForApi, hpath]
    exact nofun
  have hne : w.exchanges (c, attempt) ≠ .unsent := by
    rw [hsent]
    exact nofun
  unfold World.select
  split
  · exact h.of_refresh hne hfor rfl rfl rfl fun _ => nofun
  · split
    · exact h.of_refresh hne hfor rfl rfl rfl fun _ => nofun
    · split
      · exact h.of_refresh hne hfor rfl rfl rfl fun _ => nofun
      · exact h.of_refresh hne hfor rfl rfl rfl fun _ => nofun

theorem callInv_commit {attempt : Attempt} {token newRefresh : String} {session : Session}
    {user : User} {now : Nat} (h : CallInv w c)
    (hselected : w.exchanges (c, attempt) = .selected token session user) :
    CallInv (w.commit env c attempt token session user newRefresh now) c := by
  have hfor : ¬ (w.exchanges (c, attempt)).ForApi := by
    rw [hselected]
    exact not_false
  have hne : w.exchanges (c, attempt) ≠ .unsent := by
    rw [hselected]
    intro heq
    cases heq
  simp only [World.commit]
  split
  · refine h.of_refresh hne hfor rfl rfl rfl ?_
    intro fetch heq
    cases heq
  · refine h.of_refresh hne hfor rfl rfl rfl ?_
    intro fetch heq
    cases heq

theorem callInv_arrive {attempt : Attempt} {reply : Reply} (h : CallInv w c)
    (hcall : w.calls c = some call) (hphase : call.phase = .waiting attempt)
    (hreplied : w.exchanges (c, attempt) = .replied reply) :
    CallInv { w.setPhase c call (.arrived attempt reply) with
      cookie := reply.setCookie.or w.cookie } c := by
  refine h.of_phase hcall (calls_setPhase_self ..) rfl rfl fun _ hapi => ?_
  have hprogress := hapi.progress
  rw [hphase] at hprogress
  exact hprogress.arrive (fun ha => ha ▸ hreplied) fun ha => ha ▸ hreplied

theorem callInv_settle {outcome : Outcome} {reply : Option Reply} (h : CallInv w c)
    (hcall : w.calls c = some call)
    (hprogress : call.path = .api → ApiCall w c call.phase →
      Progress (.settled outcome) (w.exchanges (c, .first)) (w.exchanges (c, .retry))) :
    CallInv (w.settle c call outcome reply) c :=
  h.of_phase hcall (calls_setPhase_self ..) rfl rfl hprogress

theorem callInv_finish {reply : Reply} {detail : String → String} (h : CallInv w c)
    (hcall : w.calls c = some call)
    (hprogress : ∀ outcome, Ends reply outcome → call.path = .api → ApiCall w c call.phase →
      Progress (.settled outcome) (w.exchanges (c, .first)) (w.exchanges (c, .retry))) :
    CallInv (w.finish c call reply detail) c := by
  unfold World.finish
  split
  · next hok => exact callInv_settle h hcall (hprogress _ (.inl ⟨hok, rfl⟩))
  · next hok => exact callInv_settle h hcall (hprogress _ (.inr ⟨by simpa using hok, _, rfl⟩))

theorem callInv_signOut (h : CallInv w c) (hcall : w.calls c = some call)
    (hprogress : call.path = .api → ApiCall w c call.phase →
      Progress (.settled (.apiError 401 "Session expired")) (w.exchanges (c, .first))
        (w.exchanges (c, .retry))) : CallInv (w.signOut c call) c :=
  h.of_phase hcall (calls_setPhase_self ..) rfl rfl hprogress

theorem callInv_resume {attempt : Attempt} {reply : Reply} (h : CallInv w c)
    (hcall : w.calls c = some call) (hphase : call.phase = .arrived attempt reply) :
    CallInv (w.resume env c call attempt reply) c := by
  cases attempt with
  | first =>
      simp only [World.resume]
      split
      · next hstatus =>
        refine h.of_fetch hcall (calls_setPhase_self ..) rfl rfl
          (fun _ => rfl) fun hapi => ⟨by decide, ?_⟩
        have hprogress := hapi.progress
        rw [hphase] at hprogress
        exact hprogress.turned_first hstatus.1
      · refine callInv_finish h hcall fun outcome hends _ hapi => ?_
        have hprogress := hapi.progress
        rw [hphase] at hprogress
        exact hprogress.end_first hends
  | silent =>
      simp only [World.resume]
      split
      · refine h.of_fetch hcall (calls_setPhase_self ..) rfl rfl id
          fun hapi => ⟨by decide, ?_⟩
        have hprogress := hapi.progress
        rw [hphase] at hprogress
        exact hprogress.turned_silent
      · refine callInv_signOut h hcall fun _ hapi => ?_
        have hprogress := hapi.progress
        rw [hphase] at hprogress
        obtain ⟨r, hr, hfirst, hretry⟩ := hprogress.turned_silent
        rw [hfirst, hretry]
        exact .expired hr
  | retry =>
      refine callInv_finish h hcall fun outcome hends _ hapi => ?_
      have hprogress := hapi.progress
      rw [hphase] at hprogress
      exact hprogress.end_retry hends

theorem callInv_fail {attempt : Attempt} {detail : String} (h : CallInv w c)
    (hcall : w.calls c = some call) (hphase : call.phase = .waiting attempt) :
    CallInv (w.fail c call attempt detail) c := by
  cases attempt with
  | first =>
      refine callInv_settle h hcall fun _ hapi => ?_
      have hprogress := hapi.progress
      rw [hphase] at hprogress
      exact hprogress.fail_first
  | silent =>
      have hlog : CallInv (w.log [.failed c]) c := by
        refine ⟨h.unused, fun call hcall hpath => ?_⟩
        have hapi := h.api call hcall hpath
        exact ⟨hapi.first, hapi.retry, hapi.silent, hapi.progress, hapi.served⟩
      refine callInv_signOut hlog hcall fun _ hapi => ?_
      have hprogress := hapi.progress
      rw [hphase] at hprogress
      exact hprogress.fail_silent
  | retry =>
      refine callInv_settle h hcall fun _ hapi => ?_
      have hprogress := hapi.progress
      rw [hphase] at hprogress
      exact hprogress.fail_retry

theorem callInv_start {tab : Tab} {path : Path} (h : CallInv w c) (hcall : w.calls c = none) :
    CallInv (w.fetch c ⟨tab, path, .waiting .first⟩ .first path (w.accessToken tab)) c := by
  obtain ⟨hunsent, hserved⟩ := h.unused hcall
  have hcalls : (w.fetch c ⟨tab, path, .waiting .first⟩ .first path (w.accessToken tab)).calls c =
      some ⟨tab, path, .waiting .first⟩ := calls_setPhase_self ..
  constructor
  · intro hnone
    rw [hcalls] at hnone
    cases hnone
  · intro call hcall' hpath
    rw [hcalls, Option.some.injEq] at hcall'
    subst hcall'
    have hother : ∀ a, a ≠ .first →
        (w.fetch c ⟨tab, path, .waiting .first⟩ .first path (w.accessToken tab)).exchanges (c, a) =
          .unsent := fun a ha =>
      (Function.update_of_ne (fun heq => ha (congrArg Prod.snd heq)) _ _).trans (hunsent a)
    have hfirst :
        (w.fetch c ⟨tab, path, .waiting .first⟩ .first path (w.accessToken tab)).exchanges
          (c, .first) = .sent ⟨path, w.accessToken tab, w.cookie⟩ := Function.update_self ..
    constructor
    · rw [hfirst]
      exact hpath
    · rw [hother .retry (by decide)]
      trivial
    · intro fetch hfetch
      rw [hother .silent (by decide)] at hfetch
      cases hfetch
    · rw [hother .retry (by decide)]
      exact .asking
    · rw [hfirst, hother .retry (by decide)]
      exact hserved

theorem callInv_step {a : Action} (h : ∀ c, CallInv w c) (hstep : Stepped env w a w') (c : CallId) :
    CallInv w' c := by
  by_cases hc : c = a.call
  · subst hc
    cases hstep with
    | start hcall => exact callInv_start (h _) hcall
    | serve hsent hserve => exact callInv_serve (h _) hsent hserve
    | select hsent hpath => exact callInv_select (h _) hsent hpath
    | commit hselected => exact callInv_commit (h _) hselected
    | arrive hcall hphase hreplied => exact callInv_arrive (h _) hcall hphase hreplied
    | resume hcall hphase => exact callInv_resume (h _) hcall hphase
    | fail hcall hphase => exact callInv_fail (h _) hcall hphase
  · exact (h c).of_others (others_step hstep) hc

theorem callInv_inductive :
    (client env).InductiveBy (fun _ _ => True) fun w => ∀ c, CallInv w c where
  init := by
    rintro w ⟨hcalls, hexchanges, hserved⟩ c
    constructor
    · intro _
      rw [servedTo, hserved, hexchanges]
      exact ⟨fun _ => rfl, rfl⟩
    · intro call hcall
      rw [hcalls] at hcall
      cases hcall
  step := fun _ _ _ h _ hstep => callInv_step h (stepped hstep)

/-! ## Outcomes -/

/-- What a call has done, and that it reports it. -/
structure CallOk (w : World) (c : CallId) (call : Call) : Prop where
  once : (effects w c).length ≤ 1
  value : ∀ body, call.phase = .settled (.value body) →
    ∃ r, effects w c = [r] ∧ r.ok = true ∧ r.body = body
  expired : ∀ detail, call.phase = .settled (.apiError 401 detail) → effects w c = []
  error : ∀ status detail, call.phase = .settled (.apiError status detail) → status ≠ 0 →
    status ≠ 401 → ∃ r, effects w c = [r] ∧ r.status = status

/-- The replies to the two fetches that took effect. -/
def took (x y : Exchange) : List Reply :=
  (x.replies ++ y.replies).filter fun r => decide (r.status ≠ 401)

theorem took_first {r : Reply} (h : r.status ≠ 401) : took (.replied r) .unsent = [r] :=
  List.filter_cons_of_pos (decide_eq_true h)

theorem took_turned {r : Reply} (h : r.status = 401) (y : Exchange) :
    took (.replied r) y = y.replies.filter fun r => decide (r.status ≠ 401) :=
  List.filter_cons_of_neg (by simpa using h)

theorem took_retry {r r' : Reply} (h : r.status = 401) (h' : r'.status ≠ 401) :
    took (.replied r) (.replied r') = [r'] :=
  (took_turned h _).trans (List.filter_cons_of_pos (decide_eq_true h'))

theorem took_none {r r' : Reply} (h : r.status = 401) (h' : r'.status = 401) :
    took (.replied r) (.replied r') = [] :=
  (took_turned h _).trans (List.filter_cons_of_neg (by simpa using h'))

theorem length_replies_le (x : Exchange) : x.replies.length ≤ 1 := by
  cases x <;> simp [Exchange.replies]

theorem Progress.length_took_le {phase : Phase} {x y : Exchange} (h : Progress phase x y) :
    (took x y).length ≤ 1 := by
  have hturned : y = .unsent ∨ ∃ r, r.status = 401 ∧ x = .replied r := by
    cases h with
    | asking | asked | refreshing _ | refreshed _ | ended _ | expired _ | unreachable =>
        exact .inl rfl
    | retrying hr | retried hr | endedRetry hr _ | rejected hr => exact .inr ⟨_, hr, rfl⟩
  rcases hturned with rfl | ⟨r, hr, rfl⟩
  · have hnil : (Exchange.unsent).replies = [] := rfl
    rw [took, hnil, List.append_nil]
    exact Nat.le_trans (List.length_filter_le _ _) (length_replies_le x)
  · rw [took_turned hr]
    exact Nat.le_trans (List.length_filter_le _ _) (length_replies_le y)

theorem ok_status {r : Reply} (h : r.ok = true) : r.status ≠ 401 := by
  have := of_decide_eq_true h
  omega

theorem Ends.value {r : Reply} {body : String} (h : Ends r (.value body)) :
    r.ok = true ∧ r.body = body := by
  rcases h with ⟨hok, hbody⟩ | ⟨-, detail, hbody⟩
  · exact ⟨hok, (Outcome.value.inj hbody).symm⟩
  · cases hbody

theorem Ends.error {r : Reply} {status : Nat} {detail : String}
    (h : Ends r (.apiError status detail)) : r.status = status := by
  rcases h with ⟨-, hbody⟩ | ⟨-, detail', hbody⟩
  · cases hbody
  · exact (Outcome.apiError.inj hbody).1.symm

theorem Progress.value {x y : Exchange} {body : String}
    (h : Progress (.settled (.value body)) x y) :
    ∃ r, took x y = [r] ∧ r.ok = true ∧ r.body = body := by
  cases h with
  | ended hends => exact ⟨_, took_first (ok_status hends.value.1), hends.value⟩
  | endedRetry hr hends => exact ⟨_, took_retry hr (ok_status hends.value.1), hends.value⟩

theorem Progress.turned_away {x y : Exchange} {detail : String}
    (h : Progress (.settled (.apiError 401 detail)) x y) : took x y = [] := by
  cases h with
  | ended hends => exact took_turned hends.error _
  | endedRetry hr hends => exact took_none hr hends.error
  | expired hr => exact took_turned hr _

theorem Progress.error {x y : Exchange} {status : Nat} {detail : String}
    (h : Progress (.settled (.apiError status detail)) x y) (hreached : status ≠ 0)
    (hne : status ≠ 401) : ∃ r, took x y = [r] ∧ r.status = status := by
  cases h with
  | ended hends => exact ⟨_, took_first (hends.error.symm ▸ hne), hends.error⟩
  | endedRetry hr hends => exact ⟨_, took_retry hr (hends.error.symm ▸ hne), hends.error⟩
  | expired _ => exact absurd rfl hne
  | unreachable => exact absurd rfl hreached

/-- In every run of any number of calls from any pages, with responses that come late, in any
order or never: an endpoint behind a current user takes effect at most once for a call, a call
that returns a value has taken effect once and returns the body of that response, a call that
reports the status 401 has had no effect, and one that reports another status of the server has
had the one effect that this status is the response to. -/
theorem calls_once (h : (client env).Reachable w) (hcall : w.calls c = some call)
    (hpath : call.path = .api) : CallOk w c call := by
  have hapi := (callInv_inductive.invariant w h c).api call hcall hpath
  have hprogress := hapi.progress
  have heffects : effects w c = took (w.exchanges (c, .first)) (w.exchanges (c, .retry)) := by
    rw [effects, hapi.served, took]
  constructor
  · rw [heffects]
    exact hprogress.length_took_le
  · intro body hphase
    rw [hphase] at hprogress
    rw [heffects]
    exact hprogress.value
  · intro detail hphase
    rw [hphase] at hprogress
    rw [heffects]
    exact hprogress.turned_away
  · intro status detail hphase hreached hne
    rw [hphase] at hprogress
    rw [heffects]
    exact hprogress.error hreached hne

/-! ## A stale token -/

def sampleEnv : ConsoleEnv where
  toTokenEnv := mfaEnv
  errorDetail := id

theorem alice_unique : ([alice].map (·.id)).Nodup := List.pairwise_singleton ..

/-- A page with an access token that has expired, in a browser with the cookie of a session. -/
def stalePage : World where
  server := {
    users := [alice]
    sessions := [⟨alice.id, "t1", 1000, false⟩]
    attempts := fun _ => []
    unique := alice_unique }
  cookie := some "t1"
  accessToken := fun _ => some "stale"
  calls := fun _ => none
  exchanges := fun _ => .unsent
  served := []
  events := [.issued "t1" 1000]

def refreshedCall : List Action :=
  [.start 0 0 .api, .serve 0 .first "" 60 (200, "42"), .arrive 0, .resume 0, .select 0 .silent 60,
    .commit 0 .silent "t2" 60, .arrive 0, .resume 0, .serve 0 .retry "" 70 (200, "42"), .arrive 0,
    .resume 0]

/-- The first fetch is turned away, and the retry is the only effect. -/
theorem calls_once_refreshed :
    ∃ w call r, (client sampleEnv).run stalePage refreshedCall = some w ∧ w.calls 0 = some call ∧
      call.phase = .settled (.value "42") ∧ (servedTo w 0).length = 2 ∧ effects w 0 = [r] ∧
        r.body = "42" := by
  have hruns : ((client sampleEnv).run stalePage refreshedCall).map
      (fun w => (w.calls 0, (servedTo w 0).length)) =
        some (some ⟨0, .api, .settled (.value "42")⟩, 2) := by
    decide +kernel
  obtain ⟨w, hrun, hw⟩ := Option.map_eq_some_iff.mp hruns
  obtain ⟨hcall, hserved⟩ := Prod.mk.inj hw
  have hinit : (client sampleEnv).init stalePage := ⟨rfl, rfl, rfl⟩
  have hreach := TSys.reachable_run (.init hinit) refreshedCall hrun
  obtain ⟨r, heffects, -, hbody⟩ := (calls_once hreach hcall rfl).value "42" rfl
  exact ⟨w, _, r, hrun, hcall, rfl, hserved, heffects, hbody⟩

end AkesoDlp.Console
