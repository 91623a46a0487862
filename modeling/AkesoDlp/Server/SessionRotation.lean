import AkesoDlp.Server.Auth

/-!
# Concurrent refreshes and logouts

`refresh_token` and `logout` as coroutines that interleave at their awaits:
the SELECT of `get_session_by_token`, the UPDATE and the COMMIT of
`revoke_session`, the INSERT and the COMMIT of `create_session`. PostgreSQL runs
them READ COMMITTED: a SELECT sees what is committed, an UPDATE waits for the
row lock and then finds its row by primary key, revoked or not.
-/

namespace AkesoDlp.Server.Auth

open Lib

/-- A row of `sessions`. -/
structure SessionRow extends Session where
  id : Nat
deriving DecidableEq, Repr

/-- The values of an INSERT by `create_session`. -/
structure NewSession where
  id : Nat
  userId : Uuid
  refreshTokenHash : String
  expiresAt : Nat
deriving DecidableEq, Repr

/-- The row it makes: `revoked` defaults to false. -/
def NewSession.row (x : NewSession) : SessionRow where
  id := x.id
  userId := x.userId
  refreshTokenHash := x.refreshTokenHash
  expiresAt := x.expiresAt
  revoked := false

/-- The two endpoints that revoke a session. -/
inductive Endpoint
  | refresh
  | logout
deriving DecidableEq, Repr

/-- Where a request stands. -/
inductive Phase
  /-- Not received yet. -/
  | idle
  /-- Its SELECT has returned the session. -/
  | selected (endpoint : Endpoint) (session : SessionRow)
  /-- Its UPDATE has run: it holds the lock on the row. -/
  | updated (endpoint : Endpoint) (session : SessionRow)
  /-- A refresh that has committed the revocation. -/
  | revoked (session : SessionRow)
  /-- A refresh whose INSERT has run. -/
  | inserted (session : SessionRow) (created : NewSession)
  | finished
deriving DecidableEq, Repr

/-- What becomes visible, in the order of the commits. -/
inductive SessionEvent
  /-- A refresh commits the new session for session `id`. -/
  | exchanged (id : Nat)
  /-- A logout commits the revocation of session `id`. -/
  | loggedOut (id : Nat)
deriving DecidableEq, Repr

def SessionEvent.session : SessionEvent → Nat
  | .exchanged id => id
  | .loggedOut id => id

structure SessionState where
  rows : List SessionRow
  /-- The ids of the rows that a transaction has updated and not committed. -/
  locked : List Nat
  requests : Nat → Phase
  events : List SessionEvent

inductive SessionAction
  | select (request : Nat) (endpoint : Endpoint) (cookie : Option String) (now : Nat)
  | update (request : Nat)
  | commitRevoked (request : Nat)
  | insert (request : Nat) (created : NewSession)
  | commitCreated (request : Nat)
deriving DecidableEq, Repr

/-- The committed `revoked` flag of a session. -/
def isRevoked (rows : List SessionRow) (id : Nat) : Bool :=
  rows.any fun x => x.id == id && x.revoked

def selectSession (hashRefreshToken : String → String) (rows : List SessionRow) (token : String)
    (now : Nat) : Option SessionRow :=
  rows.find? fun x =>
    x.refreshTokenHash == hashRefreshToken token && !x.revoked && decide (now < x.expiresAt)

def markRevoked (rows : List SessionRow) (id : Nat) : List SessionRow :=
  rows.map fun x => if x.id == id then { x with revoked := true } else x

def SessionState.setPhase (s : SessionState) (request : Nat) (phase : Phase) : SessionState :=
  { s with requests := Function.update s.requests request phase }

/-- One statement or commit of one request. -/
def sessionStep (hashRefreshToken : String → String) (s : SessionState) :
    SessionAction → Option SessionState
  | .select request endpoint cookie now =>
      if s.requests request = .idle then
        match (cookieValue cookie).bind fun t => selectSession hashRefreshToken s.rows t now with
        | some session => some (s.setPhase request (.selected endpoint session))
        | none => some (s.setPhase request .finished)
      else none
  | .update request =>
      match s.requests request with
      | .selected endpoint session =>
          -- waits while another transaction holds the row
          if session.id ∈ s.locked then none
          else some { s.setPhase request (.updated endpoint session) with
            locked := session.id :: s.locked }
      | _ => none
  | .commitRevoked request =>
      match s.requests request with
      | .updated .refresh session =>
          some { s.setPhase request (.revoked session) with
            rows := markRevoked s.rows session.id
            locked := s.locked.filter (· ≠ session.id) }
      | .updated .logout session =>
          some { s.setPhase request .finished with
            rows := markRevoked s.rows session.id
            locked := s.locked.filter (· ≠ session.id)
            events := s.events ++ [.loggedOut session.id] }
      | _ => none
  | .insert request created =>
      match s.requests request with
      | .revoked session =>
          if created.userId = session.userId ∧
              ∀ x ∈ s.rows, x.id ≠ created.id ∧ x.refreshTokenHash ≠ created.refreshTokenHash then
            some (s.setPhase request (.inserted session created))
          else none
      | _ => none
  | .commitCreated request =>
      match s.requests request with
      | .inserted session created =>
          some { s.setPhase request .finished with
            rows := s.rows ++ [created.row]
            events := s.events ++ [.exchanged session.id] }
      | _ => none

/-- Some table of sessions with distinct ids, no request yet. -/
structure SessionInit (s : SessionState) : Prop where
  nodup : (s.rows.map (·.id)).Nodup
  locked : s.locked = []
  requests : ∀ request, s.requests request = .idle
  events : s.events = []

def sessions (hashRefreshToken : String → String) : TSys SessionState SessionAction where
  init := SessionInit
  step := sessionStep hashRefreshToken

/-- A session is exchanged at most once, and not after a logout of it: an
exchange is the first event of its session. -/
def SingleUse (s : SessionState) : Prop :=
  s.events.Pairwise fun e e' => ∀ id, e' = .exchanged id → e.session ≠ id

/-- A refresh has committed the revocation of session `id` and not yet the new
session. -/
def Phase.Rotates (id : Nat) : Phase → Prop
  | .revoked session => session.id = id
  | .inserted session _ => session.id = id
  | _ => False

/-- The schedules that rotate properly: the UPDATE of a refresh finds the session
not yet revoked, and a logout does not commit while a refresh has revoked the
session and not yet committed the new one. -/
def RotatesOnce (s : SessionState) : SessionAction → Prop
  | .update request =>
      ∀ session, s.requests request = .selected .refresh session →
        isRevoked s.rows session.id = false
  | .commitRevoked request =>
      ∀ session, s.requests request = .updated .logout session →
        ∀ other, ¬ (s.requests other).Rotates session.id
  | _ => True

/-- The session that a request has selected, while its row is to be updated. -/
def Phase.Names (session : SessionRow) : Phase → Prop
  | .selected _ x => x = session
  | .updated _ x => x = session
  | _ => False

structure RotationInv (s : SessionState) : Prop where
  /-- Requests work on rows of the table. -/
  named : ∀ request session, (s.requests request).Names session → ∃ x ∈ s.rows, x.id = session.id
  /-- A row is locked exactly by the request that has updated it. -/
  locked : ∀ request endpoint session, s.requests request = .updated endpoint session →
    session.id ∈ s.locked
  lockedOnce : ∀ request request' endpoint endpoint' session session',
    s.requests request = .updated endpoint session →
    s.requests request' = .updated endpoint' session' → session.id = session'.id →
    request = request'
  /-- A session that is not revoked has not been used up or logged out. -/
  untouched : ∀ id, isRevoked s.rows id = false →
    (∀ e ∈ s.events, e.session ≠ id) ∧ ∀ request, ¬ (s.requests request).Rotates id
  /-- A refresh that holds the lock is the first on its session. -/
  first : ∀ request session, s.requests request = .updated .refresh session →
    isRevoked s.rows session.id = false
  /-- A refresh that has revoked its session is alone on it, before any event. -/
  alone : ∀ request id, (s.requests request).Rotates id →
    (∀ e ∈ s.events, e.session ≠ id) ∧ ∀ request', (s.requests request').Rotates id →
      request' = request
  singleUse : SingleUse s

/-! ## Tables -/

theorem isRevoked_markRevoked_of_ne {rows : List SessionRow} {id id' : Nat} (h : id' ≠ id) :
    isRevoked (markRevoked rows id) id' = isRevoked rows id' := by
  rw [isRevoked, markRevoked, List.any_map, isRevoked]
  apply List.any_congr rfl
  intro x
  by_cases hx : x.id = id
  · simp [hx, Ne.symm h]
  · simp [hx]

theorem isRevoked_markRevoked_self {rows : List SessionRow} {id : Nat}
    (h : ∃ x ∈ rows, x.id = id) : isRevoked (markRevoked rows id) id = true := by
  obtain ⟨x, hx, rfl⟩ := h
  rw [isRevoked, markRevoked, List.any_map, List.any_eq_true]
  exact ⟨x, hx, by simp⟩

theorem isRevoked_append {rows : List SessionRow} {created : NewSession} {id : Nat} :
    isRevoked (rows ++ [created.row]) id = isRevoked rows id := by
  simp [isRevoked, NewSession.row]

theorem exists_markRevoked {rows : List SessionRow} {id id' : Nat}
    (h : ∃ x ∈ rows, x.id = id') : ∃ x ∈ markRevoked rows id, x.id = id' := by
  obtain ⟨x, hx, rfl⟩ := h
  refine ⟨_, List.mem_map_of_mem hx, ?_⟩
  split <;> rfl

/-! ## The steps -/

variable {s : SessionState} {request : Nat}

theorem rotationInv_init (h : SessionInit s) : RotationInv s := by
  constructor
  case named =>
    intro request session hnames
    rw [h.requests] at hnames
    exact hnames.elim
  case locked =>
    intro request endpoint session hphase
    rw [h.requests] at hphase
    cases hphase
  case lockedOnce =>
    intro request request' endpoint endpoint' session session' hphase
    rw [h.requests] at hphase
    cases hphase
  case untouched =>
    intro id _
    refine ⟨fun e he => ?_, fun request hrot => ?_⟩
    · rw [h.events] at he
      cases he
    · rw [h.requests] at hrot
      exact hrot
  case first =>
    intro request session hphase
    rw [h.requests] at hphase
    cases hphase
  case alone =>
    intro request id hrot
    rw [h.requests] at hrot
    exact hrot.elim
  case singleUse =>
    rw [SingleUse, h.events]
    exact List.Pairwise.nil

theorem requests_setPhase_self (s : SessionState) (request : Nat) (phase : Phase) :
    (s.setPhase request phase).requests request = phase :=
  Function.update_self ..

theorem requests_setPhase_of_ne (s : SessionState) (phase : Phase) {request r : Nat}
    (h : r ≠ request) : (s.setPhase request phase).requests r = s.requests r :=
  Function.update_of_ne h ..

/-- What holds of the phase of a request holds of the one that it was given, or it is another
request. -/
theorem holds_setPhase (P : Phase → Prop) {phase : Phase} {r : Nat}
    (h : P ((s.setPhase request phase).requests r)) :
    r = request ∧ P phase ∨ r ≠ request ∧ P (s.requests r) := by
  by_cases hr : r = request
  · subst hr
    exact .inl ⟨rfl, requests_setPhase_self s r phase ▸ h⟩
  · exact .inr ⟨hr, requests_setPhase_of_ne s phase hr ▸ h⟩

theorem rotates_setPhase {phase : Phase} {r id : Nat}
    (h : ((s.setPhase request phase).requests r).Rotates id) :
    r = request ∧ phase.Rotates id ∨ r ≠ request ∧ (s.requests r).Rotates id :=
  holds_setPhase (Phase.Rotates id) h

theorem names_setPhase {phase : Phase} {r : Nat} {session : SessionRow}
    (h : ((s.setPhase request phase).requests r).Names session) :
    r = request ∧ phase.Names session ∨ r ≠ request ∧ (s.requests r).Names session :=
  holds_setPhase (Phase.Names session) h

/-- A phase without a lock leaves the locks to the other requests. -/
theorem updated_of_setPhase {phase : Phase}
    (hlock : ∀ endpoint session, phase ≠ .updated endpoint session) {r : Nat}
    {endpoint : Endpoint} {session : SessionRow}
    (h : (s.setPhase request phase).requests r = .updated endpoint session) :
    r ≠ request ∧ s.requests r = .updated endpoint session :=
  (holds_setPhase (· = .updated endpoint session) h).resolve_left fun hnew =>
    hlock endpoint session hnew.2

/-- A phase that neither locks nor rotates can replace any phase that does not
rotate and does not lock. -/
theorem rotationInv_setPhase (hs : RotationInv s) {phase : Phase}
    (hnames : ∀ session, phase.Names session → ∃ x ∈ s.rows, x.id = session.id)
    (hlock : ∀ endpoint session, phase ≠ .updated endpoint session)
    (hrotates : ∀ id, phase.Rotates id → (s.requests request).Rotates id) :
    RotationInv (s.setPhase request phase) := by
  have hrot : ∀ r id, ((s.setPhase request phase).requests r).Rotates id →
      (s.requests r).Rotates id := by
    intro r id hr
    rcases rotates_setPhase hr with ⟨rfl, hnew⟩ | ⟨-, hold⟩
    · exact hrotates id hnew
    · exact hold
  constructor
  case named =>
    intro r session hr
    rcases names_setPhase hr with ⟨-, hnew⟩ | ⟨-, hold⟩
    · exact hnames session hnew
    · exact hs.named r session hold
  case locked =>
    exact fun r endpoint session hr =>
      hs.locked r endpoint session (updated_of_setPhase hlock hr).2
  case lockedOnce =>
    exact fun r r' e e' x x' hr hr' => hs.lockedOnce r r' e e' x x'
      (updated_of_setPhase hlock hr).2 (updated_of_setPhase hlock hr').2
  case untouched =>
    intro id hid
    exact ⟨(hs.untouched id hid).1, fun r hr => (hs.untouched id hid).2 r (hrot r id hr)⟩
  case first =>
    exact fun r session hr => hs.first r session (updated_of_setPhase hlock hr).2
  case alone =>
    intro r id hr
    obtain ⟨hevents, halone⟩ := hs.alone r id (hrot r id hr)
    exact ⟨hevents, fun r' hr' => halone r' (hrot r' id hr')⟩
  case singleUse => exact hs.singleUse

/-- The UPDATE takes the lock; a refresh takes it on a session that is not yet
revoked. -/
theorem rotationInv_update (hs : RotationInv s) {endpoint : Endpoint} {session : SessionRow}
    (hphase : s.requests request = .selected endpoint session) (hfree : session.id ∉ s.locked)
    (hok : endpoint = .refresh → isRevoked s.rows session.id = false) :
    RotationInv { s.setPhase request (.updated endpoint session) with
      locked := session.id :: s.locked } := by
  have hrot : ∀ r id, ((s.setPhase request (.updated endpoint session)).requests r).Rotates id →
      (s.requests r).Rotates id := fun r id hr =>
    ((rotates_setPhase hr).resolve_left fun h => h.2).2
  -- a lock is the new one or an old one
  have hupdated : ∀ r e x,
      (s.setPhase request (.updated endpoint session)).requests r = .updated e x →
      r = request ∧ Phase.updated endpoint session = .updated e x ∨
        r ≠ request ∧ s.requests r = .updated e x := fun r e x hr =>
    holds_setPhase (· = .updated e x) hr
  constructor
  case named =>
    intro r x hr
    rcases names_setPhase hr with ⟨rfl, hnew⟩ | ⟨-, hold⟩
    · refine hs.named r x ?_
      rw [hphase]
      exact hnew
    · exact hs.named r x hold
  case locked =>
    intro r e x hr
    rcases hupdated r e x hr with ⟨-, hnew⟩ | ⟨-, hold⟩
    · cases hnew
      exact List.mem_cons_self
    · exact List.mem_cons_of_mem _ (hs.locked r e x hold)
  case lockedOnce =>
    intro r r' e e' x x' hr hr' hid
    rcases hupdated r e x hr with ⟨heq, hnew⟩ | ⟨-, hold⟩ <;>
      rcases hupdated r' e' x' hr' with ⟨heq', hnew'⟩ | ⟨-, hold'⟩
    · exact heq.trans heq'.symm
    · cases hnew
      exact absurd (hid ▸ hs.locked r' e' x' hold') hfree
    · cases hnew'
      exact absurd (hid ▸ hs.locked r e x hold) hfree
    · exact hs.lockedOnce r r' e e' x x' hold hold' hid
  case untouched =>
    intro id hid
    exact ⟨(hs.untouched id hid).1, fun r hr => (hs.untouched id hid).2 r (hrot r id hr)⟩
  case first =>
    intro r x hr
    rcases hupdated r .refresh x hr with ⟨-, hnew⟩ | ⟨-, hold⟩
    · cases hnew
      exact hok rfl
    · exact hs.first r x hold
  case alone =>
    intro r id hr
    obtain ⟨hevents, halone⟩ := hs.alone r id (hrot r id hr)
    exact ⟨hevents, fun r' hr' => halone r' (hrot r' id hr')⟩
  case singleUse => exact hs.singleUse

theorem singleUse_append {events added : List SessionEvent}
    (h : events.Pairwise fun e e' => ∀ id, e' = .exchanged id → e.session ≠ id)
    (hadded : ∀ e ∈ added, ∀ id, e ≠ .exchanged id) :
    (events ++ added).Pairwise fun e e' => ∀ id, e' = .exchanged id → e.session ≠ id := by
  refine List.pairwise_append.mpr ⟨h, ?_, fun e _ e' he' id heq => absurd heq (hadded e' he' id)⟩
  exact List.pairwise_of_forall_mem_list fun e _ e' he' id heq => absurd heq (hadded e' he' id)

/-- The COMMIT of `revoke_session`. The request goes on to rotate, or it is a
logout and leaves its event, with nobody rotating the session. -/
theorem rotationInv_commitRevoked (hs : RotationInv s) {endpoint : Endpoint}
    {session : SessionRow} (hphase : s.requests request = .updated endpoint session)
    (phase : Phase) (added : List SessionEvent) (hnames : ∀ x, ¬ phase.Names x)
    (hlock : ∀ e x, phase ≠ .updated e x)
    (hrotates : ∀ id, phase.Rotates id → id = session.id ∧ endpoint = .refresh ∧ added = [])
    (hadded : ∀ e ∈ added, e = .loggedOut session.id)
    (hquiet : added ≠ [] → ∀ r, ¬ (s.requests r).Rotates session.id) :
    RotationInv { s.setPhase request phase with
      rows := markRevoked s.rows session.id
      locked := s.locked.filter (· ≠ session.id)
      events := s.events ++ added } := by
  have hmarked : isRevoked (markRevoked s.rows session.id) session.id = true := by
    refine isRevoked_markRevoked_self (hs.named request session ?_)
    rw [hphase]
    rfl
  -- another lock holder works on another row
  have hupdated : ∀ r e x, (s.setPhase request phase).requests r = .updated e x →
      s.requests r = .updated e x ∧ x.id ≠ session.id := by
    intro r e x hr
    obtain ⟨hne, hold⟩ := updated_of_setPhase hlock hr
    exact ⟨hold, fun hid => hne (hs.lockedOnce r request e endpoint x session hold hphase hid)⟩
  -- the request can only go on to rotate a session that nobody has touched
  have hfresh : phase.Rotates session.id → (∀ e ∈ s.events, e.session ≠ session.id) ∧
      ∀ r, ¬ (s.requests r).Rotates session.id := by
    intro hphaseRotates
    obtain ⟨-, rfl, -⟩ := hrotates _ hphaseRotates
    exact hs.untouched session.id (hs.first request session hphase)
  constructor
  case named =>
    intro r x hr
    rcases names_setPhase hr with ⟨-, hnew⟩ | ⟨-, hold⟩
    · exact absurd hnew (hnames x)
    · exact exists_markRevoked (hs.named r x hold)
  case locked =>
    intro r e x hr
    obtain ⟨hold, hne⟩ := hupdated r e x hr
    exact List.mem_filter.mpr ⟨hs.locked r e x hold, by simpa using hne⟩
  case lockedOnce =>
    intro r r' e e' x x' hr hr' hid
    exact hs.lockedOnce r r' e e' x x' (hupdated r e x hr).1 (hupdated r' e' x' hr').1 hid
  case untouched =>
    intro id hid
    have hne : id ≠ session.id := by
      rintro rfl
      rw [hmarked] at hid
      cases hid
    rw [isRevoked_markRevoked_of_ne hne] at hid
    obtain ⟨hevents, hnone⟩ := hs.untouched id hid
    refine ⟨fun e he => ?_, fun r hr => ?_⟩
    · rcases List.mem_append.mp he with hold | hnew
      · exact hevents e hold
      · rw [hadded e hnew]
        exact Ne.symm hne
    · rcases rotates_setPhase hr with ⟨-, hnew⟩ | ⟨-, hold⟩
      · exact hne (hrotates id hnew).1
      · exact hnone r hold
  case first =>
    intro r x hr
    obtain ⟨hold, hne⟩ := hupdated r .refresh x hr
    show isRevoked (markRevoked s.rows session.id) x.id = false
    rw [isRevoked_markRevoked_of_ne hne]
    exact hs.first r x hold
  case alone =>
    intro r id hr
    rcases rotates_setPhase hr with ⟨heq, hnew⟩ | ⟨-, hold⟩
    · obtain ⟨rfl, -, rfl⟩ := hrotates id hnew
      obtain ⟨hevents, hnone⟩ := hfresh hnew
      refine ⟨by simpa using hevents, fun r' hr' => ?_⟩
      rcases rotates_setPhase hr' with ⟨heq', -⟩ | ⟨-, hold'⟩
      · exact heq'.trans heq.symm
      · exact absurd hold' (hnone r')
    · obtain ⟨hevents, halone⟩ := hs.alone r id hold
      refine ⟨fun e he => ?_, fun r' hr' => ?_⟩
      · rcases List.mem_append.mp he with hmem | hnew
        · exact hevents e hmem
        · rw [hadded e hnew]
          rintro rfl
          exact hquiet (List.ne_nil_of_mem hnew) r hold
      · rcases rotates_setPhase hr' with ⟨-, hnew'⟩ | ⟨-, hold'⟩
        · obtain ⟨rfl, -, -⟩ := hrotates id hnew'
          exact absurd hold ((hfresh hnew').2 r)
        · exact halone r' hold'
  case singleUse =>
    refine singleUse_append hs.singleUse ?_
    intro e he id heq
    rw [hadded e he] at heq
    cases heq

/-- The COMMIT of `create_session`: the session that is exchanged had no event,
and the row that becomes visible is not revoked. -/
theorem rotationInv_commitCreated (hs : RotationInv s) {session : SessionRow}
    {created : NewSession} (hphase : s.requests request = .inserted session created) :
    RotationInv { s.setPhase request .finished with
      rows := s.rows ++ [created.row]
      events := s.events ++ [.exchanged session.id] } := by
  have hunlocked : ∀ e x, Phase.finished ≠ .updated e x := fun _ _ h => by cases h
  have hrotates : (s.requests request).Rotates session.id := by
    rw [hphase]
    rfl
  have hrot : ∀ r id, ((s.setPhase request .finished).requests r).Rotates id →
      r ≠ request ∧ (s.requests r).Rotates id := fun r id hr =>
    (rotates_setPhase hr).resolve_left fun h => h.2
  constructor
  case named =>
    intro r x hr
    obtain ⟨-, hold⟩ := (names_setPhase hr).resolve_left fun h => h.2
    obtain ⟨y, hy, hid⟩ := hs.named r x hold
    exact ⟨y, List.mem_append_left _ hy, hid⟩
  case locked =>
    exact fun r e x hr => hs.locked r e x (updated_of_setPhase hunlocked hr).2
  case lockedOnce =>
    exact fun r r' e e' x x' hr hr' => hs.lockedOnce r r' e e' x x'
      (updated_of_setPhase hunlocked hr).2 (updated_of_setPhase hunlocked hr').2
  case untouched =>
    intro id hid
    rw [isRevoked_append] at hid
    obtain ⟨hevents, hnone⟩ := hs.untouched id hid
    refine ⟨fun e he => ?_, fun r hr => hnone r (hrot r id hr).2⟩
    rcases List.mem_append.mp he with hmem | hnew
    · exact hevents e hmem
    · rw [List.mem_singleton.mp hnew]
      rintro rfl
      exact hnone request hrotates
  case first =>
    intro r x hr
    show isRevoked (s.rows ++ [created.row]) x.id = false
    rw [isRevoked_append]
    exact hs.first r x (updated_of_setPhase hunlocked hr).2
  case alone =>
    intro r id hr
    obtain ⟨hne, hr⟩ := hrot r id hr
    obtain ⟨hevents, halone⟩ := hs.alone r id hr
    refine ⟨fun e he => ?_, fun r' hr' => halone r' (hrot r' id hr').2⟩
    rcases List.mem_append.mp he with hmem | hnew
    · exact hevents e hmem
    · rw [List.mem_singleton.mp hnew]
      rintro rfl
      exact hne (halone request hrotates).symm
  case singleUse =>
    refine List.pairwise_append.mpr ⟨hs.singleUse, List.pairwise_singleton .., ?_⟩
    intro e he e' he' id heq
    rw [List.mem_singleton.mp he', SessionEvent.exchanged.injEq] at heq
    exact heq ▸ (hs.alone request session.id hrotates).1 e he

theorem selectSession_mem {hashRefreshToken : String → String} {rows : List SessionRow}
    {token : String} {now : Nat} {session : SessionRow}
    (h : selectSession hashRefreshToken rows token now = some session) : session ∈ rows :=
  List.mem_of_find?_eq_some h

theorem rotationInv_select (hs : RotationInv s) {endpoint : Endpoint} {session : SessionRow}
    (hmem : session ∈ s.rows) : RotationInv (s.setPhase request (.selected endpoint session)) := by
  refine rotationInv_setPhase hs (fun x hx => ?_) (fun _ _ h => by cases h) fun _ h => h.elim
  exact ⟨session, hmem, congrArg SessionRow.id hx⟩

/-- Every step of a proper schedule keeps the rotations apart. -/
theorem rotationInv_inductive (hashRefreshToken : String → String) :
    (sessions hashRefreshToken).InductiveBy RotatesOnce RotationInv where
  init := fun _ h => rotationInv_init h
  step := by
    intro s a s' hs hok hstep
    have h : sessionStep hashRefreshToken s a = some s' := hstep
    cases a with
    | select request endpoint cookie now =>
        simp only [sessionStep, Option.ite_none_right_eq_some] at h
        obtain ⟨-, h⟩ := h
        split at h
        · next session hsession =>
            obtain ⟨token, -, hsel⟩ := Option.bind_eq_some_iff.mp hsession
            rw [Option.some.injEq] at h
            exact h ▸ rotationInv_select hs (selectSession_mem hsel)
        · rw [Option.some.injEq] at h
          exact h ▸ rotationInv_setPhase hs (fun _ hx => hx.elim) (fun _ _ h => by cases h)
            fun _ h => h.elim
    | update request =>
        simp only [sessionStep] at h
        split at h
        · next endpoint session hphase =>
            simp only [Option.ite_none_left_eq_some, Option.some.injEq] at h
            refine h.2 ▸ rotationInv_update hs hphase h.1 fun hrefresh => ?_
            exact hok session (hrefresh ▸ hphase)
        · cases h
    | commitRevoked request =>
        simp only [sessionStep] at h
        split at h
        · next session hphase =>
            rw [Option.some.injEq] at h
            have hnext := rotationInv_commitRevoked hs hphase (.revoked session) []
              (fun _ hx => hx) (fun _ _ h => by cases h)
              (fun id hid => ⟨hid.symm, rfl, rfl⟩) (fun e he => by cases he) (fun h => absurd rfl h)
            rw [List.append_nil] at hnext
            exact h ▸ hnext
        · next session hphase =>
            rw [Option.some.injEq] at h
            exact h ▸ rotationInv_commitRevoked hs hphase .finished [.loggedOut session.id]
              (fun _ hx => hx) (fun _ _ h => by cases h) (fun _ hid => hid.elim)
              (fun e he => List.mem_singleton.mp he) fun _ => hok session hphase
        · cases h
    | insert request created =>
        simp only [sessionStep] at h
        split at h
        · next session hphase =>
            simp only [Option.ite_none_right_eq_some, Option.some.injEq] at h
            refine h.2 ▸ rotationInv_setPhase hs (fun _ hx => hx.elim) (fun _ _ h => by cases h) ?_
            rw [hphase]
            exact fun _ hid => hid
        · cases h
    | commitCreated request =>
        simp only [sessionStep] at h
        split at h
        · next session created hphase =>
            rw [Option.some.injEq] at h
            exact h ▸ rotationInv_commitCreated hs hphase
        · cases h

/-- In every proper schedule a refresh token is exchanged at most once, and not
after a logout. -/
theorem refresh_singleUse {hashRefreshToken : String → String}
    (h : (sessions hashRefreshToken).ReachableBy RotatesOnce s) : SingleUse s :=
  ((rotationInv_inductive hashRefreshToken).invariant s h).singleUse

/-- One session, found by the token `"t1"`. -/
def oneSession : SessionState where
  rows := [{ id := 1, userId := 1, refreshTokenHash := "t1", expiresAt := 100, revoked := false }]
  locked := []
  requests := fun _ => .idle
  events := []

theorem oneSession_init : SessionInit oneSession :=
  ⟨by decide, rfl, fun _ => rfl, rfl⟩

/-- A second refresh that selects after the first one has committed finds
nothing. -/
theorem refresh_singleUse_inOrder :
    ∃ s, (sessions id).run oneSession
        [.select 1 .refresh (some "t1") 0, .update 1, .commitRevoked 1,
          .insert 1 ⟨2, 1, "t2", 100⟩, .commitCreated 1, .select 2 .refresh (some "t1") 0] =
          some s ∧
      s.requests 2 = .finished ∧ s.events = [.exchanged 1] ∧ SingleUse s := by
  have h : (sessions id).ReachableBy RotatesOnce oneSession := .init oneSession_init
  have h := h.step (a := SessionAction.select 1 .refresh (some "t1") 0) trivial rfl
  have h := h.step (a := SessionAction.update 1) (fun _ hphase => by cases hphase; rfl) rfl
  have h := h.step (a := SessionAction.commitRevoked 1) (fun _ hphase => by cases hphase) rfl
  have h := h.step (a := SessionAction.insert 1 ⟨2, 1, "t2", 100⟩) trivial rfl
  have h := h.step (a := SessionAction.commitCreated 1) trivial rfl
  have h := h.step (a := SessionAction.select 2 .refresh (some "t1") 0) trivial rfl
  exact ⟨_, rfl, rfl, rfl, refresh_singleUse h⟩

/-- Two refreshes with one token that both select before either commits. -/
theorem refresh_used_twice :
    ¬ ∀ hashRefreshToken s, (sessions hashRefreshToken).Reachable s → SingleUse s := by
  intro h
  have hrun : ∃ s, (sessions id).run oneSession
        [.select 1 .refresh (some "t1") 0, .select 2 .refresh (some "t1") 0,
          .update 1, .commitRevoked 1, .insert 1 ⟨2, 1, "t2", 100⟩, .commitCreated 1,
          .update 2, .commitRevoked 2, .insert 2 ⟨3, 1, "t3", 100⟩, .commitCreated 2] = some s ∧
      s.events = [.exchanged 1, .exchanged 1] := ⟨_, rfl, rfl⟩
  obtain ⟨s, hs, hevents⟩ := hrun
  have hsingle := h id s (TSys.reachable_run (.init oneSession_init) _ hs)
  rw [SingleUse, hevents, List.pairwise_pair] at hsingle
  exact hsingle 1 rfl rfl

end AkesoDlp.Server.Auth
