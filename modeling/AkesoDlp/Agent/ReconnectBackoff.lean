import AkesoDlp.Agent.GrpcClient
import AkesoDlp.Agent.StdInt
import Mathlib.Algebra.Group.Int.Defs

/-!
# The back-off of the heartbeat thread

`HeartbeatThread` round by round: what the program of a round does, with the pauses around
it. Only a connection that fails is followed by a pause of `GetBackoffDuration`. A channel is
nearly always created, whether the server answers or not, and creating it resets the
counter; requests that fail are followed by the pause of the heartbeat interval.
-/

namespace AkesoDlp.Agent

open Lib LockOrder

/-- The value of an `int64_t`. -/
abbrev IsInt64 (n : Int) : Prop := -2 ^ 63 ≤ n ∧ n < 2 ^ 63

/-- `kBaseBackoffMs` -/
def baseBackoffMs : Int := 1000

/-- What the configuration sets of the heartbeat; both are of type `int`. -/
structure HeartbeatConfig where
  intervalSeconds : Int := 60
  backoffMaxSeconds : Int := 300
  interval_isInt : IsInt32 intervalSeconds := by decide
  backoffMax_isInt : IsInt32 backoffMaxSeconds := by decide

/-- `GetBackoffDuration`, in milliseconds. -/
def getBackoffDuration (config : HeartbeatConfig) (c : GrpcClient) : Int :=
  min (baseBackoffMs * 2 ^ c.backoffAttempt) (config.backoffMaxSeconds * 1000)

/-! ## A round -/

/-- What the requests of a round are answered with. -/
abbrev RoundAnswers : Type := ∀ q, ClientAnswer q

/-- The member calls of a round. The call at its end is the next round; `PullPolicies` locks
the mutex that the thread holds. -/
def roundCall (answer : RoundAnswers) :
    MemberCall → GrpcClient → Option (GrpcClient × ClientReply × List ClientAccess)
  | .connect, c => ClientProg.connect.alone answer (fun _ _ => none) c
  | .register .., c => ClientProg.register.alone answer (fun _ _ => none) c
  | .heartbeatThread, c => some (c, .void, [])
  | _, _ => none

/-- One round of the loop, without the pauses: the client after it and its accesses. -/
def round (answer : RoundAnswers) (c : GrpcClient) :
    Option (GrpcClient × ClientReply × List ClientAccess) :=
  (ClientProg.heartbeatThread mainCallbacks).alone answer (roundCall answer) c

/-- The state of the thread when it is about to make an attempt. -/
structure HeartbeatLoop where
  client : GrpcClient
  /-- The rounds since a heartbeat succeeded. -/
  failedRounds : Nat := 0
  /-- The milliseconds that the thread has slept since its last attempt. -/
  waited : Int
deriving DecidableEq, Repr

/-- The sleep at the top of the loop, in milliseconds. -/
def intervalMs (intervalSeconds : Int) : Int := 1000 * max intervalSeconds 0

/-- The round with the pauses after it. -/
def HeartbeatLoop.step (config : HeartbeatConfig) (s : HeartbeatLoop) (answer : RoundAnswers) :
    Option HeartbeatLoop :=
  if s.client.heartbeatRunning then
    (round answer s.client).map fun (c, _, accesses) =>
      { client := c
        failedRounds :=
          if .heartbeat ∈ accesses ∧ (answer .heartbeat).isSome then 0 else s.failedRounds + 1
        waited :=
          (if .createChannel ∈ accesses ∧ answer .createChannel = false then
              max (getBackoffDuration config c) 0
            else 0) + intervalMs c.intervalSeconds }
  else none

/-- The client after `Start`, with the sleep before the first attempt. -/
def HeartbeatLoop.started (config : HeartbeatConfig) (answer : RoundAnswers) :
    Option HeartbeatLoop :=
  (ClientProg.start.alone answer (roundCall answer)
      { intervalSeconds := config.intervalSeconds }).map fun (c, _, _) =>
    { client := c, waited := intervalMs c.intervalSeconds }

/-- The rounds of the thread, whatever each of them meets with. -/
def heartbeatLoop (config : HeartbeatConfig) : TSys HeartbeatLoop RoundAnswers where
  init s := ∃ answer, HeartbeatLoop.started config answer = some s
  step s answer := s.step config answer

/-! ## Backing off -/

/-- The counter counts the failed rounds up to its limit, and after a failed round the thread
has waited for as long as the counter asks. -/
structure BacksOff (config : HeartbeatConfig) (s : HeartbeatLoop) : Prop where
  counts : s.client.backoffAttempt = min s.failedRounds maxBackoffAttempts
  duration : getBackoffDuration config s.client =
    min (baseBackoffMs * 2 ^ min s.failedRounds maxBackoffAttempts)
      (config.backoffMaxSeconds * 1000)
  waits : 0 < s.failedRounds → getBackoffDuration config s.client ≤ s.waited
  fits : IsInt64 (baseBackoffMs * 2 ^ s.client.backoffAttempt) ∧
    IsInt64 (config.backoffMaxSeconds * 1000)

/-- What becomes of a round. -/
inductive RoundKind
  | connectFailed
  | registerFailed
  /-- The agent has been registered under an empty id. -/
  | noAgentId
  | heartbeatFailed
  | heartbeatSucceeded
deriving DecidableEq, Repr

def registerAccepted (answer : RoundAnswers) : Bool :=
  (answer .register).any fun response => response.success

/-- The agent id that a heartbeat would be sent with. -/
def roundAgentId (answer : RoundAnswers) (c : GrpcClient) : StdString :=
  if c.registered then c.agentId
  else ((answer .register).map RegisterResponse.agentId).getD []

/-- The interval in force after the round's registration, if it needs one. -/
def roundInterval (answer : RoundAnswers) (c : GrpcClient) : Int :=
  match c.registered, answer .register with
  | false, some response =>
      if response.success ∧ response.heartbeatIntervalSeconds > 0 then
        response.heartbeatIntervalSeconds
      else c.intervalSeconds
  | _, _ => c.intervalSeconds

/-- What becomes of a heartbeat under this agent id. -/
def heartbeatKind (answer : RoundAnswers) (agentId : StdString) : RoundKind :=
  if agentId = [] then .noAgentId
  else if (answer .heartbeat).isNone then .heartbeatFailed
  else .heartbeatSucceeded

/-- What becomes of the requests of a connected client. -/
def requestsKind (answer : RoundAnswers) (c : GrpcClient) : RoundKind :=
  if c.registered = false ∧ registerAccepted answer = false then .registerFailed
  else heartbeatKind answer (roundAgentId answer c)

def roundKind (answer : RoundAnswers) (c : GrpcClient) : RoundKind :=
  if c.connState ≠ .connected ∧ answer .createChannel = false then .connectFailed
  else requestsKind answer c

/-- A round that a request fails in is the first one to fail, and the interval is at least
the pause for one failure. -/
def KeepsBackoff (config : HeartbeatConfig) (s : HeartbeatLoop) (answer : RoundAnswers) : Prop :=
  match roundKind answer s.client with
  | .connectFailed | .heartbeatSucceeded => True
  | .noAgentId => False
  | .registerFailed | .heartbeatFailed =>
      s.failedRounds = 0 ∧
        min (baseBackoffMs * 2) (config.backoffMaxSeconds * 1000) ≤
          intervalMs (roundInterval answer s.client)

/-! ## What a round does -/

section

variable {answer : RoundAnswers} {c c' : GrpcClient} {reply : ClientReply}
  {accesses : List ClientAccess}

/-- The effect of requests of this kind on the counter. -/
def CounterEffect (c c' : GrpcClient) : RoundKind → Prop
  | .connectFailed => False
  | .registerFailed | .heartbeatFailed =>
      c'.backoffAttempt = min (c.backoffAttempt + 1) maxBackoffAttempts ∧ c'.connState = .backoff
  | .noAgentId => c'.backoffAttempt = c.backoffAttempt ∧ c'.connState = c.connState
  | .heartbeatSucceeded => c'.backoffAttempt = 0

/-- The effect of requests of this kind on the fields that the back-off goes by. -/
structure RequestsSpec (kind : RoundKind) (interval : Int) (c c' : GrpcClient)
    (accesses : List ClientAccess) : Prop where
  running : c'.heartbeatRunning = c.heartbeatRunning
  stub : c'.stub = true
  interval : c'.intervalSeconds = interval
  noChannel : ClientAccess.createChannel ∉ accesses
  heartbeat : ClientAccess.heartbeat ∈ accesses ↔
    kind = .heartbeatFailed ∨ kind = .heartbeatSucceeded
  counter : CounterEffect c c' kind

theorem runCommands_main (cmds : List AgentCommand) (k : ClientProg) :
    ClientProg.runCommands mainCallbacks cmds k = k := by
  induction cmds with
  | nil => rfl
  | cons cmd cmds ih => exact ih

/-- The heartbeat of a client with a stub. -/
theorem alone_sendHeartbeat (hstub : c.stub = true) :
    (ClientProg.sendHeartbeat mainCallbacks).alone answer (roundCall answer) c =
      if c.agentId = [] then some (c, .void, [.data])
      else
        match answer .heartbeat with
        | none => some (c.enterBackoff, .void, [.data, .driverStatus, .heartbeat])
        | some response =>
            if response.policyUpdateAvailable then none
            else some (c.resetBackoff, .void, [.data, .driverStatus, .heartbeat]) := by
  simp only [ClientProg.sendHeartbeat, ClientProg.read, Prog.alone, hstub, Bool.not_true,
    Bool.false_or, List.isEmpty_iff, mainCallbacks]
  by_cases hid : c.agentId = []
  · rw [if_pos hid, if_pos hid]
    rfl
  · rw [if_neg hid, if_neg hid]
    simp only [Prog.alone, ClientProg.calls]
    cases hanswer : answer .heartbeat with
    | none => rfl
    | some response =>
        dsimp only
        rw [show ClientProg.runCommands { command := some fun _ => [], driverStatus := some [] }
          response.commands (.unlock .stub ClientProg.continueLoop) =
            .unlock .stub ClientProg.continueLoop from runCommands_main _ _]
        cases response.policyUpdateAvailable <;> rfl

theorem requestsSpec_sendHeartbeat (hstub : c.stub = true)
    (h : (ClientProg.sendHeartbeat mainCallbacks).alone answer (roundCall answer) c =
      some (c', reply, accesses)) :
    RequestsSpec (heartbeatKind answer c.agentId) c.intervalSeconds c c' accesses := by
  rw [alone_sendHeartbeat hstub] at h
  unfold heartbeatKind
  by_cases hid : c.agentId = []
  · rw [if_pos hid] at h ⊢
    cases h
    exact ⟨rfl, hstub, rfl, by decide, by decide, rfl, rfl⟩
  · rw [if_neg hid] at h ⊢
    cases hanswer : answer .heartbeat with
    | none =>
        rw [hanswer] at h
        cases h
        exact ⟨rfl, hstub, rfl, by decide, by decide, rfl, rfl⟩
    | some response =>
        rw [hanswer] at h
        dsimp only at h
        split at h
        · cases h
        · cases h
          exact ⟨rfl, hstub, rfl, by decide, by simp, rfl⟩

/-- The client that the server has registered. -/
def GrpcClient.registeredAs (c : GrpcClient) (response : RegisterResponse) : GrpcClient :=
  { c with
    agentId := response.agentId
    registered := true
    intervalSeconds :=
      if response.heartbeatIntervalSeconds > 0 then response.heartbeatIntervalSeconds
      else c.intervalSeconds }

theorem roundCall_register (hstub : c.stub = true) (host os version ip : StdString) :
    roundCall answer (.register host os version ip) c =
      match answer .register with
      | none => some (c, .bool false, [.data, .register])
      | some response =>
          some (if response.success then c.registeredAs response else c, .bool response.success,
            [.data, .register]) := by
  simp only [roundCall, ClientProg.register, ClientProg.rpc, ClientProg.read, Prog.alone, hstub,
    Bool.not_true, Bool.false_and, Bool.or_false, Bool.false_eq_true, if_false,
    ClientProg.unlockReturn]
  cases hanswer : answer .register with
  | none => rfl
  | some response =>
      cases hsuccess : response.success <;> simp [hsuccess, hstub, GrpcClient.registeredAs]

/-- Accesses before the heartbeat, and a client with the same counter. -/
theorem RequestsSpec.after {kind : RoundKind} {interval : Int} {d : GrpcClient}
    {earlier : List ClientAccess} (h : RequestsSpec kind interval d c' accesses)
    (hrunning : d.heartbeatRunning = c.heartbeatRunning)
    (hattempt : d.backoffAttempt = c.backoffAttempt) (hstate : d.connState = c.connState)
    (hchannel : ClientAccess.createChannel ∉ earlier)
    (hheartbeat : ClientAccess.heartbeat ∉ earlier) :
    RequestsSpec kind interval c c' (earlier ++ accesses) where
  running := h.running.trans hrunning
  stub := h.stub
  interval := h.interval
  noChannel := by simp [hchannel, h.noChannel]
  heartbeat := by simp [hheartbeat, h.heartbeat]
  counter := by
    have hcounter := h.counter
    unfold CounterEffect at hcounter ⊢
    rwa [hattempt, hstate] at hcounter

theorem alone_registerIfNeeded (hstub : c.stub = true) :
    (ClientProg.registerIfNeeded mainCallbacks).alone answer (roundCall answer) c =
      if c.registered then
        ((ClientProg.sendHeartbeat mainCallbacks).alone answer (roundCall answer) c).map
          fun (d, r, qs) => (d, r, [.data] ++ qs)
      else
        match answer .register with
        | none => some (c.enterBackoff, .void, [.data, .hostname, .data, .register, .data])
        | some response =>
            if response.success then
              ((ClientProg.sendHeartbeat mainCallbacks).alone answer (roundCall answer)
                (c.registeredAs response)).map
                  fun (d, r, qs) => (d, r, [.data, .hostname, .data, .register] ++ qs)
            else some (c.enterBackoff, .void, [.data, .hostname, .data, .register, .data]) := by
  simp only [ClientProg.registerIfNeeded, ClientProg.read, Prog.alone]
  cases hregistered : c.registered with
  | true => rfl
  | false =>
      simp only [Bool.false_eq_true, if_false, Prog.alone, roundCall_register hstub]
      cases hanswer : answer .register with
      | none => rfl
      | some response =>
          cases hsuccess : response.success with
          | false =>
              simp only [hsuccess, ClientReply.asBool, Option.bind_some, Bool.false_eq_true,
                if_false]
              rfl
          | true =>
              simp only [hsuccess, if_true, ClientReply.asBool, Option.bind_some, Option.map_map]
              rfl

theorem requestsSpec_registerIfNeeded (hstub : c.stub = true)
    (h : (ClientProg.registerIfNeeded mainCallbacks).alone answer (roundCall answer) c =
      some (c', reply, accesses)) :
    RequestsSpec (requestsKind answer c) (roundInterval answer c) c c' accesses := by
  rw [alone_registerIfNeeded hstub] at h
  unfold requestsKind roundAgentId roundInterval registerAccepted
  cases hregistered : c.registered with
  | true =>
      rw [hregistered, if_pos rfl] at h
      obtain ⟨⟨d, r, rest⟩, hrest, hsome⟩ := Option.map_eq_some_iff.mp h
      cases hsome
      simp only [Bool.true_eq_false, false_and, if_false, if_true]
      exact (requestsSpec_sendHeartbeat hstub hrest).after rfl rfl rfl (by decide) (by decide)
  | false =>
      rw [hregistered, if_neg Bool.false_ne_true] at h
      cases hanswer : answer .register with
      | none =>
          rw [hanswer] at h
          cases h
          simp only [Option.any_none, and_self, if_true]
          exact ⟨rfl, hstub, rfl, by decide, by decide, rfl, rfl⟩
      | some response =>
          rw [hanswer] at h
          cases hsuccess : response.success with
          | false =>
              simp only [hsuccess, Bool.false_eq_true, if_false] at h
              cases h
              simp only [Option.any_some, hsuccess, Bool.false_eq_true, false_and, if_false,
                and_self, if_true]
              exact ⟨rfl, hstub, rfl, by decide, by decide, rfl, rfl⟩
          | true =>
              simp only [hsuccess, if_true] at h
              obtain ⟨⟨d, r, rest⟩, hrest, hsome⟩ := Option.map_eq_some_iff.mp h
              cases hsome
              simp only [Option.any_some, hsuccess, Bool.true_eq_false, and_false, if_false,
                true_and, Option.map_some, Option.getD_some, Bool.false_eq_true]
              exact (requestsSpec_sendHeartbeat (c := c.registeredAs response) hstub hrest).after
                rfl rfl rfl (by decide) (by decide)

/-- The client with a new channel and stub. -/
def GrpcClient.reconnected (c : GrpcClient) : GrpcClient :=
  { c with stub := true, channel := true, connState := .connected, backoffAttempt := 0 }

theorem roundCall_connect :
    roundCall answer .connect c =
      if answer .createChannel then
        some (c.reconnected, .bool true, [.data, .createChannel, .waitForConnected, .data, .data])
      else
        some ({ c with channel := false, connState := .disconnected }, .bool false,
          [.data, .createChannel, .data]) := by
  simp only [roundCall, ClientProg.connect, ClientProg.write, Prog.alone]
  cases hcreated : answer .createChannel <;> rfl

theorem alone_heartbeatThread (hrunning : c.heartbeatRunning = true) :
    round answer c =
      if c.connState = .connected then
        ((ClientProg.registerIfNeeded mainCallbacks).alone answer (roundCall answer) c).map
          fun (d, r, qs) => (d, r, [.data, .data] ++ qs)
      else if answer .createChannel then
        ((ClientProg.registerIfNeeded mainCallbacks).alone answer (roundCall answer)
          c.reconnected).map
            fun (d, r, qs) =>
              (d, r, [.data, .data, .data, .createChannel, .waitForConnected, .data, .data] ++ qs)
      else
        some ({ c with channel := false }.enterBackoff, .void,
          [.data, .data, .data, .createChannel, .data, .data]) := by
  simp only [round, ClientProg.heartbeatThread, ClientProg.read, Prog.alone, hrunning,
    Bool.not_true, Bool.false_eq_true, if_false]
  by_cases hconnected : c.connState = .connected
  · rw [if_pos hconnected, if_pos hconnected, Option.map_map]
    rfl
  · rw [if_neg hconnected, if_neg hconnected]
    simp only [Prog.alone, roundCall_connect]
    cases hcreated : answer .createChannel with
    | false =>
        simp only [Bool.false_eq_true, if_false, Option.bind_some, ClientReply.asBool, hrunning]
        rfl
    | true =>
        simp only [if_true, Option.bind_some, ClientReply.asBool, Option.map_map, hrunning]
        rfl

/-- A connected client has a stub and has not begun to count. -/
structure ReadyForRound (c : GrpcClient) : Prop where
  running : c.heartbeatRunning = true
  connected : c.connState = .connected → c.stub = true ∧ c.backoffAttempt = 0

/-- What one round does. -/
structure RoundSpec (answer : RoundAnswers) (c c' : GrpcClient) (accesses : List ClientAccess) :
    Prop where
  ready : ReadyForRound c'
  connectFailed : ClientAccess.createChannel ∈ accesses ∧ answer .createChannel = false ↔
    roundKind answer c = .connectFailed
  succeeded : ClientAccess.heartbeat ∈ accesses ∧ (answer .heartbeat).isSome = true ↔
    roundKind answer c = .heartbeatSucceeded
  interval : roundKind answer c ≠ .connectFailed → c'.intervalSeconds = roundInterval answer c
  counter : c'.backoffAttempt =
    match roundKind answer c with
    | .connectFailed => min (c.backoffAttempt + 1) maxBackoffAttempts
    | .registerFailed | .heartbeatFailed => 1
    | .noAgentId | .heartbeatSucceeded => 0

theorem requestsKind_ne_connectFailed : requestsKind answer c ≠ .connectFailed := by
  unfold requestsKind heartbeatKind
  repeat' split
  all_goals exact RoundKind.noConfusion

/-- A heartbeat that was sent succeeded or not as it was answered. -/
theorem isSome_of_requestsKind (h : requestsKind answer c = .heartbeatSucceeded) :
    (answer .heartbeat).isSome = true := by
  unfold requestsKind heartbeatKind at h
  split at h
  · cases h
  · split at h
    · cases h
    · split at h
      · cases h
      · rename_i hanswer
        rwa [Option.isNone_iff_eq_none, ← ne_eq, Option.ne_none_iff_isSome] at hanswer

theorem isNone_of_requestsKind (h : requestsKind answer c = .heartbeatFailed) :
    (answer .heartbeat).isSome = false := by
  unfold requestsKind heartbeatKind at h
  split at h
  · cases h
  · split at h
    · cases h
    · split at h
      · rename_i hanswer
        rw [Option.isNone_iff_eq_none.mp hanswer]
        rfl
      · cases h

/-- The requests after connecting, or of a client that was connected before. -/
theorem roundSpec_of_requests {d : GrpcClient} {earlier : List ClientAccess}
    (hspec : RequestsSpec (requestsKind answer d) (roundInterval answer d) d c' accesses)
    (hkind : roundKind answer c = requestsKind answer d)
    (hinterval : roundInterval answer d = roundInterval answer c)
    (hrunning : d.heartbeatRunning = true) (hattempt : d.backoffAttempt = 0)
    (hchannel : ClientAccess.createChannel ∈ earlier → answer .createChannel = true)
    (hheartbeat : ClientAccess.heartbeat ∉ earlier) :
    RoundSpec answer c c' (earlier ++ accesses) := by
  have hcounter := hspec.counter
  refine ⟨⟨hspec.running.trans hrunning, fun hconnected => ⟨hspec.stub, ?_⟩⟩, ?_, ?_,
    fun _ => hspec.interval.trans hinterval, ?_⟩
  · unfold CounterEffect at hcounter
    split at hcounter
    · exact hcounter.elim
    · rw [hcounter.2] at hconnected
      cases hconnected
    · rw [hcounter.2] at hconnected
      cases hconnected
    · rw [hcounter.1, hattempt]
    · exact hcounter
  · refine iff_of_false ?_ (hkind ▸ requestsKind_ne_connectFailed)
    rintro ⟨hmem, hfailed⟩
    rcases List.mem_append.mp hmem with hmem | hmem
    · rw [hchannel hmem] at hfailed
      cases hfailed
    · exact hspec.noChannel hmem
  · rw [List.mem_append, or_iff_right hheartbeat, hspec.heartbeat, hkind]
    constructor
    · rintro ⟨hfailed | hsucceeded, hanswer⟩
      · rw [isNone_of_requestsKind hfailed] at hanswer
        cases hanswer
      · exact hsucceeded
    · exact fun hsucceeded => ⟨Or.inr hsucceeded, isSome_of_requestsKind hsucceeded⟩
  · rw [hkind]
    unfold CounterEffect at hcounter
    cases hrequests : requestsKind answer d with
    | connectFailed => exact absurd hrequests requestsKind_ne_connectFailed
    | registerFailed | heartbeatFailed =>
        rw [hrequests] at hcounter
        rw [hcounter.1, hattempt]
        rfl
    | noAgentId =>
        rw [hrequests] at hcounter
        exact hcounter.1.trans hattempt
    | heartbeatSucceeded =>
        rw [hrequests] at hcounter
        exact hcounter

theorem round_spec (hready : ReadyForRound c) (h : round answer c = some (c', reply, accesses)) :
    RoundSpec answer c c' accesses := by
  rw [alone_heartbeatThread hready.running] at h
  by_cases hconnected : c.connState = .connected
  · obtain ⟨hstub, hattempt⟩ := hready.connected hconnected
    rw [if_pos hconnected] at h
    obtain ⟨⟨d, r, rest⟩, hrest, hsome⟩ := Option.map_eq_some_iff.mp h
    cases hsome
    have hkind : roundKind answer c = requestsKind answer c :=
      if_neg fun hnot => hnot.1 hconnected
    exact roundSpec_of_requests (requestsSpec_registerIfNeeded hstub hrest) hkind rfl
      hready.running hattempt (fun hmem => absurd hmem (by decide)) (by decide)
  · rw [if_neg hconnected] at h
    cases hcreated : answer .createChannel with
    | true =>
        rw [hcreated, if_pos rfl] at h
        obtain ⟨⟨d, r, rest⟩, hrest, hsome⟩ := Option.map_eq_some_iff.mp h
        cases hsome
        have hkind : roundKind answer c = requestsKind answer c := by
          refine if_neg fun hnot => ?_
          rw [hcreated] at hnot
          cases hnot.2
        exact roundSpec_of_requests (requestsSpec_registerIfNeeded rfl hrest) hkind rfl
          hready.running rfl (fun _ => hcreated) (by decide)
    | false =>
        rw [hcreated] at h
        cases h
        have hkind : roundKind answer c = .connectFailed := if_pos ⟨hconnected, hcreated⟩
        refine ⟨⟨hready.running, fun hback => by cases hback⟩,
          iff_of_true ⟨by decide, hcreated⟩ hkind,
          iff_of_false (fun hmem => absurd hmem.1 (by decide)) ?_, fun hne => absurd hkind hne, ?_⟩
        · rw [hkind]
          exact RoundKind.noConfusion
        · rw [hkind]
          rfl

end

/-! ## Whole runs -/

section

variable {config : HeartbeatConfig} {s s' : HeartbeatLoop} {answer : RoundAnswers}

theorem step_spec (hready : ReadyForRound s.client) (h : s.step config answer = some s') :
    ∃ accesses, RoundSpec answer s.client s'.client accesses ∧
      s'.failedRounds =
        (if roundKind answer s.client = .heartbeatSucceeded then 0 else s.failedRounds + 1) ∧
      s'.waited =
        (if roundKind answer s.client = .connectFailed then
          max (getBackoffDuration config s'.client) 0 else 0) +
            intervalMs s'.client.intervalSeconds := by
  rw [HeartbeatLoop.step, if_pos hready.running] at h
  obtain ⟨⟨c, reply, accesses⟩, hround, hsome⟩ := Option.map_eq_some_iff.mp h
  cases hsome
  have hspec := round_spec hready hround
  exact ⟨accesses, hspec, if_congr hspec.succeeded rfl rfl,
    congrArg (· + _) (if_congr hspec.connectFailed rfl rfl)⟩

theorem intervalMs_nonneg (intervalSeconds : Int) : 0 ≤ intervalMs intervalSeconds := by
  unfold intervalMs
  omega

/-- Up to the limit of the counter nothing overflows. -/
theorem durations_fit (config : HeartbeatConfig) {attempt : Nat}
    (h : attempt ≤ maxBackoffAttempts) :
    IsInt64 (baseBackoffMs * 2 ^ attempt) ∧ IsInt64 (config.backoffMaxSeconds * 1000) := by
  have hmax := config.backoffMax_isInt
  have hpow : (2 : Int) ^ attempt ≤ 2 ^ 10 := by
    exact_mod_cast Nat.pow_le_pow_right (by decide) h
  have hpos : (0 : Int) < 2 ^ attempt := Int.pow_pos (by decide)
  unfold IsInt32 at hmax
  unfold IsInt64 baseBackoffMs
  omega

/-- A counter that counts the failed rounds is all that the durations depend on. -/
theorem backsOff_iff_counts :
    BacksOff config s ↔
      s.client.backoffAttempt = min s.failedRounds maxBackoffAttempts ∧
        (0 < s.failedRounds → getBackoffDuration config s.client ≤ s.waited) := by
  constructor
  · exact fun h => ⟨h.counts, h.waits⟩
  · rintro ⟨hcounts, hwaits⟩
    refine ⟨hcounts, ?_, hwaits, durations_fit config ?_⟩
    · rw [getBackoffDuration, hcounts]
    · rw [hcounts]
      exact Nat.min_le_right _ _

theorem backsOff_step_iff (hready : ReadyForRound s.client) (hs : BacksOff config s)
    (h : s.step config answer = some s') :
    BacksOff config s' ↔ KeepsBackoff config s answer := by
  obtain ⟨accesses, hspec, hfailed, hwaited⟩ := step_spec hready h
  have hcounter := hspec.counter
  have hnonneg := intervalMs_nonneg s'.client.intervalSeconds
  rw [backsOff_iff_counts, hfailed, hwaited]
  unfold KeepsBackoff
  cases hkind : roundKind answer s.client with
  | connectFailed =>
      rw [hkind] at hcounter
      have hmin : ∀ k limit : Nat, min (min k limit + 1) limit = min (k + 1) limit := by
        intro k limit
        omega
      refine iff_of_true ⟨?_, fun _ => ?_⟩ trivial
      · rw [hcounter, hs.counts, if_neg RoundKind.noConfusion]
        exact hmin _ _
      · rw [if_pos rfl]
        omega
  | heartbeatSucceeded =>
      rw [hkind] at hcounter
      refine iff_of_true ⟨?_, fun hpos => ?_⟩ trivial
      · rw [hcounter, if_pos rfl]
        rfl
      · rw [if_pos rfl] at hpos
        exact absurd hpos (Nat.lt_irrefl 0)
  | noAgentId =>
      rw [hkind] at hcounter
      refine iff_of_false (fun hback => ?_) not_false
      rw [hcounter, if_neg RoundKind.noConfusion, maxBackoffAttempts] at hback
      dsimp only at hback
      omega
  | registerFailed | heartbeatFailed =>
      rw [hkind] at hcounter
      have hinterval := hspec.interval (by rw [hkind]; exact RoundKind.noConfusion)
      have hduration : getBackoffDuration config s'.client =
          min (baseBackoffMs * 2) (config.backoffMaxSeconds * 1000) := by
        rw [getBackoffDuration, hcounter, Int.pow_succ, Int.pow_zero, Int.one_mul]
      rw [hcounter, if_neg RoundKind.noConfusion, if_neg RoundKind.noConfusion, hduration,
        hinterval, Int.zero_add]
      have hone : 1 = min (s.failedRounds + 1) maxBackoffAttempts ↔ s.failedRounds = 0 := by
        unfold maxBackoffAttempts
        omega
      exact and_congr hone (imp_iff_right (Nat.succ_pos _))

theorem ready_step (hready : ReadyForRound s.client) (h : s.step config answer = some s') :
    ReadyForRound s'.client := by
  obtain ⟨accesses, hspec, -⟩ := step_spec hready h
  exact hspec.ready

theorem backsOff_started (h : HeartbeatLoop.started config answer = some s) :
    ReadyForRound s.client ∧ BacksOff config s := by
  simp only [HeartbeatLoop.started, ClientProg.start, ClientProg.write, Prog.alone,
    roundCall_connect] at h
  rw [backsOff_iff_counts]
  cases hcreated : answer .createChannel with
  | true =>
      rw [hcreated] at h
      cases h
      exact ⟨⟨rfl, fun _ => ⟨rfl, rfl⟩⟩, rfl, fun hpos => absurd hpos (Nat.lt_irrefl 0)⟩
  | false =>
      rw [hcreated] at h
      cases h
      exact ⟨⟨rfl, fun hconnected => by cases hconnected⟩, rfl,
        fun hpos => absurd hpos (Nat.lt_irrefl 0)⟩

/-- A run backs off wherever it gets to exactly when each of its rounds keeps to it. -/
theorem heartbeatLoop_backsOff_iff {rounds : List RoundAnswers}
    (hinit : (heartbeatLoop config).init s) (hrun : (heartbeatLoop config).run s rounds = some s') :
    (heartbeatLoop config).Always (BacksOff config) s rounds ↔
      (heartbeatLoop config).RunOk (KeepsBackoff config) s rounds := by
  obtain ⟨answer, hstarted⟩ := hinit
  obtain ⟨hready, hback⟩ := backsOff_started hstarted
  exact TSys.always_iff_runOk (I := fun s => ReadyForRound s.client)
    (fun _ _ _ hready _ hstep _ => ready_step hready hstep)
    (fun _ _ _ hready hback hstep => backsOff_step_iff hready hback hstep) hready hback hrun

/-- The condition is enough in every state that its rounds reach. -/
theorem backsOff_of_reachableBy :
    (heartbeatLoop config).InvariantBy (KeepsBackoff config)
      (fun s => ReadyForRound s.client ∧ BacksOff config s) := by
  refine TSys.InductiveBy.invariant ⟨?_, ?_⟩
  · rintro s ⟨answer, hstarted⟩
    exact backsOff_started hstarted
  · rintro s answer s' ⟨hready, hback⟩ hkeeps hstep
    exact ⟨ready_step hready hstep, (backsOff_step_iff hready hback hstep).mpr hkeeps⟩

end

/-! ## A server that does not answer -/

/-- The channel is created and the agent registered; then there is no answer. -/
def unansweredHeartbeat : RoundAnswers
  | .data => ()
  | .createChannel | .driverStatus => true
  | .waitForConnected => false
  | .hostname => (str "host", str "10.0.0.1")
  | .register => some { agentId := str "agent", success := true }
  | .getPolicies => none
  | .reportIncident | .reportDiscoverResults => none
  | .detectContent => .failed
  | .getDiscoverScans => none
  | .heartbeat => none

/-- The same with a channel that cannot be created. -/
def noChannel : RoundAnswers
  | .createChannel => false
  | q => unansweredHeartbeat q

/-- The loop after a start that made no connection. -/
def startedAlone : HeartbeatLoop where
  client := { heartbeatRunning := true }
  waited := 60000

/-- The loop after a start that did. -/
def startedConnected : HeartbeatLoop where
  client := { stub := true, channel := true, connState := .connected, heartbeatRunning := true }
  waited := 60000

theorem backsOff_noChannel :
    (heartbeatLoop {}).Always (BacksOff {}) startedAlone [noChannel, noChannel] := by
  have hrun : (heartbeatLoop {}).run startedAlone [noChannel, noChannel] =
      some { client := { heartbeatRunning := true, connState := .backoff, backoffAttempt := 2 }
             failedRounds := 2
             waited := 64000 } := rfl
  refine (heartbeatLoop_backsOff_iff ⟨noChannel, rfl⟩ hrun).mpr ⟨trivial, fun s h => ?_⟩
  cases h
  exact ⟨trivial, fun _ _ => trivial⟩

/-- The client after heartbeats without an answer. -/
def unansweredClient : GrpcClient where
  stub := true
  channel := true
  agentId := str "agent"
  connState := .backoff
  registered := true
  heartbeatRunning := true
  backoffAttempt := 1

/-- Two heartbeats without an answer count as one failure. -/
theorem not_backsOff :
    ¬ ∀ (config : HeartbeatConfig) (s s' : HeartbeatLoop) (rounds : List RoundAnswers),
        (heartbeatLoop config).init s → (heartbeatLoop config).run s rounds = some s' →
          (heartbeatLoop config).Always (BacksOff config) s rounds := by
  intro hclaim
  have hrun : (heartbeatLoop {}).run startedConnected [unansweredHeartbeat, unansweredHeartbeat] =
      some { client := unansweredClient, failedRounds := 2, waited := 60000 } := rfl
  have hback := hclaim {} startedConnected _ _ ⟨unansweredHeartbeat, rfl⟩ hrun _
    (List.prefix_refl _) _ hrun
  exact absurd hback.counts (by decide)

end AkesoDlp.Agent
