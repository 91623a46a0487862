import AkesoDlp.Lib.LockOrder
import AkesoDlp.Agent.StdString

/-!
# The gRPC client and its mutex

The member functions of the client as programs over `stub_mutex_`. The server may
answer each request in any way, or not at all. The callbacks are known by the member
calls that they make. A thread that the client starts is one more thread that calls
`HeartbeatThread`; `Stop` does not wait for it.

Of the messages there is what the client looks at.
-/

namespace AkesoDlp.Agent

open Lib LockOrder

/-! ## State and messages -/

inductive ConnectionState
  | disconnected
  | connecting
  | connected
  | backoff
deriving DecidableEq, Repr

/-- `stub` and `channel` tell whether the pointers are set. -/
structure GrpcClient where
  stub : Bool := false
  channel : Bool := false
  agentId : StdString := []
  policyVersion : Int := 0
  connState : ConnectionState := .disconnected
  registered : Bool := false
  heartbeatRunning : Bool := false
  backoffAttempt : Nat := 0
  intervalSeconds : Int := 60
deriving DecidableEq, Repr

/-- `kMaxBackoffAttempts` -/
def maxBackoffAttempts : Nat := 10

namespace GrpcClient

def enterBackoff (c : GrpcClient) : GrpcClient :=
  { c with
    connState := .backoff
    backoffAttempt := min (c.backoffAttempt + 1) maxBackoffAttempts }

def resetBackoff (c : GrpcClient) : GrpcClient :=
  { c with
    backoffAttempt := 0
    connState := if c.connState = .backoff then .connected else c.connState }

end GrpcClient

structure RegisterResponse where
  agentId : StdString := []
  success : Bool := false
  heartbeatIntervalSeconds : Int := 0
deriving DecidableEq, Repr

structure GetPoliciesResponse where
  policyVersion : Int := 0
  policiesSize : Nat := 0
deriving DecidableEq, Repr

structure AgentCommand where
  commandType : StdString := []
  parameters : List (StdString × StdString) := []
deriving DecidableEq, Repr

structure HeartbeatResponse where
  policyUpdateAvailable : Bool := false
  latestPolicyVersion : Int := 0
  commands : List AgentCommand := []
deriving DecidableEq, Repr

/-- The status of a `DetectContent` request. -/
inductive DetectStatus
  | ok
  | deadlineExceeded
  | failed
deriving DecidableEq, Repr

inductive MemberCall
  | start
  | stop
  | isHealthy
  | connect
  | disconnect
  | register (hostname osVersion agentVersion ipAddress : StdString)
  | pullPolicies (currentVersion : Int)
  | reportIncident
  | detectContent
  | getDiscoverScans
  | reportDiscoverResults
  | heartbeatThread
  | getConnectionState
  | getAgentId
  | getPolicyVersion
deriving DecidableEq, Repr

/-- The functions that take the mutex, or call one that does. -/
def MemberCall.locks : MemberCall → Bool
  | .isHealthy | .getConnectionState | .getAgentId | .getPolicyVersion => false
  | .start | .stop | .connect | .disconnect | .register .. | .pullPolicies _ | .reportIncident
  | .detectContent | .getDiscoverScans | .reportDiscoverResults | .heartbeatThread => true

/-- The member calls of the callbacks that are set. -/
structure ClientCallbacks where
  policy : Option (GetPoliciesResponse → List MemberCall) := none
  command : Option (AgentCommand → List MemberCall) := none
  driverStatus : Option (List MemberCall) := none

/-- The callbacks of `main`: it sets none for policies, the one for commands leaves the
report of a scan to a thread of its own, and the driver's status is read from the driver. -/
def mainCallbacks : ClientCallbacks where
  command := some fun _ => []
  driverStatus := some []

inductive ClientReply
  | void
  | bool (b : Bool)
  | state (s : ConnectionState)
  | text (s : StdString)
  | number (n : Int)
deriving DecidableEq, Repr

def ClientReply.asBool : ClientReply → Bool
  | .bool b => b
  | .void | .state _ | .text _ | .number _ => false

inductive ClientAccess
  | data
  | createChannel
  | waitForConnected
  | hostname
  | driverStatus
  | register
  | getPolicies
  | reportIncident
  | detectContent
  | getDiscoverScans
  | reportDiscoverResults
  | heartbeat
deriving DecidableEq, Repr

/-- `none` is a status that is not ok. For the reports it is the `success` field that
counts. -/
abbrev ClientAnswer : ClientAccess → Type
  | .data => Unit
  | .createChannel | .waitForConnected | .driverStatus => Bool
  | .hostname => StdString × StdString
  | .register => Option RegisterResponse
  | .getPolicies => Option GetPoliciesResponse
  | .reportIncident | .reportDiscoverResults => Option Bool
  | .detectContent => DetectStatus
  | .getDiscoverScans => Option Unit
  | .heartbeat => Option HeartbeatResponse

inductive ClientMutex
  | stub
deriving DecidableEq, Repr

abbrev ClientProg : Type := Prog ClientMutex MemberCall GrpcClient ClientReply ClientAnswer

namespace ClientProg

/-! ## The member functions -/

def read (k : GrpcClient → ClientProg) : ClientProg := .access .data (fun c _ => c) fun c _ => k c

def write (f : GrpcClient → GrpcClient) (k : ClientProg) : ClientProg :=
  .access .data (fun c _ => f c) fun _ _ => k

/-- The end of a scope with a `lock_guard`. -/
def unlockReturn (b : Bool) : ClientProg := .unlock .stub <| .ret (.bool b)

/-- The member calls of a callback. -/
def calls : List MemberCall → ClientProg → ClientProg
  | [], k => k
  | c :: cs, k => .call c fun _ => calls cs k

def connect : ClientProg :=
  write (fun c => { c with connState := .connecting }) <|
  .access .createChannel (fun c created => { c with channel := created }) fun _ created =>
    if !created then write (fun c => { c with connState := .disconnected }) <| .ret (.bool false)
    else
      .access .waitForConnected (fun c _ => c) fun _ _ =>
      .guarded .stub .data (fun c _ => { c with stub := true }) fun _ _ =>
      write (fun c => { c with connState := .connected }.resetBackoff) <| .ret (.bool true)

def disconnect : ClientProg :=
  .guarded .stub .data (fun c _ => { c with stub := false }) fun _ _ =>
  write (fun c => { c with channel := false, connState := .disconnected, registered := false }) <|
  .ret .void

/-- Take the lock, check the stub (and the agent id), and send the request. -/
def rpc (needsAgent : Bool) (q : ClientAccess) (f : GrpcClient → ClientAnswer q → GrpcClient)
    (k : ClientAnswer q → ClientProg) : ClientProg :=
  .lock .stub <| read fun c =>
    if !c.stub || (needsAgent && c.agentId.isEmpty) then unlockReturn false
    else .access q f fun _ answer => k answer

def register : ClientProg :=
  rpc false .register
    (fun c answer =>
      match answer with
      | none => c
      | some response =>
          if !response.success then c
          else
            { c with
              agentId := response.agentId
              registered := true
              intervalSeconds :=
                if response.heartbeatIntervalSeconds > 0 then response.heartbeatIntervalSeconds
                else c.intervalSeconds })
    fun answer => unlockReturn (answer.any fun response => response.success)

def pullPolicies (callbacks : ClientCallbacks) : ClientProg :=
  rpc true .getPolicies
    (fun c answer =>
      match answer with
      | none => c
      | some response => { c with policyVersion := response.policyVersion })
    fun answer =>
      match answer with
      | none => unlockReturn false
      | some response =>
          match callbacks.policy with
          | none => unlockReturn true
          | some callback => calls (callback response) (unlockReturn true)

def reportIncident : ClientProg :=
  rpc true .reportIncident (fun c _ => c) fun answer => unlockReturn (answer.getD false)

/-- A timeout is answered with the fallback verdict. -/
def detectContent : ClientProg :=
  rpc false .detectContent (fun c _ => c) fun status => unlockReturn (status != .failed)

def getDiscoverScans : ClientProg :=
  rpc true .getDiscoverScans (fun c _ => c) fun answer => unlockReturn answer.isSome

def reportDiscoverResults : ClientProg :=
  rpc false .reportDiscoverResults (fun c _ => c) fun answer => unlockReturn (answer.getD false)

/-! ## The heartbeat -/

/-- `continue`: the loop as a call at the end. -/
def continueLoop : ClientProg := .call .heartbeatThread fun _ => .ret .void

def runCommands (callbacks : ClientCallbacks) : List AgentCommand → ClientProg → ClientProg
  | [], k => k
  | cmd :: cmds, k =>
      match callbacks.command with
      | none => runCommands callbacks cmds k
      | some callback => calls (callback cmd) (runCommands callbacks cmds k)

/-- The block with the lock: the driver's status, the request, and what the response
asks for. -/
def sendHeartbeat (callbacks : ClientCallbacks) : ClientProg :=
  let send : ClientProg :=
    .access .heartbeat
      (fun c answer => if answer.isSome then c.resetBackoff else c.enterBackoff)
      fun _ answer =>
        match answer with
        | none => .unlock .stub continueLoop
        | some response =>
            let commands := runCommands callbacks response.commands (.unlock .stub continueLoop)
            if response.policyUpdateAvailable then
              read fun c => .call (.pullPolicies c.policyVersion) fun _ => commands
            else commands
  .lock .stub <| read fun c =>
    if !c.stub || c.agentId.isEmpty then .unlock .stub continueLoop
    else
      match callbacks.driverStatus with
      | none => send
      | some status => .access .driverStatus (fun c _ => c) fun _ _ => calls status send

def registerIfNeeded (callbacks : ClientCallbacks) : ClientProg :=
  read fun c =>
    if c.registered then sendHeartbeat callbacks
    else
      .access .hostname (fun c _ => c) fun _ names =>
      .call (.register names.1 (str "Windows") (str "0.1.0") names.2) fun reply =>
        if reply.asBool then sendHeartbeat callbacks
        else write (fun c => c.enterBackoff) continueLoop

/-- One round; the pauses are left out, but not the test after the first one. -/
def heartbeatThread (callbacks : ClientCallbacks) : ClientProg :=
  read fun c =>
    if !c.heartbeatRunning then .ret .void
    else
      read fun c =>
        if !c.heartbeatRunning then .ret .void
        else if c.connState = .connected then registerIfNeeded callbacks
        else
          .call .connect fun reply =>
            if reply.asBool then registerIfNeeded callbacks
            else write (fun c => c.enterBackoff) continueLoop

/-! ## Start and stop -/

/-- A connection that fails does not fail the start. -/
def start : ClientProg :=
  .call .connect fun _ =>
  write (fun c => { c with heartbeatRunning := true }) <| .ret (.bool true)

def stop : ClientProg :=
  write (fun c => { c with heartbeatRunning := false }) <|
  .call .disconnect fun _ => .ret .void

end ClientProg

abbrev ClientWorld : Type := World ClientMutex MemberCall GrpcClient ClientReply ClientAnswer

def clientBody (callbacks : ClientCallbacks) : MemberCall → ClientProg
  | .start => ClientProg.start
  | .stop => ClientProg.stop
  | .isHealthy => ClientProg.read fun c => .ret (.bool (c.connState == .connected))
  | .connect => ClientProg.connect
  | .disconnect => ClientProg.disconnect
  | .register _ _ _ _ => ClientProg.register
  | .pullPolicies _ => ClientProg.pullPolicies callbacks
  | .reportIncident => ClientProg.reportIncident
  | .detectContent => ClientProg.detectContent
  | .getDiscoverScans => ClientProg.getDiscoverScans
  | .reportDiscoverResults => ClientProg.reportDiscoverResults
  | .heartbeatThread => ClientProg.heartbeatThread callbacks
  | .getConnectionState => ClientProg.read fun c => .ret (.state c.connState)
  | .getAgentId => ClientProg.read fun c => .ret (.text c.agentId)
  | .getPolicyVersion => ClientProg.read fun c => .ret (.number c.policyVersion)

/-- Any threads call the member functions of a new client. -/
def clientThreads (callbacks : ClientCallbacks) :
    TSys ClientWorld (Move MemberCall ClientAnswer) :=
  system (clientBody callbacks) fun c => c = {}

/-- No thread that holds the mutex is about to lock it. -/
def NeverRelocks (w : ClientWorld) : Prop :=
  ∀ t m, w.wants t = some m → w.owner m ≠ some t

/-- No heartbeat is answered with a policy update, and no callback that runs under the
lock makes a call that locks. -/
def Quiet (callbacks : ClientCallbacks) : ∀ q, GrpcClient → ClientAnswer q → Prop
  | .heartbeat, _, answer => ∀ response ∈ answer,
      response.policyUpdateAvailable = false ∧
        ∀ cmd ∈ response.commands, ∀ callback ∈ callbacks.command,
          ∀ c ∈ callback cmd, c.locks = false
  | .getPolicies, _, answer => ∀ response ∈ answer, ∀ callback ∈ callbacks.policy,
      ∀ c ∈ callback response, c.locks = false
  | .driverStatus, _, _ => ∀ status ∈ callbacks.driverStatus, ∀ c ∈ status, c.locks = false
  | .data, _, _ | .createChannel, _, _ | .waitForConnected, _, _ | .hostname, _, _
  | .register, _, _ | .reportIncident, _, _ | .detectContent, _, _ | .getDiscoverScans, _, _
  | .reportDiscoverResults, _, _ => True

/-! ## Every function passes the check -/

/-- A function may be called without the mutex, or if it does not lock. -/
def ClientCallable (c : MemberCall) (held : List ClientMutex) : Prop :=
  held = [] ∨ c.locks = false

namespace ClientProg

variable {callbacks : ClientCallbacks} {held : List ClientMutex} {k : ClientProg}

/-- The check of a program that returns without the mutex. -/
def Passes (callbacks : ClientCallbacks) (held : List ClientMutex) (p : ClientProg) : Prop :=
  Checked (fun _ => 0) (Quiet callbacks) ClientCallable [] held p

theorem passes_unlockReturn {b : Bool} : Passes callbacks [.stub] (unlockReturn b) :=
  ⟨[], rfl, rfl⟩

theorem passes_calls {cs : List MemberCall} (hcs : ∀ c ∈ cs, c.locks = false)
    (hk : Passes callbacks held k) : Passes callbacks held (calls cs k) := by
  induction cs with
  | nil => exact hk
  | cons c cs ih =>
      rw [List.forall_mem_cons] at hcs
      exact ⟨.inr hcs.1, fun _ => ih hcs.2⟩

theorem passes_rpc {needsAgent : Bool} {q : ClientAccess}
    {f : GrpcClient → ClientAnswer q → GrpcClient} {k : ClientAnswer q → ClientProg}
    (hk : ∀ c answer, Quiet callbacks q c answer → Passes callbacks [.stub] (k answer)) :
    Passes callbacks [] (rpc needsAgent q f k) := by
  refine ⟨by simp, fun c _ _ => ?_⟩
  dsimp only
  split
  · exact passes_unlockReturn
  · exact hk

theorem passes_connect : Passes callbacks [] connect := by
  intro _ _ _ _ created _
  dsimp only
  split
  · exact fun _ _ _ => rfl
  · exact fun _ _ _ => checked_guarded (by simp) fun _ _ _ _ _ _ => rfl

theorem passes_disconnect : Passes callbacks [] disconnect :=
  checked_guarded (by simp) fun _ _ _ _ _ _ => rfl

theorem passes_pullPolicies : Passes callbacks [] (pullPolicies callbacks) := by
  refine passes_rpc fun _ answer hquiet => ?_
  cases answer with
  | none => exact passes_unlockReturn
  | some response =>
      dsimp only
      split
      · exact passes_unlockReturn
      · next callback hcallback =>
          exact passes_calls (hquiet response rfl callback hcallback) passes_unlockReturn

theorem passes_continueLoop : Passes callbacks [] continueLoop := ⟨.inl rfl, fun _ => rfl⟩

theorem passes_unlockContinue : Passes callbacks [.stub] (.unlock .stub continueLoop) :=
  ⟨[], rfl, passes_continueLoop⟩

theorem passes_runCommands {cmds : List AgentCommand}
    (hcmds : ∀ cmd ∈ cmds, ∀ callback ∈ callbacks.command, ∀ c ∈ callback cmd, c.locks = false)
    (hk : Passes callbacks held k) : Passes callbacks held (runCommands callbacks cmds k) := by
  induction cmds with
  | nil => exact hk
  | cons cmd cmds ih =>
      rw [List.forall_mem_cons] at hcmds
      have hmore := ih hcmds.2
      rw [runCommands]
      split
      · exact hmore
      · next callback hcallback => exact passes_calls (hcmds.1 callback hcallback) hmore

theorem passes_sendHeartbeat : Passes callbacks [] (sendHeartbeat callbacks) := by
  refine ⟨by simp, fun c _ _ => ?_⟩
  dsimp only
  split
  · exact passes_unlockContinue
  · have hsend : Passes callbacks [.stub] (.access .heartbeat
        (fun c answer => if answer.isSome then c.resetBackoff else c.enterBackoff)
        fun _ answer =>
          match answer with
          | none => .unlock .stub continueLoop
          | some response =>
              let commands := runCommands callbacks response.commands (.unlock .stub continueLoop)
              if response.policyUpdateAvailable then
                read fun c => .call (.pullPolicies c.policyVersion) fun _ => commands
              else commands) := by
      intro _ answer hquiet
      cases answer with
      | none => exact passes_unlockContinue
      | some response =>
          -- the call of `PullPolicies` would not pass
          obtain ⟨hupdate, hcommands⟩ := hquiet response rfl
          simp only [hupdate, Bool.false_eq_true, if_false]
          exact passes_runCommands hcommands passes_unlockContinue
    split
    · exact hsend
    · next status hstatus =>
        exact fun _ _ hquiet => passes_calls (hquiet status hstatus) hsend

theorem passes_registerIfNeeded : Passes callbacks [] (registerIfNeeded callbacks) := by
  intro c _ _
  dsimp only
  split
  · exact passes_sendHeartbeat
  · refine fun _ names _ => ⟨.inl rfl, fun reply => ?_⟩
    dsimp only
    split
    · exact passes_sendHeartbeat
    · exact fun _ _ _ => passes_continueLoop

theorem passes_heartbeatThread : Passes callbacks [] (heartbeatThread callbacks) := by
  intro c _ _
  dsimp only
  split
  · exact rfl
  · intro c _ _
    dsimp only
    split
    · exact rfl
    · split
      · exact passes_registerIfNeeded
      · refine ⟨.inl rfl, fun reply => ?_⟩
        dsimp only
        split
        · exact passes_registerIfNeeded
        · exact fun _ _ _ => passes_continueLoop

/-- The functions that do not lock only read. -/
theorem checked_of_not_locks {c : MemberCall} (hc : c.locks = false) :
    Checked (fun _ => 0) (Quiet callbacks) ClientCallable held held (clientBody callbacks c) := by
  cases c with
  | isHealthy | getConnectionState | getAgentId | getPolicyVersion => exact fun _ _ _ => rfl
  | start | stop | connect | disconnect | register | pullPolicies | reportIncident
  | detectContent | getDiscoverScans | reportDiscoverResults | heartbeatThread => cases hc

theorem passes_body (c : MemberCall) : Passes callbacks [] (clientBody callbacks c) := by
  cases c with
  | start => exact ⟨.inl rfl, fun _ _ _ _ => rfl⟩
  | stop => exact fun _ _ _ => ⟨.inl rfl, fun _ => rfl⟩
  | isHealthy | getConnectionState | getAgentId | getPolicyVersion =>
      exact checked_of_not_locks rfl
  | connect => exact passes_connect
  | disconnect => exact passes_disconnect
  | pullPolicies => exact passes_pullPolicies
  | register | reportIncident | detectContent | getDiscoverScans | reportDiscoverResults =>
      exact passes_rpc fun _ _ _ => passes_unlockReturn
  | heartbeatThread => exact passes_heartbeatThread

end ClientProg

/-! ## No relocking -/

theorem neverRelocks_of_quiet (callbacks : ClientCallbacks) :
    (clientThreads callbacks).InvariantBy (AccessOk (Quiet callbacks)) NeverRelocks := by
  intro w hw t m hwants howner
  have hbody : ∀ c held, ClientCallable c held → Checked (fun _ => 0) (Quiet callbacks)
      ClientCallable held held (clientBody callbacks c) := by
    rintro c held (rfl | hc)
    · exact ClientProg.passes_body c
    · exact ClientProg.checked_of_not_locks hc
  have hordered := ordered_invariantBy hbody (fun _ => .inl rfl) w hw
  exact Nat.lt_irrefl 0 (hordered t m m hwants howner)

section examples

/-- A server that answers every request; `update` is what it says of the policies. -/
private def serverAnswer (update : Bool) : ∀ q, ClientAnswer q
  | .data => ()
  | .createChannel | .waitForConnected | .driverStatus => true
  | .hostname => (str "host", str "10.0.0.1")
  | .register => some { agentId := str "agent", success := true }
  | .getPolicies => some {}
  | .reportIncident | .reportDiscoverResults => some true
  | .detectContent => .ok
  | .getDiscoverScans => some ()
  | .heartbeat =>
      some { policyUpdateAvailable := update
             commands := [{ commandType := str "run_discover" }] }

/-- A call by an idle thread, and `n` steps of it. -/
private def callFor (t : Nat) (c : MemberCall) (n : Nat) (update : Bool) :
    List (Move MemberCall ClientAnswer) :=
  .start t c :: List.replicate n (.run t (serverAnswer update))

private theorem newClient_init (callbacks : ClientCallbacks) :
    (clientThreads callbacks).init (World.idle {}) :=
  ⟨{}, rfl, rfl⟩

private theorem accessOk_callFor {t n : Nat} {c : MemberCall} :
    ∀ move ∈ callFor t c n false, ∀ w : ClientWorld, AccessOk (Quiet mainCallbacks) w move := by
  intro move hmove w
  rcases List.mem_cons.mp hmove with rfl | hmove
  · trivial
  · rw [List.eq_of_mem_replicate hmove]
    refine accessOk_of_nextAccess fun q _ => ?_
    cases q with
    | heartbeat => simp [Quiet, serverAnswer, mainCallbacks]
    | getPolicies => simp [Quiet, mainCallbacks]
    | driverStatus => simp [Quiet, mainCallbacks]
    | data | createChannel | waitForConnected | hostname | register | reportIncident
    | detectContent | getDiscoverScans | reportDiscoverResults => trivial

/-- After one heartbeat with a command, the next one waits for a report. -/
theorem neverRelocks_heartbeats :
    ∃ w, (clientThreads mainCallbacks).run (World.idle {})
        (callFor 0 .start 11 false ++ callFor 1 .heartbeatThread 19 false ++
          callFor 2 .reportIncident 1 false) = some w ∧
      (w.wants 1, w.owner .stub) = (some .stub, some 2) ∧ NeverRelocks w := by
  have hrun : ((clientThreads mainCallbacks).run (World.idle {})
      (callFor 0 .start 11 false ++ callFor 1 .heartbeatThread 19 false ++
        callFor 2 .reportIncident 1 false)).map (fun w => (w.wants 1, w.owner .stub)) =
      some (some .stub, some 2) := by
    decide +kernel
  obtain ⟨w, hw, hwaits⟩ := Option.map_eq_some_iff.mp hrun
  refine ⟨w, hw, hwaits, neverRelocks_of_quiet mainCallbacks w ?_⟩
  refine TSys.reachableBy_run (.init (newClient_init _)) _ (TSys.runOk_of_forall ?_ _) hw
  intro move hmove
  simp only [List.mem_append] at hmove
  rcases hmove with (hmove | hmove) | hmove
  · exact accessOk_callFor move hmove
  · exact accessOk_callFor move hmove
  · exact accessOk_callFor move hmove

/-- The first heartbeat is answered with a policy update. -/
theorem not_neverRelocks :
    ¬ ∀ callbacks : ClientCallbacks,
        (clientThreads callbacks).InvariantBy (fun _ _ => True) NeverRelocks := by
  intro hclaim
  have hrun : ((clientThreads mainCallbacks).run (World.idle {})
      (callFor 0 .start 11 true ++ callFor 1 .heartbeatThread 16 true)).map
        (fun w => (w.wants 1, w.owner .stub)) = some (some .stub, some 1) := by
    decide +kernel
  obtain ⟨w, hw, hwaits⟩ := Option.map_eq_some_iff.mp hrun
  simp only [Prod.mk.injEq] at hwaits
  have hstart : (clientThreads mainCallbacks).Reachable (World.idle {}) :=
    .init (newClient_init _)
  exact hclaim mainCallbacks w (TSys.reachable_run hstart _ hw) 1 .stub hwaits.1 hwaits.2

end examples

end AkesoDlp.Agent
