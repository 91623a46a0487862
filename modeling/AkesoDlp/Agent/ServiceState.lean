import AkesoDlp.Lib.TSys
import Mathlib.Data.List.Basic

/-!
# The state of the agent service

`AgentService` as a Windows service or in console mode: the thread of
`ServiceMain` or `RunConsole`, the control handlers, the watchdog thread and
callers of `TransitionToEnforcing` interleave statement by statement. Each of
them writes `state_` without looking at it. Every write of a run is recorded
with the state that it replaced.
-/

namespace AkesoDlp.Agent.ServiceState

open Lib

inductive AgentState
  | stopped
  | starting
  | running
  | stopping
  | error
  | logOnly
  | enforcing
deriving DecidableEq, Repr

inductive Mode
  | service
  | console
deriving DecidableEq, Repr

/-- `dwCurrentState`. -/
inductive ScmState
  | startPending
  | running
  | stopPending
  | stopped
deriving DecidableEq, Repr

/-- `dwControlsAccepted`, as `ReportServiceStatus` sets it with a state; nothing
is accepted before the first report. -/
def acceptsStop : Option ScmState → Bool
  | none => false
  | some state => decide (state ≠ .startPending)

/-- The next statement of `ServiceMain` or `RunConsole`, with `Initialize`,
`StartComponents` and `Shutdown` in line. -/
inductive MainPc
  | register
  | reportPending
  | storeStarting
  | storeMode
  | startComponents
  | stopFailed
  | reportRunning
  | wait
  | storeStopping
  | clearWatchdog
  | joinWatchdog
  | storeStopped
  | reportStopped
  | done
deriving DecidableEq, Repr

/-- Start-up has stored its last state. -/
def MainPc.started : MainPc → Bool
  | .register | .reportPending | .storeStarting | .storeMode => false
  | _ => true

/-- The watchdog thread; in its pass over the components, `left` are to be checked. -/
inductive WatchdogPc
  | absent
  | sleeping
  | checking (left : Nat)
  | ended
deriving DecidableEq, Repr

/-- Control handlers are counted by their next statement: the store to `state_`
or `SetEvent`. -/
structure AgentService where
  state : AgentState := .stopped
  writes : List (AgentState × AgentState) := []
  main : MainPc := .register
  registered : Bool := false
  /-- What `ReportServiceStatus` was last called with. -/
  status : Option ScmState := none
  storing : Nat := 0
  signalling : Nat := 0
  stopEvent : Bool := false
  watchdogRunning : Bool := false
  watchdog : WatchdogPc := .absent
deriving DecidableEq, Repr

inductive ServiceAction
  /-- `succeeds` answers for the policy cache file or for the components. -/
  | main (succeeds : Bool)
  | control
  | interrogate
  | handlerStore
  | handlerSignal
  | watchdogWake
  /-- A component is healthy or restarted, or its restart fails. -/
  | watchdogCheck (restartFails : Bool)
  | transitionToEnforcing
deriving DecidableEq, Repr

/-- A store to `state_`, or an exchange. -/
def AgentService.store (s : AgentService) (state : AgentState) : AgentService :=
  { s with state := state, writes := s.writes ++ [(s.state, state)] }

/-- What `ServiceMain` reports and `RunConsole` does not. -/
def Mode.next (mode : Mode) (inService inConsole : MainPc) : MainPc :=
  match mode with
  | .service => inService
  | .console => inConsole

def mainStep (mode : Mode) (s : AgentService) (succeeds : Bool) : Option AgentService :=
  match s.main with
  | .register =>
      some { s with registered := true, main := mode.next .reportPending .storeStarting }
  | .reportPending => some { s with status := some .startPending, main := .storeStarting }
  | .storeStarting => some { s.store .starting with main := .storeMode }
  | .storeMode =>
      some { s.store (if succeeds then .enforcing else .logOnly) with main := .startComponents }
  | .startComponents =>
      if succeeds then
        some { s with
          watchdogRunning := true
          watchdog := .sleeping
          main := mode.next .reportRunning .wait }
      else some { s with main := .stopFailed }
  | .stopFailed =>
      -- no watchdog has been started, so there is none to join
      some { s with watchdogRunning := false, main := mode.next .reportStopped .done }
  | .reportRunning => some { s with status := some .running, main := .wait }
  | .wait => if s.stopEvent then some { s with main := .storeStopping } else none
  | .storeStopping => some { s.store .stopping with main := .clearWatchdog }
  | .clearWatchdog => some { s with watchdogRunning := false, main := .joinWatchdog }
  | .joinWatchdog => if s.watchdog = .ended then some { s with main := .storeStopped } else none
  | .storeStopped => some { s.store .stopped with main := mode.next .reportStopped .done }
  | .reportStopped => some { s with status := some .stopped, main := .done }
  | .done => none

/-- A control handler is entered. The control manager sends a stop to a service
that accepts it, one at a time; the console starts a thread for every event. -/
def enterHandler (mode : Mode) (s : AgentService) : Option AgentService :=
  match mode with
  | .service =>
      if s.registered && acceptsStop s.status && decide (s.status ≠ some .stopped) &&
          decide (s.storing = 0 ∧ s.signalling = 0) then
        some { s with status := some .stopPending, storing := 1 }
      else none
  | .console => if s.registered then some { s with storing := s.storing + 1 } else none

/-- One statement of one thread. -/
def serviceStep (mode : Mode) (components : Nat) (s : AgentService) :
    ServiceAction → Option AgentService
  | .main succeeds => mainStep mode s succeeds
  | .control => enterHandler mode s
  | .interrogate =>
      -- before the first report there is no state that could be reported again
      s.status.map fun state => { s with status := some state }
  | .handlerStore =>
      if 0 < s.storing then
        some { s.store .stopping with storing := s.storing - 1, signalling := s.signalling + 1 }
      else none
  | .handlerSignal =>
      if 0 < s.signalling then some { s with signalling := s.signalling - 1, stopEvent := true }
      else none
  | .watchdogWake =>
      match s.watchdog with
      | .sleeping =>
          some { s with watchdog := if s.watchdogRunning then .checking components else .ended }
      | .checking 0 => some { s with watchdog := if s.watchdogRunning then .sleeping else .ended }
      | _ => none
  | .watchdogCheck restartFails =>
      match s.watchdog with
      | .checking (left + 1) =>
          if restartFails then some { s.store .logOnly with watchdog := .checking left }
          else some { s with watchdog := .checking left }
      | _ => none
  | .transitionToEnforcing => some (s.store .enforcing)

/-- All interleavings, in a mode and for a number of components. -/
def service (mode : Mode) (components : Nat) : TSys AgentService ServiceAction where
  init s := s = {}
  step := serviceStep mode components

/-- From `stopping` the only other state that is entered is `stopped`. -/
def OnlyForward (s : AgentService) : Prop :=
  ∀ w ∈ s.writes, w.1 = .stopping → w.2 = .stopping ∨ w.2 = .stopped

/-- The console handler stores its state after start-up has stored its own, and
neither a failed restart nor `TransitionToEnforcing` comes after a stop. -/
def InOrder (mode : Mode) (s : AgentService) : ServiceAction → Prop
  | .handlerStore => mode = .console → s.main.started = true
  | .watchdogCheck true => s.state ≠ .stopping
  | .transitionToEnforcing => s.state ≠ .stopping
  | _ => True

instance decidableInOrder (mode : Mode) (s : AgentService) :
    (a : ServiceAction) → Decidable (InOrder mode s a)
  | .handlerStore => inferInstanceAs (Decidable (mode = .console → s.main.started = true))
  | .watchdogCheck true => inferInstanceAs (Decidable (s.state ≠ .stopping))
  | .transitionToEnforcing => inferInstanceAs (Decidable (s.state ≠ .stopping))
  | .watchdogCheck false => isTrue trivial
  | .main _ => isTrue trivial
  | .control => isTrue trivial
  | .interrogate => isTrue trivial
  | .handlerSignal => isTrue trivial
  | .watchdogWake => isTrue trivial

/-! ## What a step writes -/

variable {mode : Mode} {components : Nat} {s s' : AgentService} {a : ServiceAction}

/-- The next state is not a step back from the present one. -/
def Follows (state next : AgentState) : Prop :=
  state = .stopping → next = .stopping ∨ next = .stopped

/-- The law, and that nothing is stopping before start-up is over: then no
handler of a service has been entered. -/
structure Orderly (mode : Mode) (s : AgentService) : Prop where
  forward : OnlyForward s
  startup : s.main.started = false → s.state ≠ .stopping
  accepts : acceptsStop s.status = true → s.main.started = true
  handlers : mode = .service → 0 < s.storing → s.main.started = true

theorem onlyForward_store {state : AgentState} (h : OnlyForward s) (hnext : Follows s.state state) :
    OnlyForward (s.store state) := by
  intro w hw
  rcases List.mem_append.mp hw with hold | hnew
  · exact h w hold
  · rw [List.mem_singleton.mp hnew]
    exact hnext

theorem started_next {inService inConsole : MainPc} (h : inService.started = inConsole.started) :
    (mode.next inService inConsole).started = inService.started := by
  cases mode with
  | service => rfl
  | console => exact h.symm

/-- Once start-up is over, only the forward direction is left to keep. -/
theorem orderly_of_started (hforward : OnlyForward s) (hstarted : s.main.started = true) :
    Orderly mode s where
  forward := hforward
  startup h := by
    rw [hstarted] at h
    cases h
  accepts _ := hstarted
  handlers _ _ := hstarted

/-- After start-up the main thread stores nothing but `stopping` and `stopped`. -/
theorem mainStep_started {succeeds : Bool} (h : mainStep mode s succeeds = some s')
    (hforward : OnlyForward s) (hstarted : s.main.started = true) :
    OnlyForward s' ∧ s'.main.started = true := by
  unfold mainStep at h
  cases hmain : s.main with
  | register => simp [hmain, MainPc.started] at hstarted
  | reportPending => simp [hmain, MainPc.started] at hstarted
  | storeStarting => simp [hmain, MainPc.started] at hstarted
  | storeMode => simp [hmain, MainPc.started] at hstarted
  | startComponents =>
      simp only [hmain] at h
      split at h
      · cases h
        exact ⟨hforward, started_next rfl⟩
      · cases h
        exact ⟨hforward, rfl⟩
  | stopFailed =>
      simp only [hmain, Option.some.injEq] at h
      subst h
      exact ⟨hforward, started_next rfl⟩
  | reportRunning =>
      simp only [hmain, Option.some.injEq] at h
      subst h
      exact ⟨hforward, rfl⟩
  | wait =>
      simp only [hmain, Option.ite_none_right_eq_some, Option.some.injEq] at h
      obtain ⟨-, rfl⟩ := h
      exact ⟨hforward, rfl⟩
  | storeStopping =>
      simp only [hmain, Option.some.injEq] at h
      subst h
      exact ⟨onlyForward_store hforward fun _ => .inl rfl, rfl⟩
  | clearWatchdog =>
      simp only [hmain, Option.some.injEq] at h
      subst h
      exact ⟨hforward, rfl⟩
  | joinWatchdog =>
      simp only [hmain, Option.ite_none_right_eq_some, Option.some.injEq] at h
      obtain ⟨-, rfl⟩ := h
      exact ⟨hforward, rfl⟩
  | storeStopped =>
      simp only [hmain, Option.some.injEq] at h
      subst h
      exact ⟨onlyForward_store hforward fun _ => .inr rfl, started_next rfl⟩
  | reportStopped =>
      simp only [hmain, Option.some.injEq] at h
      subst h
      exact ⟨hforward, rfl⟩
  | done => simp [hmain] at h

theorem orderly_main {succeeds : Bool} (hs : Orderly mode s)
    (h : mainStep mode s succeeds = some s') : Orderly mode s' := by
  cases hstarted : s.main.started with
  | true =>
      obtain ⟨hforward, hstarted'⟩ := mainStep_started h hs.forward hstarted
      exact orderly_of_started hforward hstarted'
  | false =>
      have hnot : s.state ≠ .stopping := hs.startup hstarted
      have hrefuses : acceptsStop s.status ≠ true := fun haccepts => by
        rw [hs.accepts haccepts] at hstarted
        cases hstarted
      have hnone : mode = .service → ¬ 0 < s.storing := fun hmode hstoring => by
        rw [hs.handlers hmode hstoring] at hstarted
        cases hstarted
      unfold mainStep at h
      cases hmain : s.main with
      | register =>
          simp only [hmain, Option.some.injEq] at h
          subst h
          exact ⟨hs.forward, fun _ => hnot, fun haccepts => absurd haccepts hrefuses,
            fun hmode hstoring => absurd hstoring (hnone hmode)⟩
      | reportPending =>
          simp only [hmain, Option.some.injEq] at h
          subst h
          exact ⟨hs.forward, fun _ => hnot, fun haccepts =>
            absurd (show acceptsStop (some .startPending) = true from haccepts) (by decide),
            fun hmode hstoring => absurd hstoring (hnone hmode)⟩
      | storeStarting =>
          simp only [hmain, Option.some.injEq] at h
          subst h
          exact ⟨onlyForward_store hs.forward fun hstopping => absurd hstopping hnot,
            fun _ => AgentState.noConfusion, fun haccepts => absurd haccepts hrefuses,
            fun hmode hstoring => absurd hstoring (hnone hmode)⟩
      | storeMode =>
          simp only [hmain, Option.some.injEq] at h
          subst h
          exact orderly_of_started
            (onlyForward_store hs.forward fun hstopping => absurd hstopping hnot) rfl
      | _ => simp [hmain, MainPc.started] at hstarted

theorem orderly_control (hs : Orderly mode s) (h : enterHandler mode s = some s') :
    Orderly mode s' := by
  cases mode with
  | service =>
      simp only [enterHandler, Option.ite_none_right_eq_some, Bool.and_eq_true,
        Option.some.injEq] at h
      obtain ⟨⟨⟨⟨-, haccepts⟩, -⟩, -⟩, rfl⟩ := h
      exact orderly_of_started hs.forward (hs.accepts haccepts)
  | console =>
      simp only [enterHandler, Option.ite_none_right_eq_some, Option.some.injEq] at h
      obtain ⟨-, rfl⟩ := h
      exact ⟨hs.forward, hs.startup, hs.accepts, fun hmode => Mode.noConfusion hmode⟩

theorem serviceStep_orderly (hs : Orderly mode s) (hok : InOrder mode s a)
    (h : serviceStep mode components s a = some s') : Orderly mode s' := by
  cases a with
  | main succeeds => exact orderly_main hs h
  | control => exact orderly_control hs h
  | interrogate =>
      obtain ⟨state, hstate, rfl⟩ := Option.map_eq_some_iff.mp h
      rw [← hstate]
      exact ⟨hs.forward, hs.startup, hs.accepts, hs.handlers⟩
  | handlerStore =>
      simp only [serviceStep, Option.ite_none_right_eq_some, Option.some.injEq] at h
      obtain ⟨hstoring, rfl⟩ := h
      have hstarted : s.main.started = true := by
        cases mode with
        | service => exact hs.handlers rfl hstoring
        | console => exact hok rfl
      exact orderly_of_started (onlyForward_store hs.forward fun _ => .inl rfl) hstarted
  | handlerSignal =>
      simp only [serviceStep, Option.ite_none_right_eq_some, Option.some.injEq] at h
      obtain ⟨-, rfl⟩ := h
      exact ⟨hs.forward, hs.startup, hs.accepts, hs.handlers⟩
  | watchdogWake =>
      simp only [serviceStep] at h
      split at h
      · cases h
        exact ⟨hs.forward, hs.startup, hs.accepts, hs.handlers⟩
      · cases h
        exact ⟨hs.forward, hs.startup, hs.accepts, hs.handlers⟩
      · cases h
  | watchdogCheck restartFails =>
      simp only [serviceStep] at h
      split at h
      · cases restartFails with
        | true =>
            rw [if_pos rfl, Option.some.injEq] at h
            subst h
            exact ⟨onlyForward_store hs.forward fun hstopping => absurd hstopping hok,
              fun _ => AgentState.noConfusion, hs.accepts, hs.handlers⟩
        | false =>
            rw [if_neg Bool.false_ne_true, Option.some.injEq] at h
            subst h
            exact ⟨hs.forward, hs.startup, hs.accepts, hs.handlers⟩
      · cases h
  | transitionToEnforcing =>
      simp only [serviceStep, Option.some.injEq] at h
      subst h
      exact ⟨onlyForward_store hs.forward fun hstopping => absurd hstopping hok,
        fun _ => AgentState.noConfusion, hs.accepts, hs.handlers⟩

theorem orderly_inductive (mode : Mode) (components : Nat) :
    (service mode components).InductiveBy (InOrder mode) (Orderly mode) where
  init := by
    rintro s rfl
    exact ⟨fun w hw => absurd hw List.not_mem_nil, fun _ => AgentState.noConfusion,
      fun haccepts => Bool.noConfusion haccepts, fun _ hstoring => absurd hstoring (by decide)⟩
  step _ _ _ hs hok hstep := serviceStep_orderly hs hok hstep

/-- In every interleaving that keeps to the order, a service that is stopping
enters no state but `stopped`. -/
theorem onlyForward_of_inOrder {mode : Mode} {components : Nat} {s : AgentService}
    (h : (service mode components).ReachableBy (InOrder mode) s) : OnlyForward s :=
  ((orderly_inductive mode components).invariant s h).forward

/-- A service with one component is started, stopped and joined. -/
def orderlyStop : List ServiceAction :=
  List.replicate 6 (.main true) ++
    [.control, .handlerStore, .handlerSignal, .main true, .main true, .main true, .watchdogWake,
      .main true, .main true]

/-- The stop of a healthy service ends in `stopped`. -/
theorem onlyForward_orderlyStop :
    ∃ s, (service .service 1).run {} orderlyStop = some s ∧ s.state = .stopped ∧ OnlyForward s := by
  have htest : (service .service 1).runAll (fun s a => decide (InOrder .service s a)) {}
      orderlyStop = true := by decide
  have hok := TSys.runOk_of_runAll (fun _ _ h => of_decide_eq_true h) htest
  have hrun : ((service .service 1).run {} orderlyStop).map (fun s => s.state) =
      some .stopped := by decide
  obtain ⟨s, hs, hstopped⟩ := Option.map_eq_some_iff.mp hrun
  exact ⟨s, hs, hstopped, onlyForward_of_inOrder (TSys.reachableBy_run (.init rfl) _ hok hs)⟩

/-- The stop comes while the watchdog restarts an unhealthy component. -/
def stopDuringRestart : List ServiceAction :=
  List.replicate 6 (.main true) ++ [.watchdogWake, .control, .handlerStore, .watchdogCheck true]

/-- The restart fails, and the stopping service is in log-only mode. -/
theorem stopping_to_logOnly :
    ¬ ∀ mode components s, (service mode components).Reachable s → OnlyForward s := by
  intro h
  have hrun : ((service .service 1).run {} stopDuringRestart).map (fun s => s.writes) =
      some [(.stopped, .starting), (.starting, .enforcing), (.enforcing, .stopping),
        (.stopping, .logOnly)] := by decide
  obtain ⟨s, hs, hwrites⟩ := Option.map_eq_some_iff.mp hrun
  have hforward := h .service 1 s (TSys.reachable_run (.init rfl) _ hs) (.stopping, .logOnly)
    (by
      rw [hwrites]
      decide) rfl
  exact absurd hforward (by decide)

end AkesoDlp.Agent.ServiceState
