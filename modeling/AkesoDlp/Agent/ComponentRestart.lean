import AkesoDlp.Lib.TSys
import Mathlib.Logic.Function.Basic

/-!
# Components with a worker thread

`ClipboardMonitor`, `BrowserUploadMonitor` and `DriverComm` each run one thread and
keep a flag `running_`. Their owner starts and stops them under `components_mutex_`,
one call after the other; the watchdog stops and starts a component that it finds
unhealthy. The statements of the owner and of the workers interleave in any order.
A loop may end at any time, so the signal by which `Stop` ends it needs no model.
-/

namespace AkesoDlp.Agent

open Lib

/-! ## The three components -/

/-- What tells the components apart: `setup` are the calls before the loop, after a
failure of which the worker clears `running_` and returns. -/
structure ComponentSpec where
  enabled : Bool := true
  /-- `Start` connects first, and `IsHealthy` looks at the connection. -/
  connects : Bool := false
  setup : List String := []
deriving DecidableEq, Repr

def clipboardMonitor (enabled : Bool) : ComponentSpec where
  enabled := enabled
  setup := ["CreateWindowEx", "AddClipboardFormatListener"]

def browserUploadMonitor (enabled : Bool) : ComponentSpec where
  enabled := enabled
  setup := ["StartTrace", "EnableTraceEx2", "OpenTrace"]

def driverComm : ComponentSpec where
  connects := true

inductive MonitoredComponent
  | clipboardMonitor (enabled : Bool)
  | browserUploadMonitor (enabled : Bool)
  | driverComm
deriving DecidableEq, Repr

def MonitoredComponent.spec : MonitoredComponent → ComponentSpec
  | .clipboardMonitor enabled => Agent.clipboardMonitor enabled
  | .browserUploadMonitor enabled => Agent.browserUploadMonitor enabled
  | .driverComm => Agent.driverComm

/-! ## The state -/

/-- The next statement of a worker. -/
inductive WorkerPc
  /-- The calls that are left before the loop; none in the loop. -/
  | setup (pending : List String)
  /-- `running_ = false` after a call that failed. -/
  | failed
  | leaving
  | ended
deriving DecidableEq, Repr

inductive StartPc
  | check
  | connect
  /-- `running_ = true`. -/
  | flag
  /-- The thread object on the right of `thread_ = std::thread(...)`. -/
  | spawn
  | assign (worker : Nat)
deriving DecidableEq, Repr

inductive StopPc
  | check
  /-- `running_ = false`. -/
  | clear
  /-- The signal to the worker; `Disconnect` in `DriverComm`. -/
  | signal
  | join
deriving DecidableEq, Repr

/-- `restart` when a `Start` follows. -/
inductive OwnerPc
  | idle
  | start (pc : StartPc)
  | stop (pc : StopPc) (restart : Bool)
deriving DecidableEq, Repr

/-- `thread` is the worker that `thread_` holds, if it is joinable. -/
structure SupervisedComponent where
  running : Bool := false
  connected : Bool := false
  thread : Option Nat := none
  workers : Nat → Option WorkerPc := fun _ => none
  created : Nat := 0
  owner : OwnerPc := .idle
  /-- `std::terminate` was called. -/
  terminated : Bool := false

namespace SupervisedComponent

def isHealthy (spec : ComponentSpec) (s : SupervisedComponent) : Bool :=
  if !spec.enabled then true else s.running && (!spec.connects || s.connected)

def setWorker (s : SupervisedComponent) (i : Nat) (pc : WorkerPc) : SupervisedComponent :=
  { s with workers := Function.update s.workers i (some pc) }

/-- The worker has been started and has not returned. -/
def Alive (s : SupervisedComponent) (i : Nat) : Prop :=
  ∃ pc, s.workers i = some pc ∧ pc ≠ .ended

end SupervisedComponent

/-! ## Steps -/

inductive WorkerEvent
  | osCall (ok : Bool)
  | clearRunning
  | loopEnds
  | returns
deriving DecidableEq, Repr

/-- `owner` is the next statement of the call under way, with the outcome of a
connection. -/
inductive ComponentAct
  | callStart
  | callStop
  | watchdog
  | owner (connects : Bool)
  | worker (i : Nat) (event : WorkerEvent)
deriving DecidableEq, Repr

namespace SupervisedComponent

def startStep (spec : ComponentSpec) (connects : Bool) (s : SupervisedComponent) :
    StartPc → SupervisedComponent
  | .check =>
      if s.running || !spec.enabled then { s with owner := .idle }
      else { s with owner := .start (if spec.connects then .connect else .flag) }
  | .connect =>
      if s.connected || connects then { s with connected := true, owner := .start .flag }
      else { s with owner := .idle }
  | .flag => { s with running := true, owner := .start .spawn }
  | .spawn =>
      { s.setWorker s.created (.setup spec.setup) with
        created := s.created + 1
        owner := .start (.assign s.created) }
  | .assign worker =>
      if s.thread.isSome then { s with terminated := true }
      else { s with thread := some worker, owner := .idle }

/-- What follows a `Stop`. -/
def afterStop (restart : Bool) (s : SupervisedComponent) : SupervisedComponent :=
  { s with owner := if restart then .start .check else .idle }

/-- `join` waits for the worker. -/
def stopStep (restart : Bool) (spec : ComponentSpec) (s : SupervisedComponent) :
    StopPc → Option SupervisedComponent
  | .check =>
      if !s.running then some (s.afterStop restart)
      else some { s with owner := .stop .clear restart }
  | .clear => some { s with running := false, owner := .stop .signal restart }
  | .signal =>
      some { s with
        connected := if spec.connects then false else s.connected
        owner := .stop .join restart }
  | .join =>
      match s.thread with
      | none => some (s.afterStop restart)
      | some i =>
          if s.workers i = some .ended then some ({ s with thread := none }.afterStop restart)
          else none

def workerStep (s : SupervisedComponent) (i : Nat) :
    WorkerPc → WorkerEvent → Option SupervisedComponent
  | .setup (_ :: pending), .osCall ok =>
      some (s.setWorker i (if ok then .setup pending else .failed))
  | .setup [], .loopEnds => some (s.setWorker i .leaving)
  | .failed, .clearRunning => some { s.setWorker i .leaving with running := false }
  | .leaving, .returns => some (s.setWorker i .ended)
  | _, _ => none

def step (spec : ComponentSpec) (s : SupervisedComponent) :
    ComponentAct → Option SupervisedComponent
  | .callStart => if s.owner = .idle then some { s with owner := .start .check } else none
  | .callStop => if s.owner = .idle then some { s with owner := .stop .check false } else none
  | .watchdog =>
      if s.owner = .idle then
        if s.isHealthy spec then some s else some { s with owner := .stop .check true }
      else none
  | .owner connects =>
      if s.terminated then none
      else
        match s.owner with
        | .idle => none
        | .start pc => some (s.startStep spec connects pc)
        | .stop pc restart => s.stopStep restart spec pc
  | .worker i event =>
      if s.terminated then none else (s.workers i).bind fun pc => s.workerStep i pc event

end SupervisedComponent

def componentSys (spec : ComponentSpec) : TSys SupervisedComponent ComponentAct where
  init s := s = {}
  step s act := s.step spec act

namespace SupervisedComponent

/-- No `std::terminate`, one worker at most, and no health without a worker: not when
the worker of the component has ended, and not when it has none, unless a `Start` is
about to make one. -/
structure RestartSafe (spec : ComponentSpec) (s : SupervisedComponent) : Prop where
  notTerminated : s.terminated = false
  oneWorker : ∀ i j, s.Alive i → s.Alive j → i = j
  unhealthy_ended : spec.enabled = true → ∀ i, s.thread = some i →
    s.workers i = some .ended → s.isHealthy spec = false
  unhealthy_none : spec.enabled = true → (∀ i, ¬ s.Alive i) → s.owner ≠ .start .spawn →
    s.isHealthy spec = false

/-- A `Stop` is past its check of `running_`. -/
def Stopping (s : SupervisedComponent) : Prop :=
  ∃ pc restart, s.owner = .stop pc restart ∧ pc ≠ .check

/-- A worker clears `running_` only while a `Stop` is past its check, and returns only
when `running_` is cleared. -/
def EndsOrderly (s : SupervisedComponent) : ComponentAct → Prop
  | .worker _ .clearRunning => s.Stopping
  | .worker _ .returns => s.running = false
  | .worker _ (.osCall _) | .worker _ .loopEnds | .callStart | .callStop | .watchdog
  | .owner _ => True

end SupervisedComponent

/-! ## The invariant -/

namespace SupervisedComponent

variable {spec : ComponentSpec} {s s' : SupervisedComponent} {i : Nat}

/-- All workers but this one have returned, and it is at work while `running_` is set. -/
structure Only (s : SupervisedComponent) (worker : Option Nat) : Prop where
  others : ∀ i, s.Alive i → worker = some i
  alive : s.running = true → ∀ i, worker = some i → s.Alive i

/-- Which worker there is, where the thread object has it, and what the flag says, for
each statement of the owner. -/
def OwnerInv (only : Option Nat → Prop) (thread : Option Nat) (running : Bool) : OwnerPc → Prop
  | .idle | .start .check | .stop .check _ => only thread ∧ running = thread.isSome
  | .start .connect | .start .flag => only none ∧ thread = none ∧ running = false
  | .start .spawn => only none ∧ thread = none ∧ running = true
  | .start (.assign worker) => only (some worker) ∧ thread = none ∧ running = true
  | .stop .clear _ => only thread ∧ thread.isSome = true
  | .stop .signal _ | .stop .join _ => only thread ∧ thread.isSome = true ∧ running = false

def Consistent (s : SupervisedComponent) : Prop :=
  OwnerInv s.Only s.thread s.running s.owner

theorem alive_setWorker {pc : WorkerPc} {j : Nat} :
    (s.setWorker i pc).Alive j ↔ if j = i then pc ≠ .ended else s.Alive j := by
  by_cases hj : j = i
  · simp [Alive, setWorker, hj]
  · simp [Alive, setWorker, hj]

/-- A step of a worker: it was alive, it does not return while `running_` is set, and it
clears the flag only within a `Stop`. -/
theorem workerStep_cases {pc : WorkerPc} {event : WorkerEvent} (hpc : s.workers i = some pc)
    (hok : s.EndsOrderly (.worker i event)) (hstep : s.workerStep i pc event = some s') :
    s.Alive i ∧ ∃ pc' running, s' = { s.setWorker i pc' with running := running } ∧
      (pc' = .ended → s.running = false) ∧
      (running = s.running ∨ running = false ∧ s.Stopping) := by
  cases pc with
  | setup pending =>
      refine ⟨⟨_, hpc, by simp⟩, ?_⟩
      cases pending with
      | nil =>
          cases event with
          | loopEnds =>
              cases hstep
              exact ⟨.leaving, s.running, rfl, by simp, .inl rfl⟩
          | osCall | clearRunning | returns => cases hstep
      | cons call pending =>
          cases event with
          | osCall ok =>
              cases hstep
              refine ⟨_, s.running, rfl, ?_, .inl rfl⟩
              split <;> simp
          | clearRunning | loopEnds | returns => cases hstep
  | failed =>
      refine ⟨⟨_, hpc, by simp⟩, ?_⟩
      cases event with
      | clearRunning =>
          cases hstep
          exact ⟨.leaving, false, rfl, by simp, .inr ⟨rfl, hok⟩⟩
      | osCall | loopEnds | returns => cases hstep
  | leaving =>
      refine ⟨⟨_, hpc, by simp⟩, ?_⟩
      cases event with
      | returns =>
          cases hstep
          exact ⟨.ended, s.running, rfl, fun _ => hok, .inl rfl⟩
      | osCall | clearRunning | loopEnds => cases hstep
  | ended => cases event <;> cases hstep

theorem Only.worker (h : s.Only (some i)) {pc' : WorkerPc} {running : Bool}
    (hended : pc' = .ended → s.running = false)
    (hrunning : running = s.running ∨ running = false ∧ s.Stopping) :
    { s.setWorker i pc' with running := running }.Only (some i) where
  others j hj := by
    have hj' := alive_setWorker.mp hj
    split at hj'
    · next heq => rw [heq]
    · exact h.others j hj'
  alive hrun j hj := by
    cases hj
    refine alive_setWorker.mpr ?_
    rw [if_pos rfl]
    rintro rfl
    rcases hrunning with heq | ⟨heq, -⟩
    · exact absurd (heq.symm.trans hrun) (by simp [hended rfl])
    · exact absurd hrun (by simp [heq])

theorem Consistent.worker (h : s.Consistent) (halive : s.Alive i) {pc' : WorkerPc} {running : Bool}
    (hended : pc' = .ended → s.running = false)
    (hrunning : running = s.running ∨ running = false ∧ s.Stopping) :
    { s.setWorker i pc' with running := running }.Consistent := by
  -- outside a `Stop` the flag does not change
  have hflag : (∀ pc restart, s.owner = .stop pc restart → pc = .check) → running = s.running := by
    intro howner
    rcases hrunning with heq | ⟨-, pc, restart, hstop, hpc⟩
    · exact heq
    · exact absurd (howner pc restart hstop) hpc
  have hmine : ∀ {worker}, s.Only worker → worker = some i ∧
      { s.setWorker i pc' with running := running }.Only worker := by
    intro worker honly
    have hworker := honly.others i halive
    subst hworker
    exact ⟨rfl, honly.worker hended hrunning⟩
  have hinv : OwnerInv s.Only s.thread s.running s.owner := h
  show OwnerInv _ s.thread running s.owner
  cases howner : s.owner with
  | idle =>
      rw [howner] at hinv hflag
      exact ⟨(hmine hinv.1).2, (hflag (by simp)).trans hinv.2⟩
  | start pc =>
      rw [howner] at hinv hflag
      have heq := hflag (by simp)
      cases pc with
      | check => exact ⟨(hmine hinv.1).2, heq.trans hinv.2⟩
      | connect | flag | spawn => cases (hmine hinv.1).1
      | assign worker => exact ⟨(hmine hinv.1).2, hinv.2.1, heq.trans hinv.2.2⟩
  | stop pc restart =>
      rw [howner] at hinv hflag
      cases pc with
      | check => exact ⟨(hmine hinv.1).2, (hflag (by simp)).trans hinv.2⟩
      | clear => exact ⟨(hmine hinv.1).2, hinv.2⟩
      | signal | join =>
          refine ⟨(hmine hinv.1).2, hinv.2.1, ?_⟩
          rcases hrunning with heq | ⟨heq, -⟩
          · exact heq.trans hinv.2.2
          · exact heq

/-- What matters of a state for its worker are the workers and the flag. -/
theorem Only.congr {worker : Option Nat} (h : s.Only worker) (hworkers : s'.workers = s.workers)
    (hrunning : s'.running = true → s.running = true) : s'.Only worker := by
  have halive : ∀ i, s'.Alive i ↔ s.Alive i := by
    intro i
    rw [Alive, Alive, hworkers]
  exact ⟨fun i hi => h.others i ((halive i).mp hi),
    fun hrun i hi => (halive i).mpr (h.alive (hrunning hrun) i hi)⟩

/-- Without a worker the flag may be set, as it is before a worker is made. -/
theorem Only.none_congr (h : s.Only none) (hworkers : s'.workers = s.workers) : s'.Only none := by
  refine ⟨fun i hi => h.others i ?_, fun _ i hi => by cases hi⟩
  rwa [Alive, ← hworkers]

theorem Only.not_alive (h : s.Only none) (i : Nat) : ¬ s.Alive i := fun hi => by
  cases h.others i hi

/-- A new worker is the only one where there was none. -/
theorem Only.setWorker (h : s.Only none) {pc : WorkerPc} (hpc : pc ≠ .ended) :
    (s.setWorker i pc).Only (some i) where
  others j hj := by
    have hj' := alive_setWorker.mp hj
    split at hj'
    · next heq => rw [heq]
    · exact absurd hj' (h.not_alive j)
  alive _ j hj := by
    cases hj
    exact alive_setWorker.mpr (by rwa [if_pos rfl])

/-- Between two calls: no call, or one that has not looked at the flag yet. -/
theorem consistent_between {owner : OwnerPc}
    (howner : owner = .idle ∨ owner = .start .check ∨ ∃ restart, owner = .stop .check restart)
    (honly : s.Only s.thread) (hflag : s.running = s.thread.isSome) :
    { s with owner := owner }.Consistent := by
  have honly' : { s with owner := owner }.Only s.thread := honly.congr rfl fun hrun => hrun
  rw [Consistent]
  rcases howner with rfl | rfl | ⟨restart, rfl⟩
  · exact ⟨honly', hflag⟩
  · exact ⟨honly', hflag⟩
  · exact ⟨honly', hflag⟩

theorem consistent_startStep {pc : StartPc} {connects : Bool} (howner : s.owner = .start pc)
    (h : s.Consistent) :
    (s.startStep spec connects pc).Consistent ∧
      (s.startStep spec connects pc).terminated = s.terminated := by
  rw [Consistent, howner] at h
  cases pc with
  | check =>
      obtain ⟨honly, hflag⟩ := h
      simp only [startStep]
      split
      · exact ⟨consistent_between (.inl rfl) honly hflag, rfl⟩
      · next hcheck =>
          simp only [Bool.or_eq_true, not_or, Bool.not_eq_true] at hcheck
          have hnone : s.thread = none := by
            rw [← Option.isNone_iff_eq_none, ← Option.isSome_eq_false_iff, ← hflag]
            exact hcheck.1
          rw [hnone] at honly
          refine ⟨?_, rfl⟩
          rw [Consistent]
          split
          · exact ⟨honly.none_congr rfl, hnone, hcheck.1⟩
          · exact ⟨honly.none_congr rfl, hnone, hcheck.1⟩
  | connect =>
      obtain ⟨honly, hthread, hflag⟩ := h
      simp only [startStep]
      split
      · exact ⟨⟨honly.none_congr rfl, hthread, hflag⟩, rfl⟩
      · refine ⟨?_, rfl⟩
        show OwnerInv _ s.thread s.running .idle
        rw [hthread, hflag]
        exact ⟨honly.none_congr rfl, rfl⟩
  | flag =>
      obtain ⟨honly, hthread, -⟩ := h
      exact ⟨⟨honly.none_congr rfl, hthread, rfl⟩, rfl⟩
  | spawn =>
      obtain ⟨honly, hthread, hflag⟩ := h
      have hnew : (s.setWorker s.created (.setup spec.setup)).Only (some s.created) :=
        honly.setWorker (by simp)
      exact ⟨⟨hnew.congr rfl fun hrun => hrun, hthread, hflag⟩, rfl⟩
  | assign worker =>
      obtain ⟨honly, hthread, hflag⟩ := h
      rw [startStep, hthread]
      exact ⟨⟨honly.congr rfl fun hrun => hrun, hflag⟩, rfl⟩

theorem consistent_afterStop {restart : Bool} (honly : s.Only s.thread)
    (hflag : s.running = s.thread.isSome) : (s.afterStop restart).Consistent := by
  cases restart with
  | true => exact consistent_between (.inr (.inl rfl)) honly hflag
  | false => exact consistent_between (.inl rfl) honly hflag

theorem consistent_stopStep {pc : StopPc} {restart : Bool} (howner : s.owner = .stop pc restart)
    (h : s.Consistent) (hstep : s.stopStep restart spec pc = some s') :
    s'.Consistent ∧ s'.terminated = s.terminated := by
  rw [Consistent, howner] at h
  cases pc with
  | check =>
      obtain ⟨honly, hflag⟩ := h
      simp only [stopStep] at hstep
      split at hstep
      · cases hstep
        exact ⟨consistent_afterStop honly hflag, rfl⟩
      · next hcheck =>
          cases hstep
          rw [Bool.not_eq_true, Bool.not_eq_false'] at hcheck
          exact ⟨⟨honly.congr rfl fun hrun => hrun, hflag.symm.trans hcheck⟩, rfl⟩
  | clear =>
      obtain ⟨honly, hthread⟩ := h
      cases hstep
      exact ⟨⟨honly.congr rfl (by simp), hthread, rfl⟩, rfl⟩
  | signal =>
      obtain ⟨honly, hthread, hflag⟩ := h
      cases hstep
      exact ⟨⟨honly.congr rfl fun hrun => hrun, hthread, hflag⟩, rfl⟩
  | join =>
      obtain ⟨honly, hthread, hflag⟩ := h
      obtain ⟨i, hi⟩ := Option.isSome_iff_exists.mp hthread
      simp only [stopStep, hi] at hstep
      split at hstep
      · next hended =>
          cases hstep
          rw [hi] at honly
          -- the worker that was joined was the last
          have hnone : { s with thread := none }.Only none := by
            refine ⟨fun j hj => ?_, fun _ j hj => by cases hj⟩
            obtain ⟨pc, hpc, hne⟩ := hj
            cases honly.others j ⟨pc, hpc, hne⟩
            exact absurd (Option.some.inj (hpc.symm.trans hended)) hne
          exact ⟨consistent_afterStop hnone hflag, rfl⟩
      · cases hstep

/-- The states of runs of the condition. -/
structure Inv (s : SupervisedComponent) : Prop where
  consistent : s.Consistent
  notTerminated : s.terminated = false

/-- A call begins where there is none. -/
theorem Inv.begin {owner : OwnerPc} (h : s.Inv) (hidle : s.owner = .idle)
    (howner : owner = .start .check ∨ ∃ restart, owner = .stop .check restart) :
    { s with owner := owner }.Inv := by
  have hinv := h.consistent
  rw [Consistent, hidle] at hinv
  exact ⟨consistent_between (.inr howner) hinv.1 hinv.2, h.notTerminated⟩

theorem inv_step {act : ComponentAct} (h : s.Inv) (hok : s.EndsOrderly act)
    (hstep : s.step spec act = some s') : s'.Inv := by
  have hterm := h.notTerminated
  cases act with
  | callStart =>
      obtain ⟨hidle, rfl⟩ := by simpa only [step, Option.ite_none_right_eq_some,
        Option.some.injEq] using hstep
      exact h.begin hidle (.inl rfl)
  | callStop =>
      obtain ⟨hidle, rfl⟩ := by simpa only [step, Option.ite_none_right_eq_some,
        Option.some.injEq] using hstep
      exact h.begin hidle (.inr ⟨false, rfl⟩)
  | watchdog =>
      obtain ⟨hidle, hstep⟩ := by simpa only [step, Option.ite_none_right_eq_some] using hstep
      split at hstep
      · cases hstep
        exact h
      · cases hstep
        exact h.begin hidle (.inr ⟨true, rfl⟩)
  | owner connects =>
      simp only [step, hterm, Bool.false_eq_true, if_false] at hstep
      cases howner : s.owner with
      | idle =>
          rw [howner] at hstep
          cases hstep
      | start pc =>
          rw [howner] at hstep
          cases hstep
          have hstart : (s.startStep spec connects pc).Consistent ∧
              (s.startStep spec connects pc).terminated = s.terminated :=
            consistent_startStep howner h.consistent
          exact ⟨hstart.1, hstart.2.trans hterm⟩
      | stop pc restart =>
          rw [howner] at hstep
          obtain ⟨hinv', hterm'⟩ := consistent_stopStep howner h.consistent hstep
          exact ⟨hinv', hterm'.trans hterm⟩
  | worker i event =>
      simp only [step, hterm, Bool.false_eq_true, if_false] at hstep
      obtain ⟨pc, hpc, hstep⟩ := Option.bind_eq_some_iff.mp hstep
      obtain ⟨halive, pc', running, rfl, hended, hrunning⟩ := workerStep_cases hpc hok hstep
      exact ⟨h.consistent.worker halive hended hrunning, hterm⟩

theorem inductiveBy_inv :
    (componentSys spec).InductiveBy EndsOrderly Inv where
  init s hs := by
    have hempty : ({} : SupervisedComponent).Only none := by
      refine ⟨fun i hi => ?_, fun _ i hi => by cases hi⟩
      obtain ⟨_, hpc, -⟩ := hi
      cases hpc
    cases (hs : s = {})
    exact ⟨⟨hempty, rfl⟩, rfl⟩
  step _ _ _ h hok hstep := inv_step h hok hstep

/-! ## Safety of restarts -/

/-- There is a worker that is the only one: the one in the thread object, if it has one,
and some worker whenever the flag is set, except where `Start` is to make it. -/
theorem Consistent.exists_only (h : s.Consistent) :
    ∃ worker, s.Only worker ∧ (∀ i, s.thread = some i → worker = some i) ∧
      (s.running = true → s.owner ≠ .start .spawn → worker.isSome = true) := by
  have hinv : OwnerInv s.Only s.thread s.running s.owner := h
  cases howner : s.owner with
  | idle =>
      rw [howner] at hinv
      exact ⟨s.thread, hinv.1, fun _ hi => hi, fun hrun _ => hinv.2.symm.trans hrun⟩
  | start pc =>
      rw [howner] at hinv
      cases pc with
      | check => exact ⟨s.thread, hinv.1, fun _ hi => hi, fun hrun _ => hinv.2.symm.trans hrun⟩
      | connect | flag =>
          obtain ⟨honly, hthread, hflag⟩ := hinv
          refine ⟨none, honly, ?_, ?_⟩
          · rw [hthread]
            exact fun _ hi => hi
          · rw [hflag]
            exact fun hrun => by cases hrun
      | spawn =>
          obtain ⟨honly, hthread, -⟩ := hinv
          refine ⟨none, honly, ?_, fun _ hne => absurd rfl hne⟩
          rw [hthread]
          exact fun _ hi => hi
      | assign worker =>
          obtain ⟨honly, hthread, -⟩ := hinv
          refine ⟨some worker, honly, ?_, fun _ _ => rfl⟩
          rw [hthread]
          exact fun _ hi => by cases hi
  | stop pc restart =>
      rw [howner] at hinv
      cases pc with
      | check => exact ⟨s.thread, hinv.1, fun _ hi => hi, fun hrun _ => hinv.2.symm.trans hrun⟩
      | clear => exact ⟨s.thread, hinv.1, fun _ hi => hi, fun _ _ => hinv.2⟩
      | signal | join => exact ⟨s.thread, hinv.1, fun _ hi => hi, fun _ _ => hinv.2.1⟩

theorem isHealthy_eq_false (henabled : spec.enabled = true) (hrun : s.running ≠ true) :
    s.isHealthy spec = false := by
  simp [isHealthy, henabled, hrun]

theorem Inv.restartSafe (h : s.Inv) : s.RestartSafe spec := by
  obtain ⟨worker, honly, hthread, hflag⟩ := h.consistent.exists_only
  refine ⟨h.notTerminated, ?_, ?_, ?_⟩
  · intro i j hi hj
    exact Option.some.inj ((honly.others i hi).symm.trans (honly.others j hj))
  · intro henabled i hi hended
    refine isHealthy_eq_false henabled fun hrun => ?_
    obtain ⟨pc, hpc, hne⟩ := honly.alive hrun i (hthread i hi)
    exact hne (Option.some.inj (hpc.symm.trans hended))
  · intro henabled hdead howner
    refine isHealthy_eq_false henabled fun hrun => ?_
    obtain ⟨i, hi⟩ := Option.isSome_iff_exists.mp (hflag hrun howner)
    exact hdead i (honly.alive hrun i hi)

instance : Decidable s.Stopping :=
  match howner : s.owner with
  | .stop pc restart =>
      decidable_of_iff (pc ≠ .check) (by simp [Stopping, howner])
  | .idle | .start _ => .isFalse (by simp [Stopping, howner])

instance : ∀ act, Decidable (s.EndsOrderly act)
  | .worker _ .clearRunning => inferInstanceAs (Decidable s.Stopping)
  | .worker _ .returns => inferInstanceAs (Decidable (s.running = false))
  | .worker _ (.osCall _) | .worker _ .loopEnds | .callStart | .callStop | .watchdog
  | .owner _ => .isTrue trivial

end SupervisedComponent

/-- Where workers end in an orderly way, restarts are safe. -/
theorem restartSafe_of_endsOrderly (component : MonitoredComponent) :
    (componentSys component.spec).InvariantBy SupervisedComponent.EndsOrderly
      (SupervisedComponent.RestartSafe component.spec) :=
  fun s hs => (SupervisedComponent.inductiveBy_inv.invariant s hs).restartSafe

/-- The statements of a `Start` without a connection, up to the new thread. -/
def startCall : List ComponentAct :=
  .callStart :: List.replicate 4 (.owner true)

/-- A call of the operating system that fails, to the return of the worker. -/
def failedSetup (worker : Nat) : List ComponentAct :=
  [.worker worker (.osCall false), .worker worker .clearRunning, .worker worker .returns]

/-- The window is not made, but only once `Stop` has cleared the flag. -/
def failedInStop : List ComponentAct :=
  startCall ++ [.callStop, .owner true, .owner true] ++ failedSetup 0 ++
    [.owner true, .owner true] ++ startCall

theorem restartSafe_failedInStop :
    ∃ s, (componentSys (clipboardMonitor true)).run {} failedInStop = some s ∧
      (s.thread, s.running) = (some 1, true) ∧ s.RestartSafe (clipboardMonitor true) := by
  have hrun : ((componentSys (clipboardMonitor true)).run {} failedInStop).map
      (fun s => (s.thread, s.running)) = some (some 1, true) := by
    decide
  obtain ⟨s, hs, hend⟩ := Option.map_eq_some_iff.mp hrun
  refine ⟨s, hs, hend, restartSafe_of_endsOrderly (.clipboardMonitor true) s ?_⟩
  refine TSys.reachableBy_run (.init rfl) _ ?_ hs
  have htest : (componentSys (clipboardMonitor true)).runAll
      (fun s act => decide (s.EndsOrderly act)) {} failedInStop = true := by
    decide
  exact TSys.runOk_of_runAll (fun _ _ h => of_decide_eq_true h) htest

/-- A component that is unhealthy while its thread object is joinable is not restarted:
`Stop` returns without a `join`, and `Start` assigns to the object. -/
theorem restart_terminates {spec : ComponentSpec} {s : SupervisedComponent}
    (henabled : spec.enabled = true) (hconnects : spec.connects = false)
    (howner : s.owner = .idle) (hterm : s.terminated = false)
    (hrunning : s.running = false) (hthread : s.thread.isSome = true) :
    ((componentSys spec).run s (.watchdog :: List.replicate 5 (.owner true))).map
      (·.terminated) = some true := by
  simp [TSys.run, componentSys, SupervisedComponent.step, SupervisedComponent.isHealthy,
    SupervisedComponent.stopStep, SupervisedComponent.afterStop, SupervisedComponent.startStep,
    SupervisedComponent.setWorker, List.replicate, henabled, hconnects, howner, hterm, hrunning,
    hthread]

/-- The window of the clipboard monitor is not made, and the watchdog restarts it. -/
theorem not_restartSafe :
    ¬ ∀ component : MonitoredComponent,
        (componentSys component.spec).InvariantBy (fun _ _ => True)
          (SupervisedComponent.RestartSafe component.spec) := by
  intro hclaim
  have hrun : ((componentSys (clipboardMonitor true)).run {}
      (startCall ++ failedSetup 0 ++ .watchdog :: List.replicate 5 (.owner true))).map
        (·.terminated) = some true := by
    decide
  obtain ⟨s, hs, hterm⟩ := Option.map_eq_some_iff.mp hrun
  have hreach : (componentSys (clipboardMonitor true)).Reachable s :=
    TSys.reachable_run (.init rfl) _ hs
  have hsafe := (hclaim (.clipboardMonitor true) s hreach).notTerminated
  exact absurd (hterm.symm.trans hsafe) (by decide)

/-- A worker that returns while the component is healthy leaves it so: the watchdog
does not see that the worker has ended. -/
theorem isHealthy_returns {spec : ComponentSpec} {s : SupervisedComponent} {i : Nat}
    (hterm : s.terminated = false) (hleaving : s.workers i = some .leaving)
    (hhealthy : s.isHealthy spec = true) :
    ∃ s', s.step spec (.worker i .returns) = some s' ∧ s'.workers i = some .ended ∧
      s'.isHealthy spec = true := by
  refine ⟨s.setWorker i .ended, ?_, ?_, hhealthy⟩
  · simp [SupervisedComponent.step, hterm, hleaving, SupervisedComponent.workerStep]
  · simp [SupervisedComponent.setWorker]

/-- The listener of `DriverComm` breaks out of its loop when the port is closed. -/
example :
    ((componentSys driverComm).run {}
      (.callStart :: List.replicate 5 (.owner true) ++
        [.worker 0 .loopEnds, .worker 0 .returns])).map
        (fun s => (s.workers 0, s.isHealthy driverComm)) =
      some (some .ended, true) := by
  decide

end AkesoDlp.Agent
