import AkesoDlp.Lib.TSys
import Mathlib.Algebra.Order.Ring.Int

/-!
# The communication port of the driver

`AkesoPortConnect` and `AkesoPortDisconnect` keep three fields of `gFilterData`: the
number of connections, the port of the client, and whether there is one. Neither takes a
lock. The callbacks of any number of connections run at the same time, and their
statements interleave in any order; the increments and decrements are atomic.
-/

namespace AkesoDlp.Agent.DriverPort

open Lib

/-- How far the callbacks of a connection have come. -/
inductive Stage
  /-- Over the limit: the decrement is still to come. -/
  | refusing
  | refused
  /-- Within the limit: the fields are still to be written. -/
  | entering
  | portSet
  /-- `AkesoPortConnect` has returned `STATUS_SUCCESS`. -/
  | live
  /-- The agent has closed its handle. -/
  | hungUp
  /-- `FltCloseClientPort` has run. -/
  | portClosed
  | portCleared
  | flagCleared
  | gone
deriving DecidableEq, Repr

/-- From the test of the limit to the last decrement. -/
def Stage.accepted : Stage → Bool
  | .entering | .portSet | .live | .hungUp | .portClosed | .portCleared | .flagCleared => true
  | .refusing | .refused | .gone => false

/-- The connection is in `ConnectionCount`. -/
def Stage.counted (stage : Stage) : Bool :=
  stage.accepted || stage == .refusing

/-- `ClientPort` is the port of the connection. -/
def Stage.hasPort : Stage → Bool
  | .portSet | .live | .hungUp => true
  | _ => false

/-- `ClientConnected` is set. -/
def Stage.connected : Stage → Bool
  | .live | .hungUp | .portClosed | .portCleared => true
  | _ => false

/-- The fields of `gFilterData`, and the connections that were ever asked for. -/
structure Port where
  connectionCount : Int
  clientPort : Option Nat
  clientConnected : Bool
  connections : List Stage
deriving DecidableEq, Repr

def Port.start : Port where
  connectionCount := 0
  clientPort := none
  clientConnected := false
  connections := []

/-- `AKESO_DLP_MAX_CONNECTIONS`. -/
def maxConnections : Int := 1

/-- The statements of the callbacks. -/
inductive Action
  /-- `AkesoPortConnect` increments, and compares. -/
  | connect
  /-- It decrements, and returns `STATUS_CONNECTION_REFUSED`. -/
  | refuse (c : Nat)
  | setPort (c : Nat)
  | setConnected (c : Nat)
  /-- The agent closes its handle, or its process ends. -/
  | hangUp (c : Nat)
  /-- `FltCloseClientPort`, the first statement of `AkesoPortDisconnect`. -/
  | closePort (c : Nat)
  | clearPort (c : Nat)
  | clearConnected (c : Nat)
  | leave (c : Nat)
deriving DecidableEq, Repr

/-- Connection `c` goes from one stage to the next, if it is there. -/
def Port.advance (p : Port) (c : Nat) (from' next : Stage) (write : Port → Port) : Option Port :=
  if p.connections[c]? = some from' then
    some (write { p with connections := p.connections.set c next })
  else none

def step (p : Port) : Action → Option Port
  | .connect =>
      let count := p.connectionCount + 1
      if maxConnections < count then
        some { p with connectionCount := count, connections := p.connections ++ [.refusing] }
      else
        some { p with connectionCount := count, connections := p.connections ++ [.entering] }
  | .refuse c =>
      p.advance c .refusing .refused fun p =>
        { p with connectionCount := p.connectionCount - 1 }
  | .setPort c => p.advance c .entering .portSet fun p => { p with clientPort := some c }
  | .setConnected c => p.advance c .portSet .live fun p => { p with clientConnected := true }
  | .hangUp c => p.advance c .live .hungUp id
  | .closePort c => p.advance c .hungUp .portClosed fun p => { p with clientPort := none }
  | .clearPort c => p.advance c .portClosed .portCleared fun p => { p with clientPort := none }
  | .clearConnected c =>
      p.advance c .portCleared .flagCleared fun p => { p with clientConnected := false }
  | .leave c =>
      p.advance c .flagCleared .gone fun p =>
        { p with connectionCount := p.connectionCount - 1 }

def port : TSys Port Action where
  init := fun p => p = Port.start
  step := step

/-! ## The invariant -/

/-- Connection `c` is accepted and not yet gone. -/
def AcceptedAt (connections : List Stage) (c : Nat) : Prop :=
  ∃ stage, connections[c]? = some stage ∧ stage.accepted = true

/-- The fields are those of connection `c` at its stage, and no other is accepted. -/
structure OwnedBy (p : Port) (c : Nat) (stage : Stage) : Prop where
  here : p.connections[c]? = some stage
  accepted : stage.accepted = true
  alone : ∀ c', AcceptedAt p.connections c' → c' = c
  clientPort : p.clientPort = if stage.hasPort then some c else none
  clientConnected : p.clientConnected = stage.connected

/-- No connection is accepted. -/
structure Unowned (p : Port) : Prop where
  none_accepted : ∀ c, ¬ AcceptedAt p.connections c
  clientPort : p.clientPort = none
  clientConnected : p.clientConnected = false

structure Inv (p : Port) : Prop where
  count : p.connectionCount = p.connections.countP Stage.counted
  owner : Unowned p ∨ ∃ c stage, OwnedBy p c stage

theorem inv_start : Inv Port.start where
  count := rfl
  owner := .inl ⟨by simp [Port.start, AcceptedAt], rfl, rfl⟩

theorem acceptedAt_append {connections : List Stage} {c : Nat} {stage : Stage}
    (h : AcceptedAt (connections ++ [stage]) c) :
    AcceptedAt connections c ∨ c = connections.length ∧ stage.accepted = true := by
  obtain ⟨s, hs, hacc⟩ := h
  rw [List.getElem?_append] at hs
  split at hs
  · exact .inl ⟨s, hs, hacc⟩
  · next hge =>
    rw [List.getElem?_singleton, Option.ite_none_right_eq_some, Option.some.injEq] at hs
    exact .inr ⟨by omega, hs.2 ▸ hacc⟩

theorem acceptedAt_set {connections : List Stage} {c c' : Nat} {stage : Stage}
    (h : AcceptedAt (connections.set c stage) c') :
    c' ≠ c ∧ AcceptedAt connections c' ∨ c' = c ∧ stage.accepted = true := by
  obtain ⟨s, hs, hacc⟩ := h
  rw [List.getElem?_set] at hs
  split at hs
  · next hc =>
    rw [Option.ite_none_right_eq_some, Option.some.injEq] at hs
    exact .inr ⟨hc.symm, hs.2 ▸ hacc⟩
  · next hne => exact .inl ⟨fun hc => hne hc.symm, s, hs, hacc⟩

/-- Without an accepted connection the fields are as at the start. -/
theorem Inv.unowned {p : Port} (h : Inv p) (hnone : ∀ c, ¬ AcceptedAt p.connections c) :
    Unowned p := by
  rcases h.owner with hfree | ⟨c, stage, howned⟩
  · exact hfree
  · exact absurd ⟨stage, howned.here, howned.accepted⟩ (hnone c)

/-- An accepted connection is the one that the fields are about. -/
theorem Inv.ownedBy {p : Port} (h : Inv p) {c : Nat} {stage : Stage}
    (hc : p.connections[c]? = some stage) (hacc : stage.accepted = true) : OwnedBy p c stage := by
  rcases h.owner with hfree | ⟨c', stage', howned⟩
  · exact absurd ⟨stage, hc, hacc⟩ (hfree.none_accepted c)
  · obtain rfl := howned.alone c ⟨stage, hc, hacc⟩
    obtain rfl := Option.some.inj (hc.symm.trans howned.here)
    exact howned

/-- A connection within the limit finds no other, since each would be counted. -/
theorem inv_connect {p p' : Port} (h : Inv p) (hstep : step p .connect = some p') : Inv p' := by
  have hcount := h.count
  rw [step] at hstep
  split at hstep
  · obtain rfl := Option.some.inj hstep
    have hold : ∀ c, AcceptedAt (p.connections ++ [.refusing]) c → AcceptedAt p.connections c :=
      fun c hc => (acceptedAt_append hc).resolve_right fun hnew => Bool.false_ne_true hnew.2
    refine ⟨by simp [hcount, Stage.counted, Stage.accepted], h.owner.imp ?_ ?_⟩
    · exact fun hfree => ⟨fun c hc => hfree.none_accepted c (hold c hc), hfree.clientPort,
        hfree.clientConnected⟩
    · rintro ⟨c, stage, howned⟩
      have hlt : c < p.connections.length := (List.getElem?_eq_some_iff.mp howned.here).1
      exact ⟨c, stage, by rw [List.getElem?_append_left hlt, howned.here], howned.accepted,
        fun c' hc' => howned.alone c' (hold c' hc'), howned.clientPort, howned.clientConnected⟩
  · next hle =>
    obtain rfl := Option.some.inj hstep
    have hzero : p.connections.countP Stage.counted = 0 := by
      unfold maxConnections at hle
      omega
    have hfree : Unowned p := h.unowned fun c hc => by
      obtain ⟨stage, hs, hacc⟩ := hc
      have := List.countP_eq_zero.mp hzero stage (List.mem_of_getElem? hs)
      simp [Stage.counted, hacc] at this
    refine ⟨by simp [hcount, Stage.counted, Stage.accepted],
      .inr ⟨p.connections.length, .entering, ?_⟩⟩
    refine ⟨by simp, rfl, fun c' hc' => ?_, hfree.clientPort, hfree.clientConnected⟩
    exact ((acceptedAt_append hc').resolve_left (hfree.none_accepted c')).1

/-- What is left of a step: the connection was at its stage, and is at the next. -/
theorem advance_eq_some {p p' : Port} {c : Nat} {from' next : Stage} {write : Port → Port}
    (h : p.advance c from' next write = some p') : p.connections[c]? = some from' ∧
      p' = write { p with connections := p.connections.set c next } := by
  rw [Port.advance, Option.ite_none_right_eq_some, Option.some.injEq] at h
  exact ⟨h.1, h.2.symm⟩

theorem countP_advance {p : Port} {c : Nat} {from' : Stage} (next : Stage)
    (hc : p.connections[c]? = some from') :
    (p.connections.set c next).countP Stage.counted + (if from'.counted then 1 else 0) =
      p.connections.countP Stage.counted + (if next.counted then 1 else 0) := by
  obtain ⟨hlt, hget⟩ := List.getElem?_eq_some_iff.mp hc
  have hpos : from'.counted = true → 0 < p.connections.countP Stage.counted := fun hcounted =>
    List.countP_pos_iff.mpr ⟨from', List.mem_of_getElem? hc, hcounted⟩
  rw [List.countP_set hlt, hget]
  cases hcounted : from'.counted
  · simp
  · have := hpos hcounted
    simp only [↓reduceIte]
    omega

/-- A statement of the owner of the fields, which writes them as its next stage says. -/
theorem inv_owner_step {p p' : Port} {c : Nat} {from' next : Stage} (h : Inv p)
    (hc : p.connections[c]? = some from') (hfrom : from'.accepted = true)
    (hnext : next.accepted = true) (hconnections : p'.connections = p.connections.set c next)
    (hcount : p'.connectionCount = p.connectionCount)
    (hport : p.clientPort = (if from'.hasPort then some c else none) →
      p'.clientPort = if next.hasPort then some c else none)
    (hconnected : p.clientConnected = from'.connected → p'.clientConnected = next.connected) :
    Inv p' := by
  have howned := h.ownedBy hc hfrom
  have hlt : c < p.connections.length := (List.getElem?_eq_some_iff.mp hc).1
  refine ⟨?_, .inr ⟨c, next, ?_, hnext, ?_, hport howned.clientPort,
    hconnected howned.clientConnected⟩⟩
  · have := countP_advance next hc
    simp only [Stage.counted, hfrom, hnext, Bool.true_or, ↓reduceIte] at this
    rw [hcount, h.count, hconnections]
    exact congrArg Nat.cast (Nat.add_right_cancel this).symm
  · simp [hconnections, hlt]
  · intro c' hc'
    rw [hconnections] at hc'
    rcases acceptedAt_set hc' with ⟨-, hold⟩ | ⟨heq, -⟩
    · exact howned.alone c' hold
    · exact heq

theorem inv_step {p p' : Port} {a : Action} (h : Inv p) (hstep : step p a = some p') : Inv p' := by
  cases a with
  | connect => exact inv_connect h hstep
  | refuse c =>
      rw [step] at hstep
      obtain ⟨hc, rfl⟩ := advance_eq_some hstep
      have hcount := countP_advance .refused hc
      have hold : ∀ c', AcceptedAt (p.connections.set c .refused) c' →
          AcceptedAt p.connections c' := fun c' hc' =>
        ((acceptedAt_set hc').resolve_right fun hnew => Bool.false_ne_true hnew.2).2
      refine ⟨?_, h.owner.imp ?_ ?_⟩
      · have hfrom : Stage.refusing.counted = true := rfl
        have hnext : Stage.refused.counted = false := rfl
        simp only [hfrom, hnext, Bool.false_eq_true, ↓reduceIte] at hcount
        show p.connectionCount - 1 = ((p.connections.set c .refused).countP Stage.counted : Nat)
        rw [h.count]
        omega
      · exact fun hfree => ⟨fun c' hc' => hfree.none_accepted c' (hold c' hc'), hfree.clientPort,
          hfree.clientConnected⟩
      · rintro ⟨c', stage, howned⟩
        have hne : c ≠ c' := by
          rintro rfl
          obtain rfl := Option.some.inj (hc.symm.trans howned.here)
          cases howned.accepted
        exact ⟨c', stage, by rw [List.getElem?_set_ne hne, howned.here], howned.accepted,
          fun x hx => howned.alone x (hold x hx), howned.clientPort, howned.clientConnected⟩
  | setPort c =>
      rw [step] at hstep
      obtain ⟨hc, rfl⟩ := advance_eq_some hstep
      exact inv_owner_step h hc rfl rfl rfl rfl (fun _ => rfl) id
  | setConnected c =>
      rw [step] at hstep
      obtain ⟨hc, rfl⟩ := advance_eq_some hstep
      exact inv_owner_step h hc rfl rfl rfl rfl id fun _ => rfl
  | hangUp c =>
      rw [step] at hstep
      obtain ⟨hc, rfl⟩ := advance_eq_some hstep
      exact inv_owner_step h hc rfl rfl rfl rfl id id
  | closePort c =>
      rw [step] at hstep
      obtain ⟨hc, rfl⟩ := advance_eq_some hstep
      exact inv_owner_step h hc rfl rfl rfl rfl (fun _ => rfl) id
  | clearPort c =>
      rw [step] at hstep
      obtain ⟨hc, rfl⟩ := advance_eq_some hstep
      exact inv_owner_step h hc rfl rfl rfl rfl (fun _ => rfl) id
  | clearConnected c =>
      rw [step] at hstep
      obtain ⟨hc, rfl⟩ := advance_eq_some hstep
      exact inv_owner_step h hc rfl rfl rfl rfl id fun _ => rfl
  | leave c =>
      rw [step] at hstep
      obtain ⟨hc, rfl⟩ := advance_eq_some hstep
      have howned := h.ownedBy hc rfl
      have hcount := countP_advance .gone hc
      refine ⟨?_, .inl ⟨fun c' hc' => ?_, howned.clientPort, howned.clientConnected⟩⟩
      · have hfrom : Stage.flagCleared.counted = true := rfl
        have hnext : Stage.gone.counted = false := rfl
        simp only [hfrom, hnext, Bool.false_eq_true, ↓reduceIte] at hcount
        show p.connectionCount - 1 = ((p.connections.set c .gone).countP Stage.counted : Nat)
        rw [h.count]
        omega
      · rcases acceptedAt_set hc' with ⟨hne, hold⟩ | ⟨-, hacc⟩
        · exact hne (howned.alone c' hold)
        · cases hacc

theorem inv_inductive : port.InductiveBy (fun _ _ => True) Inv where
  init := by
    rintro p rfl
    exact inv_start
  step := fun _ _ _ h _ hstep => inv_step h hstep

/-- What the fields tell about the connections. -/
structure Exclusive (p : Port) : Prop where
  /-- `ConnectionCount` is the number of connections that are accepted or being refused. -/
  count : p.connectionCount = p.connections.countP Stage.counted
  one : ∀ c c', AcceptedAt p.connections c → AcceptedAt p.connections c' → c = c'
  clientPort : ∀ c, p.clientPort = some c ↔
    ∃ stage, p.connections[c]? = some stage ∧ stage.hasPort = true
  clientConnected : p.clientConnected = true ↔
    ∃ (c : Nat) (stage : Stage), p.connections[c]? = some stage ∧ stage.connected = true
  /-- A connection that comes when none is accepted or being refused is accepted. -/
  admits : (∀ stage ∈ p.connections, stage.counted = false) →
    ∃ p', step p .connect = some p' ∧ p'.connections = p.connections ++ [.entering]

theorem Stage.accepted_of_hasPort {stage : Stage} (h : stage.hasPort = true) :
    stage.accepted = true := by
  cases stage <;> first | rfl | cases h

theorem Stage.accepted_of_connected {stage : Stage} (h : stage.connected = true) :
    stage.accepted = true := by
  cases stage <;> first | rfl | cases h

theorem Inv.clientPort_iff {p : Port} (h : Inv p) (c : Nat) : p.clientPort = some c ↔
    ∃ stage, p.connections[c]? = some stage ∧ stage.hasPort = true := by
  constructor
  · intro hport
    rcases h.owner with hfree | ⟨c', stage, howned⟩
    · rw [hfree.clientPort] at hport
      cases hport
    · rw [howned.clientPort, Option.ite_none_right_eq_some, Option.some.injEq] at hport
      obtain ⟨hhas, rfl⟩ := hport
      exact ⟨stage, howned.here, hhas⟩
  · rintro ⟨stage, hc, hhas⟩
    rw [(h.ownedBy hc (Stage.accepted_of_hasPort hhas)).clientPort, if_pos hhas]

theorem Inv.clientConnected_iff {p : Port} (h : Inv p) : p.clientConnected = true ↔
    ∃ (c : Nat) (stage : Stage), p.connections[c]? = some stage ∧ stage.connected = true := by
  constructor
  · intro hconnected
    rcases h.owner with hfree | ⟨c, stage, howned⟩
    · rw [hfree.clientConnected] at hconnected
      cases hconnected
    · exact ⟨c, stage, howned.here, howned.clientConnected ▸ hconnected⟩
  · rintro ⟨c, stage, hc, hconnected⟩
    rw [(h.ownedBy hc (Stage.accepted_of_connected hconnected)).clientConnected, hconnected]

/-- However the statements of the callbacks interleave, at most one connection is accepted at
a time, the port and the flag are those of that connection from the writes of its connect
callback to those of its disconnect callback, and the count lets the next one in as soon as
the last is gone. -/
theorem port_exclusive {p : Port} (h : port.Reachable p) : Exclusive p := by
  have hinv := inv_inductive.invariant p h
  refine ⟨hinv.count, ?_, hinv.clientPort_iff, hinv.clientConnected_iff, fun hnone => ?_⟩
  · rintro c c' ⟨stage, hc, hacc⟩ hc'
    exact ((hinv.ownedBy hc hacc).alone c' hc').symm
  · have hzero : p.connectionCount = 0 := by
      rw [hinv.count, List.countP_eq_zero.mpr fun stage hs => by simp [hnone stage hs]]
      rfl
    exact ⟨_, by rw [step, if_neg (by simp [hzero, maxConnections])], rfl⟩

/-- A client is refused while the first is connected, the first leaves, and a third is let
in; the refusal takes its place between the statements of the disconnect callback. -/
theorem port_exclusive_reconnect : ∃ p, port.run Port.start
    [.connect, .setPort 0, .setConnected 0, .connect, .hangUp 0, .closePort 0, .refuse 1,
      .clearPort 0, .clearConnected 0, .leave 0, .connect] = some p ∧
    p.connections = [.gone, .refused, .entering] ∧ Exclusive p :=
  ⟨_, rfl, rfl, port_exclusive (TSys.reachable_run (TSys.ReachableBy.init rfl)
    [.connect, .setPort 0, .setConnected 0, .connect, .hangUp 0, .closePort 0, .refuse 1,
      .clearPort 0, .clearConnected 0, .leave 0, .connect] rfl)⟩

end AkesoDlp.Agent.DriverPort
