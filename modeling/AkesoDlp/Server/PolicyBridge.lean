import AkesoDlp.Lib.Keyed
import AkesoDlp.Server.PolicyStream

/-!
# Policy events across server processes

Several server processes share one Redis. `publish_policy_event` in any of them
increments the version key and then, at another await point, publishes the event
on the channel. Each process has a listener task that takes the channel's
messages in order, raises the version of its own bus, and fans the event out to
the queues of the `PolicyUpdates` streams it serves. A process whose bridge did
not start, or has been shut down, publishes to its own bus only.

Redis gives a connection the messages published after its SUBSCRIBE, in the order
of their PUBLISH. A restarted process is a new one. Requests and streams are
served once `init_redis_bridge` has returned or raised.
-/

namespace AkesoDlp.Server.PolicyBridge

open Lib PolicyStream

/-- How far `init_redis_bridge` has come in a process. -/
inductive Bridge
  | connecting
  /-- The GET of the version key has returned, the call has not resumed. -/
  | versionRead (redisVer : Nat)
  /-- `_redis_bridge` is set. -/
  | set
  /-- `_redis_bridge` is `None`: the bridge did not start, or is shut down. -/
  | absent
deriving DecidableEq, Repr

/-- The listener task, with the messages its connection holds. -/
inductive Listener
  | starting
  | subscribed (pending : List Event)
  | ended
deriving DecidableEq, Repr

/-- A server process. A queue of the bus is kept with all events put into it. -/
structure Process where
  version : Nat
  bridge : Bridge
  listener : Listener
  subscribers : List (Nat × List Event)
  opened : Nat
deriving Repr

def Process.start : Process where
  version := 0
  bridge := .connecting
  listener := .starting
  subscribers := []
  opened := 0

/-- `while bus.get_version() < ver: bus.increment_version()`. -/
def syncVersion (version ver : Nat) : Nat :=
  if version < ver then syncVersion (version + 1) ver else version
termination_by ver - version

/-- `PolicyEventBus.publish`. -/
def Process.put (P : Process) (e : Event) : Process :=
  { P with subscribers := P.subscribers.map fun q => (q.1, q.2 ++ [e]) }

/-- A message arrives on the connection of the listener. -/
def Process.deliver (P : Process) (e : Event) : Process :=
  match P.listener with
  | .subscribed pending => { P with listener := .subscribed (pending ++ [e]) }
  | _ => P

/-- One turn of the listener's loop, with `rest` left on the connection. -/
def Process.relay (P : Process) (e : Event) (rest : List Event) : Process :=
  { P with version := syncVersion P.version e.newVersion
           listener := .subscribed rest }.put e

/-- `PolicyEventBus.subscribe`. -/
def Process.subscribe (P : Process) : Process :=
  { P with subscribers := P.subscribers ++ [(P.opened, [])], opened := P.opened + 1 }

/-- `PolicyEventBus.unsubscribe`. -/
def Process.unsubscribe (P : Process) (q : Nat) : Process :=
  { P with subscribers := P.subscribers.filter fun x => x.1 != q }

/-- The events that queue `q` has been given, `none` when it is not on the bus. -/
def Process.received (P : Process) (q : Nat) : Option (List Event) :=
  P.subscribers.lookup q

/-- Redis and the processes: the version key, the messages published on the
channel, and the `publish_event` calls between their INCR and their PUBLISH. -/
structure System where
  counter : Nat
  channel : List Event
  processes : Nat → Process
  publishing : Nat → Option Event

def System.start : System where
  counter := 0
  channel := []
  processes := fun _ => Process.start
  publishing := fun _ => none

def System.set (s : System) (p : Nat) (P : Process) : System :=
  { s with processes := Function.update s.processes p P }

inductive Action
  /-- `connect` and the GET of `init_redis_bridge`. -/
  | readVersion (p : Nat)
  /-- `init_redis_bridge` resumes, and runs to its end. -/
  | setBridge (p : Nat)
  /-- `init_redis_bridge` raises. -/
  | initFails (p : Nat)
  /-- Redis executes the listener's SUBSCRIBE. -/
  | listen (p : Nat)
  | relay (p : Nat)
  /-- The connection breaks, or `close` cancels the task. -/
  | endListener (p : Nat)
  /-- `shutdown_redis_bridge` returns. -/
  | closeBridge (p : Nat)
  /-- The INCR of the `publish_event` call `c`. -/
  | incr (p c : Nat) (updateType : PolicyUpdateType) (policyId : Nat)
  /-- The PUBLISH of call `c`. -/
  | publish (c : Nat)
  /-- The PUBLISH of call `c` raises. -/
  | publishFails (c : Nat)
  /-- `publish_policy_event` without a bridge. -/
  | publishLocal (p : Nat) (updateType : PolicyUpdateType) (policyId : Nat)
  | subscribe (p : Nat)
  | unsubscribe (p q : Nat)
deriving DecidableEq, Repr

/-- The process serves requests. -/
def Process.Serving (P : Process) : Prop :=
  P.bridge = .set ∨ P.bridge = .absent

instance (P : Process) : Decidable P.Serving :=
  inferInstanceAs (Decidable (_ ∨ _))

def step (s : System) : Action → Option System
  | .readVersion p =>
      if (s.processes p).bridge = .connecting then
        some (s.set p { s.processes p with bridge := .versionRead s.counter })
      else none
  | .setBridge p =>
      match (s.processes p).bridge with
      | .versionRead redisVer =>
          some (s.set p { s.processes p with
            version := syncVersion (s.processes p).version redisVer
            bridge := .set })
      | _ => none
  | .initFails p =>
      if (s.processes p).bridge = .connecting then
        some (s.set p { s.processes p with bridge := .absent })
      else none
  | .listen p =>
      if (s.processes p).bridge = .set ∧ (s.processes p).listener = .starting then
        some (s.set p { s.processes p with listener := .subscribed [] })
      else none
  | .relay p =>
      match (s.processes p).listener with
      | .subscribed (e :: rest) => some (s.set p ((s.processes p).relay e rest))
      | _ => none
  | .endListener p =>
      if (s.processes p).bridge = .set then
        some (s.set p { s.processes p with listener := .ended })
      else none
  | .closeBridge p =>
      if (s.processes p).bridge = .set ∧ (s.processes p).listener = .ended then
        some (s.set p { s.processes p with bridge := .absent })
      else none
  | .incr p c updateType policyId =>
      if (s.processes p).bridge = .set ∧ s.publishing c = none then
        some { s with
          counter := s.counter + 1
          publishing :=
            Function.update s.publishing c (some ⟨updateType, policyId, s.counter + 1⟩) }
      else none
  | .publish c =>
      (s.publishing c).map fun e =>
        { s with
          channel := s.channel ++ [e]
          processes := fun p => (s.processes p).deliver e
          publishing := Function.update s.publishing c none }
  | .publishFails c =>
      (s.publishing c).map fun _ => { s with publishing := Function.update s.publishing c none }
  | .publishLocal p updateType policyId =>
      if (s.processes p).bridge = .absent then
        some (s.set p ({ s.processes p with version := (s.processes p).version + 1 }.put
          ⟨updateType, policyId, (s.processes p).version + 1⟩))
      else none
  | .subscribe p =>
      if (s.processes p).Serving then some (s.set p (s.processes p).subscribe) else none
  | .unsubscribe p q => some (s.set p ((s.processes p).unsubscribe q))

/-- All processes and their Redis. -/
def redis : TSys System Action where
  init := fun s => s = System.start
  step := step

/-! ## Single processes -/

theorem syncVersion_eq (version ver : Nat) : syncVersion version ver = max version ver := by
  fun_induction syncVersion version ver with
  | case1 version hlt ih => omega
  | case2 version hge => omega

namespace Process

variable {P : Process} {e : Event}

@[simp] theorem put_version : (P.put e).version = P.version := rfl
@[simp] theorem put_bridge : (P.put e).bridge = P.bridge := rfl
@[simp] theorem put_listener : (P.put e).listener = P.listener := rfl
@[simp] theorem put_opened : (P.put e).opened = P.opened := rfl

@[simp] theorem relay_bridge {rest : List Event} : (P.relay e rest).bridge = P.bridge := rfl
@[simp] theorem relay_listener {rest : List Event} :
    (P.relay e rest).listener = .subscribed rest := rfl
@[simp] theorem relay_opened {rest : List Event} : (P.relay e rest).opened = P.opened := rfl

@[simp] theorem relay_version {rest : List Event} :
    (P.relay e rest).version = max P.version e.newVersion :=
  syncVersion_eq P.version e.newVersion

@[simp] theorem deliver_version : (P.deliver e).version = P.version := by
  unfold deliver
  split <;> rfl

@[simp] theorem deliver_bridge : (P.deliver e).bridge = P.bridge := by
  unfold deliver
  split <;> rfl

@[simp] theorem deliver_subscribers : (P.deliver e).subscribers = P.subscribers := by
  unfold deliver
  split <;> rfl

@[simp] theorem deliver_opened : (P.deliver e).opened = P.opened := by
  unfold deliver
  split <;> rfl

/-- A message reaches the listeners that are subscribed. -/
theorem deliver_listener : (P.deliver e).listener =
    match P.listener with
    | .subscribed pending => .subscribed (pending ++ [e])
    | l => l := by
  cases hl : P.listener <;> simp only [deliver, hl]

end Process

/-! ## What a step does -/

/-- What a step makes of one process, with the messages it publishes. -/
inductive Process.Moves (counter : Nat) : Process → List Event → Process → Prop
  | stay {P} : Moves counter P [] P
  | readVersion {P} : P.bridge = .connecting →
      Moves counter P [] { P with bridge := .versionRead counter }
  | setBridge {P redisVer} : P.bridge = .versionRead redisVer →
      Moves counter P [] { P with version := syncVersion P.version redisVer, bridge := .set }
  | initFails {P} : P.bridge = .connecting → Moves counter P [] { P with bridge := .absent }
  | listen {P} : P.bridge = .set → P.listener = .starting →
      Moves counter P [] { P with listener := .subscribed [] }
  | relay {P e rest} : P.listener = .subscribed (e :: rest) →
      Moves counter P [] (P.relay e rest)
  | endListener {P} : P.bridge = .set → Moves counter P [] { P with listener := .ended }
  | closeBridge {P} : P.bridge = .set → P.listener = .ended →
      Moves counter P [] { P with bridge := .absent }
  | publishLocal {P} {e : Event} : P.bridge = .absent → e.newVersion = P.version + 1 →
      Moves counter P [] ({ P with version := P.version + 1 }.put e)
  | subscribe {P} : P.Serving → Moves counter P [] P.subscribe
  | unsubscribe {P} (q : Nat) : Moves counter P [] (P.unsubscribe q)
  | deliver {P} (e : Event) : Moves counter P [e] (P.deliver e)

/-- A step that sets one process moves it and leaves the others alone. -/
theorem moves_set {s : System} {p : Nat} {P : Process}
    (h : (s.processes p).Moves s.counter [] P) (p' : Nat) :
    ∃ new, (s.set p P).channel = s.channel ++ new ∧
      (s.processes p').Moves s.counter new ((s.set p P).processes p') := by
  refine ⟨[], (List.append_nil _).symm, ?_⟩
  by_cases hp : p' = p
  · subst hp
    simpa [System.set] using h
  · simpa [System.set, Function.update_of_ne hp] using Process.Moves.stay

theorem step_moves {s s' : System} {a : Action} (h : step s a = some s') (p : Nat) :
    ∃ new, s'.channel = s.channel ++ new ∧
      (s.processes p).Moves s.counter new (s'.processes p) := by
  have hstay : s'.channel = s.channel → s'.processes = s.processes →
      ∃ new, s'.channel = s.channel ++ new ∧
        (s.processes p).Moves s.counter new (s'.processes p) := by
    intro hchannel hprocesses
    exact ⟨[], by rw [hchannel, List.append_nil], hprocesses ▸ .stay⟩
  cases a with
  | readVersion p =>
      simp only [step, Option.ite_none_right_eq_some, Option.some.injEq] at h
      exact h.2 ▸ moves_set (.readVersion h.1) _
  | setBridge p =>
      simp only [step] at h
      split at h
      · next hb => exact Option.some.inj h ▸ moves_set (.setBridge hb) _
      · cases h
  | initFails p =>
      simp only [step, Option.ite_none_right_eq_some, Option.some.injEq] at h
      exact h.2 ▸ moves_set (.initFails h.1) _
  | listen p =>
      simp only [step, Option.ite_none_right_eq_some, Option.some.injEq] at h
      exact h.2 ▸ moves_set (.listen h.1.1 h.1.2) _
  | relay p =>
      simp only [step] at h
      split at h
      · next hl => exact Option.some.inj h ▸ moves_set (.relay hl) _
      · cases h
  | endListener p =>
      simp only [step, Option.ite_none_right_eq_some, Option.some.injEq] at h
      exact h.2 ▸ moves_set (.endListener h.1) _
  | closeBridge p =>
      simp only [step, Option.ite_none_right_eq_some, Option.some.injEq] at h
      exact h.2 ▸ moves_set (.closeBridge h.1.1 h.1.2) _
  | incr p c updateType policyId =>
      simp only [step, Option.ite_none_right_eq_some, Option.some.injEq] at h
      exact hstay (h.2 ▸ rfl) (h.2 ▸ rfl)
  | publish c =>
      simp only [step, Option.map_eq_some_iff] at h
      obtain ⟨e, -, rfl⟩ := h
      exact ⟨[e], rfl, .deliver e⟩
  | publishFails c =>
      simp only [step, Option.map_eq_some_iff] at h
      obtain ⟨e, -, rfl⟩ := h
      exact hstay rfl rfl
  | publishLocal p updateType policyId =>
      simp only [step, Option.ite_none_right_eq_some, Option.some.injEq] at h
      exact h.2 ▸ moves_set (.publishLocal h.1 rfl) _
  | subscribe p =>
      simp only [step, Option.ite_none_right_eq_some, Option.some.injEq] at h
      exact h.2 ▸ moves_set (.subscribe h.1) _
  | unsubscribe p q =>
      simp only [step, Option.some.injEq] at h
      exact h ▸ moves_set (.unsubscribe q) _

/-- What a step does to Redis: nothing, an INCR, a PUBLISH, or the loss of one. -/
theorem step_versions {s s' : System} {a : Action} (h : step s a = some s') :
    (s'.counter = s.counter ∧ s'.channel = s.channel ∧ s'.publishing = s.publishing) ∨
    (∃ c e, s.publishing c = none ∧ e.newVersion = s.counter + 1 ∧ s'.counter = s.counter + 1 ∧
      s'.channel = s.channel ∧ s'.publishing = Function.update s.publishing c (some e)) ∨
    (∃ c e, s.publishing c = some e ∧ s'.counter = s.counter ∧ s'.channel = s.channel ++ [e] ∧
      s'.publishing = Function.update s.publishing c none) ∨
    (∃ c e, a = .publishFails c ∧ s.publishing c = some e ∧ s'.counter = s.counter ∧
      s'.channel = s.channel ∧ s'.publishing = Function.update s.publishing c none) := by
  cases a with
  | incr p c updateType policyId =>
      simp only [step, Option.ite_none_right_eq_some, Option.some.injEq] at h
      obtain ⟨⟨-, hc⟩, rfl⟩ := h
      exact .inr (.inl ⟨c, _, hc, rfl, rfl, rfl, rfl⟩)
  | publish c =>
      simp only [step, Option.map_eq_some_iff] at h
      obtain ⟨e, hc, rfl⟩ := h
      exact .inr (.inr (.inl ⟨c, e, hc, rfl, rfl, rfl⟩))
  | publishFails c =>
      simp only [step, Option.map_eq_some_iff] at h
      obtain ⟨e, hc, rfl⟩ := h
      exact .inr (.inr (.inr ⟨c, e, rfl, hc, rfl, rfl, rfl⟩))
  | setBridge p =>
      simp only [step] at h
      split at h
      · exact .inl (Option.some.inj h ▸ ⟨rfl, rfl, rfl⟩)
      · cases h
  | relay p =>
      simp only [step] at h
      split at h
      · exact .inl (Option.some.inj h ▸ ⟨rfl, rfl, rfl⟩)
      · cases h
  | unsubscribe p q =>
      simp only [step, Option.some.injEq] at h
      exact .inl (h ▸ ⟨rfl, rfl, rfl⟩)
  | _ =>
      simp only [step, Option.ite_none_right_eq_some, Option.some.injEq] at h
      exact .inl (h.2 ▸ ⟨rfl, rfl, rfl⟩)

/-! ## Delivery -/

namespace Process

variable {P P' : Process} {e : Event} {q counter : Nat} {new : List Event}

theorem received_put : (P.put e).received q = (P.received q).map (· ++ [e]) :=
  lookup_map_snd (· ++ [e]) P.subscribers

theorem received_subscribe (hq : q < P.opened) : P.subscribe.received q = P.received q := by
  have hne : (q == P.opened) = false := by simpa using Nat.ne_of_lt hq
  simp [received, subscribe, List.lookup_append, List.lookup_cons, hne]

theorem received_unsubscribe {x : Nat} {r : List Event}
    (h : (P.unsubscribe x).received q = some r) : P.received q = some r := by
  rw [received, unsubscribe, lookup_filter_ne, Option.ite_none_left_eq_some] at h
  exact h.2

/-- A process and the channel: the queues that a subscribed listener feeds hold a
stretch of the channel that the connection continues to its end. -/
structure Follows (channel : List Event) (P : Process) : Prop where
  ids : ∀ x ∈ P.subscribers, x.1 < P.opened
  idle : ¬ P.Serving → P.listener = .starting ∧ P.subscribers = []
  waiting : P.bridge = .set → P.listener = .starting → ∀ x ∈ P.subscribers, x.2 = []
  bridged : ∀ pending, P.listener = .subscribed pending → P.bridge = .set
  pending : ∀ pending, P.listener = .subscribed pending → pending <:+ channel
  queues : ∀ pending, P.listener = .subscribed pending →
    ∀ x ∈ P.subscribers, x.2 ++ pending <:+ channel

theorem follows_start : Follows [] start := by
  constructor <;> simp [start, Serving]

theorem follows_relay {channel rest : List Event} (h : Follows channel P)
    (hl : P.listener = .subscribed (e :: rest)) : Follows channel (P.relay e rest) where
  ids := by
    intro x hx
    obtain ⟨y, hy, rfl⟩ := List.mem_map.mp hx
    exact h.ids y hy
  idle hs := absurd (.inl (h.bridged _ hl)) hs
  waiting _ hl' := by cases hl'
  bridged _ _ := h.bridged _ hl
  pending := by
    rintro _ ⟨⟩
    exact (List.suffix_cons e rest).trans (h.pending _ hl)
  queues := by
    rintro _ ⟨⟩ x hx
    obtain ⟨y, hy, rfl⟩ := List.mem_map.mp hx
    -- the event moves from the connection to the end of the queue
    simpa using h.queues _ hl y hy

theorem follows_deliver {channel : List Event} (h : Follows channel P) :
    Follows (channel ++ [e]) (P.deliver e) := by
  have hcases : ∀ pending, (P.deliver e).listener = .subscribed pending →
      ∃ before, P.listener = .subscribed before ∧ pending = before ++ [e] := by
    intro pending hp
    rw [deliver_listener] at hp
    cases hl : P.listener <;> simp_all
  constructor
  case ids => simpa using h.ids
  case idle =>
    intro hs
    have hidle := h.idle (by simpa [Serving] using hs)
    simp [deliver_listener, hidle.1, hidle.2]
  case waiting =>
    intro hb hl
    have hstart : P.listener = .starting := by
      rw [deliver_listener] at hl
      cases hl' : P.listener <;> simp_all
    simpa using h.waiting (by simpa using hb) hstart
  case bridged =>
    intro pending hp
    obtain ⟨before, hl, -⟩ := hcases pending hp
    simpa using h.bridged before hl
  case pending =>
    intro pending hp
    obtain ⟨before, hl, rfl⟩ := hcases pending hp
    obtain ⟨pre, hpre⟩ := h.pending before hl
    exact ⟨pre, by rw [← hpre, List.append_assoc]⟩
  case queues =>
    intro pending hp x hx
    obtain ⟨before, hl, rfl⟩ := hcases pending hp
    obtain ⟨pre, hpre⟩ := h.queues before hl x (by simpa using hx)
    exact ⟨pre, by rw [← hpre]; simp⟩

theorem follows_moves {channel : List Event} (h : Follows channel P)
    (hm : P.Moves counter new P') : Follows (channel ++ new) P' := by
  cases hm with
  | deliver e => exact follows_deliver h
  | stay => simpa using h
  | relay hl => simpa using follows_relay h hl
  | readVersion hb =>
      have hidle := h.idle (by simp [Serving, hb])
      constructor <;> simp [Serving, hidle.1, hidle.2]
  | setBridge hb =>
      have hidle := h.idle (by simp [Serving, hb])
      constructor <;> simp [Serving, hidle.1, hidle.2]
  | initFails hb =>
      have hidle := h.idle (by simp [Serving, hb])
      constructor <;> simp [Serving, hidle.1, hidle.2]
  | listen hb hl =>
      have hempty := h.waiting hb hl
      exact ⟨h.ids, by simp [Serving, hb], by simp, by simp [hb], by simp, by
        rintro _ ⟨⟩ x hx
        simp [hempty x hx]⟩
  | endListener hb => exact ⟨h.ids, by simp [Serving, hb], by simp, by simp, by simp, by simp⟩
  | closeBridge hb hl =>
      exact ⟨h.ids, by simp [Serving], by simp, by simp [hl], by simp [hl], by simp [hl]⟩
  | publishLocal hb _ =>
      have hnot : ∀ pending, P.listener ≠ .subscribed pending := by
        intro pending hl
        rw [h.bridged pending hl] at hb
        cases hb
      refine ⟨fun x hx => ?_, by simp [Serving, hb], by simp [hb],
        fun _ hl => absurd hl (hnot _), fun _ hl => absurd hl (hnot _),
        fun _ hl => absurd hl (hnot _)⟩
      obtain ⟨y, hy, rfl⟩ := List.mem_map.mp hx
      exact h.ids y hy
  | subscribe hs =>
      have hmem : ∀ x ∈ P.subscribe.subscribers, x ∈ P.subscribers ∨ x = (P.opened, []) := by
        simp [subscribe]
      refine ⟨?_, fun hn => absurd hs hn, ?_, h.bridged, ?_, ?_⟩
      · intro x hx
        rcases hmem x hx with hx | rfl
        · exact Nat.lt_succ_of_lt (h.ids x hx)
        · exact Nat.lt_succ_self _
      · intro hb hl x hx
        rcases hmem x hx with hx | rfl
        · exact h.waiting hb hl x hx
        · rfl
      · simpa [subscribe] using h.pending
      · intro pending hl x hx
        rw [List.append_nil]
        rcases hmem x hx with hx | rfl
        · exact h.queues pending hl x hx
        · simpa using h.pending pending hl
  | unsubscribe q =>
      have hsub : ∀ x ∈ (P.unsubscribe q).subscribers, x ∈ P.subscribers :=
        fun x hx => (List.mem_filter.mp hx).1
      refine ⟨fun x hx => h.ids x (hsub x hx), fun hn => ?_, fun hb hl x hx =>
        h.waiting hb hl x (hsub x hx), h.bridged, by simpa [unsubscribe] using h.pending, ?_⟩
      · obtain ⟨hl, hnil⟩ := h.idle hn
        exact ⟨hl, by simp [unsubscribe, hnil]⟩
      · intro pending hl x hx
        simpa using h.queues pending hl x (hsub x hx)

/-- Queue `q`, as long as it is on the bus and the listener lives: what it has been
given and what the connection holds for it make up `owed`. -/
structure Carries (q : Nat) (owed : List Event) (P : Process) : Prop where
  old : q < P.opened
  started : P.listener ≠ .starting
  owed : ∀ pending r, P.listener = .subscribed pending → P.received q = some r →
    r ++ pending = owed

theorem carries_moves {channel owed : List Event} (h : Carries q owed P) (hf : Follows channel P)
    (hm : P.Moves counter new P') : Carries q (owed ++ new) P' := by
  cases hm with
  | stay => simpa using h
  | deliver e =>
      refine ⟨by simpa using h.old, ?_, ?_⟩
      · have := h.started
        rw [deliver_listener]
        cases hl : P.listener <;> simp_all
      · intro pending r hp hr
        rw [deliver_listener] at hp
        rw [received, deliver_subscribers, ← received] at hr
        cases hl : P.listener with
        | starting => exact absurd hl h.started
        | ended => simp [hl] at hp
        | subscribed before =>
            simp only [hl, Listener.subscribed.injEq] at hp
            rw [← hp, ← h.owed before r hl hr, List.append_assoc]
  | @relay e rest hl =>
      refine ⟨h.old, by simp, ?_⟩
      rintro _ r ⟨⟩ hr
      rw [relay, received_put, Option.map_eq_some_iff] at hr
      obtain ⟨r, hr, rfl⟩ := hr
      simpa using h.owed _ r hl hr
  | readVersion hb => exact absurd (hf.idle (by simp [Serving, hb])).1 h.started
  | setBridge hb => exact absurd (hf.idle (by simp [Serving, hb])).1 h.started
  | initFails hb => exact absurd (hf.idle (by simp [Serving, hb])).1 h.started
  | listen hb hl => exact absurd hl h.started
  | endListener hb => exact ⟨h.old, by simp, by simp⟩
  | closeBridge hb hl => exact ⟨h.old, h.started, by simp [hl]⟩
  | publishLocal hb _ =>
      refine ⟨h.old, h.started, fun pending _ hl _ => ?_⟩
      rw [hf.bridged pending hl] at hb
      cases hb
  | subscribe hs =>
      refine ⟨Nat.lt_succ_of_lt h.old, h.started, ?_⟩
      intro pending r hl hr
      rw [received_subscribe h.old] at hr
      simpa using h.owed pending r hl hr
  | unsubscribe x =>
      refine ⟨h.old, h.started, ?_⟩
      intro pending r hl hr
      simpa using h.owed pending r hl (received_unsubscribe hr)

end Process

theorem follows_inductive :
    redis.InductiveBy (fun _ _ => True) fun s =>
      ∀ p, (s.processes p).Follows s.channel where
  init := by
    rintro s rfl p
    exact Process.follows_start
  step := by
    intro s a s' hs _ hstep p
    obtain ⟨new, hchannel, hmoves⟩ := step_moves hstep p
    rw [hchannel]
    exact Process.follows_moves (hs p) hmoves

/-- What a stream is owed along a run: nothing it was owed is lost, and the messages
published since are added at the end. -/
theorem carries_run {s t : System} {as : List Action} {p q : Nat} {owed : List Event}
    (hs : redis.Reachable s) (h : (s.processes p).Carries q owed)
    (hrun : redis.run s as = some t) :
    ∃ new, t.channel = s.channel ++ new ∧ (t.processes p).Carries q (owed ++ new) := by
  have hkeeps := TSys.run_keeps_of_step
    (P := fun s' : System => (∀ p, (s'.processes p).Follows s'.channel) ∧
      ∃ new, s'.channel = s.channel ++ new ∧ (s'.processes p).Carries q (owed ++ new))
    ?_ as ⟨follows_inductive.invariant s hs, [], by simp, by simpa using h⟩ hrun
  · exact hkeeps.2
  · rintro s₁ a s₂ ⟨hf, new, hchannel, hc⟩ hstep
    refine ⟨fun p => follows_inductive.step s₁ a s₂ hf trivial hstep p, ?_⟩
    obtain ⟨added, hadded, hmoves⟩ := step_moves hstep p
    refine ⟨new ++ added, by rw [hadded, hchannel, List.append_assoc], ?_⟩
    rw [← List.append_assoc]
    exact Process.carries_moves hc (hf p) hmoves

/-- The streams of all processes see one order of events. As long as a stream is on
the bus and the listener of its process lives, a run adds to what the stream has been
given and is still to be given exactly the messages published meanwhile, in the order
of their PUBLISH. And of any two such streams, in whatever processes, one has been
given and is still to be given an end of what the other has: none lost, none twice. -/
theorem policyUpdates_agree {s t : System} {as : List Action} {p q : Nat}
    {pending received : List Event} (hs : redis.Reachable s) (hrun : redis.run s as = some t)
    (hp : (s.processes p).listener = .subscribed pending)
    (hq : (s.processes p).received q = some received) :
    ∃ new, t.channel = s.channel ++ new ∧
      ∀ pending' received', (t.processes p).listener = .subscribed pending' →
        (t.processes p).received q = some received' →
        received' ++ pending' = received ++ pending ++ new ∧
        ∀ p₂ q₂ pending₂ received₂, (t.processes p₂).listener = .subscribed pending₂ →
          (t.processes p₂).received q₂ = some received₂ →
          received' ++ pending' <:+ received₂ ++ pending₂ ∨
          received₂ ++ pending₂ <:+ received' ++ pending' := by
  have hfs := follows_inductive.invariant s hs p
  have hcarries : (s.processes p).Carries q (received ++ pending) := by
    refine ⟨hfs.ids _ (mem_of_lookup hq), by simp [hp], ?_⟩
    intro pending' received' hp' hq'
    rw [hp, Listener.subscribed.injEq] at hp'
    rw [hq, Option.some.injEq] at hq'
    rw [hp', hq']
  obtain ⟨new, hchannel, hc⟩ := carries_run hs hcarries hrun
  have hft := follows_inductive.invariant t (TSys.reachable_run hs as hrun)
  refine ⟨new, hchannel, fun pending' received' hp' hq' => ⟨hc.owed _ _ hp' hq', ?_⟩⟩
  intro p₂ q₂ pending₂ received₂ hp₂ hq₂
  exact List.suffix_or_suffix_of_suffix
    ((hft p).queues _ hp' _ (mem_of_lookup hq'))
    ((hft p₂).queues _ hp₂ _ (mem_of_lookup hq₂))

/-- Two processes start up, and an agent opens a stream in each. -/
def twoStreams : List Action :=
  [.readVersion 0, .setBridge 0, .listen 0, .subscribe 0,
   .readVersion 1, .setBridge 1, .listen 1, .subscribe 1]

/-- A policy is added in the first of two processes, and both streams get the event. -/
theorem policyUpdates_agree_two :
    ∃ s t, redis.run System.start twoStreams = some s ∧
      redis.run s [.incr 0 0 .policyAdd 7, .publish 0, .relay 1, .relay 0] = some t ∧
      (t.processes 0).received 0 = some [⟨.policyAdd, 7, 1⟩] ∧
      (t.processes 1).received 0 = some [⟨.policyAdd, 7, 1⟩] ∧
      ∃ new, t.channel = s.channel ++ new ∧
        ∀ pending' received', (t.processes 1).listener = .subscribed pending' →
          (t.processes 1).received 0 = some received' →
          received' ++ pending' = [] ++ [] ++ new ∧
          ∀ p₂ q₂ pending₂ received₂, (t.processes p₂).listener = .subscribed pending₂ →
            (t.processes p₂).received q₂ = some received₂ →
            received' ++ pending' <:+ received₂ ++ pending₂ ∨
            received₂ ++ pending₂ <:+ received' ++ pending' :=
  ⟨_, _, rfl, rfl, rfl, rfl,
    policyUpdates_agree (TSys.reachable_run (TSys.ReachableBy.init rfl) twoStreams rfl)
      (show redis.run _ [.incr 0 0 .policyAdd 7, .publish 0, .relay 1, .relay 0] = some _ from rfl)
      rfl rfl⟩

end AkesoDlp.Server.PolicyBridge
