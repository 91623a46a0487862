import AkesoDlp.Server.PolicyBridge

/-!
# Policy versions across server processes

The numbers that INCR hands out, the version of each process's bus, and the streams
that are told about them. Two events may be published in the other order than their
numbers were taken, so a bus may jump over a number that is still on its way; it
never gets ahead of the version key, and it catches up with it.
-/

namespace AkesoDlp.Server.PolicyBridge

open Lib PolicyStream

/-! ## Versions -/

/-- The version numbers that INCR has handed out. -/
structure Versions (s : System) : Prop where
  published : ∀ e ∈ s.channel, e.newVersion ≤ s.counter
  inFlight : ∀ c e, s.publishing c = some e → e.newVersion ≤ s.counter
  fresh : ∀ c e, s.publishing c = some e → ∀ e' ∈ s.channel, e'.newVersion ≠ e.newVersion
  apart : ∀ c c' e e', s.publishing c = some e → s.publishing c' = some e' →
    e.newVersion = e'.newVersion → c = c'
  once : (s.channel.map (·.newVersion)).Nodup

/-- Finishing call `c` leaves the others in flight. -/
theorem publishing_of_finished {publishing : Nat → Option Event} {c c' : Nat} {e : Event}
    (h : Function.update publishing c none c' = some e) : c' ≠ c ∧ publishing c' = some e := by
  by_cases hc : c' = c
  · subst hc
    simp at h
  · exact ⟨hc, by rwa [Function.update_of_ne hc] at h⟩

theorem versions_finished {s s' : System} {c : Nat} (h : Versions s)
    (hcounter : s'.counter = s.counter) (hchannel : s'.channel = s.channel)
    (hpublishing : s'.publishing = Function.update s.publishing c none) : Versions s' := by
  constructor
  case published => simpa [hcounter, hchannel] using h.published
  case once => simpa [hchannel] using h.once
  case inFlight =>
    intro c' e he
    rw [hpublishing] at he
    exact hcounter ▸ h.inFlight c' e (publishing_of_finished he).2
  case fresh =>
    intro c' e he
    rw [hpublishing] at he
    exact hchannel ▸ h.fresh c' e (publishing_of_finished he).2
  case apart =>
    intro c₁ c₂ e₁ e₂ h₁ h₂ heq
    rw [hpublishing] at h₁ h₂
    exact h.apart c₁ c₂ e₁ e₂ (publishing_of_finished h₁).2 (publishing_of_finished h₂).2 heq

theorem versions_incr {s s' : System} {c : Nat} {e : Event} (h : Versions s)
    (he : e.newVersion = s.counter + 1) (hcounter : s'.counter = s.counter + 1)
    (hchannel : s'.channel = s.channel)
    (hpublishing : s'.publishing = Function.update s.publishing c (some e)) : Versions s' := by
  have hcases : ∀ c' e', s'.publishing c' = some e' →
      c' = c ∧ e' = e ∨ s.publishing c' = some e' := by
    intro c' e' h'
    rw [hpublishing] at h'
    by_cases hc : c' = c
    · subst hc
      rw [Function.update_self, Option.some.injEq] at h'
      exact .inl ⟨rfl, h'.symm⟩
    · exact .inr (by rwa [Function.update_of_ne hc] at h')
  constructor
  case published =>
    intro e' h'
    rw [hchannel] at h'
    have := h.published e' h'
    omega
  case once => simpa [hchannel] using h.once
  case inFlight =>
    intro c' e' h'
    rcases hcases c' e' h' with ⟨-, rfl⟩ | hold
    · omega
    · have := h.inFlight c' e' hold
      omega
  case fresh =>
    intro c' e' h' e₂ h₂
    rw [hchannel] at h₂
    rcases hcases c' e' h' with ⟨-, rfl⟩ | hold
    · have := h.published e₂ h₂
      omega
    · exact h.fresh c' e' hold e₂ h₂
  case apart =>
    intro c₁ c₂ e₁ e₂ h₁ h₂ heq
    rcases hcases c₁ e₁ h₁ with ⟨rfl, rfl⟩ | hold₁ <;>
      rcases hcases c₂ e₂ h₂ with ⟨rfl, rfl⟩ | hold₂
    · rfl
    · have := h.inFlight c₂ e₂ hold₂
      omega
    · have := h.inFlight c₁ e₁ hold₁
      omega
    · exact h.apart c₁ c₂ e₁ e₂ hold₁ hold₂ heq

theorem versions_publish {s s' : System} {c : Nat} {e : Event} (h : Versions s)
    (hc : s.publishing c = some e) (hcounter : s'.counter = s.counter)
    (hchannel : s'.channel = s.channel ++ [e])
    (hpublishing : s'.publishing = Function.update s.publishing c none) : Versions s' := by
  have hmem : ∀ e' ∈ s'.channel, e' ∈ s.channel ∨ e' = e := by
    simp [hchannel]
  constructor
  case published =>
    intro e' h'
    rcases hmem e' h' with h' | rfl
    · exact hcounter ▸ h.published e' h'
    · exact hcounter ▸ h.inFlight c e' hc
  case once =>
    rw [hchannel, List.map_append, List.map_singleton, List.nodup_append]
    refine ⟨h.once, List.nodup_singleton _, ?_⟩
    intro v hv v' hv'
    obtain ⟨e', he', rfl⟩ := List.mem_map.mp hv
    rw [List.mem_singleton.mp hv']
    exact h.fresh c e hc e' he'
  case inFlight =>
    intro c' e' h'
    rw [hpublishing] at h'
    exact hcounter ▸ h.inFlight c' e' (publishing_of_finished h').2
  case fresh =>
    intro c' e' h' e₂ h₂
    rw [hpublishing] at h'
    obtain ⟨hne, h'⟩ := publishing_of_finished h'
    rcases hmem e₂ h₂ with h₂ | rfl
    · exact h.fresh c' e' h' e₂ h₂
    · exact fun heq => hne (h.apart c' c e' e₂ h' hc heq.symm)
  case apart =>
    intro c₁ c₂ e₁ e₂ h₁ h₂ heq
    rw [hpublishing] at h₁ h₂
    exact h.apart c₁ c₂ e₁ e₂ (publishing_of_finished h₁).2 (publishing_of_finished h₂).2 heq

theorem versions_step {s s' : System} {a : Action} (h : Versions s) (hstep : step s a = some s') :
    Versions s' := by
  rcases step_versions hstep with ⟨hcounter, hchannel, hpublishing⟩ |
    ⟨c, e, -, he, hcounter, hchannel, hpublishing⟩ | ⟨c, e, hc, hcounter, hchannel, hpublishing⟩ |
    ⟨c, e, -, -, hcounter, hchannel, hpublishing⟩
  · exact ⟨by simpa [hcounter, hchannel] using h.published,
      by simpa [hcounter, hpublishing] using h.inFlight,
      by simpa [hchannel, hpublishing] using h.fresh,
      by simpa [hpublishing] using h.apart, by simpa [hchannel] using h.once⟩
  · exact versions_incr h he hcounter hchannel hpublishing
  · exact versions_publish h hc hcounter hchannel hpublishing
  · exact versions_finished h hcounter hchannel hpublishing

namespace Process

variable {P P' : Process} {counter : Nat} {new : List Event}

/-- The bus of a process and the version key. -/
structure InStep (counter : Nat) (P : Process) : Prop where
  read : ∀ redisVer, P.bridge = .versionRead redisVer → redisVer ≤ counter
  behind : P.bridge ≠ .absent → P.version ≤ counter
  covers : ∀ x ∈ P.subscribers, ∀ e ∈ x.2, e.newVersion ≤ P.version

theorem InStep.mono {counter' : Nat} (h : InStep counter P) (hle : counter ≤ counter') :
    InStep counter' P where
  read redisVer hb := Nat.le_trans (h.read redisVer hb) hle
  behind hb := Nat.le_trans (h.behind hb) hle
  covers := h.covers

theorem version_le_of_moves (hm : P.Moves counter new P') : P.version ≤ P'.version := by
  cases hm with
  | setBridge hb => exact syncVersion_eq P.version _ ▸ Nat.le_max_left _ _
  | relay hl => exact relay_version ▸ Nat.le_max_left _ _
  | publishLocal hb he => exact Nat.le_succ _
  | deliver e => simp
  | _ => exact Nat.le_refl _

/-- Putting an event into the queues, once the version covers it. -/
theorem covers_put {e : Event} (h : ∀ x ∈ P.subscribers, ∀ e ∈ x.2, e.newVersion ≤ P.version)
    (he : e.newVersion ≤ P.version) :
    ∀ x ∈ (P.put e).subscribers, ∀ e ∈ x.2, e.newVersion ≤ P.version := by
  intro x hx e' he'
  obtain ⟨y, hy, rfl⟩ := List.mem_map.mp hx
  rcases List.mem_append.mp he' with he' | he'
  · exact h y hy e' he'
  · rw [List.mem_singleton.mp he']
    exact he

theorem inStep_moves {channel : List Event} (h : InStep counter P) (hf : Follows channel P)
    (hle : ∀ e ∈ channel, e.newVersion ≤ counter) (hm : P.Moves counter new P') :
    InStep counter P' := by
  have hcovers : ∀ version, P.version ≤ version →
      ∀ x ∈ P.subscribers, ∀ e ∈ x.2, e.newVersion ≤ version :=
    fun version hv x hx e he => Nat.le_trans (h.covers x hx e he) hv
  cases hm with
  | stay => exact h
  | readVersion hb => exact ⟨by simp, fun _ => h.behind (by simp [hb]), h.covers⟩
  | @setBridge redisVer hb =>
      refine ⟨by simp, fun _ => ?_, hcovers _ ?_⟩
      · rw [syncVersion_eq]
        exact Nat.max_le.mpr ⟨h.behind (by simp [hb]), h.read redisVer hb⟩
      · exact syncVersion_eq P.version _ ▸ Nat.le_max_left _ _
  | initFails hb => exact ⟨by simp, by simp, h.covers⟩
  | listen hb hl => exact ⟨h.read, h.behind, h.covers⟩
  | @relay e rest hl =>
      have hcounter : e.newVersion ≤ counter :=
        hle e ((hf.pending _ hl).subset List.mem_cons_self)
      refine ⟨h.read, fun hb => ?_, ?_⟩
      · rw [relay_version]
        exact Nat.max_le.mpr ⟨h.behind hb, hcounter⟩
      · refine covers_put (hcovers _ ?_) ?_ <;> rw [syncVersion_eq]
        · exact Nat.le_max_left _ _
        · exact Nat.le_max_right _ _
  | endListener hb => exact ⟨h.read, h.behind, h.covers⟩
  | closeBridge hb hl => exact ⟨by simp, by simp, h.covers⟩
  | publishLocal hb he =>
      exact ⟨h.read, fun hn => absurd hb hn,
        covers_put (hcovers _ (Nat.le_succ _)) (Nat.le_of_eq he)⟩
  | subscribe hs =>
      refine ⟨h.read, h.behind, fun x hx => ?_⟩
      rcases List.mem_append.mp hx with hx | hx
      · exact h.covers x hx
      · simp [List.mem_singleton.mp hx]
  | unsubscribe q => exact ⟨h.read, h.behind, fun x hx => h.covers x (List.mem_filter.mp hx).1⟩
  | deliver e =>
      exact ⟨by simpa using h.read, by simpa using h.behind, by simpa using h.covers⟩

/-- The bus of a process whose listener lives has reached the events of `owed`, but
for those still on the connection. -/
structure Catches (owed : List Event) (P : Process) : Prop where
  started : P.listener ≠ .starting
  reached : ∀ pending, P.listener = .subscribed pending →
    ∀ e ∈ owed, e ∈ pending ∨ e.newVersion ≤ P.version

theorem catches_moves {channel owed : List Event} (h : Catches owed P) (hf : Follows channel P)
    (hm : P.Moves counter new P') : Catches (owed ++ new) P' := by
  cases hm with
  | stay => simpa using h
  | readVersion hb => exact absurd (hf.idle (by simp [Serving, hb])).1 h.started
  | setBridge hb => exact absurd (hf.idle (by simp [Serving, hb])).1 h.started
  | initFails hb => exact absurd (hf.idle (by simp [Serving, hb])).1 h.started
  | listen hb hl => exact absurd hl h.started
  | @relay e rest hl =>
      refine ⟨by simp, ?_⟩
      rintro _ ⟨⟩ e' he'
      rw [List.append_nil] at he'
      rw [relay_version]
      rcases h.reached _ hl e' he' with hmem | hle
      · rcases List.mem_cons.mp hmem with rfl | hrest
        · exact .inr (Nat.le_max_right _ _)
        · exact .inl hrest
      · exact .inr (Nat.le_trans hle (Nat.le_max_left _ _))
  | endListener hb => exact ⟨by simp, by simp⟩
  | closeBridge hb hl => exact ⟨h.started, by simp [hl]⟩
  | publishLocal hb he =>
      refine ⟨h.started, fun pending hl => ?_⟩
      rw [hf.bridged pending hl] at hb
      cases hb
  | subscribe hs => simpa using ⟨h.started, h.reached⟩
  | unsubscribe q => simpa using ⟨h.started, h.reached⟩
  | deliver e =>
      refine ⟨?_, ?_⟩
      · have := h.started
        rw [deliver_listener]
        cases hl : P.listener <;> simp_all
      · intro pending hp e' he'
        rw [deliver_listener] at hp
        cases hl : P.listener with
        | starting => exact absurd hl h.started
        | ended => simp [hl] at hp
        | subscribed before =>
            simp only [hl, Listener.subscribed.injEq] at hp
            rw [← hp, deliver_version]
            rcases List.mem_append.mp he' with he' | he'
            · exact (h.reached before hl e' he').imp_left (List.mem_append_left _)
            · exact .inl (List.mem_append_right _ he')

end Process

/-- What every run keeps. -/
structure Inv (s : System) : Prop where
  versions : Versions s
  follows : ∀ p, (s.processes p).Follows s.channel
  inStep : ∀ p, (s.processes p).InStep s.counter

theorem inv_start : Inv System.start := by
  refine ⟨?_, fun _ => Process.follows_start, fun _ => ?_⟩
  · constructor <;> simp [System.start]
  · constructor <;> simp [System.start, Process.start]

theorem inv_step {s s' : System} {a : Action} (h : Inv s) (hstep : step s a = some s') :
    Inv s' := by
  have hcounter : s.counter ≤ s'.counter := by
    rcases step_versions hstep with h | ⟨_, _, _, _, h, _⟩ | ⟨_, _, _, h, _⟩ |
      ⟨_, _, _, _, h, _⟩ <;> omega
  refine ⟨versions_step h.versions hstep,
    fun p => follows_inductive.step s _ s' h.follows trivial hstep p, fun p => ?_⟩
  obtain ⟨new, -, hmoves⟩ := step_moves hstep p
  exact (Process.inStep_moves (h.inStep p) (h.follows p) h.versions.published hmoves).mono hcounter

theorem inv_inductive : redis.InductiveBy (fun _ _ => True) Inv where
  init := by
    rintro s rfl
    exact inv_start
  step := fun _ _ _ hs _ hstep => inv_step hs hstep

/-- Version numbers over Redis are sound: no process with a bridge is ahead of the
version key, no stream has been given an event that the bus of its process does not
cover, each number is published once, and a bus never goes back. -/
theorem bridge_versions_sound {s : System} (hs : redis.Reachable s) :
    (∀ p, (s.processes p).bridge ≠ .absent → (s.processes p).version ≤ s.counter) ∧
    (∀ p q received, (s.processes p).received q = some received →
      ∀ e ∈ received, e.newVersion ≤ (s.processes p).version) ∧
    (s.channel.map (·.newVersion)).Nodup ∧
    ∀ as t, redis.run s as = some t →
      ∀ p, (s.processes p).version ≤ (t.processes p).version := by
  have hinv := inv_inductive.invariant s hs
  refine ⟨fun p => (hinv.inStep p).behind, ?_, hinv.versions.once, ?_⟩
  · intro p q received hq
    exact (hinv.inStep p).covers _ (mem_of_lookup hq)
  · intro as t hrun p
    refine TSys.run_keeps_of_step
      (P := fun s' : System => (s.processes p).version ≤ (s'.processes p).version) ?_ as
      (Nat.le_refl _) hrun
    intro s₁ a s₂ hle hstep
    obtain ⟨_, -, hmoves⟩ := step_moves hstep p
    exact Nat.le_trans hle (Process.version_le_of_moves hmoves)

/-- The two processes of `twoStreams` and an event on its way to both. -/
theorem bridge_versions_sound_two :
    ∃ s, redis.run System.start (twoStreams ++ [.incr 0 0 .policyAdd 7, .publish 0]) = some s ∧
      s.counter = 1 ∧
      (∀ p, (s.processes p).bridge ≠ .absent → (s.processes p).version ≤ s.counter) ∧
      (∀ p q received, (s.processes p).received q = some received →
        ∀ e ∈ received, e.newVersion ≤ (s.processes p).version) ∧
      (s.channel.map (·.newVersion)).Nodup ∧
      ∀ as t, redis.run s as = some t →
        ∀ p, (s.processes p).version ≤ (t.processes p).version :=
  ⟨_, rfl, rfl, bridge_versions_sound (TSys.reachable_run (TSys.ReachableBy.init rfl)
    (twoStreams ++ [.incr 0 0 .policyAdd 7, .publish 0]) rfl)⟩

/-! ## Convergence -/

/-- No PUBLISH raises. -/
def NoneLost (_ : System) (a : Action) : Prop :=
  ∀ c, a ≠ .publishFails c

/-- The numbers handed out since the key stood at `base` are those of the calls in
flight and of the messages published since. -/
def Accounted (base : Nat) (new : List Event) (s : System) : Prop :=
  ∀ v, base < v → v ≤ s.counter →
    (∃ c e, s.publishing c = some e ∧ e.newVersion = v) ∨ ∃ e ∈ new, e.newVersion = v

theorem accounted_step {base : Nat} {new : List Event} {s s' : System} {a : Action}
    (h : Accounted base new s) (hok : NoneLost s a) (hstep : step s a = some s') :
    ∃ added, s'.channel = s.channel ++ added ∧ Accounted base (new ++ added) s' := by
  rcases step_versions hstep with ⟨hcounter, hchannel, hpublishing⟩ |
    ⟨c, e, hc, he, hcounter, hchannel, hpublishing⟩ |
    ⟨c, e, hc, hcounter, hchannel, hpublishing⟩ | ⟨c, _, rfl, -⟩
  · refine ⟨[], by simp [hchannel], fun v hlo hhi => ?_⟩
    simpa [hpublishing] using h v hlo (hcounter ▸ hhi)
  · refine ⟨[], by simp [hchannel], fun v hlo hhi => ?_⟩
    by_cases hv : v = s.counter + 1
    · exact .inl ⟨c, e, by simp [hpublishing], he.trans hv.symm⟩
    · rcases h v hlo (by omega) with ⟨c', e', hc', hv'⟩ | hmem
      · have hne : c' ≠ c := by
          rintro rfl
          rw [hc] at hc'
          cases hc'
        exact .inl ⟨c', e', by rw [hpublishing, Function.update_of_ne hne, hc'], hv'⟩
      · exact .inr (by simpa using hmem)
  · refine ⟨[e], hchannel, fun v hlo hhi => ?_⟩
    rcases h v hlo (hcounter ▸ hhi) with ⟨c', e', hc', hv'⟩ | ⟨e', he', hv'⟩
    · by_cases hne : c' = c
      · -- the call in flight is the one that publishes
        subst hne
        rw [hc, Option.some.injEq] at hc'
        exact .inr ⟨e', List.mem_append_right _ (by simp [hc']), hv'⟩
      · exact .inl ⟨c', e', by rw [hpublishing, Function.update_of_ne hne, hc'], hv'⟩
    · exact .inr ⟨e', List.mem_append_left _ he', hv'⟩
  · exact absurd rfl (hok c)

/-- The versions of the processes converge: once a mutation has been published to the
end after the listener of a process had subscribed, no call is in flight and the
listener has relayed what it was sent, the bus stands at the version key. Whatever the
process missed between its GET and its SUBSCRIBE is made up for by the next event. -/
theorem bridge_versions_converge {s t : System} {as : List Action} {p : Nat}
    {pending : List Event} (hs : redis.Reachable s) (hrun : redis.run s as = some t)
    (hok : redis.RunOk NoneLost s as) (hp : (s.processes p).listener = .subscribed pending)
    (hnew : s.counter < t.counter) (hquiet : ∀ c, t.publishing c = none)
    (hrelayed : (t.processes p).listener = .subscribed []) :
    (t.processes p).version = t.counter := by
  have hkeeps := TSys.run_keeps
    (P := fun s' : System =>
      Inv s' ∧ ∃ new, Accounted s.counter new s' ∧ (s'.processes p).Catches new)
    ?_ as ⟨inv_inductive.invariant s hs, [], ?_, by simp [hp], by simp⟩ hok hrun
  · obtain ⟨hinv, new, hacc, hcatches⟩ := hkeeps
    refine Nat.le_antisymm ?_ ?_
    · exact (hinv.inStep p).behind (by simp [(hinv.follows p).bridged _ hrelayed])
    · -- the last number handed out has been published since, and relayed
      rcases hacc t.counter hnew (Nat.le_refl _) with ⟨c, e, hc, -⟩ | ⟨e, he, hv⟩
      · rw [hquiet c] at hc
        cases hc
      · rcases hcatches.reached _ hrelayed e he with hmem | hle
        · exact absurd hmem List.not_mem_nil
        · exact hv ▸ hle
  · rintro s₁ a s₂ ⟨hinv, new, hacc, hcatches⟩ hok₁ hstep
    refine ⟨inv_step hinv hstep, ?_⟩
    obtain ⟨added, hadded, hacc'⟩ := accounted_step hacc hok₁ hstep
    obtain ⟨added', hadded', hmoves⟩ := step_moves hstep p
    obtain rfl : added = added' := List.append_cancel_left (hadded.symm.trans hadded')
    exact ⟨new ++ added, hacc', Process.catches_moves hcatches (hinv.follows p) hmoves⟩
  · intro v hlo hhi
    omega

/-- The second process reaches version 1 when it relays the event of the first. -/
theorem bridge_versions_converge_two :
    ∃ s t, redis.run System.start twoStreams = some s ∧
      redis.run s [.incr 0 0 .policyAdd 7, .publish 0, .relay 1] = some t ∧
      (t.processes 1).version = t.counter := by
  refine ⟨_, _, rfl, rfl, ?_⟩
  refine bridge_versions_converge
    (TSys.reachable_run (TSys.ReachableBy.init rfl) twoStreams rfl)
    (show redis.run _ [.incr 0 0 .policyAdd 7, .publish 0, .relay 1] = some _ from rfl)
    (TSys.runOk_of_forall ?_ _) rfl (by decide) ?_ rfl
  · simp [NoneLost]
  · intro c
    by_cases hc : c = 0
    · subst hc
      rfl
    · exact (Function.update_of_ne hc _ _).trans (Function.update_of_ne hc _ _)

end AkesoDlp.Server.PolicyBridge
