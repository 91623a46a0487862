import AkesoDlp.Lib.TSys
import Mathlib.Logic.Function.Basic
import Mathlib.Data.List.Basic

/-!
# The policy version counter and `GetPolicies`

One server process without the Redis bridge. A REST mutation commits to the
database and later, at another await point, calls `publish_policy_event`,
which bumps `PolicyEventBus._version`. `GetPolicies` awaits the SELECTs of
`get_active_policies` and then reads the version. The coroutines interleave
at these points only, so a run is a sequence of the four actions `commit`,
`publish`, `select` and `respond`.

The database is kept as the list of its commits: a SELECT sees all commits
so far, and the rows it returns are a function of them (`activePolicies`).
-/

namespace AkesoDlp.Server

open Lib

/-- `PolicyStatus` of the policy table. -/
inductive PolicyStatus
  | active
  | suspended
  | draft
deriving DecidableEq, Repr

/-- The event types that a REST mutation publishes. -/
inductive PolicyUpdateType
  | policyAdd
  | policyModify
  | policyRemove
deriving DecidableEq, Repr

/-- A row of the policy table. `definition` stands for the rules, exceptions
and response rule that are loaded with it. -/
structure PolicyRow where
  id : Nat
  status : PolicyStatus
  isTemplate : Bool
  definition : Nat
deriving DecidableEq, Repr

/-- A REST mutation of one policy: the row it leaves behind, `none` when it
deletes the policy. `ticket` tells apart requests with the same effect. -/
structure Mutation where
  ticket : Nat
  updateType : PolicyUpdateType
  policyId : Nat
  row : Option PolicyRow
deriving DecidableEq, Repr

/-- The policy table after one more commit. -/
def Mutation.apply (rows : List PolicyRow) (m : Mutation) : List PolicyRow :=
  rows.filter (fun r => r.id != m.policyId) ++ m.row.toList

/-- The WHERE clause of `get_active_policies` on the table that the commits
`log` have built: active and not a template. -/
def activePolicies (log : List Mutation) : List PolicyRow :=
  (log.foldl Mutation.apply []).filter fun r => r.status == .active && !r.isTemplate

/-- `GetPoliciesResponse`: the version, and for each SELECT that
`get_active_policies` ran (the policy rows first, then one per `selectinload`)
the commits it saw. -/
structure GetPoliciesResponse where
  policyVersion : Nat
  snapshots : List (List Mutation)
deriving DecidableEq, Repr

/-- The policy rows in the response, from its first SELECT. -/
def GetPoliciesResponse.policies (resp : GetPoliciesResponse) : List PolicyRow :=
  activePolicies (resp.snapshots.headD [])

/-- The policies in the response reflect `m`: every SELECT behind them ran
after `m` had been committed. -/
def GetPoliciesResponse.Reflects (resp : GetPoliciesResponse) (m : Mutation) : Prop :=
  ∀ log ∈ resp.snapshots, m ∈ log

/-- The server process: the bus version, the database, the events published so
far with their `new_version`, the `GetPolicies` calls in progress with what
their SELECTs have seen, and the calls that have returned. -/
structure ServerState where
  version : Nat
  committed : List Mutation
  published : List (Nat × Mutation)
  reads : Nat → List (List Mutation)
  responses : Nat → Option GetPoliciesResponse

/-- A fresh process over an empty policy table. -/
def ServerState.start : ServerState where
  version := 0
  committed := []
  published := []
  reads := fun _ => []
  responses := fun _ => none

/-- What can happen between two await points. -/
inductive Action
  /-- `await db.commit()` of a REST mutation takes effect. -/
  | commit (m : Mutation)
  /-- `publish_policy_event` runs up to its first await. -/
  | publish (m : Mutation)
  /-- The database executes the next SELECT of call `c`. -/
  | select (c : Nat)
  /-- Call `c` resumes after its last SELECT, reads the version and returns. -/
  | respond (c : Nat)
deriving DecidableEq, Repr

/-- One action. A mutation commits once and publishes once, after its commit;
a call returns once, after at least one SELECT. -/
def step (s : ServerState) : Action → Option ServerState
  | .commit m =>
      if m ∈ s.committed then none
      else some { s with committed := s.committed ++ [m] }
  | .publish m =>
      if m ∈ s.committed ∧ m ∉ s.published.map (·.2) then
        -- `increment_version`; the event carries the new value
        some { s with
          version := s.version + 1
          published := s.published ++ [(s.version + 1, m)] }
      else none
  | .select c =>
      if s.responses c = none then
        some { s with reads := Function.update s.reads c (s.reads c ++ [s.committed]) }
      else none
  | .respond c =>
      if s.responses c = none ∧ s.reads c ≠ [] then
        some { s with
          responses := Function.update s.responses c (some ⟨s.version, s.reads c⟩) }
      else none

/-- The server as a transition system. -/
def server : TSys ServerState Action where
  init := fun s => s = ServerState.start
  step := step

/-- `HeartbeatResponse`, as far as the policy version goes. -/
structure HeartbeatResponse where
  policyUpdateAvailable : Bool
  latestPolicyVersion : Nat
deriving DecidableEq, Repr

/-- `Heartbeat` after its database work: it reads the version once and compares
it with the one the agent stores. -/
def heartbeat (s : ServerState) (policyVersion : Nat) : HeartbeatResponse where
  policyUpdateAvailable := policyVersion < s.version
  latestPolicyVersion := s.version

/-! ## What a version number promises -/

/-- Every response reflects all mutations published up to its version. -/
def Coherent (s : ServerState) : Prop :=
  ∀ c resp, s.responses c = some resp →
    ∀ n m, (n, m) ∈ s.published → n ≤ resp.policyVersion → resp.Reflects m

/-- An agent that holds a response and is told that no update is available
misses no published mutation. -/
def HeartbeatSound (s : ServerState) : Prop :=
  ∀ c resp, s.responses c = some resp →
    (heartbeat s resp.policyVersion).policyUpdateAvailable = false →
    ∀ n m, (n, m) ∈ s.published → resp.Reflects m

/-- The discipline under which the version is trustworthy: no mutation is
published while a call is between a SELECT that missed it and its return. -/
def NoStaleRead (s : ServerState) : Action → Prop
  | .publish m => ∀ c, s.responses c = none → ∀ log ∈ s.reads c, m ∈ log
  | _ => True

/-- What a run under `NoStaleRead` keeps true. -/
structure VersionInv (s : ServerState) : Prop where
  /-- Published mutations carry versions the counter has reached. -/
  bounded : ∀ n m, (n, m) ∈ s.published → n ≤ s.version
  /-- Publication follows the commit. -/
  durable : ∀ n m, (n, m) ∈ s.published → m ∈ s.committed
  /-- Calls in progress have missed nothing that is published. -/
  fresh : ∀ c, s.responses c = none → ∀ log ∈ s.reads c,
    ∀ n m, (n, m) ∈ s.published → m ∈ log
  /-- No response is ahead of the counter. -/
  behind : ∀ c resp, s.responses c = some resp → resp.policyVersion ≤ s.version
  coherent : Coherent s

theorem versionInv_start : VersionInv ServerState.start := by
  refine ⟨?_, ?_, ?_, ?_, ?_⟩ <;> simp [ServerState.start, Coherent]

/-- A step says what changed: one case per action, guards included. -/
theorem step_cases {s s' : ServerState} {a : Action} (h : step s a = some s') :
    (∃ m, a = .commit m ∧ s' = { s with committed := s.committed ++ [m] }) ∨
    (∃ m, a = .publish m ∧ m ∈ s.committed ∧
      s' = { s with version := s.version + 1
                    published := s.published ++ [(s.version + 1, m)] }) ∨
    (∃ c, a = .select c ∧ s.responses c = none ∧
      s' = { s with reads := Function.update s.reads c (s.reads c ++ [s.committed]) }) ∨
    (∃ c, a = .respond c ∧ s.responses c = none ∧
      s' = { s with responses :=
              Function.update s.responses c (some ⟨s.version, s.reads c⟩) }) := by
  cases a with
  | commit m =>
      simp only [step, Option.ite_none_left_eq_some, Option.some.injEq] at h
      exact Or.inl ⟨m, rfl, h.2.symm⟩
  | publish m =>
      simp only [step, Option.ite_none_right_eq_some, Option.some.injEq] at h
      exact Or.inr (Or.inl ⟨m, rfl, h.1.1, h.2.symm⟩)
  | select c =>
      simp only [step, Option.ite_none_right_eq_some, Option.some.injEq] at h
      exact Or.inr (Or.inr (Or.inl ⟨c, rfl, h.1, h.2.symm⟩))
  | respond c =>
      simp only [step, Option.ite_none_right_eq_some, Option.some.injEq] at h
      exact Or.inr (Or.inr (Or.inr ⟨c, rfl, h.1.1, h.2.symm⟩))

theorem versionInv_commit {s : ServerState} (hs : VersionInv s) (m : Mutation) :
    VersionInv { s with committed := s.committed ++ [m] } where
  bounded := hs.bounded
  durable := fun n m' hm => List.mem_append_left _ (hs.durable n m' hm)
  fresh := hs.fresh
  behind := hs.behind
  coherent := hs.coherent

theorem versionInv_publish {s : ServerState} (hs : VersionInv s) {m : Mutation}
    (hm : m ∈ s.committed)
    (hok : ∀ c, s.responses c = none → ∀ log ∈ s.reads c, m ∈ log) :
    VersionInv { s with version := s.version + 1
                        published := s.published ++ [(s.version + 1, m)] } := by
  have hcases : ∀ n m', (n, m') ∈ s.published ++ [(s.version + 1, m)] →
      (n, m') ∈ s.published ∨ n = s.version + 1 ∧ m' = m := by
    intro n m' hmem
    simpa using hmem
  constructor
  case bounded =>
    intro n m' hmem
    rcases hcases n m' hmem with hold | ⟨rfl, -⟩
    · exact Nat.le_succ_of_le (hs.bounded n m' hold)
    · exact Nat.le_refl _
  case durable =>
    intro n m' hmem
    rcases hcases n m' hmem with hold | ⟨-, rfl⟩
    · exact hs.durable n m' hold
    · exact hm
  case fresh =>
    intro c hc log hlog n m' hmem
    rcases hcases n m' hmem with hold | ⟨-, rfl⟩
    · exact hs.fresh c hc log hlog n m' hold
    · exact hok c hc log hlog
  case behind =>
    intro c resp hresp
    exact Nat.le_succ_of_le (hs.behind c resp hresp)
  case coherent =>
    intro c resp hresp n m' hmem hle
    rcases hcases n m' hmem with hold | ⟨rfl, -⟩
    · exact hs.coherent c resp hresp n m' hold hle
    · -- the new version is above every version handed out so far
      have := hs.behind c resp hresp
      omega

theorem versionInv_select {s : ServerState} (hs : VersionInv s) (c : Nat) :
    VersionInv { s with
      reads := Function.update s.reads c (s.reads c ++ [s.committed]) } where
  bounded := hs.bounded
  durable := hs.durable
  fresh := by
    intro c' hc' log hlog n m hmem
    by_cases hcc : c' = c
    · subst hcc
      simp only [Function.update_self, List.mem_append, List.mem_singleton] at hlog
      rcases hlog with hold | rfl
      · exact hs.fresh c' hc' log hold n m hmem
      · exact hs.durable n m hmem
    · simp only [Function.update_of_ne hcc] at hlog
      exact hs.fresh c' hc' log hlog n m hmem
  behind := hs.behind
  coherent := hs.coherent

theorem versionInv_respond {s : ServerState} (hs : VersionInv s) {c : Nat}
    (hc : s.responses c = none) :
    VersionInv { s with
      responses := Function.update s.responses c (some ⟨s.version, s.reads c⟩) } := by
  have hcases : ∀ c' resp,
      Function.update s.responses c (some ⟨s.version, s.reads c⟩) c' = some resp →
      resp = ⟨s.version, s.reads c⟩ ∨ s.responses c' = some resp := by
    intro c' resp hresp
    by_cases hcc : c' = c
    · subst hcc
      rw [Function.update_self] at hresp
      exact Or.inl (Option.some.inj hresp).symm
    · rw [Function.update_of_ne hcc] at hresp
      exact Or.inr hresp
  refine ⟨hs.bounded, hs.durable, ?_, ?_, ?_⟩
  · intro c' hc' log hlog n m hmem
    by_cases hcc : c' = c
    · subst hcc
      simp at hc'
    · simp only [Function.update_of_ne hcc] at hc'
      exact hs.fresh c' hc' log hlog n m hmem
  · intro c' resp hresp
    rcases hcases c' resp hresp with rfl | hold
    · exact Nat.le_refl _
    · exact hs.behind c' resp hold
  · -- what was published when the call returns, it has read
    intro c' resp hresp n m hmem hle
    rcases hcases c' resp hresp with rfl | hold
    · intro log hlog
      exact hs.fresh c hc log hlog n m hmem
    · exact hs.coherent c' resp hold n m hmem hle

/-- The version bookkeeping is kept by every step of the discipline. -/
theorem versionInv_inductive : server.InductiveBy NoStaleRead VersionInv where
  init := by
    intro s hs
    exact hs ▸ versionInv_start
  step := by
    intro s a s' hs hok hstep
    obtain ⟨m, rfl, rfl⟩ | ⟨m, rfl, hm, rfl⟩ | ⟨c, rfl, -, rfl⟩ | ⟨c, rfl, hc, rfl⟩ :=
      step_cases hstep
    · exact versionInv_commit hs m
    · exact versionInv_publish hs hm hok
    · exact versionInv_select hs c
    · exact versionInv_respond hs hc

/-- An agent told that no update is available stores the current version, so
coherence covers every published mutation. -/
theorem heartbeatSound_of_versionInv {s : ServerState} (hs : VersionInv s) :
    HeartbeatSound s := by
  intro c resp hresp hflag n m hmem
  have hcur : s.version ≤ resp.policyVersion := by
    simpa [heartbeat] using hflag
  exact hs.coherent c resp hresp n m hmem (Nat.le_trans (hs.bounded n m hmem) hcur)

/-- In every run in which no mutation is published between a SELECT that missed
it and the return of that call, the version of a response covers its policies,
and an agent that is told it is up to date is. -/
theorem getPolicies_coherent {s : ServerState} (h : server.ReachableBy NoStaleRead s) :
    Coherent s ∧ HeartbeatSound s := by
  have hs := versionInv_inductive.invariant s h
  exact ⟨hs.coherent, heartbeatSound_of_versionInv hs⟩

/-- A mutation that adds policy 7. -/
def addPolicy : Mutation where
  ticket := 0
  updateType := .policyAdd
  policyId := 7
  row := some ⟨7, .active, false, 0⟩

/-- A call whose SELECT runs after the publication returns the new policy with
version 1. -/
theorem getPolicies_coherent_addPolicy :
    ∃ s, server.run ServerState.start
        [.commit addPolicy, .publish addPolicy, .select 0, .respond 0] = some s ∧
      (s.responses 0).map (·.policies) = some [⟨7, .active, false, 0⟩] ∧
      Coherent s ∧ HeartbeatSound s := by
  refine ⟨_, rfl, rfl, getPolicies_coherent (TSys.reachableBy_run (TSys.ReachableBy.init rfl)
    [.commit addPolicy, .publish addPolicy, .select 0, .respond 0] ?_ rfl)⟩
  refine ⟨trivial, fun s₁ h₁ =>
    ⟨?_, fun _ _ => ⟨trivial, fun _ _ => ⟨trivial, fun _ _ => trivial⟩⟩⟩⟩
  -- no call has read anything when the mutation is published
  cases h₁
  intro c _ log hlog
  exact absurd hlog List.not_mem_nil

/-- The discipline cannot be relaxed: publishing a mutation that a call in
progress has missed leaves that call one step from an incoherent answer. -/
theorem not_coherent_of_staleRead {s s₁ s₂ : ServerState} {m : Mutation} {c : Nat}
    {log : List Mutation} (hpub : step s (.publish m) = some s₁)
    (hresp : step s₁ (.respond c) = some s₂) (hlog : log ∈ s.reads c) (hmiss : m ∉ log) :
    ¬ Coherent s₂ := by
  simp only [step, Option.ite_none_right_eq_some, Option.some.injEq] at hpub
  obtain ⟨-, rfl⟩ := hpub
  simp only [step, Option.ite_none_right_eq_some, Option.some.injEq] at hresp
  obtain ⟨-, rfl⟩ := hresp
  intro hcoh
  refine hmiss (hcoh c _ (Function.update_self ..) (s.version + 1) m ?_ (Nat.le_refl _) log hlog)
  exact List.mem_append_right _ (List.mem_singleton.mpr rfl)

/-- A call whose only SELECT runs before the commit and which resumes after the
publication returns version 1 with the table as it was at version 0, and the
next heartbeat tells the agent that it is up to date. -/
theorem getPolicies_race :
    ¬ ∀ s, server.Reachable s → Coherent s ∧ HeartbeatSound s := by
  intro h
  -- the SELECT comes first, the return last
  have hrun : ∃ s, server.run ServerState.start
      [.select 0, .commit addPolicy, .publish addPolicy, .respond 0] = some s ∧
      s.responses 0 = some ⟨1, [[]]⟩ ∧ s.published = [(1, addPolicy)] ∧ s.version = 1 :=
    ⟨_, rfl, rfl, rfl, rfl⟩
  obtain ⟨s, hs, hresp, hpub, hver⟩ := hrun
  have hreach : server.Reachable s :=
    TSys.reachable_run (TSys.ReachableBy.init rfl) _ hs
  have hsound := (h s hreach).2 0 _ hresp (by simp [heartbeat, hver]) 1 addPolicy (by simp [hpub])
  exact absurd (hsound [] (by simp)) (by simp)

end AkesoDlp.Server
