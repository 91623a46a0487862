import AkesoDlp.Server.AgentIdentity

/-!
# One row for a host

`register_agent` looks for the row of a hostname before it inserts one, and nothing in the schema
keeps two calls from both finding none. Where the calls of a host do not overlap there, the host
has one row; where they did, its agents cannot register any more.
-/

namespace AkesoDlp.Server.Registry

open Lib

/-- The call has found no row of the hostname and is about to insert one. -/
def Inserting (hostname : String) : Rpc → Prop
  | .registerSelected _ request none => request.hostname = hostname
  | _ => False

/-- The registrations of a host come one after the other: none looks for the row while another one
is about to insert it. -/
def OneAtATime (w : World) : Action → Prop
  | .select rpc => ∀ c request, w.rpcs rpc = some (.register c request) →
      ∀ rpc' x, w.rpcs rpc' = some x → ¬ Inserting request.hostname x
  | _ => True

structure Distinct (t : AgentTable) (rpcs : RpcId → Option Rpc) : Prop where
  rows : (t.hosts.map (·.2)).Nodup
  inserting : ∀ rpc x hostname, rpcs rpc = some x → Inserting hostname x →
    ∀ id, (id, hostname) ∉ t.hosts
  alone : ∀ rpc rpc' x x' hostname, rpcs rpc = some x → rpcs rpc' = some x' →
    Inserting hostname x → Inserting hostname x' → rpc = rpc'

variable {hostnames : ClientId → String} {w w' : World} {rpc : RpcId} {x y : Rpc}
  {c : ClientId} {t t' : AgentTable} {rpcs : RpcId → Option Rpc} {hostname : String}
  {a b : Uuid}

/-- A call gets to a state in which it does not insert. -/
theorem Distinct.update (h : Distinct t rpcs) (hrows : (t'.hosts.map (·.2)).Nodup)
    (hinserting : ∀ rpc' x hostname, rpc' ≠ rpc → rpcs rpc' = some x → Inserting hostname x →
      ∀ id, (id, hostname) ∉ t'.hosts)
    (hy : ∀ hostname, ¬ Inserting hostname y) :
    Distinct t' (Function.update rpcs rpc (some y)) := by
  have hother : ∀ rpc' x hostname, Function.update rpcs rpc (some y) rpc' = some x →
      Inserting hostname x → rpc' ≠ rpc ∧ rpcs rpc' = some x := by
    intro rpc' x hostname hx hins
    by_cases heq : rpc' = rpc
    · subst heq
      rw [Function.update_self, Option.some.injEq] at hx
      exact absurd (hx ▸ hins) (hy hostname)
    · exact ⟨heq, (Function.update_of_ne heq _ _).symm.trans hx⟩
  refine ⟨hrows, ?_, ?_⟩
  · intro rpc' x hostname hx hins
    obtain ⟨hne, hx⟩ := hother rpc' x hostname hx hins
    exact hinserting rpc' x hostname hne hx hins
  · intro rpc₁ rpc₂ x₁ x₂ hostname hx₁ hx₂ hins₁ hins₂
    exact h.alone rpc₁ rpc₂ x₁ x₂ hostname (hother _ _ _ hx₁ hins₁).2 (hother _ _ _ hx₂ hins₂).2
      hins₁ hins₂

/-- The same where the hosts stay. -/
theorem Distinct.answer (h : Distinct t rpcs) (hhosts : t'.hosts = t.hosts)
    (hy : ∀ hostname, ¬ Inserting hostname y) :
    Distinct t' (Function.update rpcs rpc (some y)) := by
  refine h.update (hhosts ▸ h.rows) (fun rpc' x hostname _ hx hins => ?_) hy
  rw [hhosts]
  exact h.inserting rpc' x hostname hx hins

/-- The SELECT finds no row, and nobody else is about to insert one. -/
theorem Distinct.find_none (h : Distinct t rpcs) {request : RegisterRequest}
    (hnone : ∀ id, (id, request.hostname) ∉ t.hosts)
    (halone : ∀ rpc' x, rpcs rpc' = some x → ¬ Inserting request.hostname x) :
    Distinct t (Function.update rpcs rpc (some (.registerSelected c request none))) := by
  have hcases : ∀ rpc' x hostname,
      Function.update rpcs rpc (some (.registerSelected c request none)) rpc' = some x →
      Inserting hostname x →
        (rpc' = rpc ∧ hostname = request.hostname) ∨
          (rpcs rpc' = some x ∧ hostname ≠ request.hostname) := by
    intro rpc' x hostname hx hins
    by_cases heq : rpc' = rpc
    · subst heq
      rw [Function.update_self, Option.some.injEq] at hx
      subst hx
      exact .inl ⟨rfl, Eq.symm hins⟩
    · rw [Function.update_of_ne heq] at hx
      refine .inr ⟨hx, ?_⟩
      rintro rfl
      exact halone rpc' x hx hins
  refine ⟨h.rows, ?_, ?_⟩
  · intro rpc' x hostname hx hins
    rcases hcases rpc' x hostname hx hins with ⟨-, rfl⟩ | ⟨hx, -⟩
    · exact hnone
    · exact h.inserting rpc' x hostname hx hins
  · intro rpc₁ rpc₂ x₁ x₂ hostname hx₁ hx₂ hins₁ hins₂
    rcases hcases rpc₁ x₁ hostname hx₁ hins₁ with ⟨rfl, hname⟩ | ⟨hold₁, hname⟩
    · rcases hcases rpc₂ x₂ hostname hx₂ hins₂ with ⟨rfl, -⟩ | ⟨-, hne⟩
      · rfl
      · exact absurd hname hne
    · rcases hcases rpc₂ x₂ hostname hx₂ hins₂ with ⟨-, heq⟩ | ⟨hold₂, -⟩
      · exact absurd heq hname
      · exact h.alone rpc₁ rpc₂ x₁ x₂ hostname hold₁ hold₂ hins₁ hins₂

/-- The INSERT of the one call that is about to make it. -/
theorem Distinct.insert (h : Distinct t rpcs) {request : RegisterRequest} {newId : Uuid}
    (hrpc : rpcs rpc = some (.registerSelected c request none))
    (hhosts : t'.hosts = t.hosts ++ [(newId, request.hostname)])
    (hy : ∀ hostname, ¬ Inserting hostname y) :
    Distinct t' (Function.update rpcs rpc (some y)) := by
  have hself : Inserting request.hostname (.registerSelected c request none) := rfl
  refine h.update ?_ ?_ hy
  · rw [hhosts, List.map_append, List.nodup_append]
    refine ⟨h.rows, List.pairwise_singleton .., fun name hname name' hname' heq => ?_⟩
    obtain rfl := List.mem_singleton.mp hname'
    obtain ⟨host, hhost, rfl⟩ := List.mem_map.mp hname
    have hfree := h.inserting rpc _ _ hrpc hself host.1
    have hname : host.2 = request.hostname := heq
    rw [← hname] at hfree
    exact hfree hhost
  · intro rpc' x hostname hne hx hins id hmem
    rw [hhosts] at hmem
    rcases List.mem_append.mp hmem with hold | hnew
    · exact h.inserting rpc' x hostname hx hins id hold
    · obtain ⟨-, rfl⟩ := Prod.mk.inj (List.mem_singleton.mp hnew)
      exact hne (h.alone rpc' rpc x _ _ hx hrpc hins hself)

theorem distinct_step {a : Action} (h : Distinct w.table w.rpcs) (hone : OneAtATime w a)
    (hstep : Stepped hostnames w a w') : Distinct w'.table w'.rpcs := by
  have hnot : ∀ c answer hostname, ¬ Inserting hostname (.answered c answer) :=
    fun _ _ _ hins => hins
  cases hstep with
  | start _ _ _ hround =>
      refine h.answer rfl fun hostname hins => ?_
      unfold roundCall at hround
      split at hround
      · obtain ⟨id, -, rfl⟩ := Option.map_eq_some_iff.mp hround
        exact hins
      · rw [← Option.some.inj hround] at hins
        exact hins
  | @select c rpc request found hrpc hfound =>
      cases found with
      | some agent => exact h.answer rfl fun _ hins => hins
      | none => exact h.find_none (selectHostname_eq_none.mp hfound) (hone c request hrpc)
  | selectMany _ _ => exact h.answer rfl (hnot _ _)
  | selectId _ _ => exact h.answer rfl fun _ hins => hins
  | selectGone _ _ => exact h.answer rfl (hnot _ _)
  | @commit c rpc request found newId now table id hrpc hregister =>
      have hhosts := (hosts_register hregister).1
      cases found with
      | some agent => exact h.answer (hhosts.trans (List.append_nil _)) (hnot _ _)
      | none => exact h.insert hrpc hhosts (hnot _ _)
  | beat _ hbeat => exact h.answer (hosts_update hbeat) (hnot _ _)
  | fail _ => exact h.answer rfl (hnot _ _)
  | arrive _ _ => exact h
  | expire => exact h
  | restart _ => exact h
  | @delete id _ =>
      have hsub : ((w.table.delete id).hosts).Sublist w.table.hosts := by
        rw [AgentTable.hosts, AgentTable.hosts]
        exact List.filter_sublist.map _
      exact {
        rows := (hsub.map _).nodup h.rows
        inserting := fun rpc x hostname hx hins id hmem =>
          h.inserting rpc x hostname hx hins id (hsub.mem hmem)
        alone := h.alone }

theorem distinct_inductive : (registry hostnames).InductiveBy OneAtATime
    fun w => Distinct w.table w.rpcs where
  init := by
    rintro w ⟨htable, -, hrpcs, -⟩
    refine ⟨?_, ?_, ?_⟩
    · rw [AgentTable.hosts, htable]
      exact List.nodup_nil
    · intro rpc x hostname hx
      rw [hrpcs] at hx
      cases hx
    · intro rpc rpc' x x' hostname hx
      rw [hrpcs] at hx
      cases hx
  step := fun _ _ _ h hone hstep => distinct_step h hone (stepped hstep)

theorem Distinct.finds (h : Distinct t rpcs) (hostname : String) :
    ∃ found, selectHostname t hostname = .ok found := by
  cases hselect : selectHostname t hostname with
  | ok found => exact ⟨found, rfl⟩
  | error e =>
      have hmany := selectHostname_eq_error.mp ⟨e, hselect⟩
      have hone := List.nodup_iff_count_le_one.mp h.rows hostname
      rw [List.count, List.countP_map, List.countP_eq_length_filter] at hone
      rw [idsOf, List.length_map] at hmany
      exact absurd (Nat.le_trans hmany hone) (by decide)

/-- While the registrations of each host come one after the other, whatever else interleaves: no
two rows have the same hostname, and no registration ever finds more than one. -/
theorem hostname_one_row (h : (registry hostnames).ReachableBy OneAtATime w) :
    (w.table.rows.map (·.hostname)).Nodup ∧
      ∀ hostname, ∃ found, selectHostname w.table hostname = .ok found := by
  have hdistinct := distinct_inductive.invariant w h
  refine ⟨?_, hdistinct.finds⟩
  have hrows := hdistinct.rows
  rwa [AgentTable.hosts, List.map_map] at hrows

/-! ## Two rows of a host -/

/-- A registration of the host, on its way or failed. -/
def Fails (hostname : String) : Rpc → Prop
  | .register _ request => request.hostname = hostname
  | .answered _ (.internal _) => True
  | _ => False

/-- A client whose host has two rows. -/
structure LockedOut (hostname : String) (a b : Uuid) (old : RpcId → Option Rpc) (c : ClientId)
    (w : World) : Prop where
  first : (a, hostname) ∈ w.table.hosts
  second : (b, hostname) ∈ w.table.hosts
  registered : (w.clients c).registered = false
  kept : ∀ rpc, w.rpcs rpc = none → old rpc = none
  /-- It waits for a call that is not among the old ones. -/
  waiting : ∀ rpc, (w.clients c).waiting = some rpc →
    old rpc = none ∧ ∃ x, w.rpcs rpc = some x ∧ x.client = c
  sent : ∀ rpc x, old rpc = none → w.rpcs rpc = some x → x.client = c → Fails hostname x

/-- Neither of the two rows is deleted. -/
def KeepsBoth (a b : Uuid) (_ : World) (action : Action) : Prop :=
  action ≠ .delete a ∧ action ≠ .delete b

instance (a b : Uuid) (w : World) (action : Action) : Decidable (KeepsBoth a b w action) :=
  inferInstanceAs (Decidable (_ ∧ _))

variable {old : RpcId → Option Rpc}

theorem not_ok_of_two (hne : a ≠ b) (ha : (a, hostname) ∈ t.hosts) (hb : (b, hostname) ∈ t.hosts)
    (found : Option Agent) : selectHostname t hostname ≠ .ok found := by
  have hmem : ∀ id, (id, hostname) ∈ t.hosts → id ∈ idsOf t hostname := fun id hid =>
    List.mem_map.mpr ⟨(id, hostname), List.mem_filter.mpr ⟨hid, beq_self_eq_true _⟩, rfl⟩
  have hsub : [a, b] ⊆ idsOf t hostname :=
    List.cons_subset.mpr ⟨hmem a ha, List.cons_subset.mpr ⟨hmem b hb, List.nil_subset _⟩⟩
  have hpair : [a, b].Nodup := List.nodup_cons.mpr
    ⟨fun hmem => hne (List.mem_singleton.mp hmem), List.nodup_singleton _⟩
  obtain ⟨e, he⟩ := selectHostname_eq_error.mpr (List.subperm_of_subset hpair hsub).length_le
  rw [he]
  intro hok
  cases hok

/-- A call of any client is sent or gets to its next state. -/
theorem LockedOut.setRpc (h : LockedOut hostname a b old c w) {table : AgentTable}
    {issued : List (Uuid × String)} (hclient : ∀ x, w.rpcs rpc = some x → y.client = x.client)
    (hfails : y.client = c → (∀ x, w.rpcs rpc = some x → Fails hostname x) → Fails hostname y)
    (htable : ∀ host ∈ w.table.hosts, host ∈ table.hosts) :
    LockedOut hostname a b old c { w.setRpc rpc y with table := table, issued := issued } where
  first := htable _ h.first
  second := htable _ h.second
  registered := h.registered
  kept := by
    intro rpc' hnone
    by_cases heq : rpc' = rpc
    · subst heq
      rw [(rpcs_setRpc_self w rpc' y : (w.setRpc rpc' y).rpcs rpc' = some y)] at hnone
      cases hnone
    · exact h.kept rpc' ((rpcs_setRpc_of_ne w y heq).symm.trans hnone)
  waiting := by
    intro rpc' hwaiting
    obtain ⟨hold, x', hx', hc⟩ := h.waiting rpc' hwaiting
    refine ⟨hold, ?_⟩
    by_cases heq : rpc' = rpc
    · subst heq
      exact ⟨y, rpcs_setRpc_self w rpc' y, (hclient x' hx').trans hc⟩
    · exact ⟨x', (rpcs_setRpc_of_ne w y heq).trans hx', hc⟩
  sent := by
    intro rpc' z hold hz hc
    by_cases heq : rpc' = rpc
    · subst heq
      obtain rfl := Option.some.inj ((rpcs_setRpc_self w rpc' y).symm.trans hz)
      exact hfails hc fun x hx => h.sent rpc' x hold hx ((hclient x hx).symm.trans hc)
    · exact h.sent rpc' z hold ((rpcs_setRpc_of_ne w y heq).symm.trans hz) hc

/-- A step of the server. -/
theorem LockedOut.of_server (h : LockedOut hostname a b old c w) {table : AgentTable}
    {issued : List (Uuid × String)} (hrpc : w.rpcs rpc = some x) (hclient : y.client = x.client)
    (hfails : Fails hostname x → Fails hostname y)
    (htable : ∀ host ∈ w.table.hosts, host ∈ table.hosts) :
    LockedOut hostname a b old c { w.setRpc rpc y with table := table, issued := issued } := by
  refine h.setRpc ?_ (fun _ hall => hfails (hall x hrpc)) htable
  intro x' hx'
  rw [hrpc, Option.some.injEq] at hx'
  exact hx' ▸ hclient

/-- A step of a client. -/
theorem LockedOut.of_client (h : LockedOut hostname a b old c w) {c' : ClientId} {z : Client}
    (hz : c' = c → z.registered = false ∧ ∀ rpc, z.waiting = some rpc →
      old rpc = none ∧ ∃ x, w.rpcs rpc = some x ∧ x.client = c) :
    LockedOut hostname a b old c (w.setClient c' z) := by
  by_cases heq : c' = c
  · subst heq
    refine ⟨h.first, h.second, ?_, h.kept, ?_, h.sent⟩
    · rw [clients_setClient_self]
      exact (hz rfl).1
    · rw [clients_setClient_self]
      exact (hz rfl).2
  · refine ⟨h.first, h.second, ?_, h.kept, ?_, h.sent⟩
    · rw [clients_setClient_of_ne w z (Ne.symm heq)]
      exact h.registered
    · rw [clients_setClient_of_ne w z (Ne.symm heq)]
      exact h.waiting

theorem lockedOut_step {action : Action} (hne : a ≠ b) (hhost : hostnames c = hostname)
    (h : LockedOut hostname a b old c w) (hkeeps : KeepsBoth a b w action)
    (hstep : Stepped hostnames w action w') : LockedOut hostname a b old c w' := by
  have hsame : ∀ host ∈ w.table.hosts, host ∈ w.table.hosts := fun _ hmem => hmem
  cases hstep with
  | @start c' rpc request policyVersion x hname hidle hnone hround =>
      -- a client that is not registered sends a registration
      have hcall : x.client = c' ∧
          (c' = c → x = .register c request ∧ request.hostname = hostname) := by
        unfold roundCall at hround
        split at hround
        · next hregistered =>
          obtain ⟨id, -, rfl⟩ := Option.map_eq_some_iff.mp hround
          refine ⟨rfl, ?_⟩
          rintro rfl
          rw [h.registered] at hregistered
          cases hregistered
        · obtain rfl := Option.some.inj hround
          refine ⟨rfl, ?_⟩
          rintro rfl
          exact ⟨rfl, hname.trans hhost⟩
      refine LockedOut.of_client (h.setRpc ?_ ?_ hsame) ?_
      · intro x' hx'
        rw [hnone] at hx'
        cases hx'
      · intro hc _
        obtain ⟨rfl, hrequest⟩ := hcall.2 (hcall.1.symm.trans hc)
        exact hrequest
      · rintro rfl
        refine ⟨h.registered, fun rpc' hrpc' => ?_⟩
        obtain rfl := Option.some.inj hrpc'
        exact ⟨h.kept rpc hnone, x, rpcs_setRpc_self w rpc x, hcall.1⟩
  | @select c' rpc request found hrpc hfound =>
      refine h.of_server hrpc rfl ?_ hsame
      intro hfails
      have hrequest : request.hostname = hostname := hfails
      rw [hrequest] at hfound
      exact absurd hfound (not_ok_of_two hne h.first h.second found)
  | selectMany hrpc _ => exact h.of_server hrpc rfl (fun _ => trivial) hsame
  | selectId hrpc _ => exact h.of_server hrpc rfl (fun hfails => hfails) hsame
  | selectGone hrpc _ => exact h.of_server hrpc rfl (fun hfails => hfails) hsame
  | commit hrpc hregister =>
      refine h.of_server hrpc rfl (fun hfails => hfails.elim) ?_
      intro host hmem
      rw [(hosts_register hregister).1]
      exact List.mem_append_left _ hmem
  | beat hrpc hbeat =>
      refine h.of_server hrpc rfl (fun hfails => hfails.elim) ?_
      intro host hmem
      rwa [hosts_update hbeat]
  | fail hrpc =>
      rcases hrpc with ⟨request, found, hrpc⟩ | ⟨agent, policyVersion, hrpc⟩
      · exact h.of_server hrpc rfl (fun _ => trivial) hsame
      · exact h.of_server hrpc rfl (fun _ => trivial) hsame
  | @arrive c' c'' rpc answer hwaiting hrpc =>
      refine h.of_client ?_
      rintro rfl
      obtain ⟨hold, x, hx, hc⟩ := h.waiting rpc hwaiting
      have hfails := h.sent rpc x hold hx hc
      rw [hrpc, Option.some.injEq] at hx
      subst hx
      cases answer with
      | internal details =>
          refine ⟨h.registered, fun rpc' hrpc' => ?_⟩
          cases hrpc'
      | _ => exact hfails.elim
  | expire =>
      refine h.of_client ?_
      rintro rfl
      refine ⟨h.registered, fun rpc' hrpc' => ?_⟩
      cases hrpc'
  | restart _ =>
      refine h.of_client ?_
      rintro rfl
      exact ⟨rfl, h.waiting⟩
  | @delete id _ =>
      exact {
        first := mem_hosts_delete.mpr
          ⟨h.first, fun heq => hkeeps.1 (congrArg Action.delete heq.symm)⟩
        second := mem_hosts_delete.mpr
          ⟨h.second, fun heq => hkeeps.2 (congrArg Action.delete heq.symm)⟩
        registered := h.registered
        kept := h.kept
        waiting := h.waiting
        sent := h.sent }

/-- Once a hostname has two rows, and until one of them is deleted, whatever everybody else does:
an agent of the host that is not registered never gets registered, and all that its heartbeat
thread sends are registrations that have no answer or fail in the server. -/
theorem host_locked_out (hne : a ≠ b) (ha : (a, hostnames c) ∈ w.table.hosts)
    (hb : (b, hostnames c) ∈ w.table.hosts) (hregistered : (w.clients c).registered = false)
    (hidle : (w.clients c).waiting = none) {actions : List Action}
    (hkeeps : (registry hostnames).RunOk (KeepsBoth a b) w actions)
    (hrun : (registry hostnames).run w actions = some w') :
    (w'.clients c).registered = false ∧
      ∀ rpc x, w.rpcs rpc = none → w'.rpcs rpc = some x → x.client = c →
        Fails (hostnames c) x := by
  have hstart : LockedOut (hostnames c) a b w.rpcs c w := by
    refine ⟨ha, hb, hregistered, fun _ hnone => hnone, fun rpc hwaiting => ?_, ?_⟩
    · rw [hidle] at hwaiting
      cases hwaiting
    · intro rpc x hnone hx
      rw [hnone] at hx
      cases hx
  have hstep : ∀ s action s', LockedOut (hostnames c) a b w.rpcs c s → KeepsBoth a b s action →
      (registry hostnames).step s action = some s' → LockedOut (hostnames c) a b w.rpcs c s' :=
    fun _ _ _ hs hok hstep => lockedOut_step hne rfl hs hok (stepped hstep)
  have hend := TSys.run_keeps hstep actions hstart hkeeps hrun
  exact ⟨hend.registered, hend.sent⟩

/-! ## Two agents with one hostname -/

instance (hostname : String) (x : Rpc) : Decidable (Inserting hostname x) := by
  unfold Inserting
  split <;> infer_instance

/-- The calls so far have numbers below `n`. -/
def Below (n : Nat) (w : World) : Prop := ∀ rpc, n ≤ rpc → w.rpcs rpc = none

/-- A test for `OneAtATime` in such a world. -/
def oneAtATime (n : Nat) (w : World) : Action → Bool
  | .start _ rpc _ _ => rpc < n
  | .select rpc =>
      match w.rpcs rpc with
      | some (.register _ request) => (List.range n).all fun rpc' =>
          (w.rpcs rpc').all fun x => !decide (Inserting request.hostname x)
      | _ => true
  | _ => true

variable {n : Nat}

theorem Below.lt (h : Below n w) (hx : w.rpcs rpc = some x) : rpc < n := by
  by_contra hnot
  rw [h rpc (Nat.not_lt.mp hnot)] at hx
  cases hx

theorem Below.setRpc (h : Below n w) (hlt : rpc < n) (rpc' : RpcId) (hle : n ≤ rpc') :
    (w.setRpc rpc y).rpcs rpc' = none := by
  have hne : rpc' ≠ rpc := Nat.ne_of_gt (Nat.lt_of_lt_of_le hlt hle)
  rw [rpcs_setRpc_of_ne w y hne]
  exact h rpc' hle

theorem below_step {a : Action} (h : Below n w) (htest : oneAtATime n w a = true)
    (hstep : Stepped hostnames w a w') : Below n w' := by
  cases hstep with
  | start => exact h.setRpc (of_decide_eq_true htest)
  | select hrpc _ => exact h.setRpc (h.lt hrpc)
  | selectMany hrpc _ => exact h.setRpc (h.lt hrpc)
  | selectId hrpc _ => exact h.setRpc (h.lt hrpc)
  | selectGone hrpc _ => exact h.setRpc (h.lt hrpc)
  | commit hrpc _ => exact h.setRpc (h.lt hrpc)
  | beat hrpc _ => exact h.setRpc (h.lt hrpc)
  | fail hrpc =>
      rcases hrpc with ⟨request, found, hrpc⟩ | ⟨agent, policyVersion, hrpc⟩
      · exact h.setRpc (h.lt hrpc)
      · exact h.setRpc (h.lt hrpc)
  | arrive _ _ => exact h
  | expire => exact h
  | restart _ => exact h
  | delete _ => exact h

theorem oneAtATime_of_test {a : Action} (h : Below n w) (htest : oneAtATime n w a = true) :
    OneAtATime w a := by
  cases a with
  | select rpc =>
      intro c request hrpc rpc' x hx
      simp only [oneAtATime, hrpc, List.all_eq_true] at htest
      have hall := htest rpc' (List.mem_range.mpr (h.lt hx))
      rw [hx, Option.all_some, Bool.not_eq_true'] at hall
      exact of_decide_eq_false hall
  | _ => trivial

def oneHost (_ : ClientId) : String := "ws1"

/-- Two machines with the same name, one after the other. -/
def inTurn : List Action :=
  [.start 0 0 (workstation "ws1") 0, .select 0, .commit 0 1 "12:00", .arrive 0,
    .start 1 1 (workstation "ws1") 0, .select 1, .commit 1 2 "12:01", .arrive 1]

/-- The two at the same time, and a reconnect of the first. -/
def together : List Action :=
  [.start 0 0 (workstation "ws1") 0, .start 1 1 (workstation "ws1") 0, .select 0, .select 1,
    .commit 0 1 "12:00", .commit 1 2 "12:00", .arrive 0, .arrive 1, .restart 0]

/-- The first registers again, twice, and the second sends a heartbeat. -/
def lockedRun : List Action :=
  [.start 0 2 (workstation "ws1") 0, .select 2, .arrive 0, .start 1 3 (workstation "ws1") 0,
    .select 3, .commit 3 5 "12:01", .start 0 4 (workstation "ws1") 0, .select 4, .arrive 0]

theorem hostname_one_row_inTurn : ∃ w,
    (registry oneHost).run emptyRegistry inTurn = some w ∧
      (w.table.rows.map (·.hostname)).Nodup ∧
        ∀ hostname, ∃ found, selectHostname w.table hostname = .ok found := by
  have hruns : ((registry oneHost).run emptyRegistry inTurn).isSome = true := by decide +kernel
  obtain ⟨w, hrun⟩ := Option.isSome_iff_exists.mp hruns
  have htest : (registry oneHost).runAll (oneAtATime 2) emptyRegistry inTurn = true := by
    decide +kernel
  have hok : (registry oneHost).RunOk OneAtATime emptyRegistry inTurn := by
    refine TSys.runOk_of_runAll_of_inv (I := Below 2) ?_ ?_ (fun _ _ => rfl) htest
    · exact fun _ _ _ hbelow htest hstep => below_step hbelow htest (stepped hstep)
    · exact fun _ _ hbelow htest => oneAtATime_of_test hbelow htest
  exact ⟨w, hrun, hostname_one_row
    (TSys.reachableBy_run (.init ⟨rfl, rfl, rfl, rfl⟩) inTurn hok hrun)⟩

theorem host_locked_out_lockedRun : ∃ w w',
    (registry oneHost).run emptyRegistry together = some w ∧
      (registry oneHost).run w lockedRun = some w' ∧
      w'.rpcs 3 = some (.answered 1 .alive) ∧
      ((w'.clients 0).registered = false ∧
        ∀ rpc x, w.rpcs rpc = none → w'.rpcs rpc = some x → x.client = 0 → Fails "ws1" x) := by
  have hruns : (((registry oneHost).run emptyRegistry together).bind fun w =>
      if w.clients 0 = ⟨false, some 1, none⟩ ∧ (1, "ws1") ∈ w.table.hosts ∧
          (2, "ws1") ∈ w.table.hosts ∧
          (registry oneHost).runAll (fun w a => decide (KeepsBoth 1 2 w a)) w lockedRun = true then
        ((registry oneHost).run w lockedRun).map fun w' => w'.rpcs 3
      else none) = some (some (.answered 1 .alive)) := by
    decide +kernel
  obtain ⟨w, hrun, hrest⟩ := Option.bind_eq_some_iff.mp hruns
  split at hrest
  · next hall =>
    obtain ⟨hclient, hone, htwo, htest⟩ := hall
    obtain ⟨w', hrun', hrpc⟩ := Option.map_eq_some_iff.mp hrest
    have hkeeps : (registry oneHost).RunOk (KeepsBoth 1 2) w lockedRun :=
      TSys.runOk_of_runAll (fun _ _ => of_decide_eq_true) htest
    exact ⟨w, w', hrun, hrun', hrpc, host_locked_out (c := 0) (by decide) hone htwo
      (by rw [hclient]) (by rw [hclient]) hkeeps hrun'⟩
  · cases hrest

end AkesoDlp.Server.Registry
