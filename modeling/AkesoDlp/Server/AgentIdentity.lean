import AkesoDlp.Server.AgentRegistry

/-!
# Whose id an agent has

An id is issued once, for the host of the call that inserts its row, and travels through SELECTs,
answers and the client of the host. A client keeps its id until `Disconnect`, also when the row is
deleted.
-/

namespace AkesoDlp.Server.Registry

open Lib

def Rpc.client : Rpc → ClientId
  | .register c _ | .registerSelected c _ _ | .heartbeat c _ _ | .heartbeatSelected c _ _
  | .answered c _ => c

/-- The call brings, or may bring, an id. -/
def Rpc.registers : Rpc → Bool
  | .register .. | .registerSelected .. | .answered _ (.registered _) => true
  | _ => false

/-- The ids that a call is about were issued for the host of its caller. -/
def RpcOk (hostnames : ClientId → String) (issued : List (Uuid × String)) : Rpc → Prop
  | .register c request => request.hostname = hostnames c
  | .registerSelected c request found => request.hostname = hostnames c ∧
      ∀ agent, found = some agent → (agent.id, hostnames c) ∈ issued
  | .heartbeat c id _ => (id, hostnames c) ∈ issued
  | .heartbeatSelected c agent _ => (agent.id, hostnames c) ∈ issued
  | .answered c (.registered id) => (id, hostnames c) ∈ issued
  | .answered .. => True

structure Inv (hostnames : ClientId → String) (w : World) : Prop where
  once : (w.issued.map (·.1)).Nodup
  rows : ∀ host ∈ w.table.hosts, host ∈ w.issued
  rpcs : ∀ rpc x, w.rpcs rpc = some x → RpcOk hostnames w.issued x
  agents : ∀ c id, (w.clients c).agentId = some id → (id, hostnames c) ∈ w.issued
  /-- A thread waits for a call of its own, which registers only if the client is not. -/
  waiting : ∀ c rpc, (w.clients c).waiting = some rpc →
    ∃ x, w.rpcs rpc = some x ∧ x.client = c ∧
      ((w.clients c).registered = true → x.registers = false)

variable {hostnames : ClientId → String} {w w' : World} {rpc : RpcId} {x y : Rpc} {c : ClientId}
  {issued more : List (Uuid × String)} {id : Uuid}

theorem RpcOk.append (h : RpcOk hostnames issued x) : RpcOk hostnames (issued ++ more) x := by
  unfold RpcOk at h ⊢
  split
  · exact h
  · exact ⟨h.1, fun agent hagent => List.mem_append_left _ (h.2 agent hagent)⟩
  · exact List.mem_append_left _ h
  · exact List.mem_append_left _ h
  · exact List.mem_append_left _ h
  · trivial

/-- An id has one host. -/
theorem Inv.host_unique (h : Inv hostnames w) {a b : String} (ha : (id, a) ∈ w.issued)
    (hb : (id, b) ∈ w.issued) : a = b :=
  congrArg Prod.snd (List.inj_on_of_nodup_map h.once ha hb rfl)

@[simp] theorem rpcs_setRpc_self (w : World) (rpc : RpcId) (x : Rpc) :
    (w.setRpc rpc x).rpcs rpc = some x :=
  Function.update_self ..

theorem rpcs_setRpc_of_ne {rpc' : RpcId} (w : World) (x : Rpc) (h : rpc' ≠ rpc) :
    (w.setRpc rpc x).rpcs rpc' = w.rpcs rpc' :=
  Function.update_of_ne h _ _

@[simp] theorem clients_setClient_self (w : World) (c : ClientId) (x : Client) :
    (w.setClient c x).clients c = x :=
  Function.update_self ..

theorem clients_setClient_of_ne {c' : ClientId} (w : World) (x : Client) (h : c' ≠ c) :
    (w.setClient c x).clients c' = w.clients c' :=
  Function.update_of_ne h _ _

/-- A call gets to its next state on the server. -/
theorem Inv.of_rpc {table : AgentTable} (h : Inv hostnames w) (hrpc : w.rpcs rpc = some x)
    (hclient : y.client = x.client) (hregisters : y.registers = true → x.registers = true)
    (honce : ((w.issued ++ more).map (·.1)).Nodup)
    (hrows : ∀ host ∈ table.hosts, host ∈ w.issued ++ more)
    (hok : RpcOk hostnames (w.issued ++ more) y) :
    Inv hostnames { w.setRpc rpc y with table := table, issued := w.issued ++ more } where
  once := honce
  rows := hrows
  rpcs := by
    intro rpc' x' hx'
    by_cases heq : rpc' = rpc
    · subst heq
      have hx' := (rpcs_setRpc_self w rpc' y).symm.trans hx'
      exact Option.some.inj hx' ▸ hok
    · have hx' := (rpcs_setRpc_of_ne w y heq).symm.trans hx'
      exact (h.rpcs rpc' x' hx').append
  agents c id hid := List.mem_append_left _ (h.agents c id hid)
  waiting := by
    intro c rpc' hwaiting
    obtain ⟨x', hx', hc, hnot⟩ := h.waiting c rpc' hwaiting
    by_cases heq : rpc' = rpc
    · subst heq
      rw [hrpc, Option.some.injEq] at hx'
      refine ⟨y, rpcs_setRpc_self w rpc' y, hclient.trans (hx' ▸ hc), fun hregistered => ?_⟩
      have hnot := hnot hregistered
      rw [← hx'] at hnot
      by_contra hyes
      rw [hregisters (eq_true_of_ne_false hyes)] at hnot
      cases hnot
    · exact ⟨x', (rpcs_setRpc_of_ne w y heq).trans hx', hc, hnot⟩

/-- The same where no row is inserted. -/
theorem Inv.of_answer {table : AgentTable} (h : Inv hostnames w) (hrpc : w.rpcs rpc = some x)
    (hclient : y.client = x.client) (hregisters : y.registers = true → x.registers = true)
    (hhosts : ∀ host ∈ table.hosts, host ∈ w.table.hosts) (hok : RpcOk hostnames w.issued y) :
    Inv hostnames { w.setRpc rpc y with table := table } := by
  have hnone : w.issued ++ [] = w.issued := List.append_nil _
  rw [← hnone] at hok
  have hinv := h.of_rpc hrpc hclient hregisters (hnone.symm ▸ h.once)
    (fun host hhost => hnone.symm ▸ h.rows host (hhosts host hhost)) hok
  rwa [hnone] at hinv

/-- A client changes; the server does not. -/
theorem Inv.of_client {z : Client} (h : Inv hostnames w)
    (hagent : ∀ id, z.agentId = some id → (id, hostnames c) ∈ w.issued)
    (hwaiting : ∀ rpc, z.waiting = some rpc →
      ∃ x, w.rpcs rpc = some x ∧ x.client = c ∧ (z.registered = true → x.registers = false)) :
    Inv hostnames (w.setClient c z) where
  once := h.once
  rows := h.rows
  rpcs := h.rpcs
  agents := by
    intro c' id hid
    by_cases heq : c' = c
    · subst heq
      rw [clients_setClient_self] at hid
      exact hagent id hid
    · rw [clients_setClient_of_ne w z heq] at hid
      exact h.agents c' id hid
  waiting := by
    intro c' rpc hrpc
    by_cases heq : c' = c
    · subst heq
      rw [clients_setClient_self] at hrpc ⊢
      exact hwaiting rpc hrpc
    · rw [clients_setClient_of_ne w z heq] at hrpc ⊢
      exact h.waiting c' rpc hrpc

/-- A call is sent. -/
theorem Inv.send (h : Inv hostnames w) (hnone : w.rpcs rpc = none)
    (hok : RpcOk hostnames w.issued x) : Inv hostnames (w.setRpc rpc x) where
  once := h.once
  rows := h.rows
  rpcs := by
    intro rpc' x' hx'
    by_cases heq : rpc' = rpc
    · subst heq
      rw [rpcs_setRpc_self, Option.some.injEq] at hx'
      exact hx' ▸ hok
    · rw [rpcs_setRpc_of_ne w x heq] at hx'
      exact h.rpcs rpc' x' hx'
  agents := h.agents
  waiting := by
    intro c rpc' hwaiting
    obtain ⟨x', hx', hc⟩ := h.waiting c rpc' hwaiting
    have heq : rpc' ≠ rpc := by
      rintro rfl
      rw [hnone] at hx'
      cases hx'
    exact ⟨x', (rpcs_setRpc_of_ne w x heq).trans hx', hc⟩

theorem inv_step {a : Action} (h : Inv hostnames w) (hfresh : FreshIds w a)
    (hstep : Stepped hostnames w a w') : Inv hostnames w' := by
  cases hstep with
  | @start c rpc request policyVersion x hname hidle hnone hround =>
      unfold roundCall at hround
      split at hround
      · obtain ⟨id, hid, rfl⟩ := Option.map_eq_some_iff.mp hround
        have hissued : RpcOk hostnames w.issued (.heartbeat c id policyVersion) := h.agents c id hid
        refine (h.send hnone hissued).of_client (h.agents c) fun rpc' hrpc' => ?_
        obtain rfl := Option.some.inj hrpc'
        exact ⟨_, rpcs_setRpc_self .., rfl, fun _ => rfl⟩
      · next hnot =>
        obtain rfl := Option.some.inj hround
        have hok : RpcOk hostnames w.issued (.register c request) := hname
        refine (h.send hnone hok).of_client (h.agents c) fun rpc' hrpc' => ?_
        obtain rfl := Option.some.inj hrpc'
        exact ⟨_, rpcs_setRpc_self .., rfl, fun hyes => absurd hyes hnot⟩
  | @select c rpc request found hrpc hfound =>
      have hname := h.rpcs rpc _ hrpc
      refine h.of_answer hrpc rfl (fun _ => rfl) (fun _ => id) ⟨hname, ?_⟩
      rintro agent rfl
      obtain ⟨hmem, hagent⟩ := selectHostname_eq_some hfound
      rw [← hname, ← hagent]
      exact h.rows _ hmem
  | selectMany hrpc _ => exact h.of_answer hrpc rfl nofun (fun _ => id) trivial
  | @selectId c rpc agentId policyVersion agent hrpc hagent =>
      refine h.of_answer hrpc rfl nofun (fun _ => id) ?_
      have hissued : (agentId, hostnames c) ∈ w.issued := h.rpcs rpc _ hrpc
      show (agent.id, hostnames c) ∈ w.issued
      rw [selectId_id hagent]
      exact hissued
  | selectGone hrpc _ => exact h.of_answer hrpc rfl nofun (fun _ => id) trivial
  | @commit c rpc request found newId now table id hrpc hregister =>
      obtain ⟨hname, hfound⟩ := h.rpcs rpc _ hrpc
      obtain ⟨hhosts, hid⟩ := hosts_register hregister
      have honce : ((w.issued ++ newIssued found request newId).map (·.1)).Nodup := by
        cases found with
        | some agent => exact (List.append_nil w.issued).symm ▸ h.once
        | none =>
            rw [List.map_append, List.nodup_append]
            refine ⟨h.once, List.pairwise_singleton .., fun i hi j hj heq => hfresh ?_⟩
            obtain rfl : j = newId := List.mem_singleton.mp hj
            exact heq ▸ hi
      refine h.of_rpc hrpc rfl (fun _ => rfl) honce ?_ ?_
      · intro host hhost
        rw [hhosts] at hhost
        rcases List.mem_append.mp hhost with hold | hnew
        · exact List.mem_append_left _ (h.rows host hold)
        · exact List.mem_append_right _ hnew
      · cases found with
        | some agent => exact hid ▸ List.mem_append_left _ (hfound agent rfl)
        | none =>
            rw [hid]
            exact List.mem_append_right _ (hname ▸ List.mem_singleton.mpr rfl)
  | beat hrpc hbeat =>
      refine h.of_answer hrpc rfl nofun (fun host hhost => ?_) trivial
      rwa [hosts_update hbeat] at hhost
  | fail hrpc =>
      rcases hrpc with ⟨request, found, hrpc⟩ | ⟨agent, policyVersion, hrpc⟩
      · exact h.of_answer hrpc rfl nofun (fun _ => id) trivial
      · exact h.of_answer hrpc rfl nofun (fun _ => id) trivial
  | @arrive c c' rpc answer hwaiting hrpc =>
      obtain ⟨x, hx, hclient, -⟩ := h.waiting c rpc hwaiting
      rw [hrpc, Option.some.injEq] at hx
      obtain rfl : c' = c := by rwa [← hx] at hclient
      have hok := h.rpcs rpc _ hrpc
      cases answer with
      | registered id =>
          refine h.of_client (fun id' hid' => ?_) nofun
          exact Option.some.inj hid' ▸ hok
      | _ => exact h.of_client (h.agents c') nofun
  | @expire c => exact h.of_client (h.agents c) nofun
  | @restart c hwaiting =>
      refine h.of_client (h.agents c) fun rpc hrpc => ?_
      rw [hwaiting] at hrpc
      cases hrpc
  | delete _ =>
      exact {
        once := h.once
        rows := fun host hhost => h.rows host (mem_hosts_delete.mp hhost).1
        rpcs := h.rpcs
        agents := h.agents
        waiting := h.waiting }

theorem inv_inductive : (registry hostnames).InductiveBy FreshIds (Inv hostnames) where
  init := by
    rintro w ⟨htable, hclients, hrpcs, hissued⟩
    constructor
    · rw [hissued]
      exact List.nodup_nil
    · intro host hhost
      rw [AgentTable.hosts, htable] at hhost
      cases hhost
    · intro rpc x hx
      rw [hrpcs] at hx
      cases hx
    · intro c id hid
      rw [hclients] at hid
      cases hid
    · intro c rpc hrpc
      rw [hclients] at hrpc
      cases hrpc
  step := fun _ _ _ h hfresh hstep => inv_step h hfresh (stepped hstep)

/-- Whatever registrations, heartbeats, lost answers, reconnects and deletions interleave: the id
that an agent holds is one that was issued for its own host, so the row that its calls are about
is the row of that host or none, and an agent of another host never holds the same id. -/
theorem agentId_own (h : (registry hostnames).ReachableBy FreshIds w)
    (hid : (w.clients c).agentId = some id) :
    (id, hostnames c) ∈ w.issued ∧
      (∀ x ∈ w.table.rows, x.id = id → x.hostname = hostnames c) ∧
      ∀ c', (w.clients c').agentId = some id → hostnames c' = hostnames c := by
  have hinv := inv_inductive.invariant w h
  have hissued := hinv.agents c id hid
  refine ⟨hissued, ?_, ?_⟩
  · rintro x hx rfl
    exact hinv.host_unique (hinv.rows _ (List.mem_map.mpr ⟨x, hx, rfl⟩)) hissued
  · exact fun c' hid' => hinv.host_unique (hinv.agents c' id hid') hissued

/-! ## A deleted agent -/

/-- A heartbeat of a row that is gone, on its way or refused. -/
def Refused (id : Uuid) : Rpc → Prop
  | .heartbeat _ id' _ => id' = id
  | .answered _ answer => answer = .notFound
  | _ => False

/-- A client that is registered under the id of a row that is gone. -/
structure Orphaned (hostnames : ClientId → String) (old : RpcId → Option Rpc) (c : ClientId)
    (id : Uuid) (w : World) : Prop where
  inv : Inv hostnames w
  registered : (w.clients c).registered = true
  agentId : (w.clients c).agentId = some id
  gone : ∀ hostname, (id, hostname) ∉ w.table.hosts
  /-- The calls that are not among the old ones. -/
  sent : ∀ rpc x, old rpc = none → w.rpcs rpc = some x → x.client = c → Refused id x

/-- The actions but a reconnect of the client. -/
def Kept (c : ClientId) (w : World) (a : Action) : Prop := FreshIds w a ∧ a ≠ .restart c

instance (c : ClientId) (w : World) (a : Action) : Decidable (Kept c w a) :=
  inferInstanceAs (Decidable (_ ∧ _))

variable {old : RpcId → Option Rpc}

/-- A call of the client changes only from a heartbeat of the row to its refusal. -/
theorem Orphaned.sent_setRpc (h : Orphaned hostnames old c id w) (hrpc : w.rpcs rpc = some x)
    (hclient : y.client = x.client) (hrefused : Refused id x → Refused id y) (rpc' : RpcId)
    (z : Rpc) (hold : old rpc' = none) (hz : (w.setRpc rpc y).rpcs rpc' = some z)
    (hc : z.client = c) : Refused id z := by
  by_cases heq : rpc' = rpc
  · subst heq
    rw [rpcs_setRpc_self, Option.some.injEq] at hz
    subst hz
    exact hrefused (h.sent rpc' x hold hrpc (hclient ▸ hc))
  · rw [rpcs_setRpc_of_ne w y heq] at hz
    exact h.sent rpc' z hold hz hc

/-- A step of the server. -/
theorem Orphaned.of_server (h : Orphaned hostnames old c id w) (hinv : Inv hostnames w')
    (hclients : w'.clients = w.clients)
    (hgone : ∀ hostname, (id, hostname) ∉ w'.table.hosts)
    (hsent : ∀ rpc x, old rpc = none → w'.rpcs rpc = some x → x.client = c → Refused id x) :
    Orphaned hostnames old c id w' where
  inv := hinv
  registered := hclients ▸ h.registered
  agentId := hclients ▸ h.agentId
  gone := hgone
  sent := hsent

/-- A step of a client, which keeps what this client has. -/
theorem Orphaned.of_client {c' : ClientId} {z : Client} (h : Orphaned hostnames old c id w)
    (hinv : Inv hostnames (w.setClient c' z))
    (hkeeps : c' = c → z.registered = true ∧ z.agentId = some id) :
    Orphaned hostnames old c id (w.setClient c' z) := by
  have hclient : ((w.setClient c' z).clients c).registered = true ∧
      ((w.setClient c' z).clients c).agentId = some id := by
    by_cases heq : c' = c
    · subst heq
      rw [clients_setClient_self]
      exact hkeeps rfl
    · rw [clients_setClient_of_ne w z (Ne.symm heq)]
      exact ⟨h.registered, h.agentId⟩
  exact ⟨hinv, hclient.1, hclient.2, h.gone, h.sent⟩

theorem orphaned_step {a : Action} (h : Orphaned hostnames old c id w) (hkept : Kept c w a)
    (hstep : Stepped hostnames w a w') : Orphaned hostnames old c id w' := by
  have hinv := inv_step h.inv hkept.1 hstep
  cases hstep with
  | @start c' rpc request policyVersion x hname hidle hnone hround =>
      refine Orphaned.of_client ⟨?_, h.registered, h.agentId, h.gone, ?_⟩ hinv ?_
      · refine h.inv.send hnone ?_
        have hsent := hinv.rpcs rpc x (rpcs_setRpc_self w rpc x)
        exact hsent
      · intro rpc' z hold hz hc
        by_cases heq : rpc' = rpc
        · subst heq
          rw [rpcs_setRpc_self, Option.some.injEq] at hz
          subst hz
          -- a registered client sends a heartbeat, with its id
          have hself : c' = c := by
            unfold roundCall at hround
            split at hround
            · obtain ⟨_, -, rfl⟩ := Option.map_eq_some_iff.mp hround
              exact hc
            · rw [← Option.some.inj hround] at hc
              exact hc
          subst hself
          rw [roundCall, if_pos h.registered, h.agentId] at hround
          rw [← Option.some.inj hround]
          rfl
        · rw [rpcs_setRpc_of_ne w x heq] at hz
          exact h.sent rpc' z hold hz hc
      · rintro rfl
        exact ⟨h.registered, h.agentId⟩
  | select hrpc _ => exact h.of_server hinv rfl h.gone (h.sent_setRpc hrpc rfl nofun)
  | selectMany hrpc _ => exact h.of_server hinv rfl h.gone (h.sent_setRpc hrpc rfl nofun)
  | @selectId c' rpc agentId policyVersion agent hrpc hagent =>
      refine h.of_server hinv rfl h.gone (h.sent_setRpc hrpc rfl ?_)
      rintro rfl
      rw [selectId_eq_none.mpr h.gone] at hagent
      cases hagent
  | selectGone hrpc _ => exact h.of_server hinv rfl h.gone (h.sent_setRpc hrpc rfl fun _ => rfl)
  | @commit c' rpc request found newId now table id' hrpc hregister =>
      refine h.of_server hinv rfl ?_ (h.sent_setRpc hrpc rfl nofun)
      intro hostname hmem
      rw [(hosts_register hregister).1] at hmem
      rcases List.mem_append.mp hmem with hmem | hmem
      · exact h.gone hostname hmem
      · cases found with
        | some agent => cases hmem
        | none =>
            obtain ⟨rfl, -⟩ := Prod.mk.inj (List.mem_singleton.mp hmem)
            exact hkept.1 (List.mem_map_of_mem (h.inv.agents c id h.agentId))
  | beat hrpc hbeat =>
      refine h.of_server hinv rfl ?_ (h.sent_setRpc hrpc rfl nofun)
      rw [hosts_update hbeat]
      exact h.gone
  | fail hrpc =>
      rcases hrpc with ⟨request, found, hrpc⟩ | ⟨agent, policyVersion, hrpc⟩
      · exact h.of_server hinv rfl h.gone (h.sent_setRpc hrpc rfl nofun)
      · exact h.of_server hinv rfl h.gone (h.sent_setRpc hrpc rfl nofun)
  | @arrive c' c'' rpc answer hwaiting hrpc =>
      refine h.of_client hinv ?_
      rintro rfl
      obtain ⟨x, hx, -, hnot⟩ := h.inv.waiting c' rpc hwaiting
      rw [hrpc, Option.some.injEq] at hx
      subst hx
      cases answer with
      | registered id' => exact nomatch hnot h.registered
      | _ => exact ⟨h.registered, h.agentId⟩
  | expire =>
      refine h.of_client hinv ?_
      rintro rfl
      exact ⟨h.registered, h.agentId⟩
  | @restart c' _ =>
      refine h.of_client hinv ?_
      rintro rfl
      exact absurd rfl hkept.2
  | delete _ =>
      refine h.of_server hinv rfl ?_ h.sent
      exact fun hostname hmem => h.gone hostname (mem_hosts_delete.mp hmem).1

/-- Once the row of a registered agent is deleted, and until the agent reconnects, whatever the
other agents and the console do: the agent stays registered under the id, no row ever has the id
again, and every call that its heartbeat thread sends from then on is a heartbeat that is refused
as not found. -/
theorem deleted_agent_refused (h : (registry hostnames).ReachableBy FreshIds w)
    (hregistered : (w.clients c).registered = true) (hid : (w.clients c).agentId = some id)
    (hgone : ¬ w.table.Has id) {actions : List Action}
    (hkept : (registry hostnames).RunOk (Kept c) w actions)
    (hrun : (registry hostnames).run w actions = some w') :
    (w'.clients c).registered = true ∧ (w'.clients c).agentId = some id ∧ ¬ w'.table.Has id ∧
      ∀ rpc x, w.rpcs rpc = none → w'.rpcs rpc = some x → x.client = c → Refused id x := by
  have hstart : Orphaned hostnames w.rpcs c id w := by
    refine ⟨inv_inductive.invariant w h, hregistered, hid, fun hostname hmem => ?_, ?_⟩
    · exact hgone (has_iff.mpr ⟨hostname, hmem⟩)
    · intro rpc x hnone hx
      rw [hnone] at hx
      cases hx
  have hstep : ∀ s a s', Orphaned hostnames w.rpcs c id s → Kept c s a →
      (registry hostnames).step s a = some s' → Orphaned hostnames w.rpcs c id s' :=
    fun _ _ _ hs hok hstep => orphaned_step hs hok (stepped hstep)
  have hend := TSys.run_keeps hstep actions hstart hkept hrun
  refine ⟨hend.registered, hend.agentId, fun hhas => ?_, hend.sent⟩
  obtain ⟨hostname, hmem⟩ := has_iff.mp hhas
  exact hend.gone hostname hmem

/-! ## An agent that is deleted in the console -/

def emptyRegistry : World where
  table := ⟨[], List.nodup_nil⟩
  clients := fun _ => {}
  rpcs := fun _ => none
  issued := []

def workstation (hostname : String) : RegisterRequest where
  hostname := hostname
  osVersion := "Windows"
  agentVersion := "0.1.0"
  driverVersion := "0.1.0"
  ipAddress := "10.0.0.1"
  capabilities := some ⟨true, true, true, true, true⟩

def twoHosts (c : ClientId) : String := if c = 0 then "ws1" else "ws2"

/-- Two agents register. -/
def bothRegister : List Action :=
  [.start 0 0 (workstation "ws1") 0, .start 1 1 (workstation "ws2") 0, .select 0, .select 1,
    .commit 1 2 "12:00", .commit 0 1 "12:01", .arrive 0, .arrive 1]

/-- The row of the first is deleted, and its heartbeat refused. -/
def deletedRun : List Action :=
  [.start 0 2 (workstation "ws1") 0, .start 1 3 (workstation "ws2") 0, .select 2, .select 3,
    .commit 3 5 "12:02", .arrive 0, .arrive 1, .start 0 4 (workstation "ws1") 0]

theorem reaches_of_test {actions : List Action}
    (hrun : (registry twoHosts).run emptyRegistry actions = some w)
    (htest : (registry twoHosts).runAll (fun w a => decide (FreshIds w a)) emptyRegistry actions =
      true) : (registry twoHosts).ReachableBy FreshIds w :=
  TSys.reachableBy_run (.init ⟨rfl, rfl, rfl, rfl⟩) actions
    (TSys.runOk_of_runAll (fun _ _ => of_decide_eq_true) htest) hrun

theorem agentId_own_bothRegister : ∃ w,
    (registry twoHosts).run emptyRegistry bothRegister = some w ∧
      (1, "ws1") ∈ w.issued ∧ (∀ x ∈ w.table.rows, x.id = 1 → x.hostname = "ws1") ∧
        ∀ c', (w.clients c').agentId = some 1 → twoHosts c' = "ws1" := by
  have hruns : ((registry twoHosts).run emptyRegistry bothRegister).map
      (fun w => (w.clients 0).agentId) = some (some 1) := by
    decide +kernel
  obtain ⟨w, hrun, hid⟩ := Option.map_eq_some_iff.mp hruns
  exact ⟨w, hrun, agentId_own (reaches_of_test hrun (by decide +kernel)) hid⟩

theorem deleted_agent_refused_deletedRun : ∃ w w',
    (registry twoHosts).run emptyRegistry (bothRegister ++ [.delete 1]) = some w ∧
      (registry twoHosts).run w deletedRun = some w' ∧
      w'.rpcs 2 = some (.answered 0 .notFound) ∧ w'.rpcs 3 = some (.answered 1 .alive) ∧
      ((w'.clients 0).registered = true ∧ (w'.clients 0).agentId = some 1 ∧ ¬ w'.table.Has 1 ∧
        ∀ rpc x, w.rpcs rpc = none → w'.rpcs rpc = some x → x.client = 0 → Refused 1 x) := by
  have hruns : (((registry twoHosts).run emptyRegistry (bothRegister ++ [.delete 1])).bind fun w =>
      if w.clients 0 = ⟨true, some 1, none⟩ ∧ ¬ w.table.Has 1 ∧
          (registry twoHosts).runAll (fun w a => decide (Kept 0 w a)) w deletedRun = true then
        ((registry twoHosts).run w deletedRun).map fun w' => (w'.rpcs 2, w'.rpcs 3)
      else none) = some (some (.answered 0 .notFound), some (.answered 1 .alive)) := by
    decide +kernel
  obtain ⟨w, hrun, hrest⟩ := Option.bind_eq_some_iff.mp hruns
  split at hrest
  · next hall =>
    obtain ⟨hclient, hgone, htest⟩ := hall
    obtain ⟨w', hrun', hrpcs⟩ := Option.map_eq_some_iff.mp hrest
    obtain ⟨htwo, hthree⟩ := Prod.mk.inj hrpcs
    have hreach := reaches_of_test hrun (by decide +kernel)
    have hkept : (registry twoHosts).RunOk (Kept 0) w deletedRun :=
      TSys.runOk_of_runAll (fun _ _ => of_decide_eq_true) htest
    exact ⟨w, w', hrun, hrun', htwo, hthree, deleted_agent_refused hreach (by rw [hclient])
      (by rw [hclient]) hgone hkept hrun'⟩
  · cases hrest

end AkesoDlp.Server.Registry
