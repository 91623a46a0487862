import AkesoDlp.Lib.TSys
import AkesoDlp.Server.CommandQueue
import Mathlib.Data.List.Nodup

/-!
# The registry of agents

`Register` and `Heartbeat` of the server with `register_agent` and `heartbeat` of the agent
service, `delete_agent` of the API, and the heartbeat threads of any number of agents. A call is
its arrival, its SELECT, its write with the COMMIT, and the arrival of its answer, each a step of
its own; a caller may have given up by then. PostgreSQL runs the calls READ COMMITTED: nobody
sees a row before its COMMIT, and an UPDATE finds its row by primary key.
-/

namespace AkesoDlp.Server.Registry

open Lib

/-! ## The table -/

inductive AgentStatus
  | online
  | offline
  | stale
  | error
deriving DecidableEq, Repr

structure Capabilities where
  usbMonitor : Bool
  networkShareMonitor : Bool
  clipboardMonitor : Bool
  browserMonitor : Bool
  discover : Bool
deriving DecidableEq, Repr

/-- The columns that a registration sets besides the hostname. -/
structure AgentDetails where
  osVersion : Option String
  agentVersion : Option String
  driverVersion : Option String
  ipAddress : Option String
  capabilities : Option Capabilities
deriving DecidableEq, Repr

structure Agent where
  id : Uuid
  hostname : String
  details : AgentDetails
  policyVersion : Int := 0
  status : AgentStatus := .offline
  lastHeartbeat : Option String
deriving DecidableEq, Repr

/-- `id` is the primary key; there is no constraint on `hostname`. -/
structure AgentTable where
  rows : List Agent
  unique : (rows.map (·.id)).Nodup

def AgentTable.Has (t : AgentTable) (id : Uuid) : Prop := id ∈ t.rows.map (·.id)

instance (t : AgentTable) (id : Uuid) : Decidable (t.Has id) :=
  inferInstanceAs (Decidable (id ∈ t.rows.map (·.id)))

/-- An UPDATE has the columns whose value the session has changed. -/
def changed {β : Type*} [DecidableEq β] (loaded new current : β) : β :=
  if new = loaded then current else new

def AgentDetails.write (loaded new current : AgentDetails) : AgentDetails where
  osVersion := changed loaded.osVersion new.osVersion current.osVersion
  agentVersion := changed loaded.agentVersion new.agentVersion current.agentVersion
  driverVersion := changed loaded.driverVersion new.driverVersion current.driverVersion
  ipAddress := changed loaded.ipAddress new.ipAddress current.ipAddress
  capabilities := changed loaded.capabilities new.capabilities current.capabilities

/-- The row `current` after the UPDATE of an object that was `loaded` and is `new`. -/
def Agent.write (loaded new current : Agent) : Agent where
  id := current.id
  hostname := current.hostname
  details := loaded.details.write new.details current.details
  policyVersion := changed loaded.policyVersion new.policyVersion current.policyVersion
  status := changed loaded.status new.status current.status
  lastHeartbeat := changed loaded.lastHeartbeat new.lastHeartbeat current.lastHeartbeat

theorem map_id_write (loaded new : Agent) (rows : List Agent) :
    (rows.map fun x => if x.id = loaded.id then loaded.write new x else x).map (·.id) =
      rows.map (·.id) := by
  rw [List.map_map]
  refine List.map_congr_left fun x _ => ?_
  simp only [Function.comp_apply]
  split <;> rfl

/-- The flush of an object; `none` where an UPDATE matches no row (`StaleDataError`). -/
def AgentTable.update (t : AgentTable) (loaded new : Agent) : Option AgentTable :=
  if new = loaded then some t
  else if t.Has loaded.id then
    some ⟨t.rows.map fun x => if x.id = loaded.id then loaded.write new x else x, by
      rw [map_id_write]
      exact t.unique⟩
  else none

/-- The INSERT of a row; `none` where the primary key is taken. -/
def AgentTable.insert (t : AgentTable) (x : Agent) : Option AgentTable :=
  if h : t.Has x.id then none
  else some ⟨t.rows ++ [x], by
    rw [List.map_append, List.nodup_append]
    refine ⟨t.unique, List.nodup_singleton _, fun id hid id' hid' heq => h ?_⟩
    rw [List.map_singleton, List.mem_singleton] at hid'
    exact hid' ▸ heq ▸ hid⟩

def AgentTable.delete (t : AgentTable) (id : Uuid) : AgentTable :=
  ⟨t.rows.filter (·.id ≠ id), (List.filter_sublist.map _).nodup t.unique⟩

/-- `scalar_one_or_none` -/
def scalarOneOrNone {β : Type*} : List β → Except String (Option β)
  | [] => .ok none
  | [x] => .ok (some x)
  | _ => .error "Multiple rows were found when one or none was required"

/-! ## The service -/

/-- `RegisterRequest` -/
structure RegisterRequest where
  hostname : String
  osVersion : String
  agentVersion : String
  driverVersion : String
  ipAddress : String
  capabilities : Option Capabilities
deriving DecidableEq, Repr

/-- `value or None` -/
def orNone (value : String) : Option String := if value.isEmpty then none else some value

def RegisterRequest.details (r : RegisterRequest) : AgentDetails where
  osVersion := orNone r.osVersion
  agentVersion := orNone r.agentVersion
  driverVersion := orNone r.driverVersion
  ipAddress := orNone r.ipAddress
  capabilities := r.capabilities

/-- The SELECT of `register_agent`. -/
def selectHostname (t : AgentTable) (hostname : String) : Except String (Option Agent) :=
  scalarOneOrNone (t.rows.filter (·.hostname == hostname))

/-- The SELECT by primary key. -/
def selectId (t : AgentTable) (id : Uuid) : Option Agent := t.rows.find? (·.id == id)

/-- The rest of `register_agent`: the table and the id of the agent. -/
def registerAgent (t : AgentTable) (r : RegisterRequest) (found : Option Agent) (newId : Uuid)
    (now : String) : Option (AgentTable × Uuid) :=
  match found with
  | some agent =>
      (t.update agent
        { agent with details := r.details, status := .online, lastHeartbeat := some now }).map
        (·, agent.id)
  | none =>
      (t.insert {
        id := newId
        hostname := r.hostname
        details := r.details
        status := .online
        lastHeartbeat := some now }).map (·, newId)

/-- The rest of `heartbeat`. -/
def heartbeatAgent (t : AgentTable) (agent : Agent) (policyVersion : Int) (now : String) :
    Option AgentTable :=
  t.update agent
    { agent with lastHeartbeat := some now, status := .online, policyVersion := policyVersion }

/-! ## The calls -/

abbrev ClientId := Nat

abbrev RpcId := Nat

inductive Answer
  /-- `RegisterResponse`, with the id as text. -/
  | registered (id : Uuid)
  /-- `HeartbeatResponse(success=True)` -/
  | alive
  | notFound
  /-- `StatusCode.INTERNAL`, with the text of the exception. -/
  | internal (details : String)
deriving DecidableEq, Repr

/-- Where a call stands. -/
inductive Rpc
  | register (client : ClientId) (request : RegisterRequest)
  | registerSelected (client : ClientId) (request : RegisterRequest) (found : Option Agent)
  | heartbeat (client : ClientId) (agentId : Uuid) (policyVersion : Int)
  | heartbeatSelected (client : ClientId) (agent : Agent) (policyVersion : Int)
  | answered (client : ClientId) (answer : Answer)
deriving DecidableEq, Repr

/-- The heartbeat thread of an agent. -/
structure Client where
  registered : Bool := false
  agentId : Option Uuid := none
  /-- The call that the thread blocks in. -/
  waiting : Option RpcId := none
deriving DecidableEq, Repr

structure World where
  table : AgentTable
  clients : ClientId → Client
  rpcs : RpcId → Option Rpc
  /-- The ids that rows have been inserted with, and for which host. -/
  issued : List (Uuid × String)

inductive Action
  /-- The thread sends the call that its state asks for. -/
  | start (client : ClientId) (rpc : RpcId) (request : RegisterRequest) (policyVersion : Int)
  | select (rpc : RpcId)
  | commit (rpc : RpcId) (newId : Uuid) (now : String)
  | arrive (client : ClientId)
  /-- The deadline of the call passes. -/
  | expire (client : ClientId)
  /-- `Disconnect` -/
  | restart (client : ClientId)
  | delete (id : Uuid)
deriving DecidableEq, Repr

def World.setRpc (w : World) (rpc : RpcId) (x : Rpc) : World :=
  { w with rpcs := Function.update w.rpcs rpc (some x) }

def World.setClient (w : World) (c : ClientId) (x : Client) : World :=
  { w with clients := Function.update w.clients c x }

/-- What a round of `HeartbeatThread` sends. -/
def roundCall (x : Client) (c : ClientId) (request : RegisterRequest) (policyVersion : Int) :
    Option Rpc :=
  if x.registered then x.agentId.map (.heartbeat c · policyVersion)
  else some (.register c request)

def World.select (w : World) (rpc : RpcId) : Rpc → Option World
  | .register c request =>
      match selectHostname w.table request.hostname with
      | .ok found => some (w.setRpc rpc (.registerSelected c request found))
      | .error e => some (w.setRpc rpc (.answered c (.internal e)))
  | .heartbeat c agentId policyVersion =>
      match selectId w.table agentId with
      | some agent => some (w.setRpc rpc (.heartbeatSelected c agent policyVersion))
      | none => some (w.setRpc rpc (.answered c .notFound))
  | _ => none

def staleData : Answer :=
  .internal "UPDATE statement on table 'agents' expected to update 1 row(s); 0 were matched."

def duplicateKey : Answer :=
  .internal "duplicate key value violates unique constraint \"agents_pkey\""

/-- The ids of the rows that are new. -/
def newIssued (found : Option Agent) (request : RegisterRequest) (newId : Uuid) :
    List (Uuid × String) :=
  match found with
  | some _ => []
  | none => [(newId, request.hostname)]

def World.commit (w : World) (rpc : RpcId) (newId : Uuid) (now : String) : Rpc → Option World
  | .registerSelected c request found =>
      match registerAgent w.table request found newId now with
      | some (table, id) =>
          some { w.setRpc rpc (.answered c (.registered id)) with
            table := table
            issued := w.issued ++ newIssued found request newId }
      | none => some (w.setRpc rpc (.answered c (if found.isSome then staleData else duplicateKey)))
  | .heartbeatSelected c agent policyVersion =>
      match heartbeatAgent w.table agent policyVersion now with
      | some table => some { w.setRpc rpc (.answered c .alive) with table := table }
      | none => some (w.setRpc rpc (.answered c staleData))
  | _ => none

/-- The thread goes on after its call. -/
def Client.take (x : Client) (answer : Answer) : Client :=
  match answer with
  | .registered id => { registered := true, agentId := some id, waiting := none }
  | .alive | .notFound | .internal _ => { x with waiting := none }

/-- `gethostname` is the same whenever an agent registers. -/
def step (hostname : ClientId → String) (w : World) : Action → Option World
  | .start c rpc request policyVersion =>
      if request.hostname = hostname c ∧ (w.clients c).waiting = none ∧ w.rpcs rpc = none then
        (roundCall (w.clients c) c request policyVersion).map fun x =>
          (w.setRpc rpc x).setClient c { w.clients c with waiting := some rpc }
      else none
  | .select rpc => (w.rpcs rpc).bind (w.select rpc)
  | .commit rpc newId now => (w.rpcs rpc).bind (w.commit rpc newId now)
  | .arrive c =>
      match (w.clients c).waiting.bind w.rpcs with
      | some (.answered _ answer) => some (w.setClient c ((w.clients c).take answer))
      | _ => none
  | .expire c => some (w.setClient c { w.clients c with waiting := none })
  | .restart c =>
      if (w.clients c).waiting = none then
        some (w.setClient c { w.clients c with registered := false })
      else none
  | .delete id => if w.table.Has id then some { w with table := w.table.delete id } else none

def registry (hostname : ClientId → String) : TSys World Action where
  init := fun w => w.table.rows = [] ∧ w.clients = (fun _ => {}) ∧ w.rpcs = (fun _ => none) ∧
    w.issued = []
  step := step hostname

/-- `uuid4` gives ids that no row has had. -/
def FreshIds (w : World) : Action → Prop
  | .commit _ newId _ => newId ∉ w.issued.map (·.1)
  | _ => True

instance (w : World) (a : Action) : Decidable (FreshIds w a) := by
  unfold FreshIds
  cases a <;> infer_instance

/-! ## Which hosts the rows are for -/

/-- The ids and hostnames of the rows. -/
def AgentTable.hosts (t : AgentTable) : List (Uuid × String) :=
  t.rows.map fun x => (x.id, x.hostname)

section

variable {t t' : AgentTable} {loaded new x : Agent} {id newId : Uuid} {now hostname : String}

theorem has_iff : t.Has id ↔ ∃ hostname, (id, hostname) ∈ t.hosts := by
  simp only [AgentTable.Has, AgentTable.hosts, List.mem_map, Prod.mk.injEq]
  constructor
  · rintro ⟨x, hx, rfl⟩
    exact ⟨x.hostname, x, hx, rfl, rfl⟩
  · rintro ⟨hostname, x, hx, hid, -⟩
    exact ⟨x, hx, hid⟩

theorem hosts_update (h : t.update loaded new = some t') : t'.hosts = t.hosts := by
  unfold AgentTable.update at h
  split at h
  · rw [Option.some.inj h]
  · split at h
    · rw [← Option.some.inj h, AgentTable.hosts, List.map_map]
      refine List.map_congr_left fun x _ => ?_
      simp only [Function.comp_apply]
      split <;> rfl
    · cases h

theorem hosts_insert (h : t.insert x = some t') : t'.hosts = t.hosts ++ [(x.id, x.hostname)] := by
  unfold AgentTable.insert at h
  split at h
  · cases h
  · rw [← Option.some.inj h, AgentTable.hosts, List.map_append]
    rfl

theorem mem_hosts_delete {host : Uuid × String} :
    host ∈ (t.delete id).hosts ↔ host ∈ t.hosts ∧ host.1 ≠ id := by
  simp only [AgentTable.hosts, AgentTable.delete, List.mem_map, List.mem_filter, ne_eq,
    decide_eq_true_eq]
  constructor
  · rintro ⟨x, ⟨hx, hne⟩, rfl⟩
    exact ⟨⟨x, hx, rfl⟩, hne⟩
  · rintro ⟨⟨x, hx, rfl⟩, hne⟩
    exact ⟨x, ⟨hx, hne⟩, rfl⟩

/-- Which rows of a hostname the SELECT of `register_agent` sees. -/
def idsOf (t : AgentTable) (hostname : String) : List Uuid :=
  (t.hosts.filter (·.2 == hostname)).map (·.1)

theorem hosts_register {r : RegisterRequest} {found : Option Agent}
    (h : registerAgent t r found newId now = some (t', id)) :
    t'.hosts = t.hosts ++ newIssued found r newId ∧ id = (found.elim newId Agent.id) := by
  cases found with
  | some agent =>
      obtain ⟨t₁, ht₁, heq⟩ := Option.map_eq_some_iff.mp h
      obtain ⟨rfl, rfl⟩ := Prod.mk.inj heq
      exact ⟨(hosts_update ht₁).trans (List.append_nil _).symm, rfl⟩
  | none =>
      obtain ⟨t₁, ht₁, heq⟩ := Option.map_eq_some_iff.mp h
      obtain ⟨rfl, rfl⟩ := Prod.mk.inj heq
      exact ⟨hosts_insert ht₁, rfl⟩

theorem selectHostname_eq_some (h : selectHostname t hostname = .ok (some x)) :
    (x.id, x.hostname) ∈ t.hosts ∧ x.hostname = hostname := by
  unfold selectHostname scalarOneOrNone at h
  split at h
  · cases h
  · next y hrows =>
    rw [Except.ok.injEq, Option.some.injEq] at h
    have hy : x ∈ t.rows.filter (·.hostname == hostname) :=
      h ▸ hrows ▸ List.mem_singleton.mpr rfl
    obtain ⟨hmem, hname⟩ := List.mem_filter.mp hy
    exact ⟨List.mem_map.mpr ⟨x, hmem, rfl⟩, beq_iff_eq.mp hname⟩
  · cases h

theorem selectHostname_eq_none :
    selectHostname t hostname = .ok none ↔ ∀ id, (id, hostname) ∉ t.hosts := by
  have hiff : selectHostname t hostname = .ok none ↔
      t.rows.filter (·.hostname == hostname) = [] := by
    unfold selectHostname scalarOneOrNone
    split
    · next hrows => exact iff_of_true rfl hrows
    · next hrows => simp [hrows]
    · next hne _ => exact iff_of_false nofun hne
  rw [hiff, List.filter_eq_nil_iff]
  simp only [AgentTable.hosts, List.mem_map, Prod.mk.injEq, not_exists, not_and, beq_iff_eq]
  constructor
  · rintro h id x hx - rfl
    exact h x hx rfl
  · intro h x hx heq
    exact h x.id x hx rfl heq

/-- The SELECT fails with two rows of the hostname. -/
theorem selectHostname_eq_error :
    (∃ e, selectHostname t hostname = .error e) ↔ 2 ≤ (idsOf t hostname).length := by
  have hlength : (idsOf t hostname).length =
      (t.rows.filter (·.hostname == hostname)).length := by
    rw [idsOf, List.length_map, AgentTable.hosts, List.filter_map, List.length_map]
    rfl
  rw [hlength]
  unfold selectHostname scalarOneOrNone
  split
  · next hrows => simp [hrows]
  · next hrows => simp [hrows]
  · next hnil hone =>
    refine iff_of_true ⟨_, rfl⟩ ?_
    cases hrows : t.rows.filter (·.hostname == hostname) with
    | nil => exact absurd hrows hnil
    | cons a rows =>
        cases rows with
        | nil => exact absurd hrows (hone a)
        | cons b rows => simp

theorem selectId_id (h : selectId t id = some x) : x.id = id := by
  unfold selectId at h
  have hid := List.find?_some h
  exact beq_iff_eq.mp hid

theorem selectId_eq_none : selectId t id = none ↔ ∀ hostname, (id, hostname) ∉ t.hosts := by
  rw [selectId, List.find?_eq_none]
  simp only [AgentTable.hosts, List.mem_map, Prod.mk.injEq, not_exists, not_and, beq_iff_eq]
  constructor
  · rintro h hostname x hx rfl
    exact absurd rfl (h x hx)
  · rintro h x hx rfl
    exact h x.hostname x hx rfl rfl

end

/-! ## Steps -/

variable {hostnames : ClientId → String} {w w' : World}

/-- What each step does, and when. -/
inductive Stepped (hostnames : ClientId → String) (w : World) : Action → World → Prop
  | start {c rpc request policyVersion x} : request.hostname = hostnames c →
      (w.clients c).waiting = none → w.rpcs rpc = none →
      roundCall (w.clients c) c request policyVersion = some x →
      Stepped hostnames w (.start c rpc request policyVersion)
        ((w.setRpc rpc x).setClient c { w.clients c with waiting := some rpc })
  | select {c rpc request found} : w.rpcs rpc = some (.register c request) →
      selectHostname w.table request.hostname = .ok found →
      Stepped hostnames w (.select rpc) (w.setRpc rpc (.registerSelected c request found))
  | selectMany {c rpc request e} : w.rpcs rpc = some (.register c request) →
      selectHostname w.table request.hostname = .error e →
      Stepped hostnames w (.select rpc) (w.setRpc rpc (.answered c (.internal e)))
  | selectId {c rpc agentId policyVersion agent} :
      w.rpcs rpc = some (.heartbeat c agentId policyVersion) →
      selectId w.table agentId = some agent →
      Stepped hostnames w (.select rpc) (w.setRpc rpc (.heartbeatSelected c agent policyVersion))
  | selectGone {c rpc agentId policyVersion} :
      w.rpcs rpc = some (.heartbeat c agentId policyVersion) → selectId w.table agentId = none →
      Stepped hostnames w (.select rpc) (w.setRpc rpc (.answered c .notFound))
  | commit {c rpc request found newId now table id} :
      w.rpcs rpc = some (.registerSelected c request found) →
      registerAgent w.table request found newId now = some (table, id) →
      Stepped hostnames w (.commit rpc newId now) { w.setRpc rpc (.answered c (.registered id)) with
        table := table
        issued := w.issued ++ newIssued found request newId }
  | beat {c rpc agent policyVersion newId now table} :
      w.rpcs rpc = some (.heartbeatSelected c agent policyVersion) →
      heartbeatAgent w.table agent policyVersion now = some table →
      Stepped hostnames w (.commit rpc newId now)
        { w.setRpc rpc (.answered c .alive) with table := table }
  | fail {c rpc newId now details} :
      ((∃ request found, w.rpcs rpc = some (.registerSelected c request found)) ∨
        ∃ agent policyVersion, w.rpcs rpc = some (.heartbeatSelected c agent policyVersion)) →
      Stepped hostnames w (.commit rpc newId now) (w.setRpc rpc (.answered c (.internal details)))
  | arrive {c c' rpc answer} : (w.clients c).waiting = some rpc →
      w.rpcs rpc = some (.answered c' answer) →
      Stepped hostnames w (.arrive c) (w.setClient c ((w.clients c).take answer))
  | expire {c} :
      Stepped hostnames w (.expire c) (w.setClient c { w.clients c with waiting := none })
  | restart {c} : (w.clients c).waiting = none →
      Stepped hostnames w (.restart c) (w.setClient c { w.clients c with registered := false })
  | delete {id} : w.table.Has id →
      Stepped hostnames w (.delete id) { w with table := w.table.delete id }

theorem stepped {a : Action} (h : step hostnames w a = some w') : Stepped hostnames w a w' := by
  cases a with
  | start c rpc request policyVersion =>
      simp only [step] at h
      split at h
      · next hguard =>
        obtain ⟨x, hx, rfl⟩ := Option.map_eq_some_iff.mp h
        exact .start hguard.1 hguard.2.1 hguard.2.2 hx
      · cases h
  | select rpc =>
      obtain ⟨x, hx, hselect⟩ := Option.bind_eq_some_iff.mp h
      unfold World.select at hselect
      split at hselect
      · split at hselect
        · next hfound => exact Option.some.inj hselect ▸ .select hx hfound
        · next herror => exact Option.some.inj hselect ▸ .selectMany hx herror
      · split at hselect
        · next hagent => exact Option.some.inj hselect ▸ .selectId hx hagent
        · next hnone => exact Option.some.inj hselect ▸ .selectGone hx hnone
      · cases hselect
  | commit rpc newId now =>
      obtain ⟨x, hx, hcommit⟩ := Option.bind_eq_some_iff.mp h
      unfold World.commit at hcommit
      split at hcommit
      · next c request found =>
        split at hcommit
        · next hregister => exact Option.some.inj hcommit ▸ .commit hx hregister
        · have hinternal : ∃ e, (if found.isSome then staleData else duplicateKey) =
              .internal e := by
            split <;> exact ⟨_, rfl⟩
          obtain ⟨e, he⟩ := hinternal
          rw [he] at hcommit
          exact Option.some.inj hcommit ▸ .fail (.inl ⟨_, _, hx⟩)
      · split at hcommit
        · next hbeat => exact Option.some.inj hcommit ▸ .beat hx hbeat
        · exact Option.some.inj hcommit ▸ .fail (.inr ⟨_, _, hx⟩)
      · cases hcommit
  | arrive c =>
      simp only [step] at h
      split at h
      · next hanswer =>
        obtain ⟨rpc, hwaiting, hrpc⟩ := Option.bind_eq_some_iff.mp hanswer
        exact Option.some.inj h ▸ .arrive hwaiting hrpc
      · cases h
  | expire c => exact Option.some.inj h ▸ .expire
  | restart c =>
      simp only [step] at h
      split at h
      · next hwaiting => exact Option.some.inj h ▸ .restart hwaiting
      · cases h
  | delete id =>
      simp only [step] at h
      split at h
      · next hhas => exact Option.some.inj h ▸ .delete hhas
      · cases h

end AkesoDlp.Server.Registry
