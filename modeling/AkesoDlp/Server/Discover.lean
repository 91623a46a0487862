import AkesoDlp.Server.CommandQueue
import Mathlib.Data.List.Basic

/-!
# Discover scans and their commands

The REST endpoints of `api/discover.py` that create, update, trigger and
complete scans, and the part of `Heartbeat` that delivers commands. The queue
is keyed by what each side passes: `trigger_discover` the UUID column of the
scan, `Heartbeat` the string of the parsed id.
-/

namespace AkesoDlp.Server.Discover

open Lib

/-- `DiscoverStatus`. -/
inductive DiscoverStatus
  | pending
  | running
  | completed
  | failed
  | cancelled
deriving DecidableEq, Repr

def DiscoverStatus.value : DiscoverStatus → String
  | .pending => "pending"
  | .running => "running"
  | .completed => "completed"
  | .failed => "failed"
  | .cancelled => "cancelled"

/-- What a request says about a scan. -/
structure DiscoverCreate where
  agentId : Option Uuid
  scanPath : String
  recursive : Bool := true
  fileExtensions : Option (List String) := none
  pathExclusions : Option (List String) := none
deriving DecidableEq, Repr

/-- A row of `discover_scans`. -/
structure DiscoverScan extends DiscoverCreate where
  id : Uuid
  status : DiscoverStatus
deriving DecidableEq, Repr

structure AgentCommand where
  commandType : String
  parameters : List (String × String)
deriving DecidableEq, Repr

structure HttpError where
  status : Nat
  detail : String
deriving DecidableEq, Repr

/-- `",".join`. -/
def joinComma : List String → String
  | [] => ""
  | [s] => s
  | s :: ss => s ++ "," ++ joinComma ss

/-- A list parameter, left out when the column is null or empty. -/
def listParameter (name : String) : Option (List String) → List (String × String)
  | none => []
  | some [] => []
  | some (s :: ss) => [(name, joinComma (s :: ss))]

/-- The `params` of `trigger_discover`. -/
def DiscoverScan.parameters (scan : DiscoverScan) : List (String × String) :=
  [("discover_id", scan.id.toStr), ("scan_path", scan.scanPath)] ++
    listParameter "file_extensions" scan.fileExtensions ++
    listParameter "path_exclusions" scan.pathExclusions

def DiscoverScan.command (scan : DiscoverScan) : AgentCommand where
  commandType := "run_discover"
  parameters := scan.parameters

/-- A queued command with the agent that the scan was assigned to. -/
structure Triggered where
  assigned : Option Uuid
  command : AgentCommand
deriving DecidableEq, Repr

/-- The two services, with what has been triggered so far, what each agent has
been returned, and the number of commands triggered before its last accepted
heartbeat. -/
structure DiscoverState where
  agents : List Uuid
  scans : List DiscoverScan
  queue : CommandQueue Triggered
  triggered : List Triggered
  received : Uuid → List Triggered
  mark : Uuid → Nat

def DiscoverState.start : DiscoverState where
  agents := []
  scans := []
  queue := .empty
  triggered := []
  received := fun _ => []
  mark := fun _ => 0

inductive DiscoverAction
  | register (agentId : Uuid)
  | createDiscover (discoverId : Uuid) (body : DiscoverCreate)
  | updateDiscover (discoverId : Uuid) (body : DiscoverCreate)
  | triggerDiscover (discoverId : Uuid)
  | completeDiscover (discoverId : Uuid)
  | heartbeat (agentId : String)
deriving DecidableEq, Repr

def getDiscover (s : DiscoverState) (discoverId : Uuid) : Option DiscoverScan :=
  s.scans.find? fun scan => scan.id = discoverId

def saveDiscover (s : DiscoverState) (scan : DiscoverScan) : DiscoverState :=
  { s with scans := s.scans.map fun r => if r.id = scan.id then scan else r }

/-- The foreign key of `agent_id`. -/
def agentExists (s : DiscoverState) (agentId : Option Uuid) : Bool :=
  agentId.all fun a => s.agents.contains a

def triggerDiscover (s : DiscoverState) (discoverId : Uuid) : Except HttpError DiscoverState :=
  match getDiscover s discoverId with
  | none => .error ⟨404, "Discover scan not found"⟩
  | some scan =>
      if scan.status.value ∈ ["pending", "completed", "failed", "cancelled"] then
        let s := saveDiscover s { scan with status := .running }
        let triggered := ⟨scan.agentId, scan.command⟩
        .ok { s with
          queue := s.queue.enqueue (scan.agentId.map .uuid) triggered
          triggered := s.triggered ++ [triggered] }
      else
        .error ⟨400, "Cannot trigger scan in '" ++ scan.status.value ++ "' state"⟩

/-- The status codes that `Heartbeat` sets. -/
inductive GrpcError
  | invalidArgument
  | notFound
deriving DecidableEq, Repr

/-- `Heartbeat`, as far as commands go. `parseUuid` is `uuid.UUID`. -/
def heartbeat (parseUuid : String → Option Uuid) (s : DiscoverState) (agentId : String) :
    Except GrpcError DiscoverState :=
  match parseUuid agentId with
  | none => .error .invalidArgument
  | some id =>
      if s.agents.contains id then
        let drained := s.queue.drain (.str id.toStr)
        .ok { s with
          queue := drained.2
          received := Function.update s.received id (s.received id ++ drained.1)
          mark := Function.update s.mark id s.triggered.length }
      else .error .notFound

/-- One request. A request that is answered with an error changes nothing. -/
def discoverStep (parseUuid : String → Option Uuid) (s : DiscoverState) :
    DiscoverAction → Option DiscoverState
  | .register agentId => some { s with agents := agentId :: s.agents }
  | .createDiscover discoverId body =>
      if (getDiscover s discoverId).isNone && agentExists s body.agentId then
        some { s with
          scans := s.scans ++ [{ body with id := discoverId, status := .pending }] }
      else none
  | .updateDiscover discoverId body =>
      match getDiscover s discoverId with
      | some scan =>
          if agentExists s body.agentId then
            some (saveDiscover s { body with id := scan.id, status := scan.status })
          else none
      | none => none
  | .triggerDiscover discoverId => (triggerDiscover s discoverId).toOption
  | .completeDiscover discoverId =>
      (getDiscover s discoverId).map fun scan => saveDiscover s { scan with status := .completed }
  | .heartbeat agentId => (heartbeat parseUuid s agentId).toOption

def discover (parseUuid : String → Option Uuid) : TSys DiscoverState DiscoverAction where
  init := fun s => s = DiscoverState.start
  step := discoverStep parseUuid

/-- Of the commands for assigned scans, every agent has been returned exactly
those assigned to it that were queued before its last heartbeat, each once. -/
def CommandsDelivered (s : DiscoverState) : Prop :=
  ∀ agentId, (s.received agentId).filter (fun t => t.assigned.isSome) =
    (s.triggered.take (s.mark agentId)).filter fun t => t.assigned = some agentId

/-- Nothing that `Heartbeat` can reach belongs to an assigned scan. -/
structure Unreachable (s : DiscoverState) : Prop where
  queued : ∀ id : String, ∀ t ∈ s.queue.pending (.str id), t.assigned = none
  received : ∀ agentId, ∀ t ∈ s.received agentId, t.assigned = none

theorem unreachable_trigger {s s' : DiscoverState} {discoverId : Uuid} (hs : Unreachable s)
    (h : triggerDiscover s discoverId = .ok s') : Unreachable s' := by
  unfold triggerDiscover at h
  split at h
  · cases h
  · next scan _ =>
      split at h
      · cases h
        refine ⟨fun id t ht => ?_, hs.received⟩
        simp only [saveDiscover] at ht
        rw [CommandQueue.pending_enqueue] at ht
        cases hassigned : scan.agentId with
        | some agentId =>
            -- the scan's column is a UUID, and no string key equals one
            rw [hassigned, Option.map_some, CommandQueue.storeKey, AgentKey.truthy, if_pos rfl,
              if_neg (by simp)] at ht
            exact hs.queued id t ht
        | none =>
            rw [hassigned] at ht
            split at ht
            · rcases List.mem_append.mp ht with hold | hnew
              · exact hs.queued id t hold
              · rw [List.mem_singleton.mp hnew]
            · exact hs.queued id t ht
      · cases h

theorem unreachable_heartbeat {parseUuid : String → Option Uuid} {s s' : DiscoverState}
    {agentId : String} (hs : Unreachable s) (h : heartbeat parseUuid s agentId = .ok s') :
    Unreachable s' := by
  unfold heartbeat at h
  split at h
  · cases h
  · next id _ =>
      split at h
      · cases h
        refine ⟨fun id' t ht => ?_, fun id' t ht => ?_⟩
        · rw [CommandQueue.pending_drain] at ht
          split at ht
          · cases ht
          · exact hs.queued id' t ht
        · by_cases heq : id' = id
          · subst heq
            simp only [Function.update_self, List.mem_append] at ht
            rcases ht with hold | hnew
            · exact hs.received id' t hold
            · exact (CommandQueue.mem_drain_fst hnew).elim (hs.queued _ t) (hs.queued _ t)
          · simp only [Function.update_of_ne heq] at ht
            exact hs.received id' t ht
      · cases h

theorem unreachable_inductive (parseUuid : String → Option Uuid) :
    (discover parseUuid).InductiveBy (fun _ _ => True) Unreachable where
  init := by
    rintro s rfl
    exact ⟨fun _ _ ht => (List.not_mem_nil ht).elim, fun _ _ ht => (List.not_mem_nil ht).elim⟩
  step := by
    intro s a s' hs _ hstep
    have h : discoverStep parseUuid s a = some s' := hstep
    cases a with
    | register agentId =>
        rw [discoverStep, Option.some.injEq] at h
        exact h ▸ ⟨hs.queued, hs.received⟩
    | createDiscover discoverId body =>
        simp only [discoverStep, Option.ite_none_right_eq_some, Option.some.injEq] at h
        exact h.2 ▸ ⟨hs.queued, hs.received⟩
    | updateDiscover discoverId body =>
        simp only [discoverStep] at h
        split at h
        · simp only [Option.ite_none_right_eq_some, Option.some.injEq] at h
          exact h.2 ▸ ⟨hs.queued, hs.received⟩
        · cases h
    | triggerDiscover discoverId =>
        cases htrigger : triggerDiscover s discoverId with
        | error e => simp [discoverStep, htrigger, Except.toOption] at h
        | ok t =>
            simp only [discoverStep, htrigger, Except.toOption, Option.some.injEq] at h
            exact h ▸ unreachable_trigger hs htrigger
    | completeDiscover discoverId =>
        obtain ⟨scan, -, rfl⟩ := Option.map_eq_some_iff.mp h
        exact ⟨hs.queued, hs.received⟩
    | heartbeat agentId =>
        cases hbeat : heartbeat parseUuid s agentId with
        | error e => simp [discoverStep, hbeat, Except.toOption] at h
        | ok t =>
            simp only [discoverStep, hbeat, Except.toOption, Option.some.injEq] at h
            exact h ▸ unreachable_heartbeat hs hbeat

/-- In every run, the commands of assigned scans have been delivered if and only
if there was none to deliver: no agent has sent a heartbeat after a scan
assigned to it was triggered. -/
theorem commandsDelivered_iff {parseUuid : String → Option Uuid} {s : DiscoverState}
    (h : (discover parseUuid).Reachable s) :
    CommandsDelivered s ↔
      ∀ agentId, ∀ t ∈ s.triggered.take (s.mark agentId), t.assigned ≠ some agentId := by
  have hs := (unreachable_inductive parseUuid).invariant s h
  refine forall_congr' fun agentId => ?_
  have hnothing : (s.received agentId).filter (fun t => t.assigned.isSome) = [] :=
    List.filter_eq_nil_iff.mpr fun t ht => by simp [hs.received agentId t ht]
  rw [hnothing, eq_comm, List.filter_eq_nil_iff]
  simp

/-- `uuid.UUID` on the two ids that the runs below send. -/
def parseTwo (text : String) : Option Uuid :=
  if text = "00000000-0000-0000-0000-000000000001" then some 1
  else if text = "00000000-0000-0000-0000-000000000002" then some 2
  else none

/-- A scan of one directory, assigned to agent 1. -/
def scanOfOne : DiscoverCreate where
  agentId := some 1
  scanPath := "/srv/share"

/-- The heartbeat of another agent takes nothing, and before its own the agent has missed
nothing. -/
theorem commandsDelivered_iff_triggered :
    ∃ s, (discover parseTwo).run DiscoverState.start
        [.register 1, .register 2, .createDiscover 9 scanOfOne, .triggerDiscover 9,
          .heartbeat "00000000-0000-0000-0000-000000000002"] = some s ∧
      s.mark 2 = 1 ∧ CommandsDelivered s := by
  have h : (discover parseTwo).Reachable DiscoverState.start := .init rfl
  have h := h.step (a := DiscoverAction.register 1) trivial rfl
  have h := h.step (a := DiscoverAction.register 2) trivial rfl
  have h := h.step (a := DiscoverAction.createDiscover 9 scanOfOne) trivial rfl
  have h := h.step (a := DiscoverAction.triggerDiscover 9) trivial rfl
  have h := h.step
    (a := DiscoverAction.heartbeat "00000000-0000-0000-0000-000000000002") trivial rfl
  refine ⟨_, rfl, rfl, (commandsDelivered_iff h).mpr fun agentId t ht => ?_⟩
  intro hassigned
  have hone : t.assigned = some 1 := by
    rw [List.mem_singleton.mp (List.mem_of_mem_take ht)]
    rfl
  -- the scan is that of agent 1, which has sent nothing
  obtain rfl : agentId = 1 := Option.some.inj (hassigned.symm.trans hone)
  exact (List.not_mem_nil ht).elim

/-- A scan assigned to agent 1 is triggered and agent 1 sends its heartbeat: the
command stays under the UUID key. -/
theorem command_of_assigned_scan_lost :
    ¬ ∀ parseUuid s, (discover parseUuid).Reachable s → CommandsDelivered s := by
  intro h
  have hrun : ∃ s, (discover parseTwo).run DiscoverState.start
        [.register 1, .createDiscover 9 scanOfOne, .triggerDiscover 9,
          .heartbeat "00000000-0000-0000-0000-000000000001"] = some s ∧
      s.received 1 = [] ∧
      ((s.triggered.take (s.mark 1)).filter fun t => t.assigned = some 1).length = 1 :=
    ⟨_, rfl, rfl, rfl⟩
  obtain ⟨s, hs, hnothing, hone⟩ := hrun
  have hdelivered := h parseTwo s (TSys.reachable_run (.init rfl) _ hs) 1
  rw [hnothing] at hdelivered
  rw [← hdelivered] at hone
  cases hone

end AkesoDlp.Server.Discover
