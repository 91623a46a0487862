import AkesoDlp.Server.PolicyTable
import Mathlib.Logic.Function.Basic

/-!
# The `PolicyUpdates` stream

One agent, one server process without the Redis bridge. The agent holds the
active policies as of some version, opens a stream, and replays what it
receives. Everything that can happen between two await points is an action:
the commits and publications of REST requests, the agent taking its policies,
and each SELECT and each `yield` of the stream. `PolicyEventBus._lock` is never
held across a suspension, so `subscribe` and `publish` are single actions.
-/

namespace AkesoDlp.Server.PolicyStream

open Lib

/-- An event on the bus. -/
structure Event where
  updateType : PolicyUpdateType
  policyId : Nat
  newVersion : Nat
deriving DecidableEq, Repr

/-- `PolicyUpdateType` of the protocol. -/
inductive ProtoUpdateType
  | policyAdd
  | policyModify
  | policyRemove
  | policyFullSync
deriving DecidableEq, Repr

/-- A `PolicyUpdate` message. -/
structure PolicyUpdate where
  updateType : ProtoUpdateType
  newVersion : Nat
  policyId : Nat
  policy : Option PolicyDefinition

/-- What the agent does with a message: a definition is inserted or replaced,
and dropped where its status is not active; REMOVE deletes. -/
def PolicyUpdate.replay (set : PolicySet) (u : PolicyUpdate) : PolicySet :=
  match u.updateType with
  | .policyRemove => Function.update set u.policyId none
  | _ =>
      match u.policy with
      | some d => Function.update set d.policyId (if d.status = .active then some d else none)
      | none => set

/-- Where the agent and the `PolicyUpdates` generator stand. -/
inductive Phase
  /-- The agent holds no policies yet. -/
  | offline
  /-- It holds those of version `c` and is disconnected. -/
  | holding (c : Nat)
  /-- `await bus.subscribe()` has returned. -/
  | subscribed (c : Nat)
  /-- Behind: the first SELECT of `get_active_policies` is on its way. -/
  | selecting (currentVer : Nat)
  /-- It saw the table `head` and returned the policies `order`; `seen` are the
  related tables read since. -/
  | syncing (currentVer : Nat) (head : List Policy) (order : List Nat)
      (seen : Relation → Option (List Policy))
  /-- The `POLICY_FULL_SYNC` messages still to be yielded. -/
  | sending (currentVer : Nat) (policies : List PolicyDefinition)
  /-- In `queue.get()`. -/
  | waiting
  /-- The first SELECT of `get_policy` for an event is on its way. -/
  | fetching (event : Event)
  /-- It saw the table `head` and returned `row`. -/
  | loading (event : Event) (head : List Policy) (row : Policy)
      (seen : Relation → Option (List Policy))

/-- The server, the subscriber queue of the stream, and the agent. -/
structure StreamState where
  rows : List Policy
  /-- Every uuid ever given to a policy. -/
  created : List Nat
  version : Nat
  /-- Committed requests that have not published yet. -/
  unpublished : List Change
  queue : List Event
  phase : Phase
  /-- The agent's policies when it opened the stream. -/
  held : PolicySet
  received : List PolicyUpdate

/-- The agent's set after replaying what it has received. -/
def agentSet (s : StreamState) : PolicySet :=
  s.received.foldl PolicyUpdate.replay s.held

/-- The stream has subscribed to the bus. -/
def Phase.connected : Phase → Bool
  | .offline => false
  | .holding _ => false
  | _ => true

/-- The definition that the loaded row and related tables give; `none` while a
SELECT is missing. -/
def assemble (p : Policy) (seen : Relation → Option (List Policy)) : Option PolicyDefinition :=
  if Relation.all.all fun rel => (seen rel).isSome then
    some (buildPolicyDefinition p fun rel => (seen rel).getD [])
  else none

def syncMessage (currentVer : Nat) (d : PolicyDefinition) : PolicyUpdate where
  updateType := .policyFullSync
  newVersion := currentVer
  policyId := d.policyId
  policy := some d

end AkesoDlp.Server.PolicyStream
