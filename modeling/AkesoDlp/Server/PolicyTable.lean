import AkesoDlp.Server.PolicyEvents
import AkesoDlp.Lib.Keyed
import Mathlib.Data.List.Perm.Basic
import Mathlib.Data.List.Nodup
import Mathlib.Data.Bool.Basic

/-!
# The policy table and the requests that change it

The rows of the `policies` table together with their rules and exceptions,
the REST requests of `api/policies.py` as they commit, and the definitions
that `_build_policy_definition` makes of a row. A definition is loaded by
several SELECTs, one for the row and one per related table, so it is assembled
from the tables that those SELECTs saw.
-/

namespace AkesoDlp.Server.PolicyStream

open Lib

/-- The related tables that `selectinload` reads after the policy row. -/
inductive Relation
  | detectionRules
  | ruleConditions
  | exceptions
  | exceptionConditions
deriving DecidableEq, Repr

def Relation.all : List Relation :=
  [.detectionRules, .ruleConditions, .exceptions, .exceptionConditions]

/-- A row of `policies`. `columns` stands for the name, description, severity,
thresholds and TTD fallback; `related` for the rows of the related tables. -/
structure Policy where
  id : Nat
  status : PolicyStatus
  isTemplate : Bool
  responseRuleId : Option Nat
  columns : Nat
  related : Relation → Nat

/-- A `PolicyDefinition` message. -/
@[ext] structure PolicyDefinition where
  policyId : Nat
  status : PolicyStatus
  responseRule : Option Nat
  columns : Nat
  related : Relation → Nat

/-- The row with an id. -/
def lookup (rows : List Policy) (id : Nat) : Option Policy :=
  rows.find? fun r => r.id == id

/-- What the SELECT on a related table returns for a policy: nothing (`0`) when
the policy is gone. -/
def relatedOf (rows : List Policy) (id : Nat) (rel : Relation) : Nat :=
  match lookup rows id with
  | some r => r.related rel
  | none => 0

/-- `_build_policy_definition` on a row and the related rows that the later
SELECTs saw. -/
def buildPolicyDefinition (p : Policy) (tables : Relation → List Policy) : PolicyDefinition where
  policyId := p.id
  status := p.status
  responseRule := p.responseRuleId
  columns := p.columns
  related := fun rel => relatedOf (tables rel) p.id rel

/-- The WHERE clause of `get_active_policies`. -/
def Policy.isActive (p : Policy) : Bool := p.status == .active && !p.isTemplate

/-- A set of policies: one definition per policy id. -/
abbrev PolicySet := Nat → Option PolicyDefinition

/-- The server's set of active policies. -/
def serverSet (rows : List Policy) : PolicySet := fun id =>
  ((lookup rows id).filter Policy.isActive).map fun p => buildPolicyDefinition p fun _ => rows

/-- A request of `api/policies.py` that has passed its checks. -/
inductive Change
  /-- `create_policy` and `create_from_template`. -/
  | create (p : Policy)
  /-- The requests that publish `POLICY_MODIFY` for `policyId`. `row` is the row
  they leave behind, if they write one. `remove_rule` and `remove_exception`
  look their row up by its own id only, so `row` may be another policy's. -/
  | modify (policyId : Nat) (row : Option Policy)
  /-- `delete_policy`. -/
  | delete (policyId : Nat)

/-- The type and policy id that the request hands to `publish_policy_event`. -/
def Change.announcement : Change → PolicyUpdateType × Nat
  | .create p => (.policyAdd, p.id)
  | .modify policyId _ => (.policyModify, policyId)
  | .delete policyId => (.policyRemove, policyId)

/-- The table after the request's commit. -/
def Change.apply (rows : List Policy) : Change → List Policy
  | .create p => rows ++ [p]
  | .modify _ none => rows
  | .modify _ (some p) => rows.map fun r => if r.id == p.id then p else r
  | .delete policyId => rows.filter fun r => !(r.id == policyId)

/-- The policy that a path `/api/policies/{policy_id}/…` names: once created,
never a template (`get_policy` filters them), possibly deleted since. -/
def namesPolicy (rows : List Policy) (created : List Nat) (policyId : Nat) : Bool :=
  created.contains policyId && (lookup rows policyId).all fun r => !r.isTemplate

/-- Which commits the database can see. New policies are drafts with a fresh
uuid. A request keeps `is_template`, and the ones that reach another policy's
row through its rules keep everything but the related rows. -/
def Change.allowed (rows : List Policy) (created : List Nat) : Change → Bool
  | .create p => !created.contains p.id && !p.isTemplate && p.status == .draft
  | .modify policyId none => namesPolicy rows created policyId
  | .modify policyId (some p) =>
      namesPolicy rows created policyId &&
        match lookup rows p.id with
        | none => false
        | some r =>
            r.isTemplate == p.isTemplate &&
              (p.id == policyId ||
                (r.status == p.status && r.responseRuleId == p.responseRuleId &&
                  r.columns == p.columns))
  | .delete policyId => (lookup rows policyId).any fun r => !r.isTemplate

/-- The request announces one policy and changes another one that agents hold. -/
def Change.astray : Change → Bool
  | .modify policyId (some p) => !(p.id == policyId) && p.isActive
  | _ => false

/-! ## Lookups -/

theorem lookup_id {rows : List Policy} {id : Nat} {p : Policy} (h : lookup rows id = some p) :
    p.id = id := by
  have := List.find?_some h
  simpa using this

theorem lookup_mem {rows : List Policy} {id : Nat} {p : Policy} (h : lookup rows id = some p) :
    p ∈ rows :=
  List.mem_of_find?_eq_some h

theorem lookup_of_mem {rows : List Policy} (hnd : (rows.map (·.id)).Nodup) {p : Policy}
    (h : p ∈ rows) : lookup rows p.id = some p :=
  find?_key_of_mem hnd h

theorem lookup_create (rows : List Policy) (p : Policy) {id : Nat} (hne : id ≠ p.id) :
    lookup (rows ++ [p]) id = lookup rows id := by
  have : lookup [p] id = none := by simp [lookup, hne.symm]
  rw [lookup, List.find?_append]
  show (lookup rows id).or (lookup [p] id) = _
  rw [this, Option.or_none]

theorem lookup_create_self (rows : List Policy) (p : Policy) (h : lookup rows p.id = none) :
    lookup (rows ++ [p]) p.id = some p := by
  rw [lookup, List.find?_append]
  show (lookup rows p.id).or (lookup [p] p.id) = _
  rw [h]
  simp [lookup]

theorem lookup_modify (rows : List Policy) (p : Policy) (id : Nat) :
    lookup (rows.map fun r => if r.id == p.id then p else r) id =
      if id = p.id then (lookup rows id).map fun _ => p else lookup rows id := by
  induction rows with
  | nil => simp [lookup]
  | cons r rows ih =>
      rw [List.map_cons]
      unfold lookup at ih ⊢
      rw [List.find?_cons, List.find?_cons, ih]
      by_cases hr : r.id = p.id <;> by_cases hid : id = p.id <;> grind

theorem lookup_delete (rows : List Policy) (policyId id : Nat) :
    lookup (rows.filter fun r => !(r.id == policyId)) id =
      if id = policyId then none else lookup rows id := by
  unfold lookup
  rw [List.find?_filter]
  split
  · next heq =>
      subst heq
      apply List.find?_eq_none.mpr
      intro r _
      simp
  · next hne =>
      congr 1
      funext r
      by_cases hr : r.id = id
      · subst hr; simp [hne]
      · simp [hr]

end AkesoDlp.Server.PolicyStream
