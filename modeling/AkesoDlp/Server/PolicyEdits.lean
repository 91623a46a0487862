import AkesoDlp.Server.Discover
import AkesoDlp.Server.PolicyEvents
import Mathlib.Data.List.Nodup

/-!
# Rules and exceptions of a policy

The endpoints of `api/policies.py` that change rules or exceptions, with the
services behind them: what each commits, the audit entry it commits with it and
the event it publishes afterwards on the in-process bus. A policy is found by
the id of the URL and is never a template; a rule or an exception that is to be
removed is found by its own id alone.
-/

namespace AkesoDlp.Server.PolicyEdits

open Discover (HttpError)

/-- A row of `policies`, as far as these endpoints read it. -/
structure PolicyRow where
  id : Uuid
  name : String
  isTemplate : Bool
  templateName : Option String
deriving DecidableEq, Repr

/-- `DetectionRuleCreate`; `κ` is what a condition says. -/
structure DetectionRule (κ : Type*) where
  name : String
  description : Option String
  ruleType : String
  conditions : List κ

/-- `PolicyExceptionCreate`. -/
structure PolicyException (κ : Type*) where
  name : String
  description : Option String
  scope : String
  exceptionType : String
  conditions : List κ

/-- A row of `detection_rules` or `policy_exceptions` with its conditions. -/
structure Owned (β : Type*) where
  id : Uuid
  policyId : Uuid
  body : β

/-- The tables; `id` is the primary key of `policies`. -/
structure PolicyStore (κ : Type*) where
  policies : List PolicyRow
  rules : List (Owned (DetectionRule κ))
  exceptions : List (Owned (PolicyException κ))
  nodup : (policies.map fun p => p.id).Nodup

/-- A row of `audit_log`. -/
structure AuditEntry where
  actorId : Uuid
  action : String
  resourceType : String
  resourceId : String
  detail : String
  changes : Option (List (String × String))
  ipAddress : Option String
deriving DecidableEq, Repr

/-- The event that `publish_policy_event` puts on the bus. -/
structure PolicyEvent where
  updateType : PolicyUpdateType
  policyId : String
deriving DecidableEq, Repr

/-- What a request leaves behind: the committed tables, the audit entries in the
same transaction and the events published after it. -/
structure Outcome (κ : Type*) where
  store : PolicyStore κ
  audit : List AuditEntry
  events : List PolicyEvent

/-- The user and the address that a request comes from. -/
structure Caller where
  userId : Uuid
  ip : Option String
deriving DecidableEq, Repr

/-- What `POST /api/policies` adds, with the ids that the new rows get. -/
structure PolicyCreate (κ : Type*) where
  id : Uuid
  name : String
  rules : List (Uuid × DetectionRule κ)
  exceptions : List (Uuid × PolicyException κ)

inductive Request (κ : Type*)
  | create (data : PolicyCreate κ)
  | createFromTemplate (id : Uuid) (templateName name : String) (newIds : Nat → Uuid)
  | delete (policyId : Uuid)
  | addRule (policyId newId : Uuid) (body : DetectionRule κ)
  | removeRule (policyId ruleId : Uuid)
  | addException (policyId newId : Uuid) (body : PolicyException κ)
  | removeException (policyId exceptionId : Uuid)

variable {κ β : Type*}

/-! ## The services -/

/-- `get_policy`. -/
def getPolicy (s : PolicyStore κ) (policyId : Uuid) : Option PolicyRow :=
  s.policies.find? fun p => p.id = policyId && !p.isTemplate

/-- `get_template`. Two templates of one name make the query raise. -/
def getTemplate (s : PolicyStore κ) (templateName : String) : Except HttpError PolicyRow :=
  match s.policies.filter fun p => p.isTemplate && p.templateName = some templateName with
  | [] => .error ⟨404, "Template '" ++ templateName ++ "' not found"⟩
  | [template] => .ok template
  | _ => .error ⟨500, "Internal Server Error"⟩

/-- The rows of one policy. -/
def ownedBy (rows : List (Owned β)) (policyId : Uuid) : List (Owned β) :=
  rows.filter fun row => row.policyId = policyId

def insertOwned (policyId : Uuid) (rows : List (Uuid × β)) : List (Owned β) :=
  rows.map fun (id, body) => ⟨id, policyId, body⟩

/-- `create_policy`. An id that is taken violates the primary key. -/
def createPolicy (s : PolicyStore κ) (data : PolicyCreate κ) :
    Except HttpError (PolicyStore κ) :=
  if h : data.id ∈ s.policies.map fun p => p.id then .error ⟨500, "Internal Server Error"⟩
  else .ok {
    policies := ⟨data.id, data.name, false, none⟩ :: s.policies
    rules := s.rules ++ insertOwned data.id data.rules
    exceptions := s.exceptions ++ insertOwned data.id data.exceptions
    nodup := List.nodup_cons.mpr ⟨h, s.nodup⟩ }

/-- `delete_policy`, with the rules and exceptions that the relationships cascade to. -/
def deletePolicy (s : PolicyStore κ) (policy : PolicyRow) : PolicyStore κ where
  policies := s.policies.filter fun p => p.id ≠ policy.id
  rules := s.rules.filter fun row => row.policyId ≠ policy.id
  exceptions := s.exceptions.filter fun row => row.policyId ≠ policy.id
  nodup := s.nodup.sublist (List.filter_sublist.map _)

/-- The bodies that `create_from_template` copies, under new ids. -/
def copies (newIds : Nat → Uuid) (rows : List (Owned β)) : List (Uuid × β) :=
  rows.zipIdx.map fun (row, i) => (newIds i, row.body)

/-- `create_from_template`: the rules take the first of the new ids, the
exceptions those after them. -/
def createFromTemplate (s : PolicyStore κ) (template : PolicyRow) (id : Uuid) (name : String)
    (newIds : Nat → Uuid) : Except HttpError (PolicyStore κ) :=
  let rules := ownedBy s.rules template.id
  createPolicy s {
    id := id
    name := name
    rules := copies newIds rules
    exceptions := copies (fun i => newIds (rules.length + i)) (ownedBy s.exceptions template.id) }

def addRule (s : PolicyStore κ) (policy : PolicyRow) (newId : Uuid) (body : DetectionRule κ) :
    PolicyStore κ :=
  { s with rules := s.rules ++ insertOwned policy.id [(newId, body)] }

def addException (s : PolicyStore κ) (policy : PolicyRow) (newId : Uuid)
    (body : PolicyException κ) : PolicyStore κ :=
  { s with exceptions := s.exceptions ++ insertOwned policy.id [(newId, body)] }

/-- The rows without the one of an id, `none` where there is none. -/
def removeOwned (rows : List (Owned β)) (id : Uuid) : Option (List (Owned β)) :=
  if rows.any fun row => row.id = id then some (rows.filter fun row => row.id ≠ id) else none

def removeRule (s : PolicyStore κ) (ruleId : Uuid) : Option (PolicyStore κ) :=
  (removeOwned s.rules ruleId).map fun rules => { s with rules := rules }

def removeException (s : PolicyStore κ) (exceptionId : Uuid) : Option (PolicyStore κ) :=
  (removeOwned s.exceptions exceptionId).map fun exceptions => { s with exceptions := exceptions }

/-! ## The endpoints -/

/-- `_audit`. -/
def auditEntry (caller : Caller) (action resourceId detail : String)
    (changes : Option (List (String × String))) : AuditEntry where
  actorId := caller.userId
  action := action
  resourceType := "policy"
  resourceId := resourceId
  detail := detail
  changes := changes
  ipAddress := caller.ip

/-- `_policy_or_404` around an endpoint. -/
def withPolicy (s : PolicyStore κ) (policyId : Uuid)
    (endpoint : PolicyRow → Except HttpError (Outcome κ)) : Except HttpError (Outcome κ) :=
  match getPolicy s policyId with
  | none => .error ⟨404, "Policy not found"⟩
  | some policy => endpoint policy

/-- A removal through the URL of a policy: the audit entry and the event have
the id of the URL. -/
def removalEndpoint (caller : Caller) (policyId : Uuid) (removed : Option (PolicyStore κ))
    (notFound action detail : String) (changes : List (String × String)) :
    Except HttpError (Outcome κ) :=
  match removed with
  | none => .error ⟨404, notFound⟩
  | some s => .ok {
      store := s
      audit := [auditEntry caller action policyId.toStr detail (some changes)]
      events := [⟨.policyModify, policyId.toStr⟩] }

/-- One request. -/
def handle (caller : Caller) (s : PolicyStore κ) : Request κ → Except HttpError (Outcome κ)
  | .create data =>
      (createPolicy s data).map fun s' => {
        store := s'
        audit := [auditEntry caller "policy.create" data.id.toStr
          ("Created policy '" ++ data.name ++ "'") (some [("name", data.name)])]
        events := [⟨.policyAdd, data.id.toStr⟩] }
  | .createFromTemplate id templateName name newIds =>
      (getTemplate s templateName).bind fun template =>
        (createFromTemplate s template id name newIds).map fun s' => {
          store := s'
          audit := [auditEntry caller "policy.create_from_template" id.toStr
            ("Created from template '" ++ templateName ++ "'")
            (some [("template_name", templateName), ("name", name)])]
          events := [⟨.policyAdd, id.toStr⟩] }
  | .delete policyId =>
      withPolicy s policyId fun policy => .ok {
        store := deletePolicy s policy
        audit := [auditEntry caller "policy.delete" policyId.toStr
          ("Deleted policy '" ++ policy.name ++ "'") none]
        events := [⟨.policyRemove, policyId.toStr⟩] }
  | .addRule policyId newId body =>
      withPolicy s policyId fun policy => .ok {
        store := addRule s policy newId body
        audit := [auditEntry caller "policy.add_rule" policyId.toStr
          ("Added rule '" ++ body.name ++ "' to policy '" ++ policy.name ++ "'")
          (some [("rule_name", body.name)])]
        events := [⟨.policyModify, policyId.toStr⟩] }
  | .removeRule policyId ruleId =>
      withPolicy s policyId fun policy =>
        removalEndpoint caller policyId (removeRule s ruleId) "Rule not found"
          "policy.remove_rule"
          ("Removed rule " ++ ruleId.toStr ++ " from policy '" ++ policy.name ++ "'")
          [("rule_id", ruleId.toStr)]
  | .addException policyId newId body =>
      withPolicy s policyId fun policy => .ok {
        store := addException s policy newId body
        audit := [auditEntry caller "policy.add_exception" policyId.toStr
          ("Added exception '" ++ body.name ++ "' to policy '" ++ policy.name ++ "'")
          (some [("exception_name", body.name)])]
        events := [⟨.policyModify, policyId.toStr⟩] }
  | .removeException policyId exceptionId =>
      withPolicy s policyId fun policy =>
        removalEndpoint caller policyId (removeException s exceptionId) "Exception not found"
          "policy.remove_exception"
          ("Removed exception " ++ exceptionId.toStr ++ " from policy '" ++ policy.name ++ "'")
          [("exception_id", exceptionId.toStr)]

/-! ## The law -/

/-- The policy that the URL of a request names, or that it creates. -/
def Request.target : Request κ → Uuid
  | .create data => data.id
  | .createFromTemplate id _ _ _ => id
  | .delete policyId => policyId
  | .addRule policyId _ _ => policyId
  | .removeRule policyId _ => policyId
  | .addException policyId _ _ => policyId
  | .removeException policyId _ => policyId

/-- The request removes a rule or an exception. -/
def Request.removes : Request κ → Bool
  | .removeRule _ _ => true
  | .removeException _ _ => true
  | _ => false

/-- A policy has the same rules and exceptions in both stores. -/
def SameRows (s s' : PolicyStore κ) (policyId : Uuid) : Prop :=
  ownedBy s'.rules policyId = ownedBy s.rules policyId ∧
    ownedBy s'.exceptions policyId = ownedBy s.exceptions policyId

/-- A removal through the URL of a policy leaves the other policies and the
templates as they are, and whatever policy a request changes is named by an
audit entry and by an event. -/
structure EditKept (s : PolicyStore κ) (r : Request κ) (o : Outcome κ) : Prop where
  frame : r.removes = true → ∀ other ∈ s.policies, other.id ≠ r.target ∨ other.isTemplate = true →
    SameRows s o.store other.id
  announced : ∀ policyId, ¬ SameRows s o.store policyId →
    (∃ a ∈ o.audit, a.resourceId = policyId.toStr) ∧ ∃ e ∈ o.events, e.policyId = policyId.toStr

/-- What is removed through the URL of an existing policy belongs to it. -/
def StaysInPolicy (s : PolicyStore κ) : Request κ → Prop
  | .removeRule policyId ruleId => (getPolicy s policyId).isSome →
      ∀ row ∈ s.rules, row.id = ruleId → row.policyId = policyId
  | .removeException policyId exceptionId => (getPolicy s policyId).isSome →
      ∀ row ∈ s.exceptions, row.id = exceptionId → row.policyId = policyId
  | _ => True

/-! ## Which rows a request touches -/

variable {caller : Caller} {s s' : PolicyStore κ} {r : Request κ} {o : Outcome κ}

theorem ownedBy_append (rows added : List (Owned β)) (policyId : Uuid) :
    ownedBy (rows ++ added) policyId = ownedBy rows policyId ++ ownedBy added policyId :=
  List.filter_append ..

/-- Rows inserted for one policy are not seen by another. -/
theorem ownedBy_append_insertOwned {policyId other : Uuid} (h : other ≠ policyId)
    (rows : List (Owned β)) (added : List (Uuid × β)) :
    ownedBy (rows ++ insertOwned policyId added) other = ownedBy rows other := by
  have hnone : ownedBy (insertOwned policyId added) other = [] := by
    apply List.filter_eq_nil_iff.mpr
    intro row hrow
    obtain ⟨x, -, rfl⟩ := List.mem_map.mp hrow
    simpa using Ne.symm h
  rw [ownedBy_append, hnone, List.append_nil]

/-- Deleting the rows of one policy leaves those of another. -/
theorem ownedBy_filter_policyId {policyId other : Uuid} (h : other ≠ policyId)
    (rows : List (Owned β)) :
    ownedBy (rows.filter fun row => row.policyId ≠ policyId) other = ownedBy rows other := by
  rw [ownedBy, List.filter_filter]
  apply List.filter_congr
  intro row _
  by_cases hrow : row.policyId = other
  · simp [hrow, h]
  · simp [hrow]

/-- Removing by id changes no other policy exactly when the rows of that id
belong to this one. -/
theorem ownedBy_filter_id_iff (rows : List (Owned β)) (id policyId : Uuid) :
    (∀ other, other ≠ policyId →
        ownedBy (rows.filter fun row => row.id ≠ id) other = ownedBy rows other) ↔
      ∀ row ∈ rows, row.id = id → row.policyId = policyId := by
  constructor
  · intro h row hrow hid
    by_contra hne
    have hin : row ∈ ownedBy rows row.policyId := List.mem_filter.mpr ⟨hrow, by simp⟩
    rw [← h row.policyId hne] at hin
    have hkept := (List.mem_filter.mp (List.mem_filter.mp hin).1).2
    simp [hid] at hkept
  · intro h other hne
    rw [ownedBy, List.filter_filter]
    apply List.filter_congr
    intro row hrow
    by_cases hother : row.policyId = other
    · have hid : row.id ≠ id := fun heq => hne (hother.symm.trans (h row hrow heq))
      simp [hother, hid]
    · simp [hother]

theorem sameRows_createPolicy {data : PolicyCreate κ} (h : createPolicy s data = .ok s')
    {other : Uuid} (hne : other ≠ data.id) : SameRows s s' other := by
  unfold createPolicy at h
  split at h
  · cases h
  · cases h
    exact ⟨ownedBy_append_insertOwned hne _ _, ownedBy_append_insertOwned hne _ _⟩

theorem getPolicy_some {policyId : Uuid} {policy : PolicyRow}
    (h : getPolicy s policyId = some policy) :
    policy ∈ s.policies ∧ policy.id = policyId ∧ policy.isTemplate = false := by
  have htest := List.find?_some h
  simp only [Bool.and_eq_true, decide_eq_true_eq, Bool.not_eq_true'] at htest
  exact ⟨List.mem_of_find?_eq_some h, htest⟩

theorem withPolicy_ok {policyId : Uuid} {endpoint : PolicyRow → Except HttpError (Outcome κ)}
    (h : withPolicy s policyId endpoint = .ok o) :
    ∃ policy, getPolicy s policyId = some policy ∧ endpoint policy = .ok o := by
  unfold withPolicy at h
  split at h
  · cases h
  · next policy hfound => exact ⟨policy, hfound, h⟩

/-- A request that removes nothing announces the only policy it changes. -/
theorem editKept_of_sameRows (hremoves : r.removes = false)
    (hrows : ∀ other, other ≠ r.target → SameRows s o.store other)
    (haudit : ∃ a ∈ o.audit, a.resourceId = r.target.toStr)
    (hevents : ∃ e ∈ o.events, e.policyId = r.target.toStr) : EditKept s r o := by
  constructor
  case frame =>
    intro h
    rw [hremoves] at h
    cases h
  case announced =>
    intro policyId hchanged
    have heq : policyId = r.target := by
      by_contra hne
      exact hchanged (hrows policyId hne)
    rw [heq]
    exact ⟨haudit, hevents⟩

/-- A removal is as it should be exactly when it changes no policy but that of
the URL. -/
theorem editKept_removal_iff {policy : PolicyRow}
    (hfound : getPolicy s r.target = some policy) {entry : AuditEntry} {event : PolicyEvent}
    (hentry : entry.resourceId = r.target.toStr) (hevent : event.policyId = r.target.toStr) :
    EditKept s r ⟨s', [entry], [event]⟩ ↔ ∀ other, other ≠ r.target → SameRows s s' other := by
  obtain ⟨hmem, hid, htemplate⟩ := getPolicy_some hfound
  constructor
  · intro h other hne
    by_contra hchanged
    obtain ⟨-, e, he, heid⟩ := h.announced other hchanged
    rw [List.mem_singleton.mp he, hevent] at heid
    exact hne (Uuid.toStr_injective heid).symm
  · intro h
    constructor
    case frame =>
      intro _ other hother hcase
      apply h
      rcases hcase with hne | hisTemplate
      · exact hne
      · intro heq
        have hsame : other = policy :=
          List.inj_on_of_nodup_map s.nodup hother hmem (heq.trans hid.symm)
        rw [hsame, htemplate] at hisTemplate
        cases hisTemplate
    case announced =>
      intro policyId hchanged
      have heq : policyId = r.target := by
        by_contra hne
        exact hchanged (h policyId hne)
      rw [heq]
      exact ⟨⟨entry, List.mem_singleton_self _, hentry⟩, event, List.mem_singleton_self _, hevent⟩

theorem removal_kept_iff {removed : Option (PolicyStore κ)} {notFound action : String}
    {detail : PolicyRow → String} {changes : List (String × String)} :
    (∀ o, withPolicy s r.target (fun policy => removalEndpoint caller r.target removed notFound
        action (detail policy) changes) = .ok o → EditKept s r o) ↔
      ((getPolicy s r.target).isSome →
        ∀ s', removed = some s' → ∀ other, other ≠ r.target → SameRows s s' other) := by
  cases hfound : getPolicy s r.target with
  | none => simp [withPolicy, hfound]
  | some policy =>
      cases removed with
      | none => simp [withPolicy, hfound, removalEndpoint]
      | some s' =>
          simp only [withPolicy, hfound, removalEndpoint, Except.ok.injEq, forall_eq',
            Option.isSome_some, true_imp_iff, Option.some.injEq]
          exact editKept_removal_iff hfound rfl rfl

theorem removeOwned_iff (rows : List (Owned β)) (id policyId : Uuid) :
    (∀ rows', removeOwned rows id = some rows' →
        ∀ other, other ≠ policyId → ownedBy rows' other = ownedBy rows other) ↔
      ∀ row ∈ rows, row.id = id → row.policyId = policyId := by
  rw [← ownedBy_filter_id_iff]
  by_cases hany : (rows.any fun row => row.id = id) = true
  · simp [removeOwned, hany]
  · have hnone : ∀ row ∈ rows, row.id ≠ id := by simpa using hany
    have hsame : (rows.filter fun row => row.id ≠ id) = rows :=
      List.filter_eq_self.mpr fun row hrow => by simpa using hnone row hrow
    rw [hsame]
    simp [removeOwned, hany]

theorem removeRule_sameRows_iff (ruleId policyId : Uuid) :
    (∀ s', removeRule s ruleId = some s' → ∀ other, other ≠ policyId → SameRows s s' other) ↔
      ∀ row ∈ s.rules, row.id = ruleId → row.policyId = policyId := by
  rw [← removeOwned_iff]
  simp [removeRule, SameRows]

theorem removeException_sameRows_iff (exceptionId policyId : Uuid) :
    (∀ s', removeException s exceptionId = some s' →
        ∀ other, other ≠ policyId → SameRows s s' other) ↔
      ∀ row ∈ s.exceptions, row.id = exceptionId → row.policyId = policyId := by
  rw [← removeOwned_iff]
  simp [removeException, SameRows]

/-- The endpoints that remove nothing change the policy of the URL only and
announce it. -/
theorem editKept_of_not_removes (hremoves : r.removes = false) (h : handle caller s r = .ok o) :
    EditKept s r o := by
  cases r with
  | create data =>
      cases hs' : createPolicy s data with
      | error e => simp [handle, hs', Except.map] at h
      | ok s' =>
          simp only [handle, hs', Except.map, Except.ok.injEq] at h
          subst h
          exact editKept_of_sameRows rfl (fun other hne => sameRows_createPolicy hs' hne)
            ⟨_, List.mem_singleton_self _, rfl⟩ ⟨_, List.mem_singleton_self _, rfl⟩
  | createFromTemplate id templateName name newIds =>
      cases htemplate : getTemplate s templateName with
      | error e => simp [handle, htemplate, Except.bind] at h
      | ok template =>
          cases hs' : createFromTemplate s template id name newIds with
          | error e => simp [handle, htemplate, hs', Except.bind, Except.map] at h
          | ok s' =>
              simp only [handle, htemplate, hs', Except.bind, Except.map, Except.ok.injEq] at h
              subst h
              exact editKept_of_sameRows rfl (fun other hne => sameRows_createPolicy hs' hne)
                ⟨_, List.mem_singleton_self _, rfl⟩ ⟨_, List.mem_singleton_self _, rfl⟩
  | delete policyId =>
      obtain ⟨policy, hfound, h⟩ := withPolicy_ok h
      have hid := (getPolicy_some hfound).2.1
      cases h
      refine editKept_of_sameRows rfl (fun other hne => ?_)
        ⟨_, List.mem_singleton_self _, rfl⟩ ⟨_, List.mem_singleton_self _, rfl⟩
      have hne : other ≠ policy.id := hid ▸ hne
      exact ⟨ownedBy_filter_policyId hne _, ownedBy_filter_policyId hne _⟩
  | addRule policyId newId body =>
      obtain ⟨policy, hfound, h⟩ := withPolicy_ok h
      have hid := (getPolicy_some hfound).2.1
      cases h
      refine editKept_of_sameRows rfl (fun other hne => ?_)
        ⟨_, List.mem_singleton_self _, rfl⟩ ⟨_, List.mem_singleton_self _, rfl⟩
      exact ⟨ownedBy_append_insertOwned (hid ▸ hne) _ _, rfl⟩
  | removeRule policyId ruleId => cases hremoves
  | addException policyId newId body =>
      obtain ⟨policy, hfound, h⟩ := withPolicy_ok h
      have hid := (getPolicy_some hfound).2.1
      cases h
      refine editKept_of_sameRows rfl (fun other hne => ?_)
        ⟨_, List.mem_singleton_self _, rfl⟩ ⟨_, List.mem_singleton_self _, rfl⟩
      exact ⟨rfl, ownedBy_append_insertOwned (hid ▸ hne) _ _⟩
  | removeException policyId exceptionId => cases hremoves

/-- For every database and every request: it changes only the policy it names
and announces every policy it changes, if and only if a rule or exception that
it removes belongs to the policy of its URL. -/
theorem policyEdit_kept_iff {κ : Type*} (caller : Caller) (s : PolicyStore κ) (r : Request κ) :
    (∀ o, handle caller s r = .ok o → EditKept s r o) ↔ StaysInPolicy s r := by
  cases hremoves : r.removes with
  | false =>
      have hstays : StaysInPolicy s r := by
        cases r <;> trivial
      exact iff_of_true (fun o h => editKept_of_not_removes hremoves h) hstays
  | true =>
      cases r with
      | removeRule policyId ruleId =>
          refine (removal_kept_iff (r := Request.removeRule policyId ruleId)).trans ?_
          exact imp_congr_right fun _ => removeRule_sameRows_iff ruleId policyId
      | removeException policyId exceptionId =>
          refine (removal_kept_iff (r := Request.removeException policyId exceptionId)).trans ?_
          exact imp_congr_right fun _ => removeException_sameRows_iff exceptionId policyId
      | _ => cases hremoves

/-- Two policies, the second of which has a rule. -/
def storeOfTwo : PolicyStore Unit where
  policies := [⟨1, "PCI", false, none⟩, ⟨2, "HIPAA", false, none⟩]
  rules := [⟨7, 2, ⟨"SSN", none, "detection", []⟩⟩]
  exceptions := []
  nodup := by decide

/-- The rule of policy 2 is removed through the URL of policy 1. -/
theorem rule_of_other_policy_removed :
    ¬ ∀ (caller : Caller) (s : PolicyStore Unit) (r : Request Unit) (o : Outcome Unit),
      handle caller s r = .ok o → EditKept s r o := by
  intro h
  have hrun : ∃ o, handle ⟨5, none⟩ storeOfTwo (.removeRule 1 7) = .ok o ∧ o.store.rules = [] :=
    ⟨_, rfl, rfl⟩
  obtain ⟨o, ho, hrules⟩ := hrun
  have hframe := (h _ _ _ o ho).frame rfl ⟨2, "HIPAA", false, none⟩
    (List.mem_cons_of_mem _ List.mem_cons_self) (.inl (by decide))
  have hlost := congrArg List.length hframe.1
  rw [hrules] at hlost
  cases hlost

end AkesoDlp.Server.PolicyEdits
