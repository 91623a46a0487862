import AkesoDlp.Lib.UnitOfWork
import AkesoDlp.Server.PyPath

/-!
# Requests that change incidents

The endpoints `update_incident`, `add_note` and `smart_respond` of `api/incidents.py`
with the services behind them, each as a command over the database session of the
request. Identifiers are the strings of the UUIDs.
-/

namespace AkesoDlp.Server.Incidents

open Lib
open Inspector (isSpace)

/-- The attributes that a request can set. -/
inductive IncidentField
  | status
  | severity
  | customAttributes
deriving DecidableEq, Repr

def IncidentField.name : IncidentField → String
  | .status => "status"
  | .severity => "severity"
  | .customAttributes => "custom_attributes"

/-- A string or the value of an enum member, or a dictionary by its `str`. -/
inductive FieldValue
  | text (value : String)
  | dict (repr : String)
deriving DecidableEq, Repr

/-- `old_value.value`, or `str(old_value)`. -/
def FieldValue.oldStr : FieldValue → String
  | text value => value
  | dict repr => repr

/-- Of a dictionary no new value is recorded. -/
def FieldValue.newStr : FieldValue → Option String
  | text value => some value
  | dict _ => none

structure Incident where
  id : String
  status : FieldValue
  severity : FieldValue
  customAttributes : Option FieldValue := none
deriving DecidableEq, Repr

namespace Incident

def getattr (incident : Incident) : IncidentField → Option FieldValue
  | .status => some incident.status
  | .severity => some incident.severity
  | .customAttributes => incident.customAttributes

def setattr (incident : Incident) (value : FieldValue) : IncidentField → Incident
  | .status => { incident with status := value }
  | .severity => { incident with severity := value }
  | .customAttributes => { incident with customAttributes := some value }

end Incident

structure IncidentHistory where
  incidentId : String
  actorId : String
  field : IncidentField
  oldValue : Option String
  newValue : Option String
  createdAt : String
deriving DecidableEq, Repr

structure IncidentNote where
  incidentId : String
  authorId : String
  content : String
deriving DecidableEq, Repr

structure AuditLog where
  actorId : String
  action : String
  resourceType : String := "incident"
  resourceId : String
  detail : Option String
  changes : Option (List (IncidentField × Option FieldValue)) := none
  ipAddress : String
deriving DecidableEq, Repr

/-- A row that a session inserts, or a column that it updates. -/
inductive Write
  | update (incidentId : String) (field : IncidentField) (value : FieldValue)
  | history (row : IncidentHistory)
  | note (row : IncidentNote)
  | audit (row : AuditLog)
deriving DecidableEq, Repr

/-- The tables. -/
structure Database where
  incidents : List Incident := []
  history : List IncidentHistory := []
  notes : List IncidentNote := []
  auditLog : List AuditLog := []
deriving DecidableEq, Repr

namespace Database

def getIncident (db : Database) (id : String) : Option Incident :=
  db.incidents.find? fun incident => incident.id == id

def apply (db : Database) : Write → Database
  | .update id field value =>
      { db with
        incidents := db.incidents.map fun incident =>
          if incident.id = id then incident.setattr value field else incident }
  | .history row => { db with history := db.history ++ [row] }
  | .note row => { db with notes := db.notes ++ [row] }
  | .audit row => { db with auditLog := db.auditLog ++ [row] }

def applyAll (db : Database) (writes : List Write) : Database := writes.foldl apply db

end Database

/-- Who asks about which incident, and when. -/
structure Caller where
  actorId : String
  incidentId : String
  ipAddress : String := "unknown"
  now : String := ""
deriving DecidableEq, Repr

inductive ApiError
  /-- 404. -/
  | notFound
  /-- 400. -/
  | badRequest (detail : String)
  /-- An outcome of `execute` without success. -/
  | failure (detail : String)
  /-- Whatever else was raised in an action: `Action failed: ...`. -/
  | actionFailed
  /-- What a statement raises. -/
  | database
deriving DecidableEq, Repr

/-- A command over the session of a request. -/
abbrev Command := Act (UnitOfWork Write) ApiError

/-- A flush, or a SELECT. -/
def statement : Command := UnitOfWork.statement .database

def commit : Command := UnitOfWork.commit .database

/-! ## The incident service -/

/-- The loop of `update_incident`: what changes, each with its history entry. -/
def fieldChanges (caller : Caller) : Incident → List (IncidentField × Option FieldValue) →
    List Write
  | _, [] => []
  | incident, (_, none) :: rest => fieldChanges caller incident rest
  | incident, (field, some value) :: rest =>
      let oldStr := (incident.getattr field).map FieldValue.oldStr
      if oldStr ≠ value.newStr then
        .update incident.id field value ::
          .history
            { incidentId := incident.id
              actorId := caller.actorId
              field := field
              oldValue := oldStr
              newValue := value.newStr
              createdAt := caller.now } ::
          fieldChanges caller (incident.setattr value field) rest
      else fieldChanges caller incident rest

/-- `incident_service.update_incident`: the flush, and the SELECT of the result. -/
def updateIncident (caller : Caller) (incident : Incident)
    (data : List (IncidentField × Option FieldValue)) : Command :=
  (UnitOfWork.add (fieldChanges caller incident data)).seq (statement.seq statement)

/-- `incident_service.add_note`. -/
def insertNote (caller : Caller) (content : String) : Command :=
  (UnitOfWork.add
    [.note { incidentId := caller.incidentId, authorId := caller.actorId, content := content }]).seq
    statement

/-- `create_audit_entry`. -/
def createAuditEntry (row : AuditLog) : Command :=
  (UnitOfWork.add [.audit row]).seq statement

def auditRow (caller : Caller) (action : String) (detail : String)
    (changes : Option (List (IncidentField × Option FieldValue)) := none) : AuditLog where
  actorId := caller.actorId
  action := action
  resourceId := caller.incidentId
  detail := some detail
  changes := changes
  ipAddress := caller.ipAddress

/-! ## Smart responses -/

inductive SmartAction
  | addNote
  | setStatus
  | sendEmail
  | escalate
deriving DecidableEq, Repr

def SmartAction.ofName? : String → Option SmartAction
  | "add_note" => some .addNote
  | "set_status" => some .setStatus
  | "send_email" => some .sendEmail
  | "escalate" => some .escalate
  | _ => none

/-- A value of `params`: a string, or anything else by its `str`. -/
inductive Param
  | text (value : String)
  | other (repr : String)
deriving DecidableEq, Repr

def Param.str : Param → String
  | text value => value
  | other repr => repr

abbrev Params := List (String × Param)

/-- `params.get(key, default)`. -/
def Params.get (params : Params) (key default : String) : Param :=
  ((params.find? fun entry => entry.1 == key).map (·.2)).getD (.text default)

/-- `str.strip`. -/
def strip (s : String) : String :=
  String.ofList (((s.toList.dropWhile isSpace).reverse.dropWhile isSpace).reverse)

/-- `params.get(key, default).strip()`; what is no string has no `strip`. -/
def Params.getStripped (params : Params) (key default : String) : Except ApiError String :=
  match params.get key default with
  | .text value => .ok (strip value)
  | .other _ => .error .actionFailed

/-- What an action does once its parameters are checked: a new status, a note, or
both, and then its commit; and the detail of its outcome. -/
structure Plan where
  status : Option String := none
  note : Option String := none
  detail : String
deriving DecidableEq, Repr

def validStatuses : List String := ["new", "in_progress", "resolved", "dismissed", "escalated"]

def planAddNote (params : Params) : Except ApiError Plan := do
  let content ← params.getStripped "content" ""
  if content = "" then .error (.failure "Note content is required (params.content)")
  else
    .ok
      { note := some content
        detail := "Note added: " ++ String.ofList (content.toList.take 80) ++
          (if 80 < content.length then "..." else "") }

def planSetStatus (incident : Incident) (params : Params) : Except ApiError Plan := do
  let newStatus ← params.getStripped "status" ""
  if newStatus ∉ validStatuses then
    .error (.failure ("Invalid status '" ++ newStatus ++
      "'. Valid: dismissed, escalated, in_progress, new, resolved"))
  else
    .ok
      { status := some newStatus
        detail := "Status changed from " ++ incident.status.oldStr ++ " to " ++ newStatus }

def planSendEmail (params : Params) : Except ApiError Plan := do
  let recipient ← params.getStripped "recipient" ""
  if recipient = "" then
    .error (.failure "Recipient email is required (params.recipient)")
  else
    .ok
      { note := some ("[Smart Response] Email notification sent to " ++ recipient ++
          " — Subject: " ++ (params.get "subject" "DLP Incident Notification").str)
        detail := "Email notification queued for " ++ recipient }

def planEscalate (params : Params) : Except ApiError Plan := do
  let reason ← params.getStripped "reason" "Escalated via smart response"
  .ok
    { status := some "escalated"
      note := some ("[Escalated] " ++ reason)
      detail := "Incident escalated: " ++ reason }

def SmartAction.plan (incident : Incident) (params : Params) : SmartAction → Except ApiError Plan
  | .addNote => planAddNote params
  | .setStatus => planSetStatus incident params
  | .sendEmail => planSendEmail params
  | .escalate => planEscalate params

/-- The database work of an action before its commit. -/
def Plan.work (caller : Caller) (incident : Incident) (plan : Plan) : Command :=
  (match plan.status with
    | some status => updateIncident caller incident [(.status, some (.text status))]
    | none => Act.skip).seq
  (match plan.note with
    | some content => insertNote caller content
    | none => Act.skip)

/-- An action as `execute` runs it: an exception is caught, and nothing is rolled back
that was committed. -/
def Plan.perform (caller : Caller) (incident : Incident) (plan : Plan) : Command :=
  ((plan.work caller incident).seq commit).recover fun _ => Act.raise .actionFailed

/-! ## The endpoints -/

inductive IncidentRequest
  | updateIncident (data : List (IncidentField × Option FieldValue))
  | addNote (content : String)
  | smartRespond (action : String) (params : Params)
deriving DecidableEq, Repr

/-- `update_incident`; `incident` is what its SELECT returned. -/
def updateEndpoint (caller : Caller) (incident : Option Incident)
    (data : List (IncidentField × Option FieldValue)) : Command :=
  statement.seq
    (match incident with
    | none => Act.raise .notFound
    | some incident =>
        if data.isEmpty then Act.raise (.badRequest "No fields to update")
        else
          ((updateIncident caller incident data).seq
            (createAuditEntry (auditRow caller "incident.update"
              ("Updated incident fields: " ++ ", ".intercalate (data.map fun d => d.1.name))
              (some data)))).seq commit)

/-- `add_note`. -/
def noteEndpoint (caller : Caller) (incident : Option Incident) (content : String) : Command :=
  statement.seq
    (match incident with
    | none => Act.raise .notFound
    | some _ =>
        ((insertNote caller content).seq
          (createAuditEntry (auditRow caller "incident.add_note" "Added note to incident"))).seq
          commit)

/-- `smart_respond` with `execute`: the audit entry comes after the commit of the
action. -/
def respondEndpoint (caller : Caller) (incident : Option Incident) (action : String)
    (params : Params) : Command :=
  match SmartAction.ofName? action with
  | none =>
      Act.raise (.failure ("Unknown action '" ++ action ++
        "'. Valid actions: add_note, escalate, send_email, set_status"))
  | some smartAction =>
      statement.seq
        (match incident with
        | none => Act.raise (.failure "Incident not found")
        | some incident =>
            match smartAction.plan incident params with
            | .error e => Act.raise e
            | .ok plan =>
                (plan.perform caller incident).seq
                  (createAuditEntry
                    (auditRow caller ("incident.smart_response." ++ action) plan.detail)))

def endpoint (caller : Caller) (incident : Option Incident) : IncidentRequest → Command
  | .updateIncident data => updateEndpoint caller incident data
  | .addNote content => noteEndpoint caller incident content
  | .smartRespond action params => respondEndpoint caller incident action params

/-- A request that was answered: whether it reported success, and what it made
durable. What was pending when `get_db` closed the session is gone. -/
structure Answered where
  caller : Caller
  request : IncidentRequest
  success : Bool
  committed : List Write
deriving DecidableEq, Repr

/-- `failAt` is the statement of the request that fails, if one does. -/
def answer (caller : Caller) (request : IncidentRequest) (incident : Option Incident)
    (failAt : Option Nat) : Answered :=
  let (session, error) := endpoint caller incident request { failAt := failAt }
  { caller := caller
    request := request
    success := error.isNone
    committed := session.committed }

end AkesoDlp.Server.Incidents
