import AkesoDlp.Lib.TSys
import AkesoDlp.Server.IncidentService
import Mathlib.Logic.Function.Basic

/-!
# The audit trail of incident changes

Requests run in sessions of their own: what a session read when it was opened may be
out of date when it commits. `update_incident` and `add_note` commit their change
together with its audit entry. `smart_respond` adds the entry after the action has
committed and commits no more, so the entry is lost with the session. A run is
audited exactly if no smart response of it commits a change.
-/

namespace AkesoDlp.Server.Incidents

open Lib

def Write.isAudit : Write → Option AuditLog
  | .audit row => some row
  | _ => none

def Write.isChange (write : Write) : Bool := write.isAudit.isNone

/-- The audit entries among some writes. -/
def auditRows (writes : List Write) : List AuditLog := writes.filterMap Write.isAudit

namespace Answered

/-- A change comes with one audit entry that names the user and the incident, and a
failure with nothing at all. -/
def Audited (answered : Answered) : Prop :=
  (answered.committed.any Write.isChange = true →
    ∃ row, auditRows answered.committed = [row] ∧ row.actorId = answered.caller.actorId ∧
      row.resourceType = "incident" ∧ row.resourceId = answered.caller.incidentId) ∧
  (answered.success = false → answered.committed = [])

end Answered

/-! ## Sessions -/

/-- A request whose session has read the incident. -/
structure Opened where
  caller : Caller
  request : IncidentRequest
  incident : Option Incident
deriving DecidableEq, Repr

structure Api where
  db : Database
  opened : Nat → Option Opened
  answered : List Answered

inductive ApiAction
  /-- Session `ticket` is opened for a request and reads the incident. -/
  | load (ticket : Nat) (caller : Caller) (request : IncidentRequest)
  /-- The rest of the request, up to the end of the session. -/
  | answer (ticket : Nat) (failAt : Option Nat)
deriving DecidableEq, Repr

namespace Api

def step (s : Api) : ApiAction → Option Api
  | .load ticket caller request =>
      if s.opened ticket = none then
        some { s with
          opened := Function.update s.opened ticket
            (some
              { caller := caller
                request := request
                incident := s.db.getIncident caller.incidentId }) }
      else none
  | .answer ticket failAt =>
      match s.opened ticket with
      | none => none
      | some o =>
          let answered := answer o.caller o.request o.incident failAt
          some
            { db := s.db.applyAll answered.committed
              opened := Function.update s.opened ticket none
              answered := s.answered ++ [answered] }

/-- Any tables, and no request yet. -/
def start (db : Database) : Api where
  db := db
  opened := fun _ => none
  answered := []

def system : TSys Api ApiAction where
  init := fun s => ∃ db, s = start db
  step := step

def Audited (s : Api) : Prop := ∀ answered ∈ s.answered, answered.Audited

end Api

/-! ## What a request commits -/

/-- The session of a request before its first statement. -/
def fresh (failAt : Option Nat) : UnitOfWork Write := { failAt := failAt }

theorem isChange_fieldChanges (caller : Caller) (incident : Incident)
    (data : List (IncidentField × Option FieldValue)) :
    ∀ write ∈ fieldChanges caller incident data, write.isChange = true := by
  induction data generalizing incident with
  | nil => simp [fieldChanges]
  | cons entry data ih =>
      obtain ⟨field, - | value⟩ := entry
      · exact ih incident
      · simp only [fieldChanges]
        split
        · rw [List.forall_mem_cons, List.forall_mem_cons]
          exact ⟨rfl, rfl, ih _⟩
        · exact ih incident

theorem stages_updateIncident (caller : Caller) (incident : Incident)
    (data : List (IncidentField × Option FieldValue)) :
    UnitOfWork.Stages (updateIncident caller incident data) 2
      (fieldChanges caller incident data) := by
  have h := (UnitOfWork.Stages.add (ε := ApiError) (fieldChanges caller incident data)).seq
    ((UnitOfWork.Stages.statement .database).seq (UnitOfWork.Stages.statement .database))
  rw [List.append_nil, List.append_nil] at h
  exact h

theorem stages_insertNote (caller : Caller) (content : String) :
    UnitOfWork.Stages (insertNote caller content) 1
      [.note { incidentId := caller.incidentId, authorId := caller.actorId, content := content }] :=
  (UnitOfWork.Stages.add _).seq (UnitOfWork.Stages.statement _)

theorem stages_createAuditEntry (row : AuditLog) :
    UnitOfWork.Stages (createAuditEntry row) 1 [.audit row] :=
  (UnitOfWork.Stages.add _).seq (UnitOfWork.Stages.statement _)

/-- A SELECT, some work and a commit: the work is durable, or the request fails and
nothing is. -/
theorem select_work_commit {work : Command} {n : Nat} {writes : List Write}
    (h : UnitOfWork.Stages work n writes) (failAt : Option Nat) :
    (((fresh failAt).Clear (1 + n + 1) →
      (statement.seq (work.seq commit) (fresh failAt)).2 = none ∧
        (statement.seq (work.seq commit) (fresh failAt)).1.committed = writes)) ∧
    (¬ (fresh failAt).Clear (1 + n + 1) →
      (statement.seq (work.seq commit) (fresh failAt)).2 ≠ none ∧
        (statement.seq (work.seq commit) (fresh failAt)).1.committed = []) := by
  have hstaged := (UnitOfWork.Stages.statement ApiError.database).seq h
  obtain ⟨hruns, hfails⟩ := hstaged.commit .database (fresh failAt)
  rw [Act.seq_assoc] at hruns hfails
  constructor
  · intro hclear
    have heq : statement.seq (work.seq commit) (fresh failAt) = _ := hruns hclear
    rw [heq]
    exact ⟨rfl, by simp [UnitOfWork.durable, UnitOfWork.after, fresh]⟩
  · intro hclear
    obtain ⟨s', e, heq, hcommitted⟩ := hfails hclear
    have heq : statement.seq (work.seq commit) (fresh failAt) = _ := heq
    rw [heq]
    exact ⟨by simp, hcommitted⟩

/-- A SELECT and then a refusal. -/
theorem select_raise (e : ApiError) (failAt : Option Nat) :
    (statement.seq (Act.raise e) (fresh failAt)).2 ≠ none ∧
      (statement.seq (Act.raise e) (fresh failAt)).1.committed = [] := by
  obtain hclear | ⟨i, hfail, hle, hlt⟩ := (fresh failAt).clear_or 1
  · have hrun := (UnitOfWork.Stages.statement ApiError.database).runs (fresh failAt) hclear
    unfold Act.seq statement
    rw [hrun]
    exact ⟨by simp [Act.raise], rfl⟩
  · have hclear : ¬ (fresh failAt).Clear 1 := fun h => h i hle hlt hfail
    obtain ⟨s', e', heq, hcommitted⟩ :=
      (UnitOfWork.Stages.statement ApiError.database).fails (fresh failAt) hclear
    unfold Act.seq statement
    rw [heq]
    exact ⟨by simp, hcommitted⟩

/-- What reports a failure and commits nothing is audited. -/
theorem audited_of_nothing {answered : Answered} (h : answered.committed = []) :
    answered.Audited := by
  refine ⟨fun hchange => ?_, fun _ => h⟩
  rw [h] at hchange
  simp at hchange

theorem auditRows_eq_nil {changes : List Write} (h : ∀ write ∈ changes, write.isChange = true) :
    auditRows changes = [] :=
  List.filterMap_eq_nil_iff.mpr fun write hmem => Option.isNone_iff_eq_none.mp (h write hmem)

theorem auditRows_append {changes : List Write} (h : ∀ write ∈ changes, write.isChange = true)
    (row : AuditLog) : auditRows (changes ++ [.audit row]) = [row] := by
  have hnone := auditRows_eq_nil h
  rw [auditRows] at hnone ⊢
  rw [List.filterMap_append, hnone]
  rfl

/-- Changes and their audit entry under one commit. -/
theorem audited_of_commit {work : Command} {n : Nat} {changes : List Write}
    (caller : Caller) (request : IncidentRequest) (action detail : String)
    (data : Option (List (IncidentField × Option FieldValue)))
    (h : UnitOfWork.Stages work n changes) (hchanges : ∀ write ∈ changes, write.isChange = true)
    (failAt : Option Nat) :
    Answered.Audited
      { caller := caller
        request := request
        success := (statement.seq
          ((work.seq (createAuditEntry (auditRow caller action detail data))).seq commit)
            (fresh failAt)).2.isNone
        committed := (statement.seq
          ((work.seq (createAuditEntry (auditRow caller action detail data))).seq commit)
            (fresh failAt)).1.committed } := by
  have hstaged := h.seq (stages_createAuditEntry (auditRow caller action detail data))
  obtain ⟨hruns, hfails⟩ := select_work_commit hstaged failAt
  by_cases hclear : (fresh failAt).Clear (1 + (n + 1) + 1)
  · obtain ⟨herror, hcommitted⟩ := hruns hclear
    refine ⟨fun _ => ?_, fun hfailure => ?_⟩
    · rw [hcommitted, auditRows_append hchanges]
      exact ⟨_, rfl, rfl, rfl, rfl⟩
    · rw [herror] at hfailure
      simp at hfailure
  · exact audited_of_nothing (hfails hclear).2

theorem audited_updateIncident (caller : Caller)
    (data : List (IncidentField × Option FieldValue)) (incident : Option Incident)
    (failAt : Option Nat) :
    (answer caller (.updateIncident data) incident failAt).Audited := by
  cases incident with
  | none => exact audited_of_nothing (select_raise .notFound failAt).2
  | some incident =>
      cases data with
      | nil => exact audited_of_nothing (select_raise (.badRequest "No fields to update") failAt).2
      | cons entry data =>
          exact audited_of_commit caller _ _ _ _
            (stages_updateIncident caller incident (entry :: data))
            (isChange_fieldChanges caller incident (entry :: data)) failAt

theorem audited_addNote (caller : Caller) (content : String) (incident : Option Incident)
    (failAt : Option Nat) : (answer caller (.addNote content) incident failAt).Audited := by
  cases incident with
  | none => exact audited_of_nothing (select_raise .notFound failAt).2
  | some incident =>
      exact audited_of_commit caller _ _ _ none (stages_insertNote caller content)
        (List.forall_mem_singleton.mpr rfl) failAt

/-! ## Smart responses -/

/-- What the action of a plan commits. -/
def Plan.changes (caller : Caller) (incident : Incident) (plan : Plan) : List Write :=
  (match plan.status with
    | some status => fieldChanges caller incident [(.status, some (.text status))]
    | none => []) ++
  (match plan.note with
    | some content =>
        [.note { incidentId := caller.incidentId, authorId := caller.actorId, content := content }]
    | none => [])

/-- The statements of the action before its commit. -/
def Plan.statements (plan : Plan) : Nat :=
  (if plan.status.isSome then 2 else 0) + (if plan.note.isSome then 1 else 0)

theorem stages_work (caller : Caller) (incident : Incident) (plan : Plan) :
    UnitOfWork.Stages (plan.work caller incident) plan.statements
      (plan.changes caller incident) := by
  obtain ⟨- | status, - | content, detail⟩ := plan
  · exact UnitOfWork.Stages.skip.seq UnitOfWork.Stages.skip
  · exact UnitOfWork.Stages.skip.seq (stages_insertNote caller content)
  · exact (stages_updateIncident caller incident _).seq UnitOfWork.Stages.skip
  · exact (stages_updateIncident caller incident _).seq (stages_insertNote caller content)

theorem isChange_changes (caller : Caller) (incident : Incident) (plan : Plan) :
    ∀ write ∈ plan.changes caller incident, write.isChange = true := by
  intro write hmem
  rw [Plan.changes, List.mem_append] at hmem
  obtain hmem | hmem := hmem
  · split at hmem
    · exact isChange_fieldChanges caller incident _ write hmem
    · simp at hmem
  · split at hmem
    · rw [List.mem_singleton] at hmem
      exact hmem ▸ rfl
    · simp at hmem

/-- The audit entry after the commit changes nothing that is durable. -/
theorem committed_respond (caller : Caller) (incident : Incident) (plan : Plan) (row : AuditLog)
    (failAt : Option Nat) :
    ((fresh failAt).Clear (1 + plan.statements + 1) →
      (statement.seq ((plan.perform caller incident).seq (createAuditEntry row))
        (fresh failAt)).1.committed = plan.changes caller incident) ∧
    (¬ (fresh failAt).Clear (1 + plan.statements + 1) →
      (statement.seq ((plan.perform caller incident).seq (createAuditEntry row))
        (fresh failAt)).1.committed = []) := by
  have haudit : ∀ s : UnitOfWork Write, (createAuditEntry row s).1.committed = s.committed := by
    intro s
    by_cases hclear : s.Clear 1
    · rw [(stages_createAuditEntry row).runs s hclear]
      rfl
    · obtain ⟨s', e, heq, hcommitted⟩ := (stages_createAuditEntry row).fails s hclear
      rw [heq]
      exact hcommitted
  have hsame : (statement.seq ((plan.perform caller incident).seq (createAuditEntry row))
      (fresh failAt)).1.committed =
        (statement.seq ((plan.work caller incident).seq commit) (fresh failAt)).1.committed := by
    unfold Plan.perform Act.recover
    generalize (plan.work caller incident).seq commit = body
    unfold Act.seq
    rcases statement (fresh failAt) with ⟨s, - | e⟩
    · simp only []
      rcases body s with ⟨s', - | e⟩
      · exact haudit s'
      · rfl
    · rfl
  obtain ⟨hruns, hfails⟩ := select_work_commit (stages_work caller incident plan) failAt
  rw [hsame]
  exact ⟨fun hclear => (hruns hclear).2, fun hclear => (hfails hclear).2⟩

/-- A smart response that commits a change: a known action on a known incident, with
parameters that pass, that changes something, and none of whose statements up to the
commit fails. -/
def CommitsSilently (caller : Caller) (request : IncidentRequest) (incident : Option Incident)
    (failAt : Option Nat) : Prop :=
  match request with
  | .smartRespond action params =>
      ∃ smartAction found plan, SmartAction.ofName? action = some smartAction ∧
        incident = some found ∧ smartAction.plan found params = .ok plan ∧
          plan.changes caller found ≠ [] ∧ (fresh failAt).Clear (1 + plan.statements + 1)
  | _ => False

theorem not_audited_of_changes {answered : Answered} (hne : answered.committed ≠ [])
    (h : ∀ write ∈ answered.committed, write.isChange = true) : ¬ answered.Audited := by
  rintro ⟨haudit, -⟩
  obtain ⟨write, rest, heq⟩ := List.exists_cons_of_ne_nil hne
  have hany : answered.committed.any Write.isChange = true :=
    List.any_eq_true.mpr ⟨write, by simp [heq], h write (by simp [heq])⟩
  obtain ⟨row, hrow, -⟩ := haudit hany
  rw [auditRows_eq_nil h] at hrow
  simp at hrow

theorem audited_smartRespond_iff (caller : Caller) (action : String) (params : Params)
    (incident : Option Incident) (failAt : Option Nat) :
    (answer caller (.smartRespond action params) incident failAt).Audited ↔
      ¬ CommitsSilently caller (.smartRespond action params) incident failAt := by
  have hcommitted : ∀ command : Command,
      respondEndpoint caller incident action params = command →
        (answer caller (.smartRespond action params) incident failAt).committed =
          (command (fresh failAt)).1.committed := by
    rintro command rfl
    rfl
  cases haction : SmartAction.ofName? action with
  | none =>
      have hnothing := hcommitted _ (by rw [respondEndpoint, haction])
      refine iff_of_true (audited_of_nothing hnothing) ?_
      rintro ⟨smartAction, found, plan, h, -⟩
      rw [haction] at h
      simp at h
  | some smartAction =>
      cases incident with
      | none =>
          have hnothing := hcommitted _ (by rw [respondEndpoint, haction])
          rw [(select_raise _ failAt).2] at hnothing
          refine iff_of_true (audited_of_nothing hnothing) ?_
          rintro ⟨smartAction, found, plan, -, h, -⟩
          simp at h
      | some found =>
          cases hplan : smartAction.plan found params with
          | error e =>
              have hnothing := hcommitted (statement.seq (Act.raise e))
                (by simp only [respondEndpoint, haction, hplan])
              rw [(select_raise _ failAt).2] at hnothing
              refine iff_of_true (audited_of_nothing hnothing) ?_
              rintro ⟨smartAction', found', plan, haction', hfound, hplan', -⟩
              rw [haction, Option.some.injEq] at haction'
              obtain rfl := Option.some.inj hfound
              rw [← haction', hplan] at hplan'
              simp at hplan'
          | ok plan =>
              have hall := hcommitted
                (statement.seq ((plan.perform caller found).seq (createAuditEntry
                  (auditRow caller ("incident.smart_response." ++ action) plan.detail))))
                (by simp only [respondEndpoint, haction, hplan])
              obtain ⟨hruns, hfails⟩ := committed_respond caller found plan
                (auditRow caller ("incident.smart_response." ++ action) plan.detail) failAt
              have hcommits : CommitsSilently caller (.smartRespond action params) (some found)
                  failAt ↔ plan.changes caller found ≠ [] ∧
                    (fresh failAt).Clear (1 + plan.statements + 1) := by
                constructor
                · rintro ⟨smartAction', found', plan', haction', hfound, hplan', h⟩
                  rw [haction, Option.some.injEq] at haction'
                  obtain rfl := Option.some.inj hfound
                  rw [← haction', hplan, Except.ok.injEq] at hplan'
                  exact hplan' ▸ h
                · exact fun h => ⟨smartAction, found, plan, haction, rfl, hplan, h⟩
              rw [hcommits]
              by_cases hclear : (fresh failAt).Clear (1 + plan.statements + 1)
              · rw [hruns hclear] at hall
                by_cases hchanges : plan.changes caller found = []
                · exact iff_of_true (audited_of_nothing (hall.trans hchanges))
                    fun h => h.1 hchanges
                · have hnot := not_audited_of_changes (by rw [hall]; exact hchanges)
                    (by rw [hall]; exact isChange_changes caller found plan)
                  exact iff_of_false hnot fun h => h ⟨hchanges, hclear⟩
              · rw [hfails hclear] at hall
                exact iff_of_true (audited_of_nothing hall) fun h => hclear h.2

/-- A request is audited unless it is a smart response that commits a change. -/
theorem audited_iff (caller : Caller) (request : IncidentRequest) (incident : Option Incident)
    (failAt : Option Nat) :
    (answer caller request incident failAt).Audited ↔
      ¬ CommitsSilently caller request incident failAt := by
  cases request with
  | updateIncident data =>
      exact iff_of_true (audited_updateIncident caller data incident failAt) id
  | addNote content => exact iff_of_true (audited_addNote caller content incident failAt) id
  | smartRespond action params =>
      exact audited_smartRespond_iff caller action params incident failAt

/-! ## Runs -/

namespace Api

/-- A step that does not end a smart response which commits a change. -/
def Announced (s : Api) : ApiAction → Prop
  | .load .. => True
  | .answer ticket failAt =>
      ∀ o, s.opened ticket = some o → ¬ CommitsSilently o.caller o.request o.incident failAt

theorem step_cases {s s' : Api} {a : ApiAction} (h : step s a = some s') :
    (∃ ticket caller request, a = .load ticket caller request ∧ s'.answered = s.answered ∧
      s'.db = s.db) ∨
    (∃ ticket failAt o, a = .answer ticket failAt ∧ s.opened ticket = some o ∧
      s'.answered = s.answered ++ [answer o.caller o.request o.incident failAt] ∧
      s'.db = s.db.applyAll (answer o.caller o.request o.incident failAt).committed) := by
  cases a with
  | load ticket caller request =>
      simp only [step, Option.ite_none_right_eq_some, Option.some.injEq] at h
      exact .inl ⟨ticket, caller, request, rfl, h.2 ▸ rfl, h.2 ▸ rfl⟩
  | answer ticket failAt =>
      simp only [step] at h
      cases ho : s.opened ticket with
      | none => simp [ho] at h
      | some o =>
          rw [ho, Option.some.injEq] at h
          exact .inr ⟨ticket, failAt, o, rfl, ho, h ▸ rfl, h ▸ rfl⟩

theorem audited_step_iff {s s' : Api} {a : ApiAction} (h : step s a = some s') :
    s'.Audited ↔ s.Audited ∧ s.Announced a := by
  obtain ⟨ticket, caller, request, rfl, hanswered, -⟩ |
    ⟨ticket, failAt, o, rfl, ho, hanswered, -⟩ := step_cases h
  · rw [Audited, hanswered]
    exact (and_iff_left trivial).symm
  · rw [Audited, hanswered, List.forall_mem_append, List.forall_mem_singleton, audited_iff]
    refine and_congr_right fun _ => ?_
    constructor
    · intro hnot o' ho'
      rw [ho, Option.some.injEq] at ho'
      exact ho' ▸ hnot
    · exact fun hall => hall o ho

/-- The audit table grows by the entries that the requests committed. -/
theorem auditLog_applyAll (db : Database) (writes : List Write) :
    (db.applyAll writes).auditLog = db.auditLog ++ auditRows writes := by
  unfold Database.applyAll
  induction writes generalizing db with
  | nil => simp [auditRows]
  | cons write writes ih =>
      rw [List.foldl_cons, ih, auditRows, auditRows]
      cases write <;> simp [Database.apply, Write.isAudit, List.filterMap_cons]

theorem auditLog_run {s s' : Api} {as : List ApiAction} (h : system.run s as = some s') :
    ∃ later, s'.answered = s.answered ++ later ∧
      s'.db.auditLog = s.db.auditLog ++ later.flatMap fun answered =>
        auditRows answered.committed := by
  induction as generalizing s with
  | nil =>
      rw [TSys.run, Option.some.injEq] at h
      exact ⟨[], by simp [h], by simp [h]⟩
  | cons a as ih =>
      obtain ⟨t, ht, hrest⟩ := Option.bind_eq_some_iff.mp h
      obtain ⟨later, hanswered, haudit⟩ := ih hrest
      obtain ⟨_, _, _, -, hstep, hdb⟩ | ⟨_, failAt, o, -, -, hstep, hdb⟩ := step_cases ht
      · exact ⟨later, hstep ▸ hanswered, hdb ▸ haudit⟩
      · refine ⟨answer o.caller o.request o.incident failAt :: later, ?_, ?_⟩
        · rw [hanswered, hstep, List.append_assoc, List.singleton_append]
        · rw [haudit, hdb, auditLog_applyAll, List.append_assoc, List.flatMap_cons]

/-- A run is audited exactly if no smart response of it commits a change. -/
theorem audited_run_iff (db : Database) (as : List ApiAction) {s : Api}
    (h : system.run (start db) as = some s) :
    s.Audited ↔ system.RunOk Announced (start db) as := by
  rw [TSys.run_iff_runOk (fun _ _ _ => audited_step_iff) h]
  refine and_iff_right fun answered hmem => ?_
  simp [start] at hmem

def sampleIncident : Incident where
  id := "i1"
  status := .text "new"
  severity := .text "high"

def sampleCaller : Caller := { actorId := "u1", incidentId := "i1" }

/-- A note while an update is under way. -/
def auditedRun : List ApiAction :=
  [.load 0 sampleCaller (.updateIncident [(.status, some (.text "resolved"))]),
    .load 1 sampleCaller (.addNote "checked"), .answer 1 none, .answer 0 none]

theorem audited_auditedRun :
    ∃ s, system.run (start { incidents := [sampleIncident] }) auditedRun = some s ∧
      s.Audited ∧ s.db.auditLog.length = 2 := by
  have hrun : ∃ s, system.run (start { incidents := [sampleIncident] }) auditedRun = some s ∧
      s.db.auditLog.length = 2 := ⟨_, rfl, rfl⟩
  obtain ⟨s, hs, hlength⟩ := hrun
  refine ⟨s, hs, (audited_run_iff _ auditedRun hs).mpr ?_, hlength⟩
  simp [auditedRun, TSys.RunOk, system, step, start, Announced, CommitsSilently]

/-- A note by smart response: the note stays, the audit entry does not. -/
theorem not_audited_smartRespond :
    ∃ s, system.run (start { incidents := [sampleIncident] })
        [.load 0 sampleCaller (.smartRespond "add_note" [("content", .text "seen")]),
          .answer 0 none] = some s ∧
      s.db.notes.length = 1 ∧ s.db.auditLog = [] ∧ ¬ s.Audited := by
  refine ⟨_, rfl, rfl, rfl, fun h => ?_⟩
  have hone := h _ (List.mem_singleton_self _)
  obtain ⟨row, hrow, -⟩ := hone.1 rfl
  exact List.cons_ne_nil row [] hrow.symm

end Api

end AkesoDlp.Server.Incidents
