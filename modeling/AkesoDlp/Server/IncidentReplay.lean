import AkesoDlp.Server.IncidentAudit

/-!
# Replaying the history of an incident

`update_incident` compares values by their text form, and the comparison decides both what
is written and what is recorded. The text form of a new dictionary is that of no value: it
is not written over no value, and what is recorded of it does not replay.
-/

namespace AkesoDlp.Server.Incidents

open Lib

/-- The entries lead from the first value to the last one, each from a value to another
one. -/
def Replays {α : Type*} : α → List (α × α) → α → Prop
  | first, [], last => first = last
  | first, (old, new) :: rest, last => old = first ∧ old ≠ new ∧ Replays new rest last

theorem replays_append_singleton {α : Type*} {first old new last : α} {entries : List (α × α)} :
    Replays first (entries ++ [(old, new)]) last ↔
      Replays first entries old ∧ old ≠ new ∧ new = last := by
  induction entries generalizing first with
  | nil => exact ⟨fun ⟨h, hne, hlast⟩ => ⟨h.symm, hne, hlast⟩, fun ⟨h, hne, hlast⟩ =>
      ⟨h.symm, hne, hlast⟩⟩
  | cons entry rest ih =>
      obtain ⟨a, b⟩ := entry
      rw [List.cons_append, Replays, Replays, ih, and_assoc, and_assoc]

/-! ## Calls -/

/-- What a call supplies, by attribute: the keys of a dictionary are distinct. -/
structure UpdateData where
  entries : List (IncidentField × Option FieldValue)
  nodup : (entries.map (·.1)).Nodup

/-- A request to update an incident. -/
structure UpdateCall where
  caller : Caller
  data : UpdateData

namespace UpdateCall

def incidentId (call : UpdateCall) : String := call.caller.incidentId

/-- What the request makes durable; none of its statements fails. -/
def committed (call : UpdateCall) (db : Database) : List Write :=
  (answer call.caller (.updateIncident call.data.entries) (db.getIncident call.incidentId)
    none).committed

/-- The field is supplied with a value. -/
def Supplies (call : UpdateCall) (field : IncidentField) (value : FieldValue) : Prop :=
  (field, some value) ∈ call.data.entries

end UpdateCall

/-- The calls on a database, one after the other. -/
structure Updates where
  initial : Database
  db : Database
  last : Option UpdateCall := none

def updates : TSys Updates UpdateCall where
  init s := s.db = s.initial ∧ s.last = none ∧ s.initial.history = []
  step s call := some { s with db := s.db.applyAll (call.committed s.db), last := some call }

/-- The text form of the value of a field. -/
def Incident.textOf (incident : Incident) (field : IncidentField) : Option String :=
  (incident.getattr field).map FieldValue.oldStr

/-- The old and new values of the entries for a field, in order. -/
def Database.entries (db : Database) (id : String) (field : IncidentField) :
    List (Option String × Option String) :=
  (db.history.filter fun row => row.incidentId = id ∧ row.field = field).map
    fun row => (row.oldValue, row.newValue)

/-- The values of the last call are stored, and the history of every incident replays. -/
structure Recorded (s : Updates) : Prop where
  stored : ∀ call, s.last = some call →
    ∀ incident, s.db.getIncident call.incidentId = some incident →
      ∀ field value, call.Supplies field value → incident.getattr field = some value
  replays : ∀ id before now, s.initial.getIncident id = some before →
    s.db.getIncident id = some now → ∀ field,
      Replays (before.textOf field) (s.db.entries id field) (now.textOf field)

/-- All values that the call supplies are strings or enum members, and none is the text form
of a dictionary that the field holds. -/
def SuppliesText (s : Updates) (call : UpdateCall) : Prop :=
  ∀ incident, s.db.getIncident call.incidentId = some incident →
    ∀ field value, call.Supplies field value →
      (∃ text, value = .text text) ∧
        ∀ repr, incident.getattr field = some (.dict repr) → value ≠ .text repr

/-! ## One field -/

/-- What becomes of a field whose value is `old` when `supplied` is supplied for it: its
value, and the entries that are recorded. -/
def fieldResult (old supplied : Option FieldValue) :
    Option FieldValue × List (Option String × Option String) :=
  match supplied with
  | none => (old, [])
  | some value =>
      if old.map FieldValue.oldStr ≠ value.newStr then
        (some value, [(old.map FieldValue.oldStr, value.newStr)])
      else (old, [])

/-- The value that the data has for a field. -/
def supplied (field : IncidentField) (data : List (IncidentField × Option FieldValue)) :
    Option FieldValue :=
  (data.find? fun entry => entry.1 = field).bind (·.2)

theorem supplied_cons_self (field : IncidentField) (value : Option FieldValue)
    (data : List (IncidentField × Option FieldValue)) :
    supplied field ((field, value) :: data) = value := by
  simp [supplied]

theorem supplied_cons_of_ne {field other : IncidentField} (h : other ≠ field)
    (value : Option FieldValue) (data : List (IncidentField × Option FieldValue)) :
    supplied field ((other, value) :: data) = supplied field data := by
  simp [supplied, h]

theorem supplied_eq_none {field : IncidentField} {data : List (IncidentField × Option FieldValue)}
    (h : field ∉ data.map (·.1)) : supplied field data = none := by
  induction data with
  | nil => rfl
  | cons entry data ih =>
      rw [List.map_cons, List.mem_cons, not_or] at h
      rw [supplied_cons_of_ne (Ne.symm h.1), ih h.2]

theorem supplied_eq_some_iff {field : IncidentField} {value : FieldValue}
    {data : List (IncidentField × Option FieldValue)} (hnodup : (data.map (·.1)).Nodup) :
    supplied field data = some value ↔ (field, some value) ∈ data := by
  induction data with
  | nil => simp [supplied]
  | cons entry data ih =>
      obtain ⟨other, given⟩ := entry
      rw [List.map_cons, List.nodup_cons] at hnodup
      by_cases h : other = field
      · subst h
        have hnot : (other, some value) ∉ data := fun hmem =>
          hnodup.1 (List.mem_map_of_mem (f := (·.1)) hmem)
        rw [supplied_cons_self, List.mem_cons, or_iff_left hnot, Prod.mk.injEq]
        exact ⟨fun heq => ⟨rfl, heq.symm⟩, fun heq => heq.2.symm⟩
      · have hne : (field, some value) ≠ (other, given) := fun heq =>
          h (congrArg Prod.fst heq).symm
        rw [supplied_cons_of_ne h, ih hnodup.2, List.mem_cons, or_iff_right hne]

/-- With the right values a field keeps its history. -/
theorem fieldResult_iff {first : Option String} {old : Option FieldValue}
    (given : Option FieldValue) {entries : List (Option String × Option String)}
    (h : Replays first entries (old.map FieldValue.oldStr)) :
    ((∀ value, given = some value → (fieldResult old given).1 = some value) ∧
      Replays first (entries ++ (fieldResult old given).2)
        ((fieldResult old given).1.map FieldValue.oldStr)) ↔
    ∀ value, given = some value →
      (∃ text, value = .text text) ∧ ∀ repr, old = some (.dict repr) → value ≠ .text repr := by
  cases given with
  | none => simpa [fieldResult] using h
  | some value =>
      simp only [Option.some.injEq, forall_eq', fieldResult]
      cases value with
      | text text =>
          rw [FieldValue.newStr]
          by_cases hsame : old.map FieldValue.oldStr = some text
          · -- nothing is written: right if the field holds the text, wrong if it holds a
            -- dictionary with this text form
            rw [if_neg (not_not.mpr hsame), List.append_nil, and_iff_left h]
            obtain ⟨held, rfl, hheld⟩ := Option.map_eq_some_iff.mp hsame
            cases held with
            | text held =>
                rw [FieldValue.oldStr] at hheld
                subst hheld
                exact iff_of_true rfl ⟨⟨_, rfl⟩, fun repr heq => by cases heq⟩
            | dict repr =>
                refine iff_of_false (fun heq => by cases heq) fun hright => ?_
                exact hright.2 repr rfl (congrArg FieldValue.text hheld.symm)
          · rw [if_pos hsame]
            refine iff_of_true ⟨rfl, replays_append_singleton.mpr ⟨h, hsame, rfl⟩⟩
              ⟨⟨text, rfl⟩, ?_⟩
            rintro repr rfl heq
            cases heq
            exact hsame rfl
      | dict repr =>
          refine iff_of_false ?_ fun hright => by cases hright.1.choose_spec
          rw [FieldValue.newStr]
          rintro ⟨hstored, hreplays⟩
          by_cases hsame : old.map FieldValue.oldStr = none
          · rw [if_neg (not_not.mpr hsame)] at hstored
            rw [Option.map_eq_none_iff.mp hsame] at hstored
            cases hstored
          · rw [if_pos hsame, replays_append_singleton] at hreplays
            cases hreplays.2.2

/-! ## One call -/

theorem getattr_setattr_self (incident : Incident) (value : FieldValue) (field : IncidentField) :
    (incident.setattr value field).getattr field = some value := by
  cases field <;> rfl

theorem getattr_setattr_of_ne {field other : IncidentField} (h : other ≠ field)
    (incident : Incident) (value : FieldValue) :
    (incident.setattr value other).getattr field = incident.getattr field := by
  cases field <;> cases other <;> first | rfl | exact absurd rfl h

@[simp] theorem id_setattr (incident : Incident) (value : FieldValue) (field : IncidentField) :
    (incident.setattr value field).id = incident.id := by
  cases field <;> rfl

namespace Database

variable (db : Database)

theorem getIncident_update (id id' : String) (field : IncidentField) (value : FieldValue) :
    (db.apply (.update id field value)).getIncident id' =
      (db.getIncident id').map fun incident =>
        if incident.id = id then incident.setattr value field else incident := by
  unfold getIncident apply
  rw [List.find?_map]
  congr 2
  funext incident
  dsimp only [Function.comp]
  split
  · rw [id_setattr]
  · rfl

theorem id_of_getIncident {id : String} {incident : Incident}
    (h : db.getIncident id = some incident) : incident.id = id := by
  have hfound := List.find?_some (p := fun incident : Incident => incident.id == id) h
  exact beq_iff_eq.mp hfound

theorem entries_history (row : IncidentHistory) (id : String) (field : IncidentField) :
    (db.apply (.history row)).entries id field =
      db.entries id field ++
        if row.incidentId = id ∧ row.field = field then [(row.oldValue, row.newValue)] else [] := by
  unfold entries apply
  rw [List.filter_append, List.map_append]
  congr 1
  by_cases h : row.incidentId = id ∧ row.field = field
  · simp [h]
  · simp [h]

end Database

/-- What a call on an incident does to the database, field by field. -/
structure CallEffect (incident : Incident) (data : List (IncidentField × Option FieldValue))
    (db db' : Database) : Prop where
  values : ∃ after, db'.getIncident incident.id = some after ∧ ∀ field,
    after.getattr field = (fieldResult (incident.getattr field) (supplied field data)).1
  entries : ∀ field, db'.entries incident.id field =
    db.entries incident.id field ++ (fieldResult (incident.getattr field) (supplied field data)).2
  others : ∀ id, id ≠ incident.id → db'.getIncident id = db.getIncident id ∧
    ∀ field, db'.entries id field = db.entries id field

/-- A field that is written, and then the rest. -/
theorem CallEffect.cons_changed (caller : Caller) {incident : Incident} {field : IncidentField}
    {value : FieldValue} {data : List (IncidentField × Option FieldValue)} {db db' : Database}
    (hfield : field ∉ data.map (·.1))
    (hne : (incident.getattr field).map FieldValue.oldStr ≠ value.newStr)
    (heffect : CallEffect (incident.setattr value field) data
      ((db.apply (.update incident.id field value)).apply (.history
        { incidentId := incident.id, actorId := caller.actorId, field := field,
          oldValue := (incident.getattr field).map FieldValue.oldStr, newValue := value.newStr,
          createdAt := caller.now })) db') :
    CallEffect incident ((field, some value) :: data) db db' := by
  have hresult : ∀ other, fieldResult ((incident.setattr value field).getattr other)
      (supplied other data) =
        if other = field then (some value, []) else
          fieldResult (incident.getattr other) (supplied other ((field, some value) :: data)) := by
    intro other
    by_cases heq : other = field
    · rw [if_pos heq, heq, getattr_setattr_self, supplied_eq_none hfield, fieldResult]
    · rw [if_neg heq, getattr_setattr_of_ne (Ne.symm heq), supplied_cons_of_ne (Ne.symm heq)]
  obtain ⟨⟨after, hafter, hvalues⟩, hentries, hothers⟩ := heffect
  rw [id_setattr] at hafter hothers
  refine ⟨⟨after, hafter, fun other => ?_⟩, fun other => ?_, fun id hid => ?_⟩
  · rw [hvalues, hresult]
    by_cases heq : other = field
    · rw [if_pos heq, heq, supplied_cons_self, fieldResult, if_pos hne]
    · rw [if_neg heq]
  · have hother := hentries other
    rw [id_setattr, Database.entries_history, hresult] at hother
    rw [hother]
    by_cases heq : other = field
    · rw [if_pos heq, if_pos ⟨rfl, heq.symm⟩, List.append_nil, heq, supplied_cons_self, fieldResult,
        if_pos hne]
      rfl
    · rw [if_neg heq, if_neg fun hnot => heq hnot.2.symm, List.append_nil]
      rfl
  · obtain ⟨hget, hrest⟩ := hothers id hid
    constructor
    · rw [hget]
      have hupdate := db.getIncident_update incident.id id field value
      cases hfound : db.getIncident id with
      | none =>
          rw [hfound] at hupdate
          exact hupdate
      | some found =>
          rw [hfound, Option.map_some, if_neg] at hupdate
          · exact hupdate
          · rw [Database.id_of_getIncident db hfound]
            exact hid
    · intro other
      rw [hrest, Database.entries_history, if_neg fun hnot => hid hnot.1.symm, List.append_nil]
      rfl

theorem callEffect_fieldChanges (caller : Caller) (incident : Incident)
    (data : List (IncidentField × Option FieldValue)) (hnodup : (data.map (·.1)).Nodup)
    (db : Database) (h : db.getIncident incident.id = some incident) :
    CallEffect incident data db (db.applyAll (fieldChanges caller incident data)) := by
  induction data generalizing incident db with
  | nil =>
      exact ⟨⟨incident, h, fun _ => rfl⟩, fun _ => (List.append_nil _).symm,
        fun _ _ => ⟨rfl, fun _ => rfl⟩⟩
  | cons entry data ih =>
      obtain ⟨field, given⟩ := entry
      rw [List.map_cons, List.nodup_cons] at hnodup
      -- a field that is not written is as if it had not been supplied
      have hskip : (fieldResult (incident.getattr field) given = (incident.getattr field, [])) →
          ∀ other, fieldResult (incident.getattr other) (supplied other ((field, given) :: data)) =
            fieldResult (incident.getattr other) (supplied other data) := by
        intro hsame other
        by_cases heq : field = other
        · subst heq
          rw [supplied_cons_self, hsame, supplied_eq_none hnodup.1, fieldResult]
        · rw [supplied_cons_of_ne heq]
      have hunchanged : (fieldResult (incident.getattr field) given =
          (incident.getattr field, [])) →
          CallEffect incident ((field, given) :: data) db
            (db.applyAll (fieldChanges caller incident data)) := by
        intro hsame
        obtain ⟨⟨after, hafter, hvalues⟩, hentries, hothers⟩ := ih incident hnodup.2 db h
        exact ⟨⟨after, hafter, fun other => (hskip hsame other) ▸ hvalues other⟩,
          fun other => (hskip hsame other) ▸ hentries other, hothers⟩
      cases given with
      | none => exact hunchanged rfl
      | some value =>
          by_cases hne : (incident.getattr field).map FieldValue.oldStr ≠ value.newStr
          · simp only [fieldChanges, if_pos hne, Database.applyAll, List.foldl_cons]
            refine CallEffect.cons_changed caller hnodup.1 hne ?_
            refine ih (incident.setattr value field) hnodup.2 _ ?_
            have hupdate := db.getIncident_update incident.id incident.id field value
            rw [h, Option.map_some, if_pos rfl] at hupdate
            rw [id_setattr]
            exact hupdate
          · simp only [fieldChanges, if_neg hne]
            exact hunchanged (by rw [fieldResult, if_neg hne])

/-- What the request commits: the changes and their audit entry, or nothing. -/
theorem committed_cases (call : UpdateCall) (db : Database) :
    (∃ incident, db.getIncident call.incidentId = some incident ∧ ∃ row,
      call.committed db = fieldChanges call.caller incident call.data.entries ++ [.audit row]) ∨
    call.committed db = [] ∧
      (db.getIncident call.incidentId = none ∨ call.data.entries = []) := by
  unfold UpdateCall.committed
  cases hfound : db.getIncident call.incidentId with
  | none =>
      exact Or.inr ⟨(select_raise .notFound none).2, Or.inl rfl⟩
  | some incident =>
      cases hentries : call.data.entries with
      | nil =>
          exact Or.inr ⟨(select_raise (.badRequest "No fields to update") none).2, Or.inr rfl⟩
      | cons entry data =>
          have hclear : (fresh none).Clear (1 + (2 + 1) + 1) := fun _ _ _ h => by cases h
          exact Or.inl ⟨incident, rfl, _, ((select_work_commit
            ((stages_updateIncident call.caller incident (entry :: data)).seq
              (stages_createAuditEntry _)) none).1 hclear).2⟩

/-- A request that changes nothing has nothing to store, or one that does has the effect of
its call. -/
theorem step_effect (call : UpdateCall) (db : Database) :
    (∃ incident, db.getIncident call.incidentId = some incident ∧
      CallEffect incident call.data.entries db (db.applyAll (call.committed db))) ∨
    db.applyAll (call.committed db) = db ∧
      (db.getIncident call.incidentId = none ∨ call.data.entries = []) := by
  obtain ⟨incident, hfound, row, hcommitted⟩ | ⟨hcommitted, hnothing⟩ := committed_cases call db
  · refine Or.inl ⟨incident, hfound, ?_⟩
    have hid := db.id_of_getIncident hfound
    have heffect := callEffect_fieldChanges call.caller incident call.data.entries call.data.nodup
      db (hid ▸ hfound)
    -- the audit entry is in a table of its own
    rw [hcommitted, Database.applyAll, List.foldl_append]
    exact ⟨heffect.values, heffect.entries, heffect.others⟩
  · exact Or.inr ⟨by rw [hcommitted]; rfl, hnothing⟩

/-! ## Sequences of calls -/

/-- No call adds or removes an incident. -/
def SameIncidents (s : Updates) : Prop :=
  ∀ id, (s.db.getIncident id).isSome = (s.initial.getIncident id).isSome

variable {s s' : Updates} {call : UpdateCall}

theorem sameIncidents_step (hs : SameIncidents s) (h : updates.step s call = some s') :
    SameIncidents s' := by
  cases h
  intro id
  show ((s.db.applyAll (call.committed s.db)).getIncident id).isSome = _
  rw [← hs id]
  obtain ⟨incident, hfound, heffect⟩ | ⟨hsame, -⟩ := step_effect call s.db
  · have hid := s.db.id_of_getIncident hfound
    by_cases heq : id = incident.id
    · obtain ⟨after, hafter, -⟩ := heffect.values
      rw [heq, hafter, hid, hfound]
      rfl
    · rw [(heffect.others id heq).1]
  · rw [hsame]

/-- The state after the call. -/
def Updates.next (s : Updates) (call : UpdateCall) : Updates :=
  { s with db := s.db.applyAll (call.committed s.db), last := some call }

theorem recorded_unchanged (hs : Recorded s)
    (hunchanged : s.db.applyAll (call.committed s.db) = s.db)
    (hnothing : s.db.getIncident call.incidentId = none ∨ call.data.entries = []) :
    Recorded (s.next call) ↔ SuppliesText s call := by
  have hvacuous : ∀ incident, s.db.getIncident call.incidentId = some incident →
      ∀ field value, ¬ call.Supplies field value := by
    intro incident hfound field value hsupplies
    rcases hnothing with hnone | hempty
    · rw [hnone] at hfound
      cases hfound
    · rw [UpdateCall.Supplies, hempty] at hsupplies
      cases hsupplies
  refine iff_of_true ⟨?_, ?_⟩ fun incident hfound field value hsupplies =>
    absurd hsupplies (hvacuous incident hfound field value)
  · rintro call' ⟨⟩ found hfound field value hsupplies
    rw [Updates.next, hunchanged] at hfound
    exact absurd hsupplies (hvacuous found hfound field value)
  · rw [Updates.next, hunchanged]
    exact hs.replays

/-- The call changes one incident; field by field, it is what `fieldResult` says. -/
theorem recorded_effect {incident before : Incident} (hs : Recorded s)
    (hfound : s.db.getIncident call.incidentId = some incident)
    (hbefore : s.initial.getIncident call.incidentId = some before)
    (heffect : CallEffect incident call.data.entries s.db (s.db.applyAll (call.committed s.db))) :
    Recorded (s.next call) ↔ SuppliesText s call := by
  have hid := s.db.id_of_getIncident hfound
  obtain ⟨⟨after, hafter, hvalues⟩, hentries, hothers⟩ := heffect
  rw [hid] at hafter hentries hothers
  have hgiven : ∀ {field value}, supplied field call.data.entries = some value ↔
      call.Supplies field value := supplied_eq_some_iff call.data.nodup
  have hfields : ∀ field, _ := fun field =>
    fieldResult_iff (supplied field call.data.entries)
      (hs.replays call.incidentId before incident hbefore hfound field)
  simp only [← hvalues, ← hentries, hgiven] at hfields
  constructor
  · intro hrecorded found hfound' field value hsupplies
    rw [hfound, Option.some.injEq] at hfound'
    subst hfound'
    exact (hfields field).mp ⟨hrecorded.stored call rfl after hafter field,
      hrecorded.replays call.incidentId before after hbefore hafter field⟩ value hsupplies
  · intro htext
    have hall := fun field => (hfields field).mpr (htext incident hfound field)
    refine ⟨?_, fun id first now hfirst hnow field => ?_⟩
    · rintro call' ⟨⟩ found hfound' field
      have hsome : some after = some found := hafter.symm.trans hfound'
      rw [← Option.some.inj hsome]
      exact (hall field).1
    · by_cases heq : id = call.incidentId
      · subst heq
        have hsome : some after = some now := hafter.symm.trans hnow
        have hsame : some before = some first := hbefore.symm.trans hfirst
        rw [← Option.some.inj hsome, ← Option.some.inj hsame]
        exact (hall field).2
      · obtain ⟨hget, hrest⟩ := hothers id heq
        have hreplays := hs.replays id first now hfirst (hget ▸ hnow) field
        rw [← hrest] at hreplays
        exact hreplays

theorem recorded_step_iff (hsame : SameIncidents s) (hs : Recorded s)
    (h : updates.step s call = some s') : Recorded s' ↔ SuppliesText s call := by
  have hnext : s.next call = s' := Option.some.inj h
  rw [← hnext]
  obtain ⟨incident, hfound, heffect⟩ | ⟨hunchanged, hnothing⟩ := step_effect call s.db
  · obtain ⟨before, hbefore⟩ : ∃ before, s.initial.getIncident call.incidentId = some before := by
      rw [← Option.isSome_iff_exists, ← hsame, hfound]
      rfl
    exact recorded_effect hs hfound hbefore heffect
  · exact recorded_unchanged hs hunchanged hnothing

theorem recorded_init (h : updates.init s) : SameIncidents s ∧ Recorded s := by
  obtain ⟨hdb, hlast, hhistory⟩ := h
  refine ⟨fun id => by rw [hdb], ⟨fun call hcall => ?_, fun id before now hbefore hnow field => ?_⟩⟩
  · rw [hlast] at hcall
    cases hcall
  · rw [hdb, hbefore, Option.some.injEq] at hnow
    rw [hdb, Database.entries, hhistory, hnow]
    rfl

/-- Along a sequence of calls what is supplied is stored, and the history replays, exactly
when every call supplies text only. -/
theorem recorded_iff {calls : List UpdateCall} (hinit : updates.init s)
    (hrun : updates.run s calls = some s') :
    updates.Always Recorded s calls ↔ updates.RunOk SuppliesText s calls := by
  obtain ⟨hsame, hrecorded⟩ := recorded_init hinit
  exact TSys.always_iff_runOk (I := SameIncidents)
    (fun _ _ _ hsame _ hstep _ => sameIncidents_step hsame hstep)
    (fun _ _ _ hsame hs hstep => recorded_step_iff hsame hs hstep) hsame hrecorded hrun

/-! ## Calls with text and with a dictionary -/

/-- `SuppliesText` as a test. -/
def suppliesText (s : Updates) (call : UpdateCall) : Bool :=
  (s.db.getIncident call.incidentId).all fun incident =>
    call.data.entries.all fun (field, given) =>
      match given with
      | none => true
      | some (.text text) => decide (incident.getattr field ≠ some (.dict text))
      | some (.dict _) => false

theorem suppliesText_of_test (s : Updates) (call : UpdateCall) (h : suppliesText s call = true) :
    SuppliesText s call := by
  intro incident hfound field value hsupplies
  rw [suppliesText, hfound, Option.all_some, List.all_eq_true] at h
  have hvalue := h (field, some value) hsupplies
  cases value with
  | text text =>
      refine ⟨⟨text, rfl⟩, ?_⟩
      rintro repr hheld ⟨⟩
      exact absurd hheld (of_decide_eq_true hvalue)
  | dict repr => cases hvalue

/-- A status after another, the second one twice. -/
def statusCalls : List UpdateCall :=
  [⟨Api.sampleCaller, [(.status, some (.text "in_progress"))], by decide⟩,
    ⟨Api.sampleCaller, [(.status, some (.text "resolved")), (.severity, none)], by decide⟩,
    ⟨Api.sampleCaller, [(.status, some (.text "resolved"))], by decide⟩]

/-- An incident without history. -/
def sampleUpdates : Updates where
  initial := { incidents := [Api.sampleIncident] }
  db := { incidents := [Api.sampleIncident] }

theorem recorded_statusCalls : updates.Always Recorded sampleUpdates statusCalls := by
  have hrun : ∃ s', updates.run sampleUpdates statusCalls = some s' := ⟨_, rfl⟩
  obtain ⟨s', hrun⟩ := hrun
  exact (recorded_iff ⟨rfl, rfl, rfl⟩ hrun).mpr
    (TSys.runOk_of_runAll suppliesText_of_test (by decide +kernel))

/-- The first custom attributes of an incident. -/
def attributesCall : UpdateCall :=
  ⟨Api.sampleCaller, [(.customAttributes, some (.dict "\x7b'case': '17'\x7d"))], by decide⟩

/-- They are not stored. -/
theorem not_recorded_attributes :
    ¬ ∀ (s s' : Updates) (calls : List UpdateCall), updates.init s →
        updates.run s calls = some s' → updates.Always Recorded s calls := by
  intro hclaim
  have hrun : ∃ s', updates.run sampleUpdates [attributesCall] = some s' ∧
      s'.last = some attributesCall ∧
      s'.db.getIncident "i1" = some Api.sampleIncident := ⟨_, rfl, rfl, by decide +kernel⟩
  obtain ⟨s', hrun, hlast, hfound⟩ := hrun
  have hrecorded := hclaim sampleUpdates s' _ ⟨rfl, rfl, rfl⟩ hrun _ (List.prefix_refl _) s' hrun
  have hstored := hrecorded.stored attributesCall hlast Api.sampleIncident hfound .customAttributes
    (.dict "\x7b'case': '17'\x7d") List.mem_cons_self
  cases hstored

end AkesoDlp.Server.Incidents
