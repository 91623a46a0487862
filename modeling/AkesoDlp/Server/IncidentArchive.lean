import AkesoDlp.Server.CommandQueue
import Mathlib.Data.List.Nodup

/-!
# Archiving old incidents

`archive_old_incidents` of `services/db_maintenance.py` on the tables it
touches. The copy into `incidents_archive` leaves out the ids that are there
already; the deletion from `incidents` does not ask, and the notes and the
history of a deleted incident go with it. Any statement may fail; the open
transaction is then rolled back.
-/

namespace AkesoDlp.Server.IncidentArchive

/-- A row of `incidents` or `incidents_archive`; `ν` is what its other columns
hold. Times are in microseconds from the first of January of the year 1. -/
@[ext] structure Incident (ν : Type*) where
  id : Uuid
  createdAt : Int
  columns : ν

/-- A row of `incident_notes`. -/
structure IncidentNote where
  id : Uuid
  incidentId : Uuid
  authorId : Option Uuid
  content : String
deriving DecidableEq, Repr

/-- A row of `incident_history`. -/
structure IncidentHistory where
  id : Uuid
  incidentId : Uuid
  actorId : Option Uuid
  field : String
  oldValue : Option String
  newValue : Option String
  createdAt : String
deriving DecidableEq, Repr

variable {ν δ : Type*}

def ids (rows : List (Incident ν)) : List Uuid := rows.map fun row => row.id

/-- The tables with their primary and foreign keys. `archive` is missing until
it has been created. -/
structure IncidentDb (ν : Type*) where
  live : List (Incident ν)
  archive : Option (List (Incident ν))
  notes : List IncidentNote
  history : List IncidentHistory
  live_nodup : (ids live).Nodup
  archive_nodup : ∀ rows ∈ archive, (ids rows).Nodup
  notes_live : ∀ note ∈ notes, note.incidentId ∈ ids live
  history_live : ∀ entry ∈ history, entry.incidentId ∈ ids live

/-- The archived rows. -/
def IncidentDb.archived (db : IncidentDb ν) : List (Incident ν) := db.archive.getD []

/-! ## The statements -/

/-- `WHERE created_at < :cutoff`. -/
def older (cutoff : Int) (rows : List (Incident ν)) : List (Incident ν) :=
  rows.filter fun row => row.createdAt < cutoff

def recent (cutoff : Int) (rows : List (Incident ν)) : List (Incident ν) :=
  rows.filter fun row => !decide (row.createdAt < cutoff)

/-- The rows that the INSERT selects. -/
def copied (cutoff : Int) (live archive : List (Incident ν)) : List (Incident ν) :=
  live.filter fun row => row.createdAt < cutoff && !decide (row.id ∈ ids archive)

/-- `ON DELETE CASCADE`: the rows whose incident is still there. -/
def cascade (incidentId : δ → Uuid) (deleted : List (Incident ν)) (rows : List δ) : List δ :=
  rows.filter fun row => !decide (incidentId row ∈ ids deleted)

theorem mem_ids {rows : List (Incident ν)} {id : Uuid} :
    id ∈ ids rows ↔ ∃ row ∈ rows, row.id = id := List.mem_map

theorem nodup_ids_filter {rows : List (Incident ν)} (h : (ids rows).Nodup)
    (p : Incident ν → Bool) : (ids (rows.filter p)).Nodup :=
  h.sublist (List.filter_sublist.map _)

theorem nodup_ids_append_copied {cutoff : Int} {live archive : List (Incident ν)}
    (hlive : (ids live).Nodup) (harchive : (ids archive).Nodup) :
    (ids (archive ++ copied cutoff live archive)).Nodup := by
  rw [ids, List.map_append]
  refine List.nodup_append.mpr ⟨harchive, nodup_ids_filter hlive _, ?_⟩
  rintro id hold _ hnew rfl
  obtain ⟨row, hrow, hid⟩ := List.mem_map.mp hnew
  have htest := (List.mem_filter.mp hrow).2
  simp only [Bool.and_eq_true, Bool.not_eq_true', decide_eq_false_iff_not] at htest
  exact htest.2 (hid ▸ hold)

/-- What refers to a live incident and is not cascaded refers to one that stays. -/
theorem mem_ids_recent_of_cascade {cutoff : Int} {live : List (Incident ν)}
    {incidentId : δ → Uuid} {rows : List δ} (h : ∀ row ∈ rows, incidentId row ∈ ids live) :
    ∀ row ∈ cascade incidentId (older cutoff live) rows,
      incidentId row ∈ ids (recent cutoff live) := by
  intro row hrow
  obtain ⟨hmem, hkept⟩ := List.mem_filter.mp hrow
  simp only [Bool.not_eq_true', decide_eq_false_iff_not] at hkept
  obtain ⟨incident, hincident, hid⟩ := mem_ids.mp (h row hmem)
  refine mem_ids.mpr ⟨incident, List.mem_filter.mpr ⟨hincident, ?_⟩, hid⟩
  simp only [Bool.not_eq_true', decide_eq_false_iff_not]
  intro hold
  exact hkept (mem_ids.mpr ⟨incident, List.mem_filter.mpr ⟨hincident, decide_eq_true hold⟩, hid⟩)

/-- `CREATE TABLE IF NOT EXISTS incidents_archive`. -/
def IncidentDb.createArchive (db : IncidentDb ν) : IncidentDb ν :=
  { db with
    archive := some db.archived
    archive_nodup := by
      intro rows hrows
      cases harchive : db.archive with
      | none =>
          rw [IncidentDb.archived, harchive, Option.mem_some_iff] at hrows
          rw [← hrows]
          exact List.nodup_nil
      | some archive =>
          rw [IncidentDb.archived, harchive, Option.mem_some_iff] at hrows
          exact hrows ▸ db.archive_nodup archive harchive }

/-- The INSERT, on an archive that exists. -/
def IncidentDb.copyOld (db : IncidentDb ν) (cutoff : Int) (archive : List (Incident ν))
    (h : db.archive = some archive) : IncidentDb ν :=
  { db with
    archive := some (archive ++ copied cutoff db.live archive)
    archive_nodup := by
      intro rows hrows
      rw [← Option.mem_some_iff.mp hrows]
      exact nodup_ids_append_copied db.live_nodup (db.archive_nodup archive h) }

/-- The DELETE. -/
def IncidentDb.deleteOld (db : IncidentDb ν) (cutoff : Int) : IncidentDb ν :=
  { db with
    live := recent cutoff db.live
    notes := cascade IncidentNote.incidentId (older cutoff db.live) db.notes
    history := cascade IncidentHistory.incidentId (older cutoff db.live) db.history
    live_nodup := nodup_ids_filter db.live_nodup _
    notes_live := mem_ids_recent_of_cascade db.notes_live
    history_live := mem_ids_recent_of_cascade db.history_live }

/-! ## The function -/

/-- `datetime.now(timezone.utc) - timedelta(days=retention_days)`, which raises
when the number of days or the result is out of range. -/
def cutoffOf (now retentionDays : Int) : Option Int :=
  let cutoff := now - retentionDays * 86400000000
  if -999999999 ≤ retentionDays ∧ retentionDays ≤ 999999999 ∧
      0 ≤ cutoff ∧ cutoff < 3652059 * 86400000000 then some cutoff else none

inductive Statement
  | create
  | createCommit
  | insert
  | count
  | delete
  | commit
deriving DecidableEq, Repr

/-- How a call ends: it raises, it logs an error and returns 0, or it returns
the number of incidents it archived. -/
inductive Ending
  | overflow
  | rolledBack
  | archived (count : Nat)
deriving DecidableEq, Repr

structure ArchiveResult (ν : Type*) where
  db : IncidentDb ν
  ending : Ending

/-- The first transaction: the archive exists afterwards unless it fails. -/
def ensureArchive (fails : Statement → Bool) (db : IncidentDb ν) : IncidentDb ν :=
  if fails .create || fails .createCommit then db else db.createArchive

/-- The second transaction, `none` where one of its statements fails. -/
def moveOld (fails : Statement → Bool) (cutoff : Int) (db : IncidentDb ν) :
    Option (IncidentDb ν × Nat) :=
  match h : db.archive with
  | none => none
  | some archive =>
      if fails .insert || fails .count then none
      else
        let db := db.copyOld cutoff archive h
        let count := (older cutoff db.live).length
        if count > 0 then
          if fails .delete || fails .commit then none else some (db.deleteOld cutoff, count)
        else if fails .commit then none else some (db, count)

/-- `archive_old_incidents`. -/
def archiveOldIncidents (fails : Statement → Bool) (now retentionDays : Int)
    (db : IncidentDb ν) : ArchiveResult ν :=
  match cutoffOf now retentionDays with
  | none => ⟨db, .overflow⟩
  | some cutoff =>
      let db := ensureArchive fails db
      match moveOld fails cutoff db with
      | none => ⟨db, .rolledBack⟩
      | some (db', count) => ⟨db', .archived count⟩

/-! ## The law -/

/-- The incidents are the same ones, those that left the live table are the old
ones that the archive holds unchanged, and what refers to archived ones is kept. -/
structure Conserved (cutoff : Int) (db db' : IncidentDb ν) : Prop where
  union : ∀ row, row ∈ db'.live ∨ row ∈ db'.archived ↔ row ∈ db.live ∨ row ∈ db.archived
  removed : ∀ row, row ∈ db'.live ↔
    row ∈ db.live ∧ ¬ (row.createdAt < cutoff ∧ row ∈ db'.archived)
  notes : ∀ note ∈ db.notes, note.incidentId ∈ ids db'.archived → note ∈ db'.notes
  history : ∀ entry ∈ db.history, entry.incidentId ∈ ids db'.archived → entry ∈ db'.history

structure Unchanged (db db' : IncidentDb ν) : Prop where
  live : db'.live = db.live
  archived : db'.archived = db.archived
  notes : db'.notes = db.notes
  history : db'.history = db.history

/-- What a call has to leave behind. -/
def Conserves (now retentionDays : Int) (db : IncidentDb ν) (r : ArchiveResult ν) : Prop :=
  match r.ending with
  | .archived _ => ∀ cutoff ∈ cutoffOf now retentionDays, Conserved cutoff db r.db
  | _ => Unchanged db r.db

/-- A statement that the call reaches fails. -/
def Stops (fails : Statement → Bool) (cutoff : Int) (db : IncidentDb ν) : Prop :=
  (db.archive = none ∧ (fails .create ∨ fails .createCommit)) ∨ fails .insert ∨ fails .count ∨
    (older cutoff db.live ≠ [] ∧ fails .delete) ∨ fails .commit

/-- Every old incident whose id is archived is archived as it is, and no note or
history entry belongs to an old incident. -/
structure NothingLost (cutoff : Int) (db : IncidentDb ν) : Prop where
  same : ∀ row ∈ older cutoff db.live, row.id ∈ ids db.archived → row ∈ db.archived
  notes : ∀ note ∈ db.notes, note.incidentId ∉ ids (older cutoff db.live)
  history : ∀ entry ∈ db.history, entry.incidentId ∉ ids (older cutoff db.live)

variable {fails : Statement → Bool} {cutoff : Int} {db db' : IncidentDb ν}

theorem unchanged_ensureArchive : Unchanged db (ensureArchive fails db) := by
  unfold ensureArchive
  split
  · exact ⟨rfl, rfl, rfl, rfl⟩
  · exact ⟨rfl, rfl, rfl, rfl⟩

theorem ensureArchive_archive_eq_none :
    (ensureArchive fails db).archive = none ↔
      db.archive = none ∧ (fails .create ∨ fails .createCommit) := by
  unfold ensureArchive
  split
  · next h =>
      rw [Bool.or_eq_true] at h
      exact (and_iff_left h).symm
  · next h =>
      rw [Bool.or_eq_true] at h
      exact iff_of_false (Option.some_ne_none _) fun hnone => h hnone.2

theorem recent_of_older_eq_nil {rows : List (Incident ν)} (h : older cutoff rows = []) :
    recent cutoff rows = rows := by
  apply List.filter_eq_self.mpr
  intro row hrow
  have hnot := List.filter_eq_nil_iff.mp h row hrow
  simpa using hnot

theorem cascade_nil (incidentId : δ → Uuid) (rows : List δ) :
    cascade (ν := ν) incidentId [] rows = rows := by
  simp [cascade, ids]

/-- What the second transaction has done when it is committed. -/
structure Moved (cutoff : Int) (db db' : IncidentDb ν) : Prop where
  live : db'.live = recent cutoff db.live
  archived : db'.archived = db.archived ++ copied cutoff db.live db.archived
  notes : db'.notes = cascade IncidentNote.incidentId (older cutoff db.live) db.notes
  history : db'.history = cascade IncidentHistory.incidentId (older cutoff db.live) db.history

/-- The second transaction is rolled back exactly when a statement fails that it
reaches. -/
theorem moveOld_eq_none_iff {fails : Statement → Bool} {cutoff : Int} {db : IncidentDb ν} :
    moveOld fails cutoff db = none ↔
      db.archive = none ∨ fails .insert ∨ fails .count ∨
        (older cutoff db.live ≠ [] ∧ fails .delete) ∨ fails .commit := by
  unfold moveOld
  split
  · next hnone => exact iff_of_true rfl (.inl hnone)
  · next archive harchive =>
      have hexists : db.archive ≠ none := by
        rw [harchive]
        exact Option.some_ne_none _
      have hcount : (older cutoff db.live).length > 0 ↔ older cutoff db.live ≠ [] :=
        List.length_pos_iff
      have hlive : (db.copyOld cutoff archive harchive).live = db.live := rfl
      have hnone : ∀ (failed : Bool) (result : IncidentDb ν × Nat),
          (if failed = true then none else some result) = none ↔ failed = true := by
        intro failed result
        cases failed <;> simp
      simp only [hlive, hcount, hexists, false_or]
      by_cases hstart : (fails .insert || fails .count) = true
      · rw [if_pos hstart, ← or_assoc, ← Bool.or_eq_true]
        exact iff_of_true rfl (.inl hstart)
      · rw [if_neg hstart, ← or_assoc, ← Bool.or_eq_true, or_iff_right hstart]
        by_cases hsome : older cutoff db.live ≠ []
        · rw [if_pos hsome, and_iff_right hsome, ← Bool.or_eq_true]
          exact hnone _ _
        · rw [if_neg hsome, or_iff_right fun h => hsome h.1]
          exact hnone _ _

/-- Otherwise it moves the old incidents. -/
theorem moved_of_moveOld {fails : Statement → Bool} {cutoff : Int} {db db' : IncidentDb ν}
    {count : Nat} (h : moveOld fails cutoff db = some (db', count)) : Moved cutoff db db' := by
  unfold moveOld at h
  split at h
  · cases h
  · next archive harchive =>
      have harchived : db.archived = archive := by
        rw [IncidentDb.archived, harchive, Option.getD_some]
      split at h
      · cases h
      · simp only at h
        split at h
        · obtain ⟨-, h⟩ := Option.ite_none_left_eq_some.mp h
          cases h
          refine ⟨rfl, ?_, rfl, rfl⟩
          rw [harchived]
          rfl
        · next hcount =>
            have hnil : older cutoff db.live = [] :=
              List.length_eq_zero_iff.mp (Nat.eq_zero_of_not_pos hcount)
            obtain ⟨-, h⟩ := Option.ite_none_left_eq_some.mp h
            cases h
            refine ⟨(recent_of_older_eq_nil hnil).symm, ?_, ?_, ?_⟩
            · rw [harchived]
              rfl
            · rw [hnil, cascade_nil]
              rfl
            · rw [hnil, cascade_nil]
              rfl

theorem mem_older {rows : List (Incident ν)} {row : Incident ν} :
    row ∈ older cutoff rows ↔ row ∈ rows ∧ row.createdAt < cutoff := by
  simp [older, List.mem_filter]

theorem mem_recent {rows : List (Incident ν)} {row : Incident ν} :
    row ∈ recent cutoff rows ↔ row ∈ rows ∧ ¬ row.createdAt < cutoff := by
  simp [recent, List.mem_filter]

theorem mem_copied {live archive : List (Incident ν)} {row : Incident ν} :
    row ∈ copied cutoff live archive ↔ row ∈ older cutoff live ∧ row.id ∉ ids archive := by
  simp [copied, mem_older, List.mem_filter, and_assoc]

theorem mem_cascade {incidentId : δ → Uuid} {deleted : List (Incident ν)} {rows : List δ}
    {row : δ} :
    row ∈ cascade incidentId deleted rows ↔ row ∈ rows ∧ incidentId row ∉ ids deleted := by
  simp [cascade, List.mem_filter]

theorem Moved.mem_archived (m : Moved cutoff db db') {row : Incident ν} :
    row ∈ db'.archived ↔
      row ∈ db.archived ∨ row ∈ older cutoff db.live ∧ row.id ∉ ids db.archived := by
  rw [m.archived, List.mem_append, mem_copied]

/-- The ids of the old incidents are archived, under whatever values. -/
theorem Moved.mem_ids_archived (m : Moved cutoff db db') {id : Uuid}
    (h : id ∈ ids (older cutoff db.live)) : id ∈ ids db'.archived := by
  obtain ⟨row, hrow, rfl⟩ := mem_ids.mp h
  by_cases hid : row.id ∈ ids db.archived
  · obtain ⟨other, hother, heq⟩ := mem_ids.mp hid
    exact mem_ids.mpr ⟨other, m.mem_archived.mpr (.inl hother), heq⟩
  · exact mem_ids.mpr ⟨row, m.mem_archived.mpr (.inr ⟨hrow, hid⟩), rfl⟩

theorem Moved.mem_archived_of_older (m : Moved cutoff db db') (h : NothingLost cutoff db)
    {row : Incident ν} (hrow : row ∈ older cutoff db.live) : row ∈ db'.archived := by
  by_cases hid : row.id ∈ ids db.archived
  · exact m.mem_archived.mpr (.inl (h.same row hrow hid))
  · exact m.mem_archived.mpr (.inr ⟨hrow, hid⟩)

theorem Moved.nothingLost (m : Moved cutoff db db') (h : Conserved cutoff db db') :
    NothingLost cutoff db := by
  constructor
  case same =>
    intro row hrow hid
    obtain ⟨hlive, hold⟩ := mem_older.mp hrow
    have hgone : row ∉ db'.live := by
      rw [m.live, mem_recent]
      exact fun hrecent => hrecent.2 hold
    have harchived : row ∈ db'.archived := by
      by_contra hnot
      exact hgone ((h.removed row).mpr ⟨hlive, fun hboth => hnot hboth.2⟩)
    exact (m.mem_archived.mp harchived).resolve_right fun hnew => hnew.2 hid
  case notes =>
    intro note hnote hin
    have hkept := h.notes note hnote (m.mem_ids_archived hin)
    rw [m.notes, mem_cascade] at hkept
    exact hkept.2 hin
  case history =>
    intro entry hentry hin
    have hkept := h.history entry hentry (m.mem_ids_archived hin)
    rw [m.history, mem_cascade] at hkept
    exact hkept.2 hin

theorem Moved.conserved (m : Moved cutoff db db') (h : NothingLost cutoff db) :
    Conserved cutoff db db' := by
  constructor
  case union =>
    intro row
    rw [m.live, mem_recent]
    constructor
    · rintro (hrecent | harchived)
      · exact .inl hrecent.1
      · exact (m.mem_archived.mp harchived).elim .inr fun hnew => .inl (mem_older.mp hnew.1).1
    · rintro (hlive | harchived)
      · by_cases hold : row.createdAt < cutoff
        · exact .inr (m.mem_archived_of_older h (mem_older.mpr ⟨hlive, hold⟩))
        · exact .inl ⟨hlive, hold⟩
      · exact .inr (m.mem_archived.mpr (.inl harchived))
  case removed =>
    intro row
    rw [m.live, mem_recent]
    refine and_congr_right fun hlive => not_congr ?_
    constructor
    · intro hold
      exact ⟨hold, m.mem_archived_of_older h (mem_older.mpr ⟨hlive, hold⟩)⟩
    · exact And.left
  case notes =>
    intro note hnote _
    rw [m.notes]
    exact mem_cascade.mpr ⟨hnote, h.notes note hnote⟩
  case history =>
    intro entry hentry _
    rw [m.history]
    exact mem_cascade.mpr ⟨hentry, h.history entry hentry⟩

/-- Creating the archive first makes no difference to what is moved. -/
theorem Moved.of_unchanged {start : IncidentDb ν} (m : Moved cutoff start db')
    (h : Unchanged db start) : Moved cutoff db db' := by
  constructor
  · rw [m.live, h.live]
  · rw [m.archived, h.live, h.archived]
  · rw [m.notes, h.live, h.notes]
  · rw [m.history, h.live, h.history]

/-- For every database, retention period and choice of failing statements, the
call conserves the incidents and what refers to them if and only if it stops
before the end or finds nothing that it could lose. -/
theorem archiveOldIncidents_conserves_iff {ν : Type*} (fails : Statement → Bool)
    (now retentionDays : Int) (db : IncidentDb ν) :
    Conserves now retentionDays db (archiveOldIncidents fails now retentionDays db) ↔
      ∀ cutoff ∈ cutoffOf now retentionDays, Stops fails cutoff db ∨ NothingLost cutoff db := by
  unfold archiveOldIncidents
  cases hcutoff : cutoffOf now retentionDays with
  | none => exact iff_of_true ⟨rfl, rfl, rfl, rfl⟩ fun _ h => absurd h (Option.not_mem_none _)
  | some cutoff =>
      have hstart : Unchanged db (ensureArchive fails db) := unchanged_ensureArchive
      have hstops : moveOld fails cutoff (ensureArchive fails db) = none ↔
          Stops fails cutoff db := by
        rw [moveOld_eq_none_iff, ensureArchive_archive_eq_none, hstart.live]
        rfl
      rcases hresult : moveOld fails cutoff (ensureArchive fails db) with _ | ⟨db', count⟩
      · simp only [hresult, Option.mem_some_iff, forall_eq']
        exact iff_of_true hstart (.inl (hstops.mp hresult))
      · have hmoved := (moved_of_moveOld hresult).of_unchanged hstart
        have hrun : ¬ Stops fails cutoff db := by
          rw [← hstops, hresult]
          exact Option.some_ne_none _
        simp only [hresult, Conserves, hcutoff, Option.mem_some_iff, forall_eq']
        constructor
        · intro h
          exact .inr (hmoved.nothingLost h)
        · rintro (hstop | h)
          · exact absurd hstop hrun
          · exact hmoved.conserved h

/-- An old incident with a note. -/
def dbOfOne : IncidentDb Unit where
  live := [⟨1, 0, ()⟩]
  archive := none
  notes := [⟨2, 1, none, "confirmed leak"⟩]
  history := []
  live_nodup := by decide
  archive_nodup := fun _ h => absurd h (Option.not_mem_none _)
  notes_live := by decide
  history_live := by decide

/-- Every statement succeeds, and the note is gone with the incident. -/
theorem note_of_archived_incident_lost :
    ¬ ∀ (fails : Statement → Bool) (now retentionDays : Int) (db : IncidentDb Unit),
      Conserves now retentionDays db (archiveOldIncidents fails now retentionDays db) := by
  intro h
  have hcutoff : cutoffOf 63072000000000 365 = some 31536000000000 := by decide
  have hconserves := h (fun _ => false) 63072000000000 365 dbOfOne
  have hending : ∃ db', archiveOldIncidents (fun _ => false) 63072000000000 365 dbOfOne =
      ⟨db', .archived 1⟩ ∧ db'.notes = [] ∧ ids db'.archived = [1] := ⟨_, rfl, rfl, rfl⟩
  obtain ⟨db', hresult, hnotes, hids⟩ := hending
  rw [hresult] at hconserves
  have hnote := (hconserves _ hcutoff).notes ⟨2, 1, none, "confirmed leak"⟩
    List.mem_cons_self (by
      rw [hids]
      exact List.mem_cons_self)
  rw [hnotes] at hnote
  cases hnote

end AkesoDlp.Server.IncidentArchive
