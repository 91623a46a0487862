import AkesoDlp.Agent.StdString
import AkesoDlp.Lib.Keyed
import Mathlib.Data.List.Sort

/-!
# The agent's incident queue

`incident_queue.cpp` over its SQLite table, with every statement succeeding.
The table is the list of its rows in rowid order with the `AUTOINCREMENT`
counter; its rowids are distinct (`PRIMARY KEY`).

Text goes in through `sqlite3_bind_text(.., s.c_str(), -1, ..)` and comes out
through a `const char*`: both stop at the first NUL.
-/

namespace AkesoDlp.Agent

open Lib

structure QueuedIncident where
  rowid : Int := 0
  hash : StdString := []
  policyName : StdString := []
  severity : StdString := []
  channel : StdString := []
  sourceType : StdString := []
  fileName : StdString := []
  filePath : StdString := []
  user : StdString := []
  sourceIp : StdString := []
  matchCount : Int := 0
  matchedContent : StdString := []
  actionTaken : StdString := []
  queuedAt : Int := 0
  retryCount : Int := 0
deriving DecidableEq, Repr

structure QueueStats where
  totalEnqueued : Int := 0
  totalDrained : Int := 0
  totalEvicted : Int := 0
  totalDuplicates : Int := 0
  currentSize : Int := 0
deriving DecidableEq, Repr

/-- `isOpen` is `db_ != nullptr`; the table is the database file's. -/
structure IncidentQueue where
  maxSize : Int := 10000
  isOpen : Bool := false
  rows : List QueuedIncident := []
  lastRowid : Int := 0
  stats : QueueStats := {}
deriving DecidableEq, Repr

/-- What a call takes from outside: `Sha256`, `NowUnix` and the order in which
SQLite returns the rows of an `ORDER BY queued_at ASC`, which leaves rows with
equal times in any order. -/
structure QueueEnv where
  sha256 : StdString → StdString
  now : Int
  orderBy : List QueuedIncident → List QueuedIncident
  orderBy_perm : ∀ l, (orderBy l).Perm l
  orderBy_sorted : ∀ l, (orderBy l).Pairwise fun a b => a.queuedAt ≤ b.queuedAt

def hexDigit (n : UInt64) : UInt8 :=
  if n < 10 then 48 + n.toUInt8 else 87 + n.toUInt8

/-- The fallback `Sha256` of builds without Windows CNG: DJB2, in 16 hex digits. -/
def djb2 (input : StdString) : StdString :=
  let h := input.foldl (fun (h : UInt64) c => h * 33 + c.toUInt64) 5381
  (List.range 16).map fun i => hexDigit ((h >>> (60 - 4 * i.toUInt64)) &&& 15)

/-- A call at time `now` of a build with the fallback hash, where SQLite returns
rows with equal times in rowid order. -/
def QueueEnv.fallback (now : Int) : QueueEnv where
  sha256 := djb2
  now := now
  orderBy := List.insertionSort fun a b => a.queuedAt ≤ b.queuedAt
  orderBy_perm := List.perm_insertionSort _
  orderBy_sorted := by
    have : Std.Total fun a b : QueuedIncident => a.queuedAt ≤ b.queuedAt :=
      ⟨fun a b => Int.le_total a.queuedAt b.queuedAt⟩
    have : IsTrans QueuedIncident fun a b => a.queuedAt ≤ b.queuedAt :=
      ⟨fun a b c hab hbc => Int.le_trans hab hbc⟩
    exact List.pairwise_insertionSort _

/-! ## Text columns -/

/-- A change to all text fields that a caller sets. -/
def QueuedIncident.mapTexts (f : StdString → StdString) (i : QueuedIncident) : QueuedIncident :=
  { i with
    policyName := f i.policyName
    severity := f i.severity
    channel := f i.channel
    sourceType := f i.sourceType
    fileName := f i.fileName
    filePath := f i.filePath
    user := f i.user
    sourceIp := f i.sourceIp
    matchedContent := f i.matchedContent
    actionTaken := f i.actionTaken }

/-- The fields of a result row, read with `sqlite3_column_text` and its like. -/
def fetch (row : QueuedIncident) : QueuedIncident :=
  { row.mapTexts cStr with hash := cStr row.hash }

/-- `SELECT .. ORDER BY queued_at ASC LIMIT n`: a negative limit is none. -/
def selectOldest (env : QueueEnv) (rows : List QueuedIncident) (limit : Int) :
    List QueuedIncident :=
  if limit < 0 then env.orderBy rows else (env.orderBy rows).take limit.toNat

/-- `DELETE FROM incident_queue WHERE rowid = ?`. -/
def deleteRow (rows : List QueuedIncident) (rowid : Int) : List QueuedIncident :=
  eraseKeys QueuedIncident.rowid [rowid] rows

/-- `UPDATE .. SET retry_count = retry_count + 1 WHERE rowid = ?`, on one row. -/
def bumpRetry (rowid : Int) (row : QueuedIncident) : QueuedIncident :=
  if row.rowid == rowid then { row with retryCount := row.retryCount + 1 } else row

/-! ## The operations -/

/-- The text that `ComputeHash` hashes. -/
def QueuedIncident.blob (i : QueuedIncident) : StdString :=
  i.policyName ++ str "|" ++ i.fileName ++ str "|" ++ i.filePath ++ str "|" ++ i.user ++ str "|" ++
    str (toString i.matchCount) ++ str "|" ++ i.channel ++ str "|" ++ i.actionTaken

def computeHash (env : QueueEnv) (incident : QueuedIncident) : StdString :=
  env.sha256 incident.blob

namespace IncidentQueue

/-- `Start` on a database that can be opened. -/
def start (q : IncidentQueue) : IncidentQueue :=
  if q.isOpen then q
  else { q with isOpen := true, stats := { q.stats with currentSize := q.rows.length } }

def isDuplicate (q : IncidentQueue) (hash : StdString) : Bool :=
  q.rows.any fun row => row.hash == cStr hash

def evictOldest (env : QueueEnv) (q : IncidentQueue) (count : Int) : IncidentQueue :=
  let oldest := (selectOldest env q.rows count).map QueuedIncident.rowid
  let rows := eraseKeys QueuedIncident.rowid oldest q.rows
  let evicted : Int := q.rows.length - rows.length
  { q with
    rows := rows
    stats := { q.stats with
      totalEvicted := q.stats.totalEvicted + evicted
      currentSize := q.stats.currentSize - evicted } }

/-- The row that the INSERT of `Enqueue` adds. -/
def newRow (env : QueueEnv) (q : IncidentQueue) (incident : QueuedIncident) : QueuedIncident :=
  { incident.mapTexts cStr with
    rowid := q.lastRowid + 1
    hash := cStr (computeHash env incident)
    queuedAt := if incident.queuedAt > 0 then incident.queuedAt else env.now
    retryCount := 0 }

def enqueue (env : QueueEnv) (q : IncidentQueue) (incident : QueuedIncident) :
    Bool × IncidentQueue :=
  if !q.isOpen then (false, q)
  else if q.isDuplicate (computeHash env incident) then
    (false, { q with stats := { q.stats with totalDuplicates := q.stats.totalDuplicates + 1 } })
  else
    let count : Int := q.rows.length
    let q :=
      if q.maxSize > 0 && count ≥ q.maxSize then q.evictOldest env (count - q.maxSize + 1)
      else q
    (true, { q with
      rows := q.rows ++ [q.newRow env incident]
      lastRowid := q.lastRowid + 1
      stats := { q.stats with
        totalEnqueued := q.stats.totalEnqueued + 1
        currentSize := q.stats.currentSize + 1 } })

def peek (env : QueueEnv) (q : IncidentQueue) (limit : Int) : List QueuedIncident :=
  if !q.isOpen then [] else (selectOldest env q.rows limit).map fetch

def drain (env : QueueEnv) (q : IncidentQueue) (limit : Int) :
    List QueuedIncident × IncidentQueue :=
  if !q.isOpen then ([], q)
  else
    let results := (selectOldest env q.rows limit).map fetch
    let rowids := results.map QueuedIncident.rowid
    if rowids.isEmpty then (results, q)
    else
      let removed : Int := rowids.length
      (results, { q with
        rows := rowids.foldl deleteRow q.rows
        stats := { q.stats with
          totalDrained := q.stats.totalDrained + removed
          currentSize := q.stats.currentSize - removed } })

def remove (q : IncidentQueue) (rowid : Int) : Bool × IncidentQueue :=
  if !q.isOpen then (false, q)
  else
    let rows := deleteRow q.rows rowid
    -- `sqlite3_changes(db_) > 0`
    if rows.length < q.rows.length then
      (true, { q with
        rows := rows
        stats := { q.stats with currentSize := q.stats.currentSize - 1 } })
    else (false, { q with rows := rows })

def removeBatch (q : IncidentQueue) (rowids : List Int) : Int × IncidentQueue :=
  if !q.isOpen || rowids.isEmpty then (0, q)
  else
    let (rows, removed) := rowids.foldl (fun (rows, removed) id =>
      let rest := deleteRow rows id
      (rest, if rest.length < rows.length then removed + 1 else removed)) (q.rows, (0 : Int))
    (removed, { q with
      rows := rows
      stats := { q.stats with currentSize := q.stats.currentSize - removed } })

def incrementRetry (q : IncidentQueue) (rowid : Int) : Bool × IncidentQueue :=
  if !q.isOpen then (false, q)
  else
    (q.rows.any fun row => row.rowid == rowid,
      { q with rows := q.rows.map (bumpRetry rowid) })

def clear (q : IncidentQueue) : IncidentQueue :=
  if !q.isOpen then q
  else { q with rows := [], stats := { q.stats with currentSize := 0 } }

/-- The rows that the new queue does not have any more. -/
def lost (q q' : IncidentQueue) : List QueuedIncident :=
  gone QueuedIncident.rowid q.rows q'.rows

end IncidentQueue

/-! ## The queue between two calls -/

structure IncidentQueue.WellFormed (q : IncidentQueue) : Prop where
  opened : q.isOpen = true
  room : 0 < q.maxSize
  size : (q.rows.length : Int) ≤ q.maxSize
  rowids : (q.rows.map QueuedIncident.rowid).Nodup
  assigned : ∀ row ∈ q.rows, row.rowid ≤ q.lastRowid
  hashes : (q.rows.map (·.hash)).Nodup
  counter : q.stats.currentSize = q.rows.length
  text : ∀ row ∈ q.rows, fetch row = row

/-- `q'` is `q` after deletions that the size counter followed. -/
structure IncidentQueue.Shrunk (q q' : IncidentQueue) : Prop where
  isOpen : q'.isOpen = q.isOpen
  maxSize : q'.maxSize = q.maxSize
  lastRowid : q'.lastRowid = q.lastRowid
  rows : q'.rows.Sublist q.rows
  counter : q'.stats.currentSize = q.stats.currentSize - (q.rows.length - q'.rows.length)

namespace IncidentQueue

variable {q q' : IncidentQueue} {env : QueueEnv}

theorem WellFormed.shrunk (hq : q.WellFormed) (h : q.Shrunk q') : q'.WellFormed where
  opened := h.isOpen ▸ hq.opened
  room := h.maxSize ▸ hq.room
  size := by
    have hlength := h.rows.length_le
    have hsize := hq.size
    rw [h.maxSize]
    omega
  rowids := hq.rowids.sublist (h.rows.map _)
  assigned row hrow := h.lastRowid ▸ hq.assigned row (h.rows.subset hrow)
  hashes := hq.hashes.sublist (h.rows.map _)
  counter := by
    have := h.counter
    have := hq.counter
    omega
  text row hrow := hq.text row (h.rows.subset hrow)

theorem Shrunk.perm_lost (hq : q.WellFormed) (h : q.Shrunk q') :
    q.rows.Perm (q'.rows ++ q.lost q') :=
  perm_append_gone h.rows hq.rowids

/-! ## Selecting and deleting -/

/-- The selected rows are the oldest, in order. -/
theorem selectOldest_spec (env : QueueEnv) (rows : List QueuedIncident) (limit : Int) :
    ∃ rest, rows.Perm (selectOldest env rows limit ++ rest) ∧
      (selectOldest env rows limit).Pairwise (fun a b => a.queuedAt ≤ b.queuedAt) ∧
      (∀ a ∈ selectOldest env rows limit, ∀ b ∈ rest, a.queuedAt ≤ b.queuedAt) ∧
      (0 ≤ limit → ((selectOldest env rows limit).length : Int) = min limit rows.length) := by
  have hperm := env.orderBy_perm rows
  have hsorted := env.orderBy_sorted rows
  unfold selectOldest
  -- a negative `LIMIT` selects every row
  split
  · refine ⟨[], by simpa using hperm.symm, hsorted, by simp, ?_⟩
    intro hlimit
    omega
  · refine ⟨(env.orderBy rows).drop limit.toNat, ?_, ?_, ?_, ?_⟩
    · rw [List.take_append_drop]
      exact hperm.symm
    · exact hsorted.sublist (List.take_sublist _ _)
    · rw [← List.take_append_drop limit.toNat (env.orderBy rows), List.pairwise_append] at hsorted
      exact hsorted.2.2
    · intro hlimit
      rw [List.length_take, hperm.length_eq]
      omega

theorem foldl_deleteRow (rowids : List Int) (rows : List QueuedIncident) :
    rowids.foldl deleteRow rows = eraseKeys QueuedIncident.rowid rowids rows :=
  foldl_eraseKeys rowids rows

theorem WellFormed.map_fetch (hq : q.WellFormed) {rows : List QueuedIncident}
    (h : ∀ row ∈ rows, row ∈ q.rows) : rows.map fetch = rows := by
  rw [List.map_congr_left fun row hrow => hq.text row (h row hrow), List.map_id']

theorem drain_spec (hq : q.WellFormed) (env : QueueEnv) (limit : Int) :
    (q.drain env limit).1 = selectOldest env q.rows limit ∧
    q.Shrunk (q.drain env limit).2 ∧
    q.rows.Perm ((q.drain env limit).1 ++ (q.drain env limit).2.rows) := by
  obtain ⟨rest, hperm, -⟩ := selectOldest_spec env q.rows limit
  have hfetch : (selectOldest env q.rows limit).map fetch = selectOldest env q.rows limit := by
    apply hq.map_fetch
    intro row hrow
    exact hperm.mem_iff.mpr (List.mem_append_left _ hrow)
  have hkept : (eraseKeys QueuedIncident.rowid _ q.rows).Perm rest :=
    eraseKeys_perm hperm hq.rowids
  have hlength := hperm.length_eq
  rw [List.length_append, ← hkept.length_eq] at hlength
  unfold drain
  simp only [hq.opened, Bool.not_true, Bool.false_eq_true, if_false, hfetch, foldl_deleteRow]
  -- with nothing selected `Drain` returns before it touches the table
  cases hsel : selectOldest env q.rows limit with
  | nil =>
      refine ⟨rfl, ⟨rfl, rfl, rfl, List.Sublist.refl _, ?_⟩, List.Perm.refl _⟩
      simp
  | cons row rows =>
      rw [← hsel]
      have hne : ((selectOldest env q.rows limit).map QueuedIncident.rowid).isEmpty = false := by
        rw [hsel]
        rfl
      simp only [hne, Bool.false_eq_true, if_false]
      refine ⟨trivial, ⟨hq.opened.symm, rfl, rfl, eraseKeys_sublist _ _, ?_⟩, ?_⟩
      · simp only [List.length_map]
        omega
      · exact hperm.trans (hkept.symm.append_left _)

theorem length_deleteRow {rows : List QueuedIncident} (hnd : (rows.map QueuedIncident.rowid).Nodup)
    (rowid : Int) :
    (deleteRow rows rowid).length ≤ rows.length ∧
    rows.length ≤ (deleteRow rows rowid).length + 1 :=
  ⟨(eraseKeys_sublist [rowid] rows).length_le, length_le_eraseKeys_singleton hnd rowid⟩

theorem remove_spec (hq : q.WellFormed) (rowid : Int) :
    q.Shrunk (q.remove rowid).2 ∧ ∀ row ∈ q.lost (q.remove rowid).2, row.rowid = rowid := by
  have hlost : ∀ row ∈ gone QueuedIncident.rowid q.rows (deleteRow q.rows rowid),
      row.rowid = rowid := by
    intro row hrow
    exact List.mem_singleton.mp (key_mem_of_mem_gone hrow)
  have hlength := length_deleteRow hq.rowids rowid
  unfold remove
  simp only [hq.opened, Bool.not_true, Bool.false_eq_true, if_false]
  -- the counter goes down exactly when a row went
  split
  · refine ⟨⟨hq.opened.symm, rfl, rfl, eraseKeys_sublist _ _, ?_⟩, hlost⟩
    dsimp only
    omega
  · refine ⟨⟨hq.opened.symm, rfl, rfl, eraseKeys_sublist _ _, ?_⟩, hlost⟩
    dsimp only
    omega

/-- The loop of `RemoveBatch` counts the rows that it deletes; a repeated or
unknown id deletes none. -/
theorem removeBatch_loop (rowids : List Int) {rows : List QueuedIncident}
    (hnd : (rows.map QueuedIncident.rowid).Nodup) (removed : Int) :
    rowids.foldl (fun (rows, removed) id =>
        let rest := deleteRow rows id
        (rest, if rest.length < rows.length then removed + 1 else removed)) (rows, removed) =
      (eraseKeys QueuedIncident.rowid rowids rows,
        removed + (rows.length - (eraseKeys QueuedIncident.rowid rowids rows).length)) := by
  -- on the ids; each deletes at most one row of what is left
  induction rowids generalizing rows removed with
  | nil => simp
  | cons id rowids ih =>
      have hlength := length_deleteRow hnd id
      have hnd' : ((deleteRow rows id).map QueuedIncident.rowid).Nodup :=
        hnd.sublist ((eraseKeys_sublist [id] rows).map _)
      rw [List.foldl_cons, ih hnd', eraseKeys_cons id rowids rows, Prod.mk.injEq]
      refine ⟨rfl, ?_⟩
      show _ = removed + ((rows.length : Int) -
        (eraseKeys QueuedIncident.rowid rowids (deleteRow rows id)).length)
      split <;> omega

theorem removeBatch_spec (hq : q.WellFormed) (rowids : List Int) :
    q.Shrunk (q.removeBatch rowids).2 ∧
    ∀ row ∈ q.lost (q.removeBatch rowids).2, row.rowid ∈ rowids := by
  unfold removeBatch
  rw [hq.opened, removeBatch_loop rowids hq.rowids 0]
  -- without ids the function returns at once
  cases rowids with
  | nil =>
      refine ⟨⟨rfl, rfl, rfl, List.Sublist.refl _, by simp⟩, ?_⟩
      intro row hrow
      obtain ⟨hmem, hgone⟩ := mem_gone.mp hrow
      exact absurd (List.mem_map_of_mem hmem) hgone
  | cons id rowids =>
      refine ⟨⟨hq.opened.symm, rfl, rfl, eraseKeys_sublist _ _, ?_⟩, ?_⟩
      · simp
      · intro row hrow
        exact key_mem_of_mem_gone hrow

theorem clear_spec (hq : q.WellFormed) : q.Shrunk q.clear := by
  unfold clear
  rw [hq.opened]
  refine ⟨hq.opened.symm, rfl, rfl, List.nil_sublist _, ?_⟩
  have := hq.counter
  simp
  omega

/-- Evicting one row evicts an oldest one. -/
theorem evictOldest_one_spec (hq : q.WellFormed) (env : QueueEnv) :
    q.Shrunk (q.evictOldest env 1) ∧
    (0 < q.rows.length → (q.evictOldest env 1).rows.length < q.rows.length) ∧
    ∀ row ∈ q.lost (q.evictOldest env 1), ∀ stored ∈ q.rows, row.queuedAt ≤ stored.queuedAt := by
  obtain ⟨rest, hperm, -, holdest, hlength⟩ := selectOldest_spec env q.rows 1
  have hone := hlength (by decide)
  have hkept : (eraseKeys QueuedIncident.rowid _ q.rows).Perm rest :=
    eraseKeys_perm hperm hq.rowids
  refine ⟨⟨rfl, rfl, rfl, eraseKeys_sublist _ _, rfl⟩, ?_, ?_⟩
  · intro hpos
    have hsplit := hperm.length_eq
    rw [List.length_append, ← hkept.length_eq] at hsplit
    show (eraseKeys _ _ _).length < _
    omega
  · intro row hrow stored hstored
    -- what is gone was selected: what was not selected is kept
    have hsel : row ∈ selectOldest env q.rows 1 := by
      obtain ⟨hmem, hgone⟩ := mem_gone.mp hrow
      refine (List.mem_append.mp (hperm.mem_iff.mp hmem)).resolve_right ?_
      intro hrest
      exact hgone (List.mem_map_of_mem (hkept.mem_iff.mpr hrest))
    rcases List.mem_append.mp (hperm.mem_iff.mp hstored) with hboth | hrest
    · -- the selection has one row
      have hpos := List.length_pos_of_mem hsel
      obtain ⟨oldest, holdest⟩ := List.length_eq_one_iff.mp
        (show (selectOldest env q.rows 1).length = 1 by omega)
      rw [holdest, List.mem_singleton] at hsel hboth
      rw [hsel, hboth]
    · exact holdest row hsel stored hrest

theorem enqueue_spec (hq : q.WellFormed) (env : QueueEnv) (incident : QueuedIncident) :
    (q.enqueue env incident = (false, { q with
        stats := { q.stats with totalDuplicates := q.stats.totalDuplicates + 1 } })) ∨
    (q.isDuplicate (computeHash env incident) = false ∧
      ∃ kept : IncidentQueue, q.Shrunk kept ∧ (kept.rows.length : Int) < q.maxSize ∧
      (∀ row ∈ q.lost kept, ∀ stored ∈ q.rows, row.queuedAt ≤ stored.queuedAt) ∧
      q.enqueue env incident = (true, { kept with
        rows := kept.rows ++ [kept.newRow env incident]
        lastRowid := kept.lastRowid + 1
        stats := { kept.stats with
          totalEnqueued := kept.stats.totalEnqueued + 1
          currentSize := kept.stats.currentSize + 1 } })) := by
  unfold enqueue
  rw [hq.opened]
  cases hdup : q.isDuplicate (computeHash env incident) with
  | true => exact Or.inl rfl
  | false =>
      have hsize := hq.size
      have hroom := hq.room
      obtain ⟨hshrunk, hless, holdest⟩ := evictOldest_one_spec hq env
      refine Or.inr ⟨rfl, ?_⟩
      by_cases hfull : (q.rows.length : Int) ≥ q.maxSize
      · -- the queue is never over its bound, so one row makes room
        refine ⟨q.evictOldest env 1, hshrunk, ?_, holdest, ?_⟩
        · have := hless (by omega)
          omega
        · have hone : (q.rows.length : Int) - q.maxSize + 1 = 1 := by omega
          simp [hroom, hfull, hone]
      · -- there is room, and nothing is evicted
        refine ⟨q, ⟨rfl, rfl, rfl, List.Sublist.refl _, by omega⟩, by omega, ?_, ?_⟩
        · intro row hrow
          obtain ⟨hmem, hgone⟩ := mem_gone.mp hrow
          exact absurd (List.mem_map_of_mem hmem) hgone
        · simp [hfull, hq.opened]

theorem fetch_newRow (env : QueueEnv) (q : IncidentQueue) (incident : QueuedIncident) :
    fetch (q.newRow env incident) = q.newRow env incident := by
  simp [fetch, newRow, QueuedIncident.mapTexts]

/-- There is room for a row that is no duplicate. -/
theorem WellFormed.addRow (hq : q.WellFormed) {incident : QueuedIncident}
    (hroom : (q.rows.length : Int) < q.maxSize)
    (hdup : q.isDuplicate (computeHash env incident) = false) (stats : QueueStats)
    (hstats : stats.currentSize = q.stats.currentSize + 1) :
    { q with
      rows := q.rows ++ [q.newRow env incident]
      lastRowid := q.lastRowid + 1
      stats := stats : IncidentQueue }.WellFormed where
  opened := hq.opened
  room := hq.room
  size := by
    rw [List.length_append, List.length_singleton]
    show ((q.rows.length + 1 : Nat) : Int) ≤ q.maxSize
    omega
  rowids := by
    rw [List.map_append, List.map_singleton, List.nodup_append]
    refine ⟨hq.rowids, List.nodup_singleton _, ?_⟩
    intro id hid id' hid' heq
    obtain ⟨row, hrow, rfl⟩ := List.mem_map.mp hid
    have hle := hq.assigned row hrow
    have hnew : id' = q.lastRowid + 1 := List.mem_singleton.mp hid'
    omega
  assigned := by
    intro row hrow
    rcases List.mem_append.mp hrow with hold | hnew
    · exact Int.le_add_one (hq.assigned row hold)
    · rw [List.mem_singleton.mp hnew]
      exact Int.le_refl _
  hashes := by
    rw [List.map_append, List.map_singleton, List.nodup_append]
    refine ⟨hq.hashes, List.nodup_singleton _, ?_⟩
    intro hash hhash hash' hhash' heq
    obtain ⟨row, hrow, rfl⟩ := List.mem_map.mp hhash
    have hnew : hash' = cStr (computeHash env incident) := List.mem_singleton.mp hhash'
    have hne := List.any_eq_false.mp hdup row hrow
    exact hne (beq_iff_eq.mpr (heq.trans hnew))
  counter := by
    have := hq.counter
    rw [List.length_append, List.length_singleton]
    dsimp only
    omega
  text := by
    intro row hrow
    rcases List.mem_append.mp hrow with hold | hnew
    · exact hq.text row hold
    · rw [List.mem_singleton.mp hnew, fetch_newRow]

theorem WellFormed.enqueue (hq : q.WellFormed) (env : QueueEnv) (incident : QueuedIncident) :
    (q.enqueue env incident).2.WellFormed := by
  rcases enqueue_spec hq env incident with heq | ⟨hdup, kept, hshrunk, hroom, -, heq⟩
  · rw [heq]
    exact { hq with counter := hq.counter }
  · rw [heq]
    -- an eviction takes no hash away that was missing before
    have hkept : kept.isDuplicate (computeHash env incident) = false := by
      rw [isDuplicate, List.any_eq_false] at hdup ⊢
      exact fun row hrow => hdup row (hshrunk.rows.subset hrow)
    exact (hq.shrunk hshrunk).addRow (hshrunk.maxSize ▸ hroom) hkept _ rfl

/-- A map over the rows that leaves ids and hashes alone. -/
theorem WellFormed.mapRows (hq : q.WellFormed) (f : QueuedIncident → QueuedIncident)
    (hrowid : ∀ row, (f row).rowid = row.rowid) (hhash : ∀ row, (f row).hash = row.hash)
    (hfetch : ∀ row, fetch row = row → fetch (f row) = f row) :
    { q with rows := q.rows.map f : IncidentQueue }.WellFormed where
  opened := hq.opened
  room := hq.room
  size := by simpa using hq.size
  rowids := by simpa [Function.comp_def, hrowid] using hq.rowids
  assigned := by simpa [hrowid] using hq.assigned
  hashes := by simpa [Function.comp_def, hhash] using hq.hashes
  counter := by simpa using hq.counter
  text := by
    intro row' hrow'
    obtain ⟨row, hrow, rfl⟩ := List.mem_map.mp hrow'
    exact hfetch row (hq.text row hrow)

theorem incrementRetry_spec (hq : q.WellFormed) (rowid : Int) :
    (q.incrementRetry rowid).2 = { q with rows := q.rows.map (bumpRetry rowid) } := by
  unfold incrementRetry
  rw [hq.opened]
  rfl

theorem WellFormed.incrementRetry (hq : q.WellFormed) (rowid : Int) :
    (q.incrementRetry rowid).2.WellFormed := by
  rw [incrementRetry_spec hq]
  refine hq.mapRows _ ?_ ?_ ?_
  · intro row
    unfold bumpRetry
    split <;> rfl
  · intro row
    unfold bumpRetry
    split <;> rfl
  · intro row hrow
    unfold bumpRetry
    split
    · exact congrArg (fun r : QueuedIncident => { r with retryCount := row.retryCount + 1 }) hrow
    · exact hrow

end IncidentQueue

end AkesoDlp.Agent
