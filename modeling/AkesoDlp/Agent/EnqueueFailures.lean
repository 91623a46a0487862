import AkesoDlp.Agent.IncidentQueue

/-!
# Enqueue when statements fail

`Enqueue` runs up to four statements, and none of them in a transaction with
another. `SqlOutcomes` says which of them SQLite carries out; with all of them
carried out the function is the one of `IncidentQueue`.
-/

namespace AkesoDlp.Agent

open Lib

/-- `changes` is what `sqlite3_changes` still holds after a DELETE that failed. -/
structure SqlOutcomes where
  duplicateCheck : Bool := true
  count : Bool := true
  evict : Bool := true
  changes : Nat := 0
  prepareInsert : Bool := true
  insert : Bool := true
deriving DecidableEq, Repr

namespace IncidentQueue

variable (sql : SqlOutcomes) (env : QueueEnv)

/-- `EvictOldest`; the counters follow `sqlite3_changes` either way. -/
def evictOldestWith (q : IncidentQueue) (count : Int) : IncidentQueue :=
  if sql.evict then q.evictOldest env count
  else
    { q with
      stats := { q.stats with
        totalEvicted := q.stats.totalEvicted + sql.changes
        currentSize := q.stats.currentSize - sql.changes } }

/-- The eviction of `Enqueue`; a count that fails is 0. -/
def makeRoom (q : IncidentQueue) : IncidentQueue :=
  if q.maxSize > 0 then
    let count : Int := if sql.count then q.rows.length else 0
    if count ≥ q.maxSize then q.evictOldestWith sql env (count - q.maxSize + 1) else q
  else q

/-- `Enqueue`. The INSERT also fails on a hash that is in the table (`UNIQUE`). -/
def enqueueWith (q : IncidentQueue) (incident : QueuedIncident) : Bool × IncidentQueue :=
  if !q.isOpen then (false, q)
  else if sql.duplicateCheck && q.isDuplicate (computeHash env incident) then
    (false, { q with stats := { q.stats with totalDuplicates := q.stats.totalDuplicates + 1 } })
  else
    let q := q.makeRoom sql env
    if !sql.prepareInsert then (false, q)
    else if !sql.insert || q.isDuplicate (computeHash env incident) then (false, q)
    else
      (true, { q with
        rows := q.rows ++ [q.newRow env incident]
        lastRowid := q.lastRowid + 1
        stats := { q.stats with
          totalEnqueued := q.stats.totalEnqueued + 1
          currentSize := q.stats.currentSize + 1 } })

/-- If the call fails, the incidents and the counter are as before. -/
def FailureIsNoOp (q : IncidentQueue) (incident : QueuedIncident) : Prop :=
  (q.enqueueWith sql env incident).1 = false →
    (q.enqueueWith sql env incident).2.rows = q.rows ∧
      (q.enqueueWith sql env incident).2.stats.currentSize = q.stats.currentSize

/-- The call gets past the duplicate check, and the queue is full. -/
def Evicts (q : IncidentQueue) (incident : QueuedIncident) : Prop :=
  q.isOpen = true ∧
  ¬ (sql.duplicateCheck = true ∧ q.isDuplicate (computeHash env incident) = true) ∧
  0 < q.maxSize ∧ sql.count = true ∧ q.maxSize ≤ q.rows.length

/-- The INSERT goes through, given the rows that are left. -/
def Inserts (q : IncidentQueue) (incident : QueuedIncident) : Prop :=
  sql.prepareInsert = true ∧ sql.insert = true ∧
    (q.makeRoom sql env).isDuplicate (computeHash env incident) = false

variable {sql env} {q : IncidentQueue} {incident : QueuedIncident}

/-- With every statement carried out this is `enqueue`. -/
theorem enqueueWith_default : q.enqueueWith {} env incident = q.enqueue env incident := by
  unfold enqueueWith enqueue
  cases q.isOpen with
  | false => rfl
  | true =>
      cases hdup : q.isDuplicate (computeHash env incident) with
      | true => rfl
      | false =>
          have hroom : q.makeRoom {} env =
              if q.maxSize > 0 && (q.rows.length : Int) ≥ q.maxSize then
                q.evictOldest env (q.rows.length - q.maxSize + 1)
              else q := by
            simp [makeRoom, evictOldestWith, ite_and]
          -- rows only go, so the hash is not in what is left
          have hleft : (q.makeRoom {} env).isDuplicate (computeHash env incident) = false := by
            rw [isDuplicate, List.any_eq_false] at hdup ⊢
            intro row hrow
            refine hdup row ?_
            rw [hroom] at hrow
            split at hrow
            · exact (eraseKeys_sublist _ _).subset hrow
            · exact hrow
          simp only [Bool.not_true, Bool.false_eq_true, if_false, Bool.and_false, Bool.or_false,
            hleft, ← hroom]

/-- Eviction from a full queue takes a row away. -/
theorem rows_evictOldest_ne {count : Int} (hcount : 0 < count) (hrows : q.rows ≠ []) :
    (q.evictOldest env count).rows ≠ q.rows := by
  obtain ⟨rest, hperm, -, -, hlength⟩ := selectOldest_spec env q.rows count
  have hlength := hlength (Int.le_of_lt hcount)
  have hpos : 0 < q.rows.length := List.length_pos_iff.mpr hrows
  obtain ⟨row, hrow⟩ := List.exists_mem_of_length_pos
    (show 0 < (selectOldest env q.rows count).length by omega)
  intro heq
  have hstays : row ∈ (q.evictOldest env count).rows :=
    heq ▸ hperm.mem_iff.mpr (List.mem_append_left _ hrow)
  exact (mem_eraseKeys.mp hstays).2 (List.mem_map_of_mem hrow)

theorem makeRoom_of_not_full
    (h : ¬ (0 < q.maxSize ∧ sql.count = true ∧ q.maxSize ≤ q.rows.length)) :
    q.makeRoom sql env = q := by
  unfold makeRoom
  by_cases hmax : q.maxSize > 0
  · rw [if_pos hmax]
    -- a count that failed is below every bound
    cases hsql : sql.count with
    | true => exact if_neg fun hcount => h ⟨hmax, hsql, hcount⟩
    | false => exact if_neg (Int.not_le.mpr hmax)
  · exact if_neg hmax

/-- What the eviction does to a full queue. -/
theorem makeRoom_of_full (hmax : 0 < q.maxSize) (hsql : sql.count = true)
    (hfull : q.maxSize ≤ q.rows.length) :
    q.makeRoom sql env = q.evictOldestWith sql env (q.rows.length - q.maxSize + 1) := by
  simp [makeRoom, hmax, hsql, hfull]

/-- The eviction shows unless its DELETE failed with no change left to count. -/
theorem makeRoom_unchanged_iff (hmax : 0 < q.maxSize) (hsql : sql.count = true)
    (hfull : q.maxSize ≤ q.rows.length) :
    ((q.makeRoom sql env).rows = q.rows ∧
      (q.makeRoom sql env).stats.currentSize = q.stats.currentSize) ↔
      sql.evict = false ∧ sql.changes = 0 := by
  rw [makeRoom_of_full hmax hsql hfull]
  unfold evictOldestWith
  cases sql.evict with
  | true =>
      have hrows : q.rows ≠ [] := by
        intro hnil
        rw [hnil, List.length_nil] at hfull
        omega
      have hcount : 0 < (q.rows.length : Int) - q.maxSize + 1 := by omega
      have hne : (q.evictOldest env _).rows ≠ q.rows := rows_evictOldest_ne hcount hrows
      simp [hne]
  | false =>
      simp only [Bool.false_eq_true, if_false, true_and]
      omega

/-- The ends of `Enqueue` behind the duplicate check. -/
theorem enqueueWith_of_checked (hopen : q.isOpen = true)
    (hdup : ¬ (sql.duplicateCheck = true ∧ q.isDuplicate (computeHash env incident) = true)) :
    ((q.enqueueWith sql env incident).1 = true ↔ q.Inserts sql env incident) ∧
    (¬ q.Inserts sql env incident → (q.enqueueWith sql env incident).2 = q.makeRoom sql env) := by
  rw [← Bool.and_eq_true, Bool.not_eq_true] at hdup
  unfold enqueueWith Inserts
  simp only [hopen, hdup, Bool.not_true, Bool.false_eq_true, if_false]
  cases sql.prepareInsert <;> cases sql.insert <;>
    cases (q.makeRoom sql env).isDuplicate (computeHash env incident) <;> simp

/-- Exactly when a failed call changes nothing: it evicts nothing, or the INSERT
goes through and the call does not fail, or the DELETE failed and
`sqlite3_changes` is 0. -/
theorem failureIsNoOp_iff (sql : SqlOutcomes) (env : QueueEnv) (q : IncidentQueue)
    (incident : QueuedIncident) :
    q.FailureIsNoOp sql env incident ↔
      ¬ q.Evicts sql env incident ∨ q.Inserts sql env incident ∨
        (sql.evict = false ∧ sql.changes = 0) := by
  unfold FailureIsNoOp Evicts
  by_cases hopen : q.isOpen = true
  · by_cases hdup : sql.duplicateCheck = true ∧ q.isDuplicate (computeHash env incident) = true
    · -- a duplicate is booked in another counter
      refine iff_of_true (fun _ => ?_) (.inl fun h => h.2.1 hdup)
      simp [enqueueWith, hopen, hdup]
    · obtain ⟨hok, hstate⟩ := enqueueWith_of_checked hopen hdup
      rw [← Bool.not_eq_true, hok]
      by_cases hfull : 0 < q.maxSize ∧ sql.count = true ∧ q.maxSize ≤ q.rows.length
      · have hunchanged := @makeRoom_unchanged_iff sql env q hfull.1 hfull.2.1 hfull.2.2
        rw [← hunchanged, ← or_iff_not_imp_left]
        have hevicts : ¬ ¬ (q.isOpen = true ∧ ¬ (sql.duplicateCheck = true ∧
            q.isDuplicate (computeHash env incident) = true) ∧ 0 < q.maxSize ∧
            sql.count = true ∧ q.maxSize ≤ q.rows.length) := not_not.mpr ⟨hopen, hdup, hfull⟩
        rw [or_iff_right hevicts]
        refine or_congr_right' fun hfail => ?_
        rw [hstate hfail]
      · refine iff_of_true (fun hfail => ?_) (.inl fun h => hfull h.2.2)
        rw [hstate hfail, makeRoom_of_not_full hfull]
        exact ⟨rfl, rfl⟩
  · refine iff_of_true (fun _ => ?_) (.inl fun h => hopen h.1)
    simp [enqueueWith, hopen]

/-- A queue for one incident that has one. -/
def fullQueue : IncidentQueue where
  maxSize := 1
  isOpen := true
  rows := [{ rowid := 1, hash := str "00", policyName := str "PCI", queuedAt := 1 }]
  lastRowid := 1
  stats := { totalEnqueued := 1, currentSize := 1 }

/-- The disk is full: the old incident is evicted, and the new one is not stored. -/
theorem not_failureIsNoOp_full :
    (fullQueue.enqueueWith { insert := false } (.fallback 2) { policyName := str "HR" }).1 = false ∧
    (fullQueue.enqueueWith { insert := false } (.fallback 2) { policyName := str "HR" }).2.rows =
      [] ∧
    ¬ fullQueue.FailureIsNoOp { insert := false } (.fallback 2) { policyName := str "HR" } := by
  have hfails : (fullQueue.enqueueWith { insert := false } (.fallback 2)
      { policyName := str "HR" }).1 = false := by decide +kernel
  have hrows : (fullQueue.enqueueWith { insert := false } (.fallback 2)
      { policyName := str "HR" }).2.rows = [] := by decide +kernel
  refine ⟨hfails, hrows, fun hnoop => ?_⟩
  exact absurd (hrows.symm.trans (hnoop hfails).1) (by decide)

end IncidentQueue

end AkesoDlp.Agent
