import AkesoDlp.Agent.IncidentQueue
import AkesoDlp.Lib.TSys

/-!
# No incident lost or duplicated

A ledger kept beside the queue: it books every incident that `Enqueue` accepts
and, from what a call returns and from the rows that are gone after it, what
was drained, evicted and removed. In every run the books balance, provided
that no text of an enqueued incident contains a NUL: what follows a NUL is cut
off on the way into the table.
-/

namespace AkesoDlp.Agent

open Lib

inductive QueueCall
  | enqueue (incident : QueuedIncident)
  | drain (limit : Int)
  | peek (limit : Int)
  | remove (rowid : Int)
  | removeBatch (rowids : List Int)
  | incrementRetry (rowid : Int)
  | clear

/-- The call is one that removes the row of that id. -/
def QueueCall.Removes (call : QueueCall) (rowid : Int) : Prop :=
  match call with
  | .remove id => rowid = id
  | .removeBatch ids => rowid ∈ ids
  | .clear => True
  | _ => False

/-- What identifies an incident: everything but the dedup hash, which the
queue computes, and the retry counter, which it keeps. -/
def QueuedIncident.contents (i : QueuedIncident) : QueuedIncident :=
  { i with hash := [], retryCount := 0 }

/-- The incident that a call to `Enqueue` hands over, under its rowid and with
the time of the call where it has none. -/
def QueuedIncident.handedOver (env : QueueEnv) (rowid : Int) (i : QueuedIncident) :
    QueuedIncident :=
  { i.contents with
    rowid := rowid
    queuedAt := if i.queuedAt > 0 then i.queuedAt else env.now }

structure Ledger where
  queue : IncidentQueue
  /-- Every incident for which `Enqueue` returned true. -/
  accepted : List QueuedIncident := []
  /-- The results of all `Drain` calls. -/
  drained : List QueuedIncident := []
  /-- Evicted rows, each with the rows that were stored when it was. -/
  evicted : List (QueuedIncident × List QueuedIncident) := []
  /-- Removed rows, each with the call that removed it. -/
  removed : List (QueuedIncident × QueueCall) := []

def Ledger.call (l : Ledger) (env : QueueEnv) (call : QueueCall) : Ledger :=
  match call with
  | .enqueue incident =>
      let (ok, q) := l.queue.enqueue env incident
      { l with
        queue := q
        accepted := if ok then l.accepted ++ [incident.handedOver env q.lastRowid] else l.accepted
        evicted := l.evicted ++ (l.queue.lost q).map fun row => (row, l.queue.rows) }
  | .drain limit =>
      let (results, q) := l.queue.drain env limit
      { l with queue := q, drained := l.drained ++ results }
  | .peek _ => l
  | .remove rowid =>
      let q := (l.queue.remove rowid).2
      { l with
        queue := q
        removed := l.removed ++ (l.queue.lost q).map fun row => (row, call) }
  | .removeBatch rowids =>
      let q := (l.queue.removeBatch rowids).2
      { l with
        queue := q
        removed := l.removed ++ (l.queue.lost q).map fun row => (row, call) }
  | .incrementRetry rowid => { l with queue := (l.queue.incrementRetry rowid).2 }
  | .clear =>
      let q := l.queue.clear
      { l with
        queue := q
        removed := l.removed ++ (l.queue.lost q).map fun row => (row, call) }

/-- Everything that was ever stored: the rows there are, and those that left. -/
def Ledger.accounted (l : Ledger) : List QueuedIncident :=
  l.queue.rows ++ l.drained ++ l.evicted.map (·.1) ++ l.removed.map (·.1)

/-- A started queue on an empty table and any sequence of calls. -/
def incidentQueue : TSys Ledger (QueueEnv × QueueCall) where
  init l := ∃ maxSize lastRowid : Int, 0 < maxSize ∧
    l = { queue := ({ maxSize := maxSize, lastRowid := lastRowid } : IncidentQueue).start }
  step l a := some (l.call a.1 a.2)

/-! ## What holds after each call -/

/-- `Drain` returns the oldest incidents in order and takes them from the
queue. -/
def DrainsOldest (q : IncidentQueue) : Prop :=
  ∀ (env : QueueEnv) (limit : Int), 0 ≤ limit →
    ((q.drain env limit).1.length : Int) = min limit q.rows.length ∧
    (q.drain env limit).1.Pairwise (fun a b => a.queuedAt ≤ b.queuedAt) ∧
    q.rows.Perm ((q.drain env limit).1 ++ (q.drain env limit).2.rows) ∧
    ∀ r ∈ (q.drain env limit).1, ∀ kept ∈ (q.drain env limit).2.rows, r.queuedAt ≤ kept.queuedAt

/-- The books balance. By `fates` and `rowids` every accepted incident is in
exactly one of the four parts of `accounted`, and there exactly once. -/
structure Ledger.Balanced (l : Ledger) : Prop where
  size : (l.queue.rows.length : Int) ≤ l.queue.maxSize
  hashes : (l.queue.rows.map (·.hash)).Nodup
  counter : l.queue.stats.currentSize = l.queue.rows.length
  fates : (l.accounted.map (·.contents)).Perm l.accepted
  rowids : (l.accepted.map (·.rowid)).Nodup
  evictedOldest : ∀ e ∈ l.evicted, ∀ stored ∈ e.2, e.1.queuedAt ≤ stored.queuedAt
  removedByCall : ∀ e ∈ l.removed, e.2.Removes e.1.rowid
  drains : DrainsOldest l.queue

/-- The texts of the incident. -/
def QueuedIncident.texts (i : QueuedIncident) : List StdString :=
  [i.policyName, i.severity, i.channel, i.sourceType, i.fileName, i.filePath, i.user, i.sourceIp,
    i.matchedContent, i.actionTaken]

/-- No text of an enqueued incident contains a NUL. -/
def NoNul (_ : Ledger) (a : QueueEnv × QueueCall) : Prop :=
  ∀ incident, a.2 = .enqueue incident → ∀ text ∈ incident.texts, 0 ∉ text

theorem mapTexts_cStr_eq_self_iff {i : QueuedIncident} :
    i.mapTexts cStr = i ↔ ∀ text ∈ i.texts, 0 ∉ text := by
  cases i
  simp [QueuedIncident.mapTexts, QueuedIncident.texts, cStr_eq_self_iff]

@[simp] theorem mapTexts_cStr_idem (i : QueuedIncident) :
    (i.mapTexts cStr).mapTexts cStr = i.mapTexts cStr := by
  simp [QueuedIncident.mapTexts]

/-! ## One call -/

/-- What every run keeps up, whatever the texts: the books balance up to what
the table cuts off. -/
structure Ledger.Sound (l : Ledger) : Prop where
  queue : l.queue.WellFormed
  fates : (l.accounted.map (·.contents)).Perm (l.accepted.map (·.mapTexts cStr))
  rowids : (l.accepted.map (·.rowid)).Nodup
  assigned : ∀ i ∈ l.accepted, i.rowid ≤ l.queue.lastRowid
  evictedOldest : ∀ e ∈ l.evicted, ∀ stored ∈ e.2, e.1.queuedAt ≤ stored.queuedAt
  removedByCall : ∀ e ∈ l.removed, e.2.Removes e.1.rowid

namespace Ledger.Sound

variable {l : Ledger}

theorem remove (hl : l.Sound) {q : IncidentQueue} (hshrunk : l.queue.Shrunk q)
    {call : QueueCall} (hremoves : ∀ row ∈ l.queue.lost q, call.Removes row.rowid) :
    { l with
      queue := q
      removed := l.removed ++ (l.queue.lost q).map fun row => (row, call) : Ledger }.Sound where
  queue := hl.queue.shrunk hshrunk
  fates := by
    refine List.Perm.trans (List.Perm.map _ ?_) hl.fates
    -- counted row by row: what left the table went into the removed
    have hsplit := hshrunk.perm_lost hl.queue
    rw [List.perm_iff_count] at hsplit ⊢
    intro row
    have := hsplit row
    simp only [Ledger.accounted, List.map_append, List.map_map, Function.comp_def,
      List.map_id', List.count_append] at this ⊢
    omega
  rowids := hl.rowids
  assigned i hi := hshrunk.lastRowid ▸ hl.assigned i hi
  evictedOldest := hl.evictedOldest
  removedByCall := by
    intro e he
    rcases List.mem_append.mp he with hold | hnew
    · exact hl.removedByCall e hold
    · obtain ⟨row, hrow, rfl⟩ := List.mem_map.mp hnew
      exact hremoves row hrow

theorem drain (hl : l.Sound) (env : QueueEnv) (limit : Int) :
    { l with
      queue := (l.queue.drain env limit).2
      drained := l.drained ++ (l.queue.drain env limit).1 : Ledger }.Sound := by
  obtain ⟨-, hshrunk, hsplit⟩ := IncidentQueue.drain_spec hl.queue env limit
  refine ⟨hl.queue.shrunk hshrunk, ?_, hl.rowids, ?_, hl.evictedOldest, hl.removedByCall⟩
  · refine List.Perm.trans (List.Perm.map _ ?_) hl.fates
    rw [List.perm_iff_count] at hsplit ⊢
    intro row
    have := hsplit row
    simp only [Ledger.accounted, List.count_append] at this ⊢
    omega
  · exact fun i hi => hshrunk.lastRowid ▸ hl.assigned i hi

theorem incrementRetry (hl : l.Sound) (rowid : Int) :
    { l with queue := (l.queue.incrementRetry rowid).2 : Ledger }.Sound := by
  have hqueue := hl.queue.incrementRetry rowid
  rw [IncidentQueue.incrementRetry_spec hl.queue] at hqueue ⊢
  refine ⟨hqueue, ?_, hl.rowids, hl.assigned, hl.evictedOldest, hl.removedByCall⟩
  have hcontents (row : QueuedIncident) : (bumpRetry rowid row).contents = row.contents := by
    unfold bumpRetry
    split <;> rfl
  have hfates := hl.fates
  simpa only [Ledger.accounted, List.map_append, List.map_map, Function.comp_def, hcontents]
    using hfates

theorem enqueue (hl : l.Sound) (env : QueueEnv) (incident : QueuedIncident) :
    (l.call env (.enqueue incident)).Sound := by
  have hqueue := hl.queue.enqueue env incident
  unfold Ledger.call
  rcases IncidentQueue.enqueue_spec hl.queue env incident with
    heq | ⟨-, kept, hshrunk, -, holdest, heq⟩
  · -- a duplicate: the queue keeps its rows, and nothing is booked
    rw [heq] at hqueue
    simp only [heq, IncidentQueue.lost, gone_self, List.map_nil, List.append_nil,
      Bool.false_eq_true, if_false]
    exact ⟨hqueue, hl.fates, hl.rowids, hl.assigned, hl.evictedOldest, hl.removedByCall⟩
  · rw [heq] at hqueue
    -- the new row has a fresh id, so it does not hide an evicted one
    have hlost : l.queue.lost { kept with
        rows := kept.rows ++ [kept.newRow env incident]
        lastRowid := kept.lastRowid + 1
        stats := { kept.stats with
          totalEnqueued := kept.stats.totalEnqueued + 1
          currentSize := kept.stats.currentSize + 1 } } = l.queue.lost kept := by
      apply gone_append
      intro row hrow new hnew
      have hle := hl.queue.assigned row hrow
      rw [List.mem_singleton.mp hnew, ← hshrunk.lastRowid] at *
      show row.rowid ≠ kept.lastRowid + 1
      omega
    simp only [heq, hlost, if_true]
    refine ⟨hqueue, ?_, ?_, ?_, ?_, hl.removedByCall⟩
    · -- the evicted row moves from the queue to the evicted, the new one comes in
      have hsplit := hshrunk.perm_lost hl.queue
      have hbooks : (kept.rows ++ [kept.newRow env incident] ++ l.drained ++
          (l.evicted ++ (l.queue.lost kept).map fun row => (row, l.queue.rows)).map (·.1) ++
          l.removed.map (·.1)).Perm (l.accounted ++ [kept.newRow env incident]) := by
        rw [List.perm_iff_count] at hsplit ⊢
        intro row
        have := hsplit row
        simp only [Ledger.accounted, List.map_append, List.map_map, Function.comp_def,
          List.map_id', List.count_append] at this ⊢
        omega
      have haccounted : (l.accounted ++ [kept.newRow env incident]).map QueuedIncident.contents =
          l.accounted.map QueuedIncident.contents ++
            [kept.newRow env incident].map QueuedIncident.contents := List.map_append
      have hfates := hbooks.map QueuedIncident.contents
      rw [haccounted] at hfates
      have haccepted : (l.accepted ++ [incident.handedOver env (kept.lastRowid + 1)]).map
            (·.mapTexts cStr) =
          l.accepted.map (·.mapTexts cStr) ++
            [incident.handedOver env (kept.lastRowid + 1)].map (·.mapTexts cStr) :=
        List.map_append
      exact (hfates.trans (hl.fates.append_right _)).trans (List.Perm.of_eq haccepted.symm)
    · -- ids are given out in increasing order
      rw [List.map_append, List.map_singleton, List.nodup_append]
      refine ⟨hl.rowids, List.nodup_singleton _, ?_⟩
      intro id hid id' hid' hsame
      obtain ⟨i, hi, rfl⟩ := List.mem_map.mp hid
      have hle := hl.assigned i hi
      have hnew : id' = kept.lastRowid + 1 := List.mem_singleton.mp hid'
      have := hshrunk.lastRowid
      omega
    · intro i hi
      have := hshrunk.lastRowid
      rcases List.mem_append.mp hi with hold | hnew
      · have hle := hl.assigned i hold
        show i.rowid ≤ kept.lastRowid + 1
        omega
      · rw [List.mem_singleton.mp hnew]
        exact Int.le_refl _
    · intro e he
      rcases List.mem_append.mp he with hold | hnew
      · exact hl.evictedOldest e hold
      · obtain ⟨row, hrow, rfl⟩ := List.mem_map.mp hnew
        exact holdest row hrow

theorem call (hl : l.Sound) (env : QueueEnv) (call : QueueCall) : (l.call env call).Sound := by
  cases call with
  | enqueue incident => exact hl.enqueue env incident
  | drain limit => exact hl.drain env limit
  | peek limit => exact hl
  | remove rowid =>
      obtain ⟨hshrunk, hlost⟩ := IncidentQueue.remove_spec hl.queue rowid
      exact hl.remove hshrunk hlost
  | removeBatch rowids =>
      obtain ⟨hshrunk, hlost⟩ := IncidentQueue.removeBatch_spec hl.queue rowids
      exact hl.remove hshrunk hlost
  | incrementRetry rowid => exact hl.incrementRetry rowid
  | clear => exact hl.remove (IncidentQueue.clear_spec hl.queue) fun _ _ => trivial

end Ledger.Sound

/-! ## Every run -/

theorem sound_init {l : Ledger} (h : incidentQueue.init l) : l.Sound := by
  obtain ⟨maxSize, lastRowid, hroom, rfl⟩ := h
  refine ⟨⟨rfl, hroom, Int.le_of_lt hroom, ?_, ?_, ?_, rfl, ?_⟩, List.Perm.refl _, ?_, ?_, ?_, ?_⟩
  all_goals simp [IncidentQueue.start]

theorem sound_inductive (ok : Ledger → QueueEnv × QueueCall → Prop) :
    incidentQueue.InductiveBy ok Ledger.Sound where
  init _ := sound_init
  step := by
    intro l a l' hl _ hstep
    obtain rfl := Option.some.inj hstep
    exact hl.call a.1 a.2

theorem drainsOldest {q : IncidentQueue} (hq : q.WellFormed) : DrainsOldest q := by
  intro env limit hlimit
  obtain ⟨hresults, -, hsplit⟩ := IncidentQueue.drain_spec hq env limit
  obtain ⟨rest, hperm, hsorted, holdest, hlength⟩ :=
    IncidentQueue.selectOldest_spec env q.rows limit
  rw [hresults] at hsplit ⊢
  refine ⟨hlength hlimit, hsorted, hsplit, ?_⟩
  -- what `Drain` keeps is what the query did not select
  have hrest : rest.Perm (q.drain env limit).2.rows :=
    (List.perm_append_left_iff _).mp (hperm.symm.trans hsplit)
  intro row hrow kept hkept
  exact holdest row hrow kept (hrest.mem_iff.mpr hkept)

/-- The books balance exactly when no accepted incident has a NUL in a text. -/
theorem Ledger.Sound.balanced_iff {l : Ledger} (hl : l.Sound) :
    l.Balanced ↔ ∀ i ∈ l.accepted, ∀ text ∈ i.texts, 0 ∉ text := by
  simp only [← mapTexts_cStr_eq_self_iff]
  constructor
  · -- the accepted texts are those in the table, and those have been cut
    intro hbalanced i hi
    have hcut : i ∈ l.accepted.map (·.mapTexts cStr) :=
      hl.fates.mem_iff.mp (hbalanced.fates.mem_iff.mpr hi)
    obtain ⟨whole, -, rfl⟩ := List.mem_map.mp hcut
    exact mapTexts_cStr_idem whole
  · intro hclean
    refine ⟨hl.queue.size, hl.queue.hashes, hl.queue.counter, ?_, hl.rowids, hl.evictedOldest,
      hl.removedByCall, drainsOldest hl.queue⟩
    have hfates := hl.fates
    rwa [List.map_congr_left hclean, List.map_id'] at hfates

/-- With no NUL in the texts, only such incidents are accepted. -/
theorem noNul_inductive : incidentQueue.InductiveBy NoNul
    fun l => ∀ i ∈ l.accepted, ∀ text ∈ i.texts, 0 ∉ text where
  init := by
    rintro l ⟨_, _, -, rfl⟩ i hi
    exact absurd hi List.not_mem_nil
  step := by
    rintro l ⟨env, call⟩ l' hl hok hstep
    obtain rfl := Option.some.inj hstep
    cases call with
    | enqueue incident =>
        intro i hi
        unfold Ledger.call at hi
        dsimp only at hi
        split at hi
        · rcases List.mem_append.mp hi with hold | hnew
          · exact hl i hold
          · rw [List.mem_singleton.mp hnew]
            exact hok incident rfl
        · exact hl i hi
    | _ => exact hl

/-- In every run in which no enqueued text contains a NUL the books balance
after each call. -/
theorem incidentQueue_balanced {l : Ledger} (h : incidentQueue.ReachableBy NoNul l) :
    l.Balanced :=
  ((sound_inductive NoNul).invariant l h).balanced_iff.mpr (noNul_inductive.invariant l h)

/-! ## Two runs -/

def emptyLedger (maxSize : Int) : Ledger where
  queue := ({ maxSize := maxSize } : IncidentQueue).start

def usbIncident (fileName : String) (queuedAt : Int) : QueuedIncident where
  policyName := str "PII"
  severity := str "HIGH"
  channel := str "USB"
  fileName := str fileName
  matchCount := 2
  actionTaken := str "block"
  queuedAt := queuedAt

/-- Room for one incident: the second evicts the first and is drained. -/
def evictAndDrain : List (QueueEnv × QueueCall) :=
  [ (.fallback 100, .enqueue (usbIncident "a.txt" 7)),
    (.fallback 101, .enqueue (usbIncident "b.txt" 0)),
    (.fallback 102, .enqueue (usbIncident "b.txt" 0)),
    (.fallback 103, .drain 10) ]

theorem noNul_evictAndDrain : ∀ a ∈ evictAndDrain, ∀ l, NoNul l a := by
  intro a ha l incident hcall
  simp only [evictAndDrain, List.mem_cons, List.not_mem_nil, or_false] at ha
  rcases ha with rfl | rfl | rfl | rfl
  · obtain rfl := QueueCall.enqueue.inj hcall
    decide
  · obtain rfl := QueueCall.enqueue.inj hcall
    decide
  · obtain rfl := QueueCall.enqueue.inj hcall
    decide
  · exact QueueCall.noConfusion hcall

theorem incidentQueue_balanced_evictAndDrain :
    (evictAndDrain.foldl (fun l a => l.call a.1 a.2) (emptyLedger 1)).Balanced :=
  incidentQueue_balanced <|
    TSys.reachableBy_run (.init ⟨1, 0, by decide, rfl⟩) evictAndDrain
      (TSys.runOk_of_forall noNul_evictAndDrain _) rfl

/-- A policy name that goes on after a NUL. -/
def nulIncident : QueuedIncident :=
  { usbIncident "a.txt" 7 with policyName := str "PII" ++ 0 :: str "EU" }

/-- The stored row has lost the end of the name. -/
theorem incidentQueue_not_balanced_nul :
    incidentQueue.Reachable ((emptyLedger 10).call (.fallback 100) (.enqueue nulIncident)) ∧
    ¬ ((emptyLedger 10).call (.fallback 100) (.enqueue nulIncident)).Balanced := by
  constructor
  · exact TSys.reachable_run (.init ⟨10, 0, by decide, rfl⟩) [(_, _)] rfl
  · intro h
    exact absurd h.fates (by decide)

end AkesoDlp.Agent
