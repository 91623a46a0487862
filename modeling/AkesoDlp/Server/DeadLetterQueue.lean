import AkesoDlp.Lib.TSys

/-!
# Retries and dismissals of a dead letter

`dlq_service.retry` and `dismiss` on one entry as coroutines that interleave at their awaits:
the SELECT of `get_entry`, the UPDATE and the COMMIT of `db.commit`, the SELECT of
`db.refresh`. PostgreSQL runs them READ COMMITTED: a SELECT sees what is committed, an UPDATE
waits for the row lock and then writes the values that were computed before it, whatever has
been committed since.
-/

namespace AkesoDlp.Server.DeadLetter

open Lib

/-- The retry state of a row of `dead_letter_queue`. -/
structure DeadLetterEntry where
  retryCount : Nat := 0
  maxRetries : Nat := 3
  isPermanent : Bool := false
  isDismissed : Bool := false
  lastRetryAt : Option Nat := none
deriving DecidableEq, Repr

inductive DlqRequest
  | retry
  | dismiss
deriving DecidableEq, Repr

/-- What an endpoint answers. -/
inductive DlqAnswer
  | refused
  | retried (retryCount : Nat) (isPermanent : Bool)
  | dismissed
deriving DecidableEq, Repr

/-- Where a request stands. -/
inductive DlqPhase
  /-- Not received yet. -/
  | idle
  /-- Its SELECT has returned the entry. -/
  | selected (kind : DlqRequest) (entry : DeadLetterEntry)
  /-- Its UPDATE has run, with the time taken before it: it holds the lock on the row. -/
  | updated (kind : DlqRequest) (entry : DeadLetterEntry) (now : Nat)
  /-- It has committed and reads the row back. -/
  | committed (kind : DlqRequest)
  | finished (answer : DlqAnswer)
deriving DecidableEq, Repr

/-- The commits that change the entry, in their order. -/
inductive DlqEvent
  | retried (isPermanent : Bool)
  | dismissed
deriving DecidableEq, Repr

/-- The commit makes the entry permanent or dismissed. -/
def DlqEvent.closes : DlqEvent → Bool
  | .retried isPermanent => isPermanent
  | .dismissed => true

def DlqEvent.isRetry : DlqEvent → Bool
  | .retried _ => true
  | .dismissed => false

structure DlqState where
  row : DeadLetterEntry
  /-- The request that has updated the row and not committed. -/
  locked : Option Nat := none
  requests : Nat → DlqPhase := fun _ => .idle
  events : List DlqEvent := []
  /-- The retries that have committed and not yet reported it. -/
  unreported : List Nat := []
  /-- The retries that have reported success. -/
  reported : Nat := 0

inductive DlqAction
  | select (request : Nat) (kind : DlqRequest)
  | update (request : Nat) (now : Nat)
  | commit (request : Nat)
  | refresh (request : Nat)
deriving DecidableEq, Repr

/-- The test of `retry`; `dismiss` has none. -/
def DeadLetterEntry.refuses (entry : DeadLetterEntry) : DlqRequest → Bool
  | .retry => entry.isPermanent || entry.isDismissed
  | .dismiss => false

/-- `entry.retry_count >= entry.max_retries` after the increment. -/
def DeadLetterEntry.exhausted (entry : DeadLetterEntry) : Bool :=
  decide (entry.maxRetries ≤ entry.retryCount + 1)

/-- The row after the UPDATE: the columns that the request has set on the entry it selected,
and no others. -/
def DeadLetterEntry.write (row entry : DeadLetterEntry) (now : Nat) : DlqRequest → DeadLetterEntry
  | .retry =>
      { row with
        retryCount := entry.retryCount + 1
        lastRetryAt := some now
        isPermanent := entry.exhausted || row.isPermanent }
  | .dismiss => { row with isDismissed := true }

def DlqState.setPhase (s : DlqState) (request : Nat) (phase : DlqPhase) : DlqState :=
  { s with requests := fun r => if r = request then phase else s.requests r }

/-- One statement or commit of one request. -/
def dlqStep (s : DlqState) : DlqAction → Option DlqState
  | .select request kind =>
      if s.requests request = .idle then
        if s.row.refuses kind then some (s.setPhase request (.finished .refused))
        else some (s.setPhase request (.selected kind s.row))
      else none
  | .update request now =>
      match s.requests request with
      | .selected kind entry =>
          -- a dismissal of a dismissed entry changes nothing, so no UPDATE is sent
          if kind = .dismiss ∧ entry.isDismissed = true then none
          -- waits while another transaction holds the row
          else if s.locked = none then
            some { s.setPhase request (.updated kind entry now) with locked := some request }
          else none
      | _ => none
  | .commit request =>
      match s.requests request with
      | .selected .dismiss entry =>
          if entry.isDismissed then some (s.setPhase request (.committed .dismiss)) else none
      | .updated .retry entry now =>
          some { s.setPhase request (.committed .retry) with
            row := s.row.write entry now .retry
            locked := none
            events := s.events ++ [.retried entry.exhausted]
            unreported := request :: s.unreported }
      | .updated .dismiss entry now =>
          some { s.setPhase request (.committed .dismiss) with
            row := s.row.write entry now .dismiss
            locked := none
            events := s.events ++ [.dismissed] }
      | _ => none
  | .refresh request =>
      match s.requests request with
      | .committed .retry =>
          some { s.setPhase request (.finished (.retried s.row.retryCount s.row.isPermanent)) with
            unreported := s.unreported.erase request
            reported := s.reported + 1 }
      | .committed .dismiss => some (s.setPhase request (.finished .dismissed))
      | _ => none

/-- The requests on an entry as `enqueue` leaves it. -/
def deadLetters (maxRetries : Nat) : TSys DlqState DlqAction where
  init s := s = { row := { maxRetries := maxRetries } }
  step := dlqStep

/-- Retries are counted and bounded. -/
structure Bounded (s : DlqState) : Prop where
  /-- The count is that of the retries that have succeeded; all but those that still read the
  row back have reported it. -/
  counted : s.row.retryCount = s.reported + s.unreported.length
  bounded : s.row.retryCount ≤ s.row.maxRetries
  permanent : s.row.isPermanent = true ↔ s.row.retryCount = s.row.maxRetries
  /-- No retry after a commit that made the entry permanent or dismissed. -/
  closed : s.events.Pairwise fun earlier later => earlier.closes = true → later.isRetry = false

/-- A retry commits on the row as it selected it. -/
def RetriesFreshRow (s : DlqState) : DlqAction → Prop
  | .commit request => ∀ entry now, s.requests request = .updated .retry entry now → s.row = entry
  | _ => True

/-- The request is a retry of the entry that it has selected and not yet committed. -/
def DlqPhase.Retries (entry : DeadLetterEntry) : DlqPhase → Prop
  | .selected .retry x => x = entry
  | .updated .retry x _ => x = entry
  | _ => False

/-- What a retry knows of the row from its SELECT. -/
structure Snapshot (row entry : DeadLetterEntry) : Prop where
  maxRetries : entry.maxRetries = row.maxRetries
  notPermanent : entry.isPermanent = false
  notDismissed : entry.isDismissed = false
  notExhausted : entry.retryCount < entry.maxRetries
  notAhead : entry.retryCount ≤ row.retryCount
  /-- As long as no retry commits, only a dismissal can have changed the row. -/
  unretried : entry.retryCount = row.retryCount →
    row = { entry with isDismissed := row.isDismissed }

structure DlqInv (s : DlqState) : Prop where
  snapshots : ∀ request entry, (s.requests request).Retries entry → Snapshot s.row entry
  dismissed : s.row.isDismissed = true → DlqEvent.dismissed ∈ s.events
  closed : ∀ e ∈ s.events, e.closes = true → s.row.isPermanent = true ∨ s.row.isDismissed = true
  unreported : ∀ request, s.requests request = .committed .retry → request ∈ s.unreported

/-! ## The steps -/

variable {s s' : DlqState} {request r : Nat} {entry : DeadLetterEntry} {now : Nat}

theorem requests_setPhase_self (phase : DlqPhase) :
    (s.setPhase request phase).requests request = phase :=
  if_pos rfl

theorem requests_setPhase_of_ne (phase : DlqPhase) (h : r ≠ request) :
    (s.setPhase request phase).requests r = s.requests r :=
  if_neg h

/-- A retry in the next state was one before, or is the one of this step. -/
theorem retries_setPhase {phase : DlqPhase}
    (h : ((s.setPhase request phase).requests r).Retries entry) :
    phase.Retries entry ∨ (s.requests r).Retries entry := by
  by_cases hr : r = request
  · rw [hr, requests_setPhase_self] at h
    exact Or.inl h
  · rw [requests_setPhase_of_ne phase hr] at h
    exact Or.inr h

theorem snapshot_self (hs : Bounded s) (h : s.row.refuses .retry = false) :
    Snapshot s.row s.row := by
  obtain ⟨hpermanent, hdismissed⟩ := Bool.or_eq_false_iff.mp h
  have hne : s.row.retryCount ≠ s.row.maxRetries := by
    rw [ne_eq, ← hs.permanent, hpermanent]
    decide
  exact ⟨rfl, hpermanent, hdismissed, Nat.lt_of_le_of_ne hs.bounded hne, Nat.le_refl _,
    fun _ => rfl⟩

/-- A dismissal changes nothing that a retry writes. -/
theorem Snapshot.dismiss {row : DeadLetterEntry} (h : Snapshot row entry)
    (other : DeadLetterEntry) (now : Nat) : Snapshot (row.write other now .dismiss) entry :=
  ⟨h.maxRetries, h.notPermanent, h.notDismissed, h.notExhausted, h.notAhead, fun hcount => by
    rw [DeadLetterEntry.write, h.unretried hcount]⟩

/-- Another retry puts the row ahead of the entry. -/
theorem Snapshot.retry {row other : DeadLetterEntry} (h : Snapshot row entry)
    (hother : row = other) : Snapshot (row.write other now .retry) entry := by
  have hahead : entry.retryCount < (row.write other now .retry).retryCount := by
    have hle := h.notAhead
    rw [hother] at hle ⊢
    exact Nat.lt_succ_of_le hle
  exact ⟨h.maxRetries, h.notPermanent, h.notDismissed, h.notExhausted, Nat.le_of_lt hahead,
    fun hcount => absurd hcount (Nat.ne_of_lt hahead)⟩

/-- A dismissal may commit at any time. -/
theorem bounded_commitDismiss (hs : Bounded s) :
    Bounded { s.setPhase request (.committed .dismiss) with
      row := s.row.write entry now .dismiss
      locked := none
      events := s.events ++ [.dismissed] } where
  counted := hs.counted
  bounded := hs.bounded
  permanent := hs.permanent
  closed := by
    refine List.pairwise_append.mpr ⟨hs.closed, List.pairwise_singleton .., ?_⟩
    intro e _ later hlater _
    rw [List.mem_singleton.mp hlater]
    rfl

/-- A retry leaves the entry counted and bounded exactly when the row is the one it selected:
another retry since then is not counted, and a dismissal comes before the retry. -/
theorem bounded_commitRetry_iff (hs : Bounded s) (hinv : DlqInv s)
    (hsnapshot : Snapshot s.row entry) :
    Bounded { s.setPhase request (.committed .retry) with
      row := s.row.write entry now .retry
      locked := none
      events := s.events ++ [.retried entry.exhausted]
      unreported := request :: s.unreported } ↔ s.row = entry := by
  constructor
  · intro h
    have hcount : entry.retryCount + 1 = s.reported + (s.unreported.length + 1) := h.counted
    have hsame : entry.retryCount = s.row.retryCount := by
      have := hs.counted
      omega
    have hundismissed : s.row.isDismissed = false := by
      rw [Bool.eq_false_iff]
      intro hdismissed
      have hlater := (List.pairwise_append.mp h.closed).2.2 _ (hinv.dismissed hdismissed)
        (.retried entry.exhausted) List.mem_cons_self rfl
      cases hlater
    have hrow := hsnapshot.unretried hsame
    rw [hundismissed, ← hsnapshot.notDismissed] at hrow
    exact hrow
  · rintro rfl
    have hcounted := hs.counted
    have hlt := hsnapshot.notExhausted
    refine ⟨?_, hlt, ?_, ?_⟩
    · show s.row.retryCount + 1 = s.reported + (s.unreported.length + 1)
      omega
    · show (s.row.exhausted || s.row.isPermanent) = true ↔
        s.row.retryCount + 1 = s.row.maxRetries
      rw [hsnapshot.notPermanent, Bool.or_false, DeadLetterEntry.exhausted, decide_eq_true_eq]
      omega
    · refine List.pairwise_append.mpr ⟨hs.closed, List.pairwise_singleton .., ?_⟩
      intro e he later _ hcloses
      rcases hinv.closed e he hcloses with hpermanent | hdismissed
      · exact absurd (hpermanent.symm.trans hsnapshot.notPermanent) (by decide)
      · exact absurd (hdismissed.symm.trans hsnapshot.notDismissed) (by decide)

/-- What a step can do. The first case is all that leaves the row as it is and reports
nothing. -/
inductive DlqStepped (s : DlqState) : DlqAction → DlqState → Prop
  | quiet {a : DlqAction} (request : Nat) (phase : DlqPhase) (locked : Option Nat)
      (hnot : ∀ r entry now, a = .commit r → s.requests r ≠ .updated .retry entry now)
      (hretries : ∀ entry, phase.Retries entry →
        (s.requests request).Retries entry ∨ (entry = s.row ∧ s.row.refuses .retry = false))
      (hcommitted : phase ≠ .committed .retry) :
      DlqStepped s a { s.setPhase request phase with locked := locked }
  | commitRetry (request : Nat) (entry : DeadLetterEntry) (now : Nat)
      (hphase : s.requests request = .updated .retry entry now) :
      DlqStepped s (.commit request) { s.setPhase request (.committed .retry) with
        row := s.row.write entry now .retry
        locked := none
        events := s.events ++ [.retried entry.exhausted]
        unreported := request :: s.unreported }
  | commitDismiss (request : Nat) (entry : DeadLetterEntry) (now : Nat)
      (hphase : s.requests request = .updated .dismiss entry now) :
      DlqStepped s (.commit request) { s.setPhase request (.committed .dismiss) with
        row := s.row.write entry now .dismiss
        locked := none
        events := s.events ++ [.dismissed] }
  | report (request : Nat) (hphase : s.requests request = .committed .retry) :
      DlqStepped s (.refresh request)
        { s.setPhase request (.finished (.retried s.row.retryCount s.row.isPermanent)) with
          unreported := s.unreported.erase request
          reported := s.reported + 1 }

theorem dlqStep_cases {a : DlqAction} (h : dlqStep s a = some s') : DlqStepped s a s' := by
  cases a with
  | select request kind =>
      simp only [dlqStep, Option.ite_none_right_eq_some] at h
      obtain ⟨-, h⟩ := h
      split at h
      · cases h
        exact .quiet request _ _ (fun _ _ _ ha => by cases ha) (fun _ hx => hx.elim)
          DlqPhase.noConfusion
      · rename_i hrefuses
        cases h
        refine .quiet request _ _ (fun _ _ _ ha => by cases ha) (fun entry hx => ?_)
          DlqPhase.noConfusion
        cases kind with
        | retry => exact Or.inr ⟨hx.symm, Bool.eq_false_iff.mpr hrefuses⟩
        | dismiss => exact hx.elim
  | update request now =>
      simp only [dlqStep] at h
      split at h
      · rename_i kind entry hphase
        split at h
        · cases h
        · split at h
          · cases h
            refine .quiet request _ _ (fun _ _ _ ha => by cases ha) (fun x hx => ?_)
              DlqPhase.noConfusion
            rw [hphase]
            cases kind with
            | retry => exact Or.inl hx
            | dismiss => exact hx.elim
          · cases h
      · cases h
  | commit request =>
      simp only [dlqStep] at h
      split at h
      · rename_i entry hphase
        split at h
        · cases h
          refine .quiet request _ _ (fun r _ _ hr hne => ?_) (fun _ hx => hx.elim) (by decide)
          cases hr
          rw [hphase] at hne
          cases hne
        · cases h
      · rename_i entry now hphase
        cases h
        exact .commitRetry request entry now hphase
      · rename_i entry now hphase
        cases h
        exact .commitDismiss request entry now hphase
      · cases h
  | refresh request =>
      simp only [dlqStep] at h
      split at h
      · rename_i hphase
        cases h
        exact .report request hphase
      · cases h
        exact .quiet request _ _ (fun _ _ _ ha => by cases ha) (fun _ hx => hx.elim)
          DlqPhase.noConfusion
      · cases h

theorem bounded_step_iff {a : DlqAction} (hinv : DlqInv s) (hs : Bounded s)
    (h : dlqStep s a = some s') : Bounded s' ↔ RetriesFreshRow s a := by
  cases dlqStep_cases h with
  | quiet request phase locked hnot =>
      refine iff_of_true ⟨hs.counted, hs.bounded, hs.permanent, hs.closed⟩ ?_
      cases a with
      | commit r =>
          exact fun entry now hphase => absurd hphase (hnot r entry now rfl)
      | select | update | refresh => trivial
  | commitRetry request entry now hphase =>
      have hsnapshot : Snapshot s.row entry := hinv.snapshots request entry (by rw [hphase]; rfl)
      rw [bounded_commitRetry_iff hs hinv hsnapshot]
      constructor
      · intro hrow x t hx
        rw [hphase] at hx
        cases hx
        exact hrow
      · exact fun hfresh => hfresh entry now hphase
  | commitDismiss request entry now hphase =>
      refine iff_of_true (bounded_commitDismiss hs) fun x t hx => ?_
      rw [hphase] at hx
      cases hx
  | report request hphase =>
      refine iff_of_true ⟨?_, hs.bounded, hs.permanent, hs.closed⟩ trivial
      have hmem := hinv.unreported request hphase
      have hlength := List.length_erase_of_mem hmem
      have hpos := List.length_pos_of_mem hmem
      have hcounted := hs.counted
      show s.row.retryCount = s.reported + 1 + (s.unreported.erase request).length
      omega

/-- A phase that is not a retry waiting to report leaves the others to report. -/
theorem mem_unreported_setPhase {phase : DlqPhase} (hinv : DlqInv s)
    (hphase : phase ≠ .committed .retry)
    (h : (s.setPhase request phase).requests r = .committed .retry) :
    r ≠ request ∧ r ∈ s.unreported := by
  have hr : r ≠ request := by
    rintro rfl
    rw [requests_setPhase_self] at h
    exact hphase h
  rw [requests_setPhase_of_ne phase hr] at h
  exact ⟨hr, hinv.unreported r h⟩

theorem dlqInv_step {a : DlqAction} (hinv : DlqInv s) (hs : Bounded s)
    (h : dlqStep s a = some s') (hfresh : RetriesFreshRow s a) : DlqInv s' := by
  cases dlqStep_cases h with
  | quiet request phase locked hnot hretries hcommitted =>
      refine ⟨fun r entry hr => ?_, hinv.dismissed, hinv.closed, fun r hr =>
        (mem_unreported_setPhase hinv hcommitted hr).2⟩
      rcases retries_setPhase hr with hnew | hold
      · rcases hretries entry hnew with hbefore | ⟨rfl, hrefuses⟩
        · exact hinv.snapshots request entry hbefore
        · have hself : Snapshot s.row s.row := snapshot_self hs hrefuses
          exact hself
      · exact hinv.snapshots r entry hold
  | commitRetry request entry now hphase =>
      have hrow : s.row = entry := hfresh entry now hphase
      refine ⟨fun r x hr => ?_, ?_, ?_, fun r hr => ?_⟩
      · rcases retries_setPhase hr with hnew | hold
        · exact hnew.elim
        · exact (hinv.snapshots r x hold).retry hrow
      · exact fun hdismissed => List.mem_append_left _ (hinv.dismissed hdismissed)
      · intro e he hcloses
        rcases List.mem_append.mp he with hmem | hnew
        · refine (hinv.closed e hmem hcloses).imp_left fun hpermanent => ?_
          show (entry.exhausted || s.row.isPermanent) = true
          rw [hpermanent, Bool.or_true]
        · rw [List.mem_singleton.mp hnew] at hcloses
          refine Or.inl ?_
          show (entry.exhausted || s.row.isPermanent) = true
          rw [show entry.exhausted = true from hcloses, Bool.true_or]
      · by_cases heq : r = request
        · exact heq ▸ List.mem_cons_self
        · have hold : s.requests r = .committed .retry :=
            (requests_setPhase_of_ne _ heq).symm.trans hr
          exact List.mem_cons_of_mem _ (hinv.unreported r hold)
  | commitDismiss request entry now hphase =>
      refine ⟨fun r x hr => ?_, ?_, ?_, fun r hr => ?_⟩
      · rcases retries_setPhase hr with hnew | hold
        · exact hnew.elim
        · exact (hinv.snapshots r x hold).dismiss entry now
      · exact fun _ => List.mem_append_right _ List.mem_cons_self
      · exact fun _ _ _ => Or.inr rfl
      · exact (mem_unreported_setPhase hinv (by decide) hr).2
  | report request hphase =>
      refine ⟨fun r x hr => ?_, hinv.dismissed, hinv.closed, fun r hr => ?_⟩
      · rcases retries_setPhase hr with hnew | hold
        · exact hnew.elim
        · exact hinv.snapshots r x hold
      · obtain ⟨hne, hmem⟩ := mem_unreported_setPhase hinv DlqPhase.noConfusion hr
        exact (List.mem_erase_of_ne hne).mpr hmem

/-! ## Whole schedules -/

theorem bounded_init {maxRetries : Nat} (hmax : 1 ≤ maxRetries) :
    Bounded { row := { maxRetries := maxRetries } } := by
  refine ⟨rfl, Nat.zero_le _, iff_of_false Bool.false_ne_true ?_, List.Pairwise.nil⟩
  show ¬ 0 = maxRetries
  omega

theorem dlqInv_init {maxRetries : Nat} : DlqInv { row := { maxRetries := maxRetries } } :=
  ⟨fun _ _ hretries => hretries.elim, fun hdismissed => absurd hdismissed Bool.false_ne_true,
    fun _ he => absurd he List.not_mem_nil, fun _ hphase => DlqPhase.noConfusion hphase⟩

/-- A schedule keeps the retries counted and bounded, wherever it gets to, exactly when every
retry commits on the row that it selected. -/
theorem retries_bounded_iff {maxRetries : Nat} {actions : List DlqAction} (hmax : 1 ≤ maxRetries)
    (hinit : (deadLetters maxRetries).init s)
    (hrun : (deadLetters maxRetries).run s actions = some s') :
    (deadLetters maxRetries).Always Bounded s actions ↔
      (deadLetters maxRetries).RunOk RetriesFreshRow s actions := by
  have hstart : s = { row := { maxRetries := maxRetries } } := hinit
  subst hstart
  refine TSys.always_iff_runOk (I := DlqInv) ?_ ?_ dlqInv_init (bounded_init hmax) hrun
  · intro s a s' hinv hs hstep hs'
    exact dlqInv_step hinv hs hstep ((bounded_step_iff hinv hs hstep).mp hs')
  · exact fun s a s' hinv hs hstep => bounded_step_iff hinv hs hstep

/-- `RetriesFreshRow` as a test. -/
def retriesFreshRow (s : DlqState) : DlqAction → Bool
  | .commit request =>
      match s.requests request with
      | .updated .retry entry _ => decide (s.row = entry)
      | _ => true
  | _ => true

theorem retriesFreshRow_of_test (s : DlqState) (a : DlqAction) (h : retriesFreshRow s a = true) :
    RetriesFreshRow s a := by
  cases a with
  | commit request =>
      intro entry now hphase
      simp only [retriesFreshRow, hphase, decide_eq_true_eq] at h
      exact h
  | select | update | refresh => trivial

/-- Two retries one after the other, and a third one that is refused. -/
theorem retries_bounded_inOrder :
    (deadLetters 2).Always Bounded { row := { maxRetries := 2 } }
      [.select 1 .retry, .update 1 10, .commit 1, .refresh 1,
        .select 2 .retry, .update 2 20, .commit 2, .refresh 2, .select 3 .retry] := by
  have hrun : ∃ s', (deadLetters 2).run { row := { maxRetries := 2 } }
      [.select 1 .retry, .update 1 10, .commit 1, .refresh 1,
        .select 2 .retry, .update 2 20, .commit 2, .refresh 2, .select 3 .retry] = some s' :=
    ⟨_, rfl⟩
  obtain ⟨s', hrun⟩ := hrun
  exact (retries_bounded_iff (by decide) rfl hrun).mpr
    (TSys.runOk_of_runAll retriesFreshRow_of_test (by decide))

/-- Two retries that both select before either commits are counted as one. -/
theorem retry_lost :
    ¬ ∀ (maxRetries : Nat) (s s' : DlqState) (actions : List DlqAction), 1 ≤ maxRetries →
        (deadLetters maxRetries).init s → (deadLetters maxRetries).run s actions = some s' →
          (deadLetters maxRetries).Always Bounded s actions := by
  intro hclaim
  have hrun : ∃ s', (deadLetters 3).run { row := { maxRetries := 3 } }
        [.select 1 .retry, .select 2 .retry, .update 1 10, .commit 1, .refresh 1,
          .update 2 20, .commit 2, .refresh 2] = some s' ∧
      s'.row.retryCount = 1 ∧ s'.reported = 2 := ⟨_, rfl, rfl, rfl⟩
  obtain ⟨s', hrun, hcount, hreported⟩ := hrun
  have hbounded := hclaim 3 _ s' _ (by decide) rfl hrun _ (List.prefix_refl _) s' hrun
  have hcounted := hbounded.counted
  omega

end AkesoDlp.Server.DeadLetter
