import AkesoDlp.Lib.Json
import AkesoDlp.Lib.Matching
import AkesoDlp.Server.DiscoverScans

/-!
# The life cycle of a discover scan

The writes of `services/discover_service.py` behind the REST endpoints that
create, trigger and complete a scan and behind the gRPC method
`ReportDiscoverResults`. Triggering looks at the status first; completing does
not, on either path. Every write of a run is recorded with the row before it
and the row after it.
-/

namespace AkesoDlp.Server.DiscoverLifecycle

open Lib Discover DiscoverScans

/-- A JSON object. -/
abbrev JsonDict := List (List UInt8 × Json)

/-- The results of a scan, as `DiscoverComplete` has them. -/
structure DiscoverComplete where
  filesExamined : Int := 0
  filesScanned : Int := 0
  violationsFound : Int := 0
  filesQuarantined : Int := 0
  durationMs : Option Int := none
  findings : Option (List JsonDict) := none

/-- A row of `discover_scans`. Times are in microseconds. -/
structure DiscoverRow extends ScanRow, DiscoverComplete where
  startedAt : Option Int := none
  completedAt : Option Int := none

/-- A finding of a report. -/
structure DiscoverFinding where
  filePath : String
  fileName : String
  fileSize : Int
  fileOwner : String
  policyName : String
  severity : Int
  matchCount : Int
  actionTaken : String

/-- `ReportDiscoverResultsRequest`. -/
structure ReportRequest where
  agentId : String
  discoverId : String
  filesExamined : Int
  filesScanned : Int
  violationsFound : Int
  filesQuarantined : Int
  durationMs : Int
  findings : List DiscoverFinding

/-- `Severity.Name`, which raises for a number that the enumeration has no name for. -/
def severityName : Int → Option String
  | 0 => some "SEVERITY_UNSPECIFIED"
  | 1 => some "SEVERITY_INFO"
  | 2 => some "SEVERITY_LOW"
  | 3 => some "SEVERITY_MEDIUM"
  | 4 => some "SEVERITY_HIGH"
  | 5 => some "SEVERITY_CRITICAL"
  | _ => none

def jsonText (s : String) : List UInt8 := s.toUTF8.data.toList

def jsonInt (n : Int) : Json := .num (jsonText (toString n))

/-- One element of `findings_json`. -/
def findingJson (f : DiscoverFinding) : Option JsonDict :=
  (severityName f.severity).map fun severity =>
    [(jsonText "file_path", .str (jsonText f.filePath)),
      (jsonText "file_name", .str (jsonText f.fileName)),
      (jsonText "file_size", jsonInt f.fileSize),
      (jsonText "file_owner", .str (jsonText f.fileOwner)),
      (jsonText "policy_name", .str (jsonText f.policyName)),
      (jsonText "severity", .str (jsonText severity)),
      (jsonText "match_count", jsonInt f.matchCount),
      (jsonText "action_taken", .str (jsonText f.actionTaken))]

/-- What `ReportDiscoverResults` passes to `complete_discover`. -/
def reportData (req : ReportRequest) : Option DiscoverComplete :=
  (req.findings.mapM findingJson).map fun findings =>
    { filesExamined := req.filesExamined
      filesScanned := req.filesScanned
      violationsFound := req.violationsFound
      filesQuarantined := req.filesQuarantined
      durationMs := some req.durationMs
      findings := some findings }

/-- `trigger_discover` of the service. -/
def triggerDiscover (scan : DiscoverRow) (now : Int) : DiscoverRow :=
  { scan with status := .running, startedAt := some now }

/-- `complete_discover` of the service. -/
def completeDiscover (scan : DiscoverRow) (data : DiscoverComplete) (now : Int) : DiscoverRow :=
  { scan with toDiscoverComplete := data, status := .completed, completedAt := some now }

/-- The requests that write. The time is that of the server's clock. -/
inductive Request
  | create (discoverId : Uuid) (name : String) (body : DiscoverCreate) (now : Int)
  | trigger (discoverId : Uuid) (now : Int)
  | complete (discoverId : Uuid) (body : DiscoverComplete) (now : Int)
  | report (req : ReportRequest) (now : Int)

inductive WriteKind
  | trigger
  | complete
  | report
deriving DecidableEq, Repr

/-- A committed change of a row. -/
structure Write where
  kind : WriteKind
  before : DiscoverRow
  after : DiscoverRow

/-- The tables that the requests read, and the writes so far. -/
structure ScanStore where
  agents : List Uuid
  rows : List DiscoverRow
  history : List Write

/-- `get_discover`. -/
def getDiscover (s : ScanStore) (discoverId : Uuid) : Option DiscoverRow :=
  s.rows.find? fun row => row.id = discoverId

/-- An `INTEGER` column. -/
def fitsInteger (n : Int) : Bool := -2147483648 ≤ n && n ≤ 2147483647

/-- What the database checks when a row is flushed: the range of its numbers
and the foreign key of `agent_id`. -/
def flushes (s : ScanStore) (row : DiscoverRow) : Bool :=
  fitsInteger row.filesExamined && fitsInteger row.filesScanned &&
    fitsInteger row.violationsFound && fitsInteger row.filesQuarantined &&
    row.durationMs.all fitsInteger && row.agentId.all s.agents.contains

/-- Flush and commit. A row that cannot be flushed raises, and the session is
left without a commit. -/
def commit (s : ScanStore) (kind : WriteKind) (before after : DiscoverRow) : Option ScanStore :=
  if flushes s after then
    some { s with
      rows := s.rows.map fun row => if row.id = before.id then after else row
      history := s.history ++ [⟨kind, before, after⟩] }
  else none

/-- The row that a report completes: it gets the reporting agent where it has
none. A string that the driver takes for no UUID raises when it is flushed. -/
def assignAgent (driver : Driver) (req : ReportRequest) (scan : DiscoverRow) :
    Option DiscoverRow :=
  match scan.agentId with
  | some _ => some scan
  | none => (driver.parseUuid req.agentId).map fun agent => { scan with agentId := some agent }

/-- One request; `parseUuid` is `uuid.UUID`. A request that is answered with an
error commits nothing and is no step. -/
def lifecycleStep (parseUuid : String → Option Uuid) (driver : Driver) (s : ScanStore) :
    Request → Option ScanStore
  | .create discoverId name body now =>
      let scan : DiscoverRow :=
        { body with id := discoverId, name := name, status := .pending, createdAt := now }
      if (getDiscover s discoverId).isNone && flushes s scan then
        some { s with rows := s.rows ++ [scan] }
      else none
  | .trigger discoverId now =>
      (getDiscover s discoverId).bind fun scan =>
        if scan.status.value ∈ ["pending", "completed", "failed", "cancelled"] then
          commit s .trigger scan (triggerDiscover scan now)
        else none
  | .complete discoverId body now =>
      (getDiscover s discoverId).bind fun scan =>
        commit s .complete scan (completeDiscover scan body now)
  | .report req now =>
      (parseUuid req.discoverId).bind fun discoverId =>
        (getDiscover s discoverId).bind fun scan =>
          (reportData req).bind fun data =>
            (assignAgent driver req scan).bind fun assigned =>
              commit s .report scan (completeDiscover assigned data now)

/-- All runs over a table without scans. -/
def lifecycle (parseUuid : String → Option Uuid) (driver : Driver) : TSys ScanStore Request where
  init := fun s => s.rows = [] ∧ s.history = []
  step := lifecycleStep parseUuid driver

/-! ## The law -/

/-- The write is a trigger of the scan. -/
def Triggers (discoverId : Uuid) (w : Write) : Prop :=
  w.kind = .trigger ∧ w.before.id = discoverId

/-- The write records a completion of the scan. -/
def Completes (discoverId : Uuid) (w : Write) : Prop :=
  w.after.status = .completed ∧ w.before.id = discoverId

/-- A scan is completed only while it runs, every completion of it has a trigger
of its own before it, and a report for one that does not run changes nothing. -/
structure LifeCycleKept (s : ScanStore) : Prop where
  from_running : ∀ w ∈ s.history, w.after.status = .completed → w.before.status = .running
  matched : ∀ discoverId, Matched (Triggers discoverId) (Completes discoverId) s.history
  late_reports : ∀ w ∈ s.history, w.kind = .report → w.before.status ≠ .running →
    w.after = w.before

/-- The request completes a scan only where that is running. -/
def InTime (parseUuid : String → Option Uuid) (s : ScanStore) : Request → Prop
  | .complete discoverId _ _ =>
      ∀ scan, getDiscover s discoverId = some scan → scan.status = .running
  | .report req _ =>
      ∀ discoverId scan, parseUuid req.discoverId = some discoverId →
        getDiscover s discoverId = some scan → scan.status = .running
  | _ => True

/-! ## What a step writes -/

variable {parseUuid : String → Option Uuid} {driver : Driver} {s s' : ScanStore}

theorem id_of_getDiscover {discoverId : Uuid} {scan : DiscoverRow}
    (h : getDiscover s discoverId = some scan) : scan.id = discoverId := by
  simpa using List.find?_some h

theorem commit_eq {kind : WriteKind} {before after : DiscoverRow}
    (h : commit s kind before after = some s') :
    s' = { s with
      rows := s.rows.map fun row => if row.id = before.id then after else row
      history := s.history ++ [⟨kind, before, after⟩] } := by
  rw [commit, Option.ite_none_right_eq_some, Option.some.injEq] at h
  exact h.2.symm

/-- After a commit the scan is found as it was written, the others as before. -/
theorem getDiscover_commit {kind : WriteKind} {before after : DiscoverRow}
    (hfound : getDiscover s before.id = some before) (hid : after.id = before.id)
    (h : commit s kind before after = some s') (discoverId : Uuid) :
    getDiscover s' discoverId =
      if discoverId = before.id then some after else getDiscover s discoverId := by
  rw [commit_eq h, getDiscover, List.find?_map]
  have htest : ((fun row : DiscoverRow => decide (row.id = discoverId)) ∘
      fun row => if row.id = before.id then after else row) =
      fun row => decide (row.id = discoverId) := by
    funext row
    by_cases hrow : row.id = before.id
    · simp [hrow, hid]
    · simp [hrow]
  rw [htest]
  show Option.map _ (getDiscover s discoverId) = _
  by_cases heq : discoverId = before.id
  · rw [if_pos heq, heq, hfound]
    simp
  · rw [if_neg heq]
    cases hother : getDiscover s discoverId with
    | none => rfl
    | some row =>
        have hne : row.id ≠ before.id := id_of_getDiscover hother ▸ heq
        simp [hne]

/-- What a step can do: add a scan that is not running, trigger one, or complete one. -/
theorem lifecycleStep_cases {a : Request} (h : lifecycleStep parseUuid driver s a = some s') :
    (∃ scan, scan.status = .pending ∧ getDiscover s scan.id = none ∧
      s' = { s with rows := s.rows ++ [scan] }) ∨
    (∃ scan now, getDiscover s scan.id = some scan ∧
      commit s .trigger scan (triggerDiscover scan now) = some s') ∨
    ∃ kind scan after, kind ≠ .trigger ∧ getDiscover s scan.id = some scan ∧
      (InTime parseUuid s a → scan.status = .running) ∧ after.id = scan.id ∧
      after.status = .completed ∧ commit s kind scan after = some s' := by
  cases a with
  | create discoverId name body now =>
      simp only [lifecycleStep, Option.ite_none_right_eq_some, Bool.and_eq_true,
        Option.isNone_iff_eq_none, Option.some.injEq] at h
      exact .inl ⟨_, rfl, h.1.1, h.2.symm⟩
  | trigger discoverId now =>
      obtain ⟨scan, hfound, h⟩ := Option.bind_eq_some_iff.mp h
      rw [Option.ite_none_right_eq_some] at h
      exact .inr (.inl ⟨scan, now, (id_of_getDiscover hfound).symm ▸ hfound, h.2⟩)
  | complete discoverId body now =>
      obtain ⟨scan, hfound, h⟩ := Option.bind_eq_some_iff.mp h
      refine .inr (.inr ⟨.complete, scan, _, by decide, (id_of_getDiscover hfound).symm ▸ hfound,
        fun hin => hin scan hfound, ?_, ?_, h⟩)
      · rfl
      · rfl
  | report req now =>
      obtain ⟨discoverId, hparse, h⟩ := Option.bind_eq_some_iff.mp h
      obtain ⟨scan, hfound, h⟩ := Option.bind_eq_some_iff.mp h
      obtain ⟨data, -, h⟩ := Option.bind_eq_some_iff.mp h
      obtain ⟨assigned, hassigned, h⟩ := Option.bind_eq_some_iff.mp h
      have hid : assigned.id = scan.id := by
        unfold assignAgent at hassigned
        split at hassigned
        · rw [← Option.some.inj hassigned]
        · obtain ⟨agent, -, rfl⟩ := Option.map_eq_some_iff.mp hassigned
          rfl
      exact .inr (.inr ⟨.report, scan, completeDiscover assigned data now, by decide,
        (id_of_getDiscover hfound).symm ▸ hfound,
        fun hin => hin discoverId scan hparse hfound, hid, rfl, h⟩)

/-! ## The invariant -/

/-- The law, and that the last trigger of a running scan is still to be matched. -/
structure Settled (s : ScanStore) : Prop where
  kept : LifeCycleKept s
  running : ∀ discoverId scan, getDiscover s discoverId = some scan → scan.status = .running →
    HasFree (Triggers discoverId) (Completes discoverId) s.history

theorem settled_create {scan : DiscoverRow} (hs : Settled s) (hstatus : scan.status = .pending) :
    Settled { s with rows := s.rows ++ [scan] } := by
  refine ⟨⟨hs.kept.from_running, hs.kept.matched, hs.kept.late_reports⟩, ?_⟩
  intro discoverId row hfound hrunning
  rw [getDiscover, List.find?_append, Option.or_eq_some_iff] at hfound
  rcases hfound with hold | ⟨-, hnew⟩
  · exact hs.running discoverId row hold hrunning
  · have heq : row = scan := by simpa using List.mem_of_find?_eq_some hnew
    rw [heq, hstatus] at hrunning
    cases hrunning

theorem settled_trigger {scan : DiscoverRow} {now : Int} (hs : Settled s)
    (hfound : getDiscover s scan.id = some scan)
    (h : commit s .trigger scan (triggerDiscover scan now) = some s') : Settled s' := by
  have hopen : ∀ discoverId, ¬ Completes discoverId ⟨.trigger, scan, triggerDiscover scan now⟩ :=
    fun _ hc => DiscoverStatus.noConfusion hc.1
  have hid : (triggerDiscover scan now).id = scan.id := rfl
  have hget := getDiscover_commit hfound hid h
  have hhistory := congrArg ScanStore.history (commit_eq h)
  constructor
  case kept =>
    constructor
    case from_running =>
      rw [hhistory, List.forall_mem_append, List.forall_mem_singleton]
      exact ⟨hs.kept.from_running, fun hcompleted => absurd ⟨hcompleted, rfl⟩ (hopen scan.id)⟩
    case matched =>
      rw [hhistory]
      exact fun discoverId => (hs.kept.matched discoverId).append (hopen discoverId)
    case late_reports =>
      rw [hhistory, List.forall_mem_append, List.forall_mem_singleton]
      exact ⟨hs.kept.late_reports, fun hkind => WriteKind.noConfusion hkind⟩
  case running =>
    intro discoverId row hrow hrunning
    rw [hget] at hrow
    rw [hhistory]
    by_cases heq : discoverId = scan.id
    · exact (hs.kept.matched discoverId).append_opens ⟨rfl, heq.symm⟩ (hopen discoverId)
    · rw [if_neg heq] at hrow
      exact (hs.running discoverId row hrow hrunning).append (hopen discoverId)

theorem settled_complete {kind : WriteKind} {scan after : DiscoverRow} (hs : Settled s)
    (hfound : getDiscover s scan.id = some scan) (hstatus : scan.status = .running)
    (hid : after.id = scan.id) (hcompleted : after.status = .completed)
    (h : commit s kind scan after = some s') : Settled s' := by
  have hget := getDiscover_commit hfound hid h
  have hhistory := congrArg ScanStore.history (commit_eq h)
  have hother : ∀ discoverId, discoverId ≠ scan.id →
      ¬ Completes discoverId ⟨kind, scan, after⟩ := fun _ hne hc => hne hc.2.symm
  constructor
  case kept =>
    constructor
    case from_running =>
      rw [hhistory, List.forall_mem_append, List.forall_mem_singleton]
      exact ⟨hs.kept.from_running, fun _ => hstatus⟩
    case matched =>
      rw [hhistory]
      intro discoverId
      by_cases heq : discoverId = scan.id
      · exact (hs.running discoverId scan (heq ▸ hfound) hstatus).append_closes
      · exact (hs.kept.matched discoverId).append (hother discoverId heq)
    case late_reports =>
      rw [hhistory, List.forall_mem_append, List.forall_mem_singleton]
      exact ⟨hs.kept.late_reports, fun _ hlate => absurd hstatus hlate⟩
  case running =>
    intro discoverId row hrow hrunning
    rw [hget] at hrow
    rw [hhistory]
    by_cases heq : discoverId = scan.id
    · rw [if_pos heq, Option.some.injEq] at hrow
      rw [← hrow, hcompleted] at hrunning
      cases hrunning
    · rw [if_neg heq] at hrow
      exact (hs.running discoverId row hrow hrunning).append (hother discoverId heq)

theorem settled_inductive (parseUuid : String → Option Uuid) (driver : Driver) :
    (lifecycle parseUuid driver).InductiveBy (InTime parseUuid) Settled where
  init := by
    rintro s ⟨hrows, hhistory⟩
    refine ⟨⟨?_, ?_, ?_⟩, ?_⟩
    · intro w hw
      rw [hhistory] at hw
      cases hw
    · intro discoverId
      rw [hhistory]
      exact matched_nil
    · intro w hw
      rw [hhistory] at hw
      cases hw
    · intro discoverId scan hfound
      rw [getDiscover, hrows] at hfound
      cases hfound
  step := by
    intro s a s' hs hok hstep
    rcases lifecycleStep_cases hstep with
      ⟨scan, hstatus, -, rfl⟩ | ⟨scan, now, hfound, h⟩ |
        ⟨kind, scan, after, -, hfound, hin, hid, hcompleted, h⟩
    · exact settled_create hs hstatus
    · exact settled_trigger hs hfound h
    · exact settled_complete hs hfound (hin hok) hid hcompleted h

/-- In a run whose completions and reports all arrive while their scan is
running, every state keeps the life cycle. -/
theorem lifeCycleKept_of_inTime {parseUuid : String → Option Uuid} {driver : Driver}
    {s : ScanStore} (h : (lifecycle parseUuid driver).ReachableBy (InTime parseUuid) s) :
    LifeCycleKept s :=
  ((settled_inductive parseUuid driver).invariant s h).kept

/-- One registered agent and no scan yet. -/
def storeOfOne : ScanStore where
  agents := [1]
  rows := []
  history := []

/-- Agent 1 reports on scan 1. -/
def reportOfOne (violations : Int) : ReportRequest where
  agentId := "00000000-0000-0000-0000-000000000001"
  discoverId := "00000000-0000-0000-0000-000000000001"
  filesExamined := 10
  filesScanned := 10
  violationsFound := violations
  filesQuarantined := 0
  durationMs := 500
  findings := []

/-- A scan that is triggered and reported once. -/
theorem lifeCycleKept_of_inTime_reported :
    ∃ s, (lifecycle parseTwo driverOfOne).run storeOfOne
        [.create 1 "share" scanOfOne 0, .trigger 1 1, .report (reportOfOne 3) 2] = some s ∧
      LifeCycleKept s := by
  have h : (lifecycle parseTwo driverOfOne).ReachableBy (InTime parseTwo) storeOfOne :=
    .init ⟨rfl, rfl⟩
  have h := h.step (a := Request.create 1 "share" scanOfOne 0) trivial rfl
  have h := h.step (a := Request.trigger 1 1) trivial rfl
  have h := h.step (a := Request.report (reportOfOne 3) 2) (by
    intro discoverId scan hparse hfound
    cases hparse
    cases hfound
    rfl) rfl
  exact ⟨_, rfl, lifeCycleKept_of_inTime h⟩

/-- The agent reports twice, and the second report replaces the results of the
finished scan. -/
theorem second_report_recorded :
    ¬ ∀ parseUuid driver s, (lifecycle parseUuid driver).Reachable s → LifeCycleKept s := by
  intro h
  have hrun : ∃ s, (lifecycle parseTwo driverOfOne).run storeOfOne
        [.create 1 "share" scanOfOne 0, .trigger 1 1, .report (reportOfOne 3) 2,
          .report (reportOfOne 0) 3] = some s ∧
      ∃ w ∈ s.history, w.after.status = .completed ∧ w.before.status = .completed :=
    ⟨_, rfl, _, List.mem_cons_of_mem _ (List.mem_cons_of_mem _ List.mem_cons_self), rfl, rfl⟩
  obtain ⟨s, hs, w, hw, hafter, hbefore⟩ := hrun
  have hrunning := (h parseTwo driverOfOne s
    (TSys.reachable_run (.init ⟨rfl, rfl⟩) _ hs)).from_running w hw hafter
  rw [hbefore] at hrunning
  cases hrunning

end AkesoDlp.Server.DiscoverLifecycle
