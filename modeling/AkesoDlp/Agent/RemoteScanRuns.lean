import AkesoDlp.Agent.ScanThreads

/-!
# Overlapping remote scans

Nothing keeps a second execution of `RunRemoteScan` from starting within a first one: it
then saves the configuration of the first as the one to restore, and resets its statistics.
Nor does anything keep the scan thread from walking meanwhile: it then counts into the
statistics of the execution. Runs in which an execution starts only when no other scan is
under way, and none starts during one, leave the configuration as it was, and every
execution scans its own path with its own filters.
-/

namespace AkesoDlp.Agent

open Lib DiscoverScanner

section

variable (platform : Platform) (fs : FileSystem)

/-! ## What an execution should have done -/

/-- The disposition is one that these filters lead to. -/
def FilteredBy (config : DiscoverConfig) (file : FileEntry) (d : Disposition) : Prop :=
  if config.isPathExcluded platform file.path then d = .excluded
  else if file.size = 0 then d = .empty
  else if config.maxFileSize < file.size then d = .tooLarge
  else if !config.hasAllowedExtension platform file.path then d = .otherExtension
  else d = .unchanged ∨ d = .unheard ∨ d = .scanned ∨ d = .failed

/-- The directory of the request, if there is one, is what was walked. -/
def walkedPath (params : RemoteScanParams) : List StdString :=
  if (fs params.scanPath).isSome then [params.scanPath] else []

/-- It walked its own path, with its own filters over the local configuration, and its
result counts its own files. -/
structure OwnScan (config : DiscoverConfig) (e : RemoteExecution) : Prop where
  walked : e.scan.walked = walkedPath fs e.params
  files : e.scan.visited.map Prod.fst = requested fs e.params
  filtered : ∀ visit ∈ e.scan.visited,
    FilteredBy platform (remoteConfig config e.params) visit.1 visit.2
  result : e.result = (statsOf e.scan.visited).complete

namespace ScanThreads

/-- Once all executions have returned the configuration is what it was, and each of them
scanned what it should. -/
def Undisturbed (config : DiscoverConfig) (s : ScanThreads) : Prop :=
  (s.Quiet → s.scanner.config = config) ∧
    ∀ thread e, s.threads thread = some e → e.pc = .returned → OwnScan platform fs config e

end ScanThreads

/-! ## The walk of a request -/

/-- Before the walk, or without one. -/
structure Unwalked (scan : FullScan) : Prop where
  dirIndex : scan.dirIndex = 0
  walked : scan.walked = []
  visited : scan.visited = []

/-- In the walk of the directory of the request, with `pending` still to be settled. -/
structure Walking (config : DiscoverConfig) (params : RemoteScanParams) (scan : FullScan)
    (pending : List FileEntry) : Prop where
  dirIndex : scan.dirIndex = 1
  walked : scan.walked = walkedPath fs params
  files : scan.visited.map Prod.fst ++ pending = requested fs params
  filtered : ∀ visit ∈ scan.visited,
    FilteredBy platform (remoteConfig config params) visit.1 visit.2

/-- What holds before each statement of a scan with the configuration of the request in
force. -/
def Scanning (config : DiscoverConfig) (params : RemoteScanParams) (scan : FullScan) : Prop :=
  match scan.pc with
  | .nextDir | .complete | .done => Unwalked scan ∨ Walking platform fs config params scan []
  | .nextEntry | .store _ => Walking platform fs config params scan (regularFiles scan.rest)
  | .examine file | .checkExclusions file =>
      Walking platform fs config params scan (file :: regularFiles scan.rest)
  | .checkSize file =>
      Walking platform fs config params scan (file :: regularFiles scan.rest) ∧
        (remoteConfig config params).isPathExcluded platform file.path = false
  | .checkExtension file =>
      Walking platform fs config params scan (file :: regularFiles scan.rest) ∧
        (remoteConfig config params).isPathExcluded platform file.path = false ∧
        file.size ≠ 0 ∧ ¬ (remoteConfig config params).maxFileSize < file.size
  | .checkUnchanged file | .invoke file =>
      Walking platform fs config params scan (file :: regularFiles scan.rest) ∧
        Eligible platform (remoteConfig config params) file
  | .tally file d =>
      Walking platform fs config params scan (file :: regularFiles scan.rest) ∧
        FilteredBy platform (remoteConfig config params) file d

theorem Walking.tally {config : DiscoverConfig} {params : RemoteScanParams} {scan : FullScan}
    {file : FileEntry} {d : Disposition} {pending : List FileEntry}
    (h : Walking platform fs config params scan (file :: pending))
    (hd : FilteredBy platform (remoteConfig config params) file d) :
    Walking platform fs config params { scan with visited := scan.visited ++ [(file, d)] }
      pending where
  dirIndex := h.dirIndex
  walked := h.walked
  files := by
    have hfiles := h.files
    simp only [List.map_append, List.map_cons, List.map_nil, List.append_assoc,
      List.singleton_append]
    exact hfiles
  filtered := by
    intro visit hvisit
    obtain hvisit | hvisit := List.mem_append.mp hvisit
    · exact h.filtered visit hvisit
    · rw [List.mem_singleton.mp hvisit]
      exact hd

/-- The walk is described by these variables of the scan; the rest may change. -/
theorem Walking.frame {config : DiscoverConfig} {params : RemoteScanParams}
    {scan scan' : FullScan} {pending : List FileEntry}
    (h : Walking platform fs config params scan pending)
    (hlocals : (scan'.dirIndex, scan'.walked, scan'.visited) =
      (scan.dirIndex, scan.walked, scan.visited)) :
    Walking platform fs config params scan' pending := by
  simp only [Prod.mk.injEq] at hlocals
  obtain ⟨hindex, hwalked, hvisited⟩ := hlocals
  exact
    { dirIndex := hindex.trans h.dirIndex
      walked := hwalked.trans h.walked
      files := by rw [hvisited]; exact h.files
      filtered := by rw [hvisited]; exact h.filtered }

/-- The walk begins when the directory of the request is looked up. -/
theorem walking_start (config : DiscoverConfig) (params : RemoteScanParams) {scan : FullScan}
    (h : Unwalked scan) :
    Walking platform fs config params
      { scan with
        dirIndex := scan.dirIndex + 1
        walked := scan.walked ++ walkedPath fs params }
      (requested fs params) where
  dirIndex := by simp [h.dirIndex]
  walked := by simp [h.walked]
  files := by simp [h.visited]
  filtered := by simp [h.visited]

/-- A file that the filters let pass is eligible, and whatever happens to it then is what
they lead to. -/
theorem filteredBy_of_eligible {config : DiscoverConfig} {file : FileEntry} {d : Disposition}
    (h : Eligible platform config file)
    (hd : d = .unchanged ∨ d = .unheard ∨ d = .scanned ∨ d = .failed) :
    FilteredBy platform config file d := by
  obtain ⟨hsize, hmax, hexcluded, hextension⟩ := h
  rw [FilteredBy, hexcluded, if_neg Bool.false_ne_true, if_neg hsize,
    if_neg (Int.not_lt.mpr hmax), hextension]
  exact hd

section

variable {config : DiscoverConfig} {params : RemoteScanParams} {s : DiscoverScanner}
  {scan : FullScan} {file : FileEntry}

/-- The lookup of a directory starts the walk, or finds that there is none left. -/
theorem scanning_nextDir (h : Scanning platform fs config params scan)
    (hconfig : s.config = remoteConfig config params) (hpc : scan.pc = .nextDir) :
    Scanning platform fs config params (scan.advance platform fs s).2 := by
  obtain ⟨pc, dirIndex, rest, walked, visited⟩ := scan
  obtain rfl : pc = .nextDir := hpc
  rcases h with hunwalked | hwalking
  · have hindex : dirIndex = 0 := hunwalked.dirIndex
    have htarget : s.config.targetDirectories[dirIndex]? = some params.scanPath := by
      rw [hconfig, hindex]
      rfl
    have hstart := walking_start platform fs config params hunwalked
    simp only [FullScan.advance, htarget]
    split
    · exact .inl ⟨hunwalked.1, hunwalked.2, hunwalked.3⟩
    · cases hdir : fs params.scanPath with
      | none =>
          have hpath : walkedPath fs params = [] := by simp [walkedPath, hdir]
          have hnothing : requested fs params = [] := by
            simp [requested, FileSystem.below, hdir, walkEntries, regularFiles]
          rw [hpath, List.append_nil, hnothing] at hstart
          exact .inr (hstart.frame platform fs rfl)
      | some entries =>
          have hpath : walkedPath fs params = [params.scanPath] := by simp [walkedPath, hdir]
          have hrequested : requested fs params = regularFiles (walkEntries entries) := by
            simp [requested, FileSystem.below, hdir]
          rw [hpath, hrequested] at hstart
          exact hstart.frame platform fs rfl
  · have htarget : s.config.targetDirectories[dirIndex]? = none := by
      have hindex : dirIndex = 1 := hwalking.dirIndex
      rw [hconfig, hindex]
      rfl
    simp only [FullScan.advance, htarget]
    exact .inr (hwalking.frame platform fs rfl)

/-- A file that a filter takes is one that the filters lead to; the others pass it on. -/
theorem scanning_checkExclusions (h : Scanning platform fs config params scan)
    (hconfig : s.config = remoteConfig config params) (hpc : scan.pc = .checkExclusions file) :
    Scanning platform fs config params (scan.advance platform fs s).2 := by
  obtain ⟨pc, dirIndex, rest, walked, visited⟩ := scan
  obtain rfl : pc = .checkExclusions file := hpc
  have hwalking : Walking platform fs config params _ (file :: regularFiles rest) := h
  simp only [FullScan.advance, hconfig]
  split
  · next hexcluded => exact ⟨hwalking.frame platform fs rfl, (if_pos hexcluded).mpr rfl⟩
  · next hexcluded => exact ⟨hwalking.frame platform fs rfl, Bool.not_eq_true _ ▸ hexcluded⟩

theorem scanning_checkSize (h : Scanning platform fs config params scan)
    (hconfig : s.config = remoteConfig config params) (hpc : scan.pc = .checkSize file) :
    Scanning platform fs config params (scan.advance platform fs s).2 := by
  obtain ⟨pc, dirIndex, rest, walked, visited⟩ := scan
  obtain rfl : pc = .checkSize file := hpc
  obtain ⟨hwalking, hexcluded⟩ := h
  have hpassed : ¬ (remoteConfig config params).isPathExcluded platform file.path = true :=
    Bool.eq_false_iff.mp hexcluded
  simp only [FullScan.advance, hconfig]
  split
  · next hempty =>
      refine ⟨hwalking.frame platform fs rfl, ?_⟩
      simp only [FilteredBy, if_neg hpassed, if_pos hempty]
  · next hnonempty =>
      split
      · next hlarge =>
          refine ⟨hwalking.frame platform fs rfl, ?_⟩
          simp only [FilteredBy, if_neg hpassed, if_neg hnonempty, if_pos hlarge]
      · next hsmall =>
          exact ⟨hwalking.frame platform fs rfl, hexcluded, hnonempty, hsmall⟩

theorem scanning_checkExtension (h : Scanning platform fs config params scan)
    (hconfig : s.config = remoteConfig config params) (hpc : scan.pc = .checkExtension file) :
    Scanning platform fs config params (scan.advance platform fs s).2 := by
  obtain ⟨pc, dirIndex, rest, walked, visited⟩ := scan
  obtain rfl : pc = .checkExtension file := hpc
  obtain ⟨hwalking, hexcluded, hsize, hmax⟩ := h
  simp only [FullScan.advance, hconfig]
  split
  · next hextension =>
      refine ⟨hwalking.frame platform fs rfl, ?_⟩
      rw [FilteredBy, hexcluded, if_neg Bool.false_ne_true, if_neg hsize, if_neg hmax,
        if_pos hextension]
  · next hextension =>
      refine ⟨hwalking.frame platform fs rfl, hsize, Int.not_lt.mp hmax, hexcluded, ?_⟩
      rwa [Bool.not_eq_true, Bool.not_eq_false'] at hextension

/-- The callback decides what becomes of an eligible file. -/
theorem scanning_invoke (h : Scanning platform fs config params scan)
    (hpc : scan.pc = .invoke file) :
    Scanning platform fs config params (scan.advance platform fs s).2 := by
  obtain ⟨pc, dirIndex, rest, walked, visited⟩ := scan
  obtain rfl : pc = .invoke file := hpc
  obtain ⟨hwalking, heligible⟩ := h
  have hfiltered := fun d => filteredBy_of_eligible platform (d := d) heligible
  simp only [FullScan.advance]
  split
  · exact ⟨hwalking.frame platform fs rfl, hfiltered _ (.inr (.inl rfl))⟩
  · refine ⟨hwalking.frame platform fs rfl, hfiltered _ ?_⟩
    split
    · exact .inr (.inr (.inl rfl))
    · exact .inr (.inr (.inr rfl))

/-- The statements of a scan, one after the other. -/
theorem scanning_advance (h : Scanning platform fs config params scan)
    (hconfig : s.config = remoteConfig config params)
    (hrunning : scan.dirIndex ≠ 0 → s.running = true) :
    Scanning platform fs config params (scan.advance platform fs s).2 := by
  obtain ⟨pc, dirIndex, rest, walked, visited⟩ := scan
  cases pc with
  | nextDir => exact scanning_nextDir platform fs h hconfig rfl
  | nextEntry =>
      have hwalking : Walking platform fs config params _ (regularFiles rest) := h
      cases rest with
      | nil => exact .inr (hwalking.frame platform fs rfl)
      | cons entry rest =>
          have hstarted : s.running = true := by
            refine hrunning ?_
            rw [hwalking.dirIndex]
            exact Nat.one_ne_zero
          simp only [FullScan.advance, hstarted, Bool.not_true, Bool.false_eq_true, if_false]
          cases entry with
          | other => exact hwalking.frame platform fs rfl
          | regular file => exact hwalking.frame platform fs rfl
  | examine file =>
      have hwalking : Walking platform fs config params _ (file :: regularFiles rest) := h
      exact hwalking.frame platform fs rfl
  | checkExclusions file => exact scanning_checkExclusions platform fs h hconfig rfl
  | checkSize file => exact scanning_checkSize platform fs h hconfig rfl
  | checkExtension file => exact scanning_checkExtension platform fs h hconfig rfl
  | checkUnchanged file =>
      obtain ⟨hwalking, heligible⟩ := h
      simp only [FullScan.advance]
      split
      · exact ⟨hwalking.frame platform fs rfl, filteredBy_of_eligible platform heligible (.inl rfl)⟩
      · exact ⟨hwalking.frame platform fs rfl, heligible⟩
  | invoke file => exact scanning_invoke platform fs h rfl
  | tally file d =>
      obtain ⟨hwalking, hfiltered⟩ := h
      have htally := hwalking.tally platform fs hfiltered
      simp only [FullScan.advance]
      split
      · exact htally.frame platform fs rfl
      · exact htally.frame platform fs rfl
  | store file =>
      have hwalking : Walking platform fs config params _ (regularFiles rest) := h
      exact hwalking.frame platform fs rfl
  | complete => exact h.imp (fun h => ⟨h.1, h.2, h.3⟩) fun h => h.frame platform fs rfl
  | done => exact h

/-- The scanner did not run when the walk should have begun. -/
def FullScan.Skipped (scan : FullScan) : Prop := scan.dirIndex = 0 ∧ scan.pc ≠ .nextDir

/-- A scan that has left its first lookup has walked, or it is over. -/
theorem Scanning.dirIndex_or_over (h : Scanning platform fs config params scan) :
    scan.dirIndex = 1 ∨ scan.pc = .nextDir ∨ scan.pc = .complete ∨ scan.pc = .done := by
  obtain ⟨pc, dirIndex, rest, walked, visited⟩ := scan
  cases pc with
  | nextDir | complete | done => simp
  | nextEntry | store | examine | checkExclusions =>
      have hwalking : Walking platform fs config params _ _ := h
      exact .inl hwalking.dirIndex
  | _ => exact .inl h.1.dirIndex

theorem skipped_advance (h : Scanning platform fs config params scan)
    (hconfig : s.config = remoteConfig config params) :
    (scan.advance platform fs s).2.Skipped ↔
      scan.Skipped ∨ scan.pc = .nextDir ∧ scan.dirIndex = 0 ∧ s.running = false := by
  have hplace := h.dirIndex_or_over
  obtain ⟨pc, dirIndex, rest, walked, visited⟩ := scan
  by_cases hfirst : dirIndex = 0
  · subst hfirst
    cases pc with
    | nextDir =>
        have htarget : s.config.targetDirectories[0]? = some params.scanPath := by
          rw [hconfig]
          rfl
        simp only [FullScan.advance, htarget, FullScan.Skipped]
        cases s.running with
        | false => simp
        | true => cases fs params.scanPath <;> simp
    | complete | done => simp [FullScan.advance, FullScan.Skipped]
    | _ => simp at hplace
  · have hlater : (FullScan.advance platform fs s ⟨pc, dirIndex, rest, walked, visited⟩).2.dirIndex
        ≠ 0 := by
      unfold FullScan.advance
      repeat' split
      all_goals first | exact hfirst | exact Nat.succ_ne_zero _
    simp [FullScan.Skipped, hfirst, hlater]

end

/-! ## One execution -/

/-- The configuration in force and the scan, before each statement of an execution that is
alone with the configuration. -/
def Progress (config inForce : DiscoverConfig) (e : RemoteExecution) : Prop :=
  match e.pc with
  | .save | .reset | .setTarget => inForce = config ∧ e.scan = {}
  | .setExtensions =>
      inForce = { config with targetDirectories := [e.params.scanPath] } ∧ e.scan = {}
  | .setExclusions =>
      inForce =
          { config with
            targetDirectories := [e.params.scanPath]
            fileExtensions :=
              if e.params.fileExtensions.isEmpty then config.fileExtensions
              else e.params.fileExtensions } ∧
        e.scan = {}
  | .scan =>
      inForce = remoteConfig config e.params ∧ Scanning platform fs config e.params e.scan
  | .capture | .restore | .returned =>
      Scanning platform fs config e.params e.scan ∧ e.scan.pc = .done

/-- The statistics of the scan and those of the scanner, or those that the execution
returns. -/
def Counts (R : DiscoverStats → DiscoverStats → Prop) (s : DiscoverScanner)
    (e : RemoteExecution) : Prop :=
  match e.pc with
  | .save | .reset => True
  | .restore | .returned => R e.scan.counted e.result
  | _ => R e.scan.counted s.stats

section

variable {config : DiscoverConfig} {s : DiscoverScanner} {e : RemoteExecution}

theorem progress_advance (h : Progress platform fs config s.config e)
    (hrunning : e.scan.dirIndex ≠ 0 → s.running = true) :
    Progress platform fs config (e.advance platform fs s).1.config
      (e.advance platform fs s).2 := by
  obtain ⟨params, pc, saved, scan, result⟩ := e
  cases pc with
  | save => exact h
  | reset => exact h
  | setTarget =>
      obtain ⟨hconfig, hscan⟩ := h
      refine ⟨?_, hscan⟩
      simp only [RemoteExecution.advance, hconfig]
  | setExtensions =>
      obtain ⟨hconfig, hscan⟩ := h
      refine ⟨?_, hscan⟩
      simp only [RemoteExecution.advance, hconfig]
  | setExclusions =>
      obtain ⟨hconfig, rfl⟩ := h
      refine ⟨?_, .inl ⟨rfl, rfl, rfl⟩⟩
      simp only [RemoteExecution.advance, hconfig]
      rfl
  | scan =>
      obtain ⟨hconfig, hscanning⟩ := h
      have hnext := scanning_advance platform fs hscanning hconfig hrunning
      simp only [RemoteExecution.advance]
      split
      · next hdone => exact ⟨hnext, hdone⟩
      · exact ⟨(scan.config_advance platform fs s).trans hconfig, hnext⟩
  | capture => exact h
  | restore => exact h
  | returned => exact h

theorem counts_advance {R : DiscoverStats → DiscoverStats → Prop}
    (hreset : e.pc = .reset → R {} {})
    (hcount : ∀ (count : DiscoverStats → DiscoverStats) (n : Nat),
      (∀ stats, (count stats).filesExamined = stats.filesExamined + n) →
        ∀ {own all}, R own all → R (count own) (count all))
    (hprogress : Progress platform fs config s.config e) (h : Counts R s e) :
    Counts R (e.advance platform fs s).1 (e.advance platform fs s).2 := by
  obtain ⟨params, pc, saved, scan, result⟩ := e
  cases pc with
  | reset =>
      obtain ⟨-, rfl⟩ := hprogress
      exact hreset rfl
  | scan =>
      obtain ⟨count, hall, hown, hexamines⟩ := scan.counted_advance platform fs s
      have hnext := hcount count _ hexamines h
      rw [← hall, ← hown] at hnext
      simp only [RemoteExecution.advance]
      split
      · exact hnext
      · exact hnext
  | _ => exact h

/-- What holds before each statement of an execution that is alone. -/
structure Alone (config : DiscoverConfig) (s : DiscoverScanner) (e : RemoteExecution) :
    Prop where
  progress : Progress platform fs config s.config e
  unskipped : ¬ e.scan.Skipped
  saved : e.pc ≠ .save → e.savedConfig = config
  counts : Counts Eq s e
  restored : e.pc = .returned → s.config = config

theorem Alone.frame {s' : DiscoverScanner} (h : Alone platform fs config s e)
    (hconfig : s'.config = s.config) (hstats : s'.stats = s.stats) :
    Alone platform fs config s' e where
  progress := hconfig ▸ h.progress
  unskipped := h.unskipped
  saved := h.saved
  counts := by
    have hcounts := h.counts
    unfold Counts at hcounts ⊢
    rwa [hstats]
  restored hreturned := hconfig.trans (h.restored hreturned)

theorem alone_start (hconfig : s.config = config) (params : RemoteScanParams) :
    Alone platform fs config s { params := params } where
  progress := ⟨hconfig, rfl⟩
  unskipped := by simp [FullScan.Skipped]
  saved h := absurd rfl h
  counts := trivial
  restored h := by simp at h

/-- An execution whose scan has walked, and counted all that was counted. -/
theorem Alone.ownScan (h : Alone platform fs config s e) (hreturned : e.pc = .returned) :
    OwnScan platform fs config e := by
  obtain ⟨params, pc, saved, ⟨scanPc, dirIndex, rest, walked, visited⟩, result⟩ := e
  obtain rfl : pc = .returned := hreturned
  obtain ⟨hscanning, rfl⟩ : _ ∧ scanPc = .done := h.progress
  rcases hscanning with hunwalked | hwalking
  · exact absurd ⟨hunwalked.dirIndex, by simp⟩ h.unskipped
  · have hfiles := hwalking.files
    rw [List.append_nil] at hfiles
    exact ⟨hwalking.walked, hfiles, hwalking.filtered, h.counts.symm⟩

/-- The statements of an execution that is alone, one after the other. -/
theorem Alone.advance (h : Alone platform fs config s e) (hrunning : s.running = true) :
    Alone platform fs config (e.advance platform fs s).1 (e.advance platform fs s).2 where
  progress := progress_advance platform fs h.progress fun _ => hrunning
  unskipped := by
    obtain ⟨params, pc, saved, scan, result⟩ := e
    cases pc with
    | scan =>
        obtain ⟨hconfig, hscanning⟩ := h.progress
        intro hskipped
        obtain hbefore | ⟨-, -, hstopped⟩ :=
          (skipped_advance platform fs hscanning hconfig).mp hskipped
        · exact h.unskipped hbefore
        · rw [hrunning] at hstopped
          cases hstopped
    | _ => exact h.unskipped
  saved := by
    obtain ⟨params, pc, saved, scan, result⟩ := e
    cases pc with
    | save => exact fun _ => h.progress.1
    | _ => exact fun _ => h.saved (by simp)
  counts := counts_advance platform fs (fun _ => rfl) (fun _ _ _ _ _ heq => congrArg _ heq)
    h.progress h.counts
  restored := by
    obtain ⟨params, pc, saved, scan, result⟩ := e
    cases pc with
    | restore => exact fun _ => h.saved (by simp)
    | returned => exact h.restored
    | scan =>
        simp only [RemoteExecution.advance]
        split <;> simp
    | _ => simp [RemoteExecution.advance]

end

/-! ## The runs -/

namespace ScanThreads

/-- At most one execution is under way, and it is alone. -/
structure OneAtATime (config : DiscoverConfig) (s : ScanThreads) : Prop where
  quiet : s.Quiet → s.scanner.config = config
  own : ∀ thread e, s.threads thread = some e → e.pc = .returned → OwnScan platform fs config e
  alone : ∀ thread e, s.threads thread = some e → e.pc ≠ .returned →
    s.scanner.running = true ∧ s.periodic = none ∧ Alone platform fs config s.scanner e ∧
      ∀ other e', s.threads other = some e' → other ≠ thread → e'.pc = .returned

variable {config : DiscoverConfig} {s : ScanThreads}

/-- The execution of a command on an unused thread. -/
theorem oneAtATime_start {thread : Nat} {params : RemoteScanParams}
    (h : OneAtATime platform fs config s) (hrunning : s.scanner.running = true)
    (hquiet : s.Quiet) (hperiodic : s.periodic = none) :
    OneAtATime platform fs config (s.set thread (s.scanner, { params := params })) where
  quiet hnone := absurd (hnone thread _ (threads_set_self ..)) (by simp)
  own := by
    intro other e hother hreturned
    obtain ⟨-, rfl⟩ | ⟨-, hbefore⟩ := threads_set hother
    · simp at hreturned
    · exact h.own other e hbefore hreturned
  alone := by
    intro other e hother hactive
    obtain ⟨rfl, rfl⟩ | ⟨-, hbefore⟩ := threads_set hother
    · refine ⟨hrunning, hperiodic, alone_start platform fs (h.quiet hquiet) params,
        fun third e' hthird hne => ?_⟩
      obtain ⟨heq, -⟩ | ⟨-, hbefore⟩ := threads_set hthird
      · exact absurd heq hne
      · exact hquiet third e' hbefore
    · exact absurd (hquiet other e hbefore) hactive

/-- The next statement of the execution under way. -/
theorem oneAtATime_statement {thread : Nat} {e : RemoteExecution}
    (h : OneAtATime platform fs config s) (he : s.threads thread = some e)
    (hactive : e.pc ≠ .returned) :
    OneAtATime platform fs config (s.set thread (e.advance platform fs s.scanner)) := by
  obtain ⟨hrunning, hperiodic, halone, hothers⟩ := h.alone thread e he hactive
  have hnext := halone.advance platform fs hrunning
  refine ⟨fun hquiet => hnext.restored (hquiet thread _ (threads_set_self ..)), ?_, ?_⟩
  · intro other e' hother hpc
    obtain ⟨-, rfl⟩ | ⟨-, hbefore⟩ := threads_set hother
    · exact hnext.ownScan platform fs hpc
    · exact h.own other e' hbefore hpc
  · intro other e' hother hpc
    obtain ⟨rfl, rfl⟩ | ⟨hne, hbefore⟩ := threads_set hother
    · refine ⟨(e.running_advance ..).trans hrunning, hperiodic, hnext,
        fun third e'' hthird hne => ?_⟩
      obtain ⟨heq, -⟩ | ⟨-, hbefore⟩ := threads_set hthird
      · exact absurd heq hne
      · exact hothers third e'' hbefore hne
    · exact absurd (hothers other e' hbefore hne) hpc

/-- What leaves the executions alone, and the configuration, with none under way. -/
theorem oneAtATime_quiet {s' : ScanThreads} (h : OneAtATime platform fs config s)
    (hquiet : s.Quiet) (hthreads : s'.threads = s.threads)
    (hconfig : s'.scanner.config = s.scanner.config) : OneAtATime platform fs config s' where
  quiet _ := hconfig.trans (h.quiet hquiet)
  own thread e he := h.own thread e (hthreads ▸ he)
  alone thread e he hactive := absurd (hquiet thread e (hthreads ▸ he)) hactive

theorem oneAtATime_inductive (config : DiscoverConfig) :
    (system platform fs config).InductiveBy Serial (OneAtATime platform fs config) where
  init := by
    rintro s ⟨hconfig, -, -, hthreads⟩
    have hnone : ∀ thread e, s.threads thread ≠ some e := by simp [hthreads]
    exact ⟨fun _ => hconfig, fun thread e h => absurd h (hnone thread e),
      fun thread e h => absurd h (hnone thread e)⟩
  step := by
    intro s a s' h hserial hstep
    obtain ⟨thread, params, rfl, -, rfl⟩ | ⟨thread, e, rfl, he, hactive, rfl⟩ |
      ⟨scan, rfl, hscan, rfl⟩ | ⟨-, -, hthreads, hconfig, hstats, hrunning, hperiodic⟩ :=
        step_cases platform fs hstep
    · exact oneAtATime_start platform fs h hserial.1 hserial.2.1 hserial.2.2
    · exact oneAtATime_statement platform fs h he hactive
    · -- the scan thread walks, so no execution is under way
      have hquiet : s.Quiet := by
        intro thread e he
        by_contra hactive
        rw [(h.alone thread e he hactive).2.1] at hscan
        cases hscan
      exact oneAtATime_quiet platform fs h hquiet rfl (scan.config_advance ..)
    · by_cases hquiet : s.Quiet
      · exact oneAtATime_quiet platform fs h hquiet hthreads hconfig
      · have hother : a ≠ .stop ∧ a ≠ .beginWalk :=
          ⟨by rintro rfl; exact hquiet hserial, by rintro rfl; exact hquiet hserial⟩
        refine ⟨fun hquiet' => absurd (fun t e he => hquiet' t e (hthreads ▸ he)) hquiet,
          fun thread e he => h.own thread e (hthreads ▸ he), fun thread e he hactive => ?_⟩
        rw [hthreads] at he ⊢
        obtain ⟨hstarted, hnone, halone, hothers⟩ := h.alone thread e he hactive
        exact ⟨hrunning hother.1 hstarted, (hperiodic hother.2).trans hnone,
          halone.frame platform fs hconfig hstats, hothers⟩

/-- Executions that start one after the other, while nothing walks, leave the configuration
as it was, and each scans what it should. -/
theorem undisturbed_of_serial (config : DiscoverConfig) :
    (system platform fs config).InvariantBy Serial (Undisturbed platform fs config) := by
  intro s hreach
  have h := (oneAtATime_inductive platform fs config).invariant s hreach
  exact ⟨h.quiet, h.own⟩

end ScanThreads

end

namespace ScanThreads

def sampleThreads : ScanThreads where
  scanner := { config := { enabled := true, targetDirectories := [str "C:\\home"] } }
  threads := fun _ => none

def sampleRequest : RemoteScanParams := { discoverId := str "1", scanPath := str "C:\\data" }

def otherRequest : RemoteScanParams := { discoverId := str "2", scanPath := str "C:\\temp" }

/-- The scanner is started, the scan thread walks, and then a request is executed. -/
def oneRequest : List ThreadAction :=
  .launch (some []) :: .setCallback (some fun _ => true) :: .beginWalk ::
    List.replicate 3 .walk ++ .start 0 sampleRequest :: List.replicate 20 (.statement 0)

theorem undisturbed_sample :
    ∃ s, (system samplePlatform sampleFs sampleThreads.scanner.config).run sampleThreads
        oneRequest = some s ∧
      (s.threads 0).map (·.pc) = some .returned ∧
      Undisturbed samplePlatform sampleFs sampleThreads.scanner.config s := by
  have hnone : ∀ thread e, (fun _ : Nat => (none : Option RemoteExecution)) thread = some e →
      e.pc = .returned := by simp
  have hinit : (system samplePlatform sampleFs sampleThreads.scanner.config).ReachableBy Serial
      sampleThreads := .init ⟨rfl, rfl, rfl, rfl⟩
  have hlaunch := hinit.step (a := .launch (some [])) (by trivial) rfl
  have hcallback := hlaunch.step (a := .setCallback (some fun _ => true)) (by trivial) rfl
  have hbegin := hcallback.step (a := .beginWalk) (by exact hnone) rfl
  have hwalk := TSys.reachableBy_run hbegin (List.replicate 3 .walk)
    (TSys.runOk_of_forall (fun a ha s => List.eq_of_mem_replicate ha ▸ trivial) _) rfl
  have hstart := hwalk.step (a := .start 0 sampleRequest) (by exact ⟨rfl, hnone, rfl⟩) rfl
  have hreturned := TSys.reachableBy_run hstart (List.replicate 20 (.statement 0))
    (TSys.runOk_of_forall (fun a ha s => List.eq_of_mem_replicate ha ▸ trivial) _) rfl
  exact ⟨_, rfl, by decide, undisturbed_of_serial _ _ _ _ hreturned⟩

/-- The second execution starts when the first has set its target, and saves that. -/
def overlap : List ThreadAction :=
  .launch none :: .start 0 sampleRequest :: List.replicate 3 (.statement 0) ++
    .start 1 otherRequest :: .statement 1 :: List.replicate 7 (.statement 0) ++
      List.replicate 9 (.statement 1)

theorem run_overlap :
    ∃ s, (system samplePlatform (fun _ => none) sampleThreads.scanner.config).run sampleThreads
        overlap = some s ∧
      (∀ thread, (s.threads thread).all (·.pc = .returned) = true) ∧
      s.scanner.config.targetDirectories = [str "C:\\data"] := by
  refine ⟨_, rfl, ?_, by decide⟩
  rintro (_ | _ | thread)
  · decide
  · decide
  · rfl

/-- After both have returned the first request is still what the scanner scans. -/
theorem not_undisturbed_overlap :
    ¬ (system samplePlatform (fun _ => none) sampleThreads.scanner.config).InvariantBy
      (fun _ _ => True)
      (Undisturbed samplePlatform (fun _ => none) sampleThreads.scanner.config) := by
  intro h
  obtain ⟨s, hrun, hreturned, htarget⟩ := run_overlap
  have hquiet : s.Quiet := by
    intro thread e he
    have hpc := hreturned thread
    rw [he] at hpc
    exact of_decide_eq_true hpc
  have hconfig :=
    (h s (TSys.reachable_run (.init ⟨rfl, rfl, rfl, rfl⟩) overlap hrun)).1 hquiet
  rw [hconfig] at htarget
  exact absurd htarget (by decide)

end ScanThreads

end AkesoDlp.Agent
