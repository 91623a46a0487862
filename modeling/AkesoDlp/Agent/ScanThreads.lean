import AkesoDlp.Agent.DiscoverScanner
import AkesoDlp.Lib.TSys
import Mathlib.Data.List.Induction
import Mathlib.Logic.Function.Basic

/-!
# The threads of the discover scanner

`RunFullScan` with `WalkDirectory`, and `RunRemoteScan` around it, statement by statement.
Every `run_discover` command runs `RunRemoteScan` on a thread of its own, and the scan
thread of a started scanner runs `RunFullScan` again and again; all of them use the one
scanner, with its configuration, its statistics and its cache, and their statements
interleave in any order. A loop over target directories that are replaced meanwhile goes
on with its index.
-/

namespace AkesoDlp.Agent

open Lib DiscoverScanner

/-- The next statement of `RunFullScan`. -/
inductive ScanPc
  /-- The head of the loop over the target directories. -/
  | nextDir
  /-- The head of the loop of `WalkDirectory`. -/
  | nextEntry
  | examine (file : FileEntry)
  | checkExclusions (file : FileEntry)
  | checkSize (file : FileEntry)
  | checkExtension (file : FileEntry)
  | checkUnchanged (file : FileEntry)
  | invoke (file : FileEntry)
  | tally (file : FileEntry) (d : Disposition)
  | store (file : FileEntry)
  /-- `scans_completed++`. -/
  | complete
  | done
deriving DecidableEq, Repr

/-- The local variables of an execution of `RunFullScan`, with the directories that it
walked and what became of the files. -/
structure FullScan where
  pc : ScanPc := .nextDir
  dirIndex : Nat := 0
  rest : List DirEntry := []
  walked : List StdString := []
  visited : List (FileEntry × Disposition) := []
deriving DecidableEq, Repr

/-- The next statement of `RunRemoteScan`. -/
inductive Pc
  /-- `saved_config = config_`. -/
  | save
  /-- `stats_ = DiscoverStats{}`. -/
  | reset
  | setTarget
  | setExtensions
  | setExclusions
  /-- `RunFullScan()`. -/
  | scan
  /-- `result = GetStats()`. -/
  | capture
  /-- `config_ = saved_config`. -/
  | restore
  | returned
deriving DecidableEq, Repr

structure RemoteExecution where
  params : RemoteScanParams
  pc : Pc := .save
  savedConfig : DiscoverConfig := {}
  scan : FullScan := {}
  result : DiscoverStats := {}
deriving DecidableEq, Repr

/-! ## The statistics -/

/-- The counter of a disposition, `files_examined` apart. -/
def DiscoverStats.tally (stats : DiscoverStats) (d : Disposition) : DiscoverStats :=
  { stats.count d with filesExamined := stats.filesExamined }

def DiscoverStats.examine (stats : DiscoverStats) : DiscoverStats :=
  { stats with filesExamined := stats.filesExamined + 1 }

def DiscoverStats.complete (stats : DiscoverStats) : DiscoverStats :=
  { stats with scansCompleted := stats.scansCompleted + 1 }

theorem DiscoverStats.tally_examine (stats : DiscoverStats) (d : Disposition) :
    stats.examine.tally d = stats.count d := by
  cases d <;> rfl

/-- The statistics of these files. -/
def statsOf (visited : List (FileEntry × Disposition)) : DiscoverStats :=
  visited.foldl (fun stats visit => stats.count visit.2) {}

@[simp] theorem statsOf_concat (visited : List (FileEntry × Disposition))
    (visit : FileEntry × Disposition) :
    statsOf (visited ++ [visit]) = (statsOf visited).count visit.2 := by
  simp [statsOf]

/-- Every file counts as examined, and none as a scan. -/
theorem counts_statsOf (visited : List (FileEntry × Disposition)) :
    (statsOf visited).filesExamined = visited.length ∧ (statsOf visited).scansCompleted = 0 := by
  induction visited using List.reverseRecOn with
  | nil => exact ⟨rfl, rfl⟩
  | append_singleton visited visit ih =>
      rw [statsOf_concat, List.length_append, List.length_singleton, ← ih.1]
      cases visit.2 <;> exact ⟨rfl, ih.2⟩

/-- What a scan has counted, if nothing else did. -/
def FullScan.counted (scan : FullScan) : DiscoverStats :=
  match scan.pc with
  | .checkExclusions _ | .checkSize _ | .checkExtension _ | .checkUnchanged _ | .invoke _
  | .tally _ _ => (statsOf scan.visited).examine
  | .done => (statsOf scan.visited).complete
  | _ => statsOf scan.visited

/-- The files that the next statement counts as examined. -/
def FullScan.examines (scan : FullScan) : Nat :=
  match scan.pc with
  | .examine _ => 1
  | _ => 0

/-! ## The statements -/

section

variable (platform : Platform) (fs : FileSystem)

namespace FullScan

/-- Execute the next statement. -/
def advance (s : DiscoverScanner) (scan : FullScan) : DiscoverScanner × FullScan :=
  match scan.pc with
  | .nextDir =>
      match s.config.targetDirectories[scan.dirIndex]? with
      | none => (s, { scan with pc := .complete })
      | some dir =>
          if !s.running then (s, { scan with pc := .complete })
          else
            match fs dir with
            | none => (s, { scan with dirIndex := scan.dirIndex + 1 })
            | some entries =>
                (s, { scan with
                  dirIndex := scan.dirIndex + 1
                  rest := walkEntries entries
                  walked := scan.walked ++ [dir]
                  pc := .nextEntry })
  | .nextEntry =>
      match scan.rest with
      | [] => (s, { scan with pc := .nextDir })
      | entry :: rest =>
          if !s.running then (s, { scan with rest := [], pc := .nextDir })
          else
            match entry with
            | .other => (s, { scan with rest := rest })
            | .regular file => (s, { scan with rest := rest, pc := .examine file })
  | .examine file =>
      ({ s with stats := s.stats.examine }, { scan with pc := .checkExclusions file })
  | .checkExclusions file =>
      (s, { scan with
        pc :=
          if s.config.isPathExcluded platform file.path then .tally file .excluded
          else .checkSize file })
  | .checkSize file =>
      (s, { scan with
        pc :=
          if file.size = 0 then .tally file .empty
          else if s.config.maxFileSize < file.size then .tally file .tooLarge
          else .checkExtension file })
  | .checkExtension file =>
      (s, { scan with
        pc :=
          if !s.config.hasAllowedExtension platform file.path then .tally file .otherExtension
          else .checkUnchanged file })
  | .checkUnchanged file =>
      (s, { scan with
        pc :=
          if s.cache.any fun cache => !isFileChanged cache file then .tally file .unchanged
          else .invoke file })
  | .invoke file =>
      match s.callback with
      | none => (s, { scan with pc := .tally file .unheard })
      | some callback =>
          let handed := s.handed ++ [event platform file]
          ({ s with handed := handed },
            { scan with pc := .tally file (if callback handed then .scanned else .failed) })
  | .tally file d =>
      ({ s with stats := s.stats.tally d },
        { scan with
          visited := scan.visited ++ [(file, d)]
          pc := if d = .scanned then .store file else .nextEntry })
  | .store file =>
      ({ s with cache := s.cache.map fun cache => updateCache cache file },
        { scan with pc := .nextEntry })
  | .complete => ({ s with stats := s.stats.complete }, { scan with pc := .done })
  | .done => (s, scan)

variable (s : DiscoverScanner) (scan : FullScan)

/-- A scan leaves the configuration alone, and what is set from outside. -/
theorem frame_advance :
    (scan.advance platform fs s).1.config = s.config ∧
      (scan.advance platform fs s).1.running = s.running ∧
      (scan.advance platform fs s).1.callback = s.callback := by
  unfold advance
  repeat' split
  all_goals exact ⟨rfl, rfl, rfl⟩

@[simp] theorem config_advance : (scan.advance platform fs s).1.config = s.config :=
  (scan.frame_advance platform fs s).1

@[simp] theorem running_advance : (scan.advance platform fs s).1.running = s.running :=
  (scan.frame_advance platform fs s).2.1

/-- A scan comes to a directory only while the scanner runs. -/
theorem running_of_advance (h : (scan.advance platform fs s).2.dirIndex ≠ 0) :
    scan.dirIndex ≠ 0 ∨ s.running = true := by
  cases hrunning : s.running with
  | true => exact .inr rfl
  | false =>
      unfold advance at h
      rw [hrunning] at h
      repeat' split at h
      all_goals first | exact .inl h | simp_all

/-- What a statement does to the statistics of the scanner it does to those of the scan. -/
theorem counted_advance : ∃ count : DiscoverStats → DiscoverStats,
    (scan.advance platform fs s).1.stats = count s.stats ∧
      (scan.advance platform fs s).2.counted = count scan.counted ∧
      ∀ stats, (count stats).filesExamined = stats.filesExamined + scan.examines := by
  obtain ⟨pc, dirIndex, rest, walked, visited⟩ := scan
  cases pc with
  | examine file => exact ⟨DiscoverStats.examine, rfl, rfl, fun _ => rfl⟩
  | tally file d =>
      refine ⟨fun stats => stats.tally d, rfl, ?_, fun _ => rfl⟩
      have hcount : (statsOf visited).examine.tally d = statsOf (visited ++ [(file, d)]) := by
        rw [DiscoverStats.tally_examine, statsOf_concat]
      by_cases hd : d = .scanned
      · simp only [advance, counted, hcount, if_pos hd]
      · simp only [advance, counted, hcount, if_neg hd]
  | complete => exact ⟨DiscoverStats.complete, rfl, rfl, fun _ => rfl⟩
  | _ =>
      refine ⟨id, ?_, ?_, fun _ => rfl⟩
      all_goals
        simp only [advance]
        repeat' split
        all_goals rfl

end FullScan

namespace RemoteExecution

/-- Execute the next statement; `RunFullScan` takes several. -/
def advance (s : DiscoverScanner) (e : RemoteExecution) : DiscoverScanner × RemoteExecution :=
  match e.pc with
  | .save => (s, { e with savedConfig := s.config, pc := .reset })
  | .reset => ({ s with stats := {} }, { e with pc := .setTarget })
  | .setTarget =>
      ({ s with config := { s.config with targetDirectories := [e.params.scanPath] } },
        { e with pc := .setExtensions })
  | .setExtensions =>
      ({ s with config := { s.config with fileExtensions :=
          if e.params.fileExtensions.isEmpty then s.config.fileExtensions
          else e.params.fileExtensions } },
        { e with pc := .setExclusions })
  | .setExclusions =>
      ({ s with config := { s.config with pathExclusions :=
          if e.params.pathExclusions.isEmpty then s.config.pathExclusions
          else e.params.pathExclusions } },
        { e with pc := .scan })
  | .scan =>
      let (s, scan) := e.scan.advance platform fs s
      (s, { e with scan := scan, pc := if scan.pc = .done then .capture else .scan })
  | .capture => (s, { e with result := s.stats, pc := .restore })
  | .restore => ({ s with config := e.savedConfig }, { e with pc := .returned })
  | .returned => (s, e)

@[simp] theorem running_advance (s : DiscoverScanner) (e : RemoteExecution) :
    (e.advance platform fs s).1.running = s.running := by
  unfold advance
  split
  case h_6 => exact e.scan.running_advance platform fs s
  all_goals rfl

@[simp] theorem params_advance (s : DiscoverScanner) (e : RemoteExecution) :
    (e.advance platform fs s).2.params = e.params := by
  unfold advance
  split <;> rfl

end RemoteExecution

/-! ## The scanner with its threads -/

structure ScanThreads where
  scanner : DiscoverScanner
  /-- The walk of the scan thread, while one is under way. -/
  periodic : Option FullScan := none
  threads : Nat → Option RemoteExecution

inductive ThreadAction
  /-- A command starts an execution on a new thread. -/
  | start (thread : Nat) (params : RemoteScanParams)
  /-- A thread executes its next statement. -/
  | statement (thread : Nat)
  /-- The scan thread calls `RunFullScan`. -/
  | beginWalk
  /-- It executes the next statement of that. -/
  | walk
  | launch (disk : Option DiscoverCache)
  | stop
  /-- The rest of `Stop`, when the scan thread has ended. -/
  | closeCache
  | setCallback (callback : Option DiscoverFileCallback)

namespace ScanThreads

/-- A thread with its execution as it now is. -/
def set (s : ScanThreads) (thread : Nat) (now : DiscoverScanner × RemoteExecution) :
    ScanThreads where
  scanner := now.1
  periodic := s.periodic
  threads := Function.update s.threads thread (some now.2)

theorem threads_set {s : ScanThreads} {thread other : Nat}
    {now : DiscoverScanner × RemoteExecution} {e : RemoteExecution}
    (h : (s.set thread now).threads other = some e) :
    other = thread ∧ now.2 = e ∨ other ≠ thread ∧ s.threads other = some e := by
  obtain rfl | hne := eq_or_ne other thread
  · simp only [set, Function.update_self, Option.some.injEq] at h
    exact .inl ⟨rfl, h⟩
  · simp only [set, Function.update_of_ne hne] at h
    exact .inr ⟨hne, h⟩

theorem threads_set_self (s : ScanThreads) (thread : Nat)
    (now : DiscoverScanner × RemoteExecution) :
    (s.set thread now).threads thread = some now.2 := Function.update_self ..

/-- The scan thread after a statement of its walk. -/
def setWalk (s : ScanThreads) (now : DiscoverScanner × FullScan) : ScanThreads where
  scanner := now.1
  periodic := if now.2.pc = .done then none else some now.2
  threads := s.threads

def step (s : ScanThreads) : ThreadAction → Option ScanThreads
  | .start thread params =>
      match s.threads thread with
      | some _ => none
      | none => some (s.set thread (s.scanner, { params := params }))
  | .statement thread =>
      match s.threads thread with
      | none => none
      | some e =>
          if e.pc = .returned then none
          else some (s.set thread (e.advance platform fs s.scanner))
  | .beginWalk =>
      if s.scanner.running = true ∧ s.periodic = none then some { s with periodic := some {} }
      else none
  | .walk => s.periodic.map fun scan => s.setWalk (scan.advance platform fs s.scanner)
  | .launch disk =>
      if s.scanner.running = true then none
      else some { s with scanner := s.scanner.start disk }
  | .stop => some { s with scanner := s.scanner.stop }
  | .closeCache =>
      if s.scanner.running = false ∧ s.periodic = none then
        some { s with scanner := s.scanner.closeCache }
      else none
  | .setCallback callback => some { s with scanner := { s.scanner with callback := callback } }

/-- A scanner with the configuration `config` that was not started yet, and no command. -/
def system (config : DiscoverConfig) : TSys ScanThreads ThreadAction where
  init := fun s =>
    s.scanner.config = config ∧ s.scanner.running = false ∧ s.periodic = none ∧
      s.threads = fun _ => none
  step := step platform fs

/-- No execution is under way. -/
def Quiet (s : ScanThreads) : Prop :=
  ∀ thread e, s.threads thread = some e → e.pc = .returned

/-- An execution starts only while the scanner runs and nothing walks; while one is under
way the scan thread starts no walk, and the scanner is not stopped. -/
def Serial (s : ScanThreads) : ThreadAction → Prop
  | .start _ _ => s.scanner.running = true ∧ s.Quiet ∧ s.periodic = none
  | .beginWalk | .stop => s.Quiet
  | _ => True

/-- The actions of no execution leave the executions, the configuration and the statistics
alone; but a walk counts. -/
theorem step_cases {s s' : ScanThreads} {a : ThreadAction} (h : step platform fs s a = some s') :
    (∃ thread params, a = .start thread params ∧ s.threads thread = none ∧
      s' = s.set thread (s.scanner, { params := params })) ∨
    (∃ thread e, a = .statement thread ∧ s.threads thread = some e ∧ e.pc ≠ .returned ∧
      s' = s.set thread (e.advance platform fs s.scanner)) ∨
    (∃ scan, a = .walk ∧ s.periodic = some scan ∧
      s' = s.setWalk (scan.advance platform fs s.scanner)) ∨
    ((∀ thread, a ≠ .statement thread) ∧ a ≠ .walk ∧ s'.threads = s.threads ∧
      s'.scanner.config = s.scanner.config ∧ s'.scanner.stats = s.scanner.stats ∧
      (a ≠ .stop → s.scanner.running = true → s'.scanner.running = true) ∧
      (a ≠ .beginWalk → s'.periodic = s.periodic)) := by
  cases a with
  | start thread params =>
      cases hfree : s.threads thread with
      | some e => simp [step, hfree] at h
      | none =>
          simp only [step, hfree, Option.some.injEq] at h
          exact .inl ⟨thread, params, rfl, hfree, h.symm⟩
  | statement thread =>
      cases he : s.threads thread with
      | none => simp [step, he] at h
      | some e =>
          simp only [step, he] at h
          obtain ⟨hactive, heq⟩ := Option.ite_none_left_eq_some.mp h
          exact .inr (.inl ⟨thread, e, rfl, he, hactive, (Option.some.inj heq).symm⟩)
  | walk =>
      obtain ⟨scan, hscan, rfl⟩ := Option.map_eq_some_iff.mp h
      exact .inr (.inr (.inl ⟨scan, rfl, hscan, rfl⟩))
  | beginWalk =>
      obtain ⟨-, heq⟩ := Option.ite_none_right_eq_some.mp h
      cases heq
      exact .inr (.inr (.inr ⟨by simp, by simp, rfl, rfl, rfl, fun _ => id, by simp⟩))
  | launch disk =>
      obtain ⟨hstopped, heq⟩ := Option.ite_none_left_eq_some.mp h
      cases heq
      obtain ⟨hconfig, hstats⟩ := s.scanner.frame_start disk
      exact .inr (.inr (.inr ⟨by simp, by simp, rfl, hconfig, hstats,
        fun _ hrunning => absurd hrunning hstopped, fun _ => rfl⟩))
  | stop =>
      cases h
      exact .inr (.inr (.inr ⟨by simp, by simp, rfl, rfl, rfl, by simp, fun _ => rfl⟩))
  | closeCache =>
      obtain ⟨-, heq⟩ := Option.ite_none_right_eq_some.mp h
      cases heq
      exact .inr (.inr (.inr ⟨by simp, by simp, rfl, rfl, rfl, fun _ => id, fun _ => rfl⟩))
  | setCallback callback =>
      cases h
      exact .inr (.inr (.inr ⟨by simp, by simp, rfl, rfl, rfl, fun _ => id, fun _ => rfl⟩))

end ScanThreads

end

end AkesoDlp.Agent
