import AkesoDlp.Agent.ConcurrentUpdates
import AkesoDlp.Agent.DiscoverScanner
import Mathlib.Algebra.Group.Nat.Defs
import Mathlib.Logic.Function.Basic

/-!
# Incremental discover scans

The scan thread takes one file after the other through the filters and the cache of
`WalkDirectory` and through `OnDiscoverFile`, while files change and policies are
updated. The order in which a scan comes to the files is left open, and what the
quarantine does to a file is a change like any other. `UpdatePolicies` holds
`policy_mutex_` from its first write to its last; the callback takes it to see whether
there are policies and to evaluate them, but not to search a file, text by text.

The cache is written whenever the callback returns, and `OnDiscoverFile` also returns
where it gives up; nor does an update of the policies touch the cache. So a row says
that its file was evaluated, and against the policies in force, only in runs where the
callback gives up on no file and the policies change only before anything is cached.
-/

namespace AkesoDlp.Agent

open Lib DetectionPipeline DiscoverScanner

/-- A file as it is at some moment. -/
structure FileVersion where
  content : List UInt8
  modTime : Int
deriving DecidableEq, Repr

def FileVersion.entry (file : FileVersion) (path : StdString) : FileEntry where
  path := path
  size := file.content.length
  modTime := file.modTime

/-- A file that was read and evaluated: what was found in its content, and the policies
that this was evaluated against. -/
structure Evaluation where
  path : StdString
  file : FileVersion
  detection : DetectionResult
  policies : List Policy
  violations : List PolicyViolation

/-- The loop of `RunDetection` over the texts; `regexDone` tells whether the first of
`pending` has been through the regex scan. -/
structure TextSearch where
  fileType : StdString
  done : List StdString := []
  pending : List StdString
  regexDone : Bool := false
  found : List DetectionMatch := []

/-- The next statement for the file at hand. -/
inductive VisitPc
  /-- Between two files. -/
  | between
  /-- `IsFileChanged`. -/
  | compare (entry : FileEntry)
  /-- `callback_(event)`, up to the check that there are policies. -/
  | invoke (entry : FileEntry)
  | read (entry : FileEntry)
  /-- `RunDetection`, up to the extraction of the texts. -/
  | detect (entry : FileEntry) (file : FileVersion) (content : List UInt8)
  /-- The next scan of a text, or `EvaluateAll` after the last one. -/
  | search (entry : FileEntry) (file : FileVersion) (search : TextSearch)
  /-- `UpdateCache`, once the callback has returned. -/
  | store (entry : FileEntry)

/-- The configuration of the scanner and of the pipeline; `opened` is the path that
`OnDiscoverFile` opens, which widens a path byte by byte. -/
structure DiscoverSettings where
  platform : Platform
  config : DiscoverConfig
  maxScanSize : Int := 52428800
  opened : StdString → StdString

structure DiscoverState (env : PipelineEnv) where
  pipeline : DetectionPipeline env
  /-- The writes of the `UpdatePolicies` call that holds the lock. -/
  lock : Option UpdateStage := none
  /-- The pipeline has registered its callback. -/
  registered : Bool := true
  cache : Option DiscoverCache := none
  files : StdString → Option FileVersion
  pc : VisitPc := .between
  evaluated : List Evaluation := []

/-- The writes of an `UpdatePolicies` call, in their order. -/
inductive PolicyWrite
  | assign (policies : List Policy)
  | rebuildRegex
  | rebuildKeywords

inductive DiscoverAction
  /-- A scan comes to the file at a path. -/
  | visit (path : StdString)
  /-- The scan thread executes its next statement, other than a read. -/
  | statement
  /-- It reads the file, if that can be opened and read. -/
  | read (succeeds : Bool)
  /-- The callback throws. -/
  | throw
  /-- A file is written or removed. -/
  | change (path : StdString) (file : Option FileVersion)
  | update (write : PolicyWrite)

variable {env : PipelineEnv}

def PolicyWrite.apply (p : DetectionPipeline env) : PolicyWrite → DetectionPipeline env
  | .assign policies => p.assignPolicies policies
  | .rebuildRegex => p.rebuildRegex
  | .rebuildKeywords => p.rebuildKeywords

/-- The lock that a write finds. -/
def PolicyWrite.before : PolicyWrite → Option UpdateStage
  | .assign _ => none
  | .rebuildRegex => some .assigned
  | .rebuildKeywords => some .regexBuilt

/-- The lock that it leaves; the last write lets go of it. -/
def PolicyWrite.after : PolicyWrite → Option UpdateStage
  | .assign _ => some .assigned
  | .rebuildRegex => some .regexBuilt
  | .rebuildKeywords => none

/-- The next scan of the first text that is pending. -/
def TextSearch.scan (search : TextSearch) (p : DetectionPipeline env) (text : StdString)
    (rest : List StdString) : TextSearch :=
  if search.regexDone then
    { search with
      done := search.done ++ [text]
      pending := rest
      regexDone := false
      found := search.found ++ (p.keywordAnalyzer.scan text).map keywordMatch }
  else
    { search with
      regexDone := true
      found := search.found ++ (p.regexAnalyzer.scan text).map (regexMatch text) }

namespace IncrementalDiscover

variable (settings : DiscoverSettings)

instance (file : FileEntry) : Decidable (Eligible settings.platform settings.config file) :=
  inferInstanceAs (Decidable (_ ∧ _))

/-- The bytes that `ReadFile` is asked for; the number is a `DWORD`. -/
def readContent (file : FileVersion) : List UInt8 :=
  file.content.take ((min (file.content.length : Int) settings.maxScanSize).toNat % 2 ^ 32)

/-- A file as the directory entry shows it, after the filters. -/
def visit (s : DiscoverState env) (path : StdString) : Option (DiscoverState env) :=
  match s.pc with
  | .between =>
      -- no path of a file system holds a NUL
      if 0 ∈ path then none
      else
        (s.files path).map fun file =>
          if Eligible settings.platform settings.config (file.entry path) then
            { s with pc := .compare (file.entry path) }
          else s
  | _ => none

def statement (s : DiscoverState env) : Option (DiscoverState env) :=
  match s.pc with
  | .between | .read _ => none
  | .compare entry =>
      some { s with pc :=
        if s.cache.any fun cache => !isFileChanged cache entry then .between
        else .invoke entry }
  | .invoke entry =>
      if !s.registered then some { s with pc := .between }
      else if !s.pipeline.running then some { s with pc := .store entry }
      else if s.lock.isSome then none
      else some { s with pc :=
        if s.pipeline.policies.isEmpty then .store entry else (.read entry) }
  | .detect entry file content =>
      match env.extract content entry.path with
      | .error _ => some { s with pc := .store entry }
      | .ok (fileType, extractions) =>
          let search : TextSearch :=
            { fileType := fileType
              pending := scannedTexts extractions }
          some { s with pc := .search entry file search }
  | .search entry file search =>
      match search.pending with
      | text :: rest =>
          some { s with pc := .search entry file (search.scan s.pipeline text rest) }
      | [] =>
          if s.lock.isSome then none
          else
            let detection := detectionOf search.fileType entry.path entry.size search.found
            let evaluation : Evaluation :=
              { path := settings.opened entry.path
                file := file
                detection := detection
                policies := s.pipeline.policies
                violations := env.evaluator.evaluateAll s.pipeline.policies detection }
            some { s with evaluated := s.evaluated ++ [evaluation], pc := .store entry }
  | .store entry =>
      some { s with
        cache := s.cache.map fun cache => updateCache cache entry
        pc := .between }

/-- Only the Windows build reads; a negative `max_scan_size` makes `resize` throw. -/
def read (s : DiscoverState env) (succeeds : Bool) : Option (DiscoverState env) :=
  match s.pc with
  | .read entry =>
      match s.files (settings.opened entry.path) with
      | none => some { s with pc := .store entry }
      | some file =>
          if !settings.platform.windows || !succeeds then some { s with pc := .store entry }
          else if file.content ≠ [] ∧ settings.maxScanSize < 0 then some { s with pc := .between }
          else
            let content := readContent settings file
            some { s with pc :=
              if content.isEmpty then .store entry else .detect entry file content }
  | _ => none

def throws (s : DiscoverState env) : Option (DiscoverState env) :=
  match s.pc with
  | .between | .compare _ => none
  | _ => some { s with pc := .between }

def step (s : DiscoverState env) : DiscoverAction → Option (DiscoverState env)
  | .visit path => visit settings s path
  | .statement => statement settings s
  | .read succeeds => read settings s succeeds
  | .throw => throws s
  | .change path file => some { s with files := Function.update s.files path file }
  | .update write =>
      if s.lock = write.before then
        some { s with pipeline := write.apply s.pipeline, lock := write.after }
      else none

/-- No file is cached yet; the cache may have failed to open. -/
def system : TSys (DiscoverState env) DiscoverAction where
  init := fun s => (s.cache = none ∨ s.cache = some []) ∧ s.pc = .between ∧ s.evaluated = []
  step := step settings

/-! ## What a row of the cache should say -/

/-- The content of the file, with this size and time, was read, was found to hold what the
analyzers find in it now, and was evaluated against the policies that are in force now. -/
def EvaluatedInForce (s : DiscoverState env) (path : StdString) (size : Nat) (modTime : Int) :
    Prop :=
  ∃ evaluation ∈ s.evaluated, evaluation.path = path ∧
    evaluation.file.content.length = size ∧ evaluation.file.modTime = modTime ∧
      s.pipeline.runDetection (readContent settings evaluation.file) path size =
        .ok evaluation.detection ∧
      evaluation.policies = s.pipeline.policies

/-- A file that is about to be skipped as unchanged was evaluated. -/
def NeverStale (s : DiscoverState env) : Prop :=
  ∀ entry, s.pc = .compare entry →
    (s.cache.any fun cache => !isFileChanged cache entry) = true →
      EvaluatedInForce settings s entry.path entry.size entry.modTime

/-! ## Steady runs -/

/-- The file that is read is the one that the directory entry showed. -/
def Readable (s : DiscoverState env) (entry : FileEntry) : Prop :=
  settings.platform.windows = true ∧ settings.opened entry.path = entry.path ∧
    ∃ file, s.files entry.path = some file ∧ file.entry entry.path = entry ∧
      readContent settings file ≠ []

/-- A text of the file at hand has been searched, or the file has been evaluated. -/
def Searched (s : DiscoverState env) : Prop :=
  match s.pc with
  | .search _ _ search => search.done ≠ [] ∨ search.regexDone = true
  | .store _ => True
  | _ => False

/-- Once something is searched, neither the policies nor the analyzers change. -/
def PoliciesSettled (s : DiscoverState env) (next : DetectionPipeline env) : Prop :=
  next = s.pipeline ∨ s.cache = some [] ∧ ¬ Searched s

/-- `OnDiscoverFile` gives up on no file. -/
def EvaluatesNext (s : DiscoverState env) : Prop :=
  match s.pc with
  | .invoke _ => s.pipeline.running = true ∧ s.pipeline.policies ≠ []
  | .detect entry _ content => ∃ texts, env.extract content entry.path = .ok texts
  | _ => True

/-- The step condition: it matters only where there is a cache. -/
def Steady (s : DiscoverState env) (a : DiscoverAction) : Prop :=
  s.cache = none ∨
    match a with
    | .update write => PoliciesSettled s (write.apply s.pipeline)
    | .statement => EvaluatesNext s
    | .read succeeds => succeeds = true ∧ ∀ entry, s.pc = .read entry → Readable settings s entry
    | _ => True

/-! ## The search -/

section

variable {p : DetectionPipeline env} {content : List UInt8} {path : StdString}
  {search : TextSearch}

/-- What was found so far is what the analyzers find. -/
def Tracks (p : DetectionPipeline env) (content : List UInt8) (path : StdString)
    (search : TextSearch) : Prop :=
  ∃ extractions, env.extract content path = .ok (search.fileType, extractions) ∧
    scannedTexts extractions = search.done ++ search.pending ∧
    search.found = search.done.flatMap p.scanText ++
      if search.regexDone then
        (search.pending.head?.map fun text =>
          (p.regexAnalyzer.scan text).map (regexMatch text)).getD []
      else []

theorem Tracks.scan {text : StdString} {rest : List StdString}
    (h : Tracks p content path search) (hpending : search.pending = text :: rest) :
    Tracks p content path (search.scan p text rest) := by
  obtain ⟨fileType, done, pending, regexDone, found⟩ := search
  obtain ⟨extractions, hextract, htexts, hfound⟩ := h
  obtain rfl : pending = text :: rest := hpending
  cases regexDone with
  | false => exact ⟨extractions, hextract, htexts, by simpa [TextSearch.scan] using hfound⟩
  | true =>
      refine ⟨extractions, hextract, ?_, ?_⟩
      · rw [htexts]
        simp [TextSearch.scan]
      · dsimp only at hfound
        rw [TextSearch.scan, if_pos rfl, hfound]
        simp [scanText]

/-- After the last text the detection is complete. -/
theorem Tracks.runDetection (h : Tracks p content path search) (hpending : search.pending = [])
    (size : Nat) :
    p.runDetection content path size =
      .ok (detectionOf search.fileType path size search.found) := by
  obtain ⟨extractions, hextract, htexts, hfound⟩ := h
  rw [hpending, List.append_nil] at htexts
  rw [hfound, hpending, DetectionPipeline.runDetection, hextract, ← htexts]
  cases search.regexDone <;> simp [bind, Except.bind, pure, Except.pure]

/-- Before the first scan it does not matter which analyzers there are. -/
theorem Tracks.of_not_begun (h : Tracks p content path search)
    (hbegun : ¬ (search.done ≠ [] ∨ search.regexDone = true)) (p' : DetectionPipeline env) :
    Tracks p' content path search := by
  obtain ⟨extractions, hextract, htexts, hfound⟩ := h
  rw [not_or, not_not, Bool.not_eq_true] at hbegun
  refine ⟨extractions, hextract, htexts, ?_⟩
  rw [hfound, hbegun.1, hbegun.2]
  rfl

end

/-! ## The invariant -/

/-- What holds before each statement for the file at hand. -/
def Underway (s : DiscoverState env) : Prop :=
  match s.pc with
  | .between => True
  | .compare entry | .invoke entry | .read entry => 0 ∉ entry.path
  | .detect entry file content =>
      0 ∉ entry.path ∧ settings.opened entry.path = entry.path ∧ file.entry entry.path = entry ∧
        content = readContent settings file
  | .search entry file search =>
      0 ∉ entry.path ∧ settings.opened entry.path = entry.path ∧ file.entry entry.path = entry ∧
        Tracks s.pipeline (readContent settings file) entry.path search
  | .store entry =>
      0 ∉ entry.path ∧ EvaluatedInForce settings s entry.path entry.size entry.modTime

/-- Every row of the cache is of a file that was evaluated. -/
structure Accounted (s : DiscoverState env) : Prop where
  rows : ∀ cache, s.cache = some cache → ∀ row ∈ cache,
    EvaluatedInForce settings s row.1 row.2.1 row.2.2
  underway : Underway settings s

variable {settings} in
/-- Evaluations are not forgotten. -/
theorem EvaluatedInForce.mono {s s' : DiscoverState env} {path : StdString} {size : Nat}
    {modTime : Int} (h : EvaluatedInForce settings s path size modTime)
    (hpipeline : s'.pipeline = s.pipeline)
    (hevaluated : s.evaluated ⊆ s'.evaluated) :
    EvaluatedInForce settings s' path size modTime := by
  obtain ⟨evaluation, hmem, hrest⟩ := h
  refine ⟨evaluation, hevaluated hmem, ?_⟩
  rw [hpipeline]
  exact hrest

/-- A row that makes a file unchanged is one of its path, size and time. -/
theorem mem_of_not_isFileChanged {cache : DiscoverCache} {file : FileEntry}
    (h : isFileChanged cache file = false) :
    (cStr file.path, file.size, file.modTime) ∈ cache := by
  unfold isFileChanged at h
  split at h
  · simp at h
  · next path size modTime hfind =>
      have hpath := List.find?_some hfind
      simp only [Bool.or_eq_false_iff, bne_eq_false_iff_eq] at h
      rw [h.1, h.2, ← beq_iff_eq.mp hpath]
      exact List.mem_of_find?_eq_some hfind

theorem Accounted.neverStale {s : DiscoverState env} (h : Accounted settings s) :
    NeverStale settings s := by
  intro entry hpc hskip
  obtain ⟨cache, hcache, hunchanged⟩ := (Option.any_eq_true _ _).mp hskip
  have hpath : 0 ∉ entry.path := by
    have hunderway := h.underway
    rwa [Underway, hpc] at hunderway
  have hrow := h.rows cache hcache _
    (mem_of_not_isFileChanged ((Bool.not_eq_true' _).mp hunchanged))
  rwa [cStr_eq_self hpath] at hrow

/-! ## The steps -/

section

variable {settings} {s s' : DiscoverState env}

theorem visit_cases {path : StdString} (h : visit settings s path = some s') :
    s' = s ∨ ∃ entry : FileEntry, 0 ∉ entry.path ∧ s' = { s with pc := .compare entry } := by
  unfold visit at h
  split at h
  · split at h
    · cases h
    · next hpath =>
        obtain ⟨file, -, rfl⟩ := Option.map_eq_some_iff.mp h
        split
        · exact .inr ⟨file.entry path, hpath, rfl⟩
        · exact .inl rfl
  · cases h

/-- A read that succeeds goes on to the detection; every other gives up, or throws. -/
theorem read_cases {succeeds : Bool} (h : read settings s succeeds = some s') :
    ∃ entry, s.pc = .read entry ∧
      ((∃ file, s.files (settings.opened entry.path) = some file ∧
          s' = { s with pc := .detect entry file (readContent settings file) }) ∨
        s' = { s with pc := .store entry } ∧ (succeeds = true → ¬ Readable settings s entry) ∨
        s' = { s with pc := .between }) := by
  unfold read at h
  split at h
  · next entry hpc =>
      refine ⟨entry, hpc, ?_⟩
      cases hfile : s.files (settings.opened entry.path) with
      | none =>
          simp only [hfile, Option.some.injEq] at h
          refine .inr (.inl ⟨h.symm, fun _ hreadable => ?_⟩)
          obtain ⟨-, hopened, file, hsome, -⟩ := hreadable
          rw [hopened, hsome] at hfile
          cases hfile
      | some file =>
          simp only [hfile] at h
          split at h
          · next hfails =>
              rw [Option.some.injEq] at h
              refine .inr (.inl ⟨h.symm, fun hsucceeds hreadable => ?_⟩)
              rw [hsucceeds, hreadable.1] at hfails
              exact absurd hfails Bool.false_ne_true
          · split at h
            · rw [Option.some.injEq] at h
              exact .inr (.inr h.symm)
            · rw [Option.some.injEq] at h
              split at h
              · next hempty =>
                  refine .inr (.inl ⟨h.symm, fun _ hreadable => ?_⟩)
                  obtain ⟨-, hopened, other, hother, -, hcontent⟩ := hreadable
                  rw [hopened, hother, Option.some.injEq] at hfile
                  rw [hfile] at hcontent
                  exact hcontent (List.isEmpty_iff.mp hempty)
              · exact .inl ⟨file, rfl, h.symm⟩
  · cases h

theorem throws_eq (h : throws s = some s') : s' = { s with pc := .between } := by
  unfold throws at h
  split at h
  · cases h
  · cases h
  · exact (Option.some.inj h).symm

theorem update_eq {write : PolicyWrite} (h : step settings s (.update write) = some s') :
    s' = { s with pipeline := write.apply s.pipeline, lock := write.after } := by
  obtain ⟨-, heq⟩ := Option.ite_none_right_eq_some.mp h
  exact (Option.some.inj heq).symm

/-- Only `UpdateCache` touches the cache, and it opens none. -/
theorem cache_step {a : DiscoverAction} (h : step settings s a = some s')
    (hcache : s.cache = none) : s'.cache = none := by
  cases a with
  | visit path =>
      obtain rfl | ⟨_, -, rfl⟩ := visit_cases h
      · exact hcache
      · exact hcache
  | statement =>
      simp only [step, statement] at h
      repeat' split at h
      all_goals cases h <;> simp [hcache]
  | read succeeds =>
      obtain ⟨_, -, ⟨_, -, rfl⟩ | ⟨rfl, -⟩ | rfl⟩ := read_cases h
      · exact hcache
      · exact hcache
      · exact hcache
  | throw =>
      rw [throws_eq h]
      exact hcache
  | change path file =>
      cases h
      exact hcache
  | update write =>
      rw [update_eq h]
      exact hcache

/-- The row of a file that was evaluated. -/
theorem rows_updateCache {entry : FileEntry} (h : Accounted settings s) (hpath : 0 ∉ entry.path)
    (hentry : EvaluatedInForce settings s entry.path entry.size entry.modTime)
    {cache : DiscoverCache} (hcache : s.cache = some cache) :
    ∀ row ∈ updateCache cache entry, EvaluatedInForce settings s row.1 row.2.1 row.2.2 := by
  intro row hrow
  rw [updateCache, cStr_eq_self hpath] at hrow
  obtain rfl | hrow := List.mem_cons.mp hrow
  · exact hentry
  · exact h.rows cache hcache row (List.mem_of_mem_filter hrow)

/-- The next statement, where the callback does not give up. -/
theorem accounted_statement (h : Accounted settings s) (hsteady : EvaluatesNext s)
    (hstep : statement settings s = some s') : Accounted settings s' := by
  obtain ⟨pipeline, lock, registered, cache, files, pc, evaluated⟩ := s
  have hunderway := h.underway
  cases pc with
  | between => cases hstep
  | compare entry =>
      simp only [statement] at hstep
      split at hstep <;> cases hstep
      · exact ⟨h.rows, trivial⟩
      · exact ⟨h.rows, hunderway⟩
  | invoke entry =>
      obtain ⟨hrunning, hpolicies⟩ := hsteady
      dsimp only at hrunning hpolicies
      have hsome : pipeline.policies.isEmpty = false := by
        rwa [← Bool.not_eq_true, List.isEmpty_iff]
      simp only [statement, hrunning, hsome, Bool.not_true, Bool.false_eq_true, if_false] at hstep
      split at hstep
      · cases hstep
        exact ⟨h.rows, trivial⟩
      · obtain ⟨-, heq⟩ := Option.ite_none_left_eq_some.mp hstep
        cases heq
        exact ⟨h.rows, hunderway⟩
  | read entry => cases hstep
  | detect entry file content =>
      obtain ⟨⟨fileType, extractions⟩, hextract⟩ := hsteady
      obtain ⟨hpath, hopened, hfile, rfl⟩ := hunderway
      simp only [statement, hextract, Option.some.injEq] at hstep
      subst hstep
      exact ⟨h.rows, hpath, hopened, hfile, extractions, hextract, rfl, rfl⟩
  | search entry file search =>
      obtain ⟨hpath, hopened, hfile, htracks⟩ := hunderway
      cases hpending : search.pending with
      | cons text rest =>
          simp only [statement, hpending, Option.some.injEq] at hstep
          subst hstep
          exact ⟨h.rows, hpath, hopened, hfile, htracks.scan hpending⟩
      | nil =>
          simp only [statement, hpending] at hstep
          obtain ⟨-, heq⟩ := Option.ite_none_left_eq_some.mp hstep
          cases heq
          refine ⟨fun cache hcache row hrow => ?_, hpath, ?_⟩
          · exact (h.rows cache hcache row hrow).mono rfl (List.subset_append_left ..)
          · refine ⟨_, List.mem_append_right _ (List.mem_singleton_self _), hopened, ?_, ?_,
              htracks.runDetection hpending entry.size, rfl⟩
            · exact congrArg FileEntry.size hfile
            · exact congrArg FileEntry.modTime hfile
  | store entry =>
      obtain ⟨hpath, hentry⟩ := hunderway
      cases hstep
      refine ⟨fun cache' hcache' => ?_, trivial⟩
      obtain ⟨cache, hcache, rfl⟩ := Option.map_eq_some_iff.mp hcache'
      exact rows_updateCache h hpath hentry hcache

/-- A write that changes something finds an empty cache, and at most a search that has
found nothing yet. -/
theorem accounted_update {next : DetectionPipeline env} (h : Accounted settings s)
    (hsettled : PoliciesSettled s next) (lock : Option UpdateStage) :
    Accounted settings { s with pipeline := next, lock := lock } := by
  obtain ⟨pipeline, _, registered, cache, files, pc, evaluated⟩ := s
  have hunderway := h.underway
  obtain rfl | ⟨hempty, hsearched⟩ := hsettled
  · exact ⟨h.rows, hunderway⟩
  · refine ⟨fun cache hcache row hrow => ?_, ?_⟩
    · rw [Option.some.inj (hcache.symm.trans hempty)] at hrow
      exact absurd hrow List.not_mem_nil
    · cases pc with
      | search entry file search =>
          obtain ⟨hpath, hopened, hfile, htracks⟩ := hunderway
          exact ⟨hpath, hopened, hfile, htracks.of_not_begun hsearched _⟩
      | store entry => exact absurd trivial hsearched
      | _ => exact hunderway

theorem accounted_step {a : DiscoverAction} (h : Accounted settings s)
    (hsteady : Steady settings s a) (hstep : step settings s a = some s')
    (hcache : s.cache ≠ none) : Accounted settings s' := by
  have hsteady := hsteady.resolve_left hcache
  cases a with
  | visit path =>
      obtain rfl | ⟨entry, hpath, rfl⟩ := visit_cases hstep
      · exact h
      · exact ⟨h.rows, hpath⟩
  | statement => exact accounted_statement h hsteady hstep
  | read succeeds =>
      obtain ⟨hsucceeds, hreadable⟩ := hsteady
      have hunderway := h.underway
      obtain ⟨entry, hpc, ⟨file, hfile, rfl⟩ | ⟨rfl, hfails⟩ | rfl⟩ := read_cases hstep
      · rw [Underway, hpc] at hunderway
        obtain ⟨-, hopened, other, hother, hentry, -⟩ := hreadable entry hpc
        rw [hopened, hother, Option.some.injEq] at hfile
        exact ⟨h.rows, hunderway, hopened, hfile ▸ hentry, rfl⟩
      · exact absurd (hreadable entry hpc) (hfails hsucceeds)
      · exact ⟨h.rows, trivial⟩
  | throw =>
      rw [throws_eq hstep]
      exact ⟨h.rows, trivial⟩
  | change path file =>
      cases hstep
      exact ⟨h.rows, h.underway⟩
  | update write =>
      rw [update_eq hstep]
      exact accounted_update h hsteady _

end

/-! ## The runs -/

theorem accounted_inductive :
    (system settings : TSys (DiscoverState env) DiscoverAction).InductiveBy (Steady settings)
      (fun s => s.cache = none ∨ Accounted settings s) where
  init := by
    rintro s ⟨hcache, hpc, -⟩
    refine hcache.imp_right fun hempty => ⟨fun cache hcache row hrow => ?_, ?_⟩
    · rw [Option.some.inj (hcache.symm.trans hempty)] at hrow
      exact absurd hrow List.not_mem_nil
    · rw [Underway, hpc]
      trivial
  step := by
    intro s a s' h hsteady hstep
    by_cases hcache : s.cache = none
    · exact .inl (cache_step hstep hcache)
    · exact .inr (accounted_step (h.resolve_left hcache) hsteady hstep hcache)

/-- In a steady run no file is skipped that was not evaluated as it is, against the
policies in force. -/
theorem neverStale_of_steady :
    (system settings : TSys (DiscoverState env) DiscoverAction).InvariantBy (Steady settings)
      (NeverStale settings) := by
  intro s hreach
  obtain hcache | h := accounted_inductive settings |>.invariant s hreach
  · intro entry _ hskip
    rw [hcache] at hskip
    cases hskip
  · exact h.neverStale

/-! ## Two scans of one file -/

def samplePath : StdString := str "C:\\data\\a.txt"

def sampleVersion : FileVersion := { content := str "secret", modTime := 0 }

def sampleSettings : DiscoverSettings where
  platform := samplePlatform
  config := {}
  opened := id

/-- No policies yet. -/
def sampleState : DiscoverState plainEnv where
  pipeline := plainPipeline
  cache := some []
  files := fun path => if path = samplePath then some sampleVersion else none

/-- With policies before the first scan the second one skips what the first one evaluated. -/
theorem neverStale_sample :
    ∃ s, (system sampleSettings).run sampleState
        [.update (.assign [keywordPolicy 1 "secret"]), .update .rebuildRegex,
          .update .rebuildKeywords, .visit samplePath, .statement, .statement, .read true,
          .statement, .statement, .statement, .statement, .statement,
          .visit samplePath] = some s ∧
      s.pc = .compare (sampleVersion.entry samplePath) ∧
      (s.cache.any fun cache => !isFileChanged cache (sampleVersion.entry samplePath)) = true ∧
      NeverStale sampleSettings s := by
  have hstart : (system sampleSettings).ReachableBy (Steady sampleSettings) sampleState :=
    .init ⟨.inr rfl, rfl, rfl⟩
  have hassign := hstart.step (a := .update (.assign [keywordPolicy 1 "secret"]))
    (.inr (Or.inr ⟨rfl, id⟩)) rfl
  have hregex := hassign.step (a := .update .rebuildRegex) (.inr (Or.inr ⟨rfl, id⟩)) rfl
  have hkeywords := hregex.step (a := .update .rebuildKeywords) (.inr (Or.inr ⟨rfl, id⟩)) rfl
  have hvisit := hkeywords.step (a := .visit samplePath) (.inr trivial) rfl
  have hcompare := hvisit.step (a := .statement) (.inr trivial) rfl
  have hinvoke := hcompare.step (a := .statement)
    (.inr (And.intro rfl (List.cons_ne_nil _ _))) rfl
  have hread := hinvoke.step (a := .read true)
    (.inr (And.intro rfl fun entry hentry => by
      cases hentry
      exact ⟨rfl, rfl, sampleVersion, rfl, rfl, by decide⟩)) rfl
  have hextract : ∃ texts, plainEnv.extract (str "secret") samplePath = .ok texts := ⟨_, rfl⟩
  have hdetect := hread.step (a := .statement) (.inr hextract) rfl
  have hscanRegex := hdetect.step (a := .statement) (.inr trivial) rfl
  have hscanKeywords := hscanRegex.step (a := .statement) (.inr trivial) rfl
  have hevaluate := hscanKeywords.step (a := .statement) (.inr trivial) rfl
  have hstore := hevaluate.step (a := .statement) (.inr trivial) rfl
  have hagain := hstore.step (a := .visit samplePath) (.inr trivial) rfl
  exact ⟨_, rfl, rfl, rfl, neverStale_of_steady sampleSettings _ hagain⟩

/-- A file that is scanned before there are policies is skipped when there are some. -/
theorem not_neverStale_unloaded :
    ¬ (system sampleSettings : TSys (DiscoverState plainEnv) DiscoverAction).InvariantBy
      (fun _ _ => True) (NeverStale sampleSettings) := by
  intro h
  have hstale := h _ (TSys.reachable_run (.init ⟨.inr rfl, rfl, rfl⟩ :
      (system sampleSettings).Reachable sampleState)
    [.visit samplePath, .statement, .statement, .statement,
      .update (.assign [keywordPolicy 1 "secret"]), .update .rebuildRegex,
      .update .rebuildKeywords, .visit samplePath] rfl)
  obtain ⟨_, hmem, -⟩ := hstale (sampleVersion.entry samplePath) rfl rfl
  cases hmem

end IncrementalDiscover

end AkesoDlp.Agent
