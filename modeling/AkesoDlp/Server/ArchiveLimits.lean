import AkesoDlp.Server.ArchiveRun

/-!
# The limits of the archive inspector

A run keeps within its limits exactly when the two steps that go without a check
would have passed it: a gzip or bzip2 file is counted without `check_files`, and a
member read by name may be longer than the declared size that was checked.
-/

namespace AkesoDlp.Server.Inspector

open Lib Lib.Act

/-- The nesting depth of a step, where it has one. -/
def Step.depth : Step → Nat
  | .enter depth => depth
  | .hand file => file.trail.length
  | .member .. | .layer _ | .unpacked _ => 0

/-- After the step the counters and the depth are within the limits. -/
def Event.Within (limits : ArchiveLimits) (e : Event) : Prop :=
  e.totalFiles + e.step.files ≤ limits.maxFiles ∧
    e.totalBytes + e.step.size ≤ limits.maxTotalSize ∧ e.step.depth ≤ limits.maxDepth

/-- Before the step the checks hold that its handler leaves out. -/
def Event.Checked (limits : ArchiveLimits) (e : Event) : Prop :=
  match e.step with
  | .member declared size => size ≤ declared ∨ e.totalBytes + size ≤ limits.maxTotalSize
  | .layer _ => e.totalFiles < limits.maxFiles
  | .enter _ | .unpacked _ | .hand _ => True

instance (limits : ArchiveLimits) (e : Event) : Decidable (e.Within limits) :=
  inferInstanceAs (Decidable (_ ∧ _))

def Extraction.Bounded (limits : ArchiveLimits) (s : Extraction) : Prop :=
  s.totalFiles ≤ limits.maxFiles ∧ s.totalBytes ≤ limits.maxTotalSize

/-- What holds at every point of a run. -/
structure LimitInv (limits : ArchiveLimits) (s : Extraction) : Prop where
  within_iff : (∀ e ∈ s.history, e.Within limits) ↔ ∀ e ∈ s.history, e.Checked limits
  bounded : (∀ e ∈ s.history, e.Within limits) → s.Bounded limits

variable {libs : Libraries} {limits : ArchiveLimits}

theorem LimitInv.congr {s s' : Extraction} (h : LimitInv limits s)
    (hhistory : s'.history = s.history) (hfiles : s'.totalFiles = s.totalFiles)
    (hbytes : s'.totalBytes = s.totalBytes) : LimitInv limits s' := by
  constructor
  · rw [hhistory]
    exact h.within_iff
  · rw [hhistory, Extraction.Bounded, hfiles, hbytes]
    exact h.bounded

/-- A step keeps the invariant when its own check decides whether it stays within
the limits. -/
theorem limitInv_perform {s : Extraction} {step : Step} (h : LimitInv limits s)
    (hstep : s.Bounded limits →
      (Event.Within limits ⟨s.totalBytes, s.totalFiles, step⟩ ↔
        Event.Checked limits ⟨s.totalBytes, s.totalFiles, step⟩)) :
    LimitInv limits (perform step s).1 := by
  have hmem : ∀ P : Event → Prop, (∀ e ∈ (perform step s).1.history, P e) ↔
      (∀ e ∈ s.history, P e) ∧ P ⟨s.totalBytes, s.totalFiles, step⟩ := by
    intro P
    simp only [perform, Act.update, List.forall_mem_append, List.forall_mem_singleton]
  constructor
  · rw [hmem, hmem, ← h.within_iff]
    exact and_congr_right fun hwithin => hstep (h.bounded hwithin)
  · rw [hmem]
    rintro ⟨-, hfiles, hbytes, -⟩
    exact ⟨hfiles, hbytes⟩

/-- A step that counts nothing. -/
theorem limitInv_mark {s : Extraction} {step : Step} (h : LimitInv limits s)
    (hfiles : step.files = 0) (hsize : step.size = 0) (hdepth : step.depth ≤ limits.maxDepth)
    (hchecked : Event.Checked limits ⟨s.totalBytes, s.totalFiles, step⟩) :
    LimitInv limits (perform step s).1 := by
  refine limitInv_perform h fun hbounded => iff_of_true ⟨?_, ?_, hdepth⟩ hchecked
  · rw [hfiles]
    exact hbounded.1
  · rw [hsize]
    exact hbounded.2

theorem limitInv_kept (libs : Libraries) (limits : ArchiveLimits) :
    KeptBySteps libs limits (LimitInv limits) where
  appendError := fun _ _ h => h.congr rfl rfl rfl
  enter := fun _ hdepth s hs => limitInv_mark hs rfl rfl hdepth trivial
  member := by
    intro declared size s hs hfiles hbytes
    refine limitInv_perform hs fun _ => ?_
    simp only [Event.Within, Event.Checked, Step.files, Step.size, Step.depth]
    omega
  layer := by
    intro size s hs hbytes
    refine limitInv_perform hs fun _ => ?_
    simp only [Event.Within, Event.Checked, Step.files, Step.size, Step.depth]
    omega
  unpacked := fun _ s hs hfiles hbytes =>
    limitInv_perform hs fun _ => iff_of_true ⟨hfiles, hbytes, Nat.zero_le _⟩ trivial
  inspectFile := by
    intro fr _ hdepth
    refine Keeps.seq (Keeps.update fun s hs => limitInv_mark hs rfl rfl hdepth trivial) ?_
    split
    · exact Keeps.update fun _ h => h.congr rfl rfl rfl
    · exact Keeps.update fun _ h => h.congr rfl rfl rfl

theorem limitInv_start : LimitInv limits {} := by
  constructor
  · simp
  · intro _
    exact ⟨Nat.zero_le _, Nat.zero_le _⟩

/-- Every point of an inspection is within the limits exactly when the checks hold
that the handlers leave out: fewer than `max_files` members before each gzip or
bzip2 file, and no member longer than declared unless it fits all the same. -/
theorem inspect_within_iff (libs : Libraries) (limits : ArchiveLimits) (content : Bytes)
    (filename : PyStr) :
    (∀ e ∈ (ArchiveInspector.inspect libs limits content filename).history, e.Within limits) ↔
      ∀ e ∈ (ArchiveInspector.inspect libs limits content filename).history,
        e.Checked limits := by
  exact ((limitInv_kept libs limits).run limitInv_start content filename).within_iff

/-- `gzip` of the byte `a`. -/
def gzipOnce : Bytes :=
  [31, 139, 8, 0, 0, 0, 0, 0, 2, 255, 75, 4, 0, 67, 190, 183, 232, 1, 0, 0, 0]

/-- `gzip` of `gzipOnce`. -/
def gzipTwice : Bytes :=
  [31, 139, 8, 0, 0, 0, 0, 0, 2, 255, 147, 239, 230, 96, 0, 1, 166, 255, 222, 44, 12, 206, 251,
    182, 191, 96, 4, 114, 0, 34, 93, 159, 204, 21, 0, 0, 0]

/-- Libraries that know these two files and no other archive. -/
def gzipLibraries : Libraries where
  zipfile := fun _ => .error (py "File is not a zip file")
  rarfile := fun _ => .error (py "Not a RAR file")
  tarfile := fun _ => .error (py "file could not be opened successfully")
  py7zr := fun _ => .error (py "not a 7z file")
  gzip := fun content =>
    if content = gzipTwice then .ok gzipOnce
    else if content = gzipOnce then .ok [97]
    else .error (py "Not a gzipped file")
  bz2 := fun _ => .error (py "Invalid data stream")
  repr := fun s => py "'" ++ s ++ py "'"
  fileInspector := fun _ _ => .ok []

/-- Two gzip layers count as two members where one is allowed. -/
theorem inspect_exceeds_maxFiles :
    ¬ ∀ (libs : Libraries) (limits : ArchiveLimits) (content : Bytes) (filename : PyStr),
      ∀ e ∈ (ArchiveInspector.inspect libs limits content filename).history,
        e.Within limits := by
  intro h
  exact absurd (h gzipLibraries { maxFiles := 1 } gzipTwice (py "a.txt.gz.gz")) (by decide)

end AkesoDlp.Server.Inspector
