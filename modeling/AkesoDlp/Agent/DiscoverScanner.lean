import AkesoDlp.Agent.RemoteScan

/-!
# The discover scanner

The data of `discover_scanner.cpp`: configuration, statistics, the filters and the
incremental cache, and what becomes of a file; the scans themselves are runs of
statements. The file system is a tree that does not change during a scan; the throttle
only takes time.
-/

namespace AkesoDlp.Agent

/-- The part of `DiscoverConfig` that a scan reads. -/
structure DiscoverConfig where
  enabled : Bool := false
  targetDirectories : List StdString := []
  fileExtensions : List StdString := []
  pathExclusions : List StdString := []
  maxFileSize : Int := 52428800
deriving DecidableEq, Repr

structure DiscoverStats where
  scansCompleted : Nat := 0
  filesExamined : Nat := 0
  filesScanned : Nat := 0
  filesSkippedSize : Nat := 0
  filesSkippedExtension : Nat := 0
  filesSkippedExclusion : Nat := 0
  filesSkippedUnchanged : Nat := 0
  filesError : Nat := 0
deriving DecidableEq, Repr

structure DiscoverFileEvent where
  filePath : StdString
  fileName : StdString
  fileSize : Nat
  fileOwner : StdString
  modificationDate : StdString
deriving DecidableEq, Repr

/-- What the build for an operating system provides: how paths are compared, the
owner of a file, and how its time is printed. -/
structure Platform where
  windows : Bool
  fileOwner : StdString → StdString
  formatFileTime : Int → StdString

/-! ## Paths -/

/-- `'/'`, and `'\\'` on Windows. -/
def isSeparator (windows : Bool) (c : UInt8) : Bool := c == 47 || (windows && c == 92)

/-- `path.filename()`. -/
def pathFilename (windows : Bool) (path : StdString) : StdString :=
  (path.reverse.takeWhile fun c => !isSeparator windows c).reverse

/-- `path.extension()`: from the last dot of the filename on, unless this is its first
character. -/
def pathExtension (windows : Bool) (path : StdString) : StdString :=
  let name := pathFilename windows path
  let tail := (name.reverse.takeWhile (· != 46)).reverse
  if name = [46, 46] ∨ name.length ≤ tail.length + 1 then [] else 46 :: tail

/-- `_strnicmp(a, b, n) == 0` for strings of `n` characters at least. -/
def strnicmpEq (a b : StdString) (n : Nat) : Bool :=
  lower (cStr (a.take n)) == lower (cStr (b.take n))

/-! ## The file system -/

/-- A regular file as a directory entry shows it; the time is in seconds. -/
structure FileEntry where
  path : StdString
  size : Nat
  modTime : Int
deriving DecidableEq, Repr

inductive FileTree
  | file (entry : FileEntry)
  /-- Neither a regular file nor a directory. -/
  | other
  | directory (entries : List FileTree)
deriving Repr

/-- What the iterator passes: a regular file, or something else. -/
inductive DirEntry
  | regular (file : FileEntry)
  | other
deriving DecidableEq, Repr

mutual

/-- `recursive_directory_iterator`: an entry, then what is in it. -/
def FileTree.walk : FileTree → List DirEntry
  | .file entry => [.regular entry]
  | .other => [.other]
  | .directory entries => .other :: walkEntries entries

def walkEntries : List FileTree → List DirEntry
  | [] => []
  | tree :: rest => tree.walk ++ walkEntries rest

end

def regularFiles (entries : List DirEntry) : List FileEntry :=
  entries.filterMap fun
    | .regular file => some file
    | .other => none

/-- What is at a path: the entries of a directory, or no directory. -/
abbrev FileSystem := StdString → Option (List FileTree)

/-- Everything below a path. -/
def FileSystem.below (fs : FileSystem) (path : StdString) : List DirEntry :=
  walkEntries ((fs path).getD [])

/-! ## The scanner -/

/-- The rows of `discover_files`: path, size and time. -/
abbrev DiscoverCache := List (StdString × Nat × Int)

/-- The callback gets the events handed over so far, the present one last, and says
whether it returned; otherwise it threw. -/
abbrev DiscoverFileCallback := List DiscoverFileEvent → Bool

structure DiscoverScanner where
  config : DiscoverConfig
  running : Bool := false
  stats : DiscoverStats := {}
  /-- `db_`, if it is open. -/
  cache : Option DiscoverCache := none
  callback : Option DiscoverFileCallback := none
  /-- What was handed to the callback. -/
  handed : List DiscoverFileEvent := []

namespace DiscoverConfig

variable (platform : Platform) (config : DiscoverConfig)

def isPathExcluded (path : StdString) : Bool :=
  config.pathExclusions.any fun excl =>
    decide (excl.length ≤ path.length) &&
      (if platform.windows then strnicmpEq path excl excl.length
       else path.take excl.length == excl)

def hasAllowedExtension (path : StdString) : Bool :=
  if config.fileExtensions.isEmpty then true
  else
    config.fileExtensions.any fun allowed =>
      lower (pathExtension platform.windows path) == lower allowed

end DiscoverConfig

/-- `IsFileChanged`, on an open cache. -/
def isFileChanged (cache : DiscoverCache) (file : FileEntry) : Bool :=
  match cache.find? fun row => row.1 == cStr file.path with
  | none => true
  | some (_, cachedSize, cachedMod) => file.size != cachedSize || file.modTime != cachedMod

/-- `UpdateCache`. -/
def updateCache (cache : DiscoverCache) (file : FileEntry) : DiscoverCache :=
  (cStr file.path, file.size, file.modTime) :: cache.filter fun row => row.1 != cStr file.path

/-- What becomes of a regular file. -/
inductive Disposition
  | excluded
  | empty
  | tooLarge
  | otherExtension
  | unchanged
  /-- There is no callback. -/
  | unheard
  | scanned
  /-- The callback threw. -/
  | failed
deriving DecidableEq, Repr

/-- The counters for one more file. -/
def DiscoverStats.count (stats : DiscoverStats) (d : Disposition) : DiscoverStats :=
  let stats := { stats with filesExamined := stats.filesExamined + 1 }
  match d with
  | .excluded => { stats with filesSkippedExclusion := stats.filesSkippedExclusion + 1 }
  | .tooLarge => { stats with filesSkippedSize := stats.filesSkippedSize + 1 }
  | .otherExtension => { stats with filesSkippedExtension := stats.filesSkippedExtension + 1 }
  | .unchanged => { stats with filesSkippedUnchanged := stats.filesSkippedUnchanged + 1 }
  | .scanned => { stats with filesScanned := stats.filesScanned + 1 }
  | .failed => { stats with filesError := stats.filesError + 1 }
  | .empty | .unheard => stats

namespace DiscoverScanner

section

variable (platform : Platform)

def event (file : FileEntry) : DiscoverFileEvent where
  filePath := file.path
  fileName := pathFilename platform.windows file.path
  fileSize := file.size
  fileOwner := platform.fileOwner file.path
  modificationDate := platform.formatFileTime file.modTime

/-- The configuration that is swapped in for a request. -/
def remoteConfig (config : DiscoverConfig) (params : RemoteScanParams) : DiscoverConfig :=
  { config with
    targetDirectories := [params.scanPath]
    fileExtensions :=
      if params.fileExtensions.isEmpty then config.fileExtensions else params.fileExtensions
    pathExclusions :=
      if params.pathExclusions.isEmpty then config.pathExclusions else params.pathExclusions }

end

/-- `Start`; `disk` is the cache as `OpenCache` finds it, if it can be opened. -/
def start (s : DiscoverScanner) (disk : Option DiscoverCache) : DiscoverScanner :=
  if !s.config.enabled then s
  else if s.config.targetDirectories.isEmpty then s
  else { s with cache := disk, running := true }

/-- `Stop`, up to where it waits for the scan thread. -/
def stop (s : DiscoverScanner) : DiscoverScanner := { s with running := false }

/-- `CloseCache`. -/
def closeCache (s : DiscoverScanner) : DiscoverScanner := { s with cache := none }

theorem frame_start (s : DiscoverScanner) (disk : Option DiscoverCache) :
    (s.start disk).config = s.config ∧ (s.start disk).stats = s.stats := by
  unfold start
  repeat' split
  all_goals exact ⟨rfl, rfl⟩

/-! ## What a request asks for -/

section

variable (platform : Platform)

/-- Non-empty, within the size limit, and not filtered out. -/
def Eligible (config : DiscoverConfig) (file : FileEntry) : Prop :=
  file.size ≠ 0 ∧ file.size ≤ config.maxFileSize ∧
    config.isPathExcluded platform file.path = false ∧
      config.hasAllowedExtension platform file.path = true

/-- Handed to the callback, or skipped as unchanged. -/
def HandedOrUnchanged (d : Disposition) : Prop := d = .scanned ∨ d = .failed ∨ d = .unchanged

/-- The regular files below the path of the request. -/
def requested (fs : FileSystem) (params : RemoteScanParams) : List FileEntry :=
  regularFiles (fs.below params.scanPath)

end

def samplePlatform : Platform where
  windows := true
  fileOwner _ := str "unknown"
  formatFileTime _ := str "unknown"

def sampleFile : FileEntry := { path := str "C:\\data\\a.txt", size := 10, modTime := 0 }

def sampleFs : FileSystem := fun path =>
  if path = str "C:\\data" then some [.file sampleFile] else none

end DiscoverScanner

end AkesoDlp.Agent
