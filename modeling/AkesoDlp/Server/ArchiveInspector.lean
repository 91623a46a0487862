import AkesoDlp.Lib.Act
import AkesoDlp.Lib.Sweep
import AkesoDlp.Server.FileInspector

/-!
# The archive inspector

`server/detection/archive_inspector.py` over the archive libraries, which are
functions of the bytes that they are given. The recursion counts the levels that
are left down while the source counts the depth up. A run keeps a history of
what it did, which no branch of the code reads.
-/

namespace AkesoDlp.Server.Inspector

open Lib

inductive ArchiveType
  | zip
  | tar
  | gzip
  | tarGz
  | sevenZip
  | rar
  | bzip2
  | tarBz2
deriving DecidableEq, Repr

/-- `s.endswith(ending)`. -/
def endsWith (s ending : PyStr) : Bool := ending.isSuffixOf s

/-- `_is_archive`: magic bytes first, then the extension. -/
def isArchive (filename : PyStr) (content : Bytes) : Option ArchiveType :=
  if content.take 4 = [0x50, 0x4B, 0x03, 0x04] then some .zip
  else if content.take 6 = [0x37, 0x7A, 0xBC, 0xAF, 0x27, 0x1C] then some .sevenZip
  else if content.take 7 = [0x52, 0x61, 0x72, 0x21, 0x1A, 0x07, 0x00] ||
      content.take 8 = [0x52, 0x61, 0x72, 0x21, 0x1A, 0x07, 0x01, 0x00] then some .rar
  else if content.take 2 = [0x1F, 0x8B] then some .gzip
  -- five bytes of the content against the three of `BZh`
  else if content.take 5 = [0x42, 0x5A, 0x68] then some .bzip2
  else if content.length > 262 && (content.drop 257).take 5 = [0x75, 0x73, 0x74, 0x61, 0x72] then
    some .tar
  else
    let ext := lower (pathSuffix filename)
    if ext = py ".zip" then some .zip
    else if ext = py ".7z" then some .sevenZip
    else if ext = py ".rar" then some .rar
    else if ext = py ".gz" || ext = py ".gzip" then some .gzip
    else if ext = py ".tar" then some .tar
    else if ext = py ".tgz" || endsWith (lower filename) (py ".tar.gz") then some .tarGz
    else if ext = py ".bz2" then some .bzip2
    else if endsWith (lower filename) (py ".tar.bz2") then some .tarBz2
    else none

/-- No name reaches the last branch: `.tar.bz2` ends in the extension `.bz2`. -/
theorem isArchive_ne_tarBz2 (filename : PyStr) (content : Bytes) :
    isArchive filename content ≠ some .tarBz2 := by
  intro h
  simp only [isArchive, ite_eq_iff, Option.some.injEq, reduceCtorEq, and_false, false_or, and_true,
    or_false] at h
  obtain ⟨-, -, -, -, -, -, -, -, -, -, -, -, hext, hend⟩ := h
  have htail : lower (pathSuffix filename) = '.' :: py "bz2" := by
    have hsuffix : py ".tar" ++ '.' :: py "bz2" <:+ lower filename :=
      List.isSuffixOf_iff_suffix.mp hend
    refine lower_pathSuffix ?_ ?_ ?_ ?_ hsuffix <;> decide
  exact hext htail

/-- `max_ratio`, by what the inspector does with it in floating point. -/
structure MaxRatio where
  /-- `uncompressed / compressed > max_ratio` -/
  exceeded : (compressed uncompressed : Nat) → Bool
  /-- The text of the `ZipBombError`. -/
  report : (compressed uncompressed : Nat) → PyStr

/-- `{n / d:.0f}`: rounded, a half to the even number. -/
def roundedRatio (n d : Nat) : Nat :=
  if 2 * (n % d) > d ∨ (2 * (n % d) = d ∧ n / d % 2 = 1) then n / d + 1 else n / d

/-- A ratio of `bound`:1. -/
def MaxRatio.ofNat (bound : Nat) : MaxRatio where
  exceeded := fun compressed uncompressed => decide (bound * compressed < uncompressed)
  report := fun compressed uncompressed =>
    py "Compression ratio " ++ decimal (roundedRatio uncompressed compressed) ++
      py ":1 exceeds max " ++ decimal bound ++ py ":1 — possible zip bomb"

structure ArchiveLimits where
  maxDepth : Nat := 3
  maxTotalSize : Nat := 100 * 1024 * 1024
  maxFiles : Nat := 500
  maxRatio : MaxRatio := MaxRatio.ofNat 1000

/-- The subclasses of `ArchiveSafetyError`. -/
inductive SafetyClass
  | zipBombError
  | maxDepthError
  | maxSizeError
  | maxFilesError
  | pathTraversalError
deriving DecidableEq, Repr

/-- `type(exc).__name__` -/
def SafetyClass.name : SafetyClass → PyStr
  | .zipBombError => py "ZipBombError"
  | .maxDepthError => py "MaxDepthError"
  | .maxSizeError => py "MaxSizeError"
  | .maxFilesError => py "MaxFilesError"
  | .pathTraversalError => py "PathTraversalError"

/-- An exception with its text. -/
inductive Raised
  | safety (cls : SafetyClass) (text : PyStr)
  | other (text : PyStr)
deriving DecidableEq

/-! ## The archive libraries -/

/-- A `ZipInfo` or a `RarInfo`, with what unpacking this entry gives. -/
structure ArchiveEntry where
  filename : PyStr
  isDir : Bool
  compressSize : Nat
  fileSize : Nat
  data : Except PyStr Bytes

/-- An open `ZipFile` or `RarFile`. Its entries are read by name, and names may
repeat. -/
structure NamedArchive where
  infolist : List ArchiveEntry
  read : PyStr → Except PyStr Bytes

/-- Reading as `zipfile` does: the last entry of the name. -/
def NamedArchive.ofEntries (entries : List ArchiveEntry) : NamedArchive where
  infolist := entries
  read := fun name =>
    match (entries.filter fun info => info.filename == name).getLast? with
    | some info => info.data
    | none => .error (py "There is no item named in the archive")

/-- A `TarInfo`, with what `extractfile` and `read` give. -/
structure TarMember where
  name : PyStr
  isLink : Bool
  isFile : Bool
  size : Nat
  data : Except PyStr (Option Bytes)

/-- An open `TarFile`; `getmembers` raises when the file breaks off. -/
structure TarArchive where
  members : List TarMember
  broken : Option PyStr

/-- An open `SevenZipFile`: the names of its members, its intact files under their
relative paths in the order of `rglob`, and what makes `extractall` raise. -/
structure SevenZipArchive where
  names : List PyStr
  files : List (PyStr × Bytes)
  broken : Option PyStr

structure Libraries where
  zipfile : Bytes → Except PyStr NamedArchive
  rarfile : Bytes → Except PyStr NamedArchive
  tarfile : Bytes → Except PyStr TarArchive
  py7zr : Bytes → Except PyStr SevenZipArchive
  gzip : Bytes → Except PyStr Bytes
  bz2 : Bytes → Except PyStr Bytes
  /-- `repr` of a `str`. -/
  repr : PyStr → PyStr
  /-- `inspect` of the `FileInspector`. -/
  fileInspector : Bytes → PyStr → Except PyStr (List Component)

/-! ## Runs -/

/-- A file name and the bytes under it. -/
structure File where
  filename : PyStr
  content : Bytes
deriving DecidableEq

/-- A call of `FileInspector.inspect`: the file, and the way to it from the outermost
archive. -/
abbrev HandedFile := Sweep.Leaf File

/-- What a run does. -/
inductive Step
  /-- Past the depth check of `_extract_recursive`. -/
  | enter (depth : Nat)
  /-- A member of a ZIP, RAR or TAR is read and counted. -/
  | member (declared size : Nat)
  /-- The content of a gzip or bzip2 file is counted. -/
  | layer (size : Nat)
  /-- An unpacked file of a 7z archive is counted. -/
  | unpacked (size : Nat)
  | hand (file : HandedFile)
deriving DecidableEq

/-- By how much a step raises `total_bytes`. -/
def Step.size : Step → Nat
  | .member _ size | .layer size | .unpacked size => size
  | .enter _ | .hand _ => 0

/-- By how much a step raises `total_files`. -/
def Step.files : Step → Nat
  | .member .. | .layer _ | .unpacked _ => 1
  | .enter _ | .hand _ => 0

/-- A step and the counters before it. -/
structure Event where
  totalBytes : Nat
  totalFiles : Nat
  step : Step
deriving DecidableEq

/-- `_ExtractionState` and the components of the message. -/
structure Extraction where
  totalBytes : Nat := 0
  totalFiles : Nat := 0
  errors : List PyStr := []
  components : List Component := []
  history : List Event := []
deriving DecidableEq

abbrev Extract := Act Extraction Raised

def appendError (text : PyStr) : Extract :=
  .update fun s => { s with errors := s.errors ++ [text] }

/-- A step of the run; where it counts a member this is `state.add`. -/
def perform (step : Step) : Extract :=
  .update fun s =>
    { s with
      totalBytes := s.totalBytes + step.size
      totalFiles := s.totalFiles + step.files
      history := s.history ++ [⟨s.totalBytes, s.totalFiles, step⟩] }

/-- `d[key] = value` -/
def dictSet (d : List (PyStr × MetaValue)) (key : PyStr) (value : MetaValue) :
    List (PyStr × MetaValue) :=
  if d.any fun item => item.1 == key then
    d.map fun item => if item.1 == key then (key, value) else item
  else d ++ [(key, value)]

def Component.withArchivePath (path : PyStr) (comp : Component) : Component :=
  { comp with metadata := dictSet comp.metadata (py "archive_path") (.str path) }

section

variable (libs : Libraries) (limits : ArchiveLimits)

/-- `check_files` -/
def checkFiles : Extract :=
  .failIf (fun s => limits.maxFiles ≤ s.totalFiles)
    (.safety .maxFilesError (py "Total file count would exceed " ++ decimal limits.maxFiles))

/-- `check_size` -/
def checkSize (size : Nat) : Extract :=
  .failIf (fun s => limits.maxTotalSize < s.totalBytes + size)
    (.safety .maxSizeError
      (py "Total extracted size would exceed " ++ decimal limits.maxTotalSize ++ py " bytes"))

/-- `_check_ratio` -/
def checkRatio (compressed uncompressed : Nat) : Extract :=
  .failIf (fun _ => compressed > 0 && limits.maxRatio.exceeded compressed uncompressed)
    (.safety .zipBombError (limits.maxRatio.report compressed uncompressed))

/-- The arguments of `_extract_recursive`. -/
structure Frame where
  content : Bytes
  filename : PyStr
  depth : Nat
  pathPrefix : PyStr
  trail : List (Nat × File)

/-- The call for a member. -/
def Frame.member (fr : Frame) (i : Nat) (data : Bytes) (name entryPath : PyStr) : Frame :=
  ⟨data, name, fr.depth + 1, entryPath, fr.trail ++ [(i, ⟨name, data⟩)]⟩

/-- `f"{path_prefix}{filename}/{name}" + "/"` -/
def Frame.entryPath (fr : Frame) (name : PyStr) : PyStr :=
  fr.pathPrefix ++ fr.filename ++ py "/" ++ name ++ py "/"

/-- The loop body of `_extract_zip` and `_extract_rar`. -/
def extractEntry (extract : Frame → Extract) (fr : Frame) (archive : NamedArchive)
    (info : ArchiveEntry) (i : Nat) : Extract :=
  if info.isDir then .skip
  else
    match validateMemberPath libs.repr info.filename with
    | some exc => appendError exc
    | none =>
        (checkFiles limits).seq <|
        (checkRatio limits info.compressSize info.fileSize).seq <|
        (checkSize limits info.fileSize).seq <|
        match archive.read info.filename with
        | .error exc => .raise (.other exc)
        | .ok data =>
            (perform (.member info.fileSize data.length)).seq <|
            extract (fr.member i data (pathName info.filename) (fr.entryPath info.filename))

def extractNamed (extract : Frame → Extract) (fr : Frame) :
    Except PyStr NamedArchive → Extract
  | .error exc => .raise (.other exc)
  | .ok archive =>
      .forEach (fun entry => extractEntry libs limits extract fr archive entry.1 entry.2)
        archive.infolist.zipIdx

/-- `_extract_zip` -/
def extractZip (extract : Frame → Extract) (fr : Frame) : Extract :=
  extractNamed libs limits extract fr (libs.zipfile fr.content)

/-- `_extract_rar` -/
def extractRar (extract : Frame → Extract) (fr : Frame) : Extract :=
  extractNamed libs limits extract fr (libs.rarfile fr.content)

/-- The loop body of `_extract_tar`. -/
def extractTarMember (extract : Frame → Extract) (fr : Frame) (member : TarMember) (i : Nat) :
    Extract :=
  if member.isLink then appendError (py "Skipping symlink/hardlink: " ++ member.name)
  else if !member.isFile then .skip
  else
    match validateMemberPath libs.repr member.name with
    | some exc => appendError exc
    | none =>
        (checkFiles limits).seq <|
        (checkSize limits member.size).seq <|
        match member.data with
        | .error exc => .raise (.other exc)
        | .ok none => .skip
        | .ok (some data) =>
            (perform (.member member.size data.length)).seq <|
            extract (fr.member i data (pathName member.name) (fr.entryPath member.name))

/-- `_extract_tar` -/
def extractTar (extract : Frame → Extract) (fr : Frame) : Extract :=
  match libs.tarfile fr.content with
  | .error exc => .raise (.other exc)
  | .ok archive =>
      match archive.broken with
      | some exc => .raise (.other exc)
      | none =>
          .forEach (fun entry => extractTarMember libs limits extract fr entry.1 entry.2)
            archive.members.zipIdx

/-- `_extract_gzip` and `_extract_bzip2`: no `check_files`. -/
def extractLayer (innerName : PyStr → PyStr) (extract : Frame → Extract) (fr : Frame) :
    Except PyStr Bytes → Extract
  | .error exc => .raise (.other exc)
  | .ok decompressed =>
      (checkRatio limits fr.content.length decompressed.length).seq <|
      (checkSize limits decompressed.length).seq <|
      (perform (.layer decompressed.length)).seq <|
      extract (fr.member 0 decompressed (innerName fr.filename)
        (fr.pathPrefix ++ fr.filename ++ py "/"))

def gzipInnerName (filename : PyStr) : PyStr :=
  if endsWith (lower filename) (py ".gz") then filename.take (filename.length - 3)
  else if endsWith (lower filename) (py ".gzip") then filename.take (filename.length - 5)
  else filename

def bzip2InnerName (filename : PyStr) : PyStr :=
  if endsWith (lower filename) (py ".bz2") then filename.take (filename.length - 4) else filename

/-- `_extract_gzip` -/
def extractGzip (extract : Frame → Extract) (fr : Frame) : Extract :=
  extractLayer limits gzipInnerName extract fr (libs.gzip fr.content)

/-- `_extract_bzip2` -/
def extractBzip2 (extract : Frame → Extract) (fr : Frame) : Extract :=
  extractLayer limits bzip2InnerName extract fr (libs.bz2 fr.content)

/-- The loop body of `_extract_7z`, for a file below the temporary directory. -/
def extractUnpacked (extract : Frame → Extract) (fr : Frame) (relPath : PyStr) (data : Bytes)
    (i : Nat) : Extract :=
  (checkFiles limits).seq <|
  match validateMemberPath libs.repr relPath with
  | some exc => appendError exc
  | none =>
      (checkSize limits data.length).seq <|
      (perform (.unpacked data.length)).seq <|
      extract (fr.member i data (pathName relPath) (fr.entryPath relPath))

/-- `_extract_7z`: a dangerous name raises before anything is unpacked. -/
def extract7z (extract : Frame → Extract) (fr : Frame) : Extract :=
  match libs.py7zr fr.content with
  | .error exc => .raise (.other exc)
  | .ok archive =>
      match archive.names.findSome? (validateMemberPath libs.repr) with
      | some exc => .raise (.safety .pathTraversalError exc)
      | none =>
          match archive.broken with
          | some exc => .raise (.other exc)
          | none =>
              .forEach
                (fun file => extractUnpacked libs limits extract fr file.1.1 file.1.2 file.2)
                archive.files.zipIdx

/-- `_inspect_file` -/
def inspectFile (fr : Frame) : Extract :=
  (perform (.hand ⟨⟨fr.filename, fr.content⟩, fr.trail⟩)).seq <|
  match libs.fileInspector fr.content fr.filename with
  | .error exc => appendError (py "Failed to inspect " ++ fr.filename ++ py ": " ++ exc)
  | .ok components =>
      .update fun s =>
        { s with
          components := s.components ++
            components.map (Component.withArchivePath (fr.pathPrefix ++ fr.filename)) }

/-- The choice of the handler in `_extract_recursive`. -/
def extractArchive (extract : Frame → Extract) (fr : Frame) : ArchiveType → Extract
  | .zip => extractZip libs limits extract fr
  | .tar => extractTar libs limits extract fr
  | .gzip | .tarGz => extractGzip libs limits extract fr
  | .sevenZip => extract7z libs limits extract fr
  | .rar => extractRar libs limits extract fr
  | .bzip2 => extractBzip2 libs limits extract fr
  | .tarBz2 => appendError (py "Unsupported archive type: tar.bz2")

/-- The `try` of `_extract_recursive`: safety errors go on, others are recorded. -/
def contain (filename : PyStr) (body : Extract) : Extract :=
  body.recover fun
    | .safety cls text => .raise (.safety cls text)
    | .other exc => appendError (py "Failed to extract " ++ filename ++ py ": " ++ exc)

/-- `_extract_recursive`; `depth > max_depth` is where no level is left. -/
def extractRecursive : Nat → Frame → Extract
  | 0, fr =>
      .raise (.safety .maxDepthError
        (py "Nesting depth " ++ decimal fr.depth ++ py " exceeds max " ++ decimal limits.maxDepth))
  | levels + 1, fr =>
      (perform (.enter fr.depth)).seq <|
      match isArchive fr.filename fr.content with
      | none => inspectFile libs fr
      | some archiveType =>
          contain fr.filename (extractArchive libs limits (extractRecursive levels) fr archiveType)

/-- The first call of `_extract_recursive`. -/
def runExtraction (content : Bytes) (filename : PyStr) : Extraction × Option Raised :=
  extractRecursive libs limits (limits.maxDepth + 1) ⟨content, filename, 0, [], []⟩ {}

/-- What `inspect` adds for a safety error. -/
def safetyComponent (filename : PyStr) : Raised → List Component
  | .safety cls text =>
      [⟨.generic, py "[Archive safety limit: " ++ text ++ py "]",
        [(py "filename", .str filename), (py "error", .str cls.name),
          (py "message", .str text)]⟩]
  | .other _ => []

/-- What `inspect` adds for a recorded error. -/
def errorComponent (filename err : PyStr) : Component :=
  ⟨.generic, py "[Extraction error: " ++ err ++ py "]",
    [(py "filename", .str filename), (py "error", .str err)]⟩

/-- `ArchiveInspector.inspect`: the run's state, with the components of the message
that it returns. -/
def ArchiveInspector.inspect (content : Bytes) (filename : PyStr) : Extraction :=
  let (s, raised) := runExtraction libs limits content filename
  { s with
    components := s.components ++ raised.toList.flatMap (safetyComponent filename) ++
      s.errors.map (errorComponent filename) }

end

def Step.handed : Step → Option HandedFile
  | .hand file => some file
  | .enter _ | .member .. | .layer _ | .unpacked _ => none

/-- The calls of `FileInspector.inspect` in a run. -/
def Extraction.handed (s : Extraction) : List HandedFile :=
  s.history.filterMap fun event => event.step.handed

theorem handed_perform (step : Step) (s : Extraction) :
    (perform step s).1.handed = s.handed ++ step.handed.toList := by
  show List.filterMap _ (s.history ++ [_]) = _
  rw [List.filterMap_append, Extraction.handed, List.append_cancel_left_eq]
  cases step <;> rfl

end AkesoDlp.Server.Inspector
