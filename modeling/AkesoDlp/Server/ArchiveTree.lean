import AkesoDlp.Server.ArchiveInspector

/-!
# Archives as trees

An archive opens to its members: each with the file that it is, if its path is
harmless and its data intact, with what the inspector reads for it, and with what
it counts against the limits.
-/

namespace AkesoDlp.Server.Inspector

open Lib Lib.Sweep

/-- What the inspector charges for a member. -/
structure Toll where
  files : Nat
  bytes : Nat
  bomb : Bool
deriving DecidableEq

abbrev Member := Child File Toll

/-- A member that is passed over at no charge. -/
def passedOver : Member := ⟨none, .skips, ⟨0, 0, false⟩⟩

variable (libs : Libraries) (limits : ArchiveLimits)

def harmless (path : PyStr) : Bool := (validateMemberPath libs.repr path).isNone

/-- `_check_ratio` raises. -/
def isBomb (compressed uncompressed : Nat) : Bool :=
  compressed > 0 && limits.maxRatio.exceeded compressed uncompressed

/-- An entry of a ZIP or RAR: its own data, and what reading its name gives. -/
def entryMember (archive : NamedArchive) (info : ArchiveEntry) : Member :=
  if info.isDir || !harmless libs info.filename then passedOver
  else
    let own := info.data.toOption.map (File.mk (pathName info.filename))
    let bomb := isBomb limits info.compressSize info.fileSize
    match archive.read info.filename with
    | .error _ => ⟨own, .fails, ⟨1, info.fileSize, bomb⟩⟩
    | .ok data =>
        ⟨own, .node ⟨pathName info.filename, data⟩, ⟨1, max info.fileSize data.length, bomb⟩⟩

def tarMember (member : TarMember) : Member :=
  if member.isLink || !member.isFile || !harmless libs member.name then passedOver
  else
    match member.data with
    | .error _ => ⟨none, .fails, ⟨1, member.size, false⟩⟩
    | .ok none => ⟨none, .skips, ⟨1, member.size, false⟩⟩
    | .ok (some data) =>
        let file : File := ⟨pathName member.name, data⟩
        ⟨some file, .node file, ⟨1, max member.size data.length, false⟩⟩

/-- The content of a gzip or bzip2 file. -/
def layerMember (innerName : PyStr → PyStr) (file : File) (decompressed : Bytes) : Member :=
  let inner : File := ⟨innerName file.filename, decompressed⟩
  ⟨some inner, .node inner,
    ⟨1, decompressed.length, isBomb limits file.content.length decompressed.length⟩⟩

def unpackedMember (relPath : PyStr) (data : Bytes) : Member :=
  if harmless libs relPath then
    let file : File := ⟨pathName relPath, data⟩
    ⟨some file, .node file, ⟨1, data.length, false⟩⟩
  else ⟨none, .skips, ⟨1, 0, false⟩⟩

def openNamed : Except PyStr NamedArchive → Opened File Toll
  | .error _ => ⟨[], .failed⟩
  | .ok archive => ⟨archive.infolist.map (entryMember libs limits archive), .normal⟩

def openTar : Except PyStr TarArchive → Opened File Toll
  | .error _ => ⟨[], .failed⟩
  | .ok archive =>
      ⟨archive.members.map (tarMember libs),
        match archive.broken with
        | some _ => .failed
        | none => .normal⟩

def openLayer (innerName : PyStr → PyStr) (file : File) : Except PyStr Bytes → Opened File Toll
  | .error _ => ⟨[], .failed⟩
  | .ok decompressed => ⟨[layerMember limits innerName file decompressed], .normal⟩

/-- A 7z archive with a dangerous name escapes, one that does not unpack fails; its
files are lost in both cases. -/
def open7z : Except PyStr SevenZipArchive → Opened File Toll
  | .error _ => ⟨[], .failed⟩
  | .ok archive =>
      ⟨archive.files.map fun file => unpackedMember libs file.1 file.2,
        if archive.names.all (harmless libs) then
          match archive.broken with
          | some _ => .failed
          | none => .normal
        else .escaped⟩

def openArchive (file : File) : ArchiveType → Opened File Toll
  | .zip => openNamed libs limits (libs.zipfile file.content)
  | .tar => openTar libs (libs.tarfile file.content)
  | .gzip | .tarGz => openLayer limits gzipInnerName file (libs.gzip file.content)
  | .sevenZip => open7z libs (libs.py7zr file.content)
  | .rar => openNamed libs limits (libs.rarfile file.content)
  | .bzip2 => openLayer limits bzip2InnerName file (libs.bz2 file.content)
  | .tarBz2 => ⟨[], .normal⟩

/-- The tree of archives: a file opens if it is recognised as an archive. -/
def archiveTree (file : File) : Option (Opened File Toll) :=
  (isArchive file.filename file.content).map (openArchive libs limits file)

/-- The regular files of an archive and of the archives in it, down to the greatest
depth. -/
def regularFiles (content : Bytes) (filename : PyStr) : List HandedFile :=
  leaves (archiveTree libs limits) (limits.maxDepth + 1) ⟨filename, content⟩ []

/-- The counts, sizes, ratios and the depth of the whole tree are within the limits:
those declared and those of what is read. -/
structure WithinLimits (content : Bytes) (filename : PyStr) : Prop where
  files : total (archiveTree libs limits) Toll.files (limits.maxDepth + 1) ⟨filename, content⟩ ≤
    limits.maxFiles
  bytes : total (archiveTree libs limits) Toll.bytes (limits.maxDepth + 1) ⟨filename, content⟩ ≤
    limits.maxTotalSize
  fits : fits (archiveTree libs limits) Toll.bomb (limits.maxDepth + 1) ⟨filename, content⟩ = true

/-- Nothing is hidden in an archive. -/
def hidesNothing (content : Bytes) (filename : PyStr) : Bool :=
  nothingHidden (archiveTree libs limits) (limits.maxDepth + 1) ⟨filename, content⟩

end AkesoDlp.Server.Inspector
