import AkesoDlp.Server.ArchiveIsolation
import AkesoDlp.Server.ArchiveLimits

/-!
# What archiving changes

The tree of an archive is given by what each of its files really is. Where the
inspector takes every file for that, and reads every member as itself, it hands all
leaves to the file inspector, and their components are in the message.
-/

namespace AkesoDlp.Server.Inspector

open Lib Lib.Act Lib.Sweep

/-- The archive inspector over the file inspector. -/
def Libraries.inspecting (libs : Libraries) (readers : Readers) : Libraries :=
  { libs with fileInspector := FileInspector.inspect readers }

variable (libs : Libraries) (limits : ArchiveLimits) (kind : File → Option ArchiveType)

/-- A compressed TAR is a layer around a TAR. -/
def ArchiveType.layer : ArchiveType → ArchiveType
  | .tarGz => .gzip
  | .tarBz2 => .bzip2
  | archiveType => archiveType

/-- The tree of archives when `kind` says what a file is. -/
def trueTree (file : File) : Option (Opened File Toll) :=
  (kind file).map fun archiveType => openArchive libs limits file archiveType.layer

/-- The leaves: the files in the archive that are no archives. -/
def leafFiles (content : Bytes) (filename : PyStr) : List HandedFile :=
  leaves (trueTree libs limits kind) (limits.maxDepth + 1) ⟨filename, content⟩ []

/-- The tree is within the limits and its data is intact. -/
structure SoundTree (content : Bytes) (filename : PyStr) : Prop where
  files : total (trueTree libs limits kind) Toll.files (limits.maxDepth + 1) ⟨filename, content⟩ ≤
    limits.maxFiles
  bytes : total (trueTree libs limits kind) Toll.bytes (limits.maxDepth + 1) ⟨filename, content⟩ ≤
    limits.maxTotalSize
  fits : fits (trueTree libs limits kind) Toll.bomb (limits.maxDepth + 1) ⟨filename, content⟩ = true
  intact : intact (trueTree libs limits kind) (limits.maxDepth + 1) ⟨filename, content⟩ = true

/-- `_is_archive` takes the file for what it is. -/
def recognised (file : File) : Bool :=
  (isArchive file.filename file.content).map ArchiveType.layer = (kind file).map ArchiveType.layer

/-- Every file of the tree is taken for what it is, and every member read as itself. -/
def seenAsItIs (content : Bytes) (filename : PyStr) : Bool :=
  clear (trueTree libs limits kind) (recognised kind) (limits.maxDepth + 1) ⟨filename, content⟩

variable {libs limits kind}

theorem openArchive_layer (file : File) {archiveType : ArchiveType} (h : archiveType ≠ .tarBz2) :
    openArchive libs limits file archiveType.layer = openArchive libs limits file archiveType := by
  cases archiveType with
  | tarBz2 => exact absurd rfl h
  | _ => rfl

theorem archiveTree_of_recognised {file : File} (h : recognised kind file = true) :
    archiveTree libs limits file = trueTree libs limits kind file := by
  have hlayer : archiveTree libs limits file =
      ((isArchive file.filename file.content).map ArchiveType.layer).map
        (openArchive libs limits file) := by
    rw [archiveTree, Option.map_map]
    refine Option.map_congr fun archiveType htype => ?_
    have hne : archiveType ≠ .tarBz2 := by
      rintro rfl
      exact isArchive_ne_tarBz2 _ _ htype
    exact (openArchive_layer file hne).symm
  rw [hlayer, of_decide_eq_true h, trueTree, Option.map_map]
  rfl

/-- Where all files are seen as what they are, the leaves are handed on. -/
theorem handed_eq_leafFiles {content : Bytes} {filename : PyStr}
    (h : SoundTree libs limits kind content filename)
    (hseen : seenAsItIs libs limits kind content filename = true) :
    (ArchiveInspector.inspect libs limits content filename).handed =
      leafFiles libs limits kind content filename := by
  have hswept := sweptAs_of_clear (fun _ => archiveTree_of_recognised) ⟨filename, content⟩ h.fits
    h.intact hseen
  have hwithin : WithinLimits libs limits content filename := by
    refine ⟨?_, ?_, hswept.fits⟩
    · rw [hswept.total]
      exact h.files
    · rw [hswept.total]
      exact h.bytes
  rw [handed_inspect hwithin]
  exact hswept.visits []

/-! ## The files that are handed on -/

/-- The components that a frame adds to the message. -/
def newComponents (libs : Libraries) (fr : Frame) : List Component :=
  match libs.fileInspector fr.content fr.filename with
  | .error _ => []
  | .ok components => components.map (Component.withArchivePath (fr.pathPrefix ++ fr.filename))

theorem handed_inspectFile (fr : Frame) (s : Extraction) :
    (inspectFile libs fr s).1.handed = s.handed ++ [⟨fr.file, fr.trail⟩] := by
  rw [← Option.toList_some, ← Step.handed, ← handed_perform]
  unfold inspectFile
  cases libs.fileInspector fr.content fr.filename <;> rfl

theorem components_inspectFile (fr : Frame) (s : Extraction) :
    (inspectFile libs fr s).1.components = s.components ++ newComponents libs fr := by
  unfold inspectFile newComponents
  cases libs.fileInspector fr.content fr.filename with
  | error exc => exact (List.append_nil _).symm
  | ok components => rfl

/-- An invariant of the files handed on and the message only has to hold after each
call of the file inspector. -/
theorem keptBySteps_of_handed {I : Extraction → Prop}
    (hcongr : ∀ s s' : Extraction, s'.handed = s.handed → s'.components = s.components →
      I s → I s')
    (hfile : ∀ fr s, isArchive fr.filename fr.content = none → I s → I (inspectFile libs fr s).1) :
    KeptBySteps libs limits I := by
  have hperform : ∀ step : Step, step.handed = none → ∀ s, I s → I (perform step s).1 := by
    intro step hstep s hs
    refine hcongr s _ ?_ rfl hs
    rw [handed_perform, hstep, Option.toList_none, List.append_nil]
  exact
    { appendError := fun _ s hs => hcongr s _ rfl rfl hs
      enter := fun depth _ s hs => hperform (.enter depth) rfl s hs
      member := fun declared size s hs _ _ => hperform (.member declared size) rfl s hs
      layer := fun size s hs _ => hperform (.layer size) rfl s hs
      unpacked := fun size s hs _ _ => hperform (.unpacked size) rfl s hs
      inspectFile := fun fr hnone _ => Keeps.iff_apply.mpr fun s hs => hfile fr s hnone hs }

/-- The components of every file handed on are in the message. -/
def Delivered (libs : Libraries) (s : Extraction) : Prop :=
  ∀ leaf ∈ s.handed, ∀ components,
    libs.fileInspector leaf.node.content leaf.node.filename = .ok components →
    ∀ comp ∈ components, ∃ path, comp.withArchivePath path ∈ s.components

theorem Delivered.inspectFile {s : Extraction} (h : Delivered libs s) (fr : Frame) :
    Delivered libs (inspectFile libs fr s).1 := by
  intro leaf hleaf components hok comp hcomp
  rw [handed_inspectFile, List.mem_append, List.mem_singleton] at hleaf
  rw [components_inspectFile]
  rcases hleaf with hleaf | rfl
  · obtain ⟨path, hpath⟩ := h leaf hleaf components hok comp hcomp
    exact ⟨path, List.mem_append_left _ hpath⟩
  · have hinspect : libs.fileInspector fr.content fr.filename = .ok components := hok
    rw [newComponents, hinspect]
    exact ⟨_, List.mem_append_right _ (List.mem_map_of_mem hcomp)⟩

theorem delivered_kept (libs : Libraries) (limits : ArchiveLimits) :
    KeptBySteps libs limits (Delivered libs) := by
  refine keptBySteps_of_handed (fun s s' hhanded hcomponents hs => ?_) fun fr s _ hs =>
    hs.inspectFile fr
  rw [Delivered, hhanded, hcomponents]
  exact hs

/-- No file handed on is one that `_is_archive` takes for an archive. -/
def HandsFiles (s : Extraction) : Prop :=
  ∀ leaf ∈ s.handed, isArchive leaf.node.filename leaf.node.content = none

theorem handsFiles_kept (libs : Libraries) (limits : ArchiveLimits) :
    KeptBySteps libs limits HandsFiles := by
  refine keptBySteps_of_handed (fun s s' hhanded _ hs => ?_) fun fr s hnone hs leaf hleaf => ?_
  · rw [HandsFiles, hhanded]
    exact hs
  · rw [handed_inspectFile, List.mem_append, List.mem_singleton] at hleaf
    rcases hleaf with hleaf | rfl
    · exact hs leaf hleaf
    · exact hnone

/-- A document that is taken for an archive never reaches the file inspector. -/
theorem isArchive_eq_none_of_handed {content : Bytes} {filename : PyStr} {leaf : HandedFile}
    (h : leaf ∈ (ArchiveInspector.inspect libs limits content filename).handed) :
    isArchive leaf.node.filename leaf.node.content = none :=
  (handsFiles_kept libs limits).run (fun _ hleaf => by cases hleaf) content filename leaf h

/-- The message has the components of all files handed on. -/
theorem delivered_inspect (libs : Libraries) (limits : ArchiveLimits) (content : Bytes)
    (filename : PyStr) :
    Delivered libs (ArchiveInspector.inspect libs limits content filename) := by
  have hrun : Delivered libs (runExtraction libs limits content filename).1 :=
    (delivered_kept libs limits).run (fun leaf hleaf => by cases hleaf) content filename
  intro leaf hleaf components hok comp hcomp
  obtain ⟨path, hpath⟩ := hrun leaf hleaf components hok comp hcomp
  exact ⟨path, List.mem_append_left _ (List.mem_append_left _ hpath)⟩

/-- **Archiving changes nothing** where every file is seen as what it is: each component
that a leaf gives on its own is in the message for the archive. -/
theorem inspect_transparent (libs : Libraries) (readers : Readers) (limits : ArchiveLimits)
    (kind : File → Option ArchiveType) {content : Bytes} {filename : PyStr}
    (h : SoundTree (libs.inspecting readers) limits kind content filename)
    (hseen : seenAsItIs (libs.inspecting readers) limits kind content filename = true) :
    ∀ leaf ∈ leafFiles (libs.inspecting readers) limits kind content filename, ∀ components,
      FileInspector.inspect readers leaf.node.content leaf.node.filename = .ok components →
      ∀ comp ∈ components, ∃ path, comp.withArchivePath path ∈
        (ArchiveInspector.inspect (libs.inspecting readers) limits content
          filename).components := by
  intro leaf hleaf
  rw [← handed_eq_leafFiles h hseen] at hleaf
  exact delivered_inspect (libs.inspecting readers) limits content filename leaf hleaf

/-- `bz2.compress` of the byte `a`. -/
def bzip2OfA : Bytes :=
  [66, 90, 104, 57, 49, 65, 89, 38, 83, 89, 25, 147, 155, 107, 0, 0, 0, 1, 0, 32, 0, 32, 0, 33, 24,
    70, 130, 238, 72, 167, 10, 18, 3, 50, 115, 109, 96]

/-- The libraries of `gzipOnce`, which know this file too. -/
def bzip2Libraries : Libraries :=
  { gzipLibraries with
    bz2 := fun content =>
      if content = bzip2OfA then .ok [97] else .error (py "Invalid data stream") }

/-- Readers of ASCII text. -/
def asciiReaders : Readers where
  handle := fun _ _ _ => ([], none)
  detect := fun _ => ⟨some (py "ascii"), 1⟩
  decode := fun _ content => .ok (content.map fun b => Char.ofNat b.toNat)

/-- What the two compressed files are. -/
def compressedKind (file : File) : Option ArchiveType :=
  if file.content = gzipOnce then some .gzip
  else if file.content = bzip2OfA then some .bzip2
  else none

/-- The component of a text file with the byte `a`. -/
def textOfA (filename : PyStr) : Component :=
  ⟨.body, py "a", [(py "filename", .str filename), (py "encoding", .str (py "ascii")),
    (py "source", .str (py "text"))]⟩

/-- The text of `a.txt` is found in `a.txt.gz`. -/
theorem inspect_transparent_gzip :
    ∃ path, (textOfA (py "a.txt")).withArchivePath path ∈
      (ArchiveInspector.inspect (bzip2Libraries.inspecting asciiReaders) {} gzipOnce
        (py "a.txt.gz")).components :=
  inspect_transparent bzip2Libraries asciiReaders {} compressedKind
    ⟨by decide +kernel, by decide +kernel, by decide +kernel, by decide +kernel⟩
    (by decide +kernel) ⟨⟨py "a.txt", [97]⟩, [(0, ⟨py "a.txt", [97]⟩)]⟩ (by decide +kernel)
    [textOfA (py "a.txt")] (by decide +kernel) _ (List.mem_singleton_self _)

/-- A bzip2 file without its extension is not opened: five bytes are compared with
three. -/
theorem bzip2_not_recognised :
    ¬ ∀ (libs : Libraries) (readers : Readers) (limits : ArchiveLimits)
      (kind : File → Option ArchiveType) (content : Bytes) (filename : PyStr),
      SoundTree (libs.inspecting readers) limits kind content filename →
      ∀ leaf ∈ leafFiles (libs.inspecting readers) limits kind content filename, ∀ components,
        FileInspector.inspect readers leaf.node.content leaf.node.filename = .ok components →
        ∀ comp ∈ components, ∃ path, comp.withArchivePath path ∈
          (ArchiveInspector.inspect (libs.inspecting readers) limits content
            filename).components := by
  intro h
  obtain ⟨path, hpath⟩ := h bzip2Libraries asciiReaders {} compressedKind bzip2OfA (py "data")
    ⟨by decide +kernel, by decide +kernel, by decide +kernel, by decide +kernel⟩
    ⟨⟨py "data", [97]⟩, [(0, ⟨py "data", [97]⟩)]⟩ (by decide +kernel) [textOfA (py "data")]
    (by decide +kernel) _ (List.mem_singleton_self _)
  -- the message only has the compressed bytes, as an attachment
  have hattached : ∀ comp ∈ (ArchiveInspector.inspect (bzip2Libraries.inspecting asciiReaders) {}
      bzip2OfA (py "data")).components, comp.componentType = .attachment := by decide +kernel
  exact absurd (hattached _ hpath) ComponentType.noConfusion

end AkesoDlp.Server.Inspector
