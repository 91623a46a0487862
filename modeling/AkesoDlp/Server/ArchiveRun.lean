import AkesoDlp.Server.ArchiveInspector

/-!
# Invariants of an inspection

What the steps of the inspector keep holds throughout a run: the handlers take them
after the checks that they make, and the recursion goes through the levels.
-/

namespace AkesoDlp.Server.Inspector

open Lib Lib.Act

/-- Every step keeps `I`, each in the states that its handler has checked. -/
structure KeptBySteps (libs : Libraries) (limits : ArchiveLimits) (I : Extraction → Prop) :
    Prop where
  appendError : ∀ text, Keeps I (appendError text)
  enter : ∀ depth ≤ limits.maxDepth, Keeps I (perform (.enter depth))
  member : ∀ declared size s, I s → s.totalFiles < limits.maxFiles →
    s.totalBytes + declared ≤ limits.maxTotalSize → I (perform (.member declared size) s).1
  layer : ∀ size s, I s → s.totalBytes + size ≤ limits.maxTotalSize →
    I (perform (.layer size) s).1
  unpacked : ∀ size s, I s → s.totalFiles < limits.maxFiles →
    s.totalBytes + size ≤ limits.maxTotalSize → I (perform (.unpacked size) s).1
  inspectFile : ∀ fr : Frame, isArchive fr.filename fr.content = none →
    fr.trail.length ≤ limits.maxDepth → Keeps I (inspectFile libs fr)

variable {libs : Libraries} {limits : ArchiveLimits} {I : Extraction → Prop}

/-! ## The checks -/

theorem checkFiles_triple :
    Triple I (checkFiles limits) (fun s => I s ∧ s.totalFiles < limits.maxFiles)
      (fun s _ => I s) := by
  refine Triple.failIf (fun s hs hgood => ⟨hs, ?_⟩) fun _ hs _ => hs
  simpa using hgood

theorem checkSize_triple {P : Extraction → Prop} {size : Nat} (hP : ∀ s, P s → I s) :
    Triple P (checkSize limits size) (fun s => P s ∧ s.totalBytes + size ≤ limits.maxTotalSize)
      (fun s _ => I s) := by
  refine Triple.failIf (fun s hs hgood => ⟨hs, ?_⟩) fun s hs _ => hP s hs
  simpa using hgood

theorem checkRatio_triple {P : Extraction → Prop} {compressed uncompressed : Nat}
    (hP : ∀ s, P s → I s) :
    Triple P (checkRatio limits compressed uncompressed) P (fun s _ => I s) :=
  Triple.failIf (fun _ hs _ => hs) fun s hs _ => hP s hs

/-! ## The handlers -/

namespace KeptBySteps

/-! Counting a member after its checks. -/

theorem member_triple (h : KeptBySteps libs limits I) {declared size : Nat} :
    Triple
      (fun s => (I s ∧ s.totalFiles < limits.maxFiles) ∧
        s.totalBytes + declared ≤ limits.maxTotalSize)
      (perform (.member declared size)) I (fun s _ => I s) :=
  Triple.update fun s ⟨⟨hs, hfiles⟩, hbytes⟩ => h.member declared size s hs hfiles hbytes

theorem layer_triple (h : KeptBySteps libs limits I) {size : Nat} :
    Triple (fun s => I s ∧ s.totalBytes + size ≤ limits.maxTotalSize)
      (perform (.layer size)) I (fun s _ => I s) :=
  Triple.update fun s ⟨hs, hbytes⟩ => h.layer size s hs hbytes

theorem unpacked_triple (h : KeptBySteps libs limits I) {size : Nat} :
    Triple
      (fun s => (I s ∧ s.totalFiles < limits.maxFiles) ∧
        s.totalBytes + size ≤ limits.maxTotalSize)
      (perform (.unpacked size)) I (fun s _ => I s) :=
  Triple.update fun s ⟨⟨hs, hfiles⟩, hbytes⟩ => h.unpacked size s hs hfiles hbytes

section Handlers

variable {extract : Frame → Extract} {fr : Frame} (h : KeptBySteps libs limits I)
  (hrec : ∀ i data name path, Keeps I (extract (fr.member i data name path)))

include h hrec

theorem keeps_extractEntry (archive : NamedArchive) (info : ArchiveEntry) (i : Nat) :
    Keeps I (extractEntry libs limits extract fr archive info i) := by
  unfold extractEntry
  split
  · exact Keeps.skip
  · split
    · exact h.appendError _
    · refine Triple.seq checkFiles_triple (Triple.seq (checkRatio_triple fun _ hs => hs.1)
        (Triple.seq (checkSize_triple fun _ hs => hs.1) ?_))
      split
      · exact Triple.raise fun _ hs => hs.1.1
      · exact Triple.seq h.member_triple (hrec _ _ _ _)

theorem keeps_extractNamed (opened : Except PyStr NamedArchive) :
    Keeps I (extractNamed libs limits extract fr opened) := by
  cases opened with
  | error exc => exact Keeps.raise _
  | ok archive => exact Keeps.forEach fun _ _ => h.keeps_extractEntry hrec archive _ _

theorem keeps_extractTarMember (member : TarMember) (i : Nat) :
    Keeps I (extractTarMember libs limits extract fr member i) := by
  unfold extractTarMember
  split
  · exact h.appendError _
  · split
    · exact Keeps.skip
    · split
      · exact h.appendError _
      · refine Triple.seq checkFiles_triple (Triple.seq (checkSize_triple fun _ hs => hs.1) ?_)
        split
        · exact Triple.raise fun _ hs => hs.1.1
        · exact Triple.skip fun _ hs => hs.1.1
        · exact Triple.seq h.member_triple (hrec _ _ _ _)

theorem keeps_extractTar : Keeps I (extractTar libs limits extract fr) := by
  unfold extractTar
  split
  · exact Keeps.raise _
  · split
    · exact Keeps.raise _
    · exact Keeps.forEach fun _ _ => h.keeps_extractTarMember hrec _ _

theorem keeps_extractLayer (innerName : PyStr → PyStr) (opened : Except PyStr Bytes) :
    Keeps I (extractLayer limits innerName extract fr opened) := by
  cases opened with
  | error exc => exact Keeps.raise _
  | ok decompressed =>
      exact Triple.seq (checkRatio_triple fun _ hs => hs)
        (Triple.seq (checkSize_triple fun _ hs => hs) (Triple.seq h.layer_triple (hrec _ _ _ _)))

theorem keeps_extractUnpacked (relPath : PyStr) (data : Bytes) (i : Nat) :
    Keeps I (extractUnpacked libs limits extract fr relPath data i) := by
  refine Triple.seq checkFiles_triple ?_
  split
  · exact (h.appendError _).conseq (fun _ hs => hs.1) (fun _ hs => hs) fun _ _ hs => hs
  · exact Triple.seq (checkSize_triple fun _ hs => hs.1)
      (Triple.seq h.unpacked_triple (hrec _ _ _ _))

theorem keeps_extract7z : Keeps I (extract7z libs limits extract fr) := by
  unfold extract7z
  split
  · exact Keeps.raise _
  · split
    · exact Keeps.raise _
    · split
      · exact Keeps.raise _
      · exact Keeps.forEach fun _ _ => h.keeps_extractUnpacked hrec _ _ _

theorem keeps_extractArchive (archiveType : ArchiveType) :
    Keeps I (extractArchive libs limits extract fr archiveType) := by
  cases archiveType with
  | zip => exact h.keeps_extractNamed hrec _
  | tar => exact h.keeps_extractTar hrec
  | gzip => exact h.keeps_extractLayer hrec _ _
  | tarGz => exact h.keeps_extractLayer hrec _ _
  | sevenZip => exact h.keeps_extract7z hrec
  | rar => exact h.keeps_extractNamed hrec _
  | bzip2 => exact h.keeps_extractLayer hrec _ _
  | tarBz2 => exact h.appendError _

end Handlers

variable (h : KeptBySteps libs limits I)

include h

theorem keeps_contain {filename : PyStr} {body : Extract} (hbody : Keeps I body) :
    Keeps I (contain filename body) := by
  refine hbody.recover fun exc => ?_
  cases exc with
  | safety cls text => exact Keeps.raise _
  | other text => exact h.appendError _

/-- The recursion, by the levels that are left. -/
theorem keeps_extractRecursive (levels : Nat) (fr : Frame)
    (hlevels : fr.depth + levels = limits.maxDepth + 1) (htrail : fr.trail.length = fr.depth) :
    Keeps I (extractRecursive libs limits levels fr) := by
  induction levels generalizing fr with
  | zero => exact Keeps.raise _
  | succ levels ih =>
      have hdepth : fr.depth ≤ limits.maxDepth := by omega
      have hrec : ∀ i data name path,
          Keeps I (extractRecursive libs limits levels (fr.member i data name path)) := by
        intro i data name path
        refine ih _ ?_ ?_
        · show fr.depth + 1 + levels = limits.maxDepth + 1
          omega
        · show (fr.trail ++ [(i, File.mk name data)]).length = fr.depth + 1
          rw [List.length_append, htrail, List.length_singleton]
      rw [extractRecursive]
      refine Keeps.seq (h.enter _ hdepth) ?_
      split
      · next hfile => exact h.inspectFile fr hfile (htrail ▸ hdepth)
      · exact h.keeps_contain (h.keeps_extractArchive hrec _)

/-- The rule for whole runs. -/
theorem run (hstart : I {}) (content : Bytes) (filename : PyStr) :
    I (runExtraction libs limits content filename).1 :=
  (h.keeps_extractRecursive _ ⟨content, filename, 0, [], []⟩ (Nat.zero_add _) rfl).apply hstart

end KeptBySteps

end AkesoDlp.Server.Inspector
