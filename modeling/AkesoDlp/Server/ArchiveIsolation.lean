import AkesoDlp.Server.ArchiveTree

/-!
# Bad archive members and their siblings

A run over a tree within the limits hands on the files that a sweep of the tree
visits. So a bad member hides no regular file exactly when nothing is hidden in the
tree: no file follows, in one ZIP, RAR or TAR, a member that cannot be read; no file
is in or after a 7z archive with a dangerous name, or in one that does not unpack;
and every entry of a ZIP or RAR that holds a file is read as itself.
-/

namespace AkesoDlp.Server.Inspector

open Lib Lib.Act Lib.Sweep

def Raised.ending : Raised → Ending
  | .safety .. => .escaped
  | .other _ => .failed

/-- The files handed on so far, and bounds of the counters. -/
structure At (handed : List HandedFile) (files bytes : Nat) (s : Extraction) : Prop where
  handed : s.handed = handed
  files : s.totalFiles ≤ files
  bytes : s.totalBytes ≤ bytes

/-- Where the limits leave room for `files` and `bytes`, the command hands `handed` on
and ends with `ending`. -/
def Runs (limits : ArchiveLimits) (files bytes : Nat) (handed : List HandedFile) (ending : Ending)
    (a : Extract) : Prop :=
  ∀ h f b, f + files ≤ limits.maxFiles → b + bytes ≤ limits.maxTotalSize →
    Triple (At h f b) a
      (fun s => ending = .normal ∧ At (h ++ handed) (f + files) (b + bytes) s)
      (fun s exc => ending = exc.ending ∧ At (h ++ handed) (f + files) (b + bytes) s)

variable {libs : Libraries} {limits : ArchiveLimits}

theorem At.mono {h : List HandedFile} {f f' b b' : Nat} {s : Extraction} (hs : At h f b s)
    (hf : f ≤ f') (hb : b ≤ b') : At h f' b' s :=
  ⟨hs.handed, Nat.le_trans hs.files hf, Nat.le_trans hs.bytes hb⟩

theorem Raised.ending_ne_normal (exc : Raised) : exc.ending ≠ .normal := by
  cases exc <;> exact Ending.noConfusion

namespace Runs

variable {files bytes files' bytes' : Nat} {handed handed' : List HandedFile}
  {ending ending' : Ending} {a c : Extract}

theorem mono (ha : Runs limits files bytes handed ending a) (hf : files ≤ files')
    (hb : bytes ≤ bytes') : Runs limits files' bytes' handed ending a := by
  intro h f b hfiles hbytes
  refine (ha h f b (by omega) (by omega)).conseq (fun _ hs => hs) ?_ ?_
  · rintro s ⟨hend, hs⟩
    exact ⟨hend, hs.mono (by omega) (by omega)⟩
  · rintro s exc ⟨hend, hs⟩
    exact ⟨hend, hs.mono (by omega) (by omega)⟩

theorem skip : Runs limits files bytes [] .normal .skip := by
  intro h f b _ _
  refine Triple.skip fun s hs => ⟨rfl, ?_⟩
  rw [List.append_nil]
  exact hs.mono (by omega) (by omega)

theorem raise (exc : Raised) : Runs limits files bytes [] exc.ending (.raise exc) := by
  intro h f b _ _
  refine Triple.raise fun s hs => ⟨rfl, ?_⟩
  rw [List.append_nil]
  exact hs.mono (by omega) (by omega)

/-- An update that leaves the history and the counters alone. -/
theorem update {g : Extraction → Extraction} (hhistory : ∀ s, (g s).history = s.history)
    (hfiles : ∀ s, (g s).totalFiles = s.totalFiles)
    (hbytes : ∀ s, (g s).totalBytes = s.totalBytes) :
    Runs limits files bytes [] .normal (.update g) := by
  intro h f b _ _
  refine Triple.update fun s hs => ⟨rfl, ?_, ?_, ?_⟩
  · rw [Extraction.handed, hhistory, List.append_nil]
    exact hs.handed
  · rw [hfiles]
    exact Nat.le_trans hs.files (Nat.le_add_right f files)
  · rw [hbytes]
    exact Nat.le_trans hs.bytes (Nat.le_add_right b bytes)

theorem appendError (text : PyStr) : Runs limits files bytes [] .normal (appendError text) :=
  update (fun _ => rfl) (fun _ => rfl) fun _ => rfl

theorem seq (ha : Runs limits files bytes handed .normal a)
    (hc : Runs limits files' bytes' handed' ending c) :
    Runs limits (files + files') (bytes + bytes') (handed ++ handed') ending (a.seq c) := by
  intro h f b hfiles hbytes
  have hfirst := ha h f b (by omega) (by omega)
  have hrest := hc (h ++ handed) (f + files) (b + bytes) (by omega) (by omega)
  rw [List.append_assoc, Nat.add_assoc, Nat.add_assoc] at hrest
  refine Triple.seq (hfirst.conseq (fun _ hs => hs) (fun _ hs => hs.2) ?_) hrest
  rintro s exc ⟨hend, -⟩
  exact absurd hend.symm exc.ending_ne_normal

/-- What comes after a command that raises is not run. -/
theorem seq_of_raises (ha : Runs limits files bytes handed ending a) (hend : ending ≠ .normal) :
    Runs limits files bytes handed ending (a.seq c) := by
  intro h f b hfiles hbytes
  refine Triple.seq (Q := fun _ => False) ((ha h f b hfiles hbytes).conseq (fun _ hs => hs) ?_
    fun _ _ hs => hs) fun _ hfalse => hfalse.elim
  rintro s ⟨hnormal, -⟩
  exact hend hnormal

theorem checkFiles (ha : Runs limits files bytes handed ending a) (hroom : 1 ≤ files) :
    Runs limits files bytes handed ending ((checkFiles limits).seq a) := by
  intro h f b hfiles hbytes
  refine Triple.seq (Triple.failIf (fun _ hs _ => hs) ?_) (ha h f b hfiles hbytes)
  intro s hs hbad
  have hle := hs.files
  simp only [decide_eq_true_eq] at hbad
  omega

theorem checkSize {size : Nat} (ha : Runs limits files bytes handed ending a)
    (hroom : size ≤ bytes) :
    Runs limits files bytes handed ending ((checkSize limits size).seq a) := by
  intro h f b hfiles hbytes
  refine Triple.seq (Triple.failIf (fun _ hs _ => hs) ?_) (ha h f b hfiles hbytes)
  intro s hs hbad
  have hle := hs.bytes
  simp only [decide_eq_true_eq] at hbad
  omega

theorem checkRatio {compressed uncompressed : Nat}
    (ha : Runs limits files bytes handed ending a)
    (hratio : isBomb limits compressed uncompressed = false) :
    Runs limits files bytes handed ending ((checkRatio limits compressed uncompressed).seq a) := by
  intro h f b hfiles hbytes
  refine Triple.seq (Triple.failIf (fun _ hs _ => hs) ?_) (ha h f b hfiles hbytes)
  intro s _ hbad
  rw [isBomb] at hratio
  rw [hratio] at hbad
  cases hbad

theorem perform (step : Step) :
    Runs limits step.files step.size step.handed.toList .normal (perform step) := by
  intro h f b _ _
  refine Triple.update fun s hs => ⟨rfl, ?_, ?_, ?_⟩
  · rw [← hs.handed]
    exact handed_perform step s
  · exact Nat.add_le_add_right hs.files _
  · exact Nat.add_le_add_right hs.bytes _

theorem contain {filename : PyStr} (ha : Runs limits files bytes handed ending a) :
    Runs limits files bytes handed ending.contained (contain filename a) := by
  intro h f b hfiles hbytes
  refine Triple.recover ((ha h f b hfiles hbytes).conseq (fun _ hs => hs) ?_ fun _ _ hs => hs) ?_
  · rintro s ⟨rfl, hs⟩
    exact ⟨rfl, hs⟩
  · rintro (⟨cls, text⟩ | text)
    · refine Triple.raise ?_
      rintro s ⟨rfl, hs⟩
      exact ⟨rfl, hs⟩
    · refine Triple.update ?_
      rintro s ⟨rfl, hs⟩
      exact ⟨rfl, hs.handed, hs.files, hs.bytes⟩

end Runs

/-! ## The handlers -/

section Handlers

/-- The part of a tree below a frame. -/
def Frame.file (fr : Frame) : File := ⟨fr.filename, fr.content⟩

variable (libs limits) in
/-- What `extract` must do on frames with `levels` left: run as the sweep. -/
def Follows (levels : Nat) (extract : Frame → Extract) : Prop :=
  ∀ fr : Frame, fits (archiveTree libs limits) Toll.bomb levels fr.file = true →
    Runs limits (total (archiveTree libs limits) Toll.files levels fr.file)
      (total (archiveTree libs limits) Toll.bytes levels fr.file)
      (visits (archiveTree libs limits) levels fr.file fr.trail)
      (ending (archiveTree libs limits) levels fr.file) (extract fr)

variable (libs limits) in
/-- The command runs as the sweep of one member. -/
def FollowsChild (levels : Nat) (trail : List (Nat × File)) (c : Member) (i : Nat)
    (a : Extract) : Prop :=
  childFits Toll.bomb (fits (archiveTree libs limits) Toll.bomb levels) c = true →
    Runs limits (childTotal Toll.files (total (archiveTree libs limits) Toll.files levels) c)
      (childTotal Toll.bytes (total (archiveTree libs limits) Toll.bytes levels) c)
      (childVisits (visits (archiveTree libs limits) levels) trail c i)
      (childEnding (ending (archiveTree libs limits) levels) c) a

variable {levels : Nat} {extract : Frame → Extract} {fr : Frame}

/-- Counting a member and going on with its data. -/
theorem runs_performThen (hrec : Follows libs limits levels extract) (fr : Frame) (i : Nat)
    (step : Step) (hfiles : step.files = 1) (hhanded : step.handed = none) {bytes : Nat}
    (hbytes : step.size ≤ bytes) {own : Option File} {bomb : Bool} (data : Bytes)
    (name path : PyStr) :
    FollowsChild libs limits levels fr.trail ⟨own, .node ⟨name, data⟩, ⟨1, bytes, bomb⟩⟩ i
      ((perform step).seq (extract (fr.member i data name path))) := by
  intro hfits
  have hfits : fits (archiveTree libs limits) Toll.bomb levels ⟨name, data⟩ = true :=
    (Bool.and_eq_true_iff.mp hfits).2
  have hstep : Runs limits step.files step.size step.handed.toList .normal (perform step) :=
    Runs.perform step
  rw [hhanded, hfiles] at hstep
  exact (hstep.seq (hrec (fr.member i data name path) hfits)).mono (Nat.le_refl _)
    (Nat.add_le_add_right hbytes _)

theorem runs_passedOver {trail : List (Nat × File)} {i : Nat} {a : Extract}
    (h : Runs limits 0 0 [] .normal a) : FollowsChild libs limits levels trail passedOver i a :=
  fun _ => h

theorem not_bomb {c : Member}
    (h : childFits Toll.bomb (fits (archiveTree libs limits) Toll.bomb levels) c = true) :
    c.weight.bomb = false := by
  simpa using (Bool.and_eq_true_iff.mp h).1

theorem runs_extractEntry (hrec : Follows libs limits levels extract) (archive : NamedArchive)
    (info : ArchiveEntry) (i : Nat) :
    FollowsChild libs limits levels fr.trail (entryMember libs limits archive info) i
      (extractEntry libs limits extract fr archive info i) := by
  unfold extractEntry entryMember harmless
  cases info.isDir with
  | true => exact runs_passedOver Runs.skip
  | false =>
      cases validateMemberPath libs.repr info.filename with
      | some exc => exact runs_passedOver (Runs.appendError exc)
      | none =>
          cases archive.read info.filename with
          | error exc =>
              intro hfits
              exact Runs.checkFiles (Runs.checkRatio (Runs.checkSize (Runs.raise (.other exc))
                (Nat.le_refl _)) (not_bomb hfits)) (Nat.le_refl _)
          | ok data =>
              intro hfits
              have hread := runs_performThen hrec fr i (.member info.fileSize data.length) rfl
                rfl (Nat.le_max_right _ _) data (pathName info.filename)
                (fr.entryPath info.filename) hfits
              exact Runs.checkFiles (Runs.checkRatio (Runs.checkSize hread
                (Nat.le_trans (Nat.le_max_left _ _) (Nat.le_add_right _ _))) (not_bomb hfits))
                (Nat.le_add_right _ _)

theorem runs_extractTarMember (hrec : Follows libs limits levels extract) (member : TarMember)
    (i : Nat) :
    FollowsChild libs limits levels fr.trail (tarMember libs member) i
      (extractTarMember libs limits extract fr member i) := by
  unfold extractTarMember tarMember harmless
  cases member.isLink with
  | true => exact runs_passedOver (Runs.appendError _)
  | false =>
      cases member.isFile with
      | false => exact runs_passedOver Runs.skip
      | true =>
          cases validateMemberPath libs.repr member.name with
          | some exc => exact runs_passedOver (Runs.appendError exc)
          | none =>
              rcases member.data with exc | (- | data)
              · intro _
                exact Runs.checkFiles (Runs.checkSize (Runs.raise (.other exc)) (Nat.le_refl _))
                  (Nat.le_refl _)
              · intro _
                exact Runs.checkFiles (Runs.checkSize Runs.skip (Nat.le_refl _)) (Nat.le_refl _)
              · intro hfits
                have hread := runs_performThen hrec fr i (.member member.size data.length) rfl rfl
                  (Nat.le_max_right _ _) data (pathName member.name) (fr.entryPath member.name)
                  hfits
                exact Runs.checkFiles (Runs.checkSize hread
                  (Nat.le_trans (Nat.le_max_left _ _) (Nat.le_add_right _ _)))
                  (Nat.le_add_right _ _)

theorem runs_extractUnpacked (hrec : Follows libs limits levels extract) (relPath : PyStr)
    (data : Bytes) (i : Nat) :
    FollowsChild libs limits levels fr.trail (unpackedMember libs relPath data) i
      (extractUnpacked libs limits extract fr relPath data i) := by
  unfold extractUnpacked unpackedMember harmless
  cases validateMemberPath libs.repr relPath with
  | some exc =>
      intro _
      exact Runs.checkFiles (Runs.appendError exc) (Nat.le_refl _)
  | none =>
      intro hfits
      have hread := runs_performThen hrec fr i (.unpacked data.length) rfl rfl (Nat.le_refl _)
        data (pathName relPath) (fr.entryPath relPath) hfits
      exact Runs.checkFiles (Runs.checkSize hread (Nat.le_add_right _ _)) (Nat.le_add_right _ _)

/-- The loop over the members runs as the sweep of them. -/
theorem runs_forEach {β : Type} (member : β → Member) (body : β → Nat → Extract)
    (trail : List (Nat × File))
    (hbody : ∀ x i, FollowsChild libs limits levels trail (member x) i (body x i)) (xs : List β)
    (i : Nat)
    (hfits : ∀ x ∈ xs,
      childFits Toll.bomb (fits (archiveTree libs limits) Toll.bomb levels) (member x) = true) :
    Runs limits
      ((xs.map member).map
        (childTotal Toll.files (total (archiveTree libs limits) Toll.files levels))).sum
      ((xs.map member).map
        (childTotal Toll.bytes (total (archiveTree libs limits) Toll.bytes levels))).sum
      (collect (childVisits (visits (archiveTree libs limits) levels) trail)
        (stops (ending (archiveTree libs limits) levels)) i (xs.map member))
      (firstEnding (childEnding (ending (archiveTree libs limits) levels)) (xs.map member))
      (.forEach (fun entry => body entry.1 entry.2) (xs.zipIdx i)) := by
  induction xs generalizing i with
  | nil => exact Runs.skip
  | cons x xs ih =>
      rw [List.forall_mem_cons] at hfits
      have hfirst := hbody x i hfits.1
      have hrest := ih (i + 1) hfits.2
      rw [List.map_cons, List.map_cons, List.map_cons, List.sum_cons, List.sum_cons,
        List.zipIdx_cons, collect_stops_cons, firstEnding, Act.forEach]
      cases hend : childEnding (ending (archiveTree libs limits) levels) (member x) with
      | normal =>
          rw [hend] at hfirst
          exact hfirst.seq hrest
      | failed =>
          rw [hend] at hfirst
          simpa using (hfirst.seq_of_raises Ending.noConfusion).mono (Nat.le_add_right _ _)
            (Nat.le_add_right _ _)
      | escaped =>
          rw [hend] at hfirst
          simpa using (hfirst.seq_of_raises Ending.noConfusion).mono (Nat.le_add_right _ _)
            (Nat.le_add_right _ _)

variable (libs limits) in
/-- The command runs as the sweep of the members of an open archive. -/
def FollowsOpened (levels : Nat) (trail : List (Nat × File)) (o : Opened File Toll)
    (a : Extract) : Prop :=
  o.visits.all (childFits Toll.bomb (fits (archiveTree libs limits) Toll.bomb levels)) = true →
    Runs limits
      (o.visits.map
        (childTotal Toll.files (total (archiveTree libs limits) Toll.files levels))).sum
      (o.visits.map
        (childTotal Toll.bytes (total (archiveTree libs limits) Toll.bytes levels))).sum
      (collect (childVisits (visits (archiveTree libs limits) levels) trail)
        (stops (ending (archiveTree libs limits) levels)) 0 o.visits)
      (o.ending (ending (archiveTree libs limits) levels)) a

theorem follows_failed (trail : List (Nat × File)) (children : List Member) (exc : PyStr) :
    FollowsOpened libs limits levels trail ⟨children, .failed⟩ (.raise (.other exc)) :=
  fun _ => Runs.raise (.other exc)

theorem follows_extractNamed (hrec : Follows libs limits levels extract)
    (opened : Except PyStr NamedArchive) :
    FollowsOpened libs limits levels fr.trail (openNamed libs limits opened)
      (extractNamed libs limits extract fr opened) := by
  cases opened with
  | error exc => exact follows_failed fr.trail [] exc
  | ok archive =>
      intro hfits
      refine runs_forEach (entryMember libs limits archive)
        (extractEntry libs limits extract fr archive) fr.trail (runs_extractEntry hrec archive)
        archive.infolist 0 ?_
      simpa [openNamed, Opened.visits] using hfits

theorem follows_extractTar (hrec : Follows libs limits levels extract) :
    FollowsOpened libs limits levels fr.trail (openTar libs (libs.tarfile fr.content))
      (extractTar libs limits extract fr) := by
  unfold extractTar
  cases libs.tarfile fr.content with
  | error exc => exact follows_failed fr.trail [] exc
  | ok archive =>
      obtain ⟨members, broken⟩ := archive
      cases broken with
      | some exc => exact follows_failed fr.trail _ exc
      | none =>
          intro hfits
          refine runs_forEach (tarMember libs) (extractTarMember libs limits extract fr) fr.trail
            (runs_extractTarMember hrec) members 0 ?_
          simpa [openTar, Opened.visits] using hfits

theorem follows_extract7z (hrec : Follows libs limits levels extract) :
    FollowsOpened libs limits levels fr.trail (open7z libs (libs.py7zr fr.content))
      (extract7z libs limits extract fr) := by
  unfold extract7z
  cases libs.py7zr fr.content with
  | error exc => exact follows_failed fr.trail [] exc
  | ok archive =>
      obtain ⟨names, files, broken⟩ := archive
      cases hnames : names.findSome? (validateMemberPath libs.repr) with
      | some exc =>
          have hall : names.all (harmless libs) = false := by
            obtain ⟨name, hname, hexc⟩ := List.exists_of_findSome?_eq_some hnames
            refine List.all_eq_false.mpr ⟨name, hname, ?_⟩
            rw [harmless, hexc]
            exact Bool.noConfusion
          simp only [open7z, hall, hnames]
          exact fun _ => Runs.raise (.safety .pathTraversalError exc)
      | none =>
          have hall : names.all (harmless libs) = true := by
            refine List.all_eq_true.mpr fun name hname => ?_
            rw [harmless, List.findSome?_eq_none_iff.mp hnames name hname]
            rfl
          simp only [open7z, hall, hnames]
          cases broken with
          | some exc => exact follows_failed fr.trail _ exc
          | none =>
              intro hfits
              have hvisits : ∀ file ∈ files,
                  childFits Toll.bomb (fits (archiveTree libs limits) Toll.bomb levels)
                    (unpackedMember libs file.1 file.2) = true := by
                simpa [Opened.visits] using hfits
              exact runs_forEach (fun file : PyStr × Bytes => unpackedMember libs file.1 file.2)
                (fun file i => extractUnpacked libs limits extract fr file.1 file.2 i) fr.trail
                (fun file i => runs_extractUnpacked hrec file.1 file.2 i) files 0 hvisits

theorem follows_extractLayer (hrec : Follows libs limits levels extract)
    (innerName : PyStr → PyStr) (opened : Except PyStr Bytes) :
    FollowsOpened libs limits levels fr.trail (openLayer limits innerName fr.file opened)
      (extractLayer limits innerName extract fr opened) := by
  cases opened with
  | error exc => exact follows_failed fr.trail [] exc
  | ok decompressed =>
      intro hfits
      -- the loop over one member
      have hloop := runs_forEach (layerMember limits innerName fr.file)
        (fun data i => (checkRatio limits fr.content.length data.length).seq <|
          (checkSize limits data.length).seq <| (perform (.layer data.length)).seq <|
          extract (fr.member i data (innerName fr.filename)
            (fr.pathPrefix ++ fr.filename ++ py "/")))
        fr.trail (fun data i hchild => ?_) [decompressed] 0 (by
          simpa [openLayer, Opened.visits] using hfits)
      · rw [List.zipIdx_singleton, Act.forEach, Act.forEach, Act.seq_skip] at hloop
        exact hloop
      · have hread := runs_performThen hrec fr i (.layer data.length) rfl rfl (Nat.le_refl _) data
          (innerName fr.filename) (fr.pathPrefix ++ fr.filename ++ py "/") hchild
        exact Runs.checkRatio (Runs.checkSize hread (Nat.le_add_right _ _)) (not_bomb hchild)

theorem follows_extractArchive (hrec : Follows libs limits levels extract)
    (archiveType : ArchiveType) :
    FollowsOpened libs limits levels fr.trail (openArchive libs limits fr.file archiveType)
      (extractArchive libs limits extract fr archiveType) := by
  cases archiveType with
  | zip => exact follows_extractNamed hrec _
  | tar => exact follows_extractTar hrec
  | gzip => exact follows_extractLayer hrec gzipInnerName _
  | tarGz => exact follows_extractLayer hrec gzipInnerName _
  | sevenZip => exact follows_extract7z hrec
  | rar => exact follows_extractNamed hrec _
  | bzip2 => exact follows_extractLayer hrec bzip2InnerName _
  | tarBz2 => exact fun _ => Runs.appendError _

end Handlers

theorem runs_inspectFile (fr : Frame) :
    Runs limits 0 0 [⟨fr.file, fr.trail⟩] .normal (inspectFile libs fr) := by
  have hhand : ∀ rest, Runs limits 0 0 [] .normal rest →
      Runs limits 0 0 [⟨fr.file, fr.trail⟩] .normal
        ((perform (.hand ⟨fr.file, fr.trail⟩)).seq rest) :=
    fun _ hrest => (Runs.perform (.hand ⟨fr.file, fr.trail⟩)).seq hrest
  unfold inspectFile
  refine hhand _ ?_
  cases libs.fileInspector fr.content fr.filename with
  | error exc => exact Runs.appendError _
  | ok components => exact Runs.update (fun _ => rfl) (fun _ => rfl) fun _ => rfl

/-- The recursion runs as the sweep, by the levels that are left. -/
theorem follows_extractRecursive (levels : Nat) :
    Follows libs limits levels (extractRecursive libs limits levels) := by
  induction levels with
  | zero => exact fun _ hfits => Bool.noConfusion hfits
  | succ levels ih =>
      intro fr hfits
      have henter : Runs limits 0 0 [] .normal (perform (.enter fr.depth)) :=
        Runs.perform (.enter fr.depth)
      have htree : archiveTree libs limits fr.file =
          (isArchive fr.filename fr.content).map (openArchive libs limits fr.file) := rfl
      rw [extractRecursive]
      cases htype : isArchive fr.filename fr.content with
      | none =>
          rw [htype, Option.map_none] at htree
          rw [total, total, visits, ending, htree]
          exact henter.seq (runs_inspectFile fr)
      | some archiveType =>
          rw [htype, Option.map_some] at htree
          rw [fits, htree] at hfits
          rw [total, total, visits, ending, htree]
          simpa using henter.seq (follows_extractArchive ih archiveType hfits).contain

theorem at_start : At [] 0 0 {} := ⟨rfl, Nat.le_refl 0, Nat.le_refl 0⟩

/-- Within the limits the inspector hands on what the sweep visits. -/
theorem handed_inspect {content : Bytes} {filename : PyStr}
    (h : WithinLimits libs limits content filename) :
    (ArchiveInspector.inspect libs limits content filename).handed =
      visits (archiveTree libs limits) (limits.maxDepth + 1) ⟨filename, content⟩ [] := by
  have hruns := follows_extractRecursive (limits.maxDepth + 1) ⟨content, filename, 0, [], []⟩
    h.fits [] 0 0 (by rw [Nat.zero_add]; exact h.files) (by rw [Nat.zero_add]; exact h.bytes) {}
    at_start
  show (runExtraction libs limits content filename).1.handed = _
  unfold runExtraction
  revert hruns
  rcases extractRecursive libs limits (limits.maxDepth + 1) ⟨content, filename, 0, [], []⟩ {} with
    ⟨s, - | exc⟩
  · rintro ⟨-, hs⟩
    exact hs.handed
  · rintro ⟨-, hs⟩
    exact hs.handed

/-- **Bad members hide their siblings** only like this: within the limits every regular
file is handed on exactly when nothing is hidden in the archive. -/
theorem inspect_handsAll_iff {content : Bytes} {filename : PyStr}
    (h : WithinLimits libs limits content filename) :
    (∀ file ∈ regularFiles libs limits content filename,
        file ∈ (ArchiveInspector.inspect libs limits content filename).handed) ↔
      hidesNothing libs limits content filename = true := by
  rw [handed_inspect h]
  exact leaves_subset_visits_iff (archiveTree libs limits) _ _ _

/-- A ZIP with `../a` and `b`. -/
def dangerousZip : Bytes :=
  [80, 75, 3, 4, 20, 0, 0, 0, 0, 0, 0, 0, 33, 0, 67, 190, 183, 232, 1, 0, 0, 0, 1, 0, 0, 0, 4,
    0, 0, 0, 46, 46, 47, 97, 97, 80, 75, 3, 4, 20, 0, 0, 0, 0, 0, 0, 0, 33, 0, 249, 239, 190,
    113, 1, 0, 0, 0, 1, 0, 0, 0, 1, 0, 0, 0, 98, 98, 80, 75, 1, 2, 20, 0, 20, 0, 0, 0, 0, 0, 0,
    0, 33, 0, 67, 190, 183, 232, 1, 0, 0, 0, 1, 0, 0, 0, 4, 0, 0, 0, 0, 0, 0, 0, 0, 0, 0, 0,
    128, 1, 0, 0, 0, 0, 46, 46, 47, 97, 80, 75, 1, 2, 20, 0, 20, 0, 0, 0, 0, 0, 0, 0, 33, 0,
    249, 239, 190, 113, 1, 0, 0, 0, 1, 0, 0, 0, 1, 0, 0, 0, 0, 0, 0, 0, 0, 0, 0, 0, 128, 1, 35,
    0, 0, 0, 98, 80, 75, 5, 6, 0, 0, 0, 0, 2, 0, 2, 0, 97, 0, 0, 0, 67, 0, 0, 0, 0, 0]

/-- A ZIP with `a` and `b`; the data of `a` has been altered. -/
def corruptZip : Bytes :=
  [80, 75, 3, 4, 20, 0, 0, 0, 0, 0, 0, 0, 33, 0, 67, 190, 183, 232, 1, 0, 0, 0, 1, 0, 0, 0, 1,
    0, 0, 0, 97, 120, 80, 75, 3, 4, 20, 0, 0, 0, 0, 0, 0, 0, 33, 0, 249, 239, 190, 113, 1, 0, 0,
    0, 1, 0, 0, 0, 1, 0, 0, 0, 98, 98, 80, 75, 1, 2, 20, 0, 20, 0, 0, 0, 0, 0, 0, 0, 33, 0, 67,
    190, 183, 232, 1, 0, 0, 0, 1, 0, 0, 0, 1, 0, 0, 0, 0, 0, 0, 0, 0, 0, 0, 0, 128, 1, 0, 0, 0,
    0, 97, 80, 75, 1, 2, 20, 0, 20, 0, 0, 0, 0, 0, 0, 0, 33, 0, 249, 239, 190, 113, 1, 0, 0, 0,
    1, 0, 0, 0, 1, 0, 0, 0, 0, 0, 0, 0, 0, 0, 0, 0, 128, 1, 32, 0, 0, 0, 98, 80, 75, 5, 6, 0, 0,
    0, 0, 2, 0, 2, 0, 94, 0, 0, 0, 64, 0, 0, 0, 0, 0]

/-- Libraries that know these two files and no other archive. -/
def zipLibraries : Libraries where
  zipfile := fun content =>
    if content = dangerousZip then
      .ok (.ofEntries [⟨py "../a", false, 1, 1, .ok [97]⟩, ⟨py "b", false, 1, 1, .ok [98]⟩])
    else if content = corruptZip then
      .ok (.ofEntries [⟨py "a", false, 1, 1, .error (py "Bad CRC-32 for file 'a'")⟩,
        ⟨py "b", false, 1, 1, .ok [98]⟩])
    else .error (py "File is not a zip file")
  rarfile := fun _ => .error (py "Not a RAR file")
  tarfile := fun _ => .error (py "file could not be opened successfully")
  py7zr := fun _ => .error (py "not a 7z file")
  gzip := fun _ => .error (py "Not a gzipped file")
  bz2 := fun _ => .error (py "Invalid data stream")
  repr := fun s => py "'" ++ s ++ py "'"
  fileInspector := fun _ _ => .ok []

theorem dangerousZip_within : WithinLimits zipLibraries {} dangerousZip (py "t.zip") :=
  ⟨by decide +kernel, by decide +kernel, by decide +kernel⟩

theorem corruptZip_within : WithinLimits zipLibraries {} corruptZip (py "t.zip") :=
  ⟨by decide +kernel, by decide +kernel, by decide +kernel⟩

/-- A dangerous path costs the other member nothing. -/
theorem inspect_handsAll_dangerousZip :
    (regularFiles zipLibraries {} dangerousZip (py "t.zip")).map (·.node.filename) = [py "b"] ∧
      ∀ file ∈ regularFiles zipLibraries {} dangerousZip (py "t.zip"),
        file ∈ (ArchiveInspector.inspect zipLibraries {} dangerousZip (py "t.zip")).handed :=
  ⟨by decide +kernel, (inspect_handsAll_iff dangerousZip_within).mpr (by decide +kernel)⟩

/-- A member with a bad checksum hides the one after it. -/
theorem inspect_hides_sibling :
    ¬ ∀ (libs : Libraries) (limits : ArchiveLimits) (content : Bytes) (filename : PyStr),
      WithinLimits libs limits content filename →
      ∀ file ∈ regularFiles libs limits content filename,
        file ∈ (ArchiveInspector.inspect libs limits content filename).handed := by
  intro h
  exact absurd (h zipLibraries {} corruptZip (py "t.zip") corruptZip_within) (by decide +kernel)

end AkesoDlp.Server.Inspector
