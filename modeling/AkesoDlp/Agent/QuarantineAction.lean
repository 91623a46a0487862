import AkesoDlp.Agent.StdInt
import AkesoDlp.Agent.StdPath
import AkesoDlp.Lib.TSys
import Mathlib.Data.List.Nodup
import Mathlib.Logic.Function.Basic

/-!
# Quarantine

`Execute` moves a file to the quarantine folder and writes a metadata file next to it
and a marker where it was. The three names come from the clock, in seconds, and from
the name of the file.
-/

namespace AkesoDlp.Agent

open Lib

/-! ## The names -/

/-- The fields of a `struct tm` that are printed, as they are printed. -/
structure Tm where
  year : Nat
  month : Nat
  day : Nat
  hour : Nat
  minute : Nat
  second : Nat
deriving DecidableEq, Repr

def twoDigits (n : Nat) : StdString := if n < 10 then 48 :: decimal n else decimal n

/-- `%Y%m%d_%H%M%S`. -/
def Tm.stamp (t : Tm) : StdString :=
  decimal t.year ++ twoDigits t.month ++ twoDigits t.day ++ 95 ::
    (twoDigits t.hour ++ twoDigits t.minute ++ twoDigits t.second)

/-- `%Y-%m-%d %H:%M:%S`. -/
def Tm.text (t : Tm) : StdString :=
  decimal t.year ++ 45 :: twoDigits t.month ++ 45 :: twoDigits t.day ++ 32 ::
    twoDigits t.hour ++ 58 :: twoDigits t.minute ++ 58 :: twoDigits t.second

def buildQuarantineFilename (now : Tm) (originalFilename : StdString) : StdString :=
  now.stamp ++ 95 :: originalFilename

example : buildQuarantineFilename ⟨2026, 3, 24, 14, 30, 12⟩ (str "report.docx") =
    str "20260324_143012_report.docx" := by decide

/-! ## One call -/

structure QuarantineConfig where
  enabled : Bool := true
  path : StdString := str "C:\\AkesoDLP\\Quarantine"
deriving DecidableEq, Repr

structure QuarantineRequest where
  filePath : StdString
  policyName : StdString := []
  severity : StdString := []
  matchSummary : StdString := []
  fileOwner : StdString := []
deriving DecidableEq, Repr

/-- How `copy_file` ends; where it fails, with what it has left at the destination. -/
inductive CopyOutcome
  | copied
  | failed (left : Option StdString) (message : StdString)
deriving DecidableEq, Repr

/-- What the clock and the file system do in one call. -/
structure QuarantineEnv where
  /-- When the name is made and when the metadata is written, in local time. -/
  now : Tm
  metaNow : Tm
  /-- The quarantine folder is there, or `create_directories` makes it. -/
  folder : Bool := true
  rename : Bool := true
  copy : CopyOutcome := .copied
  remove : Bool := true
  metaOpens : Bool := true
  markerOpens : Bool := true
deriving DecidableEq, Repr

structure QuarantineResult where
  success : Bool := false
  quarantinePath : StdString := []
  markerPath : StdString := []
  error : StdString := []
deriving DecidableEq, Repr

section names

variable (config : QuarantineConfig) (request : QuarantineRequest) (env : QuarantineEnv)

/-- `q_dest`. -/
def quarantineDest : StdString :=
  pathAppend config.path (buildQuarantineFilename env.now (filename request.filePath))

def metaPath : StdString := quarantineDest config request env ++ str ".meta.txt"

def markerPath : StdString := request.filePath ++ str ".quarantined.txt"

def metaText : StdString :=
  str "Quarantined File Metadata\n" ++ str "========================\n" ++
  str "Original Path:  " ++ request.filePath ++ str "\n" ++
  str "Quarantined To: " ++ quarantineDest config request env ++ str "\n" ++
  str "Policy:         " ++ request.policyName ++ str "\n" ++
  str "Severity:       " ++ request.severity ++ str "\n" ++
  str "Matches:        " ++ request.matchSummary ++ str "\n" ++
  str "File Owner:     " ++ request.fileOwner ++ str "\n" ++
  str "Quarantined At: " ++ env.metaNow.text ++ str "\n"

def markerText : StdString :=
  str "This file has been quarantined by AkesoDLP.\n\n" ++
  str "Policy:    " ++ request.policyName ++ str "\n" ++
  str "Severity:  " ++ request.severity ++ str "\n" ++
  str "Reason:    " ++ request.matchSummary ++ str "\n\n" ++
  str "The original file has been moved to the quarantine folder.\n" ++
  str "Contact your IT security team for assistance.\n"

end names

/-- The file system: which contents the entries of its folders have. -/
abbrev FileContents (Entry : Type) := Entry → Option StdString

/-- The agent's object and the files around it. -/
structure QuarantineAction (Entry : Type) where
  files : FileContents Entry
  filesQuarantined : Nat := 0

section execute

variable {Entry : Type} [DecidableEq Entry]

/-- `ofstream`: a file that is there is emptied first. -/
def writeFile (opens : Bool) (files : FileContents Entry) (e : Entry) (text : StdString) :
    FileContents Entry :=
  if opens then Function.update files e (some text) else files

/-- `fs::rename`, or a copy after which the original is removed; `none` for an error. Both
replace a file that is at the destination. -/
def moveFile (env : QuarantineEnv) (files : FileContents Entry) (original dest : Entry) :
    FileContents Entry × Option StdString :=
  if env.rename then
    (Function.update (Function.update files original none) dest (files original), none)
  else
    match env.copy with
    | .copied =>
        let files' := Function.update files dest (files original)
        (if env.remove then Function.update files' original none else files', none)
    | .failed left message =>
        (match left with
          | some content => Function.update files dest (some content)
          | none => files,
        some message)

/-- `Execute`; `entry` is the entry that a path leads to. -/
def execute (entry : StdString → Entry) (config : QuarantineConfig) (q : QuarantineAction Entry)
    (request : QuarantineRequest) (env : QuarantineEnv) :
    QuarantineResult × QuarantineAction Entry :=
  if !config.enabled then ({ error := str "quarantine disabled" }, q)
  else if !env.folder then ({ error := str "failed to create quarantine directory" }, q)
  else if (q.files (entry request.filePath)).isNone then
    ({ error := str "source file not found: " ++ request.filePath }, q)
  else
    let dest := quarantineDest config request env
    match moveFile env q.files (entry request.filePath) (entry dest) with
    | (files, some message) =>
        ({ error := str "failed to move file to quarantine: " ++ message },
          { q with files := files })
    | (files, none) =>
        let files := writeFile env.metaOpens files (entry (metaPath config request env))
          (metaText config request env)
        let files := writeFile env.markerOpens files (entry (markerPath request))
          (markerText request)
        ({ success := true, quarantinePath := dest, markerPath := markerPath request },
          { files := files, filesQuarantined := q.filesQuarantined + 1 })

end execute

/-! ## Runs -/

structure Execution (Entry : Type) where
  request : QuarantineRequest
  before : FileContents Entry
  result : QuarantineResult
  after : FileContents Entry

/-- The history holds the calls so far, the last one first. -/
structure QuarantineRun (Entry : Type) where
  action : QuarantineAction Entry
  history : List (Execution Entry) := []

/-- `other` is what other programs do to a file that is not in quarantine. -/
inductive QuarantineAct (Entry : Type)
  | execute (request : QuarantineRequest) (env : QuarantineEnv)
  | other (e : Entry) (content : Option StdString)

section runs

variable {Entry : Type} [DecidableEq Entry]

/-- Where the quarantined files are. -/
def QuarantineRun.quarantined (entry : StdString → Entry) (run : QuarantineRun Entry) :
    List Entry :=
  (run.history.filter (·.result.success)).map fun x => entry x.result.quarantinePath

def quarantineStep (entry : StdString → Entry) (config : QuarantineConfig)
    (run : QuarantineRun Entry) : QuarantineAct Entry → Option (QuarantineRun Entry)
  | .execute request env =>
      let (result, action) := execute entry config run.action request env
      some {
        action := action
        history := ⟨request, run.action.files, result, action.files⟩ :: run.history }
  | .other e content =>
      if e ∈ run.quarantined entry then none
      else
        some { run with action :=
          { run.action with files := Function.update run.action.files e content } }

/-- The files are whatever they are when the agent starts. -/
def quarantineSys (entry : StdString → Entry) (config : QuarantineConfig) :
    TSys (QuarantineRun Entry) (QuarantineAct Entry) where
  init run := run.history = []
  step := quarantineStep entry config

/-- Each quarantined file has its content at the path that was returned for it, no path
is returned twice, and no call changes a file other than the one it is given. -/
structure LosesNothing (entry : StdString → Entry) (run : QuarantineRun Entry) : Prop where
  retrievable : ∀ x ∈ run.history, x.result.success = true →
    ∃ content, x.before (entry x.request.filePath) = some content ∧
      run.action.files (entry x.result.quarantinePath) = some content
  distinct : run.history.Pairwise fun x y =>
    x.result.success = true → y.result.success = true →
      x.result.quarantinePath ≠ y.result.quarantinePath
  untouched : ∀ x ∈ run.history, ∀ e, e ≠ entry x.request.filePath →
    ∀ content, x.before e = some content → x.after e = some content

/-! ## When nothing is lost -/

/-- The file gets to the quarantine folder. -/
def QuarantineEnv.moves (env : QuarantineEnv) : Bool := env.rename || env.copy == .copied

/-- It is no longer where it was. -/
def QuarantineEnv.vacates (env : QuarantineEnv) : Bool :=
  env.rename || (env.copy == .copied && env.remove)

/-- A copy that fails has begun to write. -/
def CopyOutcome.leavesPart : CopyOutcome → Bool
  | .failed (some _) _ => true
  | .failed none _ | .copied => false

/-- The paths that a call writes to once it has found the file. -/
def writtenPaths (config : QuarantineConfig) (request : QuarantineRequest) (env : QuarantineEnv) :
    List StdString :=
  if env.moves then
    quarantineDest config request env ::
      ((if env.metaOpens then [metaPath config request env] else []) ++
        if env.markerOpens then [markerPath request] else [])
  else if env.copy.leavesPart then [quarantineDest config request env]
  else []

/-- Where the call finds the file: nothing is at the paths it writes to, these lead to
different entries, and a file that is moved away is not one in quarantine. -/
def NamesAreFree (entry : StdString → Entry) (config : QuarantineConfig)
    (run : QuarantineRun Entry) : QuarantineAct Entry → Prop
  | .execute request env =>
      config.enabled = true → env.folder = true →
      (run.action.files (entry request.filePath)).isSome = true →
        (∀ path ∈ writtenPaths config request env, run.action.files (entry path) = none) ∧
        ((writtenPaths config request env).map entry).Nodup ∧
        (env.vacates = true → entry request.filePath ∉ run.quarantined entry)
  | .other _ _ => True

/-! ## What a call changes -/

instance (entry : StdString → Entry) (config : QuarantineConfig) (run : QuarantineRun Entry) :
    ∀ act, Decidable (NamesAreFree entry config run act)
  | .execute _ _ => inferInstanceAs (Decidable (_ = true → _ = true → _ = true → _ ∧ _ ∧ _))
  | .other _ _ => .isTrue trivial

variable {entry : StdString → Entry} {config : QuarantineConfig} {q : QuarantineAction Entry}
  {request : QuarantineRequest} {env : QuarantineEnv} {files : FileContents Entry}

theorem writeFile_of_ne {opens : Bool} {e e' : Entry} {text : StdString}
    (h : opens = true → e' ≠ e) : writeFile opens files e text e' = files e' := by
  unfold writeFile
  split
  · next hopens => exact Function.update_of_ne (h hopens) _ _
  · rfl

theorem moveFile_snd (original dest : Entry) :
    (moveFile env files original dest).2 = none ↔ env.moves = true := by
  unfold moveFile QuarantineEnv.moves
  cases env.rename with
  | true => simp
  | false => cases env.copy <;> simp

theorem moveFile_of_ne {original dest e : Entry}
    (hdest : env.moves = true ∨ env.copy.leavesPart = true → e ≠ dest)
    (horiginal : env.vacates = true → e ≠ original) :
    (moveFile env files original dest).1 e = files e := by
  unfold moveFile
  unfold QuarantineEnv.moves at hdest
  unfold QuarantineEnv.vacates at horiginal
  cases hrename : env.rename with
  | true =>
      rw [hrename] at hdest horiginal
      simp [Function.update_of_ne (hdest (.inl rfl)), Function.update_of_ne (horiginal rfl)]
  | false =>
      rw [hrename] at hdest horiginal
      cases hcopy : env.copy with
      | copied =>
          rw [hcopy] at hdest horiginal
          have hne := hdest (.inl rfl)
          cases hremove : env.remove with
          | true =>
              rw [hremove] at horiginal
              simp [Function.update_of_ne (horiginal rfl), Function.update_of_ne hne]
          | false => simp [Function.update_of_ne hne]
      | failed left message =>
          rw [hcopy] at hdest
          cases left with
          | some content => simp [Function.update_of_ne (hdest (.inr rfl))]
          | none => rfl

theorem moveFile_dest {original dest : Entry} (hmoves : env.moves = true) (hne : dest ≠ original) :
    (moveFile env files original dest).1 dest = files original := by
  unfold moveFile
  unfold QuarantineEnv.moves at hmoves
  cases hrename : env.rename with
  | true => simp
  | false =>
      rw [hrename, Bool.false_or, beq_iff_eq] at hmoves
      rw [hmoves]
      cases env.remove with
      | true => simp [Function.update_of_ne hne]
      | false => simp

/-- Two ways through `Execute`: it stops at one of its checks, or it moves the file. -/
theorem execute_cases (entry : StdString → Entry) (config : QuarantineConfig)
    (q : QuarantineAction Entry) (request : QuarantineRequest) (env : QuarantineEnv) :
    ((execute entry config q request env).1.success = false ∧
      (execute entry config q request env).2 = q) ∨
    (config.enabled = true ∧ env.folder = true ∧
      (q.files (entry request.filePath)).isSome = true ∧
      let moved := moveFile env q.files (entry request.filePath)
        (entry (quarantineDest config request env))
      (env.moves = false ∧ (execute entry config q request env).1.success = false ∧
        (execute entry config q request env).2.files = moved.1) ∨
      (env.moves = true ∧
        (execute entry config q request env).1 =
          { success := true, quarantinePath := quarantineDest config request env
            markerPath := markerPath request } ∧
        (execute entry config q request env).2.files =
          writeFile env.markerOpens
            (writeFile env.metaOpens moved.1 (entry (metaPath config request env))
              (metaText config request env))
            (entry (markerPath request)) (markerText request))) := by
  unfold execute
  split
  · exact .inl ⟨rfl, rfl⟩
  · next henabled =>
      split
      · exact .inl ⟨rfl, rfl⟩
      · next hfolder =>
          split
          · exact .inl ⟨rfl, rfl⟩
          · next hsource =>
              refine .inr ⟨by simpa using henabled, by simpa using hfolder, ?_, ?_⟩
              · simpa [Option.isSome_iff_ne_none] using hsource
              · have hsnd := @moveFile_snd _ _ env q.files (entry request.filePath)
                  (entry (quarantineDest config request env))
                dsimp only
                cases hmoved : moveFile env q.files (entry request.filePath)
                    (entry (quarantineDest config request env)) with
                | mk files error =>
                    rw [hmoved] at hsnd
                    cases error with
                    | none => exact .inr ⟨hsnd.mp rfl, rfl, rfl⟩
                    | some message =>
                        refine .inl ⟨?_, rfl, rfl⟩
                        exact Bool.eq_false_iff.mpr fun hmoves => by cases hsnd.mpr hmoves

theorem quarantineDest_mem (h : env.moves = true ∨ env.copy.leavesPart = true) :
    quarantineDest config request env ∈ writtenPaths config request env := by
  unfold writtenPaths
  rcases h with h | h
  · rw [if_pos h]
    exact List.mem_cons_self
  · split
    · exact List.mem_cons_self
    · exact List.mem_singleton_self _

theorem metaPath_mem (hmoves : env.moves = true) (hopens : env.metaOpens = true) :
    metaPath config request env ∈ writtenPaths config request env := by
  simp [writtenPaths, hmoves, hopens]

theorem markerPath_mem (hmoves : env.moves = true) (hopens : env.markerOpens = true) :
    markerPath request ∈ writtenPaths config request env := by
  simp [writtenPaths, hmoves, hopens]

/-- A call changes the entries it writes to and the one it moves away. -/
theorem execute_of_ne {e : Entry}
    (hpaths : ∀ path ∈ writtenPaths config request env, e ≠ entry path)
    (horiginal : env.vacates = true → e ≠ entry request.filePath) :
    (execute entry config q request env).2.files e = q.files e := by
  have hmove : (moveFile env q.files (entry request.filePath)
      (entry (quarantineDest config request env))).1 e = q.files e :=
    moveFile_of_ne (fun h => hpaths _ (quarantineDest_mem h)) horiginal
  rcases execute_cases entry config q request env with
    ⟨-, hsame⟩ | ⟨-, -, -, ⟨-, -, hfiles⟩ | ⟨hmoves, -, hfiles⟩⟩
  · rw [hsame]
  · rw [hfiles, hmove]
  · rw [hfiles, writeFile_of_ne fun hopens => hpaths _ (markerPath_mem hmoves hopens),
      writeFile_of_ne fun hopens => hpaths _ (metaPath_mem hmoves hopens), hmove]

omit [DecidableEq Entry] in
/-- The texts do not hit the file that was moved. -/
theorem nodup_writtenPaths (hmoves : env.moves = true)
    (h : ((writtenPaths config request env).map entry).Nodup) :
    (env.metaOpens = true →
      entry (quarantineDest config request env) ≠ entry (metaPath config request env)) ∧
    (env.markerOpens = true →
      entry (quarantineDest config request env) ≠ entry (markerPath request)) := by
  rw [writtenPaths, if_pos hmoves, List.map_cons, List.nodup_cons] at h
  refine ⟨fun hopens heq => h.1 ?_, fun hopens heq => h.1 ?_⟩
  · rw [heq]
    exact List.mem_map_of_mem (by simp [hopens])
  · rw [heq]
    exact List.mem_map_of_mem (by simp [hopens])

/-- After a success the file is at the path that is returned, where nothing was before. -/
theorem execute_success {run : QuarantineRun Entry}
    (hfree : NamesAreFree entry config run (.execute request env))
    (h : (execute entry config run.action request env).1.success = true) :
    let result := (execute entry config run.action request env).1
    run.action.files (entry result.quarantinePath) = none ∧
      ∃ content, run.action.files (entry request.filePath) = some content ∧
        (execute entry config run.action request env).2.files (entry result.quarantinePath) =
          some content := by
  rcases execute_cases entry config run.action request env with
    ⟨hfails, -⟩ | ⟨henabled, hfolder, hsource, ⟨-, hfails, -⟩ | ⟨hmoves, hresult, hfiles⟩⟩
  · rw [hfails] at h
    cases h
  · rw [hfails] at h
    cases h
  · obtain ⟨hnone, hnodup, -⟩ := hfree henabled hfolder hsource
    obtain ⟨hmeta, hmarker⟩ := nodup_writtenPaths hmoves hnodup
    obtain ⟨content, hcontent⟩ := Option.isSome_iff_exists.mp hsource
    have hdest := hnone _ (quarantineDest_mem (.inl hmoves))
    have hne : entry (quarantineDest config request env) ≠ entry request.filePath := by
      intro heq
      rw [heq, hcontent] at hdest
      cases hdest
    rw [hresult]
    refine ⟨hdest, content, hcontent, ?_⟩
    rw [hfiles, writeFile_of_ne hmarker, writeFile_of_ne hmeta, moveFile_dest hmoves hne]
    exact hcontent

/-- Whatever was there stays as it was, but for the file that the call is given. -/
theorem execute_keeps {run : QuarantineRun Entry}
    (hfree : NamesAreFree entry config run (.execute request env)) {e : Entry} {content : StdString}
    (he : run.action.files e = some content)
    (hother : e ≠ entry request.filePath ∨ e ∈ run.quarantined entry) :
    (execute entry config run.action request env).2.files e = some content := by
  rcases execute_cases entry config run.action request env with
    ⟨-, hsame⟩ | ⟨henabled, hfolder, hsource, -⟩
  · rw [hsame]
    exact he
  · obtain ⟨hnone, -, hquarantined⟩ := hfree henabled hfolder hsource
    rw [execute_of_ne, he]
    · rintro path hpath rfl
      rw [hnone path hpath] at he
      cases he
    · rintro hvacates rfl
      rcases hother with hne | hmem
      · exact hne rfl
      · exact hquarantined hvacates hmem

omit [DecidableEq Entry] in
theorem mem_quarantined {run : QuarantineRun Entry} {x : Execution Entry} (hx : x ∈ run.history)
    (hsuccess : x.result.success = true) :
    entry x.result.quarantinePath ∈ run.quarantined entry :=
  List.mem_map_of_mem (List.mem_filter.mpr ⟨hx, hsuccess⟩)

theorem losesNothing_step {run run' : QuarantineRun Entry} {act : QuarantineAct Entry}
    (h : LosesNothing entry run) (hfree : NamesAreFree entry config run act)
    (hstep : quarantineStep entry config run act = some run') : LosesNothing entry run' := by
  cases act with
  | execute request env =>
      cases hstep
      constructor
      case retrievable =>
        refine List.forall_mem_cons.mpr ⟨fun hsuccess => (execute_success hfree hsuccess).2, ?_⟩
        intro x hx hsuccess
        obtain ⟨content, hbefore, hafter⟩ := h.retrievable x hx hsuccess
        exact ⟨content, hbefore, execute_keeps hfree hafter (.inr (mem_quarantined hx hsuccess))⟩
      case distinct =>
        refine List.pairwise_cons.mpr ⟨?_, h.distinct⟩
        intro y hy hsuccess hsuccess' heq
        -- the new path was free, the old one was not
        obtain ⟨hnone, -⟩ := execute_success hfree hsuccess
        obtain ⟨content, -, hthere⟩ := h.retrievable y hy hsuccess'
        rw [← heq] at hthere
        exact absurd (hnone.symm.trans hthere) (by simp)
      case untouched =>
        refine List.forall_mem_cons.mpr ⟨?_, h.untouched⟩
        intro e hne content he
        exact execute_keeps hfree he (.inl hne)
  | other e content =>
      rw [quarantineStep] at hstep
      split at hstep
      · cases hstep
      · next hother =>
          cases hstep
          refine ⟨?_, h.distinct, h.untouched⟩
          intro x hx hsuccess
          obtain ⟨content', hbefore, hafter⟩ := h.retrievable x hx hsuccess
          refine ⟨content', hbefore, ?_⟩
          have hne : entry x.result.quarantinePath ≠ e := by
            rintro rfl
            exact hother (mem_quarantined hx hsuccess)
          rw [← hafter]
          exact Function.update_of_ne hne _ _

/-! ## Names and entries -/

theorem isDigit_or_bar {c : UInt8} (h : isDigit c = true ∨ c = 95) :
    isSlash c = false ∧ isLetter c = false ∧ c ≠ 113 := by
  simp only [isDigit, isSlash, isLetter, toLower, Bool.and_eq_true, decide_eq_true_eq] at *
  grind

theorem isDigit_of_mem_twoDigits {n : Nat} {c : UInt8} (h : c ∈ twoDigits n) :
    isDigit c = true := by
  unfold twoDigits at h
  split at h
  · rcases List.mem_cons.mp h with rfl | h
    · rfl
    · exact isDigit_of_mem_decimal c h
  · exact isDigit_of_mem_decimal c h

theorem mem_stamp {t : Tm} {c : UInt8} (h : c ∈ t.stamp) : isDigit c = true ∨ c = 95 := by
  simp only [Tm.stamp, List.mem_append, List.mem_cons] at h
  rcases h with ((h | h) | h) | rfl | (h | h) | h
  · exact .inl (isDigit_of_mem_decimal c h)
  · exact .inl (isDigit_of_mem_twoDigits h)
  · exact .inl (isDigit_of_mem_twoDigits h)
  · exact .inr rfl
  · exact .inl (isDigit_of_mem_twoDigits h)
  · exact .inl (isDigit_of_mem_twoDigits h)
  · exact .inl (isDigit_of_mem_twoDigits h)

theorem isSlash_of_mem_quarantineFilename {t : Tm} {path : StdString} :
    ∀ c ∈ buildQuarantineFilename t (filename path), isSlash c = false := by
  intro c hc
  simp only [buildQuarantineFilename, List.mem_append, List.mem_cons] at hc
  rcases hc with hc | rfl | hc
  · exact (isDigit_or_bar (mem_stamp hc)).1
  · decide
  · exact isSlash_of_mem_filename hc

theorem driveLength_quarantineFilename (t : Tm) (name : StdString) :
    driveLength (buildQuarantineFilename t name) = 0 := by
  rw [buildQuarantineFilename]
  cases hstamp : t.stamp with
  | nil => exact driveLength_of_not_isLetter (by decide) name
  | cons c stamp =>
      have hc : c ∈ t.stamp := by simp [hstamp]
      exact driveLength_of_not_isLetter (isDigit_or_bar (mem_stamp hc)).2.1 _

theorem filename_quarantineDest :
    filename (quarantineDest config request env) =
      buildQuarantineFilename env.now (filename request.filePath) :=
  filename_pathAppend isSlash_of_mem_quarantineFilename (driveLength_quarantineFilename _ _)

theorem filename_markerPath :
    filename (markerPath request) = filename request.filePath ++ str ".quarantined.txt" :=
  filename_append (by decide +kernel) (by decide +kernel) _

/-- The stamp has no `q`, and what a marker adds to the name has one. -/
theorem quarantineDest_ne_markerPath : quarantineDest config request env ≠ markerPath request := by
  intro heq
  have hname := congrArg filename heq
  rw [filename_quarantineDest, filename_markerPath, buildQuarantineFilename] at hname
  have hcount := congrArg (List.count 113) hname
  have hstamp : List.count 113 env.now.stamp = 0 :=
    List.count_eq_zero_of_not_mem fun hmem => (isDigit_or_bar (mem_stamp hmem)).2.2 rfl
  have hsuffix : List.count 113 (str ".quarantined.txt") = 1 := by decide
  have hbar : (95 : UInt8) ≠ 113 := by decide
  rw [List.count_append, List.count_append, List.count_cons_of_ne hbar, hstamp, hsuffix] at hcount
  omega

theorem quarantineDest_ne_metaPath :
    quarantineDest config request env ≠ metaPath config request env := by
  intro heq
  have hlength := congrArg List.length heq
  have hsuffix : (str ".meta.txt").length = 9 := by decide
  rw [metaPath, List.length_append, hsuffix] at hlength
  omega

/-- The last nine bytes differ. -/
theorem metaPath_ne_markerPath : metaPath config request env ≠ markerPath request := by
  intro heq
  have hsplit : str ".quarantined.txt" = str ".quaran" ++ str "tined.txt" := by decide
  rw [metaPath, markerPath, hsplit, ← List.append_assoc] at heq
  have hsuffix := List.append_inj_right' heq (by decide)
  exact absurd hsuffix (by decide)

omit [DecidableEq Entry] in
/-- Where different paths lead to different entries, the three names of a call never
collide with each other, whatever the file is called. -/
theorem nodup_map_writtenPaths (hentry : Function.Injective entry) :
    ((writtenPaths config request env).map entry).Nodup := by
  refine List.Nodup.map hentry ?_
  unfold writtenPaths
  split
  · cases env.metaOpens <;> cases env.markerOpens <;>
      simp [quarantineDest_ne_metaPath, quarantineDest_ne_markerPath, metaPath_ne_markerPath]
  · split <;> simp

omit [DecidableEq Entry] in
/-- There only what was in the way before matters. -/
theorem namesAreFree_iff {run : QuarantineRun Entry} (hentry : Function.Injective entry) :
    NamesAreFree entry config run (.execute request env) ↔
      (config.enabled = true → env.folder = true →
        (run.action.files (entry request.filePath)).isSome = true →
          (∀ path ∈ writtenPaths config request env, run.action.files (entry path) = none) ∧
          (env.vacates = true → entry request.filePath ∉ run.quarantined entry)) := by
  simp only [NamesAreFree, nodup_map_writtenPaths hentry, true_and]

end runs

/-! ## Whole runs -/

/-- Where the names are free, quarantine loses nothing. -/
theorem losesNothing_of_namesAreFree {Entry : Type} [DecidableEq Entry] (entry : StdString → Entry)
    (config : QuarantineConfig) :
    (quarantineSys entry config).InvariantBy (NamesAreFree entry config) (LosesNothing entry) := by
  refine TSys.InductiveBy.invariant ⟨?_, fun _ _ _ h hfree hstep => losesNothing_step h hfree hstep⟩
  intro run hrun
  have hempty : run.history = [] := hrun
  refine ⟨?_, ?_, ?_⟩ <;> simp [hempty]

/-! ## Two reports -/

section examples

def noon (second : Nat) : QuarantineEnv where
  now := ⟨2026, 3, 24, 12, 0, second⟩
  metaNow := ⟨2026, 3, 24, 12, 0, second⟩

def reportOf (folder : StdString) : QuarantineRequest where
  filePath := folder ++ str "\\report.docx"

/-- Two folders with a file of one name. -/
def twoReports : QuarantineRun StdString where
  action.files path :=
    if path = str "C:\\a\\report.docx" then some (str "first")
    else if path = str "C:\\b\\report.docx" then some (str "second")
    else none

/-- Both are put into quarantine, the second one so many seconds later. -/
def bothReports (later : Nat) : List (QuarantineAct StdString) :=
  [.execute (reportOf (str "C:\\a")) (noon 0), .execute (reportOf (str "C:\\b")) (noon later)]

/-- For each call its file and what is now at the path that it returned. -/
def keptContents (run : QuarantineRun StdString) :
    List (Bool × Option StdString × Option StdString) :=
  run.history.map fun x =>
    (x.result.success, x.before x.request.filePath, run.action.files x.result.quarantinePath)

/-- In different seconds both are kept. -/
theorem losesNothing_twoReports :
    ∃ run, (quarantineSys id {}).run twoReports (bothReports 1) = some run ∧
      keptContents run = [(true, some (str "second"), some (str "second")),
        (true, some (str "first"), some (str "first"))] ∧ LosesNothing id run := by
  have hrun : ((quarantineSys id {}).run twoReports (bothReports 1)).map keptContents =
      some [(true, some (str "second"), some (str "second")),
        (true, some (str "first"), some (str "first"))] := by
    decide +kernel
  obtain ⟨run, hs, hkept⟩ := Option.map_eq_some_iff.mp hrun
  refine ⟨run, hs, hkept, losesNothing_of_namesAreFree id {} run ?_⟩
  refine TSys.reachableBy_run (.init (show twoReports.history = [] from rfl)) _ ?_ hs
  have htest : (quarantineSys id {}).runAll (fun run act => decide (NamesAreFree id {} run act))
      twoReports (bothReports 1) = true := by
    decide +kernel
  exact TSys.runOk_of_runAll (fun _ _ h => of_decide_eq_true h) htest

/-- In one second the second report replaces the first. -/
theorem not_losesNothing :
    ¬ ∀ config : QuarantineConfig,
        (quarantineSys id config).InvariantBy (fun _ _ => True) (LosesNothing id) := by
  intro hclaim
  have hrun : ((quarantineSys id {}).run twoReports (bothReports 0)).map keptContents =
      some [(true, some (str "second"), some (str "second")),
        (true, some (str "first"), some (str "second"))] := by
    decide +kernel
  obtain ⟨run, hs, hkept⟩ := Option.map_eq_some_iff.mp hrun
  have hstart : (quarantineSys id {}).Reachable twoReports :=
    .init (show twoReports.history = [] from rfl)
  have hsafe := (hclaim {} run (TSys.reachable_run hstart _ hs)).retrievable
  have hall : ∀ t ∈ keptContents run,
      t.1 = true → ∃ content, t.2.1 = some content ∧ t.2.2 = some content :=
    List.forall_mem_map.mpr hsafe
  rw [hkept] at hall
  obtain ⟨content, hfirst, hsecond⟩ := hall _ (List.mem_cons_of_mem _ List.mem_cons_self) rfl
  exact absurd (hfirst.trans hsecond.symm) (by decide)

end examples

end AkesoDlp.Agent
