import AkesoDlp.Agent.QuarantineAction
import AkesoDlp.Lib.Probe
import Mathlib.Data.Set.Card
import Mathlib.Data.Set.Finite.Basic

/-!
# The recovery folder

`MoveToRecovery` looks for a name that is free, and moves or copies the blocked file there.
All of it happens under one mutex, so calls come one after the other.
-/

namespace AkesoDlp.Agent.BlockAction

open Lib

/-! ## Names -/

/-- `operator/`: a right side with a root of its own replaces more than the end. -/
def joinPath (path name : StdString) : StdString :=
  let drive := name.take (driveLength name)
  let rest := name.drop (driveLength name)
  if drive ≠ [] ∧ (rest.head?.any isSlash = true ∨ drive ≠ path.take (driveLength path)) then name
  else if rest.head?.any isSlash = true then path.take (driveLength path) ++ rest
  else pathAppend path rest

/-- Three digits of milliseconds. -/
def threeDigits (n : Nat) : StdString :=
  if n < 10 then 48 :: 48 :: decimal n else if n < 100 then 48 :: decimal n else decimal n

def buildRecoveryFilename (now : Tm) (ms processId : Nat) (originalFilename : StdString) :
    StdString :=
  now.stamp ++ 95 :: threeDigits ms ++ 95 :: decimal processId ++ 95 :: originalFilename

example : buildRecoveryFilename ⟨2026, 3, 20, 11, 30, 45⟩ 7 123 (str "report.docx") =
    str "20260320_113045_007_123_report.docx" := by decide

/-- The names that are tried one after the other. The `int suffix` of the source is a number of
any size here: no search goes beyond as many names as are taken, so it does not overflow where
fewer than 2³¹ are. -/
def finalDest (dest : StdString) (suffix : Nat) : StdString :=
  if suffix = 0 then dest else dest ++ 95 :: decimal suffix

/-! ## A call -/

structure BlockResult where
  fileRecovered : Bool := false
  recoveryPath : StdString := []
  error : StdString := []
deriving DecidableEq, Repr

/-- What the file system does in one call. -/
structure RecoveryEnv where
  /-- The recovery folder is there, or `create_directories` makes it. -/
  folder : Bool := true
  rename : Bool := true
  copy : CopyOutcome := .copied
  remove : Bool := true
  /-- What `copy_file` says about a source that is not there. -/
  noSource : StdString := []
deriving DecidableEq, Repr

section call

variable {Entry : Type} [DecidableEq Entry]

/-- `fs::exists`. -/
def occupied (isFolder : Entry → Bool) (files : FileContents Entry) (e : Entry) : Bool :=
  (files e).isSome || isFolder e

/-- `fs::rename`, or a copy after which the original is removed if that is possible; with the
error if neither succeeds. -/
def relocate (env : RecoveryEnv) (files : FileContents Entry) (source dest : Entry) :
    FileContents Entry × Option StdString :=
  match files source with
  | none => (files, some env.noSource)
  | some content =>
      if env.rename then
        (Function.update (Function.update files source none) dest (some content), none)
      else
        match env.copy with
        | .copied =>
            let files' := Function.update files dest (some content)
            (if env.remove then Function.update files' source none else files', none)
        | .failed (some part) message => (Function.update files dest (some part), some message)
        | .failed none message => (files, some message)

/-- `MoveToRecovery`; `entry` is the entry that a path leads to. There is no result while the
search for a name goes on for longer than `fuel`. -/
def moveToRecovery (entry : StdString → Entry) (isFolder : Entry → Bool) (recoveryPath : StdString)
    (fuel : Nat) (files : FileContents Entry) (dosPath recoveryFilename : StdString)
    (env : RecoveryEnv) : Option (BlockResult × FileContents Entry) :=
  if !env.folder then
    some ({ error := str "Failed to create recovery directory" }, files)
  else
    let dest := joinPath recoveryPath recoveryFilename
    (probe (fun suffix => occupied isFolder files (entry (finalDest dest suffix))) fuel 0).map
      fun suffix =>
        let path := finalDest dest suffix
        match relocate env files (entry dosPath) (entry path) with
        | (files, some message) =>
            ({ error := str "Failed to copy file to recovery: " ++ message }, files)
        | (files, none) => ({ fileRecovered := true, recoveryPath := path }, files)

end call

/-! ## Runs -/

structure Recovery (Entry : Type) where
  dosPath : StdString
  before : FileContents Entry
  result : BlockResult
  after : FileContents Entry

/-- The history holds the calls since the start, the last one first. -/
structure RecoveryRun (Entry : Type) where
  start : FileContents Entry
  files : FileContents Entry
  history : List (Recovery Entry) := []

/-- `other` is what other programs do to a file that is not in the recovery folder. -/
inductive RecoveryAct (Entry : Type)
  | move (dosPath recoveryFilename : StdString) (env : RecoveryEnv) (fuel : Nat)
  | other (e : Entry) (content : Option StdString)

/-- What the paths of the file system lead to: `inFolder` are the entries of the recovery folder,
to which the agent alone writes. -/
structure Places (Entry : Type) where
  entry : StdString → Entry
  isFolder : Entry → Bool
  recoveryPath : StdString
  inFolder : Entry → Bool
  /-- Names with different suffixes lead to different entries. -/
  finalDest_injective : ∀ name,
    Function.Injective fun suffix => entry (finalDest (joinPath recoveryPath name) suffix)

section runs

variable {Entry : Type} [DecidableEq Entry] (places : Places Entry)

/-- The suffixes with which a name leads to something that is there. -/
def Places.taken (files : FileContents Entry) (name : StdString) : Set Nat :=
  {suffix | occupied places.isFolder files
    (places.entry (finalDest (joinPath places.recoveryPath name) suffix)) = true}

def recoveryStep (run : RecoveryRun Entry) : RecoveryAct Entry → Option (RecoveryRun Entry)
  | .move dosPath recoveryFilename env fuel =>
      (moveToRecovery places.entry places.isFolder places.recoveryPath fuel run.files dosPath
        recoveryFilename env).map fun r =>
          { run with
            files := r.2
            history := ⟨dosPath, run.files, r.1, r.2⟩ :: run.history }
  | .other e content =>
      if places.inFolder e = true then none
      else some { run with files := Function.update run.files e content }

/-- There may be files already, under finitely many of the names that are tried in one call. -/
def recoverySys : TSys (RecoveryRun Entry) (RecoveryAct Entry) where
  init run :=
    run.history = [] ∧ run.files = run.start ∧ ∀ name, (places.taken run.start name).Finite
  step := recoveryStep places

/-- Where in the folder a file is that was at `e` before these calls, if none of them has moved it
out of the folder. -/
def whereInFolder : List (Recovery Entry) → Entry → Option Entry
  | [], e => some e
  | x :: earlier, e =>
      (whereInFolder earlier e).bind fun e' =>
        if x.result.fileRecovered = true ∧ places.entry x.dosPath = e' then
          let moved := places.entry x.result.recoveryPath
          if places.inFolder moved = true then some moved else none
        else some e'

/-- The files after some of the calls. -/
def RecoveryRun.filesAfter (run : RecoveryRun Entry) : List (Recovery Entry) → FileContents Entry
  | [] => run.start
  | x :: _ => x.after

/-- A call stores the source at a path where nothing was, and what was in the folder before some
of the calls has kept its content after them, at its place or where it has been moved itself. -/
structure OverwritesNothing (run : RecoveryRun Entry) : Prop where
  stored : ∀ x ∈ run.history, x.result.fileRecovered = true →
    ∃ content, x.before (places.entry x.dosPath) = some content ∧
      occupied places.isFolder x.before (places.entry x.result.recoveryPath) = false ∧
      x.after (places.entry x.result.recoveryPath) = some content
  kept : ∀ later earlier, run.history = later ++ earlier → ∀ e, places.inFolder e = true →
    ∀ content, run.filesAfter earlier e = some content → ∀ e',
      whereInFolder places later e = some e' →
        places.inFolder e' = true ∧ run.files e' = some content

/-! ## What a call changes -/

section call

variable {env : RecoveryEnv} {files : FileContents Entry} {source dest e : Entry}

omit places in
theorem relocate_of_ne (hsource : e ≠ source) (hdest : e ≠ dest) :
    (relocate env files source dest).1 e = files e := by
  unfold relocate
  split
  · rfl
  · split
    · exact (Function.update_of_ne hdest _ _).trans (Function.update_of_ne hsource _ _)
    · split
      · dsimp only
        split
        · rw [Function.update_of_ne hsource, Function.update_of_ne hdest]
        · rw [Function.update_of_ne hdest]
      · exact Function.update_of_ne hdest _ _
      · rfl

/-- The destination gets the content, unless there is an error; then the source is still there. -/
theorem relocate_cases (hdest : files dest = none) :
    (∃ content, files source = some content ∧ (relocate env files source dest).2 = none ∧
      (relocate env files source dest).1 dest = some content) ∨
    ((relocate env files source dest).2.isSome = true ∧
      (relocate env files source dest).1 source = files source) := by
  unfold relocate
  split
  · exact .inr ⟨rfl, rfl⟩
  · next content hsource =>
      have hne : source ≠ dest := by
        rintro rfl
        rw [hdest] at hsource
        cases hsource
      split
      · exact .inl ⟨content, hsource, rfl, Function.update_self dest _ _⟩
      · split
        · refine .inl ⟨content, hsource, rfl, ?_⟩
          dsimp only
          split
          · rw [Function.update_of_ne hne.symm, Function.update_self]
          · rw [Function.update_self]
        · exact .inr ⟨rfl, Function.update_of_ne hne _ _⟩
        · exact .inr ⟨rfl, rfl⟩

theorem relocate_eq_none (hsource : files e = none) (hdest : e ≠ dest) :
    (relocate env files source dest).1 e = none := by
  by_cases he : e = source
  · subst he
    unfold relocate
    rw [hsource]
    exact hsource
  · rw [relocate_of_ne he hdest, hsource]

end call

/-- What a call does to the files: they stay where they are, but for a source that is stored at
a path where nothing was. -/
structure Recovers (places : Places Entry) (x : Recovery Entry) : Prop where
  stored : x.result.fileRecovered = true →
    ∃ content, x.before (places.entry x.dosPath) = some content ∧
      occupied places.isFolder x.before (places.entry x.result.recoveryPath) = false ∧
      x.after (places.entry x.result.recoveryPath) = some content
  kept : ∀ e content, x.before e = some content →
    ¬ (x.result.fileRecovered = true ∧ places.entry x.dosPath = e) → x.after e = some content
  fresh : ∃ d, ∀ e, e ≠ d → x.before e = none → x.after e = none

variable {places} {fuel : Nat} {files : FileContents Entry} {dosPath recoveryFilename : StdString}
  {env : RecoveryEnv} {r : BlockResult × FileContents Entry}

theorem recovers_of_move (h : moveToRecovery places.entry places.isFolder places.recoveryPath fuel
      files dosPath recoveryFilename env = some r) :
    Recovers places ⟨dosPath, files, r.1, r.2⟩ := by
  unfold moveToRecovery at h
  split at h
  · cases h
    exact ⟨nofun, fun e content he _ => he, ⟨places.entry dosPath, fun e _ he => he⟩⟩
  · obtain ⟨suffix, hprobe, rfl⟩ := Option.map_eq_some_iff.mp h
    obtain ⟨-, -, hfree, -⟩ := probe_eq_some_iff.mp hprobe
    have hempty : files (places.entry (finalDest (joinPath places.recoveryPath recoveryFilename)
        suffix)) = none := by
      rw [occupied, Bool.or_eq_false_iff, Option.isSome_eq_false_iff,
        Option.isNone_iff_eq_none] at hfree
      exact hfree.1
    generalize hpath : finalDest (joinPath places.recoveryPath recoveryFilename) suffix = path at *
    have hdest {e : Entry} {content : StdString} (he : files e = some content) :
        e ≠ places.entry path := by
      rintro rfl
      rw [hempty] at he
      cases he
    have hother {e : Entry} (hsource : e ≠ places.entry dosPath) (he : e ≠ places.entry path) :=
      @relocate_of_ne _ _ env files _ _ e hsource he
    have hgone {e : Entry} (he : files e = none) (hne : e ≠ places.entry path) :=
      @relocate_eq_none _ _ env files (places.entry dosPath) _ e he hne
    have hcases := @relocate_cases _ _ env files (places.entry dosPath) _ hempty
    obtain ⟨⟨files', error⟩, hrelocate⟩ :
        ∃ moved, moved = relocate env files (places.entry dosPath) (places.entry path) := ⟨_, rfl⟩
    rw [← hrelocate] at hcases
    simp only [← hrelocate] at hother hgone ⊢
    rcases hcases with ⟨content, hcontent, rfl, hstored⟩ | ⟨herror, hstill⟩
    · refine ⟨fun _ => ⟨content, hcontent, hfree, hstored⟩, fun e c he hmoved => ?_,
        ⟨places.entry path, fun e hne he => hgone he hne⟩⟩
      exact (hother (fun heq => hmoved ⟨rfl, heq.symm⟩) (hdest he)).trans he
    · obtain ⟨message, rfl⟩ := Option.isSome_iff_exists.mp herror
      refine ⟨nofun, fun e c he _ => ?_, ⟨places.entry path, fun e hne he => hgone he hne⟩⟩
      by_cases hsource : e = places.entry dosPath
      · subst hsource
        exact hstill.trans he
      · exact (hother hsource (hdest he)).trans he

/-- A new entry takes one suffix at most. -/
theorem Places.taken_finite {files' : FileContents Entry} {d : Entry}
    (hfresh : ∀ e, e ≠ d → files e = none → files' e = none) {name : StdString}
    (hfinite : (places.taken files name).Finite) : (places.taken files' name).Finite := by
  have hd : {suffix | places.entry (finalDest (joinPath places.recoveryPath name) suffix) =
      d}.Subsingleton := by
    intro m hm n hn
    exact places.finalDest_injective name (Eq.trans hm (Eq.symm hn))
  refine (hfinite.union hd.finite).subset fun suffix htaken => ?_
  by_cases hne : places.entry (finalDest (joinPath places.recoveryPath name) suffix) = d
  · exact .inr hne
  · refine .inl ?_
    rw [Places.taken, Set.mem_ofPred_eq, occupied] at htaken ⊢
    cases hbefore : files (places.entry (finalDest (joinPath places.recoveryPath name) suffix)) with
    | none => rwa [hfresh _ hne hbefore] at htaken
    | some content => rfl

omit [DecidableEq Entry] in
/-- In a finite folder finitely many names are taken. -/
theorem Places.taken_finite_of_folder {name : StdString}
    (hfolder : {e | places.inFolder e = true ∧ occupied places.isFolder files e = true}.Finite)
    (hname : ∀ suffix, places.inFolder
      (places.entry (finalDest (joinPath places.recoveryPath name) suffix)) = true) :
    (places.taken files name).Finite :=
  (hfolder.preimage (places.finalDest_injective name).injOn).subset
    fun suffix htaken => ⟨hname suffix, htaken⟩

/-- A file is followed to where it is after the call. -/
theorem Recovers.follow {x : Recovery Entry} (h : Recovers places x) {e e' : Entry}
    (hin : places.inFolder e = true) {content : StdString} (he : x.before e = some content)
    (hfollow : (if x.result.fileRecovered = true ∧ places.entry x.dosPath = e then
        let moved := places.entry x.result.recoveryPath
        if places.inFolder moved = true then some moved else none
      else some e) = some e') :
    places.inFolder e' = true ∧ x.after e' = some content := by
  split at hfollow
  · next hmoved =>
      obtain ⟨hsuccess, rfl⟩ := hmoved
      obtain ⟨stored, hstored, -, hafter⟩ := h.stored hsuccess
      rw [he, Option.some.injEq] at hstored
      obtain ⟨hfolder, heq⟩ := Option.ite_none_right_eq_some.mp hfollow
      cases heq
      rw [hstored]
      exact ⟨hfolder, hafter⟩
  · next hstays =>
      cases hfollow
      exact ⟨hin, h.kept e content he hstays⟩

/-- A file that no call has taken is where it was. -/
theorem whereInFolder_self {calls : List (Recovery Entry)} {e : Entry}
    (h : ∀ x ∈ calls, x.result.fileRecovered = true → places.entry x.dosPath ≠ e) :
    whereInFolder places calls e = some e := by
  induction calls with
  | nil => rfl
  | cons x earlier ih =>
      obtain ⟨hx, hearlier⟩ := List.forall_mem_cons.mp h
      rw [whereInFolder, ih hearlier, Option.bind_some, if_neg fun hmoved => hx hmoved.1 hmoved.2]

/-! ## Runs -/

/-- What holds in every state: nothing was overwritten, and names are left. -/
structure RecoveryInv (places : Places Entry) (run : RecoveryRun Entry) : Prop where
  nothing : OverwritesNothing places run
  finite : ∀ name, (places.taken run.files name).Finite

theorem recoveryInv_init {run : RecoveryRun Entry} (h : (recoverySys places).init run) :
    RecoveryInv places run := by
  obtain ⟨hhistory, hfiles, hfinite⟩ := h
  refine ⟨⟨?_, ?_⟩, by rwa [hfiles]⟩
  · rw [hhistory]
    exact List.forall_mem_nil _
  · intro later earlier hsplit e hin content he e' hfollow
    rw [hhistory] at hsplit
    obtain ⟨rfl, rfl⟩ := List.append_eq_nil_iff.mp hsplit.symm
    cases hfollow
    rw [hfiles]
    exact ⟨hin, he⟩

theorem recoveryInv_step {run run' : RecoveryRun Entry} {act : RecoveryAct Entry}
    (h : RecoveryInv places run) (hstep : recoveryStep places run act = some run') :
    RecoveryInv places run' := by
  cases act with
  | move dosPath recoveryFilename env fuel =>
      obtain ⟨r, hr, rfl⟩ := Option.map_eq_some_iff.mp hstep
      have hrecovers := recovers_of_move hr
      obtain ⟨d, hfresh⟩ := hrecovers.fresh
      refine ⟨⟨?_, ?_⟩, fun name => places.taken_finite hfresh (h.finite name)⟩
      · exact List.forall_mem_cons.mpr ⟨hrecovers.stored, h.nothing.stored⟩
      · intro later earlier hsplit e hin content he e' hfollow
        cases later with
        | nil =>
            rw [List.nil_append] at hsplit
            rw [← hsplit] at he
            cases hfollow
            exact ⟨hin, he⟩
        | cons x later =>
            rw [List.cons_append, List.cons.injEq] at hsplit
            obtain ⟨rfl, hsplit⟩ := hsplit
            have hbefore : run.filesAfter earlier e = some content := by
              cases earlier <;> exact he
            obtain ⟨e₁, he₁, hfollow⟩ := Option.bind_eq_some_iff.mp hfollow
            obtain ⟨hin₁, hthere⟩ :=
              h.nothing.kept later earlier hsplit e hin content hbefore e₁ he₁
            exact hrecovers.follow hin₁ hthere hfollow
  | other d written =>
      rw [recoveryStep] at hstep
      split at hstep
      · cases hstep
      · next hout =>
          cases hstep
          have hfresh : ∀ e, e ≠ d → run.files e = none →
              Function.update run.files d written e = none := by
            intro e hne he
            exact (Function.update_of_ne hne _ _).trans he
          refine ⟨⟨h.nothing.stored, ?_⟩, fun name => places.taken_finite hfresh (h.finite name)⟩
          intro later earlier hsplit e hin content he e' hfollow
          have hbefore : run.filesAfter earlier e = some content := by
            cases earlier <;> exact he
          obtain ⟨hin', hthere⟩ :=
            h.nothing.kept later earlier hsplit e hin content hbefore e' hfollow
          refine ⟨hin', (Function.update_of_ne ?_ _ _).trans hthere⟩
          rintro rfl
          exact hout hin'

theorem recoverySys_inv (places : Places Entry) :
    (recoverySys places).InvariantBy (fun _ _ => True) (RecoveryInv places) :=
  TSys.InductiveBy.invariant
    ⟨fun _ h => recoveryInv_init h, fun _ _ _ h _ hstep => recoveryInv_step h hstep⟩

/-- The search ends after as many names as are taken, and the file gets the name it ends with. -/
theorem exists_moveToRecovery (places : Places Entry) {files : FileContents Entry}
    {recoveryFilename : StdString} (hfinite : (places.taken files recoveryFilename).Finite)
    (dosPath : StdString) (env : RecoveryEnv) :
    ∃ suffix ≤ (places.taken files recoveryFilename).ncard, ∃ r,
      (r.1.fileRecovered = true →
        r.1.recoveryPath = finalDest (joinPath places.recoveryPath recoveryFilename) suffix) ∧
      ∀ fuel, (places.taken files recoveryFilename).ncard < fuel →
        moveToRecovery places.entry places.isFolder places.recoveryPath fuel files dosPath
          recoveryFilename env = some r := by
  unfold moveToRecovery
  cases env.folder with
  | false =>
      exact ⟨0, Nat.zero_le _, _, fun hfalse => absurd hfalse Bool.false_ne_true, fun _ _ => rfl⟩
  | true =>
      obtain ⟨suffix, hle, hprobe⟩ := @exists_probe
        (fun suffix => occupied places.isFolder files
          (places.entry (finalDest (joinPath places.recoveryPath recoveryFilename) suffix)))
        hfinite.toFinset fun suffix htaken => hfinite.mem_toFinset.mpr htaken
      rw [← Set.ncard_eq_toFinset_card _ hfinite] at hle
      refine ⟨suffix, hle, _, ?_, fun fuel hfuel =>
        congrArg (Option.map _) (hprobe fuel (by omega))⟩
      dsimp only
      split
      · exact fun hfalse => absurd hfalse Bool.false_ne_true
      · exact fun _ => rfl

/-- Nothing in the folder is ever overwritten, and however long the run a name is found in the
next call, with a suffix no larger than the number of names that are taken. -/
theorem moveToRecovery_overwrites_nothing (places : Places Entry) {run : RecoveryRun Entry}
    (h : (recoverySys places).Reachable run) :
    OverwritesNothing places run ∧
    ∀ dosPath recoveryFilename env,
      ∃ suffix ≤ (places.taken run.files recoveryFilename).ncard, ∃ r,
        (r.1.fileRecovered = true →
          r.1.recoveryPath = finalDest (joinPath places.recoveryPath recoveryFilename) suffix) ∧
        ∀ fuel, (places.taken run.files recoveryFilename).ncard < fuel →
          moveToRecovery places.entry places.isFolder places.recoveryPath fuel run.files dosPath
            recoveryFilename env = some r := by
  have hinv := recoverySys_inv places run h
  exact ⟨hinv.nothing, fun dosPath recoveryFilename env =>
    exists_moveToRecovery places (hinv.finite recoveryFilename) dosPath env⟩

end runs

/-! ## Two reports of one name -/

section examples

theorem finalDest_injective (dest : StdString) : Function.Injective (finalDest dest) := by
  intro m n h
  unfold finalDest at h
  split at h <;> split at h
  · next hm hn => rw [hm, hn]
  · cases List.self_eq_append_right.mp h
  · cases List.self_eq_append_right.mp h.symm
  · have hdecimal : decimal m = decimal n :=
      List.tail_eq_of_cons_eq (List.append_cancel_left h)
    rw [← digitsValue_decimal m, hdecimal, digitsValue_decimal]

/-- Each path is an entry of its own. -/
def plainPlaces : Places StdString where
  entry := id
  isFolder _ := false
  recoveryPath := str "C:\\AkesoDLP\\Recovery"
  inFolder path := (str "C:\\AkesoDLP\\Recovery\\").isPrefixOf path
  finalDest_injective _ := finalDest_injective _

/-- Two files that are blocked, and one in the folder with the name that they get. -/
def threeFiles : FileContents StdString :=
  Function.update (Function.update (Function.update (fun _ => none)
    (str "C:\\a.docx") (some (str "first"))) (str "C:\\b.docx") (some (str "second")))
    (str "C:\\AkesoDLP\\Recovery\\r.docx") (some (str "old"))

theorem recoverySys_init_threeFiles :
    (recoverySys plainPlaces).init { start := threeFiles, files := threeFiles } := by
  refine ⟨rfl, rfl, fun name => ?_⟩
  have hempty : (plainPlaces.taken (fun _ => none) name).Finite :=
    Set.finite_empty.subset fun suffix htaken => Bool.false_ne_true htaken
  have hadd {files : FileContents StdString} (h : (plainPlaces.taken files name).Finite) path
      content : (plainPlaces.taken (Function.update files path content) name).Finite :=
    Places.taken_finite (fun e hne he => (Function.update_of_ne hne _ _).trans he) h
  exact hadd (hadd (hadd hempty _ _) _ _) _ _

/-- The second one has to be copied. -/
def bothBlocked : List (RecoveryAct StdString) :=
  [.move (str "C:\\a.docx") (str "r.docx") {} 3,
    .move (str "C:\\b.docx") (str "r.docx") { rename := false } 3]

/-- What is at the names that were tried. -/
def recovered (run : RecoveryRun StdString) : List (Option StdString) :=
  (List.range 4).map fun suffix =>
    run.files (finalDest (str "C:\\AkesoDLP\\Recovery\\r.docx") suffix)

theorem overwrites_nothing_threeFiles :
    ∃ run, (recoverySys plainPlaces).run { start := threeFiles, files := threeFiles } bothBlocked =
        some run ∧
      recovered run = [some (str "old"), some (str "first"), some (str "second"), none] ∧
      OverwritesNothing plainPlaces run := by
  have hrun : ((recoverySys plainPlaces).run { start := threeFiles, files := threeFiles }
      bothBlocked).map recovered =
        some [some (str "old"), some (str "first"), some (str "second"), none] := by
    decide +kernel
  obtain ⟨run, hs, hrecovered⟩ := Option.map_eq_some_iff.mp hrun
  have hreach := TSys.reachable_run (.init recoverySys_init_threeFiles) _ hs
  exact ⟨run, hs, hrecovered, (moveToRecovery_overwrites_nothing plainPlaces hreach).1⟩

end examples

end AkesoDlp.Agent.BlockAction
