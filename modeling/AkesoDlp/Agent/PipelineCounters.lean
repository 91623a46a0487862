import AkesoDlp.Lib.Accounts
import AkesoDlp.Agent.PipelineLocks
import Mathlib.Algebra.Group.Int.Defs
import Mathlib.Algebra.Group.Prod

/-!
# The counters of file notifications

Every way out of `OnFileNotification` counts the file once, in critical sections of its own,
and as blocked if that is the verdict. No other handler touches these counters.
-/

namespace AkesoDlp.Agent

open Lib LockOrder

def PipelineCall.isNotification : PipelineCall → Bool
  | .onFileNotification _ => true
  | _ => false

/-- The files that are scanned but neither allowed nor blocked, and those that are blocked. -/
def PipelineStats.unsettled (st : PipelineStats) : Int × Int :=
  (st.filesScanned - st.filesAllowed - st.filesBlocked, st.filesBlocked)

def unsettled {env : PipelineEnv} (s : SharedPipeline env) : Int × Int :=
  s.pipeline.stats.unsettled

/-- What a notification changes by its return. -/
def blockedBy (reply : PipelineReply) : Int × Int :=
  (0, if reply = .verdict .verdictBlock then 1 else 0)

namespace PipelineProg

variable {env : PipelineEnv}

/-- The contracts: a notification leaves nothing unsettled. -/
abbrev Settles (p : PipelineProg env) (before : Int × Int) : Prop :=
  Ensures (accounts unsettled PipelineCall.isNotification blockedBy) p
    (.settles unsettled blockedBy before)

abbrev Still (p : PipelineProg env) : Prop :=
  Ensures (accounts unsettled PipelineCall.isNotification blockedBy) p (.still unsettled)

/-! ## The other handlers -/

theorem updatePolicies_stats (p : DetectionPipeline env) (policies : List Policy) :
    (p.updatePolicies policies).stats = p.stats := by
  unfold DetectionPipeline.updatePolicies DetectionPipeline.rebuildKeywords
  dsimp only
  split <;> (unfold DetectionPipeline.rebuildRegex; dsimp only; split <;> rfl)

theorem still_countFiles {f : PipelineStats → PipelineStats} {k : PipelineProg env}
    (hf : ∀ st, (f st).unsettled = st.unsettled) (hk : Still k) : Still (countFiles f k) :=
  ensures_guarded fun _ _ => ⟨hf _, hk⟩

theorem still_countHandlers {f : HandlerStats → HandlerStats} {k : PipelineProg env}
    (hk : Still k) : Still (countHandlers f k) :=
  ensures_guarded fun _ _ => ⟨rfl, hk⟩

theorem still_ifRunning {otherwise : PipelineReply} {k : PipelineProg env} (hk : Still k) :
    Still (ifRunning otherwise k) := by
  refine fun s _ => ⟨rfl, ?_⟩
  dsimp only
  split
  · exact hk
  · trivial

theorem still_ttdFallbackLocked {violation : PolicyViolation} :
    Still (ttdFallbackLocked violation : PipelineProg env) :=
  fun _ _ => ⟨rfl, fun _ _ => ⟨rfl, trivial⟩⟩

theorem still_requestTTD {violation : PolicyViolation} :
    Still (requestTTD violation : PipelineProg env) := by
  refine fun s _ => ⟨rfl, ?_⟩
  dsimp only
  split
  · exact still_ttdFallbackLocked
  · refine still_countFiles (fun _ => rfl) fun _ answer => ⟨rfl, ?_⟩
    cases answer with
    | none => exact still_ttdFallbackLocked
    | some verdict => trivial

theorem still_ifPolicies {k : PipelineProg env} (hk : Still k) : Still (ifPolicies k) := by
  refine ensures_guarded fun s _ => ⟨rfl, ?_⟩
  split
  · trivial
  · exact hk

theorem still_ifViolations {k : PolicyViolation → List PolicyViolation → PipelineProg env}
    (hk : ∀ v rest, Still (k v rest)) : Still (ifViolations k) := by
  refine fun _ outcome => ⟨rfl, ?_⟩
  cases outcome with
  | error e => exact still_countFiles (fun _ => rfl) trivial
  | ok detection =>
      refine ensures_guarded fun s _ => ⟨rfl, ?_⟩
      dsimp only
      split
      · trivial
      · exact hk _ _

theorem still_ifContent {k : PipelineProg env} (hk : Still k) : Still (ifContent k) := by
  refine fun _ content => ⟨rfl, ?_⟩
  dsimp only
  split
  · trivial
  · exact hk

theorem still_respond {blocked : HandlerStats → HandlerStats} {worst : PolicyViolation} :
    Still (respond blocked worst : PipelineProg env) := by
  unfold respond
  split
  · exact still_countHandlers trivial
  · refine fun _ verdict => ⟨rfl, ?_⟩
    dsimp only
    split
    · exact still_countHandlers trivial
    · trivial
  · trivial
  · trivial
  · trivial

/-! ## File notifications -/

theorem settles_ret {reply : PipelineReply} {before : Int × Int} (h : before = blockedBy reply) :
    Settles (.ret reply : PipelineProg env) before :=
  (add_zero before).trans h

theorem settles_countFiles {f : PipelineStats → PipelineStats} {k : PipelineProg env}
    {before change after : Int × Int} (hf : ∀ st, (f st).unsettled = st.unsettled + change)
    (hafter : before + change = after) (hk : Settles k after) :
    Settles (countFiles f k) before := by
  refine ensures_guarded fun s _ => ⟨trivial, ?_⟩
  have hchange : unsettled { s with pipeline := s.pipeline.count f } - unsettled s = change := by
    unfold unsettled
    dsimp only [DetectionPipeline.count]
    rw [hf, add_sub_cancel_left]
  rw [settles_after_access]
  dsimp only
  rw [hchange, hafter]
  exact hk

/-- Other counts. -/
theorem settles_countOther {f : PipelineStats → PipelineStats} {k : PipelineProg env}
    {before : Int × Int} (hf : ∀ st, (f st).unsettled = st.unsettled) (hk : Settles k before) :
    Settles (countFiles f k) before :=
  settles_countFiles (fun st => (hf st).trans (add_zero _).symm) (add_zero before) hk

/-- An access that changes nothing. -/
theorem settles_read {q : PipelineAccess}
    {k : SharedPipeline env → PipelineAnswer q → PipelineProg env} {before : Int × Int}
    (hk : ∀ s a, Settles (k s a) before) : Settles (.access q (fun s _ => s) k) before := by
  refine fun s a => ⟨trivial, ?_⟩
  rw [settles_after_access, sub_self, add_zero]
  exact hk s a

theorem settles_determineVerdict {notif : FileNotification} {worst : PolicyViolation}
    {k : DriverMsgType → PipelineProg env} {before : Int × Int}
    (hk : ∀ verdict, Settles (k verdict) before) :
    Settles (determineVerdict notif worst k) before := by
  unfold determineVerdict
  split
  · refine ⟨fun _ _ => trivial, fun trace reply htrace _ => ?_⟩
    rw [settles_after_of_still blockedBy before htrace]
    exact hk _
  · exact settles_read fun _ verdict => hk verdict
  · exact hk _

theorem unsettled_scanned (st : PipelineStats) :
    { st with filesScanned := st.filesScanned + 1 }.unsettled = st.unsettled + (1, 0) := by
  simp only [PipelineStats.unsettled, Prod.mk_add_mk, Prod.mk.injEq]
  omega

theorem unsettled_allowed (st : PipelineStats) :
    { st with filesAllowed := st.filesAllowed + 1 }.unsettled = st.unsettled + (-1, 0) := by
  simp only [PipelineStats.unsettled, Prod.mk_add_mk, Prod.mk.injEq]
  omega

theorem unsettled_blocked (st : PipelineStats) :
    { st with filesBlocked := st.filesBlocked + 1 }.unsettled = st.unsettled + (-1, 1) := by
  simp only [PipelineStats.unsettled, Prod.mk_add_mk, Prod.mk.injEq]
  omega

/-- The count of Stage 5. -/
theorem settles_verdict (verdict : DriverMsgType) :
    Settles (countFiles (fun st =>
      if verdict == .verdictBlock then { st with filesBlocked := st.filesBlocked + 1 }
      else { st with filesAllowed := st.filesAllowed + 1 })
        (.ret (.verdict verdict)) : PipelineProg env) (1, 0) := by
  by_cases hblock : verdict = .verdictBlock
  · subst hblock
    exact settles_countFiles unsettled_blocked rfl (settles_ret rfl)
  · refine @settles_countFiles _ _ _ _ (-1, 0) _ (fun st => ?_) rfl (settles_ret ?_)
    · rw [if_neg fun h => hblock (eq_of_beq h), unsettled_allowed]
    · rw [blockedBy, if_neg fun h => hblock (PipelineReply.verdict.inj h)]
      rfl

theorem settles_onFileNotification {notif : FileNotification} :
    Settles (onFileNotification notif : PipelineProg env) 0 := by
  refine settles_read fun s _ => ?_
  split
  · dsimp only
    split
    · refine settles_countOther (fun st => ?_) (settles_ret rfl)
      rw [unsettled_allowed { st with filesScanned := st.filesScanned + 1 }, unsettled_scanned,
        add_assoc]
      exact add_zero _
    · refine settles_countFiles unsettled_scanned (zero_add _) (settles_read fun s _ => ?_)
      split
      · exact settles_countFiles unsettled_allowed rfl (settles_ret rfl)
      · refine settles_read fun _ outcome => ?_
        cases outcome with
        | error e =>
            exact settles_countFiles (fun st => unsettled_allowed _) rfl (settles_ret rfl)
        | ok detection =>
            refine settles_read fun s _ => ?_
            dsimp only
            split
            · exact settles_countFiles unsettled_allowed rfl (settles_ret rfl)
            · refine settles_countOther (fun _ => rfl) ?_
              exact settles_determineVerdict fun verdict => settles_verdict verdict
  · exact settles_ret rfl

/-- Every handler settles, or leaves the counters alone. -/
theorem ensures_accounts (call : PipelineCall) :
    Ensures (accounts unsettled PipelineCall.isNotification blockedBy) (pipelineBody env call)
      (accounts unsettled PipelineCall.isNotification blockedBy call) := by
  cases call with
  | onFileNotification notif => exact settles_onFileNotification
  | requestTTD notif violation => exact still_requestTTD
  | onClipboardContent clip =>
      refine still_ifRunning (still_countHandlers (still_ifPolicies ?_))
      exact still_ifViolations fun _ _ => still_countHandlers still_respond
  | onBrowserUpload event =>
      refine still_ifRunning (still_countHandlers (still_ifPolicies (still_ifContent ?_)))
      exact still_ifViolations fun _ _ => still_countHandlers still_respond
  | onDiscoverFile event =>
      refine still_ifRunning (still_countHandlers (still_ifPolicies (still_ifContent ?_)))
      exact still_ifViolations fun _ _ => ensures_guarded fun _ _ => ⟨rfl, trivial⟩
  | updatePolicies policies =>
      refine ensures_guarded fun s _ => ⟨?_, trivial⟩
      exact congrArg PipelineStats.unsettled (updatePolicies_stats s.pipeline policies)
  | activePolicyCount => exact ensures_guarded fun _ _ => ⟨rfl, trivial⟩
  | getStats => exact ensures_guarded fun _ _ => ⟨rfl, trivial⟩
  | stop => exact still_ifRunning fun _ _ => ⟨rfl, fun _ he => he, fun _ _ _ _ => trivial⟩

end PipelineProg

/-! ## The balance -/

/-- What the notifications that returned add up to. -/
theorem sum_blockedBy (replies : List PipelineReply) :
    (replies.map blockedBy).sum = (0, (replies.count (.verdict .verdictBlock) : Int)) := by
  induction replies with
  | nil => rfl
  | cons reply replies ih =>
      rw [List.map_cons, List.sum_cons, ih, blockedBy, List.count_cons]
      by_cases hblock : reply = .verdict .verdictBlock
      · rw [if_pos hblock, if_pos (beq_iff_eq.mpr hblock), Prod.mk_add_mk, Nat.cast_add, add_comm 1]
        rfl
      · rw [if_neg hblock, if_neg fun h => hblock (eq_of_beq h), Prod.mk_add_mk, zero_add, zero_add,
          Nat.add_zero]

/-- What the notifications have returned, the last one first. -/
def PipelineHistory.verdicts {env : PipelineEnv} (h : PipelineHistory env) : List PipelineReply :=
  (h.finished.filter fun x => x.1.proc.isNotification).map Prod.snd

/-- While no notification is in progress, every file that was scanned has been allowed or
blocked, and the blocked ones are the notifications that returned this verdict. -/
theorem counters_balance {env : PipelineEnv} {h : PipelineHistory env}
    (hreach : (pipelineHistories env).Reachable h)
    (hidle : ∀ t call, h.running t = some call → call.proc.isNotification = false) :
    let stats := h.world.shared.pipeline.stats
    stats.filesScanned = stats.filesAllowed + stats.filesBlocked ∧
      stats.filesBlocked = (PipelineHistory.verdicts h).count (.verdict .verdictBlock) := by
  have hbalance := measure_eq_of_settled PipelineProg.ensures_accounts hreach hidle
  obtain ⟨⟨order, hfresh⟩, -⟩ := start_invariantBy h hreach
  have hstart : unsettled h.start = 0 := by
    rw [unsettled, hfresh]
    rfl
  have hverdicts : ((h.finished.filter fun x => x.1.proc.isNotification).map fun x =>
      blockedBy x.2) = (PipelineHistory.verdicts h).map blockedBy := by
    rw [PipelineHistory.verdicts, List.map_map]
    rfl
  rw [hstart, zero_add, hverdicts, sum_blockedBy, unsettled, PipelineStats.unsettled,
    Prod.mk.injEq] at hbalance
  dsimp only
  omega

section examples

private def memoNotif (preview : List UInt8) : FileNotification where
  filePath := [97]
  contentPreview := preview

/-- The detection finds the keyword. -/
private def memoAnswer : ∀ q, PipelineAnswer q
  | .data | .fileCheck | .client => ()
  | .detection => .ok { «matches» := [{ patternId := 1, analyzerName := str "keyword",
                                        label := str "memo", matchedText := str "memo" }] }
  | .detectContent => none
  | .dialog => .verdictBlock
  | .readFile => []

private def memoRuns (n : Nat) : List (Move PipelineCall PipelineAnswer) :=
  List.replicate n (.run 0 memoAnswer)

/-- One thread gets a policy, blocks a file and allows one without content. -/
private def memoMoves : List (Move PipelineCall PipelineAnswer) :=
  .start 0 (.updatePolicies [keywordPolicy 1 "memo"]) :: memoRuns 4 ++
    .start 0 (.onFileNotification (memoNotif [109])) :: memoRuns 18 ++
    .start 0 (.onFileNotification (memoNotif [])) :: memoRuns 5

private def memoStart : PipelineHistory plainEnv :=
  .idle { pipeline := plainPipeline, hasClient := false }

theorem counters_balance_memo :
    ∃ h, (pipelineHistories plainEnv).run memoStart memoMoves = some h ∧
      PipelineHistory.verdicts h = [.verdict .verdictAllow, .verdict .verdictBlock] ∧
      let stats := h.world.shared.pipeline.stats
      stats.filesScanned = stats.filesAllowed + stats.filesBlocked := by
  have hrun : ((pipelineHistories plainEnv).run memoStart memoMoves).map
      (fun h => (PipelineHistory.verdicts h, (h.running 0).isNone)) =
        some ([.verdict .verdictAllow, .verdict .verdictBlock], true) := by
    decide +kernel
  obtain ⟨h, hs, hend⟩ := Option.map_eq_some_iff.mp hrun
  rw [Prod.mk.injEq, Option.isNone_iff_eq_none] at hend
  refine ⟨h, hs, hend.1, (counters_balance (TSys.reachable_run (.init ?_) _ hs) ?_).1⟩
  · exact ⟨_, ⟨⟨.insertion, rfl⟩, rfl⟩, rfl⟩
  · intro t call hcall
    by_cases ht : t = 0
    · rw [ht, hend.2] at hcall
      cases hcall
    · have hthread : ∀ move ∈ memoMoves, move.thread = 0 := by decide +kernel
      rw [running_of_run hs fun move hmove => hthread move hmove ▸ ht] at hcall
      cases hcall

end examples

end AkesoDlp.Agent
