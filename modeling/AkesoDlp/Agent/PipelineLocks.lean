import AkesoDlp.Lib.CallHistory
import AkesoDlp.Agent.MatchedContent

/-!
# The two mutexes of the pipeline

The handlers as programs over `policy_mutex_` and `stats_mutex_`. Everything else that
decides which way a handler goes is an answer from outside: what `RunDetection`
yields (it takes neither mutex), the file that is read, the dialog and the server.
The work after the last critical section is left out.
-/

namespace AkesoDlp.Agent

open Lib LockOrder

inductive PipelineMutex
  | policy
  | stats
deriving DecidableEq, Repr

/-- The counters of the other handlers. -/
structure HandlerStats where
  clipsScanned : Nat := 0
  clipsViolations : Nat := 0
  clipsBlocked : Nat := 0
  browserUploadsScanned : Nat := 0
  browserUploadsViolations : Nat := 0
  browserUploadsBlocked : Nat := 0
  discoverFilesScanned : Nat := 0
  discoverViolations : Nat := 0
deriving DecidableEq, Repr

/-- `hasClient` tells whether there is a `grpc_client_`. -/
structure SharedPipeline (env : PipelineEnv) where
  pipeline : DetectionPipeline env
  handlers : HandlerStats := {}
  hasClient : Bool

inductive PipelineCall
  | onFileNotification (notif : FileNotification)
  | requestTTD (notif : FileNotification) (violation : PolicyViolation)
  | onClipboardContent (clip : ClipboardContent)
  | onBrowserUpload (event : BrowserUploadEvent)
  | onDiscoverFile (event : DiscoverFileEvent)
  | updatePolicies (policies : List Policy)
  | activePolicyCount
  | getStats
  | stop

inductive PipelineReply
  | void
  | verdict (v : DriverMsgType)
  | count (n : Nat)
  | stats (files : PipelineStats) (handlers : HandlerStats)
deriving DecidableEq, Repr

def PipelineReply.asVerdict : PipelineReply → DriverMsgType
  | .verdict v => v
  | .void | .count _ | .stats _ _ => .verdictAllow

/-- The accesses: those to the data alone, and those with an answer from outside.
`fileCheck` is `policies_.empty()` in `OnFileNotification`, `client` the test of
`grpc_client_`. -/
inductive PipelineAccess
  | data
  | fileCheck
  | client
  | detection
  | detectContent
  | dialog
  | readFile
deriving DecidableEq, Repr

/-- `none` from `DetectContent` is a request that fails. -/
abbrev PipelineAnswer : PipelineAccess → Type
  | .data | .fileCheck | .client => Unit
  | .detection => Except StdString DetectionResult
  | .detectContent => Option TTDVerdict
  | .dialog => DriverMsgType
  | .readFile => List UInt8

abbrev PipelineProg (env : PipelineEnv) : Type :=
  Prog PipelineMutex PipelineCall (SharedPipeline env) PipelineReply PipelineAnswer

namespace PipelineProg

variable {env : PipelineEnv}

/-! ## Critical sections -/

def countFiles (f : PipelineStats → PipelineStats) (k : PipelineProg env) : PipelineProg env :=
  .guarded .stats .data (fun s _ => { s with pipeline := s.pipeline.count f }) fun _ _ => k

def countHandlers (f : HandlerStats → HandlerStats) (k : PipelineProg env) : PipelineProg env :=
  .guarded .stats .data (fun s _ => { s with handlers := f s.handlers }) fun _ _ => k

def ifRunning (otherwise : PipelineReply) (k : PipelineProg env) : PipelineProg env :=
  .access .data (fun s _ => s) fun s _ => if s.pipeline.running then k else .ret otherwise

def evaluate (detection : DetectionResult) (k : List PolicyViolation → PipelineProg env) :
    PipelineProg env :=
  .guarded .policy .data (fun s _ => s) fun s _ =>
    k (env.evaluator.evaluateAll s.pipeline.policies detection)

/-! ## File notifications -/

/-- The end of `RequestTTD` without an answer: both locks are held until the return. -/
def ttdFallbackLocked (violation : PolicyViolation) : PipelineProg env :=
  .lock .stats <|
    .access .data (fun s _ => { s with
      pipeline := s.pipeline.count fun st => { st with ttdTimeouts := st.ttdTimeouts + 1 } })
      fun _ _ =>
    .lock .policy <| .access .data (fun s _ => s) fun s _ =>
    .unlock .policy <| .unlock .stats <|
      .ret (.verdict (ttdFallback s.pipeline.policies violation))

def requestTTD (violation : PolicyViolation) : PipelineProg env :=
  .access .client (fun s _ => s) fun s _ =>
    if !s.hasClient then ttdFallbackLocked violation
    else
      countFiles (fun st => { st with
        ttdRequestsSent := st.ttdRequestsSent + 1, filesTtd := st.filesTtd + 1 }) <|
      .access .detectContent (fun s _ => s) fun _ answer =>
        match answer with
        | none => ttdFallbackLocked violation
        | some verdict => .ret (.verdict (ttdVerdict verdict))

/-- Stage 4. -/
def determineVerdict (notif : FileNotification) (worst : PolicyViolation)
    (k : DriverMsgType → PipelineProg env) : PipelineProg env :=
  match worst.response with
  | .ttd => .call (.requestTTD notif worst) fun reply => k reply.asVerdict
  | .userCancel => .access .dialog (fun s _ => s) fun _ verdict => k verdict
  | response => k (actionToVerdict response)

def onFileNotification (notif : FileNotification) : PipelineProg env :=
  ifRunning (.verdict .verdictAllow) <|
    let allowed := fun st : PipelineStats => { st with filesAllowed := st.filesAllowed + 1 }
    let scanned := fun st : PipelineStats => { st with filesScanned := st.filesScanned + 1 }
    if (env.wideToUtf8 notif.filePath).isEmpty || notif.contentPreview.isEmpty then
      countFiles (fun st => allowed (scanned st)) (.ret (.verdict .verdictAllow))
    else
      countFiles scanned <|
      .lock .policy <| .access .fileCheck (fun s _ => s) fun s _ =>
        if s.pipeline.policies.isEmpty then
          countFiles allowed (.unlock .policy <| .ret (.verdict .verdictAllow))
        else
          .unlock .policy <| .access .detection (fun s _ => s) fun _ outcome =>
            match outcome with
            | .error _ =>
                countFiles (fun st => allowed { st with errors := st.errors + 1 })
                  (.ret (.verdict .verdictAllow))
            | .ok detection =>
                evaluate detection fun violations =>
                  match violations with
                  | [] => countFiles allowed (.ret (.verdict .verdictAllow))
                  | first :: rest =>
                      countFiles (fun st => { st with
                        violationsDetected := st.violationsDetected + (rest.length + 1) }) <|
                      determineVerdict notif (worstOf first rest) fun verdict =>
                        countFiles (fun st =>
                          if verdict == .verdictBlock then
                            { st with filesBlocked := st.filesBlocked + 1 }
                          else allowed st) (.ret (.verdict verdict))

/-! ## The other handlers -/

/-- Return when there are no policies; the lock is released either way. -/
def ifPolicies (k : PipelineProg env) : PipelineProg env :=
  .guarded .policy .data (fun s _ => s) fun s _ =>
    if s.pipeline.policies.isEmpty then .ret .void else k

/-- Detection and evaluation, up to the first violation. -/
def ifViolations (k : PolicyViolation → List PolicyViolation → PipelineProg env) :
    PipelineProg env :=
  .access .detection (fun s _ => s) fun _ outcome =>
    match outcome with
    | .error _ => countFiles (fun st => { st with errors := st.errors + 1 }) (.ret .void)
    | .ok detection =>
        evaluate detection fun violations =>
          match violations with
          | [] => .ret .void
          | first :: rest => k first rest

/-- The responses; only a block is counted. -/
def respond (blocked : HandlerStats → HandlerStats) (worst : PolicyViolation) : PipelineProg env :=
  match worst.response with
  | .block => countHandlers blocked (.ret .void)
  | .userCancel =>
      .access .dialog (fun s _ => s) fun _ verdict =>
        if verdict == .verdictBlock then countHandlers blocked (.ret .void) else .ret .void
  | .allow | .notify | .ttd => .ret .void

def ifContent (k : PipelineProg env) : PipelineProg env :=
  .access .readFile (fun s _ => s) fun _ content => if content.isEmpty then .ret .void else k

def onClipboardContent : PipelineProg env :=
  ifRunning .void <|
  countHandlers (fun st => { st with clipsScanned := st.clipsScanned + 1 }) <|
  ifPolicies <| ifViolations fun first rest =>
  countHandlers (fun st => { st with
    clipsViolations := st.clipsViolations + (rest.length + 1) }) <|
  respond (fun st => { st with clipsBlocked := st.clipsBlocked + 1 }) (worstOf first rest)

def onBrowserUpload : PipelineProg env :=
  ifRunning .void <|
  countHandlers (fun st => { st with browserUploadsScanned := st.browserUploadsScanned + 1 }) <|
  ifPolicies <| ifContent <| ifViolations fun first rest =>
  countHandlers (fun st => { st with
    browserUploadsViolations := st.browserUploadsViolations + (rest.length + 1) }) <|
  respond (fun st => { st with browserUploadsBlocked := st.browserUploadsBlocked + 1 })
    (worstOf first rest)

def onDiscoverFile : PipelineProg env :=
  ifRunning .void <|
  countHandlers (fun st => { st with discoverFilesScanned := st.discoverFilesScanned + 1 }) <|
  ifPolicies <| ifContent <| ifViolations fun _ rest =>
  .guarded .stats .data (fun s _ => { s with
    handlers := { s.handlers with
      discoverViolations := s.handlers.discoverViolations + (rest.length + 1) }
    pipeline := s.pipeline.count fun st => { st with
      violationsDetected := st.violationsDetected + (rest.length + 1) } }) fun _ _ =>
  .ret .void

/-! ## Policies and statistics -/

def updatePolicies (policies : List Policy) : PipelineProg env :=
  .guarded .policy .data (fun s _ => { s with pipeline := s.pipeline.updatePolicies policies })
    fun _ _ => .ret .void

def activePolicyCount : PipelineProg env :=
  .guarded .policy .data (fun s _ => s) fun s _ =>
    .ret (.count (s.pipeline.policies.countP fun p => p.active))

def getStats : PipelineProg env :=
  .guarded .stats .data (fun s _ => s) fun s _ => .ret (.stats s.pipeline.stats s.handlers)

def stop : PipelineProg env :=
  ifRunning .void <|
  .access .data (fun s _ => { s with pipeline := { s.pipeline with running := false } }) fun _ _ =>
  .call .getStats fun _ => .ret .void

end PipelineProg

def pipelineBody (env : PipelineEnv) : PipelineCall → PipelineProg env
  | .onFileNotification notif => PipelineProg.onFileNotification notif
  | .requestTTD _ violation => PipelineProg.requestTTD violation
  | .onClipboardContent _ => PipelineProg.onClipboardContent
  | .onBrowserUpload _ => PipelineProg.onBrowserUpload
  | .onDiscoverFile _ => PipelineProg.onDiscoverFile
  | .updatePolicies policies => PipelineProg.updatePolicies policies
  | .activePolicyCount => PipelineProg.activePolicyCount
  | .getStats => PipelineProg.getStats
  | .stop => PipelineProg.stop

abbrev PipelineWorld (env : PipelineEnv) : Type :=
  World PipelineMutex PipelineCall (SharedPipeline env) PipelineReply PipelineAnswer

/-- Any threads call the handlers of a started pipeline that has seen no policies. -/
def pipelineThreads (env : PipelineEnv) :
    TSys (PipelineWorld env) (Move PipelineCall PipelineAnswer) :=
  system (pipelineBody env) fun s =>
    (∃ order, s.pipeline = .fresh env order) ∧ s.handlers = {}

abbrev PipelineHistory (env : PipelineEnv) : Type :=
  History PipelineMutex PipelineCall (SharedPipeline env) PipelineReply PipelineAnswer

/-- The threads of the pipeline, with what their calls have come across. -/
def pipelineHistories (env : PipelineEnv) :
    TSys (PipelineHistory env) (Move PipelineCall PipelineAnswer) :=
  histories (pipelineBody env) fun s =>
    (∃ order, s.pipeline = .fresh env order) ∧ s.handlers = {}

theorem pipelineThreads_reachable_iff {env : PipelineEnv} {w : PipelineWorld env} :
    (pipelineThreads env).Reachable w ↔
      ∃ h, (pipelineHistories env).Reachable h ∧ h.world = w :=
  reachable_world

/-! ## The two orders -/

/-- The order of the mutexes, by the one that comes first. -/
def lockRank (first m : PipelineMutex) : Nat := if m = first then 0 else 1

/-- With `policy_mutex_` first, no two-tier request falls back to the policy; with
`stats_mutex_` first, no file notification finds the list of policies empty. -/
def Discipline (env : PipelineEnv) (first : PipelineMutex) :
    ∀ q, SharedPipeline env → PipelineAnswer q → Prop
  | .client, s, _ => first = .policy → s.hasClient = true
  | .detectContent, _, answer => first = .policy → answer ≠ none
  | .fileCheck, s, _ => first = .stats → s.pipeline.policies ≠ []
  | .data, _, _ | .detection, _, _ | .dialog, _, _ | .readFile, _, _ => True

namespace PipelineProg

variable {env : PipelineEnv} {first : PipelineMutex} {held : List PipelineMutex}

/-- The check of a program, with the order and the discipline that go with `first`;
the handlers are called without a lock. -/
def Passes (first : PipelineMutex) (held : List PipelineMutex) (p : PipelineProg env) : Prop :=
  Checked (lockRank first) (Discipline env first) (fun _ held => held = []) [] held p

theorem passes_countFiles {f : PipelineStats → PipelineStats} {k : PipelineProg env}
    (hup : ∀ h ∈ held, lockRank first h < lockRank first .stats) (hk : Passes first held k) :
    Passes first held (countFiles f k) :=
  checked_guarded hup fun _ _ _ => hk

theorem passes_countHandlers {f : HandlerStats → HandlerStats} {k : PipelineProg env}
    (hk : Passes first [] k) : Passes first [] (countHandlers f k) :=
  checked_guarded (by simp) fun _ _ _ => hk

theorem passes_ifRunning {otherwise : PipelineReply} {k : PipelineProg env}
    (hk : Passes first [] k) : Passes first [] (ifRunning otherwise k) := by
  intro s _ _
  dsimp only
  split
  · exact hk
  · exact rfl

theorem passes_evaluate {detection : DetectionResult} {k : List PolicyViolation → PipelineProg env}
    (hk : ∀ violations, Passes first [] (k violations)) :
    Passes first [] (evaluate detection k) :=
  checked_guarded (by simp) fun _ _ _ => hk _

/-- The nesting of the fallback: `stats_mutex_` outside, `policy_mutex_` inside. -/
theorem passes_ttdFallbackLocked {violation : PolicyViolation} :
    Passes .stats [] (ttdFallbackLocked violation : PipelineProg env) := by
  refine ⟨by simp, fun _ _ _ => ⟨by decide, fun _ _ _ => ?_⟩⟩
  exact ⟨_, rfl, _, rfl, rfl⟩

theorem passes_requestTTD {violation : PolicyViolation} :
    Passes first [] (requestTTD violation : PipelineProg env) := by
  intro s _ hclient
  cases first with
  | policy =>
      have hhas : s.hasClient = true := hclient rfl
      simp only [hhas, Bool.not_true, Bool.false_eq_true, if_false]
      refine passes_countFiles (by simp) fun _ answer hanswer => ?_
      cases answer with
      | none => exact absurd rfl (hanswer rfl)
      | some verdict => exact rfl
  | stats =>
      dsimp only
      split
      · exact passes_ttdFallbackLocked
      · refine passes_countFiles (by simp) fun _ answer _ => ?_
        cases answer with
        | none => exact passes_ttdFallbackLocked
        | some verdict => exact rfl

theorem passes_determineVerdict {notif : FileNotification} {worst : PolicyViolation}
    {k : DriverMsgType → PipelineProg env} (hk : ∀ verdict, Passes first [] (k verdict)) :
    Passes first [] (determineVerdict notif worst k) := by
  unfold determineVerdict
  split
  · exact ⟨rfl, fun _ => hk _⟩
  · exact fun _ _ _ => hk _
  · exact hk _

theorem passes_onFileNotification {notif : FileNotification} :
    Passes first [] (onFileNotification notif : PipelineProg env) := by
  refine passes_ifRunning ?_
  dsimp only
  split
  · exact passes_countFiles (by simp) rfl
  · refine passes_countFiles (by simp) ⟨by simp, fun s _ hcheck => ?_⟩
    dsimp only
    split
    · -- the nesting of the early return: `policy_mutex_` outside, `stats_mutex_` inside
      next hempty =>
        refine passes_countFiles ?_ ⟨_, rfl, rfl⟩
        cases first with
        | policy => decide
        | stats => exact absurd (List.isEmpty_iff.mp hempty) (hcheck rfl)
    · refine ⟨_, rfl, fun _ outcome _ => ?_⟩
      cases outcome with
      | error e => exact passes_countFiles (by simp) rfl
      | ok detection =>
          refine passes_evaluate fun violations => ?_
          cases violations with
          | nil => exact passes_countFiles (by simp) rfl
          | cons v rest =>
              refine passes_countFiles (by simp) (passes_determineVerdict fun _ => ?_)
              exact passes_countFiles (by simp) rfl

theorem passes_ifPolicies {k : PipelineProg env} (hk : Passes first [] k) :
    Passes first [] (ifPolicies k) := by
  refine checked_guarded (by simp) fun s _ _ => ?_
  split
  · exact rfl
  · exact hk

theorem passes_ifViolations {k : PolicyViolation → List PolicyViolation → PipelineProg env}
    (hk : ∀ v rest, Passes first [] (k v rest)) : Passes first [] (ifViolations k) := by
  intro _ outcome _
  cases outcome with
  | error e => exact passes_countFiles (by simp) rfl
  | ok detection =>
      refine passes_evaluate fun violations => ?_
      cases violations with
      | nil => exact rfl
      | cons v rest => exact hk v rest

theorem passes_ifContent {k : PipelineProg env} (hk : Passes first [] k) :
    Passes first [] (ifContent k) := by
  intro _ content _
  dsimp only
  split
  · exact rfl
  · exact hk

theorem passes_respond {blocked : HandlerStats → HandlerStats} {worst : PolicyViolation} :
    Passes first [] (respond blocked worst : PipelineProg env) := by
  unfold respond
  split
  · exact passes_countHandlers rfl
  · intro _ verdict _
    dsimp only
    split
    · exact passes_countHandlers rfl
    · exact rfl
  · exact rfl
  · exact rfl
  · exact rfl

theorem passes_body (first : PipelineMutex) (call : PipelineCall) :
    Passes first [] (pipelineBody env call) := by
  cases call with
  | onFileNotification notif => exact passes_onFileNotification
  | requestTTD notif violation => exact passes_requestTTD
  | onClipboardContent clip =>
      refine passes_ifRunning (passes_countHandlers (passes_ifPolicies ?_))
      exact passes_ifViolations fun _ _ => passes_countHandlers passes_respond
  | onBrowserUpload event =>
      refine passes_ifRunning (passes_countHandlers (passes_ifPolicies (passes_ifContent ?_)))
      exact passes_ifViolations fun _ _ => passes_countHandlers passes_respond
  | onDiscoverFile event =>
      refine passes_ifRunning (passes_countHandlers (passes_ifPolicies (passes_ifContent ?_)))
      exact passes_ifViolations fun _ _ => checked_guarded (by simp) fun _ _ _ => rfl
  | updatePolicies policies => exact checked_guarded (by simp) fun _ _ _ => rfl
  | activePolicyCount => exact checked_guarded (by simp) fun _ _ _ => rfl
  | getStats => exact checked_guarded (by simp) fun _ _ _ => rfl
  | stop => exact passes_ifRunning fun _ _ _ => ⟨rfl, fun _ => rfl⟩

end PipelineProg

/-! ## No circular wait -/

theorem pipelineLocks_ordered (env : PipelineEnv) (first : PipelineMutex) :
    (pipelineThreads env).InvariantBy (AccessOk (Discipline env first)) fun w =>
      ¬ w.CircularWait ∧ w.Ordered (lockRank first) := by
  intro w hw
  have hbody : ∀ call held, held = [] → Checked (lockRank first) (Discipline env first)
      (fun _ held => held = []) held held (pipelineBody env call) := by
    rintro call held rfl
    exact PipelineProg.passes_body first call
  have hordered := ordered_invariantBy hbody (fun _ => rfl) w hw
  exact ⟨hordered.not_circularWait, hordered⟩

section examples

private def ttdPolicy : Policy := { keywordPolicy 1 "secret" with response := .ttd }

private def secretNotif : FileNotification where
  filePath := [97]
  contentPreview := [115]

private def secretFound : DetectionResult where
  «matches» := [{ patternId := 1, analyzerName := str "keyword", label := str "secret",
                  matchedText := str "secret" }]

/-- The detection finds the keyword, and the server does not answer. -/
private def secretAnswer : ∀ q, PipelineAnswer q
  | .data | .fileCheck | .client => ()
  | .detection => .ok secretFound
  | .detectContent => none
  | .dialog => .verdictBlock
  | .readFile => []

private def runs (t n : Nat) : List (Move PipelineCall PipelineAnswer) :=
  List.replicate n (.run t secretAnswer)

private def unconnected : PipelineWorld plainEnv :=
  World.idle { pipeline := plainPipeline, hasClient := false }

private theorem unconnected_init : (pipelineThreads plainEnv).init unconnected :=
  ⟨_, ⟨⟨.insertion, rfl⟩, rfl⟩, rfl⟩

private def asksServer (w : PipelineWorld plainEnv) : Move PipelineCall PipelineAnswer → Bool
  | .start _ _ => false
  | .run t _ => w.nextAccess t == some .client || w.nextAccess t == some .detectContent

private theorem accessOk_of_not_asksServer {w : PipelineWorld plainEnv}
    {move : Move PipelineCall PipelineAnswer}
    (h : (!asksServer w move) = true) : AccessOk (Discipline plainEnv .policy) w move := by
  cases move with
  | start t call => trivial
  | run t answer =>
      refine accessOk_of_nextAccess fun q hq => ?_
      simp only [asksServer, hq] at h
      cases q with
      | client | detectContent => simp at h
      | fileCheck => exact fun hfirst => PipelineMutex.noConfusion hfirst
      | data | detection | dialog | readFile => trivial

/-- Without policies a notification waits for `stats_mutex_` with `policy_mutex_` locked,
and a `GetStats` has it: with that order this is no circle. -/
theorem pipelineLocks_ordered_waiting :
    ∃ w, (pipelineThreads plainEnv).run unconnected
        (.start 0 (.onFileNotification secretNotif) :: runs 0 6 ++ .start 1 .getStats :: runs 1 1) =
          some w ∧
      (w.wants 0, w.owner .policy, w.owner .stats) = (some .stats, some 0, some 1) ∧
      ¬ w.CircularWait ∧ w.Ordered (lockRank .policy) := by
  have hrun : ((pipelineThreads plainEnv).run unconnected
      (.start 0 (.onFileNotification secretNotif) :: runs 0 6 ++
        .start 1 .getStats :: runs 1 1)).map
          (fun w => (w.wants 0, w.owner .policy, w.owner .stats)) =
        some (some .stats, some 0, some 1) := by
    decide +kernel
  have hasks : (pipelineThreads plainEnv).runAll (fun w move => !asksServer w move) unconnected
      (.start 0 (.onFileNotification secretNotif) :: runs 0 6 ++
        .start 1 .getStats :: runs 1 1) = true := by
    decide +kernel
  obtain ⟨w, hw, hwaits⟩ := Option.map_eq_some_iff.mp hrun
  refine ⟨w, hw, hwaits, pipelineLocks_ordered plainEnv .policy w ?_⟩
  exact TSys.reachableBy_run (.init unconnected_init) _
    (TSys.runOk_of_runAll (fun _ _ => accessOk_of_not_asksServer) hasks) hw

/-- A notification with a two-tier violation falls back while another one finds that the
policies are gone. -/
theorem not_pipelineLocks_ordered :
    ¬ ∀ env : PipelineEnv,
        (pipelineThreads env).InvariantBy (fun _ _ => True) fun w => ¬ w.CircularWait := by
  intro hclaim
  have hrun : ((pipelineThreads plainEnv).run unconnected
      ((.start 2 (.updatePolicies [ttdPolicy]) :: runs 2 4) ++
        (.start 1 (.onFileNotification secretNotif) :: runs 1 16) ++
        (.start 2 (.updatePolicies []) :: runs 2 4) ++
        (.start 0 (.onFileNotification secretNotif) :: runs 0 6) ++ runs 1 2)).map
          (fun w => (w.wants 0, w.wants 1, w.owner .policy, w.owner .stats)) =
        some (some .stats, some .policy, some 0, some 1) := by
    decide +kernel
  obtain ⟨w, hw, hwaits⟩ := Option.map_eq_some_iff.mp hrun
  simp only [Prod.mk.injEq] at hwaits
  obtain ⟨hwants, hwants', hpolicy, hstats⟩ := hwaits
  have hstart : (pipelineThreads plainEnv).Reachable unconnected := .init unconnected_init
  refine hclaim plainEnv w (TSys.reachable_run hstart _ hw) ⟨0, ?_⟩
  exact .tail (.single ⟨.stats, hwants, hstats⟩) ⟨.policy, hwants', hpolicy⟩

end examples

end AkesoDlp.Agent
