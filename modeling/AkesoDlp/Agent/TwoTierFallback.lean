import AkesoDlp.Agent.GrpcClient
import AkesoDlp.Agent.PipelineLocks
import AkesoDlp.Agent.Verdict

/-!
# The fallback of two-tier requests

The server's answer can be missing in three places, each with a setting of its own: the pipeline
looks `ttd_fallback` up in the policies that it has then, the gRPC client and the server go by
the agent's configuration.
-/

namespace AkesoDlp.Agent

open Lib LockOrder

/-! ## The server and the client -/

/-- Of the agent's configuration. -/
structure DetectionConfig where
  ttdTimeout : Int := 30
  ttdFallback : StdString := str "log"
deriving DecidableEq, Repr

structure DetectContentRequest where
  requestId : StdString := []
  fileContent : List UInt8 := []
  fileName : StdString := []
  fileSize : Int := 0
  contentExcerpt : List UInt8 := []
  timeoutSeconds : Int := 0
  fallbackAction : StdString := []
deriving DecidableEq, Repr

structure DetectContentResponse where
  requestId : StdString := []
  verdict : TTDVerdict := .unspecified
  message : StdString := []
deriving DecidableEq, Repr

/-- What the detection engine does with the content. -/
inductive EngineOutcome
  | timedOut
  | detected (hasMatches : Bool)
  | raised (message : StdString)
deriving DecidableEq, Repr

/-- `DetectContent` of the server. -/
def servicerDetectContent (request : DetectContentRequest) (engine : EngineOutcome) :
    DetectStatus × DetectContentResponse :=
  let timeout := if request.timeoutSeconds = 0 then 30 else request.timeoutSeconds
  let fallback := if request.fallbackAction = [] then str "log" else request.fallbackAction
  let response : DetectContentResponse := { requestId := request.requestId }
  if request.fileContent = [] ∧ request.contentExcerpt = [] then
    (.ok, { response with verdict := .allow, message := str "No content provided" })
  else
    match engine with
    | .timedOut =>
        (.ok, { response with
          verdict :=
            if fallback = str "allow" then .allow
            else if fallback = str "block" then .block
            else .log
          message := str "Detection timed out after " ++ toStdString timeout ++
            str "s, fallback: " ++ fallback })
    | .detected hasMatches =>
        (.ok, { response with
          verdict := if hasMatches then .block else .allow
          message := str "Detection complete" })
    | .raised message => (.failed, { response with verdict := .log, message := message })

/-- `GrpcClient::DetectContent`, with the status and the response of the request that it sends if
there is a stub. -/
def grpcDetectContent (config : DetectionConfig) (stub : Bool) (request : DetectContentRequest)
    (status : DetectStatus) (response : DetectContentResponse) : Bool × DetectContentResponse :=
  if !stub then (false, response)
  else
    match status with
    | .deadlineExceeded =>
        (true, { response with
          requestId := request.requestId
          verdict :=
            if config.ttdFallback = str "block" then .block
            else if config.ttdFallback = str "allow" then .allow
            else .log
          message := str "TTD timeout — fallback applied" })
    | .failed => (false, response)
    | .ok => (true, response)

/-- The request of `RequestTTD`. -/
def ttdRequest (env : PipelineEnv) (config : DetectionConfig) (requestId : StdString)
    (notif : FileNotification) : DetectContentRequest where
  requestId := requestId
  fileContent := notif.contentPreview
  fileName := env.wideToUtf8 notif.filePath
  fileSize := notif.fileSize
  timeoutSeconds := config.ttdTimeout
  fallbackAction := config.ttdFallback

/-- The ways in which the server's answer can be missing. An error of the request may be that
there is no stub. -/
inductive MissingAnswer
  | noClient
  | rpcError (stub : Bool)
  | deadlineExceeded
  | serverTimeout
deriving DecidableEq, Repr

/-- What the pipeline gets from its client, if it has one. -/
def MissingAnswer.seen (config : DetectionConfig) (request : DetectContentRequest) :
    MissingAnswer → Option (Bool × DetectContentResponse)
  | .noClient => none
  | .rpcError stub => some (grpcDetectContent config stub request .failed {})
  | .deadlineExceeded => some (grpcDetectContent config true request .deadlineExceeded {})
  | .serverTimeout =>
      let (status, response) := servicerDetectContent request .timedOut
      some (grpcDetectContent config true request status response)

/-! ## What a call comes across -/

abbrev PipelineEvent (env : PipelineEnv) : Type := Event (SharedPipeline env) PipelineAnswer

/-- How a two-tier request went: without an answer there are the policies in which the fallback
was looked up. -/
inductive TTDOutcome
  | noClient (later : List Policy)
  | rpcError (later : List Policy)
  | answered (verdict : TTDVerdict)

/-- The verdict of `RequestTTD`. -/
def TTDOutcome.verdict (violation : PolicyViolation) : TTDOutcome → DriverMsgType
  | .noClient later => ttdFallback later violation
  | .rpcError later => ttdFallback later violation
  | .answered verdict => ttdVerdict verdict

/-- The outcome goes with what the pipeline got. -/
def TTDOutcome.GoesWith : TTDOutcome → Option (Bool × DetectContentResponse) → Prop
  | .noClient _, seen => seen = none
  | .rpcError _, seen => ∃ response, seen = some (false, response)
  | .answered verdict, seen => ∃ response, seen = some (true, response) ∧ response.verdict = verdict

/-- A file that was sent to the server: what was found in it, the policies that this was evaluated
with, and the outcome. -/
structure TwoTierRequest where
  detection : DetectionResult
  policies : List Policy
  outcome : TTDOutcome

section traces

variable {env : PipelineEnv}

def laterPolicies : List (PipelineEvent env) → Option (List Policy)
  | _ :: looked :: _ => some looked.before.pipeline.policies
  | _ => none

/-- The outcome, as it shows in the accesses of `RequestTTD`. -/
def outcomeOf : List (PipelineEvent env) → Option TTDOutcome
  | ⟨.client, s, _, _⟩ :: rest =>
      if !s.hasClient then (laterPolicies rest).map .noClient
      else
        match rest with
        | _ :: ⟨.detectContent, _, none, _⟩ :: rest => (laterPolicies rest).map .rpcError
        | _ :: ⟨.detectContent, _, some verdict, _⟩ :: _ => some (.answered verdict)
        | _ => none
  | _ => none

/-- The request, as it shows in the accesses of `OnFileNotification`. -/
def requestOf : List (PipelineEvent env) → Option TwoTierRequest
  | _ :: _ :: _ :: ⟨.detection, _, .ok detection, _⟩ :: evaluated :: _ :: rest =>
      (outcomeOf rest).map fun outcome => {
        detection := detection
        policies := evaluated.before.pipeline.policies
        outcome := outcome }
  | _ => none

end traces

/-! ## The claim -/

/-- The policy at which the evaluation found the first of the most severe violations. -/
def IsViolated (ev : PolicyEvaluator) (policies : List Policy) (detection : DetectionResult)
    (violated : Policy) : Prop :=
  ∃ before after, policies = before ++ violated :: after ∧
    (ev.evaluate violated detection).triggered = true ∧
    (∀ p ∈ before, (ev.evaluate p detection).triggered = true →
      (ev.evaluate p detection).severity.toNat < (ev.evaluate violated detection).severity.toNat) ∧
    ∀ p ∈ after, (ev.evaluate p detection).triggered = true →
      (ev.evaluate p detection).severity.toNat ≤ (ev.evaluate violated detection).severity.toNat

/-- A notification that has returned, with the policy that it violated, whose request to the
server was not answered. -/
structure UnansweredCall {env : PipelineEnv} (config : DetectionConfig)
    (h : PipelineHistory env) where
  notif : FileNotification
  trace : List (PipelineEvent env)
  reply : PipelineReply
  finished : (⟨.onFileNotification notif, trace⟩, reply) ∈ h.finished
  request : TwoTierRequest
  requestOf_trace : requestOf trace = some request
  violated : Policy
  isViolated : IsViolated env.evaluator request.policies request.detection violated
  requestId : StdString
  way : MissingAnswer
  goesWith : request.outcome.GoesWith (way.seen config (ttdRequest env config requestId notif))

/-- Where the policies are looked through again, the first one with the id has a fallback with
the same verdict, or there is none and it is the one that allows. Elsewhere the configuration has
the same verdict. -/
def TTDOutcome.FallbackAgrees (config : DetectionConfig) (violated : Policy) : TTDOutcome → Prop
  | .noClient later | .rpcError later =>
      match later.find? fun p => p.id == violated.id with
      | some p => actionToVerdict p.ttdFallback = actionToVerdict violated.ttdFallback
      | none => actionToVerdict violated.ttdFallback = .verdictAllow
  | .answered _ =>
      config.ttdFallback = str "block" ↔ actionToVerdict violated.ttdFallback = .verdictBlock

/-! ## The contracts -/

section contracts

variable {env : PipelineEnv}

def twoTierContract (env : PipelineEnv) :
    PipelineCall → Contract (SharedPipeline env) PipelineReply PipelineAnswer
  | .onFileNotification notif => {
      within := fun _ => True
      post := fun trace reply => ∀ request, requestOf trace = some request →
        notif.contentPreview ≠ [] ∧ ∃ first rest,
          env.evaluator.evaluateAll request.policies request.detection = first :: rest ∧
            reply = .verdict (request.outcome.verdict (worstOf first rest)) }
  | .requestTTD _ violation => {
      within := fun _ => True
      post := fun trace reply => ∃ outcome, reply = .verdict (outcome.verdict violation) ∧
        ∀ later, outcomeOf (trace ++ later) = some outcome }
  | _ => .any

theorem ensures_requestTTD {notif : FileNotification} {violation : PolicyViolation} :
    Ensures (twoTierContract env) (PipelineProg.requestTTD violation)
      (twoTierContract env (.requestTTD notif violation)) := by
  refine fun s _ => ⟨trivial, ?_⟩
  dsimp only
  cases hclient : s.hasClient with
  | false =>
      refine fun _ _ => ⟨trivial, fun s' _ => ⟨trivial, ?_⟩⟩
      have hnot : (!s.hasClient) = true := by rw [hclient, Bool.not_false]
      exact ⟨.noClient s'.pipeline.policies, rfl, fun later => if_pos hnot⟩
  | true =>
      have hhas : ¬ (!s.hasClient) = true := by
        rw [hclient, Bool.not_true]
        exact Bool.false_ne_true
      refine ensures_guarded fun _ _ => ⟨trivial, fun _ answer => ⟨trivial, ?_⟩⟩
      cases answer with
      | none =>
          refine fun _ _ => ⟨trivial, fun s' _ => ⟨trivial, ?_⟩⟩
          exact ⟨.rpcError s'.pipeline.policies, rfl, fun later => if_neg hhas⟩
      | some verdict => exact ⟨.answered verdict, rfl, fun later => if_neg hhas⟩

/-- Nothing is promised of a call that asked no server. -/
theorem post_of_requestOf_eq_none {notif : FileNotification} {trace : List (PipelineEvent env)}
    {reply : PipelineReply} (h : requestOf trace = none) :
    (twoTierContract env (.onFileNotification notif)).post trace reply := by
  intro request hrequest
  rw [h] at hrequest
  cases hrequest

theorem ensures_ifRunning {otherwise : PipelineReply} {k : PipelineProg env}
    {c : Contract (SharedPipeline env) PipelineReply PipelineAnswer} (hwithin : ∀ e, c.within e)
    (hotherwise : ∀ e, c.post [e] otherwise)
    (hk : ∀ e, Ensures (twoTierContract env) k (c.after [e])) :
    Ensures (twoTierContract env) (PipelineProg.ifRunning otherwise k) c := by
  refine fun s _ => ⟨hwithin _, ?_⟩
  dsimp only
  split
  · exact hk _
  · exact hotherwise _

theorem ensures_onFileNotification {notif : FileNotification} :
    Ensures (twoTierContract env) (PipelineProg.onFileNotification notif)
      (twoTierContract env (.onFileNotification notif)) := by
  refine ensures_ifRunning (fun _ => trivial) (fun _ => post_of_requestOf_eq_none rfl) fun _ => ?_
  dsimp only
  split
  · exact ensures_guarded fun _ _ => ⟨trivial, post_of_requestOf_eq_none rfl⟩
  · next hcontent =>
      have hpreview : notif.contentPreview ≠ [] := by
        intro hnil
        rw [hnil, List.isEmpty_nil, Bool.or_true] at hcontent
        exact hcontent rfl
      refine ensures_guarded ?_
      refine fun _ _ => ⟨trivial, fun s _ => ⟨trivial, ?_⟩⟩
      dsimp only
      split
      · exact ensures_guarded fun _ _ => ⟨trivial, post_of_requestOf_eq_none rfl⟩
      · refine fun _ outcome => ⟨trivial, ?_⟩
        cases outcome with
        | error e => exact ensures_guarded fun _ _ => ⟨trivial, post_of_requestOf_eq_none rfl⟩
        | ok detection =>
            refine ensures_guarded fun s _ => ⟨trivial, ?_⟩
            cases hviolations : env.evaluator.evaluateAll s.pipeline.policies detection with
            | nil => exact ensures_guarded fun _ _ => ⟨trivial, post_of_requestOf_eq_none rfl⟩
            | cons first rest =>
                refine ensures_guarded fun _ _ => ⟨trivial, ?_⟩
                unfold PipelineProg.determineVerdict
                split
                · refine ⟨fun _ _ => trivial, ?_⟩
                  rintro trace reply - ⟨outcome, rfl, houtcome⟩
                  refine ensures_guarded fun _ _ => ⟨trivial, ?_⟩
                  intro request hrequest
                  change (outcomeOf (trace ++ [_])).map _ = some request at hrequest
                  rw [houtcome] at hrequest
                  cases hrequest
                  exact ⟨hpreview, first, rest, hviolations, rfl⟩
                · refine fun _ verdict => ⟨trivial, ?_⟩
                  exact ensures_guarded fun _ _ => ⟨trivial, post_of_requestOf_eq_none rfl⟩
                · exact ensures_guarded fun _ _ => ⟨trivial, post_of_requestOf_eq_none rfl⟩

theorem ensures_twoTierContract (call : PipelineCall) :
    Ensures (twoTierContract env) (pipelineBody env call) (twoTierContract env call) := by
  cases call with
  | onFileNotification notif => exact ensures_onFileNotification
  | requestTTD notif violation => exact @ensures_requestTTD env notif violation
  | onClipboardContent | onBrowserUpload | onDiscoverFile | updatePolicies | activePolicyCount
  | getStats | stop => exact ensures_any _

end contracts

/-! ## The fallback -/

theorem worstOf_of_isViolated {ev : PolicyEvaluator} {policies : List Policy}
    {detection : DetectionResult} {violated : Policy} {first : PolicyViolation}
    {rest : List PolicyViolation} (h : IsViolated ev policies detection violated)
    (heval : ev.evaluateAll policies detection = first :: rest) :
    worstOf first rest = ev.evaluate violated detection := by
  obtain ⟨before, after, rfl, htriggered, hbefore, hafter⟩ := h
  refine worstOf_eq ⟨ev.evaluateAll before detection, ev.evaluateAll after detection, ?_, ?_, ?_⟩
  · rw [← heval]
    simp only [PolicyEvaluator.evaluateAll, List.map_append, List.map_cons, List.filter_append,
      List.filter_cons_of_pos htriggered]
  · intro v hv
    obtain ⟨p, hp, rfl, htriggered⟩ := mem_evaluateAll.mp hv
    exact hbefore p hp htriggered
  · intro v hv
    obtain ⟨p, hp, rfl, htriggered⟩ := mem_evaluateAll.mp hv
    exact hafter p hp htriggered

theorem ttdVerdict_cases (verdict : TTDVerdict) :
    ttdVerdict verdict = .verdictAllow ∨ ttdVerdict verdict = .verdictBlock := by
  cases verdict <;> decide

theorem actionToVerdict_cases (action : ResponseAction) :
    actionToVerdict action = .verdictAllow ∨ actionToVerdict action = .verdictBlock := by
  cases action <;> decide

/-- The verdict of the server when the detection takes too long. -/
theorem servicerDetectContent_timedOut {request : DetectContentRequest}
    (hcontent : request.fileContent ≠ []) :
    ∃ response, servicerDetectContent request .timedOut = (.ok, response) ∧
      (ttdVerdict response.verdict = .verdictBlock ↔ request.fallbackAction = str "block") := by
  refine ⟨_, if_neg fun h => hcontent h.1, ?_⟩
  dsimp only
  have hnil : str "block" ≠ [] := by decide
  by_cases hblock : request.fallbackAction = str "block"
  · rw [hblock, if_neg hnil, if_neg (by decide), if_pos rfl]
    exact iff_of_true rfl rfl
  · refine iff_of_false ?_ hblock
    split
    · decide
    · split <;> decide

/-- The client and the server both go by the configuration. -/
theorem ttdVerdict_eq_block_iff {config : DetectionConfig} {request : DetectContentRequest}
    (hcontent : request.fileContent ≠ []) (hfallback : request.fallbackAction = config.ttdFallback)
    {way : MissingAnswer} {verdict : TTDVerdict}
    (h : (TTDOutcome.answered verdict).GoesWith (way.seen config request)) :
    ttdVerdict verdict = .verdictBlock ↔ config.ttdFallback = str "block" := by
  obtain ⟨response, hseen, rfl⟩ := h
  cases way with
  | noClient => cases hseen
  | rpcError stub => cases stub <;> cases hseen
  | deadlineExceeded =>
      cases hseen
      dsimp only
      split
      · next hblock => exact iff_of_true rfl hblock
      · next hblock =>
          refine iff_of_false ?_ hblock
          split <;> decide
  | serverTimeout =>
      obtain ⟨answer, hserver, hanswer⟩ := servicerDetectContent_timedOut hcontent
      rw [MissingAnswer.seen, hserver] at hseen
      cases hseen
      rw [hanswer, hfallback]

theorem verdict_eq_iff_fallbackAgrees {config : DetectionConfig} {request : DetectContentRequest}
    (hcontent : request.fileContent ≠ []) (hfallback : request.fallbackAction = config.ttdFallback)
    {way : MissingAnswer} {outcome : TTDOutcome} (h : outcome.GoesWith (way.seen config request))
    {violated : Policy} {violation : PolicyViolation} (hid : violation.policyId = violated.id) :
    outcome.verdict violation = actionToVerdict violated.ttdFallback ↔
      outcome.FallbackAgrees config violated := by
  have hlookup : ∀ later, ttdFallback later violation = actionToVerdict violated.ttdFallback ↔
      (TTDOutcome.noClient later).FallbackAgrees config violated := by
    intro later
    rw [ttdFallback, TTDOutcome.FallbackAgrees, hid]
    cases later.find? fun p => p.id == violated.id with
    | none => exact eq_comm
    | some p => exact Iff.rfl
  cases outcome with
  | noClient later => exact hlookup later
  | rpcError later => exact hlookup later
  | answered verdict =>
      have hverdict := ttdVerdict_eq_block_iff hcontent hfallback h
      rw [TTDOutcome.verdict, TTDOutcome.FallbackAgrees, ← hverdict]
      rcases ttdVerdict_cases verdict with heq | heq <;>
        rcases actionToVerdict_cases violated.ttdFallback with heq' | heq' <;>
        rw [heq, heq'] <;> decide

/-- An unanswered notification returns the verdict of the fallback of the policy that it violated
exactly when the place where the answer is missing goes by a setting that agrees with it. -/
theorem twoTierFallback_iff {env : PipelineEnv} {config : DetectionConfig} {h : PipelineHistory env}
    (hreach : (pipelineHistories env).Reachable h) (x : UnansweredCall config h) :
    x.reply = .verdict (actionToVerdict x.violated.ttdFallback) ↔
      x.request.outcome.FallbackAgrees config x.violated := by
  have hkept := (keepsContracts_invariantBy ensures_twoTierContract h hreach).finished _ x.finished
  obtain ⟨hpreview, first, rest, heval, hreply⟩ := hkept.post x.request x.requestOf_trace
  dsimp only at hreply
  rw [hreply, worstOf_of_isViolated x.isViolated heval, PipelineReply.verdict.injEq]
  exact verdict_eq_iff_fallbackAgrees hpreview rfl x.goesWith (evaluate_policyId _ _ _)

section examples

/-- Its fallback is to block. -/
private def strictPolicy : Policy :=
  { keywordPolicy 1 "plan" with response := .ttd, ttdFallback := .block }

private def planNotif : FileNotification where
  filePath := [97]
  contentPreview := [112]

private def planFound : DetectionResult where
  «matches» := [{ patternId := 1, analyzerName := str "keyword", label := str "plan",
                  matchedText := str "plan" }]

/-- The detection finds the keyword; `answer` is what comes from the client. -/
private def planAnswer (answer : Option TTDVerdict) : ∀ q, PipelineAnswer q
  | .data | .fileCheck | .client => ()
  | .detection => .ok planFound
  | .detectContent => answer
  | .dialog => .verdictBlock
  | .readFile => []

private def planRuns (t n : Nat) (answer : Option TTDVerdict) :
    List (Move PipelineCall PipelineAnswer) :=
  List.replicate n (.run t (planAnswer answer))

private def connected : PipelineHistory plainEnv :=
  .idle { pipeline := plainPipeline, hasClient := true }

private theorem connected_init : (pipelineHistories plainEnv).init connected :=
  ⟨_, ⟨⟨.insertion, rfl⟩, rfl⟩, rfl⟩

private def notificationOf : PipelineCall → Option FileNotification
  | .onFileNotification notif => some notif
  | _ => none

private def answerOf : TTDOutcome → Option (Option TTDVerdict)
  | .noClient _ => none
  | .rpcError _ => some none
  | .answered verdict => some (some verdict)

/-- A call, with the fallback of each policy and whether it is violated. -/
private structure Brief where
  notif : FileNotification
  policies : List (ResponseAction × Bool)
  answer : Option (Option TTDVerdict)
  reply : PipelineReply
deriving DecidableEq

/-- The call that finished last. -/
private def lastCall (h : PipelineHistory plainEnv) : Option Brief := do
  let x ← h.finished.head?
  let notif ← notificationOf x.1.proc
  let request ← requestOf x.1.trace
  some {
    notif := notif
    policies := request.policies.map fun p =>
      (p.ttdFallback, (plainEnv.evaluator.evaluate p request.detection).triggered)
    answer := answerOf request.outcome
    reply := x.2 }

private theorem exists_unansweredCall {config : DetectionConfig} {h : PipelineHistory plainEnv}
    {answer : Option (Option TTDVerdict)} {reply : PipelineReply} {way : MissingAnswer}
    (hlast : lastCall h = some ⟨planNotif, [(.block, true)], answer, reply⟩)
    (hway : ∀ outcome, answerOf outcome = answer →
      outcome.GoesWith (way.seen config (ttdRequest plainEnv config [] planNotif))) :
    ∃ x : UnansweredCall config h, x.reply = reply ∧ x.violated.ttdFallback = .block := by
  obtain ⟨⟨⟨proc, trace⟩, reply'⟩, hhead, hlast⟩ := Option.bind_eq_some_iff.mp hlast
  obtain ⟨notif, hnotif, hlast⟩ := Option.bind_eq_some_iff.mp hlast
  obtain ⟨⟨detection, policies, outcome⟩, hrequest, hlast⟩ := Option.bind_eq_some_iff.mp hlast
  simp only [Option.some.injEq, Brief.mk.injEq, List.map_eq_singleton_iff, Prod.mk.injEq] at hlast
  obtain ⟨rfl, ⟨violated, rfl, hblock, htriggered⟩, hanswer, rfl⟩ := hlast
  have hcall : proc = .onFileNotification planNotif := by
    cases proc <;> cases hnotif
    rfl
  subst hcall
  exact ⟨⟨planNotif, trace, reply', List.mem_of_mem_head? hhead, _, hrequest, violated,
    ⟨[], [], rfl, htriggered, List.forall_mem_nil _, List.forall_mem_nil _⟩, [], way,
    hway outcome hanswer⟩, rfl, hblock⟩

/-- Meanwhile the policy gets another name, and its fallback is found all the same. -/
theorem twoTierFallback_renamed :
    ∃ h : PipelineHistory plainEnv, ∃ x : UnansweredCall {} h,
      x.reply = .verdict .verdictBlock ∧ x.request.outcome.FallbackAgrees {} x.violated := by
  have hrun : ((pipelineHistories plainEnv).run connected
      ((.start 0 (.updatePolicies [strictPolicy]) :: planRuns 0 4 none) ++
        (.start 0 (.onFileNotification planNotif) :: planRuns 0 19 none) ++
        (.start 1 (.updatePolicies [{ strictPolicy with name := str "plans" }]) ::
          planRuns 1 4 none) ++ planRuns 0 12 none)).map lastCall =
        some (some ⟨planNotif, [(.block, true)], some none, .verdict .verdictBlock⟩) := by
    decide +kernel
  obtain ⟨h, hs, hlast⟩ := Option.map_eq_some_iff.mp hrun
  have hway : ∀ outcome, answerOf outcome = some none →
      outcome.GoesWith ((MissingAnswer.rpcError true).seen {}
        (ttdRequest plainEnv {} [] planNotif)) := by
    intro outcome houtcome
    cases outcome with
    | rpcError later => exact ⟨_, rfl⟩
    | noClient | answered => cases houtcome
  obtain ⟨x, hreply, hblock⟩ := exists_unansweredCall hlast hway
  have hreach := TSys.reachable_run (.init connected_init) _ hs
  refine ⟨h, x, hreply, (twoTierFallback_iff hreach x).mp ?_⟩
  rw [hreply, hblock]
  rfl

/-- The server takes longer than the deadline, and the file passes. -/
theorem not_twoTierFallback :
    ¬ ∀ (env : PipelineEnv) (config : DetectionConfig) (h : PipelineHistory env),
        (pipelineHistories env).Reachable h → ∀ x : UnansweredCall config h,
          x.reply = .verdict (actionToVerdict x.violated.ttdFallback) := by
  intro hclaim
  have hrun : ((pipelineHistories plainEnv).run connected
      ((.start 0 (.updatePolicies [strictPolicy]) :: planRuns 0 4 none) ++
        (.start 0 (.onFileNotification planNotif) :: planRuns 0 25 (some .log)))).map lastCall =
        some (some ⟨planNotif, [(.block, true)], some (some .log), .verdict .verdictAllow⟩) := by
    decide +kernel
  obtain ⟨h, hs, hlast⟩ := Option.map_eq_some_iff.mp hrun
  have hway : ∀ outcome, answerOf outcome = some (some .log) →
      outcome.GoesWith (MissingAnswer.deadlineExceeded.seen {}
        (ttdRequest plainEnv {} [] planNotif)) := by
    intro outcome houtcome
    cases outcome with
    | answered verdict =>
        cases houtcome
        exact ⟨_, rfl, by decide⟩
    | noClient | rpcError => cases houtcome
  obtain ⟨x, hreply, hblock⟩ := exists_unansweredCall hlast hway
  have hverdict := hclaim plainEnv {} h (TSys.reachable_run (.init connected_init) _ hs) x
  rw [hreply, hblock] at hverdict
  exact absurd hverdict (by decide)

end examples

end AkesoDlp.Agent
