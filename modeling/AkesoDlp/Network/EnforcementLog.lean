import AkesoDlp.Network.HttpMonitor
import AkesoDlp.Network.SmtpPrevent

/-!
# The incident logs in prevent mode

Both prevent classes let their monitor build the incident and write it to the log,
and then put the action into the incident that is kept in memory. So every line of
the logs says `log`, and the logs agree with what was decided exactly on runs in
which nothing else was decided.
-/

namespace AkesoDlp.Network

/-- The string value of the enum member. -/
def SmtpAction.value : SmtpAction → String
  | .pass => "pass"
  | .log => "log"
  | .block => "block"
  | .modify => "modify"
  | .redirect => "redirect"

/-- The two proxies, each with its own log. -/
structure Proxies where
  http : HttpPrevent
  smtp : SmtpPrevent

/-- What the proxies process, one after the other. -/
inductive Traffic
  | request (moment : Moment) (request : HttpRequest)
  | email (moment : Moment) (envelope : EmailEnvelope) (rawData : List UInt8)

def Traffic.moment : Traffic → Moment
  | request moment _ => moment
  | email moment _ _ => moment

namespace Proxies

section

variable (env : HttpEnv)

def step (proxies : Proxies) : Traffic → Proxies
  | .request moment request =>
      { proxies with http := (proxies.http.processRequest env moment request).2 }
  | .email moment envelope rawData =>
      { proxies with
        smtp := (proxies.smtp.processEmail env.inspection moment envelope rawData).2 }

def run (proxies : Proxies) (traffic : List Traffic) : Proxies := traffic.foldl (step env) proxies

/-- The action decided for a violating request. -/
def decidedRequest (proxies : Proxies) : Traffic → Option String
  | .request moment request =>
      match proxies.http.inspect env moment request with
      | none => none
      | some result =>
          if result.hasViolations then
            some (if proxies.http.shouldBlock result then "block" else "log")
          else none
  | .email .. => none

/-- The action decided for a violating email. -/
def decidedEmail (proxies : Proxies) : Traffic → Option String
  | .request .. => none
  | .email moment envelope rawData =>
      let result := SmtpMonitor.inspect env.inspection moment envelope rawData
      if result.hasViolations then some (proxies.smtp.determineAction result).value else none

/-- The lines of both logs hold the actions that were decided, one after the other. -/
def LogsAgree (proxies : Proxies) (traffic : List Traffic) : Prop :=
  (proxies.run env traffic).http.logFile.map (·.actionTaken) =
      traffic.filterMap (proxies.decidedRequest env) ∧
    (proxies.run env traffic).smtp.logFile.map (·.actionTaken) =
      traffic.filterMap (proxies.decidedEmail env)

/-- A violating request stays below `block_threshold`, a violating email below it and
below `modify_threshold`, unless the default action is to log. -/
def StaysBelow (proxies : Proxies) : Traffic → Prop
  | .request moment request =>
      ∀ result, proxies.http.inspect env moment request = some result →
        result.hasViolations = true → result.detection.matchCount < proxies.http.blockThreshold
  | .email moment envelope rawData =>
      let result := SmtpMonitor.inspect env.inspection moment envelope rawData
      result.hasViolations = true →
        result.detection.matchCount < proxies.smtp.blockThreshold ∧
          (result.detection.matchCount < proxies.smtp.modifyThreshold ∨
            proxies.smtp.defaultAction = .log)

/-! ## One step -/

/-- What the decisions depend on. -/
def SameConfig (p q : Proxies) : Prop :=
  p.http.config = q.http.config ∧ p.smtp.blockThreshold = q.smtp.blockThreshold ∧
    p.smtp.modifyThreshold = q.smtp.modifyThreshold ∧
      p.smtp.defaultAction = q.smtp.defaultAction

theorem sameConfig_step (proxies : Proxies) (t : Traffic) :
    SameConfig (proxies.step env t) proxies := by
  cases t with
  | request moment request =>
      exact ⟨proxies.http.config_processRequest env moment request, rfl, rfl, rfl⟩
  | email => exact ⟨rfl, rfl, rfl, rfl⟩

variable {env}

theorem decidedRequest_congr {p q : Proxies} (h : SameConfig p q) :
    p.decidedRequest env = q.decidedRequest env := by
  funext t
  cases t with
  | email => rfl
  | request moment request =>
      have hblock : p.http.shouldBlock = q.http.shouldBlock :=
        funext (HttpPrevent.shouldBlock_congr h.1)
      rw [decidedRequest, decidedRequest, HttpPrevent.inspect_congr h.1, hblock]

theorem decidedEmail_congr {p q : Proxies} (h : SameConfig p q) :
    p.decidedEmail env = q.decidedEmail env := by
  obtain ⟨-, hblock, hmodify, hdefault⟩ := h
  funext t
  cases t with
  | request => rfl
  | email moment envelope rawData =>
      simp only [decidedEmail, SmtpPrevent.determineAction, hblock, hmodify, hdefault]

variable (env)

theorem logFile_processRequest (monitor : HttpMonitor) (shouldInspect : String → String → Bool)
    (moment : Moment) (request : HttpRequest) (hwrite : moment.logWritable = true) :
    (monitor.processRequest shouldInspect env moment request).2.logFile.map (·.actionTaken) =
      monitor.logFile.map (·.actionTaken) ++
        (((HttpMonitor.inspect shouldInspect env moment request).filter
          InspectionResult.hasViolations).map fun _ => "log").toList := by
  unfold HttpMonitor.processRequest
  cases HttpMonitor.inspect shouldInspect env moment request with
  | none => simp
  | some result =>
      cases hviolations : result.hasViolations with
      | false => simp [hviolations]
      | true =>
          simp [hviolations, HttpMonitor.logIncident, hwrite, HttpMonitor.createIncident,
            Option.filter]

/-- Whatever is decided, the line that a violating request adds says `log`. -/
theorem http_step (proxies : Proxies) (t : Traffic) (hwrite : t.moment.logWritable = true) :
    (proxies.step env t).http.logFile.map (·.actionTaken) =
      proxies.http.logFile.map (·.actionTaken) ++
        ((proxies.decidedRequest env t).map fun _ => "log").toList := by
  cases t with
  | email => simp [step, decidedRequest]
  | request moment request =>
      have hlog := logFile_processRequest env proxies.http.toHttpMonitor
        (proxies.http.shouldInspect env.lib) moment request hwrite
      have hsame : (proxies.http.processRequest env moment request).2.logFile =
          (proxies.http.toHttpMonitor.processRequest (proxies.http.shouldInspect env.lib) env
            moment request).2.logFile := by
        unfold HttpPrevent.processRequest
        dsimp only
        split
        · rfl
        · split <;> rfl
      rw [step, hsame, hlog, decidedRequest, HttpPrevent.inspect]
      congr 1
      cases HttpMonitor.inspect (proxies.http.shouldInspect env.lib) env moment request with
      | none => rfl
      | some result => cases hviolations : result.hasViolations <;> simp [hviolations]

/-- The same for an email. -/
theorem smtp_step (proxies : Proxies) (t : Traffic) (hwrite : t.moment.logWritable = true) :
    (proxies.step env t).smtp.logFile.map (·.actionTaken) =
      proxies.smtp.logFile.map (·.actionTaken) ++
        ((proxies.decidedEmail env t).map fun _ => "log").toList := by
  cases t with
  | request => simp [step, decidedEmail]
  | email moment envelope rawData =>
      have hsame : (proxies.smtp.processEmail env.inspection moment envelope rawData).2.logFile =
          (proxies.smtp.toSmtpMonitor.processEmail env.inspection moment envelope
            rawData).2.logFile := rfl
      rw [step, hsame, SmtpMonitor.processEmail]
      simp only [decidedEmail]
      cases hviolations :
          (SmtpMonitor.inspect env.inspection moment envelope rawData).hasViolations with
      | false => simp
      | true =>
          have hwrite : moment.logWritable = true := hwrite
          simp [SmtpMonitor.logIncident, hwrite, SmtpMonitor.createIncident]

/-! ## The run -/

/-- The logs of a run: a line that says `log` for every violation. -/
theorem logs_run (proxies : Proxies) (traffic : List Traffic)
    (hwrite : ∀ t ∈ traffic, t.moment.logWritable = true) :
    (proxies.run env traffic).http.logFile.map (·.actionTaken) =
        proxies.http.logFile.map (·.actionTaken) ++
          (traffic.filterMap (proxies.decidedRequest env)).map (fun _ => "log") ∧
      (proxies.run env traffic).smtp.logFile.map (·.actionTaken) =
        proxies.smtp.logFile.map (·.actionTaken) ++
          (traffic.filterMap (proxies.decidedEmail env)).map fun _ => "log" := by
  induction traffic generalizing proxies with
  | nil => simp [run]
  | cons t traffic ih =>
      rw [List.forall_mem_cons] at hwrite
      have hconfig := sameConfig_step env proxies t
      have hrun : proxies.run env (t :: traffic) = (proxies.step env t).run env traffic := rfl
      obtain ⟨hhttp, hsmtp⟩ := ih (proxies.step env t) hwrite.2
      rw [http_step env proxies t hwrite.1, decidedRequest_congr hconfig] at hhttp
      rw [smtp_step env proxies t hwrite.1, decidedEmail_congr hconfig] at hsmtp
      rw [hrun, hhttp, hsmtp, List.filterMap_cons, List.filterMap_cons]
      constructor
      · cases proxies.decidedRequest env t <;> simp
      · cases proxies.decidedEmail env t <;> simp

theorem map_log_eq_self_iff (actions : List String) :
    actions.map (fun _ => "log") = actions ↔ ∀ action ∈ actions, action = "log" := by
  induction actions with
  | nil => simp
  | cons action actions ih =>
      rw [List.map_cons, List.cons.injEq, ih, List.forall_mem_cons, eq_comm]

theorem staysBelow_iff (proxies : Proxies) (t : Traffic) :
    proxies.StaysBelow env t ↔ (∀ action, proxies.decidedRequest env t = some action →
      action = "log") ∧ ∀ action, proxies.decidedEmail env t = some action → action = "log" := by
  cases t with
  | request moment request =>
      simp only [StaysBelow, decidedRequest, decidedEmail, reduceCtorEq, false_implies,
        implies_true, and_true]
      cases proxies.http.inspect env moment request with
      | none => simp
      | some result =>
          cases hviolations : result.hasViolations with
          | false => simp [hviolations]
          | true => simp [hviolations, HttpPrevent.shouldBlock]
  | email moment envelope rawData =>
      simp only [StaysBelow, decidedRequest, decidedEmail, reduceCtorEq, false_implies,
        implies_true, true_and]
      have hvalue : ∀ action : SmtpAction, action.value = "log" ↔ action = .log := by
        intro action
        cases action <;> decide
      cases hviolations :
          (SmtpMonitor.inspect env.inspection moment envelope rawData).hasViolations with
      | false => simp
      | true =>
          simp only [true_implies, if_true, Option.some.injEq, forall_eq', hvalue,
            SmtpPrevent.determineAction, hviolations, Bool.not_true, Bool.false_eq_true,
            if_false]
          split
          · next hblock => simp [Int.not_lt.mpr hblock]
          · next hblock =>
              split
              · next hmodify => simp [Int.not_le.mp hblock, Int.not_lt.mpr hmodify]
              · next hmodify => simp [Int.not_le.mp hblock, Int.not_le.mp hmodify]

/-- The logs agree with the decisions exactly on the runs in which every violation
stays below the thresholds. -/
theorem logsAgree_iff (env : HttpEnv) (proxies : Proxies) (traffic : List Traffic)
    (hhttp : proxies.http.logFile = []) (hsmtp : proxies.smtp.logFile = [])
    (hwrite : ∀ t ∈ traffic, t.moment.logWritable = true) :
    proxies.LogsAgree env traffic ↔ ∀ t ∈ traffic, proxies.StaysBelow env t := by
  obtain ⟨hhttpLog, hsmtpLog⟩ := logs_run env proxies traffic hwrite
  rw [hhttp, List.map_nil, List.nil_append] at hhttpLog
  rw [hsmtp, List.map_nil, List.nil_append] at hsmtpLog
  rw [LogsAgree, hhttpLog, hsmtpLog, map_log_eq_self_iff, map_log_eq_self_iff]
  simp only [List.mem_filterMap, forall_exists_index, and_imp, staysBelow_iff]
  constructor
  · intro h t ht
    exact ⟨fun action => h.1 action t ht, fun action => h.2 action t ht⟩
  · intro h
    exact ⟨fun action t ht => (h t ht).1 action, fun action t ht => (h t ht).2 action⟩

end

/-- An engine that finds one match in every message. -/
def sampleEnv : HttpEnv where
  inspection :=
    { messageFromBytes := fun bytes => .leaf [] "text/plain" none bytes
      decodeUtf8 := fun bytes => String.ofList (Lib.Utf8.decodeReplace bytes)
      detect := fun message =>
        { messageId := message.messageId
          «matches» := message.components.head?.toList.map fun component =>
            { analyzerName := "keyword"
              ruleName := "URL"
              component := component
              matchedText := "example"
              startOffset := 0
              endOffset := 7 } } }
  py := ContentNormalizer.asciiLibrary
  lib := { upper := String.toUpper, hostname := fun _ => some "example.com" }

def sampleTraffic : List Traffic :=
  [.request { messageId := "1" }
      { method := "POST", url := "https://example.com/", headers := [], body := [72, 105] },
    .email { messageId := "2" } { mailFrom := "a@x", rcptTos := ["b@y"] } [72, 105]]

def laxProxies : Proxies where
  http := { blockThreshold := 2 }
  smtp := { blockThreshold := 2, modifyThreshold := 2 }

theorem logsAgree_sample : laxProxies.LogsAgree sampleEnv sampleTraffic := by
  have hrequests : sampleTraffic.filterMap (laxProxies.decidedRequest sampleEnv) = ["log"] := by
    decide +kernel
  have hemails : sampleTraffic.filterMap (laxProxies.decidedEmail sampleEnv) = ["log"] := by
    decide +kernel
  refine (logsAgree_iff sampleEnv laxProxies sampleTraffic rfl rfl (by decide)).mpr fun t ht => ?_
  refine (staysBelow_iff sampleEnv laxProxies t).mpr ⟨fun action h => ?_, fun action h => ?_⟩
  · exact List.mem_singleton.mp (hrequests ▸ List.mem_filterMap.mpr ⟨t, ht, h⟩)
  · exact List.mem_singleton.mp (hemails ▸ List.mem_filterMap.mpr ⟨t, ht, h⟩)

/-- The blocked request and the modified email are logged as logged. -/
theorem not_logsAgree_blocked :
    sampleTraffic.filterMap (decidedRequest sampleEnv { http := {}, smtp := {} }) = ["block"] ∧
      sampleTraffic.filterMap (decidedEmail sampleEnv { http := {}, smtp := {} }) = ["modify"] ∧
        ¬ LogsAgree sampleEnv { http := {}, smtp := {} } sampleTraffic := by
  refine ⟨by decide +kernel, by decide +kernel, fun h => ?_⟩
  have hlog := h.1
  exact absurd hlog (by decide +kernel)

end Proxies

end AkesoDlp.Network
