import AkesoDlp.Network.DlpAddon

/-!
# The HTTP monitor and its prevent mode

`http_monitor.py`, `http_prevent.py` and the hook of `mitmproxy_entry.py`: which
requests are inspected, what becomes an incident and a line of the incident log, and
which requests are answered with the block page.
-/

namespace AkesoDlp.Network

/-- `str.upper`, and `urlparse(url).hostname or ""` where it does not raise. -/
structure HttpLibrary where
  upper : String → String
  hostname : String → Option String

/-- What the inspection of a request works with. -/
structure HttpEnv where
  inspection : InspectionEnv
  py : PyLibrary
  lib : HttpLibrary

structure HttpIncident where
  timestamp : String
  channel : String := "http_upload"
  sourceType : String := "network"
  url : String
  sourceIp : String
  method : String
  matchCount : Nat
  «matches» : List IncidentMatch
  actionTaken : String := "log"
  messageId : String
deriving DecidableEq

structure HttpMonitor where
  incidents : List HttpIncident := []
  logFile : List HttpIncident := []
deriving DecidableEq

namespace HttpMonitor

def monitoredMethods : List String := ["POST", "PUT", "PATCH"]

def shouldInspect (lib : HttpLibrary) (method _url : String) : Bool :=
  monitoredMethods.contains (lib.upper method)

def createIncident (moment : Moment) (result : InspectionResult) : HttpIncident where
  timestamp := moment.timestamp
  url := result.requestUrl
  sourceIp := result.sourceIp
  method := result.method
  matchCount := result.detection.matchCount
  «matches» := result.detection.matches.map fun m =>
    { analyzer := m.analyzerName
      rule := m.ruleName
      component := m.component.componentType.value
      matchedText := String.ofList (m.matchedText.toList.take 100)
      confidence := m.confidence }
  messageId := result.detection.messageId

/-- An `OSError` is logged and dropped. -/
def logIncident (monitor : HttpMonitor) (moment : Moment) (incident : HttpIncident) :
    HttpMonitor :=
  if moment.logWritable then { monitor with logFile := monitor.logFile ++ [incident] } else monitor

/-- What the inspection of a request finds, if there is one. `shouldInspect` is the
method of the class at hand. -/
def inspect (shouldInspect : String → String → Bool) (env : HttpEnv) (moment : Moment)
    (request : HttpRequest) : Option InspectionResult :=
  if !shouldInspect request.method request.url then none
  else if request.body.isEmpty then none
  else some (DLPAddon.inspectRequest env.inspection env.py moment.messageId request)

def processRequest (monitor : HttpMonitor) (shouldInspect : String → String → Bool)
    (env : HttpEnv) (moment : Moment) (request : HttpRequest) :
    Option InspectionResult × HttpMonitor :=
  match inspect shouldInspect env moment request with
  | none => (none, monitor)
  | some result =>
      if result.hasViolations then
        let incident := createIncident moment result
        let monitor := { monitor with incidents := monitor.incidents ++ [incident] }
        (some result, monitor.logIncident moment incident)
      else (some result, monitor)

end HttpMonitor

/-- An entry of `_blocked_requests`. -/
structure BlockedRequest where
  url : String
  method : String
  sourceIp : String
  matchCount : Nat
deriving DecidableEq, Repr

structure HttpPrevent extends HttpMonitor where
  blockThreshold : Int := 1
  allowlistedDomains : List String := []
  blockPageHtml : String := ""
  blockedRequests : List BlockedRequest := []
deriving DecidableEq

structure HttpResponse where
  status : Nat
  headers : List (String × String)
  body : String
deriving DecidableEq, Repr

namespace HttpPrevent

def isAllowlisted (prevent : HttpPrevent) (lib : HttpLibrary) (url : String) : Bool :=
  match lib.hostname url with
  | none => false
  | some hostname =>
      prevent.allowlistedDomains.any fun domain =>
        hostname == domain || hostname.endsWith ("." ++ domain)

def shouldInspect (prevent : HttpPrevent) (lib : HttpLibrary) (method url : String) : Bool :=
  if !HttpMonitor.shouldInspect lib method url then false else !prevent.isAllowlisted lib url

def shouldBlock (prevent : HttpPrevent) (result : InspectionResult) : Bool :=
  if !result.hasViolations then false
  else decide (prevent.blockThreshold ≤ result.detection.matchCount)

def updateLastIncident (incidents : List HttpIncident) (action : String) : List HttpIncident :=
  incidents.modify (incidents.length - 1) fun incident => { incident with actionTaken := action }

def processRequest (prevent : HttpPrevent) (env : HttpEnv) (moment : Moment)
    (request : HttpRequest) : Option InspectionResult × HttpPrevent :=
  let (result, monitor) :=
    prevent.toHttpMonitor.processRequest (prevent.shouldInspect env.lib) env moment request
  match result with
  | none => (none, { prevent with toHttpMonitor := monitor })
  | some r =>
      if prevent.shouldBlock r then
        (some r, { prevent with
          toHttpMonitor :=
            { monitor with incidents := updateLastIncident monitor.incidents "block" }
          blockedRequests := prevent.blockedRequests ++
            [{ url := request.url
               method := request.method
               sourceIp := request.clientIp
               matchCount := r.detection.matchCount }] })
      else (some r, { prevent with toHttpMonitor := monitor })

def getBlockResponse (prevent : HttpPrevent) : HttpResponse where
  status := 403
  headers := [("Content-Type", "text/html; charset=utf-8")]
  body := prevent.blockPageHtml

/-- The hook `request` in prevent mode: the response that replaces the request, if
there is one. -/
def request (prevent : HttpPrevent) (env : HttpEnv) (moment : Moment) (request : HttpRequest) :
    Option HttpResponse × HttpPrevent :=
  let (result, prevent) := prevent.processRequest env moment request
  match result with
  | none => (none, prevent)
  | some r => (if prevent.shouldBlock r then some prevent.getBlockResponse else none, prevent)

/-- What the inspection of a request finds in prevent mode. -/
def inspect (prevent : HttpPrevent) (env : HttpEnv) (moment : Moment) (request : HttpRequest) :
    Option InspectionResult :=
  HttpMonitor.inspect (prevent.shouldInspect env.lib) env moment request

/-- The part of the state that requests leave alone. -/
def config (prevent : HttpPrevent) : Int × List String × String :=
  (prevent.blockThreshold, prevent.allowlistedDomains, prevent.blockPageHtml)

@[simp] theorem config_processRequest (prevent : HttpPrevent) (env : HttpEnv) (moment : Moment)
    (request : HttpRequest) :
    (prevent.processRequest env moment request).2.config = prevent.config := by
  unfold processRequest
  dsimp only
  split
  · rfl
  · split <;> rfl

theorem config_eq_iff {p q : HttpPrevent} : p.config = q.config ↔
    p.blockThreshold = q.blockThreshold ∧ p.allowlistedDomains = q.allowlistedDomains ∧
      p.blockPageHtml = q.blockPageHtml := by
  simp [config]

theorem shouldBlock_congr {p q : HttpPrevent} (h : p.config = q.config)
    (result : InspectionResult) : p.shouldBlock result = q.shouldBlock result := by
  rw [shouldBlock, shouldBlock, (config_eq_iff.mp h).1]

theorem inspect_congr {p q : HttpPrevent} (h : p.config = q.config) (env : HttpEnv)
    (moment : Moment) (request : HttpRequest) :
    p.inspect env moment request = q.inspect env moment request := by
  have hinspect : p.shouldInspect env.lib = q.shouldInspect env.lib := by
    funext method url
    rw [shouldInspect, shouldInspect, isAllowlisted, isAllowlisted, (config_eq_iff.mp h).2.1]
  rw [inspect, inspect, hinspect]

end HttpPrevent

end AkesoDlp.Network
