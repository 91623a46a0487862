import AkesoDlp.Network.EmailMessage
import AkesoDlp.Server.DetectionModels

/-!
# The SMTP monitor

`smtp_monitor.py`: an email is split into components, the detection engine sees
them, and a violation becomes an incident and a line of the incident log. The
parser of the standard library and the engine are parameters.
-/

namespace AkesoDlp.Network

open Server (ComponentType MessageComponent ParsedMessage DetectionResult)

/-- `decodeUtf8` is `payload.decode("utf-8", errors="replace")`. -/
structure InspectionEnv where
  messageFromBytes : List UInt8 → EmailMessage
  decodeUtf8 : List UInt8 → String
  detect : ParsedMessage → DetectionResult

/-- What a call finds: the id that `uuid4` draws, the time, and whether the log
file can be written. -/
structure Moment where
  messageId : String := ""
  timestamp : String := ""
  logWritable : Bool := true
deriving DecidableEq, Repr

structure EmailEnvelope where
  mailFrom : String
  rcptTos : List String
  peer : String × Nat := ("unknown", 0)
deriving DecidableEq, Repr

structure EmailInspectionResult where
  envelope : EmailEnvelope
  subject : String
  detection : DetectionResult
  attachmentCount : Nat := 0
deriving DecidableEq

def EmailInspectionResult.hasViolations (result : EmailInspectionResult) : Bool :=
  result.detection.hasMatches

/-- An entry of `matches` in an incident. -/
structure IncidentMatch where
  analyzer : String
  rule : String
  component : String
  matchedText : String
  confidence : ℚ
deriving DecidableEq

structure Incident where
  timestamp : String
  channel : String := "email"
  sourceType : String := "network"
  mailFrom : String
  rcptTos : List String
  subject : String
  sourceIp : String
  matchCount : Nat
  «matches» : List IncidentMatch
  attachmentCount : Nat
  actionTaken : String := "log"
  messageId : String
deriving DecidableEq

structure SmtpMonitor where
  upstreamHost : String := "localhost"
  upstreamPort : Nat := 1025
  incidents : List Incident := []
  logFile : List Incident := []
deriving DecidableEq

namespace SmtpMonitor

/-- The result of `_parse_email`. -/
structure ParsedEmail where
  message : ParsedMessage
  subject : String
  attachmentCount : Nat
deriving DecidableEq

def envelopeComponent (envelope : EmailEnvelope) (msg : EmailMessage) : MessageComponent where
  componentType := .envelope
  content := "From: " ++ envelope.mailFrom ++ "\n" ++
    "To: " ++ ", ".intercalate envelope.rcptTos ++ "\n" ++
    "Reply-To: " ++ msg.get "Reply-To" "" ++ "\n" ++
    "X-Mailer: " ++ msg.get "X-Mailer" "" ++ "\n"
  metadata := [("mail_from", [envelope.mailFrom]), ("rcpt_tos", envelope.rcptTos)]

/-- `"attachment" in content_disposition or part.get_filename()`. -/
def isAttachment (part : EmailMessage) : Bool :=
  decide ("attachment".toList <:+: (part.get "Content-Disposition" "").toList) ||
    (part.getFilename.any fun name => !name.isEmpty)

/-- One part in the loop over a multipart message. -/
def partComponent (env : InspectionEnv) (part : EmailMessage) : Option MessageComponent :=
  if isAttachment part then
    let filename := (part.getFilename.filter fun name => !name.isEmpty).getD "unnamed"
    some {
      componentType := .attachment
      content := env.decodeUtf8 part.payload
      metadata := [("filename", [filename]), ("content_type", [part.getContentType]),
        ("size", [toString part.payload.length])] }
  else if part.getContentType == "text/plain" || part.getContentType == "text/html" then
    some {
      componentType := .body
      content := env.decodeUtf8 part.payload
      metadata := [("content_type", [part.getContentType])] }
  else none

def bodyComponents (env : InspectionEnv) (msg : EmailMessage) : List MessageComponent :=
  if msg.isMultipart then msg.walk.filterMap (partComponent env)
  else
    [{ componentType := .body
       content := env.decodeUtf8 msg.payload
       metadata := [("content_type", [msg.getContentType])] }]

def parseEmail (env : InspectionEnv) (moment : Moment) (envelope : EmailEnvelope)
    (msg : EmailMessage) : ParsedEmail :=
  let subject := msg.get "Subject" ""
  let subjects : List MessageComponent :=
    if subject.isEmpty then [] else [{ componentType := .subject, content := subject }]
  { message :=
      { messageId := moment.messageId
        components := envelopeComponent envelope msg :: subjects ++ bodyComponents env msg
        metadata := [("channel", ["email"]), ("mail_from", [envelope.mailFrom]),
          ("rcpt_tos", envelope.rcptTos), ("source_ip", [envelope.peer.1])] }
    subject := subject
    attachmentCount := if msg.isMultipart then msg.walk.countP isAttachment else 0 }

def createIncident (moment : Moment) (result : EmailInspectionResult) : Incident where
  timestamp := moment.timestamp
  mailFrom := result.envelope.mailFrom
  rcptTos := result.envelope.rcptTos
  subject := result.subject
  sourceIp := result.envelope.peer.1
  matchCount := result.detection.matchCount
  «matches» := result.detection.matches.map fun m =>
    { analyzer := m.analyzerName
      rule := m.ruleName
      component := m.component.componentType.value
      matchedText := String.ofList (m.matchedText.toList.take 100)
      confidence := m.confidence }
  attachmentCount := result.attachmentCount
  messageId := result.detection.messageId

/-- An `OSError` is logged and dropped. -/
def logIncident (monitor : SmtpMonitor) (moment : Moment) (incident : Incident) : SmtpMonitor :=
  if moment.logWritable then { monitor with logFile := monitor.logFile ++ [incident] } else monitor

/-- What the inspection of an email finds. -/
def inspect (env : InspectionEnv) (moment : Moment) (envelope : EmailEnvelope)
    (rawData : List UInt8) : EmailInspectionResult :=
  let parsed := parseEmail env moment envelope (env.messageFromBytes rawData)
  { envelope := envelope
    subject := parsed.subject
    detection := env.detect parsed.message
    attachmentCount := parsed.attachmentCount }

def processEmail (monitor : SmtpMonitor) (env : InspectionEnv) (moment : Moment)
    (envelope : EmailEnvelope) (rawData : List UInt8) : EmailInspectionResult × SmtpMonitor :=
  let result := inspect env moment envelope rawData
  if result.hasViolations then
    let incident := createIncident moment result
    let monitor := { monitor with incidents := monitor.incidents ++ [incident] }
    (result, monitor.logIncident moment incident)
  else (result, monitor)

theorem processEmail_fst (monitor : SmtpMonitor) (env : InspectionEnv) (moment : Moment)
    (envelope : EmailEnvelope) (rawData : List UInt8) :
    (monitor.processEmail env moment envelope rawData).1 =
      inspect env moment envelope rawData := by
  unfold processEmail
  dsimp only
  split <;> rfl

end SmtpMonitor

end AkesoDlp.Network
