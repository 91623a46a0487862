import AkesoDlp.Network.EncodingLayers
import AkesoDlp.Network.SmtpMonitor

/-!
# The inspection of HTTP requests

`dlp_addon.py`: the components that the detection engine sees of a request. A body
that is no form goes in as one text. Of a form the parts right below the message go
in, each with its payload; what lies deeper does not, since the payload of a nested
multipart is empty.
-/

namespace AkesoDlp.Network

open Server (ComponentType MessageComponent ParsedMessage DetectionResult)

structure HttpRequest where
  method : String
  url : String
  headers : List (String × String)
  body : List UInt8
  clientIp : String := "unknown"
deriving DecidableEq, Repr

structure InspectionResult where
  requestUrl : String
  sourceIp : String
  method : String
  detection : DetectionResult
deriving DecidableEq

def InspectionResult.hasViolations (result : InspectionResult) : Bool :=
  result.detection.hasMatches

/-- `headers.get("content-type", headers.get("Content-Type", ""))`. -/
def HttpRequest.contentType (request : HttpRequest) : String :=
  (request.headers.lookup "content-type").getD
    ((request.headers.lookup "Content-Type").getD "")

/-- A field of a form: its name, its file name and its data. -/
structure FormPart where
  fieldName : String
  filename : String
  data : List UInt8
deriving DecidableEq, Repr

/-! ## Forms -/

/-- The class `[^\s;]` of the expression for the boundary. -/
def isBoundaryChar (c : Char) : Bool :=
  !([' ', '\t', '\n', '\r', Char.ofNat 0xB, Char.ofNat 0xC, ';'].contains c)

/-- `re.search(rb"boundary=([^\s;]+)", ...)` finds something. -/
def boundaryGiven (contentType : String) : Bool :=
  contentType.toList.tails.any fun s =>
    "boundary=".toList.isPrefixOf s && ((s.drop "boundary=".length).head?.any isBoundaryChar)

/-- `name="([^"]*)"`, matched at the beginning of `s`. -/
def quotedName (s : List Char) : Option (List Char) :=
  let rest := s.drop "name=\"".length
  if "name=\"".toList.isPrefixOf s && rest.contains '"' then some (rest.takeWhile (· != '"'))
  else none

def fieldName (contentDisposition : String) : String :=
  ((contentDisposition.toList.tails.findSome? quotedName).map String.ofList).getD ""

/-- The message that the parser gets to see. -/
def rawForm (contentType : String) (body : List UInt8) : List UInt8 :=
  Lib.Utf8.encode ("MIME-Version: 1.0\r\nContent-Type: " ++ contentType ++ "\r\n\r\n").toList ++
    body

def formPart (part : EmailMessage) : FormPart where
  fieldName := fieldName (part.get "Content-Disposition" "")
  filename := part.getFilename.getD ""
  data := part.payload

/-- `parse_multipart`. -/
def parseMultipart (env : InspectionEnv) (contentType : String) (body : List UInt8) :
    List FormPart :=
  if boundaryGiven contentType then
    let msg := env.messageFromBytes (rawForm contentType body)
    if msg.isMultipart then msg.iterParts.map formPart else []
  else []

namespace DLPAddon

def formComponent (env : InspectionEnv) (part : FormPart) : MessageComponent :=
  if part.filename ≠ "" then
    { componentType := .attachment
      content := env.decodeUtf8 part.data
      metadata := [("filename", [part.filename]), ("field_name", [part.fieldName]),
        ("size", [toString part.data.length])] }
  else
    { componentType := .body
      content := env.decodeUtf8 part.data
      metadata := [("field_name", [part.fieldName])] }

/-- `"multipart/form-data" in content_type`. -/
def isForm (request : HttpRequest) : Bool :=
  decide ("multipart/form-data".toList <:+: request.contentType.toList)

def envelopeComponent (request : HttpRequest) : MessageComponent where
  componentType := .envelope
  content := "URL: " ++ request.url ++ "\nSource-IP: " ++ request.clientIp ++ "\nMethod: " ++
    request.method
  metadata := [("url", [request.url]), ("source_ip", [request.clientIp])]

def bodyComponents (env : InspectionEnv) (request : HttpRequest) : List MessageComponent :=
  if isForm request then
    (parseMultipart env request.contentType request.body).map (formComponent env)
  else
    [{ componentType := .body
       content := env.decodeUtf8 request.body
       metadata := [("content_type", [request.contentType])] }]

/-- The decoded variants of a component, the original left out. -/
def normalizedComponents (py : PyLibrary) (component : MessageComponent) : List MessageComponent :=
  if component.componentType ∈ [ComponentType.body, .attachment, .subject] then
    (ContentNormalizer.normalize py component.content.toList).tail.map fun variant =>
      { componentType := component.componentType
        content := String.ofList variant
        metadata := component.metadata ++
          [("normalized", ["True"]), ("original_component", [component.name])] }
  else []

/-- The message that `inspect_request` hands to the engine. -/
def requestMessage (env : InspectionEnv) (py : PyLibrary) (messageId : String)
    (request : HttpRequest) : ParsedMessage :=
  let components := envelopeComponent request :: bodyComponents env request
  { messageId := messageId
    components := components ++ components.flatMap (normalizedComponents py)
    metadata := [("channel", ["http_upload"]), ("url", [request.url]),
      ("method", [request.method]), ("source_ip", [request.clientIp])] }

def inspectRequest (env : InspectionEnv) (py : PyLibrary) (messageId : String)
    (request : HttpRequest) : InspectionResult where
  requestUrl := request.url
  sourceIp := request.clientIp
  method := request.method
  detection := env.detect (requestMessage env py messageId request)

/-! ## What the engine sees -/

section

variable (env : InspectionEnv) (py : PyLibrary) (messageId : String) (request : HttpRequest)

/-- Of a form that cannot be split nothing but the envelope is seen. -/
theorem components_unsplit (hform : isForm request = true)
    (hunsplit : boundaryGiven request.contentType = false ∨
      (env.messageFromBytes (rawForm request.contentType request.body)).isMultipart = false) :
    (requestMessage env py messageId request).components = [envelopeComponent request] := by
  have hbody : bodyComponents env request = [] := by
    rw [bodyComponents, if_pos hform, parseMultipart]
    rcases hunsplit with hunsplit | hunsplit <;> simp [hunsplit]
  have henvelope : normalizedComponents py (envelopeComponent request) = [] := by
    rw [normalizedComponents, if_neg (by simp [envelopeComponent])]
  simp [requestMessage, hbody, henvelope]

end

/-- A parser that returns `msg`, and an engine that finds nothing. -/
def sampleEnv (msg : EmailMessage) : InspectionEnv where
  messageFromBytes _ := msg
  decodeUtf8 bytes := String.ofList (Lib.Utf8.decodeReplace bytes)
  detect message := { messageId := message.messageId }

def sampleField : EmailMessage :=
  .leaf [("Content-Disposition", "form-data; name=\"secret\"")] "text/plain" none
    (Lib.Utf8.encode "SSN: 123-45-6789".toList)

def sampleRequest (contentType : String) (body : List Char) : HttpRequest where
  method := "POST"
  url := "https://example.com/upload"
  headers := [("content-type", contentType)]
  body := Lib.Utf8.encode body

end DLPAddon

end AkesoDlp.Network
