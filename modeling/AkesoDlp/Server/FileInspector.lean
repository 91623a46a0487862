import AkesoDlp.Server.DetectionModels
import AkesoDlp.Server.PyPath

/-!
# The file inspector

`server/detection/file_inspector.py`: a file goes by its extension to one of the
format handlers, or is read as text. A handler is a function of the file's bytes
and name: it adds components and may then raise. `chardet` and the codecs are
parameters as well.
-/

namespace AkesoDlp.Server.Inspector

abbrev Bytes := List UInt8

/-- A metadata value. -/
inductive MetaValue
  | str (s : PyStr)
  | int (n : Nat)
  | bytes (b : Bytes)
deriving DecidableEq

/-- A `MessageComponent` as the inspectors build it. -/
structure Component where
  componentType : ComponentType
  content : PyStr
  metadata : List (PyStr × MetaValue)
deriving DecidableEq

def maxFileSize : Nat := 100 * 1024 * 1024

def maxComponentText : Nat := 10 * 1024 * 1024

/-- The methods that `_HANDLERS` names. -/
inductive Handler
  | extractPdf
  | extractDocx
  | extractXlsx
  | extractPptx
  | extractEml
  | extractHtml
deriving DecidableEq, Repr

def handlers : List (PyStr × Handler) :=
  [(py ".pdf", .extractPdf), (py ".docx", .extractDocx), (py ".xlsx", .extractXlsx),
    (py ".pptx", .extractPptx), (py ".eml", .extractEml), (py ".html", .extractHtml),
    (py ".htm", .extractHtml)]

def textExtensions : List PyStr :=
  [py ".txt", py ".log", py ".md", py ".csv", py ".tsv", py ".json", py ".xml", py ".yaml",
    py ".yml", py ".ini", py ".cfg", py ".conf", py ".py", py ".js", py ".ts", py ".java",
    py ".c", py ".cpp", py ".h", py ".hpp", py ".cs", py ".go", py ".rs", py ".rb", py ".php",
    py ".sh", py ".bat", py ".ps1", py ".sql", py ".rtf"]

/-- What `chardet.detect` answers. -/
structure Detected where
  encoding : Option PyStr
  confidence : ℚ

/-- The libraries under the inspector. -/
structure Readers where
  /-- The components that a handler adds, and the exception that ends it. -/
  handle : Handler → Bytes → PyStr → List Component × Option PyStr
  detect : Bytes → Detected
  /-- `bytes.decode(encoding, errors="replace")`: an unknown encoding raises. -/
  decode : PyStr → Bytes → Except PyStr PyStr

/-- `_truncate`. -/
def truncate (s : PyStr) : PyStr :=
  if s.length > maxComponentText then s.take maxComponentText ++ py "\n[TRUNCATED]" else s

/-- `_looks_like_text`: under five per cent of the first 8 KiB is neither
printable ASCII nor common white space nor above 127. -/
def looksLikeText (content : Bytes) : Bool :=
  let sample := content.take 8192
  let nonText := sample.countP fun b =>
    !((0x20 ≤ b && b < 0x7F) || b == 0x09 || b == 0x0A || b == 0x0D) && b < 0x80
  sample != [] && nonText * 20 < sample.length

variable (readers : Readers)

/-- `_detect_encoding`. -/
def detectEncoding (content : Bytes) : PyStr :=
  if content = [] then py "utf-8"
  else
    let result := readers.detect content
    let encoding := match result.encoding with
      | none | some [] => py "utf-8"
      | some encoding => encoding
    let encoding := if result.confidence < 1 / 2 then py "utf-8" else encoding
    (lower encoding).map fun c => if c = '-' then '_' else c

/-- `_extract_text`. -/
def extractText (content : Bytes) (filename : PyStr) : Except PyStr (List Component) :=
  let encoding := detectEncoding readers content
  match readers.decode encoding content with
  | .error exc => .error exc
  | .ok text =>
      if isBlank text then .ok []
      else .ok [⟨.body, truncate text,
        [(py "filename", .str filename), (py "encoding", .str encoding),
          (py "source", .str (py "text"))]⟩]

/-- `FileInspector.inspect`: the components of the message, or the exception that
the decoding raised. -/
def FileInspector.inspect (content : Bytes) (filename : PyStr) : Except PyStr (List Component) :=
  if content.length > maxFileSize then
    .ok [⟨.generic, py "[File too large: " ++ decimal content.length ++ py " bytes]",
      [(py "filename", .str filename), (py "error", .str (py "exceeds_max_size"))]⟩]
  else
    let ext := lower (pathSuffix filename)
    match handlers.lookup ext with
    | some handler =>
        match readers.handle handler content filename with
        | (components, none) => .ok components
        | (components, some exc) =>
            .ok (components ++ [⟨.generic, py "[Extraction failed: " ++ exc ++ py "]",
              [(py "filename", .str filename), (py "error", .str exc)]⟩])
    | none =>
        if textExtensions.contains ext || looksLikeText content then
          extractText readers content filename
        else
          .ok [⟨.attachment, [],
            [(py "filename", .str filename), (py "size", .int content.length),
              (py "content_bytes", .bytes content), (py "note", .str (py "unsupported_format"))]⟩]

end AkesoDlp.Server.Inspector
