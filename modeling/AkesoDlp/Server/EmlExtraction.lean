import AkesoDlp.Lib.Lists
import AkesoDlp.Lib.Utf8
import AkesoDlp.Server.EmlMessage

/-!
# Extraction from EML files

`FileInspector._extract_eml`: the envelope, the subject, the one body that `get_body`
chooses, and the parts that `iter_attachments` lists. Files among the attachments go
through `inspect` again; the interpreter's stack bounds how deep. The parser of mail and
the tokenizer under `_HTMLTextExtractor` are parameters.

Each leaf of the message has to be the chosen body or a listed attachment itself. What
else there is, the second of two alternatives, the parts of a nested multipart or of an
attached message, is not looked at; nor is a chosen body without header fields, nor what
the tokenizer of an HTML body holds back, since nobody calls `close`.
-/

namespace AkesoDlp.Server.Inspector

open Lib

/-! ## Text of HTML -/

inductive HtmlEvent
  | starttag (tag : PyStr)
  | endtag (tag : PyStr)
  | data (data : PyStr)
deriving DecidableEq

/-- The state of `_HTMLTextExtractor`. -/
structure HTMLTextExtractor where
  text : List PyStr := []
  skip : Bool := false

namespace HTMLTextExtractor

def handle (extractor : HTMLTextExtractor) : HtmlEvent → HTMLTextExtractor
  | .starttag tag =>
      if tag = py "script" ∨ tag = py "style" then { extractor with skip := true } else extractor
  | .endtag tag =>
      let extractor :=
        if tag = py "script" ∨ tag = py "style" then { extractor with skip := false }
        else extractor
      if [py "p", py "br", py "div", py "h1", py "h2", py "h3", py "h4", py "h5", py "h6",
          py "li", py "tr"].contains tag then
        { extractor with text := extractor.text ++ [py "\n"] }
      else extractor
  | .data data =>
      if extractor.skip then extractor else { extractor with text := extractor.text ++ [data] }

/-- `"".join(self._text).strip()`. -/
def getText (extractor : HTMLTextExtractor) : PyStr :=
  ((extractor.text.flatten.dropWhile isSpace).reverse.dropWhile isSpace).reverse

end HTMLTextExtractor

/-! ## The handler -/

/-- The other handlers and codecs, the parser of mail, the events that `HTMLParser.feed`
reports of a document, and those that `close` reports after it: what could have been the
start of a reference or a tag is held back until then. -/
structure EmlReaders where
  readers : Readers
  messageFromBytes : Bytes → EmlPart
  feed : PyStr → List HtmlEvent
  close : PyStr → List HtmlEvent

section

variable (lib : EmlReaders)

def htmlText (source : PyStr) : PyStr :=
  ((lib.feed source).foldl HTMLTextExtractor.handle {}).getText

def envelopeParts (eml : EmlPart) : List PyStr :=
  [py "From", py "To", py "Cc", py "Bcc", py "Date", py "Message-ID"].filterMap fun header =>
    match eml.get header with
    | none | some [] => none
    | some val => some (header ++ py ": " ++ val)

def extractEnvelope (eml : EmlPart) (filename : PyStr) : List Component :=
  if envelopeParts eml = [] then []
  else
    [⟨.envelope, (py "\n").intercalate (envelopeParts eml),
      [(py "filename", .str filename), (py "source", .str (py "eml_envelope"))]⟩]

def extractSubject (eml : EmlPart) (filename : PyStr) : List Component :=
  let subject := (eml.get (py "Subject")).getD []
  if subject = [] then []
  else
    [⟨.subject, subject,
      [(py "filename", .str filename), (py "source", .str (py "eml_subject"))]⟩]

/-- The body's component; a chosen body is text. -/
def extractBody (eml : EmlPart) (filename : PyStr) : Except PyStr (List Component) :=
  match eml.getBody with
  | none => .ok []
  | some body =>
      -- `if body` asks for its length
      if body.len = 0 then .ok []
      else do
        match ← body.getContent lib.readers.decode with
        | .str content =>
            let content :=
              if body.getContentType = py "text/html" then htmlText lib content else content
            if isBlank content then return []
            else
              return [⟨.body, truncate content,
                [(py "filename", .str filename), (py "content_type", .str body.getContentType),
                  (py "source", .str (py "eml_body"))]⟩]
        | _ => return []

variable (inspect : Bytes → PyStr → Except PyStr (List Component))

def attachmentName (part : EmlPart) : PyStr :=
  match part.info.filename with
  | none | some [] => py "unnamed_attachment"
  | some filename => filename

/-- `"\n".join(c.content for c in sub_msg.components if c.content)`. -/
def joinContents (components : List Component) : PyStr :=
  (py "\n").intercalate ((components.map (·.content)).filter (· ≠ []))

/-- `att_bytes` and `att_text`. -/
def readAttachment (part : EmlPart) : Except PyStr (Bytes × PyStr) := do
  match ← part.getContent lib.readers.decode with
  | .str content => return (Utf8.encode content, content)
  | .bytes data => return (data, joinContents (← inspect data (attachmentName part)))
  | .message _ => return ([], [])

def attachmentComponent (part : EmlPart) (data : Bytes) (text : PyStr) : Component :=
  ⟨.attachment, if text = [] then [] else truncate text,
    [(py "filename", .str (attachmentName part)), (py "size", .int data.length),
      (py "content_bytes", .bytes data), (py "content_type", .str part.getContentType),
      (py "source", .str (py "eml_attachment"))]⟩

/-- The loop over the attachments: the components added, and the exception that ended
it. -/
def extractAttachments : List EmlPart → List Component × Option PyStr
  | [] => ([], none)
  | part :: rest =>
      match readAttachment lib inspect part with
      | .error exc => ([], some exc)
      | .ok (data, text) =>
          let (components, exc) := extractAttachments rest
          (attachmentComponent part data text :: components, exc)

/-- `_extract_eml` of a parsed message: what it adds, and the exception that ended it. -/
def extractParsed (eml : EmlPart) (filename : PyStr) : List Component × Option PyStr :=
  let headers := extractEnvelope eml filename ++ extractSubject eml filename
  match extractBody lib eml filename with
  | .error exc => (headers, some exc)
  | .ok body =>
      match eml.iterAttachments with
      | .error exc => (headers ++ body, some exc)
      | .ok parts =>
          let (attachments, exc) := extractAttachments lib inspect parts
          (headers ++ body ++ attachments, exc)

end

variable (lib : EmlReaders)

/-- `FileInspector.inspect` with so many nested calls left on the stack. -/
def EmlReaders.inspect : Nat → Bytes → PyStr → Except PyStr (List Component)
  | 0, _, _ => .error (py "maximum recursion depth exceeded")
  | depth + 1, content, filename =>
      FileInspector.inspect
        { lib.readers with
          handle := fun handler content filename =>
            if handler = .extractEml then
              extractParsed lib (EmlReaders.inspect depth) (lib.messageFromBytes content) filename
            else lib.readers.handle handler content filename }
        content filename

/-- `_extract_eml`. -/
def EmlReaders.extractEml (depth : Nat) (content : Bytes) (filename : PyStr) :
    List Component × Option PyStr :=
  extractParsed lib (lib.inspect depth) (lib.messageFromBytes content) filename

/-! ## What should be found -/

section

variable (inspect : Bytes → PyStr → Except PyStr (List Component))

/-- The text of an HTML document, without the tags. -/
def strippedText (source : PyStr) : PyStr :=
  ((lib.feed source ++ lib.close source).foldl HTMLTextExtractor.handle {}).getText

/-- A text of a leaf: its content, without the tags if it is HTML; of a file, one that
`inspect` extracts. -/
def TextOf (leaf : EmlPart) (text : PyStr) : Prop :=
  match leaf with
  | .leaf _ type charset payload =>
      let decoded := lib.readers.decode (charset.getD (py "ASCII")) payload
      match type with
      | .plain | .text _ => decoded = .ok text
      | .html => ∃ source, decoded = .ok source ∧ text = strippedText lib source
      | .data _ | .other _ =>
          ∃ components, inspect payload (attachmentName leaf) = .ok components ∧
            ∃ component ∈ components, component.content = text
  | _ => False

/-- All of the text that a leaf stands for, by itself or as an attachment. -/
def WholeText (leaf : EmlPart) (whole : PyStr) : Prop :=
  TextOf lib inspect leaf whole ∨ ∃ data, readAttachment lib inspect leaf = .ok (data, whole)

/-- The text occurs in a component; or it belongs to a leaf whose text is in one up to
the limit. -/
def Occurs (eml : EmlPart) (text : PyStr) (components : List Component) : Prop :=
  (∃ component ∈ components, text <:+: component.content) ∨
    ∃ leaf ∈ eml.leaves, ∃ whole, WholeText lib inspect leaf whole ∧ text <:+: whole ∧
      ∃ component ∈ components, component.content = truncate whole

/-- Every text of every leaf is found. -/
def CoversMessage (eml : EmlPart) (components : List Component) : Prop :=
  ∀ leaf ∈ eml.leaves, ∀ text, TextOf lib inspect leaf text → isBlank text = false →
    Occurs lib inspect eml text components

/-- Every leaf with a text is the chosen body or an attachment, and all of these can be
read; the body has a header field, and of an HTML body nothing is held back; the text of an
HTML attachment is in its source. -/
structure Reached (eml : EmlPart) (parts : List EmlPart) : Prop where
  attachments : eml.iterAttachments = .ok parts
  leaves : ∀ leaf ∈ eml.leaves, ∀ text, TextOf lib inspect leaf text → isBlank text = false →
    eml.getBody = some leaf ∨ leaf ∈ parts
  bodySeen : ∀ body, eml.getBody = some body → body.len ≠ 0
  bodyReadable : ∀ body, eml.getBody = some body →
    ∃ content, body.getContent lib.readers.decode = .ok content
  bodyFed : ∀ info charset payload, eml.getBody = some (.leaf info .html charset payload) →
    ∀ source, lib.readers.decode (charset.getD (py "ASCII")) payload = .ok source →
      lib.close source = []
  readable : ∀ part ∈ parts, ∃ read, readAttachment lib inspect part = .ok read
  html : ∀ info charset payload, .leaf info .html charset payload ∈ parts →
    ∀ source, lib.readers.decode (charset.getD (py "ASCII")) payload = .ok source →
      strippedText lib source <:+: source

end

/-! ## The chosen body -/

/-- The part is a text that can be a body. -/
def EmlPart.IsBody (part : EmlPart) : Prop :=
  ∃ info type charset payload, part = .leaf info type charset payload ∧
    (type = .plain ∨ type = .html)

mutual

theorem isBody_of_mem_findBody (part : EmlPart) :
    ∀ candidate ∈ part.findBody, candidate.2.IsBody := by
  cases part with
  | leaf info type charset payload =>
      intro candidate hcandidate
      unfold EmlPart.findBody at hcandidate
      split at hcandidate
      · simp at hcandidate
      · split at hcandidate
        · rw [List.mem_singleton.mp hcandidate]
          exact ⟨info, .plain, charset, payload, rfl, .inl rfl⟩
        · rw [List.mem_singleton.mp hcandidate]
          exact ⟨info, .html, charset, payload, rfl, .inr rfl⟩
        · simp at hcandidate
  | multipart info type start parts =>
      intro candidate hcandidate
      have hparts := isBody_of_mem_findBodies parts
      unfold EmlPart.findBody at hcandidate
      split at hcandidate
      · simp at hcandidate
      · split at hcandidate
        · cases hroot : (EmlPart.findBodies parts)[EmlPart.rootIndex start parts]? with
          | none => simp [hroot] at hcandidate
          | some candidates =>
              rw [hroot] at hcandidate
              exact hparts candidates (List.mem_of_getElem? hroot) candidate hcandidate
        · obtain ⟨candidates, hmem, hcandidate⟩ := List.mem_flatten.mp hcandidate
          exact hparts candidates hmem candidate hcandidate
  | message info root =>
      intro candidate hcandidate
      simp [EmlPart.findBody] at hcandidate

theorem isBody_of_mem_findBodies (parts : List EmlPart) :
    ∀ candidates ∈ EmlPart.findBodies parts, ∀ candidate ∈ candidates, candidate.2.IsBody := by
  cases parts with
  | nil => simp [EmlPart.findBodies]
  | cons part rest =>
      rw [EmlPart.findBodies, List.forall_mem_cons]
      exact ⟨isBody_of_mem_findBody part, isBody_of_mem_findBodies rest⟩

end

/-- The loop returns what it started with or one of the candidates. -/
theorem selectBody_mem {candidates : List (Nat × EmlPart)} {best : Nat} {body : Option EmlPart}
    {part : EmlPart} (h : EmlPart.selectBody candidates best body = some part) :
    body = some part ∨ ∃ prio, (prio, part) ∈ candidates := by
  induction candidates generalizing best body with
  | nil => exact .inl h
  | cons candidate rest ih =>
      obtain ⟨prio, first⟩ := candidate
      rw [EmlPart.selectBody] at h
      split at h
      · split at h
        · rw [Option.some.injEq] at h
          exact .inr ⟨prio, h ▸ List.mem_cons_self⟩
        · obtain h | ⟨prio', h⟩ := ih h
          · rw [Option.some.injEq] at h
            exact .inr ⟨prio, h ▸ List.mem_cons_self⟩
          · exact .inr ⟨prio', List.mem_cons_of_mem _ h⟩
      · exact (ih h).imp_right fun ⟨prio', h⟩ => ⟨prio', List.mem_cons_of_mem _ h⟩

theorem isBody_of_getBody {root body : EmlPart} (h : root.getBody = some body) : body.IsBody := by
  obtain h | ⟨prio, h⟩ := selectBody_mem h
  · cases h
  · exact isBody_of_mem_findBody root _ h

/-! ## The attachments -/

section

variable {lib}
variable {inspect : Bytes → PyStr → Except PyStr (List Component)}

/-- If all attachments can be read, each has its component and nothing is raised. -/
theorem extractAttachments_readable {parts : List EmlPart}
    (h : ∀ part ∈ parts, ∃ read, readAttachment lib inspect part = .ok read) :
    (∀ part ∈ parts, ∀ data text, readAttachment lib inspect part = .ok (data, text) →
      attachmentComponent part data text ∈ (extractAttachments lib inspect parts).1) ∧
    (extractAttachments lib inspect parts).2 = none := by
  induction parts with
  | nil => exact ⟨by simp, rfl⟩
  | cons part rest ih =>
      rw [List.forall_mem_cons] at h
      obtain ⟨⟨⟨data, text⟩, hread⟩, hrest⟩ := h
      obtain ⟨hmem, hnone⟩ := ih hrest
      simp only [extractAttachments, hread]
      refine ⟨?_, hnone⟩
      rw [List.forall_mem_cons]
      refine ⟨fun data' text' hread' => ?_, fun other hother data' text' hread' => ?_⟩
      · cases hread.symm.trans hread'
        exact List.mem_cons_self
      · exact List.mem_cons_of_mem _ (hmem other hother data' text' hread')

theorem occurs_attachment {eml leaf : EmlPart} {data : Bytes} {whole text : PyStr}
    {components : List Component} (hleaf : leaf ∈ eml.leaves)
    (hread : readAttachment lib inspect leaf = .ok (data, whole))
    (hmem : attachmentComponent leaf data whole ∈ components) (hfound : text <:+: whole)
    (hblank : isBlank text = false) : Occurs lib inspect eml text components := by
  refine .inr ⟨leaf, hleaf, whole, .inr ⟨data, hread⟩, hfound, _, hmem, ?_⟩
  have hsome : whole ≠ [] := by
    rintro rfl
    rw [List.infix_nil.mp hfound] at hblank
    cases hblank
  rw [attachmentComponent, if_neg hsome]

theorem infix_joinContents {components : List Component} {component : Component}
    (h : component ∈ components) (hsome : component.content ≠ []) :
    component.content <:+: joinContents components :=
  infix_intercalate _ (List.mem_filter.mpr ⟨List.mem_map_of_mem h, decide_eq_true hsome⟩)

/-- What `readAttachment` makes of a leaf holds its texts. -/
theorem infix_of_readAttachment {leaf : EmlPart} {data : Bytes} {whole text : PyStr}
    (hread : readAttachment lib inspect leaf = .ok (data, whole))
    (htext : TextOf lib inspect leaf text) (hblank : isBlank text = false)
    (hhtml : ∀ info charset payload, leaf = .leaf info .html charset payload →
      ∀ source, lib.readers.decode (charset.getD (py "ASCII")) payload = .ok source →
        strippedText lib source <:+: source) : text <:+: whole := by
  cases leaf with
  | leaf info type charset payload =>
      cases type with
      | plain | text subtype =>
          have hdecoded : lib.readers.decode (charset.getD (py "ASCII")) payload = .ok text := htext
          simp only [readAttachment, EmlPart.getContent, hdecoded] at hread
          cases hread
          exact List.infix_rfl
      | html =>
          obtain ⟨source, hdecoded, rfl⟩ := htext
          simp only [readAttachment, EmlPart.getContent, hdecoded] at hread
          cases hread
          exact hhtml info charset payload rfl _ hdecoded
      | data contentType =>
          obtain ⟨components, hinspect, component, hmem, rfl⟩ := htext
          simp only [readAttachment, EmlPart.getContent, bind, Except.bind, hinspect] at hread
          cases hread
          refine infix_joinContents hmem fun hempty => ?_
          rw [hempty] at hblank
          cases hblank
      | other contentType => cases hread
  | multipart info type start parts => exact htext.elim
  | message info root => exact htext.elim

theorem strippedText_of_fed {source : PyStr} (h : lib.close source = []) :
    strippedText lib source = htmlText lib source := by
  rw [strippedText, h, List.append_nil, htmlText]

/-- The component of a body that can be read. -/
theorem occurs_body {eml leaf : EmlPart} {filename text : PyStr} {components : List Component}
    (hleaf : leaf ∈ eml.leaves) (hbody : eml.getBody = some leaf) (hseen : leaf.len ≠ 0)
    (hfed : ∀ info charset payload, leaf = .leaf info .html charset payload →
      ∀ source, lib.readers.decode (charset.getD (py "ASCII")) payload = .ok source →
        lib.close source = [])
    (hextract : extractBody lib eml filename = .ok components)
    (htext : TextOf lib inspect leaf text) (hblank : isBlank text = false) :
    Occurs lib inspect eml text components := by
  have hwhole : WholeText lib inspect leaf text := .inl htext
  obtain ⟨info, type, charset, payload, rfl, htype⟩ := isBody_of_getBody hbody
  have hread : ∃ content,
      (EmlPart.leaf info type charset payload).getContent lib.readers.decode =
        .ok (.str content) ∧
      text = if (EmlPart.leaf info type charset payload).getContentType = py "text/html" then
        htmlText lib content else content := by
    obtain rfl | rfl := htype
    · have hdecoded : lib.readers.decode (charset.getD (py "ASCII")) payload = .ok text := htext
      exact ⟨text, by rw [EmlPart.getContent, hdecoded]; rfl, rfl⟩
    · obtain ⟨source, hdecoded, rfl⟩ := htext
      exact ⟨source, by rw [EmlPart.getContent, hdecoded]; rfl,
        strippedText_of_fed (hfed info charset payload rfl source hdecoded)⟩
  obtain ⟨content, hread, rfl⟩ := hread
  simp only [extractBody, hbody, if_neg hseen, hread, bind, Except.bind,
    if_neg (Bool.not_eq_true _ ▸ hblank)] at hextract
  cases hextract
  exact .inr ⟨_, hleaf, _, hwhole, List.infix_rfl, _, List.mem_singleton_self _, rfl⟩

/-- A body that can be read raises nothing. -/
theorem extractBody_readable {root : EmlPart} (filename : PyStr)
    (h : ∀ body, root.getBody = some body →
      ∃ content, body.getContent lib.readers.decode = .ok content) :
    ∃ components, extractBody lib root filename = .ok components := by
  cases hbody : root.getBody with
  | none => exact ⟨[], by rw [extractBody, hbody]⟩
  | some body =>
      obtain ⟨content, hread⟩ := h body hbody
      by_cases hlen : body.len = 0
      · exact ⟨[], by simp only [extractBody, hbody, if_pos hlen]⟩
      · simp only [extractBody, hbody, if_neg hlen, hread, bind, Except.bind]
        cases content with
        | str content =>
            dsimp only
            repeat' split
            all_goals exact ⟨_, rfl⟩
        | bytes data => exact ⟨[], rfl⟩
        | message root => exact ⟨[], rfl⟩

theorem Occurs.mono {eml : EmlPart} {text : PyStr} {components all : List Component}
    (h : Occurs lib inspect eml text components) (hsubset : components ⊆ all) :
    Occurs lib inspect eml text all := by
  obtain ⟨component, hmem, hfound⟩ | ⟨leaf, hleaf, whole, hwhole, hfound, component, hmem, heq⟩ := h
  · exact .inl ⟨component, hsubset hmem, hfound⟩
  · exact .inr ⟨leaf, hleaf, whole, hwhole, hfound, component, hsubset hmem, heq⟩

end

/-! ## The message -/

/-- If every leaf is reached, every text is found. -/
theorem coversMessage_of_reached (depth : Nat) (content : Bytes) (filename : PyStr)
    (parts : List EmlPart)
    (h : Reached lib (lib.inspect depth) (lib.messageFromBytes content) parts) :
    CoversMessage lib (lib.inspect depth) (lib.messageFromBytes content)
      (lib.extractEml depth content filename).1 := by
  intro leaf hleaf text htext hblank
  obtain ⟨body, hbody⟩ := extractBody_readable filename h.bodyReadable
  obtain ⟨hattachments, hnone⟩ := extractAttachments_readable h.readable
  have hall : (lib.extractEml depth content filename).1 =
      extractEnvelope (lib.messageFromBytes content) filename ++
        extractSubject (lib.messageFromBytes content) filename ++ body ++
          (extractAttachments lib (lib.inspect depth) parts).1 := by
    simp only [EmlReaders.extractEml, extractParsed, hbody, h.attachments]
  rw [hall]
  obtain hchosen | hlisted := h.leaves leaf hleaf text htext hblank
  · have hfound := occurs_body hleaf hchosen (h.bodySeen leaf hchosen)
      (fun info charset payload heq => h.bodyFed info charset payload (heq ▸ hchosen)) hbody
      htext hblank
    exact hfound.mono fun component hmem =>
      List.mem_append_left _ (List.mem_append_right _ hmem)
  · obtain ⟨⟨data, whole⟩, hread⟩ := h.readable leaf hlisted
    have hinfix : text <:+: whole :=
      infix_of_readAttachment hread htext hblank fun info charset payload heq =>
        h.html info charset payload (heq ▸ hlisted)
    have hfound := occurs_attachment hleaf hread (hattachments leaf hlisted data whole hread)
      hinfix hblank
    exact hfound.mono (List.subset_append_right ..)

/-! ## An attached message -/

/-- The bytes of an ASCII text. -/
def asciiBytes (text : String) : Bytes := text.toList.map fun c => UInt8.ofNat c.toNat

def contentTypeField (value : String) : List (PyStr × PyStr) := [(py "Content-Type", py value)]

def plainText (text : String) : EmlPart :=
  .leaf { headers := contentTypeField "text/plain" } .plain none (asciiBytes text)

/-- A note, and a file or a message with it. -/
def sampleEml (attached : EmlPart) : EmlPart :=
  .multipart { headers := contentTypeField "multipart/mixed; boundary=b" } .mixed none
    [plainText "see below", attached]

def attachedFile : EmlPart :=
  .leaf
    { headers := contentTypeField "application/octet-stream; name=a.txt"
      filename := some (py "a.txt") }
    (.data (py "application/octet-stream")) none (asciiBytes "secret")

def attachedMessage : EmlPart :=
  .message { headers := contentTypeField "message/rfc822" } (plainText "secret")

/-- The libraries on a file that is parsed to this message. -/
def sampleReaders (eml : EmlPart) : EmlReaders where
  readers :=
    { handle := fun _ _ _ => ([], none)
      detect := fun _ => { encoding := some (py "ascii"), confidence := 1 }
      decode := fun _ data => .ok (data.map fun b => Char.ofNat b.toNat) }
  messageFromBytes _ := eml
  feed source := [.data source]
  close _ := []

def sampleFile : Bytes :=
  asciiBytes "Content-Type: multipart/mixed; boundary=b\n\n--b\n" ++
    asciiBytes "Content-Type: text/plain\n\nsee below\n--b\n" ++
    asciiBytes "Content-Type: application/octet-stream; name=a.txt\n\nsecret\n--b--\n"

def forwardingFile : Bytes :=
  asciiBytes "Content-Type: multipart/mixed; boundary=b\n\n--b\n" ++
    asciiBytes "Content-Type: text/plain\n\nsee below\n--b\nContent-Type: message/rfc822\n\n" ++
    asciiBytes "Content-Type: text/plain\n\nsecret\n--b--\n"

theorem coversMessage_sample :
    CoversMessage (sampleReaders (sampleEml attachedFile))
      ((sampleReaders (sampleEml attachedFile)).inspect 9) (sampleEml attachedFile)
      ((sampleReaders (sampleEml attachedFile)).extractEml 9 sampleFile (py "mail.eml")).1 := by
  refine coversMessage_of_reached _ 9 sampleFile (py "mail.eml") [attachedFile]
    ⟨rfl, ?_, ?_, ?_, ?_, ?_, ?_⟩
  · intro leaf hleaf _ _ _
    obtain rfl | hleaf := List.mem_cons.mp hleaf
    · exact .inl rfl
    · exact .inr hleaf
  · intro body hbody
    cases hbody
    exact Nat.one_ne_zero
  · intro body hbody
    cases hbody
    exact ⟨_, rfl⟩
  · intro info charset payload hbody
    cases hbody
  · intro part hpart
    rw [List.mem_singleton.mp hpart]
    exact ⟨_, rfl⟩
  · intro info charset payload hmem
    cases List.mem_singleton.mp hmem

theorem wholeText_plainText {eml : EmlPart}
    {inspect : Bytes → PyStr → Except PyStr (List Component)} {text : String} {whole : PyStr}
    (h : WholeText (sampleReaders eml) inspect (plainText text) whole) :
    whole = (asciiBytes text).map fun b => Char.ofNat b.toNat := by
  obtain h | ⟨data, h⟩ := h
  · exact (Except.ok.inj h).symm
  · cases h
    rfl

/-- The text of an attached message is not found. -/
theorem not_coversMessage_forwarded :
    ¬ CoversMessage (sampleReaders (sampleEml attachedMessage))
      ((sampleReaders (sampleEml attachedMessage)).inspect 9) (sampleEml attachedMessage)
      ((sampleReaders (sampleEml attachedMessage)).extractEml 9 forwardingFile
        (py "mail.eml")).1 := by
  intro h
  have hleaf : plainText "secret" ∈ (sampleEml attachedMessage).leaves := .tail _ (.head _)
  have htext : TextOf (sampleReaders (sampleEml attachedMessage))
      ((sampleReaders (sampleEml attachedMessage)).inspect 9) (plainText "secret")
      (py "secret") := congrArg Except.ok (by decide)
  obtain ⟨component, hmem, hfound⟩ | ⟨leaf, hleaf, whole, hwhole, hfound, component, hmem, heq⟩ :=
    h _ hleaf (py "secret") htext (by decide)
  · obtain rfl | hmem := List.mem_cons.mp hmem
    · exact absurd hfound (by decide)
    · obtain rfl := List.mem_singleton.mp hmem
      exact absurd hfound (by decide)
  · obtain rfl | hleaf := List.mem_cons.mp hleaf
    · rw [wholeText_plainText hwhole] at hfound
      exact absurd hfound (by decide)
    · obtain rfl := List.mem_singleton.mp hleaf
      rw [wholeText_plainText hwhole] at heq
      obtain rfl | hmem := List.mem_cons.mp hmem
      · exact absurd heq (by decide)
      · obtain rfl := List.mem_singleton.mp hmem
        exact absurd heq (by decide)

end AkesoDlp.Server.Inspector
