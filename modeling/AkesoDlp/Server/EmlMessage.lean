import AkesoDlp.Server.FileInspector

/-!
# Parsed EML files

The tree that `email.message_from_bytes` makes of an EML file, and what the library
answers about it: `get_body` with the preference list `("plain", "html")`,
`iter_attachments` and `get_content`. Headers and payloads are decoded.
-/

namespace AkesoDlp.Server.Inspector

/-- What a part says about itself: its header fields, and `get_filename()` and
`is_attachment()`, which are read off them. -/
structure PartInfo where
  headers : List (PyStr × PyStr) := []
  filename : Option PyStr := none
  attachment : Bool := false
deriving DecidableEq

/-- The type of a part without parts of its own. -/
inductive LeafType
  | plain
  | html
  | text (subtype : PyStr)
  /-- `audio`, `image`, `video` or `application`. -/
  | data (contentType : PyStr)
  /-- Any other main type: `get_content` has no handler for it. -/
  | other (contentType : PyStr)
deriving DecidableEq

inductive MultipartType
  | mixed
  | alternative
  | related
  | other (subtype : PyStr)
deriving DecidableEq

/-- A part. The `start` parameter belongs to `multipart/related`; an attached message has
one part, its own root. -/
inductive EmlPart
  | leaf (info : PartInfo) (type : LeafType) (charset : Option PyStr) (payload : Bytes)
  | multipart (info : PartInfo) (type : MultipartType) (start : Option PyStr)
      (parts : List EmlPart)
  | message (info : PartInfo) (root : EmlPart)

def LeafType.contentType : LeafType → PyStr
  | .plain => py "text/plain"
  | .html => py "text/html"
  | .text subtype => py "text/" ++ subtype
  | .data contentType => contentType
  | .other contentType => contentType

def MultipartType.contentType : MultipartType → PyStr
  | .mixed => py "multipart/mixed"
  | .alternative => py "multipart/alternative"
  | .related => py "multipart/related"
  | .other subtype => py "multipart/" ++ subtype

namespace EmlPart

def info : EmlPart → PartInfo
  | leaf info .. => info
  | multipart info .. => info
  | message info .. => info

/-- `__len__`, which is what a part is worth in a condition. -/
def len (part : EmlPart) : Nat := part.info.headers.length

/-- `get(header)`. -/
def get (part : EmlPart) (header : PyStr) : Option PyStr :=
  (part.info.headers.find? fun h => lower h.1 = lower header).map (·.2)

def getContentType : EmlPart → PyStr
  | leaf _ type .. => type.contentType
  | multipart _ type .. => type.contentType
  | message .. => py "message/rfc822"

mutual

/-- The parts without parts of their own, at any depth, those of attached messages
included. -/
def leaves : EmlPart → List EmlPart
  | leaf info type charset payload => [leaf info type charset payload]
  | multipart _ _ _ parts => leavesOf parts
  | message _ root => root.leaves

def leavesOf : List EmlPart → List EmlPart
  | [] => []
  | part :: rest => part.leaves ++ leavesOf rest

end

/-! ## The body -/

/-- The position of the root of a `multipart/related`: the part that `start` names, or
else the first. -/
def rootIndex (start : Option PyStr) (parts : List EmlPart) : Nat :=
  match start with
  | none | some [] => 0
  | some start =>
      (parts.findIdx? fun part => part.get (py "content-id") == some start).getD 0

mutual

/-- `_find_body`: the candidates with their positions in `("plain", "html")`. -/
def findBody : EmlPart → List (Nat × EmlPart)
  | leaf info type charset payload =>
      if info.attachment then []
      else
        match type with
        | .plain => [(0, leaf info type charset payload)]
        | .html => [(1, leaf info type charset payload)]
        | _ => []
  | multipart info type start parts =>
      if info.attachment then []
      else
        match type with
        | .related => ((findBodies parts)[rootIndex start parts]?).getD []
        | _ => (findBodies parts).flatten
  | message .. => []

def findBodies : List EmlPart → List (List (Nat × EmlPart))
  | [] => []
  | part :: rest => part.findBody :: findBodies rest

end

/-- The loop of `get_body`. -/
def selectBody : List (Nat × EmlPart) → Nat → Option EmlPart → Option EmlPart
  | [], _, body => body
  | (prio, part) :: rest, best, body =>
      if prio < best then
        if prio = 0 then some part else selectBody rest prio (some part)
      else selectBody rest best body

/-- `get_body(preferencelist=("plain", "html"))`. -/
def getBody (root : EmlPart) : Option EmlPart := selectBody root.findBody 2 none

/-! ## The attachments -/

def bodyTypes : List PyStr :=
  [py "text/plain", py "text/html", py "multipart/related", py "multipart/alternative"]

/-- The last loop of `iter_attachments`: the first part of every body type is skipped. -/
def iterOthers : List EmlPart → List PyStr → List EmlPart
  | [], _ => []
  | part :: rest, seen =>
      if bodyTypes.contains part.getContentType && !part.info.attachment &&
          !seen.contains part.getContentType then
        iterOthers rest (part.getContentType :: seen)
      else part :: iterOthers rest seen

/-- `iter_attachments`, or the error of `parts.pop(0)`. -/
def iterAttachments : EmlPart → Except PyStr (List EmlPart)
  | leaf .. | message .. => .ok []
  | multipart _ .alternative _ _ => .ok []
  | multipart _ .related start parts =>
      let others := match start with
        | none | some [] => none
        | some start =>
            if parts.any fun part => part.get (py "content-id") == some start then
              some (parts.filter fun part => part.get (py "content-id") != some start)
            else none
      match others, parts with
      | some others, _ => .ok others
      | none, [] => .error (py "pop from empty list")
      | none, _ :: rest => .ok rest
  | multipart _ _ _ parts => .ok (iterOthers parts [])

/-! ## The content -/

/-- What `get_content` returns. -/
inductive Content
  | str (text : PyStr)
  | bytes (data : Bytes)
  | message (root : EmlPart)

/-- `get_content`; the text of a missing handler's `KeyError` is the type in quotes. -/
def getContent (decode : PyStr → Bytes → Except PyStr PyStr) : EmlPart → Except PyStr Content
  | leaf _ type charset payload =>
      match type with
      | .plain | .html | .text _ =>
          (decode (charset.getD (py "ASCII")) payload).map .str
      | .data _ => .ok (.bytes payload)
      | .other contentType => .error (py "'" ++ contentType ++ py "'")
  | multipart _ type .. => .error (py "'" ++ type.contentType ++ py "'")
  | message _ root => .ok (.message root)

end EmlPart

end AkesoDlp.Server.Inspector
