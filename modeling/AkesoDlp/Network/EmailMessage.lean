import Mathlib.Data.List.Infix

/-!
# Email messages

Messages as the standard library's parser returns them: a tree of MIME parts.
The accessors are those that the SMTP proxy uses. Header names are compared
without case.
-/

namespace AkesoDlp.Network

/-- A part has its headers in their order, and the content type and file name
that the library computes from them. The payload of a leaf is decoded. -/
inductive EmailMessage
  | leaf (headers : List (String × String)) (contentType : String) (filename : Option String)
      (payload : List UInt8)
  | multipart (headers : List (String × String)) (contentType : String) (filename : Option String)
      (parts : List EmailMessage)
deriving Repr

namespace EmailMessage

def headers : EmailMessage → List (String × String)
  | leaf headers .. => headers
  | multipart headers .. => headers

def setHeaders (headers : List (String × String)) : EmailMessage → EmailMessage
  | leaf _ contentType filename payload => leaf headers contentType filename payload
  | multipart _ contentType filename parts => multipart headers contentType filename parts

@[simp] theorem headers_setHeaders (headers : List (String × String)) (msg : EmailMessage) :
    (msg.setHeaders headers).headers = headers := by
  cases msg <;> rfl

def getContentType : EmailMessage → String
  | leaf _ contentType .. => contentType
  | multipart _ contentType .. => contentType

def getFilename : EmailMessage → Option String
  | leaf _ _ filename _ => filename
  | multipart _ _ filename _ => filename

def isMultipart : EmailMessage → Bool
  | leaf .. => false
  | multipart .. => true

/-- `get_payload(decode=True) or b""`; a multipart has no payload of its own. -/
def payload : EmailMessage → List UInt8
  | leaf _ _ _ payload => payload
  | multipart .. => []

mutual

/-- The part itself and all parts below it, in document order. -/
def walk : EmailMessage → List EmailMessage
  | leaf headers contentType filename payload => [leaf headers contentType filename payload]
  | multipart headers contentType filename parts =>
      multipart headers contentType filename parts :: walkParts parts

def walkParts : List EmailMessage → List EmailMessage
  | [] => []
  | part :: rest => walk part ++ walkParts rest

end

/-- The parts right below. -/
def iterParts : EmailMessage → List EmailMessage
  | leaf .. => []
  | multipart _ _ _ parts => parts

/-- The parts with a payload of their own, at any depth. -/
def leaves (msg : EmailMessage) : List EmailMessage := msg.walk.filter fun part => !part.isMultipart

theorem mem_walk_self (msg : EmailMessage) : msg ∈ msg.walk := by
  cases msg <;> exact List.mem_cons_self

theorem mem_walkParts {parts : List EmailMessage} {part inner : EmailMessage}
    (hpart : part ∈ parts) (hinner : inner ∈ part.walk) : inner ∈ walkParts parts := by
  induction parts with
  | nil => simp at hpart
  | cons first parts ih =>
      rw [walkParts, List.mem_append]
      obtain rfl | hpart := List.mem_cons.mp hpart
      · exact .inl hinner
      · exact .inr (ih hpart)

/-- The leaves of a part are leaves of the message. -/
theorem mem_leaves_of_mem {headers : List (String × String)} {contentType : String}
    {filename : Option String} {parts : List EmailMessage} {part leaf : EmailMessage}
    (hpart : part ∈ parts) (hleaf : leaf ∈ part.leaves) :
    leaf ∈ (multipart headers contentType filename parts).leaves := by
  rw [leaves, List.mem_filter] at hleaf ⊢
  exact ⟨List.mem_cons_of_mem _ (mem_walkParts hpart hleaf.1), hleaf.2⟩

theorem mem_leaves_self {msg : EmailMessage} (h : msg.isMultipart = false) : msg ∈ msg.leaves :=
  List.mem_filter.mpr ⟨msg.mem_walk_self, by rw [h]; rfl⟩

def sameName (a b : String) : Bool := a.toLower == b.toLower

/-- `msg.get(name, default)`. -/
def get (msg : EmailMessage) (name default : String) : String :=
  ((msg.headers.find? fun h => sameName h.1 name).map (·.2)).getD default

/-- `name in msg`. -/
def contains (msg : EmailMessage) (name : String) : Bool :=
  msg.headers.any fun h => sameName h.1 name

/-- `del msg[name]`: all headers of that name. -/
def delete (msg : EmailMessage) (name : String) : EmailMessage :=
  msg.setHeaders (msg.headers.filter fun h => !sameName h.1 name)

/-- `msg[name] = value`: one more header, at the end. -/
def add (msg : EmailMessage) (name value : String) : EmailMessage :=
  msg.setHeaders (msg.headers ++ [(name, value)])

/-- The headers of a dictionary, one after the other. -/
def addAll (msg : EmailMessage) (headers : List (String × String)) : EmailMessage :=
  headers.foldl (fun msg header => msg.add header.1 header.2) msg

@[simp] theorem setHeaders_setHeaders (first second : List (String × String))
    (msg : EmailMessage) : (msg.setHeaders first).setHeaders second = msg.setHeaders second := by
  cases msg <;> rfl

@[simp] theorem headers_add (msg : EmailMessage) (name value : String) :
    (msg.add name value).headers = msg.headers ++ [(name, value)] :=
  headers_setHeaders ..

theorem headers_addAll (msg : EmailMessage) (headers : List (String × String)) :
    (msg.addAll headers).headers = msg.headers ++ headers := by
  unfold addAll
  induction headers generalizing msg with
  | nil => simp
  | cons header headers ih => simp [ih]

theorem setHeaders_addAll (msg : EmailMessage) (headers new : List (String × String)) :
    (msg.addAll headers).setHeaders new = msg.setHeaders new := by
  unfold addAll
  induction headers generalizing msg with
  | nil => rfl
  | cons header headers ih =>
      rw [List.foldl_cons, ih]
      exact setHeaders_setHeaders ..

end EmailMessage

end AkesoDlp.Network
