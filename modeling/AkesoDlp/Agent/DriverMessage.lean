import AkesoDlp.Agent.DriverFilter
import AkesoDlp.Agent.Pipeline
import AkesoDlp.Lib.Layout

/-!
# Messages between the driver and the agent

`AkesoSendNotification` fills an `AKESO_NOTIFICATION`, the listener of `DriverComm` reads
it through `AKESO_NOTIFICATION_WIRE` and makes a `FileNotification` of it, and replies
with an `AKESO_REPLY`. Both sides declare the records packed; `LARGE_INTEGER` is a signed
number of eight bytes, `WCHAR` one of two.
-/

namespace AkesoDlp.Agent.DriverMessage

open Lib DriverFilter

/-! ## Codes -/

/-- The numbers of `AKESO_MSG_TYPE` and `DriverMsgType`. -/
def msgTypeCode : DriverMsgType → UInt32
  | .fileWrite => 1
  | .fileCreate => 2
  | .verdictAllow => 3
  | .verdictBlock => 4
  | .verdictScanFull => 5
  | .scanResult => 6
  | .configUpdate => 7

/-- The enumerator with a number. -/
def msgTypeOf (code : UInt32) : Option DriverMsgType :=
  [.fileWrite, .fileCreate, .verdictAllow, .verdictBlock, .verdictScanFull, .scanResult,
    .configUpdate].find? fun type => msgTypeCode type == code

/-- The numbers of `AKESO_VOLUME_TYPE` and `VolumeType`. -/
def volumeTypeCode : VolumeType → UInt32
  | .fixed => 0
  | .removable => 1
  | .network => 2
  | .unknown => 3

def volumeTypeOf (code : UInt32) : Option VolumeType :=
  [.fixed, .removable, .network, .unknown].find? fun type => volumeTypeCode type == code

@[simp] theorem msgTypeOf_code (type : DriverMsgType) :
    msgTypeOf (msgTypeCode type) = some type := by
  cases type <;> decide

@[simp] theorem volumeTypeOf_code (type : VolumeType) :
    volumeTypeOf (volumeTypeCode type) = some type := by
  cases type <;> decide

/-! ## Records -/

/-- `AKESO_DLP_MAX_PATH`. -/
def maxPath : Nat := 1024

/-- `AKESO_DLP_PREVIEW_SIZE`. -/
def previewSize : Nat := 4096

/-- `AKESO_NOTIFICATION`, the driver's record. -/
structure AkesoNotification where
  type : UInt32
  processId : UInt32
  volumeType : UInt32
  fileSize : Int64
  contentLength : UInt32
  filePath : { l : List UInt16 // l.length = maxPath }
  content : { l : List UInt8 // l.length = previewSize }

/-- `AKESO_NOTIFICATION_WIRE`, which the agent declares for itself. -/
structure AkesoNotificationWire where
  type : UInt32
  processId : UInt32
  volumeType : UInt32
  fileSize : Int64
  contentLength : UInt32
  filePath : { l : List UInt16 // l.length = 1024 }
  content : { l : List UInt8 // l.length = 4096 }

/-- `AKESO_REPLY`, the driver's record. -/
structure AkesoReply where
  verdict : UInt32
  reserved : UInt32
deriving DecidableEq

/-- `AKESO_REPLY_WIRE`, the agent's. -/
structure AkesoReplyWire where
  verdict : UInt32
  reserved : UInt32
deriving DecidableEq

def AkesoNotification.layout : Layout AkesoNotification :=
  (Layout.u32.pair <| Layout.u32.pair <| Layout.u32.pair <| Layout.i64.pair <| Layout.u32.pair <|
    (Layout.u16.array maxPath).pair (Layout.u8.array previewSize)).iso
    (fun f => ⟨f.1, f.2.1, f.2.2.1, f.2.2.2.1, f.2.2.2.2.1, f.2.2.2.2.2.1, f.2.2.2.2.2.2⟩)
    (fun n => (n.type, n.processId, n.volumeType, n.fileSize, n.contentLength, n.filePath,
      n.content))
    (fun _ => rfl) fun _ => rfl

def AkesoNotificationWire.layout : Layout AkesoNotificationWire :=
  (Layout.u32.pair <| Layout.u32.pair <| Layout.u32.pair <| Layout.i64.pair <| Layout.u32.pair <|
    (Layout.u16.array 1024).pair (Layout.u8.array 4096)).iso
    (fun f => ⟨f.1, f.2.1, f.2.2.1, f.2.2.2.1, f.2.2.2.2.1, f.2.2.2.2.2.1, f.2.2.2.2.2.2⟩)
    (fun n => (n.type, n.processId, n.volumeType, n.fileSize, n.contentLength, n.filePath,
      n.content))
    (fun _ => rfl) fun _ => rfl

def AkesoReply.layout : Layout AkesoReply :=
  (Layout.u32.pair Layout.u32).iso (fun f => ⟨f.1, f.2⟩) (fun r => (r.verdict, r.reserved))
    (fun _ => rfl) fun _ => rfl

def AkesoReplyWire.layout : Layout AkesoReplyWire :=
  (Layout.u32.pair Layout.u32).iso (fun f => ⟨f.1, f.2⟩) (fun r => (r.verdict, r.reserved))
    (fun _ => rfl) fun _ => rfl

/-- The driver's fields as the agent's record has them. -/
def AkesoNotification.wire (n : AkesoNotification) : AkesoNotificationWire :=
  ⟨n.type, n.processId, n.volumeType, n.fileSize, n.contentLength, n.filePath, n.content⟩

/-- The agent's fields as the driver's record has them. -/
def AkesoReplyWire.reply (r : AkesoReplyWire) : AkesoReply := ⟨r.verdict, r.reserved⟩

/-- The two declarations of a record agree: the same fields have the same bytes. -/
theorem AkesoNotification.encode_wire (n : AkesoNotification) :
    AkesoNotificationWire.layout.encode n.wire = AkesoNotification.layout.encode n :=
  rfl

theorem AkesoReplyWire.encode_reply (r : AkesoReplyWire) :
    AkesoReply.layout.encode r.reply = AkesoReplyWire.layout.encode r :=
  rfl

@[simp] theorem AkesoNotificationWire.decode_encode (n : AkesoNotification) :
    AkesoNotificationWire.layout.decode (AkesoNotification.layout.encode n) = n.wire := by
  rw [← n.encode_wire, Layout.decode_encode]

@[simp] theorem AkesoReply.decode_encode (r : AkesoReplyWire) :
    AkesoReply.layout.decode (AkesoReplyWire.layout.encode r) = r.reply := by
  rw [← r.encode_reply, Layout.decode_encode]

/-- The `sizeof` of the records. -/
example : AkesoNotification.layout.size = 6168 ∧ AkesoReply.layout.size = 8 := by decide

/-! ## The driver's side -/

/-- The buffer of a write, as `RtlCopyMemory` finds it. -/
inductive WriteBuffer
  /-- `Length` is 0, or the buffer is not mapped. -/
  | absent
  | readable (bytes : List UInt8)
  /-- Reading past the given bytes raises. -/
  | faults (bytes : List UInt8)
deriving DecidableEq, Repr

/-- What `AkesoSendNotification` is called with, and what its queries come back with. -/
structure Intercepted where
  type : DriverMsgType
  processId : UInt32
  volumeType : VolumeType
  name : Option UnicodeString
  buffer : WriteBuffer
  endOfFile : Option Int64

/-- A zeroed array of `n` elements, with `l` copied to its front as far as it fits. -/
def filled {α : Type} (zero : α) (n : Nat) (l : List α) : { l : List α // l.length = n } :=
  ⟨l.take n ++ List.replicate (n - l.length) zero, by
    rw [List.length_append, List.length_take, List.length_replicate]
    omega⟩

/-- `copyLen / sizeof(WCHAR)` characters of the name; the zero behind them is there already. -/
def copiedPath (name : Option UnicodeString) : List UInt16 :=
  (name.elim [] (·.units)).take (maxPath - 1)

/-- `Content` and `ContentLength`: the first bytes of a write. -/
def copiedContent (type : DriverMsgType) (buffer : WriteBuffer) : List UInt8 × Nat :=
  if type = .fileWrite then
    match buffer with
    | .absent => ([], 0)
    | .readable bytes => (bytes.take previewSize, (bytes.take previewSize).length)
    -- the bytes before the fault are in the array, and do not count
    | .faults bytes => (bytes.take previewSize, 0)
  else ([], 0)

/-- The record that `AkesoSendNotification` fills in. -/
def Intercepted.notification (op : Intercepted) : AkesoNotification where
  type := msgTypeCode op.type
  processId := op.processId
  volumeType := volumeTypeCode op.volumeType
  fileSize := op.endOfFile.getD 0
  contentLength := .ofNat (copiedContent op.type op.buffer).2
  filePath := filled 0 maxPath (copiedPath op.name)
  content := filled 0 previewSize (copiedContent op.type op.buffer).1

/-- What the driver takes from the bytes of a reply. -/
def readVerdict (bytes : List UInt8) : UInt32 :=
  (AkesoReply.layout.decode bytes).verdict

/-! ## The agent's side -/

/-- `wcsnlen` characters of the array. -/
def wideString (l : List UInt16) : List UInt16 := l.takeWhile (· ≠ 0)

/-- The `FileNotification` that the listener builds; `none` where a `static_cast` yields a
value without a name. -/
def receive (bytes : List UInt8) : Option FileNotification :=
  let wire := AkesoNotificationWire.layout.decode bytes
  match msgTypeOf wire.type, volumeTypeOf wire.volumeType with
  | some type, some volumeType => some {
      type := type
      processId := wire.processId.toNat
      volumeType := volumeType
      fileSize := wire.fileSize.toInt
      filePath := wideString wire.filePath.val
      contentPreview := wire.content.val.take (min wire.contentLength.toNat previewSize) }
  | _, _ => none

/-- The bytes of the reply that carries a verdict. -/
def replyBytes (verdict : DriverMsgType) : List UInt8 :=
  AkesoReplyWire.layout.encode ⟨msgTypeCode verdict, 0⟩

/-! ## What arrives -/

/-- The first bytes of a write, if they could be read. -/
def Intercepted.preview (op : Intercepted) : List UInt8 :=
  match op.type, op.buffer with
  | .fileWrite, .readable bytes => bytes.take previewSize
  | _, _ => []

/-- What the agent is to know of an operation: the path up to its 1023rd character or its
first NUL, and the first 4096 bytes of a write. -/
def Intercepted.fileNotification (op : Intercepted) : FileNotification where
  type := op.type
  processId := op.processId.toNat
  volumeType := op.volumeType
  fileSize := (op.endOfFile.getD 0).toInt
  filePath := wideString (copiedPath op.name)
  contentPreview := op.preview

theorem length_copiedPath (name : Option UnicodeString) : (copiedPath name).length ≤ 1023 :=
  List.length_take_le _ _

theorem filled_val {α : Type} {zero : α} {n : Nat} {l : List α} (h : l.length ≤ n) :
    (filled zero n l).val = l ++ List.replicate (n - l.length) zero := by
  show l.take n ++ _ = _
  rw [List.take_of_length_le h]

/-- A zero ends the string that the array holds. -/
theorem wideString_filled {l : List UInt16} (h : l.length < maxPath) :
    wideString (filled 0 maxPath l).val = wideString l := by
  have hzeros : List.replicate (maxPath - l.length) (0 : UInt16) =
      0 :: List.replicate (maxPath - l.length - 1) 0 := by
    rw [← List.replicate_succ]
    congr 1
    omega
  rw [filled_val (Nat.le_of_lt h), wideString, hzeros, wideString, List.takeWhile_append]
  split
  · next heq =>
      -- no zero in `l`: the string is `l`, and the next element is a zero
      have hall := (List.takeWhile_prefix fun c : UInt16 => decide (c ≠ 0)).eq_of_length heq
      rw [List.takeWhile_cons, if_neg (by simp), List.append_nil, hall]
  · rfl

theorem copiedContent_snd_le (type : DriverMsgType) (buffer : WriteBuffer) :
    (copiedContent type buffer).2 ≤ previewSize := by
  unfold copiedContent
  split
  · split
    · exact Nat.zero_le _
    · exact List.length_take_le _ _
    · exact Nat.zero_le _
  · exact Nat.zero_le _

/-- The bytes of the array that count are the preview. -/
theorem take_filled_content (op : Intercepted) :
    (filled 0 previewSize (copiedContent op.type op.buffer).1).val.take
      (copiedContent op.type op.buffer).2 = op.preview := by
  unfold copiedContent Intercepted.preview
  cases htype : op.type <;> simp only [reduceCtorEq, ↓reduceIte, List.take_zero]
  cases op.buffer with
  | absent => rfl
  | faults bytes => rfl
  | readable bytes =>
      dsimp only
      rw [filled_val (List.length_take_le _ _), List.take_left]

theorem receive_encode (op : Intercepted) :
    receive (AkesoNotification.layout.encode op.notification) = some op.fileNotification := by
  have hcount := copiedContent_snd_le op.type op.buffer
  have hlength : (UInt32.ofNat (copiedContent op.type op.buffer).2).toNat =
      (copiedContent op.type op.buffer).2 := by
    rw [UInt32.toNat_ofNat']
    unfold previewSize at hcount
    omega
  have hpath := Nat.lt_succ_of_le (length_copiedPath op.name)
  simp only [receive, AkesoNotificationWire.decode_encode, AkesoNotification.wire,
    Intercepted.notification, msgTypeOf_code,
    volumeTypeOf_code, hlength, Nat.min_eq_left hcount, wideString_filled hpath,
    take_filled_content, Intercepted.fileNotification]

theorem readVerdict_replyBytes (verdict : DriverMsgType) :
    readVerdict (replyBytes verdict) = msgTypeCode verdict := by
  rw [readVerdict, replyBytes, AkesoReply.decode_encode, AkesoReplyWire.reply]

theorem msgTypeCode_injective : Function.Injective msgTypeCode := by
  intro type type' h
  have := congrArg msgTypeOf h
  simpa using this

theorem readVerdict_replyBytes_block {verdict : DriverMsgType} :
    readVerdict (replyBytes verdict) = msgTypeCode .verdictBlock ↔ verdict = .verdictBlock := by
  rw [readVerdict_replyBytes, msgTypeCode_injective.eq_iff]

/-- The driver and the agent agree on their messages: whatever operation is intercepted, the
agent makes of the bytes sent the notification of that operation, and the driver takes the
verdict that the agent chose from the bytes of the reply, so it sees a block exactly when the
agent said so. -/
theorem message_round_trip (op : Intercepted) (verdict : DriverMsgType) :
    receive (AkesoNotification.layout.encode op.notification) = some op.fileNotification ∧
      readVerdict (replyBytes verdict) = msgTypeCode verdict ∧
      (readVerdict (replyBytes verdict) = msgTypeCode .verdictBlock ↔ verdict = .verdictBlock) :=
  ⟨receive_encode op, readVerdict_replyBytes verdict, readVerdict_replyBytes_block⟩

end AkesoDlp.Agent.DriverMessage
