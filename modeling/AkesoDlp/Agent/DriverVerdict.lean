import AkesoDlp.Agent.DriverMessage
import AkesoDlp.Agent.DriverPort

/-!
# Writes and verdicts

`AkesoPreWrite` and `AkesoPostCreate` run on the threads that write and open files. They
read `ClientConnected`, test the operation, and call `AkesoSendNotification`, which tests
`ClientPort`, fills the record and waits in `FltSendMessage` for a reply, a timeout or the
end of the connection. The listener of the agent takes the messages of its connection one
after the other, and replies with the `MessageId` of each. All this interleaves, and with
the callbacks of the port.

Filter Manager is taken at its word: it hands the messages of a connection over in order,
gives a reply to the sender of the message it names if that is still waiting, and wakes
the senders of a connection that ends.
-/

namespace AkesoDlp.Agent.DriverVerdict

open Lib DriverFilter DriverMessage DriverPort

/-! ## Volumes -/

/-- `DEVICE_TYPE`, as far as it is told apart. -/
inductive DeviceType
  | networkFileSystem
  | network
  | cdRom
  | cdRomFileSystem
  | disk
  | diskFileSystem
  | other
deriving DecidableEq, Repr

/-- A volume: `removable` is `FILE_REMOVABLE_MEDIA` of its disk device, if it has one. -/
structure Volume where
  deviceType : DeviceType
  rawFileSystem : Bool
  removable : Option Bool
deriving DecidableEq, Repr

/-- `AkesoClassifyVolume`. -/
def akesoClassifyVolume (v : Volume) : VolumeType :=
  if v.deviceType = .networkFileSystem ∨ v.deviceType = .network then .network
  else if v.removable = some true then .removable
  else if v.deviceType = .disk ∨ v.deviceType = .diskFileSystem then .fixed
  else .unknown

/-- `AKESO_INSTANCE_CONTEXT`. -/
structure InstanceContext where
  volumeType : VolumeType
  monitorEnabled : Bool
deriving DecidableEq, Repr

inductive InstanceSetup
  | doNotAttach
  | attached (context : Option InstanceContext)
deriving DecidableEq, Repr

/-- `AkesoInstanceSetup`, with the outcomes of `FltAllocateContext` and
`FltSetInstanceContext`. -/
def akesoInstanceSetup (v : Volume) (allocated set : Bool) : InstanceSetup :=
  if v.deviceType = .cdRom ∨ v.deviceType = .cdRomFileSystem ∨ v.rawFileSystem then .doNotAttach
  else if allocated ∧ set then .attached (some ⟨akesoClassifyVolume v, true⟩)
  else .attached none

/-! ## Operations -/

inductive Irp
  | write (pagingIo : Bool) (buffer : WriteBuffer)
  | create (draining succeeded writeAccess : Bool)
deriving DecidableEq, Repr

/-- An operation on a file, with what the two queries for its name and the one for its size
come back with. -/
structure Operation where
  irp : Irp
  processId : UInt32
  setup : InstanceSetup
  nameInfo : Option NameInfo
  name : Option UnicodeString
  endOfFile : Option Int64

/-- `AkesoShouldSkipProcess`. -/
def akesoShouldSkipProcess (processId : UInt32) : Bool :=
  processId == 0 || processId == 4

section

variable (kernel : Kernel)

/-- The tests of the callbacks besides that of the client: the operation that is to be
notified, `none` where it is let through. -/
def Operation.notified (op : Operation) : Option Intercepted :=
  match op.setup with
  | .attached (some context) =>
      let wanted := match op.irp with
        | .write pagingIo _ => !pagingIo
        | .create draining succeeded writeAccess => !draining && succeeded && writeAccess
      let skipped := match op.nameInfo with
        | some nameInfo => akesoShouldSkipFile kernel nameInfo == some true
        | none => false
      if wanted && !akesoShouldSkipProcess op.processId && context.monitorEnabled && !skipped then
        some {
          type := match op.irp with
            | .write _ _ => .fileWrite
            | .create _ _ _ => .fileCreate
          processId := op.processId
          volumeType := context.volumeType
          name := op.name
          buffer := match op.irp with
            | .write _ buffer => buffer
            | .create _ _ _ => .absent
          endOfFile := op.endOfFile }
      else none
  | _ => none

/-! ## The system -/

/-- A message, whose `MessageId` is its place in the list of all. -/
structure Message where
  thread : Nat
  connection : Nat
  bytes : List UInt8
deriving DecidableEq, Repr

/-- The thread of an operation. -/
inductive Thread
  | idle
  /-- `AkesoSendNotification` is called. -/
  | notifying (op : Intercepted)
  /-- It has seen a `ClientPort` and filled the record. -/
  | sending (op : Intercepted)
  /-- It waits in `FltSendMessage`. -/
  | waiting (op : Intercepted) (id : Nat)
  /-- The operation goes on, or is denied; `id` is the message it waited for, if any. -/
  | finished (op : Option Intercepted) (id : Option Nat) (denied : Bool)

/-- A verdict of the agent, on what the callback was given, if one was set. -/
structure Decision where
  id : Nat
  notification : Option FileNotification
  verdict : DriverMsgType
  /-- `FilterReplyMessage` succeeded. -/
  delivered : Bool
deriving DecidableEq, Repr

structure System where
  port : Port
  threads : Nat → Thread
  messages : List Message
  /-- The messages of each connection that its listener has not fetched. -/
  queues : Nat → List Nat
  /-- The message that the listener of each connection is at. -/
  handling : Nat → Option Nat
  replies : Nat → Option (List UInt8)
  decisions : List Decision

def System.start : System where
  port := Port.start
  threads := fun _ => .idle
  messages := []
  queues := fun _ => []
  handling := fun _ => none
  replies := fun _ => none
  decisions := []

inductive Event
  | port (a : DriverPort.Action)
  /-- A callback is called: it reads `ClientConnected` and tests the operation. -/
  | intercept (w : Nat) (op : Operation)
  /-- `AkesoSendNotification` tests `ClientPort` and allocates the record. -/
  | testPort (w : Nat) (allocated : Bool)
  | send (w : Nat)
  /-- `FilterGetMessage` returns. -/
  | fetch (c : Nat)
  /-- The callback returns a verdict, or none is set, and `FilterReplyMessage` is called;
  `sent` is false where it fails by itself. -/
  | answer (c : Nat) (verdict : Option DriverMsgType) (sent : Bool)
  /-- `FltSendMessage` returns with the reply. -/
  | wake (w : Nat)
  | timeout (w : Nat)
  /-- `FltSendMessage` returns because the connection has ended. -/
  | abort (w : Nat)

/-- The agent holds its end of connection `c`. -/
def System.isOpen (s : System) (c : Nat) : Bool :=
  s.port.connections[c]? == some .portSet || s.port.connections[c]? == some .live

def System.setThread (s : System) (w : Nat) (t : Thread) : System :=
  { s with threads := Function.update s.threads w t }

/-- The thread that sent a message still waits for it. -/
def System.awaits (s : System) (id : Nat) : Bool :=
  match s.messages[id]? with
  | some m =>
      match s.threads m.thread with
      | .waiting _ id' => id == id' && (s.replies id).isNone
      | _ => false
  | none => false

def step (s : System) : Event → Option System
  | .port a => (DriverPort.step s.port a).map fun p => { s with port := p }
  | .intercept w op =>
      match s.threads w with
      | .idle =>
          if s.port.clientConnected then
            match op.notified kernel with
            | some i => some (s.setThread w (.notifying i))
            | none => some (s.setThread w (.finished none none false))
          else some (s.setThread w (.finished none none false))
      | _ => none
  | .testPort w allocated =>
      match s.threads w with
      | .notifying i =>
          if s.port.clientPort.isSome ∧ allocated then some (s.setThread w (.sending i))
          else some (s.setThread w (.finished (some i) none false))
      | _ => none
  | .send w =>
      match s.threads w with
      | .sending i =>
          match s.port.clientPort with
          | some c =>
              if s.isOpen c then
                some { s.setThread w (.waiting i s.messages.length) with
                  messages := s.messages ++ [⟨w, c, AkesoNotification.layout.encode i.notification⟩]
                  queues := Function.update s.queues c (s.queues c ++ [s.messages.length]) }
              else some (s.setThread w (.finished (some i) none false))
          | none => some (s.setThread w (.finished (some i) none false))
      | _ => none
  | .fetch c =>
      match s.handling c, s.queues c with
      | none, id :: rest =>
          if s.port.connections[c]? = some .live then
            some { s with
              queues := Function.update s.queues c rest
              handling := Function.update s.handling c (some id) }
          else none
      | _, _ => none
  | .answer c verdict sent =>
      match s.handling c with
      | some id =>
          match s.messages[id]? with
          | some m =>
              let delivered := sent && s.awaits id
              -- without a callback no notification is made, and the verdict is to allow
              let decided := verdict.getD .verdictAllow
              some { s with
                handling := Function.update s.handling c none
                replies := if delivered then
                  Function.update s.replies id (some (replyBytes decided)) else s.replies
                decisions := s.decisions ++ [⟨id, verdict.bind fun _ => receive m.bytes, decided,
                  delivered⟩] }
          | none => none
      | none => none
  | .wake w =>
      match s.threads w with
      | .waiting i id =>
          (s.replies id).map fun bytes =>
            s.setThread w (.finished (some i) (some id)
              (i.type == .fileWrite && readVerdict bytes == msgTypeCode .verdictBlock))
      | _ => none
  | .timeout w =>
      match s.threads w with
      | .waiting i id =>
          if s.replies id = none then some (s.setThread w (.finished (some i) (some id) false))
          else none
      | _ => none
  | .abort w =>
      match s.threads w with
      | .waiting i id =>
          match s.messages[id]? with
          | some m =>
              if s.replies id = none ∧ ¬ s.isOpen m.connection then
                some (s.setThread w (.finished (some i) (some id) false))
              else none
          | none => none
      | _ => none

/-- The driver and the agent. -/
def driver : TSys System Event where
  init := fun s => s = System.start
  step := step kernel

end

/-! ## What an event does -/

/-- The thread has sent no message, and denies nothing. -/
def Thread.Quiet : Thread → Prop
  | .idle | .notifying _ | .sending _ => True
  | .waiting _ _ => False
  | .finished _ id denied => id = none ∧ denied = false

/-- The reply to a message says to block. -/
def System.SaysBlock (s : System) (id : Nat) : Prop :=
  ∃ bytes, s.replies id = some bytes ∧ readVerdict bytes = msgTypeCode .verdictBlock

/-- The verdict is the callback's on what arrived, or to allow where no callback is set. -/
def Judged (m : Message) (notification : Option FileNotification) (verdict : DriverMsgType) :
    Prop :=
  notification = receive m.bytes ∨ notification = none ∧ verdict = .verdictAllow

/-- The events, by what they write. -/
inductive Effect (s : System) : System → Prop
  | port {p} (a : DriverPort.Action) : DriverPort.step s.port a = some p →
      Effect s { s with port := p }
  /-- A thread before its message, or one that sends none. -/
  | quiet {w t} : (s.threads w).Quiet → t.Quiet → Effect s (s.setThread w t)
  | send {w i c queues} : s.threads w = .sending i → s.isOpen c = true →
      Effect s { s.setThread w (.waiting i s.messages.length) with
        messages := s.messages ++ [⟨w, c, AkesoNotification.layout.encode i.notification⟩]
        queues := queues }
  | fetch {queues handling} : Effect s { s with queues := queues, handling := handling }
  /-- The listener ends its turn for a message whose sender does not wait, or whose reply
  fails. -/
  | unheard {id m handling notification verdict} : s.messages[id]? = some m →
      Judged m notification verdict →
      Effect s { s with
        handling := handling
        decisions := s.decisions ++ [⟨id, notification, verdict, false⟩] }
  | reply {id m handling notification verdict} : s.messages[id]? = some m →
      Judged m notification verdict →
      (∃ i, s.threads m.thread = .waiting i id) → s.replies id = none →
      Effect s { s with
        handling := handling
        replies := Function.update s.replies id (some (replyBytes verdict))
        decisions := s.decisions ++ [⟨id, notification, verdict, true⟩] }
  | finish {w i id denied} : s.threads w = .waiting i id →
      (denied = true ↔ i.type = .fileWrite ∧ s.SaysBlock id) →
      Effect s (s.setThread w (.finished (some i) (some id) denied))

theorem awaits_iff {s : System} {id : Nat} {m : Message} (hm : s.messages[id]? = some m) :
    s.awaits id = true ↔ (∃ i, s.threads m.thread = .waiting i id) ∧ s.replies id = none := by
  unfold System.awaits
  rw [hm]
  dsimp only
  split
  · next i id' ht =>
    rw [Bool.and_eq_true, beq_iff_eq, Option.isNone_iff_eq_none, ht]
    constructor
    · rintro ⟨rfl, hr⟩
      exact ⟨⟨i, rfl⟩, hr⟩
    · rintro ⟨⟨i', h⟩, hr⟩
      cases h
      exact ⟨rfl, hr⟩
  · next hno =>
    refine iff_of_false Bool.false_ne_true ?_
    rintro ⟨⟨i, hi⟩, -⟩
    exact hno i id hi

variable {kernel : Kernel}

theorem effect_answer {s s' : System} {c : Nat} {verdict : Option DriverMsgType} {sent : Bool}
    (h : step kernel s (.answer c verdict sent) = some s') : Effect s s' := by
  simp only [step] at h
  split at h
  · next id _ =>
    split at h
    · next m hm =>
      obtain rfl := Option.some.inj h
      have hjudged : Judged m (verdict.bind fun _ => receive m.bytes)
          (verdict.getD .verdictAllow) := by
        cases verdict with
        | none => exact .inr ⟨rfl, rfl⟩
        | some v => exact .inl rfl
      cases hdelivered : (sent && s.awaits id)
      · exact .unheard hm hjudged
      · rw [Bool.and_eq_true, awaits_iff hm] at hdelivered
        exact .reply hm hjudged hdelivered.2.1 hdelivered.2.2
    · cases h
  · cases h

theorem effect_send {s s' : System} {w : Nat} (h : step kernel s (.send w) = some s') :
    Effect s s' := by
  simp only [step] at h
  split at h
  · next i hi =>
    have hquiet : (s.threads w).Quiet := by
      rw [hi]
      trivial
    split at h
    · next c _ =>
      split at h
      · next hopen => exact Option.some.inj h ▸ .send hi hopen
      · exact Option.some.inj h ▸ .quiet hquiet ⟨rfl, rfl⟩
    · exact Option.some.inj h ▸ .quiet hquiet ⟨rfl, rfl⟩
  · cases h

theorem effect_of_step {s s' : System} {e : Event} (h : step kernel s e = some s') :
    Effect s s' := by
  cases e with
  | port a =>
      rw [step, Option.map_eq_some_iff] at h
      obtain ⟨p, hp, rfl⟩ := h
      exact .port a hp
  | intercept w op =>
      simp only [step] at h
      split at h
      · next hi =>
        have hquiet : (s.threads w).Quiet := by
          rw [hi]
          trivial
        split at h
        · split at h
          · exact Option.some.inj h ▸ .quiet hquiet trivial
          · exact Option.some.inj h ▸ .quiet hquiet ⟨rfl, rfl⟩
        · exact Option.some.inj h ▸ .quiet hquiet ⟨rfl, rfl⟩
      · cases h
  | testPort w allocated =>
      simp only [step] at h
      split at h
      · next i hi =>
        have hquiet : (s.threads w).Quiet := by
          rw [hi]
          trivial
        split at h
        · exact Option.some.inj h ▸ .quiet hquiet trivial
        · exact Option.some.inj h ▸ .quiet hquiet ⟨rfl, rfl⟩
      · cases h
  | send w => exact effect_send h
  | fetch c =>
      simp only [step] at h
      split at h
      · rw [Option.ite_none_right_eq_some, Option.some.injEq] at h
        exact h.2 ▸ .fetch
      · cases h
  | answer c verdict sent => exact effect_answer h
  | wake w =>
      simp only [step] at h
      split at h
      · next i id hw =>
        rw [Option.map_eq_some_iff] at h
        obtain ⟨bytes, hbytes, rfl⟩ := h
        refine .finish hw ?_
        rw [Bool.and_eq_true, beq_iff_eq, beq_iff_eq, System.SaysBlock, hbytes]
        simp
      · cases h
  | timeout w =>
      simp only [step] at h
      split at h
      · next i id hw =>
        rw [Option.ite_none_right_eq_some, Option.some.injEq] at h
        obtain ⟨hnone, rfl⟩ := h
        exact .finish hw (by simp [System.SaysBlock, hnone])
      · cases h
  | abort w =>
      simp only [step] at h
      split at h
      · next i id hw =>
        split at h
        · rw [Option.ite_none_right_eq_some, Option.some.injEq] at h
          obtain ⟨⟨hnone, -⟩, rfl⟩ := h
          exact .finish hw (by simp [System.SaysBlock, hnone])
        · cases h
      · cases h

/-! ## What every run keeps -/

/-- The thread sent message `id`, for operation `i`. -/
def Thread.Sent (t : Thread) (i : Intercepted) (id : Nat) : Prop :=
  t = .waiting i id ∨ ∃ denied, t = .finished (some i) (some id) denied

/-- The connection was let in. -/
def LetIn (p : Port) (c : Nat) : Prop :=
  ∃ stage, p.connections[c]? = some stage ∧ (stage.accepted = true ∨ stage = .gone)

structure Inv (s : System) : Prop where
  /-- A message is the record of the operation that its thread is at. -/
  sent : ∀ w i id, (s.threads w).Sent i id →
    ∃ c, s.messages[id]? = some ⟨w, c, AkesoNotification.layout.encode i.notification⟩
  sender : ∀ id m, s.messages[id]? = some m → ∃ i, (s.threads m.thread).Sent i id
  letIn : ∀ m ∈ s.messages, LetIn s.port m.connection
  /-- The replies are those of the decisions that were delivered. -/
  replied : ∀ id bytes, s.replies id = some bytes →
    ∃ d ∈ s.decisions, d.id = id ∧ d.delivered = true ∧ bytes = replyBytes d.verdict
  delivered : ∀ d ∈ s.decisions, d.delivered = true →
    s.replies d.id = some (replyBytes d.verdict)
  judged : ∀ d ∈ s.decisions, ∃ m, s.messages[d.id]? = some m ∧ Judged m d.notification d.verdict
  outcome : ∀ w i id denied, s.threads w = .finished (some i) (some id) denied →
    (denied = true ↔ i.type = .fileWrite ∧ s.SaysBlock id)
  unsent : ∀ w i id denied, s.threads w = .finished i id denied → (i = none ∨ id = none) →
    denied = false

theorem inv_start : Inv System.start := by
  constructor <;> simp [System.start, Thread.Sent]

theorem Thread.Quiet.not_sent {t : Thread} (h : t.Quiet) {i : Intercepted} {id : Nat} :
    ¬ t.Sent i id := by
  rintro (rfl | ⟨denied, rfl⟩)
  · exact h
  · cases h.1

/-- Setting one thread leaves the others. -/
theorem setThread_threads {s : System} {w w' : Nat} {t : Thread} :
    (s.setThread w t).threads w' = if w' = w then t else s.threads w' := by
  simp [System.setThread, Function.update_apply]

theorem letIn_advance {p p' : Port} {c c' : Nat} {from' next : Stage} {write : Port → Port}
    (h : LetIn p c) (hp : p.advance c' from' next write = some p')
    (hwrite : ∀ q, (write q).connections = q.connections)
    (hnext : next.accepted = true ∨ next = .gone ∨ from' = .refusing) : LetIn p' c := by
  obtain ⟨stage, hc, hin⟩ := h
  obtain ⟨hfrom, rfl⟩ := advance_eq_some hp
  by_cases hcc : c' = c
  · subst hcc
    obtain rfl := Option.some.inj (hc.symm.trans hfrom)
    refine ⟨next, ?_, ?_⟩
    · rw [hwrite, List.getElem?_set_self (List.getElem?_eq_some_iff.mp hc).1]
    · rcases hnext with hacc | rfl | rfl
      · exact .inl hacc
      · exact .inr rfl
      · -- a connection that is being refused was not let in
        rcases hin with hacc | hgone
        · cases hacc
        · cases hgone
  · exact ⟨stage, by rw [hwrite, List.getElem?_set_ne hcc, hc], hin⟩

/-- Connections that were let in stay so. -/
theorem letIn_step {p p' : Port} {a : DriverPort.Action} {c : Nat} (h : LetIn p c)
    (hstep : DriverPort.step p a = some p') : LetIn p' c := by
  rw [DriverPort.step.eq_def] at hstep
  cases a with
  | connect =>
      obtain ⟨stage, hc, hin⟩ := h
      have hlt : c < p.connections.length := (List.getElem?_eq_some_iff.mp hc).1
      dsimp only at hstep
      split at hstep <;> obtain rfl := Option.some.inj hstep <;>
        exact ⟨stage, by rw [List.getElem?_append_left hlt, hc], hin⟩
  | refuse => exact letIn_advance h hstep (fun _ => rfl) (.inr (.inr rfl))
  | leave => exact letIn_advance h hstep (fun _ => rfl) (.inr (.inl rfl))
  | setPort => exact letIn_advance h hstep (fun _ => rfl) (.inl rfl)
  | setConnected => exact letIn_advance h hstep (fun _ => rfl) (.inl rfl)
  | hangUp => exact letIn_advance h hstep (fun _ => rfl) (.inl rfl)
  | closePort => exact letIn_advance h hstep (fun _ => rfl) (.inl rfl)
  | clearPort => exact letIn_advance h hstep (fun _ => rfl) (.inl rfl)
  | clearConnected => exact letIn_advance h hstep (fun _ => rfl) (.inl rfl)

theorem letIn_of_isOpen {s : System} {c : Nat} (h : s.isOpen c = true) : LetIn s.port c := by
  rw [System.isOpen, Bool.or_eq_true, beq_iff_eq, beq_iff_eq] at h
  rcases h with h | h
  · exact ⟨_, h, .inl rfl⟩
  · exact ⟨_, h, .inl rfl⟩

/-- A decision more, whose reply does not arrive. -/
theorem inv_unheard {s : System} {id : Nat} {m : Message} {handling : Nat → Option Nat}
    {notification : Option FileNotification} {verdict : DriverMsgType} (h : Inv s)
    (hm : s.messages[id]? = some m)
    (hjudged : Judged m notification verdict) :
    Inv { s with
      handling := handling
      decisions := s.decisions ++ [⟨id, notification, verdict, false⟩] } where
  sent := h.sent
  sender := h.sender
  letIn := h.letIn
  outcome := h.outcome
  unsent := h.unsent
  replied := by
    intro id' bytes hb
    obtain ⟨d, hd, hrest⟩ := h.replied id' bytes hb
    exact ⟨d, List.mem_append_left _ hd, hrest⟩
  delivered := by
    intro d hd hdelivered
    rcases List.mem_append.mp hd with hd | hd
    · exact h.delivered d hd hdelivered
    · rw [List.mem_singleton.mp hd] at hdelivered
      cases hdelivered
  judged := by
    intro d hd
    rcases List.mem_append.mp hd with hd | hd
    · exact h.judged d hd
    · rw [List.mem_singleton.mp hd]
      exact ⟨m, hm, hjudged⟩

/-- A reply reaches the thread that waits for it. -/
theorem inv_reply {s : System} {id : Nat} {m : Message} {handling : Nat → Option Nat}
    {notification : Option FileNotification} {verdict : DriverMsgType} (h : Inv s)
    (hm : s.messages[id]? = some m)
    (hjudged : Judged m notification verdict)
    (hwaits : ∃ i, s.threads m.thread = .waiting i id) (hnone : s.replies id = none) :
    Inv { s with
      handling := handling
      replies := Function.update s.replies id (some (replyBytes verdict))
      decisions := s.decisions ++ [⟨id, notification, verdict, true⟩] } where
  sent := h.sent
  sender := h.sender
  letIn := h.letIn
  unsent := h.unsent
  replied := by
    intro id' bytes hb
    dsimp only at hb
    by_cases hid : id' = id
    · subst hid
      rw [Function.update_self, Option.some.injEq] at hb
      exact ⟨_, List.mem_append_right _ (List.mem_singleton.mpr rfl), rfl, rfl, hb.symm⟩
    · rw [Function.update_of_ne hid] at hb
      obtain ⟨d, hd, hrest⟩ := h.replied id' bytes hb
      exact ⟨d, List.mem_append_left _ hd, hrest⟩
  delivered := by
    intro d hd hdelivered
    rcases List.mem_append.mp hd with hd | hd
    · have hold := h.delivered d hd hdelivered
      have hne : d.id ≠ id := by
        intro heq
        rw [heq, hnone] at hold
        cases hold
      dsimp only
      rw [Function.update_of_ne hne, hold]
    · rw [List.mem_singleton.mp hd]
      exact Function.update_self ..
  judged := by
    intro d hd
    rcases List.mem_append.mp hd with hd | hd
    · exact h.judged d hd
    · rw [List.mem_singleton.mp hd]
      exact ⟨m, hm, hjudged⟩
  outcome := by
    intro w i id' denied hw
    -- the message of a thread that has finished is not the one replied to
    have hne : id' ≠ id := by
      rintro rfl
      obtain ⟨c, hc⟩ := h.sent w i id' (.inr ⟨denied, hw⟩)
      obtain rfl := Option.some.inj (hm.symm.trans hc)
      obtain ⟨i', hi'⟩ := hwaits
      rw [hw] at hi'
      cases hi'
    rw [h.outcome w i id' denied hw, System.SaysBlock, System.SaysBlock]
    dsimp only
    rw [Function.update_of_ne hne]

/-- A thread without a message is set to another such state. -/
theorem inv_quiet {s : System} {w : Nat} {t : Thread} (h : Inv s) (hbefore : (s.threads w).Quiet)
    (hafter : t.Quiet) : Inv (s.setThread w t) where
  letIn := h.letIn
  replied := h.replied
  delivered := h.delivered
  judged := h.judged
  sent := by
    intro w' i id hsent
    rw [setThread_threads] at hsent
    split at hsent
    · exact absurd hsent hafter.not_sent
    · exact h.sent w' i id hsent
  sender := by
    intro id m hm
    obtain ⟨i, hi⟩ := h.sender id m hm
    refine ⟨i, ?_⟩
    rw [setThread_threads, if_neg]
    · exact hi
    · intro hw
      exact hbefore.not_sent (hw ▸ hi)
  outcome := by
    intro w' i id denied hw'
    rw [setThread_threads] at hw'
    split at hw'
    · exact absurd (.inr ⟨denied, hw'⟩) hafter.not_sent
    · exact h.outcome w' i id denied hw'
  unsent := by
    intro w' i id denied hw' hnone
    rw [setThread_threads] at hw'
    split at hw'
    · subst hw'
      exact hafter.2
    · exact h.unsent w' i id denied hw' hnone

/-- A message more, for which its thread begins to wait. -/
theorem inv_send {s : System} {w c : Nat} {i : Intercepted} {queues : Nat → List Nat} (h : Inv s)
    (hw : s.threads w = .sending i) (hopen : s.isOpen c = true) :
    Inv { s.setThread w (.waiting i s.messages.length) with
      messages := s.messages ++ [⟨w, c, AkesoNotification.layout.encode i.notification⟩]
      queues := queues } where
  replied := h.replied
  delivered := h.delivered
  letIn := by
    intro m hm
    rcases List.mem_append.mp hm with hm | hm
    · exact h.letIn m hm
    · rw [List.mem_singleton.mp hm]
      exact letIn_of_isOpen hopen
  judged := by
    intro d hd
    obtain ⟨m, hm, hn⟩ := h.judged d hd
    have hlt := (List.getElem?_eq_some_iff.mp hm).1
    exact ⟨m, by rw [List.getElem?_append_left hlt, hm], hn⟩
  sent := by
    intro w' i' id hsent
    rw [setThread_threads] at hsent
    split at hsent
    · next heq =>
      rcases hsent with hwait | ⟨denied, hfin⟩
      · cases hwait
        exact ⟨c, by rw [heq, List.getElem?_concat_length]⟩
      · cases hfin
    · obtain ⟨c', hm⟩ := h.sent w' i' id hsent
      have hlt := (List.getElem?_eq_some_iff.mp hm).1
      exact ⟨c', by rw [List.getElem?_append_left hlt, hm]⟩
  sender := by
    intro id m hm
    rw [List.getElem?_append] at hm
    split at hm
    · obtain ⟨i', hi'⟩ := h.sender id m hm
      refine ⟨i', ?_⟩
      rw [setThread_threads, if_neg]
      · exact hi'
      · intro heq
        rw [heq, hw] at hi'
        rcases hi' with hwait | ⟨denied, hfin⟩
        · cases hwait
        · cases hfin
    · rw [List.getElem?_singleton, Option.ite_none_right_eq_some, Option.some.injEq] at hm
      obtain ⟨hid, rfl⟩ := hm
      refine ⟨i, .inl ?_⟩
      rw [setThread_threads, if_pos rfl]
      congr 1
      omega
  outcome := by
    intro w' i' id denied hw'
    rw [setThread_threads] at hw'
    split at hw'
    · cases hw'
    · exact h.outcome w' i' id denied hw'
  unsent := by
    intro w' i' id denied hw' hnone
    rw [setThread_threads] at hw'
    split at hw'
    · cases hw'
    · exact h.unsent w' i' id denied hw' hnone

/-- A thread stops waiting. -/
theorem inv_finish {s : System} {w id : Nat} {i : Intercepted} {denied : Bool} (h : Inv s)
    (hw : s.threads w = .waiting i id)
    (hdenied : denied = true ↔ i.type = .fileWrite ∧ s.SaysBlock id) :
    Inv (s.setThread w (.finished (some i) (some id) denied)) where
  letIn := h.letIn
  replied := h.replied
  delivered := h.delivered
  judged := h.judged
  sent := by
    intro w' i' id' hsent
    rw [setThread_threads] at hsent
    split at hsent
    · next heq =>
      subst heq
      rcases hsent with hwait | ⟨denied', hfin⟩
      · cases hwait
      · cases hfin
        exact h.sent w' i id (.inl hw)
    · exact h.sent w' i' id' hsent
  sender := by
    intro id' m hm
    obtain ⟨i', hi'⟩ := h.sender id' m hm
    by_cases heq : m.thread = w
    · rw [heq, hw] at hi'
      rcases hi' with hwait | ⟨denied', hfin⟩
      · cases hwait
        exact ⟨i, .inr ⟨denied, by rw [setThread_threads, if_pos heq]⟩⟩
      · cases hfin
    · exact ⟨i', by rw [setThread_threads, if_neg heq]; exact hi'⟩
  outcome := by
    intro w' i' id' denied' hw'
    rw [setThread_threads] at hw'
    split at hw'
    · cases hw'
      exact hdenied
    · exact h.outcome w' i' id' denied' hw'
  unsent := by
    intro w' i' id' denied' hw' hnone
    rw [setThread_threads] at hw'
    split at hw'
    · cases hw'
      rcases hnone with hnone | hnone
      · cases hnone
      · cases hnone
    · exact h.unsent w' i' id' denied' hw' hnone

theorem inv_step {s s' : System} {e : Event} (h : Inv s) (hstep : step kernel s e = some s') :
    Inv s' := by
  cases effect_of_step hstep with
  | port a hp => exact { h with letIn := fun m hm => letIn_step (h.letIn m hm) hp }
  | quiet hbefore hafter => exact inv_quiet h hbefore hafter
  | send hw hopen => exact inv_send h hw hopen
  | fetch => exact { h with }
  | unheard hm hjudged => exact inv_unheard h hm hjudged
  | reply hm hjudged hwaits hnone => exact inv_reply h hm hjudged hwaits hnone
  | finish hw hdenied => exact inv_finish h hw hdenied

theorem inv_inductive : (driver kernel).InductiveBy (fun _ _ => True) Inv where
  init := by
    rintro s rfl
    exact inv_start
  step := fun _ _ _ h _ hstep => inv_step h hstep

/-! ## What is denied -/

/-- What a run of the driver and the agent has come to. -/
structure Faithful (s : System) : Prop where
  /-- An operation is denied exactly when it is a write and its thread was given, for its own
  message, a verdict to block that the agent reached on the notification of this write. -/
  denied_iff : ∀ w i id denied, s.threads w = .finished i id denied →
    (denied = true ↔ ∃ op, i = some op ∧ op.type = .fileWrite ∧ ∃ d ∈ s.decisions, id = some d.id ∧
      d.delivered = true ∧ d.notification = some op.fileNotification ∧ d.verdict = .verdictBlock)
  /-- Whatever the callback was given is the notification of the operation whose thread sent
  the message. -/
  informed : ∀ d ∈ s.decisions, ∀ n, d.notification = some n → ∃ m op,
    s.messages[d.id]? = some m ∧ (s.threads m.thread).Sent op d.id ∧ n = op.fileNotification
  /-- Messages go to connections that were let in. -/
  letIn : ∀ m ∈ s.messages, LetIn s.port m.connection

/-- What is made of a message is the notification of the operation that it was sent for. -/
theorem Inv.received {s : System} (h : Inv s) {w id : Nat} {i : Intercepted}
    (hsent : (s.threads w).Sent i id) {m : Message} (hm : s.messages[id]? = some m) :
    receive m.bytes = some i.fileNotification := by
  obtain ⟨c, hc⟩ := h.sent w i id hsent
  obtain rfl := Option.some.inj (hm.symm.trans hc)
  exact receive_encode i

theorem Inv.blocked {s : System} (h : Inv s) {w id : Nat} {i : Intercepted} {denied : Bool}
    (hw : s.threads w = .finished (some i) (some id) denied) :
    denied = true ↔ i.type = .fileWrite ∧ ∃ d ∈ s.decisions, id = d.id ∧ d.delivered = true ∧
      d.notification = some i.fileNotification ∧ d.verdict = .verdictBlock := by
  rw [h.outcome w i id denied hw]
  refine and_congr_right fun _ => ⟨?_, ?_⟩
  · rintro ⟨bytes, hbytes, hblock⟩
    obtain ⟨d, hd, rfl, hdelivered, rfl⟩ := h.replied id bytes hbytes
    have hverdict := readVerdict_replyBytes_block.mp hblock
    obtain ⟨m, hm, hjudged | ⟨-, hallow⟩⟩ := h.judged d hd
    · exact ⟨d, hd, rfl, hdelivered, hjudged.trans (h.received (.inr ⟨denied, hw⟩) hm), hverdict⟩
    · rw [hverdict] at hallow
      cases hallow
  · rintro ⟨d, hd, rfl, hdelivered, -, hverdict⟩
    exact ⟨_, h.delivered d hd hdelivered, readVerdict_replyBytes_block.mpr hverdict⟩

/-- However the threads, the listeners and the callbacks of the port interleave, whatever
volumes and operations there are, and whatever times out or ends, a thread is denied its
operation exactly when it writes and the agent blocked that very write, judging the bytes
that it was about to write; no verdict reaches the thread of another operation. -/
theorem write_denied_iff (kernel : Kernel) {s : System} (h : (driver kernel).Reachable s) :
    Faithful s := by
  have hinv := inv_inductive.invariant s h
  refine ⟨?_, ?_, hinv.letIn⟩
  · intro w i id denied hw
    rcases i with - | i
    · have := hinv.unsent w none id denied hw (.inl rfl)
      simp [this]
    rcases id with - | id
    · have := hinv.unsent w (some i) none denied hw (.inr rfl)
      simp [this]
    · rw [hinv.blocked hw]
      simp
  · intro d hd n hn
    obtain ⟨m, hm, hjudged | ⟨hnone, -⟩⟩ := hinv.judged d hd
    · obtain ⟨op, hop⟩ := hinv.sender d.id m hm
      have hreceived := hinv.received hop hm
      rw [← hjudged, hn, Option.some.injEq] at hreceived
      exact ⟨m, op, hm, hop, hreceived⟩
    · rw [hn] at hnone
      cases hnone

/-- A write of three bytes on a USB disk. -/
def sampleWrite : Operation where
  irp := .write false (.readable [0x35, 0x31, 0x30])
  processId := 4321
  setup := akesoInstanceSetup ⟨.disk, false, some true⟩ true true
  nameInfo := none
  name := none
  endOfFile := none

/-- Two threads write; the first to send gives up before the agent answers it, and the agent
blocks both writes. -/
def sampleEvents : List Event :=
  [.port .connect, .port (.setPort 0), .port (.setConnected 0),
    .intercept 0 sampleWrite, .intercept 1 { sampleWrite with processId := 77 },
    .testPort 1 true, .testPort 0 true, .send 1, .send 0, .fetch 0, .timeout 1,
    .answer 0 (some .verdictBlock) true, .fetch 0, .answer 0 (some .verdictBlock) true, .wake 0]

theorem write_denied_iff_two : ∃ s i, (driver asciiKernel).run System.start sampleEvents = some s ∧
    s.threads 0 = .finished (some i) (some 1) true ∧
    (∃ i', s.threads 1 = .finished (some i') (some 0) false) ∧ Faithful s :=
  ⟨_, _, rfl, rfl, ⟨_, rfl⟩, write_denied_iff asciiKernel (TSys.reachable_run
    (TSys.ReachableBy.init rfl) sampleEvents rfl)⟩

end AkesoDlp.Agent.DriverVerdict
