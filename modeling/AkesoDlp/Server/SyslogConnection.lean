import AkesoDlp.Lib.TSys
import AkesoDlp.Server.SyslogExporter

/-!
# The connections of the syslog exporter

The socket is made for the first message and kept. When a message cannot be written the
socket is closed, and the next message makes another; `test_connection` closes it only when
the test went well. A socket whose connection timed out may connect later on, but over TLS
it has given up its handshake by then.
-/

namespace AkesoDlp.Server.Syslog

open Lib
open Inspector (PyStr py decimal strInt)
open Reports (Datetime IncidentRecord)

/-! ## The exporter -/

/-- How `_ensure_connection` comes out where there is no socket. -/
inductive Connecting
  | made
  /-- There is no socket, or it cannot be wrapped. -/
  | noSocket
  /-- `connect` raises, and there is no connection. -/
  | refused
  /-- `connect` raises while the connection is still being made. -/
  | timedOut
  /-- The handshake raises: the TCP connection is there, and the socket has given up TLS. -/
  | handshakeFails
deriving DecidableEq, Repr

/-- UDP does not connect, and only TLS has a handshake. -/
def Connecting.possible (transport : SyslogTransport) : Connecting → Bool
  | .made | .noSocket => true
  | .refused | .timedOut => transport != .udp
  | .handshakeFails => transport == .tls

/-- What went out on a socket. -/
structure Connection where
  handshake : Bool
  writes : List (List UInt8)
  /-- The messages whose write returned. -/
  sent : List PyStr
  /-- The message whose write raised. -/
  failed : Option PyStr
deriving DecidableEq, Repr

inductive Socket
  | absent
  | unconnected
  /-- Without a connection yet, and without TLS. -/
  | connecting
  | connected (c : Connection)
deriving DecidableEq, Repr

structure Exporter where
  socket : Socket
  /-- The connections whose socket was closed. -/
  closed : List Connection
  /-- The messages of the calls that returned `True`. -/
  returned : List PyStr
deriving DecidableEq, Repr

def Exporter.start : Exporter where
  socket := .absent
  closed := []
  returned := []

def Connection.made (transport : SyslogTransport) : Connection where
  handshake := transport == .tls
  writes := []
  sent := []
  failed := none

def Connection.plain : Connection where
  handshake := false
  writes := []
  sent := []
  failed := none

def Connection.wrote (c : Connection) (transport : SyslogTransport) (message : PyStr) :
    Connection where
  handshake := c.handshake
  writes := c.writes ++ [sendMessage transport message]
  sent := c.sent ++ [message]
  failed := c.failed

/-- The first bytes are on their way when `sendall` raises; a datagram is not. -/
def Connection.gaveUp (c : Connection) (transport : SyslogTransport) (message : PyStr)
    (count : Nat) : Connection where
  handshake := c.handshake
  writes := match transport with
    | .udp => c.writes
    | .tcp | .tls => c.writes ++ [(sendMessage transport message).take count]
  sent := c.sent
  failed := some message

/-- `_ensure_connection`, and whether it returned. -/
def Exporter.ensureConnection (e : Exporter) (transport : SyslogTransport)
    (connecting : Connecting) : Exporter × Bool :=
  match e.socket, connecting with
  | .absent, .made => ({ e with socket := .connected (.made transport) }, true)
  | .absent, .noSocket => (e, false)
  | .absent, .refused => ({ e with socket := .unconnected }, false)
  | .absent, .timedOut => ({ e with socket := .connecting }, false)
  | .absent, .handshakeFails => ({ e with socket := .connected .plain }, false)
  | _, _ => (e, true)

/-- `_send_message`, and whether it returned; `write` is the number of bytes taken before it
raised. -/
def Exporter.sendMessage (e : Exporter) (transport : SyslogTransport) (message : PyStr)
    (write : Option Nat) : Exporter × Bool :=
  match e.socket, write with
  | .connected c, none => ({ e with socket := .connected (c.wrote transport message) }, true)
  | .connected c, some count =>
      ({ e with socket := .connected (c.gaveUp transport message count) }, false)
  -- `sendall` has waited for the connection
  | .connecting, none =>
      ({ e with socket := .connected (Connection.plain.wrote transport message) }, true)
  | .connecting, some (count + 1) =>
      ({ e with
        socket := .connected (Connection.plain.gaveUp transport message (count + 1)) }, false)
  -- a socket without a connection does not take anything
  | _, _ => (e, false)

/-- `_close`. -/
def Exporter.close (e : Exporter) : Exporter :=
  match e.socket with
  | .connected c => { e with socket := .absent, closed := e.closed ++ [c] }
  | _ => { e with socket := .absent }

/-- The two calls that `send` and `test_connection` try. -/
def Exporter.attempt (e : Exporter) (transport : SyslogTransport) (message : PyStr)
    (connecting : Connecting) (write : Option Nat) : Exporter × Bool :=
  match e.ensureConnection transport connecting with
  | (e, true) => e.sendMessage transport message write
  | (e, false) => (e, false)

section

variable (config : SyslogConfig) (epochMillis : Datetime → Int)

/-- `send`, and what it returns. -/
def Exporter.send (e : Exporter) (incident : IncidentRecord) (connecting : Connecting)
    (write : Option Nat) : Exporter × Bool :=
  if severityPassesFilter incident.severity config.minSeverity then
    let message := syslogMessage config epochMillis incident
    match e.attempt config.transport message connecting write with
    | (e, true) => ({ e with returned := e.returned ++ [message] }, true)
    | (e, false) => (e.close, false)
  else (e, true)

def testMessage : PyStr :=
  py "<" ++ strInt (config.facility * 8 + 6) ++
    py ">CEF:0|AkesoDLP|DLP|1.0|0|Connection Test|0|msg=test"

/-- `test_connection`, and the first of what it returns. -/
def Exporter.testConnection (e : Exporter) (connecting : Connecting) (write : Option Nat) :
    Exporter × Bool :=
  match e.attempt config.transport (testMessage config) connecting write with
  | (e, true) => ({ e.close with returned := e.returned ++ [testMessage config] }, true)
  | (e, false) => (e, false)

inductive Call
  | send (incident : IncidentRecord) (connecting : Connecting) (write : Option Nat)
  | testConnection (connecting : Connecting) (write : Option Nat)

def callStep (e : Exporter) : Call → Option Exporter
  | .send incident connecting write =>
      if connecting.possible config.transport then
        some (e.send config epochMillis incident connecting write).1
      else none
  | .testConnection connecting write =>
      if connecting.possible config.transport then
        some (e.testConnection config connecting write).1
      else none

def exporter : TSys Exporter Call where
  init := fun e => e = Exporter.start
  step := callStep config epochMillis

/-- There is no connection, and none on its way. -/
def Socket.Idle (socket : Socket) : Prop :=
  socket ≠ .connecting ∧ ∀ c, socket ≠ .connected c

/-- A test leaves no socket that may take a message. -/
def TestsClose (e : Exporter) (call : Call) : Prop :=
  ∀ connecting write, call = .testConnection connecting write →
    (e.testConnection config connecting write).1.socket.Idle

end

/-! ## What an attempt does -/

/-- The message goes to the connection. -/
def Exporter.Uses (e : Exporter) (transport : SyslogTransport) (c : Connection) : Prop :=
  e.socket = .connected c ∨ e.socket = .absent ∧ c = .made transport

inductive Attempt (transport : SyslogTransport) (message : PyStr) (e : Exporter) :
    Exporter → Bool → Prop
  | sent {c} : e.Uses transport c →
      Attempt transport message e { e with socket := .connected (c.wrote transport message) } true
  | gaveUp {c} (count : Nat) : e.Uses transport c →
      Attempt transport message e
        { e with socket := .connected (c.gaveUp transport message count) } false
  | handshake : e.socket = .absent → Attempt transport message e
      { e with socket := .connected .plain } false
  | unconnected {socket} : (∀ c, e.socket ≠ .connected c) → (∀ c, socket ≠ .connected c) →
      Attempt transport message e { e with socket := socket } false

theorem attempt_cases (transport : SyslogTransport) (message : PyStr) {e : Exporter}
    (he : e.socket ≠ .connecting) (connecting : Connecting) (write : Option Nat) :
    Attempt transport message e (e.attempt transport message connecting write).1
      (e.attempt transport message connecting write).2 := by
  obtain ⟨socket, closed, returned⟩ := e
  have hsend (c : Connection) (h : Exporter.Uses ⟨socket, closed, returned⟩ transport c) :
      Attempt transport message ⟨socket, closed, returned⟩
        (Exporter.sendMessage ⟨.connected c, closed, returned⟩ transport message write).1
        (Exporter.sendMessage ⟨.connected c, closed, returned⟩ transport message write).2 := by
    cases write with
    | none => exact .sent h
    | some count => exact .gaveUp count h
  cases socket with
  | absent =>
      cases connecting with
      | made => exact hsend _ (.inr ⟨rfl, rfl⟩)
      | noSocket => exact .unconnected nofun nofun
      | refused =>
          show Attempt transport message _ { socket := .unconnected, closed, returned } false
          exact .unconnected nofun nofun
      | timedOut =>
          show Attempt transport message _ { socket := .connecting, closed, returned } false
          exact .unconnected nofun nofun
      | handshakeFails => exact .handshake rfl
  | unconnected => exact .unconnected nofun nofun
  | connecting => exact absurd rfl he
  | connected c => exact hsend c (.inl rfl)

/-! ## What has gone out -/

/-- What the writes on a connection amount to. -/
structure Connection.Sound (transport : SyslogTransport) (c : Connection) : Prop where
  datagrams : transport = .udp → c.writes = c.sent.map Utf8.encode
  /-- The messages sent, and after them a part of the one that was given up. -/
  stream : transport ≠ .udp → ∃ tail, c.writes.flatten =
    decimalPrefix.stream (c.sent.map Utf8.encode) ++ tail ∧
      tail <+: decimalPrefix.stream (c.failed.toList.map Utf8.encode)
  encrypted : transport = .tls → c.writes ≠ [] → c.handshake = true

/-- The next message may follow. -/
structure Connection.Open (transport : SyslogTransport) (c : Connection) : Prop where
  sound : c.Sound transport
  failed : c.failed = none
  handshake : transport = .tls → c.handshake = true

theorem Connection.open_made (transport : SyslogTransport) :
    (Connection.made transport).Open transport where
  failed := rfl
  handshake h := by
    subst h
    rfl
  sound := {
    datagrams := fun _ => rfl
    stream := fun _ => ⟨[], rfl, List.nil_prefix⟩
    encrypted := fun _ h => absurd rfl h }

theorem Connection.sound_plain (transport : SyslogTransport) :
    Connection.plain.Sound transport where
  datagrams _ := rfl
  stream _ := ⟨[], rfl, List.nil_prefix⟩
  encrypted _ h := absurd rfl h

theorem sendMessage_eq_frame {transport : SyslogTransport} (h : transport ≠ .udp)
    (message : PyStr) :
    sendMessage transport message = decimalPrefix.stream [Utf8.encode message] := by
  cases transport with
  | udp => exact absurd rfl h
  | tcp | tls => exact (List.flatMap_singleton _ _).symm

/-- Nothing of another message has been written to an open connection. -/
theorem Connection.Open.flatten {transport : SyslogTransport} {c : Connection}
    (h : c.Open transport) (ht : transport ≠ .udp) :
    c.writes.flatten = decimalPrefix.stream (c.sent.map Utf8.encode) := by
  obtain ⟨tail, heq, htail⟩ := h.sound.stream ht
  rw [h.failed] at htail
  rw [heq, List.eq_nil_of_prefix_nil htail, List.append_nil]

theorem Connection.open_wrote {transport : SyslogTransport} {c : Connection}
    (h : c.Open transport) (message : PyStr) : (c.wrote transport message).Open transport where
  failed := h.failed
  handshake := h.handshake
  sound := {
    datagrams := by
      rintro rfl
      simp [wrote, h.sound.datagrams rfl, sendMessage]
    stream := by
      intro ht
      refine ⟨[], ?_, List.nil_prefix⟩
      simp only [wrote, List.flatten_append, h.flatten ht, List.flatten_singleton,
        sendMessage_eq_frame ht, List.map_append, List.map_cons, List.map_nil, List.append_nil,
        LengthPrefix.stream, List.flatMap_append]
    encrypted := fun ht _ => h.handshake ht }

theorem Connection.sound_gaveUp {transport : SyslogTransport} {c : Connection}
    (h : c.Open transport) (message : PyStr) (count : Nat) :
    (c.gaveUp transport message count).Sound transport where
  datagrams := by
    rintro rfl
    exact h.sound.datagrams rfl
  encrypted ht _ := h.handshake ht
  stream := by
    intro ht
    refine ⟨(sendMessage transport message).take count, ?_, ?_⟩
    · have hwrites : (c.gaveUp transport message count).writes =
          c.writes ++ [(sendMessage transport message).take count] := by
        cases transport with
        | udp => exact absurd rfl ht
        | tcp | tls => rfl
      rw [hwrites, List.flatten_append, h.flatten ht, List.flatten_singleton]
      rfl
    · rw [sendMessage_eq_frame ht]
      exact List.take_prefix _ _

/-- The connections in the order in which they were made. -/
def Exporter.connections (e : Exporter) : List Connection :=
  e.closed ++ match e.socket with
    | .connected c => [c]
    | _ => []

structure Inv (transport : SyslogTransport) (e : Exporter) : Prop where
  settled : e.socket ≠ .connecting
  returned : e.returned = e.connections.flatMap (·.sent)
  sound : ∀ c ∈ e.closed, c.Sound transport
  opened : ∀ c, e.socket = .connected c → c.Open transport

theorem inv_start (transport : SyslogTransport) : Inv transport Exporter.start where
  settled := nofun
  returned := rfl
  sound := nofun
  opened := nofun

theorem Exporter.connections_of_uses {e : Exporter} {transport : SyslogTransport} {c : Connection}
    (h : e.Uses transport c) :
    e.connections.flatMap (·.sent) = e.closed.flatMap (·.sent) ++ c.sent := by
  rcases h with h | ⟨h, rfl⟩
  · rw [connections, h, List.flatMap_append, List.flatMap_singleton]
  · rw [connections, h, List.flatMap_append]
    rfl

theorem Inv.open_of_uses {transport : SyslogTransport} {e : Exporter} (h : Inv transport e)
    {c : Connection} (hc : e.Uses transport c) : c.Open transport := by
  rcases hc with hc | ⟨-, rfl⟩
  · exact h.opened c hc
  · exact Connection.open_made transport

/-- A message goes out whole. -/
theorem inv_sent {transport : SyslogTransport} {e : Exporter} (h : Inv transport e)
    {c : Connection} (hc : e.Uses transport c) (message : PyStr) :
    Inv transport { e with
      socket := .connected (c.wrote transport message)
      returned := e.returned ++ [message] } where
  settled := nofun
  sound := h.sound
  opened := by
    rintro c' ⟨⟩
    exact Connection.open_wrote (h.open_of_uses hc) message
  returned := by
    show e.returned ++ [message] = _
    rw [h.returned, Exporter.connections_of_uses hc, Exporter.connections, List.flatMap_append,
      List.flatMap_singleton, List.append_assoc]
    rfl

/-- A connection that takes no more. -/
theorem inv_closed {transport : SyslogTransport} {e : Exporter} (h : Inv transport e)
    {c c' : Connection} (hc : e.Uses transport c) (hsound : c'.Sound transport)
    (hsent : c'.sent = c.sent) :
    Inv transport { e with socket := .absent, closed := e.closed ++ [c'] } where
  settled := nofun
  returned := by
    rw [h.returned, Exporter.connections_of_uses hc, Exporter.connections, List.append_nil,
      List.flatMap_append, List.flatMap_singleton, hsent]
  sound := by
    intro d hd
    rcases List.mem_append.mp hd with hold | hnew
    · exact h.sound d hold
    · rw [List.mem_singleton.mp hnew]
      exact hsound
  opened := nofun

theorem inv_idle {transport : SyslogTransport} {e : Exporter} (h : Inv transport e)
    {socket : Socket} (hbefore : ∀ c, e.socket ≠ .connected c) (hafter : socket.Idle) :
    Inv transport { e with socket := socket } where
  settled := hafter.1
  sound := h.sound
  opened c hc := absurd hc (hafter.2 c)
  returned := by
    have hnone : ∀ e : Exporter, (∀ c, e.socket ≠ .connected c) → e.connections = e.closed := by
      rintro ⟨socket, closed, returned⟩ hno
      cases socket with
      | absent => exact List.append_nil closed
      | unconnected => exact List.append_nil closed
      | connecting => exact List.append_nil closed
      | connected c => exact absurd rfl (hno c)
    show e.returned = _
    rw [h.returned, hnone e hbefore, hnone _ hafter.2]

theorem inv_close {transport : SyslogTransport} {e : Exporter} (h : Inv transport e) :
    Inv transport e.close := by
  rw [Exporter.close]
  split
  · next c hc => exact inv_closed h (.inl hc) (h.opened c hc).sound rfl
  · next hno => exact inv_idle h hno ⟨nofun, nofun⟩

theorem Exporter.close_of_unconnected {e : Exporter} (h : ∀ c, e.socket ≠ .connected c) :
    e.close = { e with socket := .absent } := by
  rw [close]
  split
  · next c hc => exact absurd hc (h c)
  · rfl

variable {config : SyslogConfig} {epochMillis : Datetime → Int}

theorem inv_send {e : Exporter} (h : Inv config.transport e) (incident : IncidentRecord)
    (connecting : Connecting) (write : Option Nat) :
    Inv config.transport (e.send config epochMillis incident connecting write).1 := by
  rw [Exporter.send]
  split
  · have hcase := attempt_cases config.transport (syslogMessage config epochMillis incident)
      h.settled connecting write
    dsimp only
    generalize e.attempt config.transport _ connecting write = r at hcase
    obtain ⟨e', returned⟩ := r
    cases hcase with
    | sent hc => exact inv_sent h hc _
    | gaveUp count hc =>
        exact inv_closed h hc (Connection.sound_gaveUp (h.open_of_uses hc) _ count) rfl
    | handshake hno =>
        exact inv_closed h (.inr ⟨hno, rfl⟩)
          (Connection.sound_plain config.transport) rfl
    | unconnected hbefore hafter =>
        dsimp only
        rw [Exporter.close_of_unconnected hafter]
        exact inv_idle h hbefore ⟨nofun, nofun⟩
  · exact h

theorem inv_testConnection {e : Exporter} (h : Inv config.transport e) (connecting : Connecting)
    (write : Option Nat)
    (hclose : (e.testConnection config connecting write).1.socket.Idle) :
    Inv config.transport (e.testConnection config connecting write).1 := by
  rw [Exporter.testConnection] at hclose ⊢
  have hcase := attempt_cases config.transport (testMessage config) h.settled connecting write
  generalize e.attempt config.transport _ connecting write = r at hcase hclose
  obtain ⟨e', returned⟩ := r
  cases hcase with
  | sent hc => exact inv_close (inv_sent h hc _)
  | gaveUp count hc => exact absurd rfl (hclose.2 _)
  | handshake hno => exact absurd rfl (hclose.2 _)
  | unconnected hbefore hafter => exact inv_idle h hbefore hclose

theorem inv_inductive : (exporter config epochMillis).InductiveBy (TestsClose config)
    (Inv config.transport) where
  init := by
    rintro e rfl
    exact inv_start config.transport
  step := by
    intro e call e' h hok hstep
    cases call with
    | send incident connecting write =>
        obtain ⟨-, heq⟩ := Option.ite_none_right_eq_some.mp hstep
        exact Option.some.inj heq ▸ inv_send h incident connecting write
    | testConnection connecting write =>
        obtain ⟨-, heq⟩ := Option.ite_none_right_eq_some.mp hstep
        exact Option.some.inj heq ▸
          inv_testConnection h connecting write (hok connecting write rfl)

theorem Inv.sound_of_mem {transport : SyslogTransport} {e : Exporter} (h : Inv transport e)
    {c : Connection} (hc : c ∈ e.connections) : c.Sound transport := by
  rcases List.mem_append.mp hc with hclosed | hopen
  · exact h.sound c hclosed
  · split at hopen
    · next c' hs =>
      obtain rfl := List.mem_singleton.mp hopen
      exact (h.opened c hs).sound
    · cases hopen

/-- What receivers get. -/
structure Delivered (config : SyslogConfig) (e : Exporter) : Prop where
  /-- The messages of the calls that returned `True` are those sent on the connections, in
  order, each once. -/
  returned : e.returned = e.connections.flatMap (·.sent)
  datagrams : config.transport = .udp → ∀ c ∈ e.connections, c.writes = c.sent.map Utf8.encode
  /-- Wherever a connection breaks off, the messages received are the first of those sent on
  it, and of the one that was given up. -/
  received : config.transport ≠ .udp → ∀ c ∈ e.connections, ∀ part, part <+: c.writes.flatten →
    (decimalPrefix.receive part).1 <+: (c.sent ++ c.failed.toList).map Utf8.encode
  complete : config.transport ≠ .udp → ∀ c ∈ e.connections,
    c.sent.map Utf8.encode <+: (decimalPrefix.receive c.writes.flatten).1
  encrypted : config.transport = .tls → ∀ c ∈ e.connections, c.writes ≠ [] → c.handshake = true

theorem Connection.Sound.prefix_stream {transport : SyslogTransport} {c : Connection}
    (h : c.Sound transport) (ht : transport ≠ .udp) : c.writes.flatten <+:
      decimalPrefix.stream ((c.sent ++ c.failed.toList).map Utf8.encode) := by
  obtain ⟨tail, heq, htail⟩ := h.stream ht
  rw [heq, List.map_append, LengthPrefix.stream_append, List.prefix_append_right_inj]
  exact htail

/-- Whatever connections fail, and wherever in a message, as long as no failed test leaves a
socket that is connected or still connects: over TCP and TLS each connection carries exactly
the messages whose calls returned `True`, in order and behind their lengths, then at most a
part of one that was given up; a receiver gets the first of these however much of the stream
arrives, and over TLS nothing is written without a handshake. -/
theorem syslog_delivered {e : Exporter}
    (h : (exporter config epochMillis).ReachableBy (TestsClose config) e) :
    Delivered config e := by
  have hinv := inv_inductive.invariant e h
  refine ⟨hinv.returned, fun ht c hc => (hinv.sound_of_mem hc).datagrams ht, ?_, ?_,
    fun ht c hc => (hinv.sound_of_mem hc).encrypted ht⟩
  · intro ht c hc part hpart
    exact decimalPrefix_needsAll.receive_prefix
      (hpart.trans ((hinv.sound_of_mem hc).prefix_stream ht))
  · intro ht c hc
    obtain ⟨tail, heq, -⟩ := (hinv.sound_of_mem hc).stream ht
    rw [heq]
    exact decimalPrefix.prefix_receive_stream_append _ tail

/-- A test that meets no error leaves no connection. -/
theorem testConnection_idle (config : SyslogConfig) (e : Exporter) :
    (e.testConnection config .made none).1.socket.Idle := by
  obtain ⟨socket, closed, returned⟩ := e
  cases socket <;> exact ⟨nofun, nofun⟩

def sampleIncident : IncidentRecord where
  id := py "7"
  policyName := py "PCI=1|2"
  severity := py "high"
  status := py "new"
  channel := py "email"
  sourceType := py "network"
  createdAt := ⟨0, by decide⟩

/-- The second message breaks off after forty bytes, the third finds no server, and the fourth
opens a new connection, which the test closes. -/
def sampleCalls : List Call :=
  [.send sampleIncident .made none, .send sampleIncident .made (some 40),
    .send sampleIncident .refused none, .send sampleIncident .made none,
    .testConnection .made none]

theorem syslog_delivered_two : ∃ e,
    (exporter { transport := .tls } (·.micros)).run Exporter.start sampleCalls = some e ∧
      e.returned.length = 3 ∧ e.connections.map (fun c => (c.sent.length, c.writes.length)) =
        [(1, 2), (2, 2)] ∧ Delivered { transport := .tls } e := by
  refine ⟨_, rfl, rfl, rfl, syslog_delivered (TSys.reachableBy_run (TSys.ReachableBy.init rfl)
    sampleCalls (TSys.runOk_of_forall ?_ _) rfl)⟩
  intro call hcall e connecting write heq
  subst heq
  simp only [sampleCalls, List.mem_cons, reduceCtorEq, Call.testConnection.injEq, false_or,
    List.not_mem_nil, or_false] at hcall
  obtain ⟨rfl, rfl⟩ := hcall
  exact testConnection_idle _ e

/-- After a test that timed out a message goes out over TLS without a handshake. -/
example : ((exporter { transport := .tls } (·.micros)).run Exporter.start
    [.testConnection .timedOut none, .send sampleIncident .made none]).map
      (fun e => e.connections.map fun c => (c.handshake, c.sent.length)) = some [(false, 1)] := rfl

end AkesoDlp.Server.Syslog
