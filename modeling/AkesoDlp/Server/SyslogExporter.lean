import AkesoDlp.Lib.Escaping
import AkesoDlp.Lib.Framing
import AkesoDlp.Server.ReportGenerator

/-!
# The syslog exporter

Incidents as CEF messages, and the stream that carries them over TCP and TLS. What a value
contains cannot be taken for a separator, a key or the end of a message.
-/

namespace AkesoDlp.Server.Syslog

open Lib
open Inspector (PyStr py decimal strInt)
open Reports (Datetime IncidentRecord)

/-- `s.replace(c, new)` for a single character. -/
def replaceChar (c : Char) (new s : PyStr) : PyStr := s.flatMap fun d => if d = c then new else [d]

def cefSeverity : List (PyStr × Nat) :=
  [(py "critical", 10), (py "high", 8), (py "medium", 5), (py "low", 3), (py "info", 1)]

def cefSigIds : List (PyStr × Nat) :=
  [(py "block", 100), (py "notify", 200), (py "log", 300), (py "quarantine", 400),
    (py "user_cancel", 500)]

def cefEscape (value : PyStr) : PyStr :=
  let value := replaceChar '\\' (py "\\\\") value
  let value := replaceChar '|' (py "\\|") value
  let value := replaceChar '=' (py "\\=") value
  let value := replaceChar '\n' (py "\\n") value
  replaceChar '\r' (py "\\r") value

/-- A key of the dictionary is only set if there is a non-empty value. -/
def optional (key : PyStr) (value : Option PyStr) : List (PyStr × PyStr) :=
  match value with
  | none | some [] => []
  | some v => [(key, v)]

/-- The extension dictionary in the order of insertion. `epochMillis` is
`int(created_at.timestamp() * 1000)`. -/
def extensions (epochMillis : Datetime → Int) (incident : IncidentRecord) :
    List (PyStr × PyStr) :=
  [(py "act", incident.actionTaken), (py "cat", incident.channel),
    (py "cs1", incident.policyName), (py "cs1Label", py "PolicyName"),
    (py "cs2", incident.sourceType), (py "cs2Label", py "SourceType"),
    (py "cn1", strInt incident.matchCount), (py "cn1Label", py "MatchCount"),
    (py "sev", incident.severity), (py "outcome", incident.status)] ++
  optional (py "suser") incident.user ++ optional (py "fname") incident.fileName ++
  [(py "rt", strInt (epochMillis incident.createdAt))]

def sigId (incident : IncidentRecord) : Nat := (cefSigIds.lookup incident.actionTaken).getD 999

def severity (incident : IncidentRecord) : Nat := (cefSeverity.lookup incident.severity).getD 1

/-- The name before it is escaped. -/
def eventName (incident : IncidentRecord) : PyStr :=
  py "DLP " ++ incident.actionTaken ++ py ": " ++ incident.policyName

def extStr (epochMillis : Datetime → Int) (incident : IncidentRecord) : PyStr :=
  (py " ").intercalate
    ((extensions epochMillis incident).map fun f => f.1 ++ py "=" ++ cefEscape f.2)

def formatCef (epochMillis : Datetime → Int) (incident : IncidentRecord) : PyStr :=
  py "CEF:0|AkesoDLP|DLP|1.0|" ++ decimal (sigId incident) ++ py "|" ++
    cefEscape (eventName incident) ++ py "|" ++ decimal (severity incident) ++ py "|" ++
    extStr epochMillis incident

/-! ## Sending -/

inductive SyslogTransport
  | udp
  | tcp
  | tls
deriving DecidableEq, Repr

structure SyslogConfig where
  transport : SyslogTransport := .udp
  minSeverity : PyStr := py "info"
  facility : Int := 13

/-- An unknown severity passes. -/
def severityPassesFilter (severity minSeverity : PyStr) : Bool :=
  let order := [py "info", py "low", py "medium", py "high", py "critical"]
  match order.idxOf? severity, order.idxOf? minSeverity with
  | some i, some j => i ≥ j
  | _, _ => true

/-- The CEF message behind its priority. -/
def syslogMessage (config : SyslogConfig) (epochMillis : Datetime → Int)
    (incident : IncidentRecord) : PyStr :=
  let syslogSeverity : Int := max 0 (min 7 (7 - (severity incident : Int)))
  let priority := config.facility * 8 + syslogSeverity
  py "<" ++ strInt priority ++ py ">" ++ formatCef epochMillis incident

/-- What goes to the socket. -/
def sendMessage (transport : SyslogTransport) (message : PyStr) : List UInt8 :=
  let data := Utf8.encode message
  match transport with
  | .udp => data
  | .tcp | .tls => Utf8.encode (decimal data.length ++ py " ") ++ data

/-- What a batch writes to a connection that does not fail. -/
def sendBatch (config : SyslogConfig) (epochMillis : Datetime → Int)
    (incidents : List IncidentRecord) : List UInt8 :=
  (incidents.filter fun i => severityPassesFilter i.severity config.minSeverity).flatMap
    fun i => sendMessage config.transport (syslogMessage config epochMillis i)

/-! ## Receiving -/

def cef : Escaping Char where
  mark := '\\'
  code c :=
    if c = '\\' ∨ c = '|' ∨ c = '=' then some c
    else if c = '\n' then some 'n'
    else if c = '\r' then some 'r'
    else none
  char k :=
    if k = '\\' ∨ k = '|' ∨ k = '=' then some k
    else if k = 'n' then some '\n'
    else if k = 'r' then some '\r'
    else none
  char_code := by
    intro c k h
    split at h
    · next hself =>
        obtain rfl := Option.some.inj h
        rw [if_pos hself]
    · split at h
      · next hline =>
          obtain rfl := Option.some.inj h
          rw [hline]
          decide
      · split at h
        · next hreturn =>
            obtain rfl := Option.some.inj h
            rw [hreturn]
            decide
        · cases h
  code_mark := by decide

def cefFields : cef.FieldSigns where
  assign := '='
  space := ' '
  code_assign := by decide
  assign_ne := by decide
  space_ne := by decide

/-- The messages of a stream, if nothing is left of it. -/
def receiveMessages (bytes : List UInt8) : Option (List PyStr) :=
  let r := decimalPrefix.receive bytes
  if r.2 = [] then r.1.mapM Utf8.decodeStrict else none

theorem replaceChar_flatMap (c : Char) (new : PyStr) (f : Char → PyStr) (s : PyStr) :
    replaceChar c new (s.flatMap f) = s.flatMap fun d => replaceChar c new (f d) :=
  List.flatMap_assoc

theorem cefEscape_singleton (c : Char) : cefEscape [c] = (cef.token c).text cef := by
  by_cases hself : c = '\\' ∨ c = '|' ∨ c = '='
  · rcases hself with rfl | rfl | rfl <;> decide
  by_cases hline : c = '\n'
  · subst hline
    decide
  by_cases hreturn : c = '\r'
  · subst hreturn
    decide
  have htoken : cef.token c = .plain c := by
    rw [Escaping.token]
    simp only [cef, if_neg hself, if_neg hline, if_neg hreturn]
  rw [not_or, not_or] at hself
  rw [htoken]
  simp [cefEscape, replaceChar, hself, hline, hreturn, Escaping.Token.text]

/-- The replacements come one after the other, but none of them changes what another one has
written. -/
theorem cefEscape_eq (value : PyStr) : cefEscape value = cef.escape value := by
  have hpieces : cefEscape value = value.flatMap fun c => cefEscape [c] := by
    conv_lhs => rw [← List.flatMap_singleton' value]
    simp only [cefEscape, replaceChar_flatMap]
  rw [hpieces, Escaping.escape_eq_flatMap]
  exact List.flatMap_congr fun c _ => cefEscape_singleton c

section message

variable (epochMillis : Datetime → Int) (incident : IncidentRecord)

theorem extStr_eq :
    extStr epochMillis incident = cefFields.writeFields (extensions epochMillis incident) := by
  have hfield : (fun f : PyStr × PyStr => f.1 ++ py "=" ++ cefEscape f.2) =
      cefFields.writeField := by
    funext f
    rw [cefEscape_eq, List.append_assoc]
    rfl
  rw [extStr, hfield]
  rfl

/-- The keys that are ever written. -/
def cefKeys : List PyStr :=
  [py "act", py "cat", py "cs1", py "cs1Label", py "cs2", py "cs2Label", py "cn1", py "cn1Label",
    py "sev", py "outcome", py "suser", py "fname", py "rt"]

theorem mem_cefKeys {f : PyStr × PyStr} (h : f ∈ extensions epochMillis incident) :
    f.1 ∈ cefKeys := by
  have hoptional {key : PyStr} {value : Option PyStr} (hf : f ∈ optional key value) :
      f.1 = key := by
    unfold optional at hf
    split at hf
    · cases hf
    · cases hf
    · rw [List.mem_singleton.mp hf]
  rw [extensions, List.mem_append, List.mem_append, List.mem_append] at h
  rcases h with ((hfixed | huser) | hfile) | hrt
  · have hfst : f.1 ∈ cefKeys.take 10 := List.mem_map_of_mem (f := Prod.fst) hfixed
    exact List.mem_of_mem_take hfst
  · rw [hoptional huser]
    decide
  · rw [hoptional hfile]
    decide
  · have hfst : f.1 = py "rt" := congrArg Prod.fst (List.mem_singleton.mp hrt)
    rw [hfst]
    decide

theorem isKey_of_mem {key : PyStr} (h : key ∈ cefKeys) :
    cefFields.IsKey key ∧ '|' ∉ key := by
  revert key
  decide

/-- A value that the exporter leaves out if it is empty. -/
def nonEmpty (value : Option PyStr) : Option PyStr := value.filter (· ≠ [])

/-- The fields hold the values of the incident. -/
structure HoldsValues (fields : List (PyStr × PyStr)) : Prop where
  action : fields.lookup (py "act") = some incident.actionTaken
  channel : fields.lookup (py "cat") = some incident.channel
  policyName : fields.lookup (py "cs1") = some incident.policyName
  sourceType : fields.lookup (py "cs2") = some incident.sourceType
  matchCount : fields.lookup (py "cn1") = some (strInt incident.matchCount)
  severity : fields.lookup (py "sev") = some incident.severity
  status : fields.lookup (py "outcome") = some incident.status
  user : fields.lookup (py "suser") = nonEmpty incident.user
  fileName : fields.lookup (py "fname") = nonEmpty incident.fileName
  createdAt : fields.lookup (py "rt") = some (strInt (epochMillis incident.createdAt))

theorem optional_cons (key : PyStr) (c : Char) (s : PyStr) :
    optional key (some (c :: s)) = [(key, c :: s)] := rfl

theorem lookup_optional_append {key : PyStr} (value : Option PyStr)
    (rest : List (PyStr × PyStr)) :
    (optional key value ++ rest).lookup key = (nonEmpty value).or (rest.lookup key) := by
  rcases value with - | - | ⟨c, s⟩
  · rfl
  · rfl
  · rw [optional_cons, List.singleton_append, List.lookup_cons_self]
    rfl

theorem lookup_optional_append_of_ne {key other : PyStr} (h : other ≠ key) (value : Option PyStr)
    (rest : List (PyStr × PyStr)) :
    (optional key value ++ rest).lookup other = rest.lookup other := by
  rcases value with - | - | ⟨c, s⟩
  · rfl
  · rfl
  · rw [optional_cons, List.singleton_append, List.lookup_cons, beq_false_of_ne h]

theorem holdsValues : HoldsValues epochMillis incident (extensions epochMillis incident) where
  action := rfl
  channel := rfl
  policyName := rfl
  sourceType := rfl
  matchCount := rfl
  severity := rfl
  status := rfl
  user := by
    rw [extensions, List.append_assoc, List.append_assoc]
    change (optional (py "suser") incident.user ++ _).lookup (py "suser") = _
    rw [lookup_optional_append, lookup_optional_append_of_ne (by decide)]
    exact Option.or_none
  fileName := by
    rw [extensions, List.append_assoc, List.append_assoc]
    change (optional (py "suser") incident.user ++ _).lookup (py "fname") = _
    rw [lookup_optional_append_of_ne (by decide), lookup_optional_append]
    exact Option.or_none
  createdAt := by
    rw [extensions, List.append_assoc, List.append_assoc]
    change (optional (py "suser") incident.user ++ _).lookup (py "rt") = _
    rw [lookup_optional_append_of_ne (by decide), lookup_optional_append_of_ne (by decide)]
    rfl

/-- What a receiver gets out of the message of an incident. -/
structure ParsesBack : Prop where
  parts : cef.pieces '|' (formatCef epochMillis incident) =
    [py "CEF:0", py "AkesoDLP", py "DLP", py "1.0", decimal (sigId incident),
      cefEscape (eventName incident), decimal (severity incident), extStr epochMillis incident]
  name : cef.unescape (cefEscape (eventName incident)) = eventName incident
  fields : cefFields.readFields (extStr epochMillis incident) = extensions epochMillis incident
  unique : ∀ fields, (∀ f ∈ fields, cefFields.IsKey f.1) →
    cefFields.writeFields fields = extStr epochMillis incident →
      fields = extensions epochMillis incident
  values : HoldsValues epochMillis incident (cefFields.readFields (extStr epochMillis incident))

theorem clean_decimal (n : Nat) : Escaping.Clean cef '|' (decimal n) := by
  refine Escaping.clean_plain fun c hc => ?_
  have hdigit : c.isDigit = true := Nat.isDigit_of_mem_toDigits (by decide) (by decide) hc
  refine ⟨?_, ?_⟩
  · rintro rfl
    exact absurd hdigit (by decide)
  · rintro rfl
    exact absurd hdigit (by decide)

theorem readFields_extStr :
    cefFields.readFields (extStr epochMillis incident) = extensions epochMillis incident := by
  rw [extStr_eq]
  exact Escaping.FieldSigns.readFields_writeFields fun f hf =>
    (isKey_of_mem (mem_cefKeys epochMillis incident hf)).1

theorem parsesBack : ParsesBack epochMillis incident where
  parts := by
    have hkeys : ∀ f ∈ extensions epochMillis incident, Escaping.Clean cef '|' f.1 := by
      intro f hf
      obtain ⟨hkey, hbar⟩ := isKey_of_mem (mem_cefKeys epochMillis incident hf)
      refine Escaping.clean_plain fun c hc => ⟨(hkey c hc).1, ?_⟩
      rintro rfl
      exact hbar hc
    have hext : Escaping.Clean cef '|' (extStr epochMillis incident) := by
      rw [extStr_eq]
      exact Escaping.FieldSigns.clean_writeFields cefFields (by decide) (by decide) (by decide)
        hkeys
    have hname : Escaping.Clean cef '|' (cefEscape (eventName incident)) := by
      rw [cefEscape_eq]
      exact Escaping.clean_escape (by decide) _
    have hplain {s : PyStr} (h : '\\' ∉ s ∧ '|' ∉ s) : Escaping.Clean cef '|' s :=
      Escaping.clean_plain fun c hc => ⟨ne_of_mem_of_not_mem hc h.1, ne_of_mem_of_not_mem hc h.2⟩
    have hbar : '|' ≠ cef.mark := by decide
    have htext : formatCef epochMillis incident = py "CEF:0" ++ '|' :: (py "AkesoDLP" ++ '|' ::
        (py "DLP" ++ '|' :: (py "1.0" ++ '|' :: (decimal (sigId incident) ++ '|' ::
          (cefEscape (eventName incident) ++ '|' :: (decimal (severity incident) ++ '|' ::
            extStr epochMillis incident)))))) := by
      simp [formatCef, py]
    rw [htext, (hplain (by decide)).pieces_append_cons hbar,
      (hplain (by decide)).pieces_append_cons hbar, (hplain (by decide)).pieces_append_cons hbar,
      (hplain (by decide)).pieces_append_cons hbar, (clean_decimal _).pieces_append_cons hbar,
      hname.pieces_append_cons hbar, (clean_decimal _).pieces_append_cons hbar, hext.pieces_eq]
  name := by rw [cefEscape_eq, Escaping.unescape_escape]
  fields := readFields_extStr epochMillis incident
  unique fields hkeys htext := by
    rw [← readFields_extStr, ← htext, Escaping.FieldSigns.readFields_writeFields hkeys]
  values := by
    rw [readFields_extStr]
    exact holdsValues epochMillis incident

end message

/-! ## The stream -/

theorem mapM_decodeStrict_encode (messages : List PyStr) :
    (messages.map Utf8.encode).mapM Utf8.decodeStrict = some messages := by
  induction messages with
  | nil => rfl
  | cons message messages ih =>
      rw [List.map_cons, List.mapM_cons, Utf8.decodeStrict_encode, ih]
      rfl

theorem receiveMessages_stream {transport : SyslogTransport} (h : transport ≠ .udp)
    (messages : List PyStr) :
    receiveMessages (messages.flatMap (sendMessage transport)) = some messages := by
  have hframe (message : PyStr) :
      sendMessage transport message = decimalPrefix.frame (Utf8.encode message) := by
    cases transport with
    | udp => exact absurd rfl h
    | tcp => rfl
    | tls => rfl
  have hstream : messages.flatMap (sendMessage transport) =
      decimalPrefix.stream (messages.map Utf8.encode) := by
    rw [LengthPrefix.stream, List.flatMap_map]
    exact List.flatMap_congr fun message _ => hframe message
  have hend : decimalPrefix.next [] = none := by decide
  have hreceive := decimalPrefix.receive_stream_append hend (messages.map Utf8.encode)
  rw [List.append_nil] at hreceive
  rw [receiveMessages, hstream, hreceive, if_pos rfl, mapM_decodeStrict_encode]

/-- Over TCP and TLS the messages of a batch arrive as they were written. -/
theorem receiveMessages_sendBatch {config : SyslogConfig} (h : config.transport ≠ .udp)
    (epochMillis : Datetime → Int) (incidents : List IncidentRecord) :
    receiveMessages (sendBatch config epochMillis incidents) =
      some ((incidents.filter fun i => severityPassesFilter i.severity config.minSeverity).map
        (syslogMessage config epochMillis)) := by
  rw [← receiveMessages_stream h, List.flatMap_map]
  rfl

/-- A message is read back as it was written, and so is a stream of messages. -/
theorem cef_parses_back (epochMillis : Datetime → Int) :
    (∀ incident, ParsesBack epochMillis incident) ∧
      ∀ messages : List PyStr,
        receiveMessages (messages.flatMap (sendMessage .tcp)) = some messages ∧
          receiveMessages (messages.flatMap (sendMessage .tls)) = some messages :=
  ⟨parsesBack epochMillis, fun messages =>
    ⟨receiveMessages_stream (by decide) messages, receiveMessages_stream (by decide) messages⟩⟩

end AkesoDlp.Server.Syslog
