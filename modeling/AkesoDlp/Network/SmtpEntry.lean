import AkesoDlp.Network.SmtpPrevent
import AkesoDlp.Network.Smtplib

/-!
# The SMTP proxy

`DLPSmtpHandler` of `smtp_entry.py`, and whether what it hands to the upstream
relay is what the verdict prescribes. It is, except for a modification:
`handle_DATA` forwards the message as it came and never calls
`apply_modifications`.
-/

namespace AkesoDlp.Network

/-- The envelope that aiosmtpd passes to `handle_DATA`, with the peer of the
session. -/
structure ReceivedEmail where
  mailFrom : String
  rcptTo : List String
  content : List UInt8
  peer : String × Nat := ("unknown", 0)
deriving DecidableEq, Repr

inductive DLPSmtpHandler
  | monitor (monitor : SmtpMonitor)
  | prevent (prevent : SmtpPrevent)

/-- `f"{code} {message}"`. -/
structure SmtpReply where
  code : Nat
  message : String
deriving DecidableEq, Repr

/-- The reply of `handle_DATA`, what it handed to `sendmail`, what of that the
relay accepted, and the handler afterwards. -/
structure DataOutcome where
  reply : SmtpReply
  forwarded : List Forward
  deliveries : List Delivery
  handler : DLPSmtpHandler

namespace DLPSmtpHandler

/-- An exception is logged and dropped, the refusals that `sendmail` returns are
not looked at. -/
def forward (up : UpstreamSession) (f : Forward) : Option Delivery :=
  (withSession up f).2

/-- Forward, and answer with `message`. -/
def forwarding (up : UpstreamSession) (handler : DLPSmtpHandler) (f : Forward)
    (message : String) : DataOutcome where
  reply := { code := 250, message := message }
  forwarded := [f]
  deliveries := (forward up f).toList
  handler := handler

def mailEnvelope (email : ReceivedEmail) : EmailEnvelope where
  mailFrom := email.mailFrom
  rcptTos := email.rcptTo
  peer := email.peer

/-- The message as it came, to the recipients it came for. -/
def asReceived (email : ReceivedEmail) : Forward where
  mailFrom := email.mailFrom
  rcptTos := email.rcptTo
  data := email.content

/-- `handle_DATA` once there is a verdict. -/
def carryOut (up : UpstreamSession) (handler : DLPSmtpHandler) (verdict : SmtpVerdict)
    (email : ReceivedEmail) : DataOutcome :=
  match verdict.action with
  | .block =>
      let (code, message) := SmtpPrevent.getRejectResponse verdict
      { reply := { code := code, message := message }
        forwarded := []
        deliveries := []
        handler := handler }
  | .redirect =>
      forwarding up handler
        { mailFrom := email.mailFrom
          rcptTos := SmtpPrevent.getRedirectRecipients verdict
          data := email.content }
        "OK (redirected to quarantine)"
  | _ => forwarding up handler (asReceived email) "OK"

def handleData (env : InspectionEnv) (up : UpstreamSession) (moment : Moment)
    (handler : DLPSmtpHandler) (email : ReceivedEmail) : DataOutcome :=
  match handler with
  | .monitor m =>
      let (_, m) := m.processEmail env moment (mailEnvelope email) email.content
      forwarding up (.monitor m) (asReceived email) "OK"
  | .prevent p =>
      let (_, p) := p.processEmail env moment (mailEnvelope email) email.content
      match p.verdicts.getLast? with
      | some verdict => carryOut up (.prevent p) verdict email
      | none => forwarding up (.prevent p) (asReceived email) "OK"

end DLPSmtpHandler

/-! ## What is handed on -/

namespace SmtpPrevent

/-- The verdict that `process_email` records for an email. -/
def verdictOn (p : SmtpPrevent) (env : InspectionEnv) (moment : Moment) (email : ReceivedEmail) :
    SmtpVerdict :=
  p.verdictFor (SmtpMonitor.inspect env moment (DLPSmtpHandler.mailEnvelope email) email.content)

theorem getLast?_verdicts (p : SmtpPrevent) (env : InspectionEnv) (moment : Moment)
    (email : ReceivedEmail) :
    (p.processEmail env moment (DLPSmtpHandler.mailEnvelope email)
      email.content).2.verdicts.getLast? = some (p.verdictOn env moment email) := by
  unfold processEmail verdictOn
  rw [← SmtpMonitor.processEmail_fst p.toSmtpMonitor]
  exact List.getLast?_concat ..

end SmtpPrevent

namespace DLPSmtpHandler

/-- What a verdict makes of an email. -/
def forwardUnder (verdict : SmtpVerdict) (email : ReceivedEmail) : Option Forward :=
  match verdict.action with
  | .block => none
  | .redirect =>
      some { asReceived email with rcptTos := SmtpPrevent.getRedirectRecipients verdict }
  | _ => some (asReceived email)

/-- What is handed on, in either mode. -/
def handedOn (env : InspectionEnv) (moment : Moment) (email : ReceivedEmail) :
    DLPSmtpHandler → Option Forward
  | .monitor _ => some (asReceived email)
  | .prevent p => forwardUnder (p.verdictOn env moment email) email

theorem carryOut_spec (up : UpstreamSession) (handler : DLPSmtpHandler) {verdict : SmtpVerdict}
    (hcode : verdict.rejectCode = 550) (email : ReceivedEmail) :
    (carryOut up handler verdict email).forwarded = (forwardUnder verdict email).toList ∧
    (carryOut up handler verdict email).deliveries =
      ((forwardUnder verdict email).bind (forward up)).toList ∧
    (carryOut up handler verdict email).reply.code =
      if (forwardUnder verdict email).isSome then 250 else 550 := by
  obtain ⟨action, inspection, subject, headers, redirectTo, code, message⟩ := verdict
  cases action with
  | block => exact ⟨rfl, rfl, hcode⟩
  | pass => exact ⟨rfl, rfl, rfl⟩
  | log => exact ⟨rfl, rfl, rfl⟩
  | modify => exact ⟨rfl, rfl, rfl⟩
  | redirect => exact ⟨rfl, rfl, rfl⟩

theorem handleData_spec (env : InspectionEnv) (up : UpstreamSession) (moment : Moment)
    (handler : DLPSmtpHandler) (email : ReceivedEmail) :
    (handler.handleData env up moment email).forwarded =
        (handler.handedOn env moment email).toList ∧
    (handler.handleData env up moment email).deliveries =
        ((handler.handedOn env moment email).bind (forward up)).toList ∧
    (handler.handleData env up moment email).reply.code =
        if (handler.handedOn env moment email).isSome then 250 else 550 := by
  cases handler with
  | monitor m => exact ⟨rfl, rfl, rfl⟩
  | prevent p =>
      unfold handleData
      dsimp only
      rw [p.getLast?_verdicts env moment email]
      exact carryOut_spec up _ (SmtpPrevent.verdictFor_rejectCode ..) email

end DLPSmtpHandler

/-! ## What the verdict prescribes -/

/-- `sent` is `original` with the subject and the headers of the verdict. -/
structure CarriesModifications (verdict : SmtpVerdict) (original sent : EmailMessage) : Prop where
  subject : ∀ subject, verdict.modifiedSubject = some subject → sent.get "Subject" "" = subject
  added : ∀ headers, verdict.modifiedHeaders = some headers → ∀ h ∈ headers, h ∈ sent.headers
  kept : ∀ h ∈ original.headers, EmailMessage.sameName h.1 "Subject" = false → h ∈ sent.headers
  content : sent.setHeaders [] = original.setHeaders []

/-- Exactly what the verdict prescribes is handed to the relay. -/
def Enforces (env : InspectionEnv) (p : SmtpPrevent) (verdict : SmtpVerdict)
    (email : ReceivedEmail) (forwarded : List Forward) : Prop :=
  match verdict.action with
  | .block => forwarded = []
  | .redirect =>
      forwarded = [{ DLPSmtpHandler.asReceived email with rcptTos := [p.quarantineAddress] }]
  | .modify =>
      ∃ data, forwarded = [{ DLPSmtpHandler.asReceived email with data := data }] ∧
        CarriesModifications verdict (env.messageFromBytes email.content)
          (env.messageFromBytes data)
  | .pass | .log => forwarded = [DLPSmtpHandler.asReceived email]

theorem applyModifications_headers {verdict : SmtpVerdict} {subject : String}
    (hsubject : verdict.modifiedSubject = some subject) (hne : subject ≠ "")
    (msg : EmailMessage) :
    (SmtpPrevent.applyModifications msg verdict).headers =
      (msg.headers.filter fun h => !EmailMessage.sameName h.1 "Subject") ++
        ("Subject", subject) :: verdict.modifiedHeaders.getD [] := by
  -- `del` removes every Subject header, and there may be none
  have hdelete : (if msg.contains "Subject" then msg.delete "Subject" else msg).headers =
      msg.headers.filter fun h => !EmailMessage.sameName h.1 "Subject" := by
    split
    · exact EmailMessage.headers_setHeaders ..
    · rename_i hnone
      refine (List.filter_eq_self.mpr fun h hh => ?_).symm
      simpa [EmailMessage.contains] using fun heq => hnone (List.any_eq_true.mpr ⟨h, hh, heq⟩)
  have hsome : (verdict.modifiedSubject.filter fun subject => !subject.isEmpty) = some subject := by
    simp [hsubject, hne]
  unfold SmtpPrevent.applyModifications
  rw [hsome, EmailMessage.headers_addAll, EmailMessage.headers_add, hdelete, List.append_assoc]
  rfl

/-- `apply_modifications` would make the message that the verdict asks for. -/
theorem applyModifications_carries {verdict : SmtpVerdict} {subject : String}
    (hsubject : verdict.modifiedSubject = some subject) (hne : subject ≠ "")
    (msg : EmailMessage) :
    CarriesModifications verdict msg (SmtpPrevent.applyModifications msg verdict) := by
  have hheaders := applyModifications_headers hsubject hne msg
  constructor
  · intro subject' hsubject'
    obtain rfl := Option.some.inj (hsubject.symm.trans hsubject')
    unfold EmailMessage.get
    rw [hheaders, List.find?_append]
    have hnone : ((msg.headers.filter fun h => !EmailMessage.sameName h.1 "Subject").find?
        fun h => EmailMessage.sameName h.1 "Subject") = none := by
      simp [List.find?_eq_none]
    rw [hnone, List.find?_cons_of_pos (by simp [EmailMessage.sameName])]
    rfl
  · intro headers hadded h hh
    rw [hheaders, hadded]
    exact List.mem_append_right _ (List.mem_cons_of_mem _ hh)
  · intro h hh hname
    rw [hheaders]
    exact List.mem_append_left _ (List.mem_filter.mpr ⟨hh, by simp [hname]⟩)
  · unfold SmtpPrevent.applyModifications
    rw [EmailMessage.setHeaders_addAll]
    split
    · split <;> simp [EmailMessage.add, EmailMessage.delete]
    · rfl

/-- The message as it came does not have the subject of the verdict. -/
theorem not_carriesModifications_self {verdict : SmtpVerdict} {msg : EmailMessage}
    (h : verdict.modifiedSubject = some ("[DLP VIOLATION] " ++ msg.get "Subject" "")) :
    ¬ CarriesModifications verdict msg msg := by
  intro hcarries
  -- the prefix makes every subject longer
  have hlength := congrArg String.length (hcarries.subject _ h)
  have hprefix : "[DLP VIOLATION] ".length = 16 := by decide
  rw [String.length_append] at hlength
  omega

/-- The configuration and the number of matches do not lead to a modification,
nor to a quarantine without an address. -/
def Enforceable (p : SmtpPrevent) (matchCount : Nat) : Prop :=
  matchCount = 0 ∨ p.blockThreshold ≤ matchCount ∨ (matchCount : Int) < p.modifyThreshold ∨
    (p.defaultAction ≠ .modify ∧ (p.defaultAction = .redirect → p.quarantineAddress ≠ ""))

theorem enforceable_iff (p : SmtpPrevent) (result : EmailInspectionResult) :
    Enforceable p result.detection.matchCount ↔
      p.determineAction result ≠ .modify ∧
        (p.determineAction result = .redirect → p.quarantineAddress ≠ "") := by
  have hcount : result.hasViolations = true ↔ result.detection.matchCount ≠ 0 := by
    simp [EmailInspectionResult.hasViolations, Server.DetectionResult.hasMatches,
      Server.DetectionResult.matchCount, List.length_pos_iff]
  unfold Enforceable SmtpPrevent.determineAction
  by_cases hviolations : result.hasViolations = true
  · have hne := hcount.mp hviolations
    by_cases hblock : p.blockThreshold ≤ result.detection.matchCount
    · simp [hviolations, hblock]
    · by_cases hmodify : p.modifyThreshold ≤ result.detection.matchCount
      · simp [hviolations, hblock, hmodify, hne, Int.not_lt.mpr hmodify]
      · simp [hviolations, hblock, hmodify, Int.not_le.mp hmodify]
  · have hzero : result.detection.matchCount = 0 :=
      not_not.mp fun hne => hviolations (hcount.mpr hne)
    simp [hviolations, hzero]

/-- The verdict is carried out exactly when it is neither a modification nor a
redirection to no address. -/
theorem handleData_enforces_iff (env : InspectionEnv) (up : UpstreamSession) (moment : Moment)
    (p : SmtpPrevent) (email : ReceivedEmail) :
    Enforces env p (p.verdictOn env moment email) email
        ((DLPSmtpHandler.prevent p).handleData env up moment email).forwarded ↔
      Enforceable p (SmtpMonitor.inspect env moment (DLPSmtpHandler.mailEnvelope email)
        email.content).detection.matchCount := by
  rw [enforceable_iff, (DLPSmtpHandler.handleData_spec ..).1]
  have haction : (p.verdictOn env moment email).action = p.determineAction
      (SmtpMonitor.inspect env moment (DLPSmtpHandler.mailEnvelope email) email.content) :=
    SmtpPrevent.verdictFor_action ..
  rw [← haction]
  unfold Enforces DLPSmtpHandler.handedOn DLPSmtpHandler.forwardUnder
  dsimp only
  cases h : (p.verdictOn env moment email).action with
  | pass => simp
  | log => simp
  | block => simp
  | modify =>
      have hsubject : (p.verdictOn env moment email).modifiedSubject =
          some ("[DLP VIOLATION] " ++ (env.messageFromBytes email.content).get "Subject" "") :=
        SmtpPrevent.verdictFor_modify (haction.symm.trans h)
      -- the handler hands on the bytes as they came
      simp only [ne_eq, not_true_eq_false, false_and, iff_false]
      rintro ⟨data, hforwarded, hcarries⟩
      obtain rfl : email.content = data := by
        simpa [DLPSmtpHandler.asReceived] using hforwarded
      exact not_carriesModifications_self hsubject hcarries
  | redirect =>
      have hredirect : (p.verdictOn env moment email).redirectTo = some p.quarantineAddress :=
        SmtpPrevent.verdictFor_redirect (haction.symm.trans h)
      -- `get_redirect_recipients` drops an empty address
      by_cases hempty : p.quarantineAddress = "" <;>
        simp [SmtpPrevent.getRedirectRecipients, hredirect, hempty]

/-! ## One email with one match -/

/-- `Subject: Payroll` and a body with one social security number. -/
def payrollEmail : ReceivedEmail where
  mailFrom := "a@corp"
  rcptTo := ["b@mail", "c@mail"]
  content := "Subject: Payroll\r\n\r\n123-45-6789".toUTF8.toList

/-- The parser and the engine on that email. -/
def payrollEnv : InspectionEnv where
  messageFromBytes _ := .leaf [("Subject", "Payroll")] "text/plain" none
    "123-45-6789".toUTF8.toList
  decodeUtf8 _ := "123-45-6789"
  detect message :=
    { messageId := message.messageId
      «matches» := [
        { analyzerName := "data_identifier"
          ruleName := "US SSN"
          component := { componentType := .body, content := "123-45-6789" }
          matchedText := "123-45-6789"
          startOffset := 0
          endOffset := 11 }] }

/-- With the default thresholds the verdict is a modification, but the message
goes out as it came. -/
theorem not_enforces_payroll :
    (({} : SmtpPrevent).verdictOn payrollEnv {} payrollEmail).action = .modify ∧
    ((DLPSmtpHandler.prevent {}).handleData payrollEnv .accepting {} payrollEmail).forwarded =
      [DLPSmtpHandler.asReceived payrollEmail] ∧
    ¬ Enforces payrollEnv {} (({} : SmtpPrevent).verdictOn payrollEnv {} payrollEmail) payrollEmail
      ((DLPSmtpHandler.prevent {}).handleData payrollEnv .accepting {} payrollEmail).forwarded := by
  have haction : (({} : SmtpPrevent).verdictOn payrollEnv {} payrollEmail).action = .modify := rfl
  have hforwarded : ((DLPSmtpHandler.prevent {}).handleData payrollEnv .accepting {}
      payrollEmail).forwarded = [DLPSmtpHandler.asReceived payrollEmail] := rfl
  refine ⟨haction, hforwarded, ?_⟩
  unfold Enforces
  rw [haction, hforwarded]
  rintro ⟨data, hsent, hcarries⟩
  obtain rfl : payrollEmail.content = data := by
    simpa [DLPSmtpHandler.asReceived] using hsent
  exact not_carriesModifications_self rfl hcarries

end AkesoDlp.Network
