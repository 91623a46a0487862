import AkesoDlp.Network.SmtpMonitor

/-!
# SMTP prevent mode

`smtp_prevent.py`: the monitor's inspection, and a verdict by the number of
matches. The verdict carries what its action needs.
-/

namespace AkesoDlp.Network

inductive SmtpAction
  | pass
  | log
  | block
  | modify
  | redirect
deriving DecidableEq, Repr

structure SmtpVerdict where
  action : SmtpAction
  inspection : EmailInspectionResult
  modifiedSubject : Option String := none
  modifiedHeaders : Option (List (String × String)) := none
  redirectTo : Option String := none
  rejectCode : Nat := 550
  rejectMessage : String := "5.7.1 Message rejected: DLP policy violation"
deriving DecidableEq

structure SmtpPrevent extends SmtpMonitor where
  blockThreshold : Int := 5
  modifyThreshold : Int := 1
  quarantineAddress : String := "quarantine@dlp.local"
  defaultAction : SmtpAction := .modify
  verdicts : List SmtpVerdict := []
deriving DecidableEq

namespace SmtpPrevent

def determineAction (prevent : SmtpPrevent) (result : EmailInspectionResult) : SmtpAction :=
  if !result.hasViolations then .pass
  else if prevent.blockThreshold ≤ result.detection.matchCount then .block
  else if prevent.modifyThreshold ≤ result.detection.matchCount then prevent.defaultAction
  else .log

/-- The verdict that `process_email` records. -/
def verdictFor (prevent : SmtpPrevent) (result : EmailInspectionResult) : SmtpVerdict :=
  let action := prevent.determineAction result
  let verdict : SmtpVerdict := { action := action, inspection := result }
  match action with
  | .block =>
      { verdict with
        rejectCode := 550
        rejectMessage := "5.7.1 Message rejected: DLP policy violation" }
  | .modify =>
      { verdict with
        modifiedSubject := some ("[DLP VIOLATION] " ++ result.subject)
        modifiedHeaders := some [("X-DLP-Violation", "true"),
          ("X-DLP-Match-Count", toString result.detection.matchCount),
          ("X-DLP-Action", "modify")] }
  | .redirect => { verdict with redirectTo := some prevent.quarantineAddress }
  | .pass | .log => verdict

theorem verdictFor_action (p : SmtpPrevent) (result : EmailInspectionResult) :
    (p.verdictFor result).action = p.determineAction result := by
  unfold verdictFor
  dsimp only
  split <;> rfl

theorem verdictFor_rejectCode (p : SmtpPrevent) (result : EmailInspectionResult) :
    (p.verdictFor result).rejectCode = 550 := by
  unfold verdictFor
  dsimp only
  split <;> rfl

theorem verdictFor_modify {p : SmtpPrevent} {result : EmailInspectionResult}
    (h : p.determineAction result = .modify) :
    (p.verdictFor result).modifiedSubject = some ("[DLP VIOLATION] " ++ result.subject) := by
  unfold verdictFor
  dsimp only
  rw [h]

theorem verdictFor_redirect {p : SmtpPrevent} {result : EmailInspectionResult}
    (h : p.determineAction result = .redirect) :
    (p.verdictFor result).redirectTo = some p.quarantineAddress := by
  unfold verdictFor
  dsimp only
  rw [h]

/-- What `process_email` writes over the action of the last incident. -/
def SmtpAction.taken : SmtpAction → Option String
  | .block => some "block"
  | .modify => some "modify"
  | .redirect => some "redirect"
  | .pass | .log => none

/-- `if self._incidents: self._incidents[-1]["action_taken"] = action`. -/
def updateLastIncident (incidents : List Incident) (action : String) : List Incident :=
  incidents.modify (incidents.length - 1) fun incident => { incident with actionTaken := action }

def processEmail (prevent : SmtpPrevent) (env : InspectionEnv) (moment : Moment)
    (envelope : EmailEnvelope) (rawData : List UInt8) : EmailInspectionResult × SmtpPrevent :=
  let (result, monitor) := prevent.toSmtpMonitor.processEmail env moment envelope rawData
  let verdict := prevent.verdictFor result
  let incidents := match SmtpAction.taken verdict.action with
    | some action => updateLastIncident monitor.incidents action
    | none => monitor.incidents
  (result, { prevent with
    toSmtpMonitor := { monitor with incidents := incidents }
    verdicts := prevent.verdicts ++ [verdict] })

def getRejectResponse (verdict : SmtpVerdict) : Nat × String :=
  (verdict.rejectCode, verdict.rejectMessage)

/-- The subject is replaced, the headers are added. -/
def applyModifications (msg : EmailMessage) (verdict : SmtpVerdict) : EmailMessage :=
  let msg := match verdict.modifiedSubject.filter fun subject => !subject.isEmpty with
    | some subject =>
        (if msg.contains "Subject" then msg.delete "Subject" else msg).add "Subject" subject
    | none => msg
  msg.addAll (verdict.modifiedHeaders.getD [])

def getRedirectRecipients (verdict : SmtpVerdict) : List String :=
  (verdict.redirectTo.filter fun address => !address.isEmpty).toList

end SmtpPrevent

end AkesoDlp.Network
