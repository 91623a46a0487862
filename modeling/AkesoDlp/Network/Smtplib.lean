import Mathlib.Data.List.Basic

/-!
# The SMTP client of the standard library

`smtplib.SMTP(host, port)`, used as a context manager around one `sendmail`, as
its documentation describes it. What the relay does is a parameter: the reply
code to each command, `none` where the connection fails.
-/

namespace AkesoDlp.Network

/-- The relay's side of a session. `hello` answers EHLO, or HELO after it;
`rcpt i address` answers the `i`-th RCPT command; `data` answers the DATA command
and `message` the message itself. -/
structure UpstreamSession where
  connect : Option Nat
  hello : Option Nat
  mail : Option Nat
  rcpt : Nat → String → Option Nat
  data : Option Nat
  message : Option Nat
  quit : Option Nat

def UpstreamSession.accepting : UpstreamSession where
  connect := some 220
  hello := some 250
  mail := some 250
  rcpt _ _ := some 250
  data := some 354
  message := some 250
  quit := some 221

/-- The arguments of `sendmail`. -/
structure Forward where
  mailFrom : String
  rcptTos : List String
  data : List UInt8
deriving DecidableEq, Repr

inductive SMTPException
  | osError
  | serverDisconnected
  | connectError (code : Nat)
  | heloError (code : Nat)
  | senderRefused (code : Nat)
  | recipientsRefused (senderrs : List (String × Nat))
  | dataError (code : Nat)
  | responseException (code : Nat)
  | unicodeEncodeError
deriving DecidableEq, Repr

/-- A message that the relay has accepted, and for whom. -/
structure Delivery where
  mailFrom : String
  recipients : List String
  data : List UInt8
deriving DecidableEq, Repr

/-- Wait for a reply, which has to be a good one. -/
def expect (good : Nat → Bool) (refused : Nat → SMTPException) :
    Option Nat → Except SMTPException Unit
  | none => .error .serverDisconnected
  | some code => if good code then .ok () else .error (refused code)

/-- Commands are encoded as ASCII where SMTPUTF8 is not asked for. An address of an
envelope has no display name, so that `quoteaddr` only puts it between brackets. -/
def isAscii (address : String) : Bool := address.toList.all fun c => c.toNat < 128

def encodeCommand (address : String) : Except SMTPException Unit :=
  if isAscii address then .ok () else .error .unicodeEncodeError

/-- `senderrs[address] = code` in a dictionary. -/
def recordRefusal (senderrs : List (String × Nat)) (address : String) (code : Nat) :
    List (String × Nat) :=
  if senderrs.any (fun e => e.1 == address) then
    senderrs.map fun e => if e.1 == address then (address, code) else e
  else senderrs ++ [(address, code)]

/-- The loop over the recipients: the refusals, and who was accepted. -/
def sendRecipients (up : UpstreamSession) : Nat → List String → List (String × Nat) →
    List String → Except SMTPException (List (String × Nat) × List String)
  | _, [], senderrs, accepted => .ok (senderrs, accepted)
  | i, each :: rest, senderrs, accepted => do
      encodeCommand each
      match up.rcpt i each with
      | none => .error .serverDisconnected
      | some code =>
          if code = 250 ∨ code = 251 then
            sendRecipients up (i + 1) rest senderrs (accepted ++ [each])
          else if code = 421 then .error (.recipientsRefused (recordRefusal senderrs each code))
          else sendRecipients up (i + 1) rest (recordRefusal senderrs each code) accepted

/-- The refusals are what `sendmail` returns; the delivery is what happens at the
relay. -/
def sendmail (up : UpstreamSession) (f : Forward) :
    Except SMTPException (List (String × Nat) × Delivery) := do
  expect (fun code => 200 ≤ code && code ≤ 299) .heloError up.hello
  encodeCommand f.mailFrom
  expect (· == 250) .senderRefused up.mail
  let (senderrs, accepted) ← sendRecipients up 0 f.rcptTos [] []
  if senderrs.length = f.rcptTos.length then throw (.recipientsRefused senderrs)
  else
    expect (· == 354) .dataError up.data
    expect (· == 250) .dataError up.message
    return (senderrs, { mailFrom := f.mailFrom, recipients := accepted, data := f.data })

/-- `SMTP.__init__`. -/
def connect (up : UpstreamSession) : Except SMTPException Unit :=
  match up.connect with
  | none => .error .osError
  | some code => if code = 220 then .ok () else .error (.connectError code)

/-- `SMTP.__exit__`. -/
def exit (up : UpstreamSession) : Except SMTPException Unit :=
  match up.quit with
  | none => .ok ()
  | some code => if code = 221 then .ok () else .error (.responseException code)

/-- The `with` statement: the refusals or an exception, and the delivery, which a
failing QUIT does not undo. -/
def withSession (up : UpstreamSession) (f : Forward) :
    Except SMTPException (List (String × Nat)) × Option Delivery :=
  match connect up with
  | .error e => (.error e, none)
  | .ok () =>
      match sendmail up f with
      | .error e => ((exit up).bind fun _ => .error e, none)
      | .ok (senderrs, delivery) => ((exit up).bind fun _ => .ok senderrs, some delivery)

end AkesoDlp.Network
