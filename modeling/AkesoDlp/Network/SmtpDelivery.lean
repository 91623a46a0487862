import AkesoDlp.Network.SmtpEntry

/-!
# Acknowledged mail

`handle_DATA` answers 250 to every email that it does not block. A session with
the relay that fails, or that refuses recipients, loses the email; so does an
address that is not ASCII, which the client cannot send.
-/

namespace AkesoDlp.Network

/-! ## When a session delivers -/

/-- The addresses whose RCPT command is answered 250 or 251. -/
def acceptedRecipients (up : UpstreamSession) : Nat → List String → List String
  | _, [] => []
  | i, each :: rest =>
      (if up.rcpt i each = some 250 ∨ up.rcpt i each = some 251 then [each] else []) ++
        acceptedRecipients up (i + 1) rest

/-- Every RCPT command can be sent and is answered, and not with a 421. -/
def RcptAnswered (up : UpstreamSession) (i : Nat) (rcptTos : List String) : Prop :=
  ∀ k address, rcptTos[k]? = some address →
    isAscii address = true ∧ ∃ code, up.rcpt (i + k) address = some code ∧ code ≠ 421

/-- One of the RCPT commands for the address is answered 250 or 251. -/
def RcptAccepted (up : UpstreamSession) (i : Nat) (rcptTos : List String) (address : String) :
    Prop :=
  ∃ k, rcptTos[k]? = some address ∧
    (up.rcpt (i + k) address = some 250 ∨ up.rcpt (i + k) address = some 251)

theorem rcptAnswered_cons {up : UpstreamSession} {i : Nat} {each : String} {rest : List String} :
    RcptAnswered up i (each :: rest) ↔
      (isAscii each = true ∧ ∃ code, up.rcpt i each = some code ∧ code ≠ 421) ∧
        RcptAnswered up (i + 1) rest := by
  unfold RcptAnswered
  constructor
  · intro h
    refine ⟨h 0 each rfl, ?_⟩
    intro k address hk
    rw [Nat.add_right_comm]
    exact h (k + 1) address hk
  · rintro ⟨hfirst, hrest⟩ k address hk
    cases k with
    | zero =>
        obtain rfl := Option.some.inj hk
        exact hfirst
    | succ k =>
        have hnext := hrest k address hk
        rwa [Nat.add_right_comm] at hnext

theorem mem_acceptedRecipients {up : UpstreamSession} {i : Nat} {rcptTos : List String}
    {address : String} :
    address ∈ acceptedRecipients up i rcptTos ↔ RcptAccepted up i rcptTos address := by
  induction rcptTos generalizing i with
  | nil => simp [acceptedRecipients, RcptAccepted]
  | cons each rest ih =>
      unfold acceptedRecipients
      rw [List.mem_append, ih]
      constructor
      · rintro (hfirst | ⟨k, hk, haccepted⟩)
        · split at hfirst
          · obtain rfl := List.mem_singleton.mp hfirst
            exact ⟨0, rfl, ‹_›⟩
          · exact absurd hfirst List.not_mem_nil
        · rw [Nat.add_right_comm] at haccepted
          exact ⟨k + 1, hk, haccepted⟩
      · rintro ⟨k, hk, haccepted⟩
        cases k with
        | zero =>
            obtain rfl := Option.some.inj hk
            rw [Nat.add_zero] at haccepted
            exact .inl (by rw [if_pos haccepted]; exact List.mem_singleton_self each)
        | succ k =>
            refine .inr ⟨k, hk, ?_⟩
            rw [Nat.add_right_comm]
            exact haccepted

theorem length_recordRefusal (senderrs : List (String × Nat)) (address : String) (code : Nat) :
    (recordRefusal senderrs address code).length ≤ senderrs.length + 1 := by
  unfold recordRefusal
  split <;> simp

/-- The loop over the recipients, when every command gets its answer. -/
theorem sendRecipients_of_answered {up : UpstreamSession} {i : Nat} {rcptTos : List String}
    (h : RcptAnswered up i rcptTos) (senderrs : List (String × Nat)) (accepted : List String) :
    ∃ refused, sendRecipients up i rcptTos senderrs accepted =
        .ok (refused, accepted ++ acceptedRecipients up i rcptTos) ∧
      refused.length + (acceptedRecipients up i rcptTos).length ≤
        senderrs.length + rcptTos.length := by
  induction rcptTos generalizing i senderrs accepted with
  | nil => exact ⟨senderrs, by simp [sendRecipients, acceptedRecipients]⟩
  | cons each rest ih =>
      obtain ⟨⟨hascii, code, hcode, hopen⟩, hrest⟩ := rcptAnswered_cons.mp h
      unfold sendRecipients acceptedRecipients
      rw [hcode, encodeCommand, if_pos hascii]
      dsimp only [bind, Except.bind]
      by_cases haccepts : code = 250 ∨ code = 251
      · obtain ⟨refused, hsend, hlength⟩ := ih hrest senderrs (accepted ++ [each])
        refine ⟨refused, ?_, ?_⟩
        · rw [if_pos haccepts, hsend]
          simp [haccepts]
        · simp only [Option.some.injEq, haccepts, if_true, List.length_append, List.length_cons,
            List.length_nil]
          omega
      · obtain ⟨refused, hsend, hlength⟩ := ih hrest (recordRefusal senderrs each code) accepted
        refine ⟨refused, ?_, ?_⟩
        · rw [if_neg haccepts, if_neg hopen, hsend]
          simp [haccepts]
        · have hrefusal := length_recordRefusal senderrs each code
          simp only [Option.some.injEq, haccepts, if_false, List.nil_append, List.length_cons]
          omega

theorem bind_eq_ok {ε α β : Type} {x : Except ε α} {f : α → Except ε β} {b : β} :
    x >>= f = .ok b ↔ ∃ a, x = .ok a ∧ f a = .ok b := by
  cases x with
  | error e => simp [bind, Except.bind]
  | ok a => simp [bind, Except.bind]

theorem encodeCommand_eq_ok_iff {address : String} {u : Unit} :
    encodeCommand address = .ok u ↔ isAscii address = true := by
  unfold encodeCommand
  cases h : isAscii address <;> simp

theorem answered_of_sendRecipients {up : UpstreamSession} {i : Nat} {rcptTos : List String}
    {senderrs : List (String × Nat)} {accepted : List String}
    {result : List (String × Nat) × List String}
    (h : sendRecipients up i rcptTos senderrs accepted = .ok result) :
    RcptAnswered up i rcptTos := by
  induction rcptTos generalizing i senderrs accepted with
  | nil =>
      intro k address hk
      exact absurd hk (by simp)
  | cons each rest ih =>
      unfold sendRecipients at h
      obtain ⟨_, hencode, h⟩ := bind_eq_ok.mp h
      have hascii := encodeCommand_eq_ok_iff.mp hencode
      rw [rcptAnswered_cons]
      cases hcode : up.rcpt i each with
      | none =>
          rw [hcode] at h
          exact absurd h (by simp)
      | some code =>
          rw [hcode] at h
          dsimp only at h
          split at h
          · exact ⟨⟨hascii, code, rfl, by omega⟩, ih h⟩
          · split at h
            · exact absurd h (by simp)
            · exact ⟨⟨hascii, code, rfl, ‹_›⟩, ih h⟩

theorem expect_eq_ok_iff {good : Nat → Bool} {refused : Nat → SMTPException}
    {answer : Option Nat} {u : Unit} :
    expect good refused answer = .ok u ↔ ∃ code, answer = some code ∧ good code = true := by
  unfold expect
  cases answer with
  | none => simp
  | some code => cases h : good code <;> simp [h]

/-- The client can write the addresses, and the relay accepts the message and every
recipient of it. -/
structure AcceptsAll (up : UpstreamSession) (mailFrom : String) (rcptTos : List String) :
    Prop where
  connect : up.connect = some 220
  hello : ∃ code, up.hello = some code ∧ 200 ≤ code ∧ code ≤ 299
  sender : isAscii mailFrom = true
  mail : up.mail = some 250
  nonempty : rcptTos ≠ []
  answered : RcptAnswered up 0 rcptTos
  accepted : ∀ address ∈ rcptTos, RcptAccepted up 0 rcptTos address
  data : up.data = some 354
  message : up.message = some 250

theorem sendmail_eq_ok_iff {up : UpstreamSession} {f : Forward} {senderrs : List (String × Nat)}
    {d : Delivery} :
    sendmail up f = .ok (senderrs, d) ↔
      (∃ code, up.hello = some code ∧ 200 ≤ code ∧ code ≤ 299) ∧ isAscii f.mailFrom = true ∧
      up.mail = some 250 ∧
      ∃ accepted, sendRecipients up 0 f.rcptTos [] [] = .ok (senderrs, accepted) ∧
        senderrs.length ≠ f.rcptTos.length ∧ up.data = some 354 ∧ up.message = some 250 ∧
        d = { mailFrom := f.mailFrom, recipients := accepted, data := f.data } := by
  unfold sendmail
  simp only [bind_eq_ok, expect_eq_ok_iff, encodeCommand_eq_ok_iff, Bool.and_eq_true,
    decide_eq_true_eq, beq_iff_eq, exists_const, exists_eq_right]
  refine and_congr_right fun _ => and_congr_right fun _ => and_congr_right fun _ => ?_
  constructor
  · rintro ⟨⟨refused, accepted⟩, hrcpt, hrest⟩
    dsimp only at hrest
    split at hrest
    · exact absurd hrest (by simp [throw, throwThe, MonadExceptOf.throw])
    · simp only [bind_eq_ok, expect_eq_ok_iff, beq_iff_eq, exists_const, exists_eq_right] at hrest
      obtain ⟨hdata, hmessage, hpure⟩ := hrest
      obtain ⟨rfl, rfl⟩ := Prod.mk.inj (Except.ok.inj hpure)
      exact ⟨accepted, hrcpt, ‹_›, hdata, hmessage, rfl⟩
  · rintro ⟨accepted, hrcpt, hlength, hdata, hmessage, rfl⟩
    refine ⟨_, hrcpt, ?_⟩
    dsimp only
    rw [if_neg hlength]
    simp only [bind_eq_ok, expect_eq_ok_iff, beq_iff_eq, exists_const, exists_eq_right]
    exact ⟨hdata, hmessage, rfl⟩

/-- The relay has the message for every recipient. -/
def Delivered (rcptTos : List String) (delivery : Option Delivery) : Prop :=
  ∃ d, delivery = some d ∧ ∀ address ∈ rcptTos, address ∈ d.recipients

theorem forward_eq_some_iff {up : UpstreamSession} {f : Forward} {d : Delivery} :
    DLPSmtpHandler.forward up f = some d ↔
      up.connect = some 220 ∧ ∃ senderrs, sendmail up f = .ok (senderrs, d) := by
  unfold DLPSmtpHandler.forward withSession connect
  cases up.connect with
  | none => simp
  | some code =>
      by_cases hcode : code = 220
      · cases hsend : sendmail up f with
        | error e => simp [hcode]
        | ok result =>
            obtain ⟨refused, delivery⟩ := result
            simp [hcode]
      · simp [hcode]

theorem delivered_forward_iff (up : UpstreamSession) (f : Forward) :
    Delivered f.rcptTos (DLPSmtpHandler.forward up f) ↔
      AcceptsAll up f.mailFrom f.rcptTos := by
  unfold Delivered
  constructor
  · rintro ⟨d, hforward, hall⟩
    obtain ⟨hconnect, senderrs, hsend⟩ := forward_eq_some_iff.mp hforward
    obtain ⟨hhello, hsender, hmail, accepted, hrcpt, hlength, hdata, hmessage, rfl⟩ :=
      sendmail_eq_ok_iff.mp hsend
    -- the loop came to its end, so every RCPT was answered
    have hanswered := answered_of_sendRecipients hrcpt
    obtain ⟨refused, hresult, -⟩ := sendRecipients_of_answered hanswered [] []
    obtain ⟨rfl, rfl⟩ := Prod.mk.inj (Except.ok.inj (hrcpt.symm.trans hresult))
    -- no recipients, none refused: `sendmail` takes this for all refused
    have hnonempty : f.rcptTos ≠ [] := by
      intro hnil
      rw [hnil] at hrcpt hlength
      obtain ⟨rfl, -⟩ := Prod.mk.inj (Except.ok.inj hrcpt)
      exact hlength rfl
    exact ⟨hconnect, hhello, hsender, hmail, hnonempty, hanswered,
      fun address hmem => mem_acceptedRecipients.mp (hall address hmem), hdata, hmessage⟩
  · intro h
    obtain ⟨refused, hresult, hcount⟩ := sendRecipients_of_answered h.answered [] []
    -- somebody is accepted, so that not all are refused
    have haccepted : 0 < (acceptedRecipients up 0 f.rcptTos).length := by
      obtain ⟨address, hmem⟩ := List.exists_mem_of_ne_nil _ h.nonempty
      exact List.length_pos_of_mem (mem_acceptedRecipients.mpr (h.accepted address hmem))
    have hlength : refused.length ≠ f.rcptTos.length := by
      rw [List.length_nil] at hcount
      omega
    refine ⟨_, forward_eq_some_iff.mpr ⟨h.connect, refused, sendmail_eq_ok_iff.mpr
      ⟨h.hello, h.sender, h.mail, _, hresult, hlength, h.data, h.message, rfl⟩⟩, ?_⟩
    intro address hmem
    exact mem_acceptedRecipients.mpr (h.accepted address hmem)

/-! ## What the client is told -/

/-- A 250 only for mail that the relay has for every recipient, and no other
positive reply. -/
def NoLoss (rcptTos : List String) (outcome : DataOutcome) : Prop :=
  (outcome.reply.code = 250 → Delivered rcptTos outcome.deliveries.head?) ∧
  (¬ Delivered rcptTos outcome.deliveries.head? →
    ¬ (200 ≤ outcome.reply.code ∧ outcome.reply.code ≤ 299))

namespace DLPSmtpHandler

def Blocks (env : InspectionEnv) (moment : Moment) (email : ReceivedEmail) :
    DLPSmtpHandler → Prop
  | .monitor _ => False
  | .prevent p => (p.verdictOn env moment email).action = .block

/-- Whom the email is to be forwarded to. -/
def recipients (env : InspectionEnv) (moment : Moment) (email : ReceivedEmail) :
    DLPSmtpHandler → List String
  | .monitor _ => email.rcptTo
  | .prevent p =>
      match (p.verdictOn env moment email).action with
      | .redirect => SmtpPrevent.getRedirectRecipients (p.verdictOn env moment email)
      | _ => email.rcptTo

theorem handedOn_of_not_blocks {env : InspectionEnv} {moment : Moment} {email : ReceivedEmail}
    {handler : DLPSmtpHandler} (h : ¬ handler.Blocks env moment email) :
    ∃ f, handler.handedOn env moment email = some f ∧ f.mailFrom = email.mailFrom ∧
      f.rcptTos = handler.recipients env moment email := by
  cases handler with
  | monitor m => exact ⟨_, rfl, rfl, rfl⟩
  | prevent p =>
      unfold handedOn forwardUnder recipients
      unfold Blocks at h
      dsimp only at h ⊢
      cases haction : (p.verdictOn env moment email).action with
      | block => exact absurd haction h
      | pass => exact ⟨_, rfl, rfl, rfl⟩
      | log => exact ⟨_, rfl, rfl, rfl⟩
      | modify => exact ⟨_, rfl, rfl, rfl⟩
      | redirect => exact ⟨_, rfl, rfl, rfl⟩

end DLPSmtpHandler

/-- Mail that is not blocked is always acknowledged, so nothing is lost exactly
when the client can send it and the relay takes it for every recipient. -/
theorem handleData_noLoss_iff {env : InspectionEnv} (up : UpstreamSession) {moment : Moment}
    {handler : DLPSmtpHandler} {email : ReceivedEmail}
    (h : ¬ handler.Blocks env moment email) :
    NoLoss (handler.recipients env moment email) (handler.handleData env up moment email) ↔
      AcceptsAll up email.mailFrom (handler.recipients env moment email) := by
  obtain ⟨f, hhanded, hfrom, hrcpt⟩ := DLPSmtpHandler.handedOn_of_not_blocks h
  obtain ⟨-, hdeliveries, hcode⟩ := handler.handleData_spec env up moment email
  rw [hhanded] at hdeliveries hcode
  have hcode : (handler.handleData env up moment email).reply.code = 250 := hcode
  -- there is one forward, hence at most one delivery
  have hhead : (handler.handleData env up moment email).deliveries.head? =
      DLPSmtpHandler.forward up f := by
    rw [hdeliveries]
    cases hforward : DLPSmtpHandler.forward up f <;> simp [hforward]
  unfold NoLoss
  rw [hcode, hhead, ← hfrom, ← hrcpt, ← delivered_forward_iff]
  constructor
  · intro hnoLoss
    exact hnoLoss.1 rfl
  · intro hdelivered
    exact ⟨fun _ => hdelivered, fun hnot => absurd hdelivered hnot⟩

/-! ## A relay that is down, and one that refuses a recipient -/

theorem handleData_noLoss_payroll :
    NoLoss ["b@mail", "c@mail"]
      ((DLPSmtpHandler.monitor {}).handleData payrollEnv .accepting {} payrollEmail) := by
  have hpasses : ¬ (DLPSmtpHandler.monitor {}).Blocks payrollEnv {} payrollEmail := id
  refine (handleData_noLoss_iff .accepting hpasses).mpr ?_
  refine ⟨rfl, ⟨250, rfl, by omega, by omega⟩, by decide, rfl, by decide, ?_, ?_, rfl, rfl⟩
  · intro k address hk
    have hascii : ∀ address ∈ ["b@mail", "c@mail"], isAscii address = true := by decide
    exact ⟨hascii address (List.mem_of_getElem? hk), 250, rfl, by omega⟩
  · intro address hmem
    obtain ⟨k, hk, rfl⟩ := List.mem_iff_getElem.mp hmem
    exact ⟨k, List.getElem?_eq_getElem hk, .inl rfl⟩

def relayDown : UpstreamSession := { UpstreamSession.accepting with connect := none }

def refusesSecond : UpstreamSession :=
  { UpstreamSession.accepting with rcpt := fun i _ => if i = 1 then some 550 else some 250 }

/-- The client gets a 250 for an email that no relay has, and for one that went
to the first of two recipients only. -/
theorem not_noLoss_payroll :
    ((DLPSmtpHandler.monitor {}).handleData payrollEnv relayDown {} payrollEmail).reply.code = 250 ∧
    ((DLPSmtpHandler.monitor {}).handleData payrollEnv relayDown {} payrollEmail).deliveries = [] ∧
    ¬ NoLoss ["b@mail", "c@mail"]
      ((DLPSmtpHandler.monitor {}).handleData payrollEnv relayDown {} payrollEmail) ∧
    ((DLPSmtpHandler.monitor {}).handleData payrollEnv refusesSecond {}
      payrollEmail).deliveries.map (·.recipients) = [["b@mail"]] ∧
    ¬ NoLoss ["b@mail", "c@mail"]
      ((DLPSmtpHandler.monitor {}).handleData payrollEnv refusesSecond {} payrollEmail) := by
  refine ⟨rfl, rfl, ?_, rfl, ?_⟩
  · rintro ⟨hdelivered, -⟩
    obtain ⟨d, hd, -⟩ := hdelivered rfl
    exact absurd hd (Option.some_ne_none d).symm
  · rintro ⟨hdelivered, -⟩
    obtain ⟨d, hd, hall⟩ := hdelivered rfl
    obtain rfl := Option.some.inj hd
    exact absurd (hall "c@mail" (by decide)) (by decide)

end AkesoDlp.Network
