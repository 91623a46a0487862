import AkesoDlp.Parity.Fields

/-!
# The validators of agent and server

For each data identifier the agent and the server have a validator. They agree on every
ASCII candidate but for a list of differences, most of which the tests of one side or of
both lay down.
-/

namespace AkesoDlp.Parity

open Agent (StdString isDigit isAlnum extractDigits lastLabel str)
open Agent.Validators
open Server (isPySpace isSpaceOrDash)
open Server.Validators (luhn ssnArea phoneFormat emailDomain ibanMod97 passportFormat
  driversLicenseFormat ipv4Range dateCalendar abaChecksum)

inductive DataIdentifier
  | creditCard
  | ssn
  | iban
  | aba
  | usPhone
  | email
  | usPassport
  | usDriverLicense
  | ipv4
  | dateOfBirth
deriving DecidableEq, Repr

def agentValidator : DataIdentifier → StdString → Agent.ValidationResult
  | .creditCard => validateCreditCard
  | .ssn => validateSSN
  | .iban => validateIBAN
  | .aba => validateABA
  | .usPhone => validateUSPhone
  | .email => validateEmail
  | .usPassport => validateUSPassport
  | .usDriverLicense => validateUSDriverLicense
  | .ipv4 => validateIPv4
  | .dateOfBirth => validateDateOfBirth

def serverValidator : DataIdentifier → StdString → Bool
  | .creditCard => luhn
  | .ssn => ssnArea
  | .iban => ibanMod97
  | .aba => abaChecksum
  | .usPhone => phoneFormat
  | .email => emailDomain
  | .usPassport => passportFormat
  | .usDriverLicense => driversLicenseFormat
  | .ipv4 => ipv4Range
  | .dateOfBirth => dateCalendar

/-- A candidate: a string of ASCII characters. -/
structure Candidate where
  text : StdString
  ascii : ∀ c ∈ text, c < 128

def AgentAccepts (id : DataIdentifier) (s : Candidate) : Prop :=
  agentValidator id s.text = .valid

def ServerAccepts (id : DataIdentifier) (s : Candidate) : Prop :=
  serverValidator id s.text = true

/-! ## The differences -/

/-- Why the server refuses a candidate that the agent accepts. -/
def ServerRefuses (id : DataIdentifier) (s : Candidate) : Prop :=
  match id with
  | .creditCard => HasOther (fun c => isDigit c || isSpaceOrDash c) s.text
  | .ssn => HasOther (fun c => isDigit c || isSpaceOrDash c) s.text
  | .iban => HasOther (fun c => isAlnum c || isPySpace c) s.text
  | .aba => HasOther (fun c => isDigit c || isPySpace c) s.text
  | .usPhone => (nationalNumber (extractDigits s.text)).getD 3 0 = 49
  | .email => 63 < (lastLabel s.text).length
  | .usPassport => False
  | .usDriverLicense => ∀ c ∈ s.text, isDigit c = true → c = 48
  | .ipv4 => False
  | .dateOfBirth => False

/-- Why the agent refuses a candidate that the server accepts. -/
def AgentRefuses (id : DataIdentifier) (s : Candidate) : Prop :=
  match id with
  | .creditCard => 19 < (extractDigits s.text).length
  | .ssn => False
  | .iban => False
  | .aba => False
  | .usPhone => False
  | .email => EmailRefused s.text
  | .usPassport => PassportRefused s.text
  | .usDriverLicense => ¬ LicenseForm s.text
  | .ipv4 => AddressRefused s.text
  | .dateOfBirth => DateRefused s.text

/-- The agent reads numbers up to the first character that is no digit, and looks at four
parts of an address only. -/
def LooselyRead (id : DataIdentifier) (s : Candidate) : Prop :=
  match id with
  | .ipv4 => LooseAddress s.text
  | .dateOfBirth => LooseDate s.text
  | _ => False

/-- The validators of an identifier differ for the given reasons only. -/
structure Compared (id : DataIdentifier) (s : Candidate) : Prop where
  ofAgent : AgentAccepts id s → (ServerAccepts id s ↔ ¬ ServerRefuses id s)
  ofServer : ServerAccepts id s → (AgentAccepts id s ↔ ¬ AgentRefuses id s)

/-- Where the server accepts what the agent does and has no other characters. -/
theorem compared_of_iff {id : DataIdentifier} {s : Candidate}
    (h : ServerAccepts id s ↔ AgentAccepts id s ∧ ¬ ServerRefuses id s)
    (hnever : ¬ AgentRefuses id s) : Compared id s := by
  constructor
  case ofAgent =>
    intro hagent
    rw [h]
    exact and_iff_right hagent
  case ofServer =>
    intro hserver
    exact iff_of_true (h.mp hserver).1 hnever

theorem compared (id : DataIdentifier) (s : Candidate)
    (h : ¬ (AgentAccepts id s ∧ LooselyRead id s)) : Compared id s := by
  cases id
  case ssn => exact compared_of_iff ssnArea_iff not_false
  case iban => exact compared_of_iff ibanMod97_iff not_false
  case aba => exact compared_of_iff abaChecksum_iff not_false
  case usPhone => exact compared_of_iff phoneFormat_iff not_false
  case creditCard =>
    constructor
    case ofAgent =>
      intro hagent
      obtain ⟨hlong, -, hsum⟩ := validateCreditCard_iff.mp hagent
      exact luhn_iff.trans ⟨fun hserver => hserver.2.2, fun hother => ⟨hlong, hsum, hother⟩⟩
    case ofServer =>
      intro hserver
      obtain ⟨hlong, hsum, -⟩ := luhn_iff.mp hserver
      exact validateCreditCard_iff.trans
        ⟨fun hagent => Nat.not_lt.mpr hagent.2.1, fun hshort => ⟨hlong, Nat.not_lt.mp hshort, hsum⟩⟩
  case email => exact ⟨emailDomain_of_valid, validateEmail_of_emailDomain⟩
  case usPassport =>
    exact ⟨fun hagent => iff_of_true (passportFormat_of_valid hagent).1 not_false,
      validateUSPassport_of_passportFormat⟩
  case usDriverLicense =>
    exact ⟨driversLicenseFormat_of_valid, fun _ => validateUSDriverLicense_iff.trans not_not.symm⟩
  case ipv4 =>
    exact ⟨fun hagent => iff_of_true (ipv4Range_of_valid hagent fun hloose => h ⟨hagent, hloose⟩)
      not_false, fun hserver => validateIPv4_of_ipv4Range hserver h⟩
  case dateOfBirth =>
    exact ⟨fun hagent => iff_of_true
      (dateCalendar_of_valid hagent fun hloose => h ⟨hagent, hloose⟩).1 not_false,
      fun hserver => validateDateOfBirth_of_dateCalendar hserver h⟩

/-- Agent and server agree on a candidate exactly when none of the differences applies. -/
theorem validators_agree_iff (id : DataIdentifier) (s : Candidate)
    (h : ¬ (AgentAccepts id s ∧ LooselyRead id s)) :
    (AgentAccepts id s ↔ ServerAccepts id s) ↔
      ¬ (AgentAccepts id s ∧ ServerRefuses id s) ∧ ¬ (ServerAccepts id s ∧ AgentRefuses id s) := by
  obtain ⟨hagent, hserver⟩ := compared id s h
  constructor
  · intro hsame
    constructor
    · rintro ⟨haccepts, hrefuses⟩
      exact (hagent haccepts).mp (hsame.mp haccepts) hrefuses
    · rintro ⟨haccepts, hrefuses⟩
      exact (hserver haccepts).mp (hsame.mpr haccepts) hrefuses
  · rintro ⟨honlyAgent, honlyServer⟩
    constructor
    · intro haccepts
      exact (hagent haccepts).mpr fun hrefuses => honlyAgent ⟨haccepts, hrefuses⟩
    · intro haccepts
      exact (hserver haccepts).mpr fun hrefuses => honlyServer ⟨haccepts, hrefuses⟩

def sampleAddress : Candidate := ⟨str "192.168.1.100", by decide +kernel⟩

theorem validators_agree_on_address :
    AgentAccepts .ipv4 sampleAddress ↔ ServerAccepts .ipv4 sampleAddress := by
  have hstrict : ¬ LooseAddress sampleAddress.text := by decide +kernel
  have hplain : ¬ AddressRefused sampleAddress.text := by decide +kernel
  refine (validators_agree_iff .ipv4 sampleAddress fun h => hstrict h.2).mpr ⟨?_, ?_⟩
  · exact fun h => h.2
  · exact fun h => hplain h.2

/-- The tests of the agent refuse a date in ISO format, those of the server accept it. -/
theorem iso_date_differs : ¬ ∀ id s, AgentAccepts id s ↔ ServerAccepts id s := by
  intro h
  have hserver : dateCalendar (str "1990-01-15") = true := by decide +kernel
  have hagent : validateDateOfBirth (str "1990-01-15") ≠ .valid := by decide +kernel
  exact hagent ((h .dateOfBirth ⟨str "1990-01-15", by decide +kernel⟩).mpr hserver)

end AkesoDlp.Parity
