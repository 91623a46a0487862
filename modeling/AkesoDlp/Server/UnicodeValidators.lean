import AkesoDlp.Server.PyPath
import AkesoDlp.Server.Validators

/-!
# The validators on Unicode text

`validators.py` on any text. `str.isdigit` accepts digits that are not decimal, like
superscripts, and `int` refuses them, so the validators that ask the one before they call the
other can raise a `ValueError`.
-/

namespace AkesoDlp.Server.UnicodeValidators

open Lib (trim)
open Inspector (PyStr)
open Validators (Date DateFormat)

/-- The tables behind the methods of `str`, `\s` and `\d`, with what they say of ASCII. -/
structure CharTables where
  isdigit : Char → Bool
  decimal : Char → Option Nat
  isalpha : Char → Bool
  isspace : Char → Bool
  upper : Char → List Char
  isdigit_of_decimal : ∀ c, (decimal c).isSome = true → isdigit c = true
  not_isspace_of_isdigit : ∀ c, isdigit c = true → isspace c = false
  isdigit_ascii : ∀ c : Char, c.toNat < 128 → isdigit c = c.isDigit
  decimal_ascii : ∀ c : Char, c.toNat < 128 →
    decimal c = if c.isDigit then some (c.toNat - 48) else none
  isalpha_ascii : ∀ c : Char, c.toNat < 128 → isalpha c = c.isAlpha
  isspace_ascii : ∀ c : Char, c.toNat < 128 → isspace c = isPySpace (UInt8.ofNat c.toNat)
  upper_ascii : ∀ c : Char, c.toNat < 128 → upper c = [c.toUpper]

section

variable (t : CharTables)

namespace CharTables

def isdecimal (c : Char) : Bool := (t.decimal c).isSome

/-- `str.isdigit`. -/
def isdigitStr (s : PyStr) : Bool := !s.isEmpty && s.all t.isdigit

/-- `str.isalpha`. -/
def isalphaStr (s : PyStr) : Bool := !s.isEmpty && s.all t.isalpha

/-- What `int` strips: the white space of the C locale in ASCII, all of it elsewhere. -/
def intSpace (c : Char) : Bool :=
  if c.toNat < 127 then Agent.isSpace (UInt8.ofNat c.toNat) else t.isspace c

def digitsValue (s : PyStr) : Nat := s.foldl (fun n c => 10 * n + (t.decimal c).getD 0) 0

/-- The digits of `int` after a sign: groups between single underscores. -/
def intDigits (body : PyStr) : Option Nat :=
  let groups := body.splitOn '_'
  if groups.all (fun group => !group.isEmpty && group.all t.isdecimal) &&
      decide (groups.flatten.length ≤ maxStrDigits) then
    some (t.digitsValue groups.flatten)
  else none

end CharTables

/-- The text of the `ValueError`, for characters that `repr` leaves as they are. Only
`ipv4_range` can have over 4300 digits, and it catches the error. -/
def intError (value : PyStr) : String :=
  "invalid literal for int() with base 10: " ++
    String.ofList (("'" ++ String.ofList value ++ "'").toList.take 200)

/-- `int` of what follows the sign in `value`. -/
def signedInt (value : PyStr) (sign : Int) (body : PyStr) : Except String Int :=
  match t.intDigits body with
  | some n => .ok (sign * n)
  | none => .error (intError value)

/-- `int`, which raises a `ValueError`. -/
def pyInt (value : PyStr) : Except String Int :=
  match trim t.intSpace value with
  | '+' :: body => signedInt t value 1 body
  | '-' :: body => signedInt t value (-1) body
  | body => signedInt t value 1 body

/-! ## The validators -/

/-- One round of the loop of `luhn`. -/
def luhnStep (total : Int) (entry : Char × Nat) : Except String Int := do
  let n ← pyInt t [entry.1]
  if entry.2 % 2 = 1 then return total + (if 9 < n * 2 then n * 2 - 9 else n * 2)
  else return total + n

def luhn (value : PyStr) : Except String Bool :=
  let digits := value.filter fun c => !(t.isspace c || c == '-')
  if !t.isdigitStr digits || decide (digits.length < 13) then .ok false
  else do
    let total ← digits.reverse.zipIdx.foldlM (luhnStep t) 0
    return total % 10 == 0

def ssnArea (value : PyStr) : Except String Bool :=
  let digits := value.filter fun c => !(t.isspace c || c == '-')
  if !t.isdigitStr digits || digits.length != 9 then .ok false
  else do
    let area ← pyInt t (digits.take 3)
    let group ← pyInt t ((digits.drop 3).take 2)
    let serial ← pyInt t (digits.drop 5)
    if area = 0 ∨ area = 666 ∨ 900 ≤ area then return false
    else if group = 0 then return false
    else if serial = 0 then return false
    else return true

def phoneFormat (value : PyStr) : Except String Bool :=
  let digits := value.filter t.isdecimal
  let digits := if digits.length = 11 ∧ digits.head? = some '1' then digits.drop 1 else digits
  if digits.length ≠ 10 then .ok false
  else do
    let area ← pyInt t (digits.take 3)
    let exchange ← pyInt t ((digits.drop 3).take 3)
    if area < 200 ∨ exchange < 200 then return false else return true

/-- `rsplit("@", 1)` of a string with an `@`. -/
def rsplitAt (value : PyStr) : PyStr × PyStr :=
  ((value.reverse.dropWhile (· != '@')).tail.reverse, (value.reverse.takeWhile (· != '@')).reverse)

def emailDomain (value : PyStr) : Except String Bool :=
  let (localPart, domain) := rsplitAt value
  let parts := domain.splitOn '.'
  let tld := parts.getLast?.getD []
  if '@' ∉ value then .ok false
  else if localPart = [] ∨ domain = [] then .ok false
  else if parts.length < 2 then .ok false
  else if tld.length < 2 ∨ 63 < tld.length then .ok false
  else .ok true

/-- The numeric string of `iban_mod97`, or `none` where it returns `False`. -/
def ibanNumeric : PyStr → Option PyStr
  | [] => some []
  | ch :: rest =>
      if t.isdigit ch then (ibanNumeric rest).map (ch :: ·)
      else if t.isalpha ch then
        (ibanNumeric rest).map (Nat.toDigits 10 (ch.toNat - 65 + 10) ++ ·)
      else none

def ibanMod97 (value : PyStr) : Except String Bool :=
  let clean := (value.filter fun c => !t.isspace c).flatMap t.upper
  if clean.length < 5 ∨ 34 < clean.length then .ok false
  else if !t.isalphaStr (clean.take 2) || !t.isdigitStr ((clean.drop 2).take 2) then .ok false
  else
    match ibanNumeric t (clean.drop 4 ++ clean.take 4) with
    | none => .ok false
    | some numeric => do
        let n ← pyInt t numeric
        return n % 97 == 1

/-- `str.strip`. -/
def strip (value : PyStr) : PyStr := trim t.isspace value

def passportFormat (value : PyStr) : Except String Bool :=
  let clean := strip t value
  let clean := if clean.head?.any t.isalpha then clean.drop 1 else clean
  .ok (t.isdigitStr clean && decide (8 ≤ clean.length) && decide (clean.length ≤ 9))

def driversLicenseFormat (value : PyStr) : Except String Bool :=
  let clean := strip t value
  let digits := clean.filter Char.isDigit
  if clean = [] then .ok false
  else if digits ≠ [] ∧ digits.all (· == '0') = true then .ok false
  else .ok true

def ipv4Range (value : PyStr) : Except String Bool :=
  let parts := value.splitOn '.'
  if parts.length ≠ 4 then .ok false
  else
    match parts.mapM (pyInt t) with
    | .error _ => .ok false
    | .ok octets =>
        if octets.any (fun o => decide (o < 0) || decide (255 < o)) then .ok false
        else if octets.all (· == 0) then .ok false
        else if octets.all (· == 255) then .ok false
        else .ok true

/-- `%m` of `strptime`: `1[0-2]|0[1-9]|[1-9]`. -/
def monthField : PyStr → Option Nat
  | [c] => if '1' ≤ c ∧ c ≤ '9' then some (c.toNat - 48) else none
  | [b, c] =>
      if b = '1' ∧ '0' ≤ c ∧ c ≤ '2' then some (10 + (c.toNat - 48))
      else if b = '0' ∧ '1' ≤ c ∧ c ≤ '9' then some (c.toNat - 48)
      else none
  | _ => none

/-- `%d` of `strptime`: `3[0-1]|[1-2]\d|0[1-9]|[1-9]| [1-9]`. -/
def dayField : PyStr → Option Nat
  | [c] => if '1' ≤ c ∧ c ≤ '9' then some (c.toNat - 48) else none
  | [b, c] =>
      if b = '3' ∧ '0' ≤ c ∧ c ≤ '1' then some (30 + (c.toNat - 48))
      else if '1' ≤ b ∧ b ≤ '2' ∧ t.isdecimal c = true then
        some (10 * (b.toNat - 48) + (t.decimal c).getD 0)
      else if (b = '0' ∨ b = ' ') ∧ '1' ≤ c ∧ c ≤ '9' then some (c.toNat - 48)
      else none
  | _ => none

/-- `%Y` of `strptime`: four times `\d`. -/
def yearField (field : PyStr) : Option Nat :=
  if field.length = 4 ∧ field.all t.isdecimal = true then some (t.digitsValue field) else none

/-- `datetime.strptime`, or `none` where it raises a `ValueError`. -/
def strptime (value : PyStr) (fmt : DateFormat) : Option Date := do
  let (month, day, year) ←
    match fmt, value.splitOn '/', value.splitOn '-' with
    | .slashed, [m, d, y], _ => some (m, d, y)
    | .iso, _, [y, m, d] => some (m, d, y)
    | .dashed, _, [m, d, y] => some (m, d, y)
    | _, _, _ => none
  let date : Date :=
    { month := ← monthField month, day := ← dayField t day, year := ← yearField t year }
  if date.Exists then some date else none

def dateCalendar (value : PyStr) : Except String Bool :=
  .ok ([DateFormat.slashed, .iso, .dashed].any fun fmt =>
    match strptime t (strip t value) fmt with
    | some dt => decide (1900 ≤ dt.year) && decide (dt.year ≤ 2100)
    | none => false)

def abaWeights : List Int := [3, 7, 1, 3, 7, 1, 3, 7, 1]

def abaChecksum (value : PyStr) : Except String Bool :=
  let digits := value.filter fun c => !t.isspace c
  if !t.isdigitStr digits || digits.length != 9 then .ok false
  else do
    let d ← digits.mapM fun c => pyInt t [c]
    return (List.zipWith (· * ·) d abaWeights).sum % 10 == 0

end

/-- The keys of `VALIDATORS`. -/
inductive BuiltinValidator
  | luhn
  | ssnArea
  | phoneFormat
  | emailDomain
  | ibanMod97
  | passportFormat
  | driversLicenseFormat
  | ipv4Range
  | dateCalendar
  | abaChecksum
deriving DecidableEq, Repr

/-- `VALIDATORS`. -/
def BuiltinValidator.run (t : CharTables) : BuiltinValidator → PyStr → Except String Bool
  | luhn => UnicodeValidators.luhn t
  | ssnArea => UnicodeValidators.ssnArea t
  | phoneFormat => UnicodeValidators.phoneFormat t
  | emailDomain => UnicodeValidators.emailDomain
  | ibanMod97 => UnicodeValidators.ibanMod97 t
  | passportFormat => UnicodeValidators.passportFormat t
  | driversLicenseFormat => UnicodeValidators.driversLicenseFormat t
  | ipv4Range => UnicodeValidators.ipv4Range t
  | dateCalendar => UnicodeValidators.dateCalendar t
  | abaChecksum => UnicodeValidators.abaChecksum t

end AkesoDlp.Server.UnicodeValidators
