import AkesoDlp.Agent.Validators

/-!
# The data identifier validators of the server

`validators.py` on ASCII strings, which are the lists of their bytes. There `str.isdigit`,
`str.isalpha` and `str.upper` are those of the C locale; `str.isspace`, which `\s` and
`strip` go by, has four more characters.
-/

namespace AkesoDlp.Server

open Lib (trim)
open Agent (isDigit isAlpha toUpper isSpace digitsValue decimal)

abbrev AsciiStr := List UInt8

/-! ## Python -/

/-- `str.isspace` of an ASCII character: also the separators `\x1c` to `\x1f`. -/
def isPySpace (c : UInt8) : Bool := isSpace c || (28 ≤ c && c ≤ 31)

/-- The class `[\s-]`. -/
def isSpaceOrDash (c : UInt8) : Bool := isPySpace c || c == 45

/-- `str.strip`. -/
def strip (value : AsciiStr) : AsciiStr := trim isPySpace value

/-- `str.isdigit`. -/
def isdigit (value : AsciiStr) : Bool := !value.isEmpty && value.all isDigit

/-- `str.isalpha`. -/
def isalpha (value : AsciiStr) : Bool := !value.isEmpty && value.all isAlpha

/-- `sys.int_info.default_max_str_digits`. -/
def maxStrDigits : Nat := 4300

/-- The digits of `int` after a sign: groups between single underscores. -/
def intDigits (body : AsciiStr) : Option Nat :=
  let groups := body.splitOn 95
  if groups.all isdigit && decide (groups.flatten.length ≤ maxStrDigits) then
    some (digitsValue groups.flatten)
  else none

/-- `int`, or `none` where it raises `ValueError`. An ASCII string is stripped of the white
space of the C locale. -/
def pyInt (value : AsciiStr) : Option Int :=
  match trim isSpace value with
  | 43 :: body => (intDigits body).map fun n => (n : Int)
  | 45 :: body => (intDigits body).map fun n => -(n : Int)
  | body => (intDigits body).map fun n => (n : Int)

namespace Validators

/-! ## The validators -/

/-- One term of the Luhn sum, at index `i` of the reversed digits. -/
def luhnTerm (ch : UInt8) (i : Nat) : Nat :=
  let n := ch.toNat - 48
  if i % 2 = 1 then (if 9 < n * 2 then n * 2 - 9 else n * 2) else n

def luhn (value : AsciiStr) : Bool :=
  let digits := value.filter fun c => !isSpaceOrDash c
  if !isdigit digits || decide (digits.length < 13) then false
  else ((digits.reverse.zipIdx.map fun (ch, i) => luhnTerm ch i).sum % 10) == 0

def ssnArea (value : AsciiStr) : Bool :=
  let digits := value.filter fun c => !isSpaceOrDash c
  if !isdigit digits || digits.length != 9 then false
  else
    let area := digitsValue (digits.take 3)
    let group := digitsValue ((digits.drop 3).take 2)
    let serial := digitsValue (digits.drop 5)
    if area = 0 ∨ area = 666 ∨ 900 ≤ area then false
    else if group = 0 then false
    else if serial = 0 then false
    else true

def phoneFormat (value : AsciiStr) : Bool :=
  let digits := value.filter isDigit
  let digits := if digits.length = 11 ∧ digits.head? = some 49 then digits.drop 1 else digits
  if digits.length ≠ 10 then false
  else
    let area := digitsValue (digits.take 3)
    let exchange := digitsValue ((digits.drop 3).take 3)
    if area < 200 ∨ exchange < 200 then false else true

/-- `rsplit("@", 1)` of a string with an `@`. -/
def rsplitAt (value : AsciiStr) : AsciiStr × AsciiStr :=
  ((value.reverse.dropWhile (· != 64)).tail.reverse, (value.reverse.takeWhile (· != 64)).reverse)

def emailDomain (value : AsciiStr) : Bool :=
  let (localPart, domain) := rsplitAt value
  let parts := domain.splitOn 46
  let tld := parts.getLast?.getD []
  if 64 ∉ value then false
  else if localPart = [] ∨ domain = [] then false
  else if parts.length < 2 then false
  else if tld.length < 2 ∨ 63 < tld.length then false
  else true

/-- The numeric string of `iban_mod97`, or `none` where it returns `False`. -/
def ibanNumeric : AsciiStr → Option AsciiStr
  | [] => some []
  | ch :: rest =>
      if isDigit ch then (ibanNumeric rest).map (ch :: ·)
      else if isAlpha ch then (ibanNumeric rest).map (decimal (ch.toNat - 65 + 10) ++ ·)
      else none

def ibanMod97 (value : AsciiStr) : Bool :=
  let clean := (value.filter fun c => !isPySpace c).map toUpper
  if clean.length < 5 ∨ 34 < clean.length then false
  else if !isalpha (clean.take 2) || !isdigit ((clean.drop 2).take 2) then false
  else
    match ibanNumeric (clean.drop 4 ++ clean.take 4) with
    | none => false
    | some numeric => digitsValue numeric % 97 == 1

def passportFormat (value : AsciiStr) : Bool :=
  let clean := strip value
  let clean := if clean ≠ [] ∧ isAlpha (clean.getD 0 0) = true then clean.drop 1 else clean
  isdigit clean && decide (8 ≤ clean.length) && decide (clean.length ≤ 9)

def driversLicenseFormat (value : AsciiStr) : Bool :=
  let clean := strip value
  let digits := clean.filter isDigit
  if clean = [] then false
  else if digits ≠ [] ∧ digits.all (· == 48) = true then false
  else true

def ipv4Range (value : AsciiStr) : Bool :=
  let parts := value.splitOn 46
  if parts.length ≠ 4 then false
  else
    match parts.mapM pyInt with
    | none => false
    | some octets =>
        if octets.any (fun o => decide (o < 0) || decide (255 < o)) then false
        else if octets.all (· == 0) then false
        else if octets.all (· == 255) then false
        else true

/-- `%m` of `strptime`: `1[0-2]|0[1-9]|[1-9]`. -/
def monthField : AsciiStr → Option Nat
  | [c] => if 49 ≤ c ∧ c ≤ 57 then some (c.toNat - 48) else none
  | [b, c] =>
      if b = 49 ∧ 48 ≤ c ∧ c ≤ 50 then some (10 + (c.toNat - 48))
      else if b = 48 ∧ 49 ≤ c ∧ c ≤ 57 then some (c.toNat - 48)
      else none
  | _ => none

/-- `%d` of `strptime`: `3[0-1]|[1-2]\d|0[1-9]|[1-9]| [1-9]`. -/
def dayField : AsciiStr → Option Nat
  | [c] => if 49 ≤ c ∧ c ≤ 57 then some (c.toNat - 48) else none
  | [b, c] =>
      if b = 51 ∧ 48 ≤ c ∧ c ≤ 49 then some (30 + (c.toNat - 48))
      else if 49 ≤ b ∧ b ≤ 50 ∧ isDigit c = true then some (10 * (b.toNat - 48) + (c.toNat - 48))
      else if (b = 48 ∨ b = 32) ∧ 49 ≤ c ∧ c ≤ 57 then some (c.toNat - 48)
      else none
  | _ => none

/-- `%Y` of `strptime`: four digits. -/
def yearField (field : AsciiStr) : Option Nat :=
  if field.length = 4 ∧ field.all isDigit = true then some (digitsValue field) else none

structure Date where
  year : Nat
  month : Nat
  day : Nat
deriving DecidableEq, Repr

/-- The days of a month in the calendar of `datetime`. -/
def monthLength (year month : Nat) : Nat :=
  if month = 2 then
    if year % 4 = 0 ∧ (year % 100 ≠ 0 ∨ year % 400 = 0) then 29 else 28
  else if month = 4 ∨ month = 6 ∨ month = 9 ∨ month = 11 then 30
  else 31

/-- The day is in its month; `datetime` has no year 0. -/
def Date.Exists (d : Date) : Prop := 1 ≤ d.year ∧ d.day ≤ monthLength d.year d.month

instance (d : Date) : Decidable d.Exists := inferInstanceAs (Decidable (_ ∧ _))

/-- The three formats of `date_calendar`. -/
inductive DateFormat
  | slashed
  | iso
  | dashed
deriving DecidableEq, Repr

/-- `datetime.strptime`, or `none` where it raises `ValueError`. -/
def strptime (value : AsciiStr) (fmt : DateFormat) : Option Date := do
  let (month, day, year) ←
    match fmt, value.splitOn 47, value.splitOn 45 with
    | .slashed, [m, d, y], _ => some (m, d, y)
    | .iso, _, [y, m, d] => some (m, d, y)
    | .dashed, _, [m, d, y] => some (m, d, y)
    | _, _, _ => none
  let date : Date :=
    { month := ← monthField month, day := ← dayField day, year := ← yearField year }
  if date.Exists then some date else none

def dateCalendar (value : AsciiStr) : Bool :=
  [DateFormat.slashed, .iso, .dashed].any fun fmt =>
    match strptime (strip value) fmt with
    | some dt => decide (1900 ≤ dt.year) && decide (dt.year ≤ 2100)
    | none => false

def abaWeights : List Nat := [3, 7, 1, 3, 7, 1, 3, 7, 1]

def abaChecksum (value : AsciiStr) : Bool :=
  let digits := value.filter fun c => !isPySpace c
  if !isdigit digits || digits.length != 9 then false
  else
    let d := digits.map fun c => c.toNat - 48
    (List.zipWith (· * ·) d abaWeights).sum % 10 == 0

end Validators

end AkesoDlp.Server
