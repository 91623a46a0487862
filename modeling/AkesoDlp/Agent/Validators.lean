import AkesoDlp.Agent.StdInt
import AkesoDlp.Lib.Trim
import Mathlib.Tactic.Ring

/-!
# The data identifier validators of the agent

`validators.cpp`. Every validator takes the raw match string and takes apart what it
needs of it.
-/

namespace AkesoDlp.Agent

open Lib

inductive ValidationResult
  | valid
  | invalid
  | inconclusive
deriving DecidableEq, Repr

/-! ## Helpers -/

/-- `ExtractDigits`. -/
def extractDigits (input : StdString) : StdString := input.filter isDigit

/-- `ExtractAlnum`. -/
def extractAlnum (input : StdString) : StdString := input.filter isAlnum

/-- `ParseInt`: what `std::from_chars` reads at the start, or -1. -/
def parseInt (s : StdString) : Int :=
  (match s with
    | 45 :: rest => stoiDigits true rest
    | rest => stoiDigits false rest).getD (-1)

/-- `IsAlpha`. -/
def isAlpha (c : UInt8) : Bool := (65 ≤ c && c ≤ 90) || (97 ≤ c && c ≤ 122)

/-- `std::toupper`. -/
def toUpper (c : UInt8) : UInt8 := if 97 ≤ c ∧ c ≤ 122 then c - 32 else c

/-- `IsLeapYear`. -/
def isLeapYear (year : Int) : Bool :=
  (year % 4 == 0 && year % 100 != 0) || year % 400 == 0

/-- `DaysInMonth`. -/
def daysInMonth (month year : Int) : Int :=
  if month < 1 ∨ 12 < month then 0
  else if month = 2 ∧ isLeapYear year = true then 29
  else [0, 31, 28, 31, 30, 31, 30, 31, 31, 30, 31, 30, 31].getD month.toNat 0

/-- The trimming at the start of a validator. -/
def trimmed (input : StdString) : StdString := trim isSpace input

/-- The text behind the last dot. -/
def lastLabel (domain : StdString) : StdString := lastField 46 domain

namespace Validators

def verdict (valid : Bool) : ValidationResult := if valid then .valid else .invalid

/-! ## The validators -/

/-- The Luhn loop, from the last digit to the first. -/
def luhnLoop : (doubleDigit : Bool) → (sum : Nat) → (reversed : StdString) → Nat
  | _, sum, [] => sum
  | doubleDigit, sum, c :: rest =>
      let d := c.toNat - 48
      let d := if doubleDigit then (if 9 < d * 2 then d * 2 - 9 else d * 2) else d
      luhnLoop (!doubleDigit) (sum + d) rest

def validateCreditCard (input : StdString) : ValidationResult :=
  let digits := extractDigits input
  if digits.length < 13 ∨ 19 < digits.length then .invalid
  else verdict (luhnLoop false 0 digits.reverse % 10 == 0)

def validateSSN (input : StdString) : ValidationResult :=
  let digits := extractDigits input
  let area := parseInt (digits.take 3)
  let group := parseInt ((digits.drop 3).take 2)
  let serial := parseInt ((digits.drop 5).take 4)
  if digits.length ≠ 9 then .invalid
  else if area < 0 then .invalid
  else if area = 0 ∨ area = 666 ∨ 900 ≤ area then .invalid
  else if group = 0 then .invalid
  else if serial = 0 then .invalid
  else .valid

/-- Letters as numbers: A=10, B=11, ..., Z=35. -/
def ibanDigits (c : UInt8) : StdString :=
  if isDigit c then [c] else toStdString ((toUpper c).toNat - 65 + 10)

def validateIBAN (input : StdString) : ValidationResult :=
  let alnum := extractAlnum input
  if alnum.length < 5 ∨ 34 < alnum.length then .invalid
  else if !isAlpha (alnum.getD 0 0) || !isAlpha (alnum.getD 1 0) then .invalid
  else if !isDigit (alnum.getD 2 0) || !isDigit (alnum.getD 3 0) then .invalid
  else
    let rearranged := alnum.drop 4 ++ alnum.take 4
    let numeric := rearranged.flatMap ibanDigits
    let remainder := numeric.foldl (fun r c => (r * 10 + (c.toNat - 48)) % 97) 0
    verdict (remainder == 1)

def abaWeights : List Nat := [3, 7, 1, 3, 7, 1, 3, 7, 1]

def validateABA (input : StdString) : ValidationResult :=
  let digits := extractDigits input
  if digits.length ≠ 9 then .invalid
  else verdict ((List.zipWith (fun c w => (c.toNat - 48) * w) digits abaWeights).sum % 10 == 0)

def validateUSPhone (input : StdString) : ValidationResult :=
  let digits := extractDigits input
  let digits :=
    if digits.length = 11 ∧ digits.getD 0 0 = 49 then digits.drop 1 else digits
  if digits.length ≠ 10 then .invalid
  else if digits.getD 0 0 = 48 ∨ digits.getD 0 0 = 49 then .invalid
  else if digits.getD 3 0 = 48 then .invalid
  else .valid

def validateEmail (input : StdString) : ValidationResult :=
  let trimmed := trimmed input
  let localPart := trimmed.takeWhile (· != 64)
  let rest := trimmed.dropWhile (· != 64)
  let domain := rest.tail
  if trimmed = [] then .invalid
  else if rest = [] ∨ localPart = [] ∨ domain = [] then .invalid
  else if 64 ∈ domain then .invalid
  else if 64 < localPart.length then .invalid
  else if 46 ∉ domain then .invalid
  else if domain.head? = some 46 ∨ domain.head? = some 45 ∨
      domain.getLast? = some 46 ∨ domain.getLast? = some 45 then .invalid
  else if (lastLabel domain).length < 2 then .invalid
  else .valid

def validateUSPassport (input : StdString) : ValidationResult :=
  let trimmed := trimmed input
  if trimmed.length ≠ 9 then .invalid
  else if !isAlpha (trimmed.getD 0 0) then .invalid
  else verdict ((trimmed.drop 1).all isDigit)

def validateUSDriverLicense (input : StdString) : ValidationResult :=
  let trimmed := trimmed input
  if trimmed.length < 7 ∨ 13 < trimmed.length then .invalid
  else if isAlpha (trimmed.getD 0 0) then verdict ((trimmed.drop 1).all isDigit)
  else verdict (trimmed.all isDigit)

/-- The checks of one octet. -/
def octetAccepted (part : StdString) : Bool :=
  !(part.isEmpty || decide (3 < part.length)) &&
  !(decide (1 < part.length) && part.getD 0 0 == 48) &&
  !(decide (parseInt part < 0) || decide (255 < parseInt part))

/-- The loop leaves after four parts and does not look at the others. -/
def validateIPv4 (input : StdString) : ValidationResult :=
  let trimmed := trimmed input
  let parts := (trimmed.splitOn 46).take 4
  if !parts.all octetAccepted then .invalid
  else if parts.length ≠ 4 then .invalid
  else if trimmed = str "0.0.0.0" ∨ trimmed = str "255.255.255.255" then .invalid
  else .valid

def validateDateOfBirth (input : StdString) : ValidationResult :=
  let trimmed := trimmed input
  let month := parseInt (trimmed.take 2)
  let day := parseInt ((trimmed.drop 3).take 2)
  let year := parseInt ((trimmed.drop 6).take 4)
  if trimmed.length ≠ 10 then .invalid
  else if trimmed.getD 2 0 ≠ 47 ∨ trimmed.getD 5 0 ≠ 47 then .invalid
  else if month < 1 ∨ 12 < month then .invalid
  else if year < 1900 ∨ 2025 < year then .invalid
  else if day < 1 ∨ daysInMonth month year < day then .invalid
  else .valid

/-! ## Digits -/

theorem verdict_eq_valid {b : Bool} : verdict b = .valid ↔ b = true := by
  cases b <;> simp [verdict]

theorem isAlnum_iff {c : UInt8} : isAlnum c = true ↔ isDigit c = true ∨ isAlpha c = true := by
  simp only [isAlnum, isDigit, isAlpha, Bool.or_eq_true, or_assoc]

theorem isDigit_iff {c : UInt8} : isDigit c = true ↔ 48 ≤ c.toNat ∧ c.toNat ≤ 57 := by
  simp [isDigit, UInt8.le_iff_toNat_le]

theorem isAlpha_iff {c : UInt8} : isAlpha c = true ↔
    (65 ≤ c.toNat ∧ c.toNat ≤ 90) ∨ (97 ≤ c.toNat ∧ c.toNat ≤ 122) := by
  simp [isAlpha, UInt8.le_iff_toNat_le]

theorem toNat_toUpper (c : UInt8) :
    (toUpper c).toNat = if 97 ≤ c.toNat ∧ c.toNat ≤ 122 then c.toNat - 32 else c.toNat := by
  have hiff : (97 ≤ c ∧ c ≤ 122) ↔ (97 ≤ c.toNat ∧ c.toNat ≤ 122) := by
    rw [UInt8.le_iff_toNat_le, UInt8.le_iff_toNat_le]
    rfl
  unfold toUpper
  by_cases h : 97 ≤ c ∧ c ≤ 122
  · have hle : (32 : UInt8) ≤ c := UInt8.le_trans (by decide) h.1
    rw [if_pos h, if_pos (hiff.mp h), UInt8.toNat_sub_of_le _ _ hle]
    rfl
  · rw [if_neg h, if_neg (fun h' => h (hiff.mpr h'))]

theorem digitsValue_cons (c : UInt8) (s : StdString) :
    digitsValue (c :: s) = (c.toNat - 48) * 10 ^ s.length + digitsValue s := by
  have hfold : ∀ (s : StdString) (n : Nat),
      s.foldl (fun n c => 10 * n + (c.toNat - 48)) n = n * 10 ^ s.length + digitsValue s := by
    intro s
    induction s with
    | nil => intro n; simp [digitsValue]
    | cons c s ih =>
        intro n
        rw [digitsValue, List.foldl_cons, List.foldl_cons, ih, ih, List.length_cons, pow_succ]
        ring
  rw [digitsValue, List.foldl_cons, hfold]
  simp

theorem digitsValue_lt {s : StdString} (h : ∀ c ∈ s, isDigit c = true) :
    digitsValue s < 10 ^ s.length := by
  induction s with
  | nil => decide
  | cons c s ih =>
      rw [List.forall_mem_cons] at h
      have hc := (isDigit_iff.mp h.1).2
      have hs := ih h.2
      have hle : (c.toNat - 48) * 10 ^ s.length ≤ 9 * 10 ^ s.length :=
        Nat.mul_le_mul_right _ (by omega)
      rw [digitsValue_cons, List.length_cons, pow_succ]
      omega

/-- A short run of digits is read as its value. -/
theorem parseInt_digits {s : StdString} (hne : s ≠ []) (h : ∀ c ∈ s, isDigit c = true)
    (hlength : s.length ≤ 9) : parseInt s = digitsValue s := by
  have hread : stoiDigits false s = some (digitsValue s : Int) := by
    have hall : s.takeWhile isDigit = s := List.takeWhile_eq_self_iff.mpr h
    have hlt := digitsValue_lt h
    have hpow : 10 ^ s.length ≤ 10 ^ 9 := Nat.pow_le_pow_right (by decide) hlength
    have hint : IsInt32 (digitsValue s : Int) := by
      constructor <;> omega
    simp [stoiDigits, hall, hne, hint]
  unfold parseInt
  split
  · exact absurd (h 45 List.mem_cons_self) (by decide)
  · rw [hread]
    rfl

/-- What is read is less than the power of ten for the digits at the start. -/
theorem parseInt_lt (s : StdString) : parseInt s < 10 ^ (s.takeWhile isDigit).length := by
  have hpos : (0 : Int) < 10 ^ (s.takeWhile isDigit).length := Int.pow_pos (by decide)
  have hnegative : ∀ rest, (stoiDigits true rest).getD (-1) ≤ 0 := by
    intro rest
    simp only [stoiDigits, if_true]
    split
    · decide
    · split
      · rw [Option.getD_some]
        omega
      · decide
  have hpositive : (stoiDigits false s).getD (-1) < 10 ^ (s.takeWhile isDigit).length := by
    have hlt := digitsValue_lt (s := s.takeWhile isDigit) fun c => List.mem_takeWhile_imp
    simp only [stoiDigits, Bool.false_eq_true, if_false]
    split
    · rw [Option.getD_none]
      omega
    · split
      · rw [Option.getD_some]
        exact_mod_cast hlt
      · rw [Option.getD_none]
        omega
  unfold parseInt
  split
  · rename_i rest
    exact Int.lt_of_le_of_lt (hnegative rest) hpos
  · exact hpositive

/-- A number with a nonzero first digit is at least the power of ten for the others. -/
theorem le_digitsValue_cons {c : UInt8} (hc : isDigit c = true) (hne : c ≠ 48) (s : StdString) :
    10 ^ s.length ≤ digitsValue (c :: s) := by
  rw [isDigit_iff] at hc
  have hpos : 1 ≤ c.toNat - 48 := by
    have : c.toNat ≠ 48 := fun h => hne (UInt8.toNat_inj.mp h)
    omega
  rw [digitsValue_cons]
  have hle : 1 * 10 ^ s.length ≤ (c.toNat - 48) * 10 ^ s.length := Nat.mul_le_mul_right _ hpos
  omega

end Validators

end AkesoDlp.Agent
