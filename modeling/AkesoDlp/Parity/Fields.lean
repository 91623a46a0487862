import AkesoDlp.Parity.Formats
import Mathlib.Tactic.IntervalCases

/-!
# Addresses and dates of agent and server

The validators that read numbers between dots, slashes and hyphens. The agent reads a
field with `ParseInt`, which stops at the first character that is no digit; the server
reads octets with `int` and dates with `strptime`.
-/

namespace AkesoDlp.Parity

open Lib
open Agent (StdString isDigit isSpace parseInt digitsValue trimmed str daysInMonth isLeapYear)
open Agent.Validators
open Server (isPySpace isdigit strip pyInt intDigits maxStrDigits)
open Server.Validators (ipv4Range monthField dayField yearField monthLength strptime dateCalendar
  DateFormat Date)

/-! ## Addresses -/

/-- The parts of an address as the agent sees it. -/
def octets (s : StdString) : List StdString := (trimmed s).splitOn 46

/-- Digits without a leading zero. -/
def plainOctet (part : StdString) : Bool :=
  isdigit part && !(decide (1 < part.length) && part.getD 0 0 == 48)

/-- What the agent's loop lets pass: a fifth part, or a part that is not all digits. -/
def LooseAddress (s : StdString) : Prop :=
  4 < (octets s).length ∨ ∃ part ∈ octets s, isdigit part = false

instance (s : StdString) : Decidable (LooseAddress s) := inferInstanceAs (Decidable (_ ∨ _))

/-- What the server takes and the agent does not: a leading zero, or a sign, an underscore
or white space in a part. -/
def AddressRefused (s : StdString) : Prop := ∃ part ∈ octets s, plainOctet part = false

instance (s : StdString) : Decidable (AddressRefused s) :=
  inferInstanceAs (Decidable (∃ part ∈ octets s, _))

theorem plainOctet_iff {part : StdString} :
    plainOctet part = true ↔
      isdigit part = true ∧ ¬ (1 < part.length ∧ part.getD 0 0 = 48) := by
  rw [plainOctet, Bool.and_eq_true, Bool.not_eq_true', Bool.and_eq_false_iff,
    decide_eq_false_iff_not, beq_eq_false_iff_ne, not_and_or]

/-- A plain octet that is in range has at most three digits. -/
theorem length_le_of_plainOctet {part : StdString} (h : plainOctet part = true)
    (hrange : digitsValue part ≤ 255) : part.length ≤ 3 := by
  obtain ⟨hdigit, hzero⟩ := plainOctet_iff.mp h
  obtain ⟨-, hall⟩ := isdigit_iff.mp hdigit
  cases part with
  | nil => exact Nat.zero_le _
  | cons c rest =>
      by_contra hlong
      rw [List.length_cons] at hlong hzero
      have hc : c ≠ 48 := fun hc => hzero ⟨by omega, hc⟩
      have hle := le_digitsValue_cons (hall c List.mem_cons_self) hc rest
      have hpow : 10 ^ 3 ≤ 10 ^ rest.length := Nat.pow_le_pow_right (by decide) (by omega)
      omega

/-- What the agent takes of the parts that are all digits. -/
theorem octetAccepted_iff {part : StdString} (hdigit : isdigit part = true) :
    octetAccepted part = true ↔ plainOctet part = true ∧ digitsValue part ≤ 255 := by
  obtain ⟨hne, hall⟩ := isdigit_iff.mp hdigit
  have hread : part.length ≤ 3 → parseInt part = digitsValue part :=
    fun hlength => parseInt_digits hne hall (by omega)
  constructor
  · intro h
    simp only [octetAccepted, Bool.and_eq_true, Bool.not_eq_true', Bool.or_eq_false_iff,
      decide_eq_false_iff_not, Nat.not_lt, Bool.and_eq_false_iff, beq_eq_false_iff_ne] at h
    obtain ⟨⟨⟨-, hlength⟩, hzero⟩, -, hrange⟩ := h
    rw [hread hlength] at hrange
    refine ⟨plainOctet_iff.mpr ⟨hdigit, ?_⟩, by omega⟩
    rintro ⟨hlong, hhead⟩
    exact hzero.elim (fun h => absurd hlong (by omega)) (fun h => h hhead)
  · rintro ⟨hplain, hrange⟩
    have hlength := length_le_of_plainOctet hplain hrange
    obtain ⟨-, hzero⟩ := plainOctet_iff.mp hplain
    simp only [octetAccepted, Bool.and_eq_true, Bool.not_eq_true', Bool.or_eq_false_iff,
      decide_eq_false_iff_not, Nat.not_lt, Bool.and_eq_false_iff, beq_eq_false_iff_ne,
      hread hlength]
    refine ⟨⟨⟨List.isEmpty_eq_false_iff.mpr hne, hlength⟩, ?_⟩, by omega, by omega⟩
    by_cases hlong : 1 < part.length
    · exact Or.inr fun hhead => hzero ⟨hlong, hhead⟩
    · exact Or.inl (by omega)

/-- The only plain octet for zero. -/
theorem plainOctet_eq_zero {part : StdString} (h : plainOctet part = true)
    (hvalue : digitsValue part = 0) : part = [48] := by
  obtain ⟨hdigit, hzero⟩ := plainOctet_iff.mp h
  obtain ⟨hne, hall⟩ := isdigit_iff.mp hdigit
  cases part with
  | nil => exact absurd rfl hne
  | cons c rest =>
      have hhead : c = 48 := by
        by_contra hc
        have hle := le_digitsValue_cons (hall c List.mem_cons_self) hc rest
        have hpos : 0 < 10 ^ rest.length := Nat.pow_pos (by decide)
        omega
      have hrest : rest = [] := by
        by_contra hrest
        have hpos := List.length_pos_iff.mpr hrest
        exact hzero ⟨by rw [List.length_cons]; omega, hhead⟩
      rw [hhead, hrest]

/-- The only plain octet for 255. -/
theorem plainOctet_eq_255 {part : StdString} (h : plainOctet part = true)
    (hvalue : digitsValue part = 255) : part = [50, 53, 53] := by
  have hlength := length_le_of_plainOctet h (by omega)
  obtain ⟨-, hall⟩ := isdigit_iff.mp (plainOctet_iff.mp h).1
  have hlt := digitsValue_lt hall
  match part, hlength with
  | [a, b, c], _ =>
      simp only [List.forall_mem_cons, isDigit_iff] at hall
      simp only [digitsValue, List.foldl_cons, List.foldl_nil] at hvalue
      simp only [List.cons.injEq, and_true, ← UInt8.toNat_inj, UInt8.toNat_ofNat]
      omega
  | [], _ => simp at hlt; omega
  | [_], _ => simp at hlt; omega
  | [_, _], _ => simp at hlt; omega

/-- `int` reads digits between white space. -/
theorem pyInt_of_isdigit {part lead trail : StdString} (h : isdigit part = true)
    (hlead : ∀ c ∈ lead, isSpace c = true) (htrail : ∀ c ∈ trail, isSpace c = true) :
    pyInt (lead ++ part ++ trail) =
      if part.length ≤ maxStrDigits then some (digitsValue part : Int) else none := by
  obtain ⟨hne, hall⟩ := isdigit_iff.mp h
  have hspace : ∀ c ∈ part, isSpace c = false := by
    intro c hc
    rw [Bool.eq_false_iff]
    intro hc'
    exact absurd ((isPySpace_of_isSpace hc').symm.trans (isPySpace_of_isDigit (hall c hc)))
      (by decide)
  have htrimmed : Trimmed isSpace part := by
    constructor
    case head => exact fun c hc => hspace c (List.mem_of_mem_head? hc)
    case last => exact fun c hc => hspace c (List.mem_of_mem_getLast? hc)
  have hone : part.splitOn 95 = [part] := by
    apply List.splitOn_eq_singleton
    intro hmem
    exact absurd (hall 95 hmem) (by decide)
  have hdigits : intDigits part =
      if part.length ≤ maxStrDigits then some (digitsValue part) else none := by
    unfold intDigits
    rw [hone]
    simp [h]
  unfold pyInt
  rw [trim_eq_of_append htrimmed hlead htrail]
  split
  · exact absurd (hall 43 List.mem_cons_self) (by decide)
  · exact absurd (hall 45 List.mem_cons_self) (by decide)
  · rw [hdigits]
    split <;> rfl

/-- The server's parts are the agent's with the white space around the address. -/
theorem exists_splitOn_dots {s a b c d : StdString} (h : octets s = [a, b, c, d]) :
    ∃ lead trail, s.splitOn 46 = [lead ++ a, b, c, d ++ trail] ∧
      (∀ x ∈ lead, isSpace x = true) ∧ (∀ x ∈ trail, isSpace x = true) := by
  obtain ⟨lead, trail, heq, hlead, htrail⟩ := exists_trim isSpace s
  have hjoin : [46].intercalate ((trimmed s).splitOn 46) = trimmed s :=
    List.intercalate_splitOn 46
  rw [show (trimmed s).splitOn 46 = [a, b, c, d] from h] at hjoin
  have hs : s = [46].intercalate [lead ++ a, b, c, d ++ trail] := by
    conv => lhs; rw [heq]
    show lead ++ trimmed s ++ trail = _
    rw [← hjoin]
    simp [List.intercalate]
  have hnone : ∀ part ∈ [a, b, c, d], 46 ∉ part := by
    rw [← h]
    exact fun part => notMem_of_mem_splitOn
  refine ⟨lead, trail, ?_, hlead, htrail⟩
  conv => lhs; rw [hs]
  apply List.splitOn_intercalate
  · have hlead46 := (notMem_of_isSpace hlead).2
    have htrail46 := (notMem_of_isSpace htrail).2
    simp only [List.forall_mem_cons, List.not_mem_nil, false_imp_iff, implies_true, and_true,
      List.mem_append, not_or] at hnone ⊢
    exact ⟨⟨hlead46, hnone.1⟩, hnone.2.1, hnone.2.2.1, hnone.2.2.2, htrail46⟩
  · exact List.cons_ne_nil _ _

theorem mem_of_mapM_pyInt {parts : List StdString} {values : List Int}
    (h : parts.mapM pyInt = some values) :
    ∀ part ∈ parts, ∃ v ∈ values, pyInt part = some v := by
  induction parts generalizing values with
  | nil => simp
  | cons first rest ih =>
      simp only [List.mapM_cons, Option.bind_eq_bind, Option.bind_eq_some_iff, Option.pure_def,
        Option.some.injEq] at h
      obtain ⟨v, hv, others, hothers, rfl⟩ := h
      rw [List.forall_mem_cons]
      refine ⟨⟨v, List.mem_cons_self, hv⟩, ?_⟩
      intro part hpart
      obtain ⟨v', hv', hread⟩ := ih hothers part hpart
      exact ⟨v', List.mem_cons_of_mem _ hv', hread⟩

/-- The parts of an address that the server takes. -/
theorem parts_of_ipv4Range {s : StdString} (h : ipv4Range s = true) :
    (s.splitOn 46).length = 4 ∧ ∀ part ∈ s.splitOn 46, ∃ v, pyInt part = some v ∧ v ≤ 255 := by
  unfold ipv4Range at h
  dsimp only at h
  split at h
  · cases h
  · rename_i hlength
    refine ⟨not_not.mp hlength, ?_⟩
    split at h
    · cases h
    · rename_i values hvalues
      split at h
      · cases h
      · rename_i hrange
        intro part hpart
        obtain ⟨v, hv, hread⟩ := mem_of_mapM_pyInt hvalues part hpart
        refine ⟨v, hread, ?_⟩
        by_contra hlarge
        apply hrange
        rw [List.any_eq_true]
        exact ⟨v, hv, by simp; omega⟩

/-- All octets in range, but neither all zero nor all 255. -/
def AddressInRange (parts : List StdString) : Prop :=
  (∀ part ∈ parts, digitsValue part ≤ 255) ∧ ¬ (∀ part ∈ parts, digitsValue part = 0) ∧
    ¬ (∀ part ∈ parts, digitsValue part = 255)

/-- The server on four plain octets. -/
theorem ipv4Range_iff {s a b c d : StdString} (h : octets s = [a, b, c, d])
    (hplain : ∀ part ∈ octets s, plainOctet part = true) :
    ipv4Range s = true ↔ AddressInRange (octets s) := by
  obtain ⟨lead, trail, hsplit, hlead, htrail⟩ := exists_splitOn_dots h
  have hnone : ∀ x ∈ ([] : StdString), isSpace x = true := by simp
  have hdigit : ∀ part ∈ octets s, isdigit part = true :=
    fun part hpart => (plainOctet_iff.mp (hplain part hpart)).1
  rw [h] at hdigit hplain ⊢
  have hread : ∀ part ∈ [a, b, c, d], ∀ front back : StdString,
      (∀ x ∈ front, isSpace x = true) → (∀ x ∈ back, isSpace x = true) →
      pyInt (front ++ part ++ back) =
        if part.length ≤ maxStrDigits then some (digitsValue part : Int) else none :=
    fun part hpart front back hfront hback => pyInt_of_isdigit (hdigit part hpart) hfront hback
  have ha := hread a (by simp) lead [] hlead hnone
  have hb := hread b (by simp) [] [] hnone hnone
  have hc := hread c (by simp) [] [] hnone hnone
  have hd := hread d (by simp) [] trail hnone htrail
  simp only [List.nil_append, List.append_nil] at ha hb hc hd
  by_cases hrange : ∀ part ∈ [a, b, c, d], digitsValue part ≤ 255
  · have hshort : ∀ part ∈ [a, b, c, d], part.length ≤ maxStrDigits := fun part hpart =>
      Nat.le_trans (length_le_of_plainOctet (hplain part hpart) (hrange part hpart)) (by decide)
    simp only [List.forall_mem_cons, List.not_mem_nil, false_imp_iff, implies_true, and_true]
      at hrange hshort
    obtain ⟨hra, hrb, hrc, hrd⟩ := hrange
    obtain ⟨hsa, hsb, hsc, hsd⟩ := hshort
    rw [if_pos hsa] at ha
    rw [if_pos hsb] at hb
    rw [if_pos hsc] at hc
    rw [if_pos hsd] at hd
    unfold ipv4Range AddressInRange
    simp [hsplit, ha, hb, hc, hd, hra, hrb, hrc, hrd]
    omega
  · refine iff_of_false (fun hserver => hrange ?_) (fun hin => hrange hin.1)
    have hparts := (parts_of_ipv4Range hserver).2
    have hvalue : ∀ (part : StdString), (∃ v : Int,
        (if part.length ≤ maxStrDigits then some (digitsValue part : Int) else none) = some v ∧
          v ≤ 255) → digitsValue part ≤ 255 := by
      rintro part ⟨v, hv, hle⟩
      split at hv
      · have := Option.some.inj hv
        omega
      · cases hv
    rw [hsplit] at hparts
    simp only [List.forall_mem_cons, List.not_mem_nil, false_imp_iff, implies_true, and_true, ha,
      hb, hc, hd] at hparts ⊢
    exact ⟨hvalue a hparts.1, hvalue b hparts.2.1, hvalue c hparts.2.2.1, hvalue d hparts.2.2.2⟩

/-- An address with the same part four times, by its parts. -/
theorem trimmed_eq_repeated {s : StdString} (hfour : (octets s).length = 4) (part : StdString)
    (hdot : 46 ∉ part) :
    trimmed s = [46].intercalate (List.replicate 4 part) ↔ ∀ p ∈ octets s, p = part := by
  have hjoin : [46].intercalate (octets s) = trimmed s := List.intercalate_splitOn 46
  constructor
  · intro heq
    have hsplit : octets s = List.replicate 4 part := by
      rw [octets, heq]
      apply List.splitOn_intercalate
      · exact fun p hp => (List.eq_of_mem_replicate hp) ▸ hdot
      · exact List.cons_ne_nil _ _
    rw [hsplit]
    exact fun p => List.eq_of_mem_replicate
  · intro hall
    rw [← hjoin, List.eq_replicate_iff.mpr ⟨hfour, hall⟩]

/-- The agent on four plain octets. -/
theorem validateIPv4_iff {s : StdString} (hfour : (octets s).length = 4)
    (hplain : ∀ part ∈ octets s, plainOctet part = true) :
    validateIPv4 s = .valid ↔ AddressInRange (octets s) := by
  have haccepted : ∀ part ∈ octets s, octetAccepted part = true ↔ digitsValue part ≤ 255 := by
    intro part hpart
    have hp := hplain part hpart
    rw [octetAccepted_iff (plainOctet_iff.mp hp).1, hp]
    simp
  -- the two addresses that are refused, by their octets
  have hzero : trimmed s = str "0.0.0.0" ↔ ∀ part ∈ octets s, digitsValue part = 0 := by
    refine (trimmed_eq_repeated hfour [48] (by decide)).trans (forall₂_congr ?_)
    intro part hpart
    constructor
    · rintro rfl
      rfl
    · exact plainOctet_eq_zero (hplain part hpart)
  have hbroadcast : trimmed s = str "255.255.255.255" ↔
      ∀ part ∈ octets s, digitsValue part = 255 := by
    refine (trimmed_eq_repeated hfour [50, 53, 53] (by decide)).trans
      (forall₂_congr ?_)
    intro part hpart
    constructor
    · rintro rfl
      rfl
    · exact plainOctet_eq_255 (hplain part hpart)
  have htake : ((trimmed s).splitOn 46).take 4 = octets s :=
    List.take_of_length_le (Nat.le_of_eq hfour)
  have hall : (octets s).all octetAccepted = true ↔ ∀ part ∈ octets s, digitsValue part ≤ 255 := by
    rw [List.all_eq_true]
    exact forall₂_congr haccepted
  unfold validateIPv4 AddressInRange
  dsimp only
  rw [htake, hfour, ← hall, ← hzero, ← hbroadcast]
  by_cases hin : (octets s).all octetAccepted = true
  · simp [hin]
  · simp [hin]

/-- The agent refuses every address with other than four parts, unless it reads loosely. -/
theorem octets_of_validateIPv4 {s : StdString} (h : validateIPv4 s = .valid)
    (hstrict : ¬ LooseAddress s) :
    (octets s).length = 4 ∧ ∀ part ∈ octets s, plainOctet part = true := by
  obtain ⟨hle, hdigit⟩ := not_or.mp hstrict
  have htake : ((trimmed s).splitOn 46).take 4 = octets s :=
    List.take_of_length_le (Nat.not_lt.mp hle)
  unfold validateIPv4 at h
  dsimp only at h
  rw [htake] at h
  split at h
  · cases h
  · rename_i hall
    split at h
    · cases h
    · rename_i hlength
      refine ⟨not_not.mp hlength, ?_⟩
      intro part hpart
      have hisdigit : isdigit part = true := by
        by_contra hno
        exact hdigit ⟨part, hpart, by simpa using hno⟩
      have haccepted : octetAccepted part = true := by
        rw [Bool.not_eq_true', Bool.not_eq_false] at hall
        exact List.all_eq_true.mp hall part hpart
      exact ((octetAccepted_iff hisdigit).mp haccepted).1

theorem ipv4Range_of_valid {s : StdString} (h : validateIPv4 s = .valid)
    (hstrict : ¬ LooseAddress s) : ipv4Range s = true := by
  obtain ⟨hlength, hplain⟩ := octets_of_validateIPv4 h hstrict
  obtain ⟨a, b, c, d, hparts⟩ := List.length_eq_four.mp hlength
  exact (ipv4Range_iff hparts hplain).mpr ((validateIPv4_iff hlength hplain).mp h)

theorem validateIPv4_of_ipv4Range {s : StdString} (h : ipv4Range s = true)
    (hstrict : ¬ (validateIPv4 s = .valid ∧ LooseAddress s)) :
    validateIPv4 s = .valid ↔ ¬ AddressRefused s := by
  -- white space has no dot, so the agent sees as many parts
  have hlength : (octets s).length = 4 := by
    have hcount := count_trimmed (c := 46) (by decide) s
    have hfour := (parts_of_ipv4Range h).1
    rw [length_splitOn, hcount] at hfour
    rw [octets, length_splitOn, hfour]
  obtain ⟨a, b, c, d, hparts⟩ := List.length_eq_four.mp hlength
  constructor
  · rintro hvalid ⟨part, hpart, hnot⟩
    have hplain := (octets_of_validateIPv4 hvalid fun hloose => hstrict ⟨hvalid, hloose⟩).2
    exact absurd ((hplain part hpart).symm.trans hnot) (by decide)
  · intro hnot
    have hplain : ∀ part ∈ octets s, plainOctet part = true := by
      intro part hpart
      by_contra hno
      exact hnot ⟨part, hpart, by simpa using hno⟩
    exact (validateIPv4_iff hlength hplain).mpr ((ipv4Range_iff hparts hplain).mp h)

/-! ## Dates -/

/-- `MM/DD/YYYY` in digits. -/
def isMonthDayYear (date : StdString) : Bool :=
  date.length == 10 && date.getD 2 0 == 47 && date.getD 5 0 == 47 && (date.take 2).all isDigit &&
    ((date.drop 3).take 2).all isDigit && (date.drop 6).all isDigit

/-- What the agent's `ParseInt` lets pass: a month or a day of one digit and another
character. -/
def LooseDate (s : StdString) : Prop :=
  ((trimmed s).take 2).all isDigit = false ∨ (((trimmed s).drop 3).take 2).all isDigit = false

instance (s : StdString) : Decidable (LooseDate s) := inferInstanceAs (Decidable (_ ∨ _))

def monthOf (date : StdString) : Nat := digitsValue (date.take 2)

def dayOf (date : StdString) : Nat := digitsValue ((date.drop 3).take 2)

def yearOf (date : StdString) : Nat := digitsValue (date.drop 6)

/-- What the server takes and the agent does not: another format, a year after 2025, or a
separator. -/
def DateRefused (s : StdString) : Prop :=
  isMonthDayYear (strip s) = false ∨ 2025 < yearOf (strip s) ∨ HasSeparator s

instance (s : StdString) : Decidable (DateRefused s) := inferInstanceAs (Decidable (_ ∨ _))

/-- A day of the calendar from 1900 to a last year. -/
def CalendarDay (lastYear : Nat) (date : StdString) : Prop :=
  (1 ≤ monthOf date ∧ monthOf date ≤ 12) ∧ (1900 ≤ yearOf date ∧ yearOf date ≤ lastYear) ∧
    1 ≤ dayOf date ∧ dayOf date ≤ monthLength (yearOf date) (monthOf date)

theorem isMonthDayYear_iff {date : StdString} :
    isMonthDayYear date = true ↔
      ∃ a b c d e f g h, date = [a, b, 47, c, d, 47, e, f, g, h] ∧
        ∀ x ∈ [a, b, c, d, e, f, g, h], isDigit x = true := by
  constructor
  · intro h
    simp only [isMonthDayYear, Bool.and_eq_true, beq_iff_eq, List.all_eq_true] at h
    obtain ⟨⟨⟨⟨⟨hlength, h2⟩, h5⟩, hmonth⟩, hday⟩, hyear⟩ := h
    match date, hlength with
    | [a, b, s2, c, d, s5, e, f, g, h], _ =>
        obtain rfl : s2 = 47 := h2
        obtain rfl : s5 = 47 := h5
        refine ⟨a, b, c, d, e, f, g, h, rfl, ?_⟩
        simp only [List.take_succ_cons, List.take_zero, List.drop_succ_cons, List.drop_zero,
          List.forall_mem_cons, List.not_mem_nil, false_imp_iff, implies_true, and_true]
          at hmonth hday hyear ⊢
        exact ⟨hmonth.1, hmonth.2, hday.1, hday.2, hyear⟩
  · rintro ⟨a, b, c, d, e, f, g, h, rfl, hall⟩
    simp only [List.forall_mem_cons, List.not_mem_nil, false_imp_iff, implies_true, and_true]
      at hall
    simp [isMonthDayYear, hall]

/-- The days of a month are those of the calendar. -/
theorem daysInMonth_eq {month : Nat} (year : Nat) (h : 1 ≤ month ∧ month ≤ 12) :
    daysInMonth month year = monthLength year month := by
  obtain ⟨hlow, hhigh⟩ := h
  have hleap : isLeapYear year = true ↔ year % 4 = 0 ∧ (year % 100 ≠ 0 ∨ year % 400 = 0) := by
    simp only [isLeapYear, Bool.or_eq_true, Bool.and_eq_true, beq_iff_eq, bne_iff_ne]
    omega
  interval_cases month
  case «2» =>
    simp only [daysInMonth, monthLength, hleap]
    by_cases hyear : year % 4 = 0 ∧ (year % 100 ≠ 0 ∨ year % 400 = 0)
    · simp [hyear]
    · simp [hyear]
  all_goals rfl

theorem digitsValue_two (a b : UInt8) :
    digitsValue [a, b] = 10 * (a.toNat - 48) + (b.toNat - 48) := by
  simp [digitsValue]

theorem monthField_digits {a b : UInt8} (ha : isDigit a = true) (hb : isDigit b = true) :
    monthField [a, b] =
      if 1 ≤ digitsValue [a, b] ∧ digitsValue [a, b] ≤ 12 then some (digitsValue [a, b])
      else none := by
  rw [isDigit_iff] at ha hb
  rw [digitsValue_two, monthField]
  simp only [← UInt8.toNat_inj, UInt8.le_iff_toNat_le, UInt8.toNat_ofNat]
  grind

theorem dayField_digits {a b : UInt8} (ha : isDigit a = true) (hb : isDigit b = true) :
    dayField [a, b] =
      if 1 ≤ digitsValue [a, b] ∧ digitsValue [a, b] ≤ 31 then some (digitsValue [a, b])
      else none := by
  have hb' := isDigit_iff.mp hb
  rw [isDigit_iff] at ha
  rw [digitsValue_two, dayField]
  simp only [hb, ← UInt8.toNat_inj, UInt8.le_iff_toNat_le, UInt8.toNat_ofNat]
  grind

theorem monthLength_le (year month : Nat) : monthLength year month ≤ 31 := by
  unfold monthLength
  repeat' split
  all_goals decide

/-- The fields of a date in the agent's format. -/
theorem splitOn_monthDayYear {a b c d e f g h : UInt8}
    (hall : ∀ x ∈ [a, b, c, d, e, f, g, h], isDigit x = true) :
    List.splitOn 47 [a, b, 47, c, d, 47, e, f, g, h] = [[a, b], [c, d], [e, f, g, h]] ∧
      List.splitOn 45 [a, b, 47, c, d, 47, e, f, g, h] = [[a, b, 47, c, d, 47, e, f, g, h]] := by
  have hnone : ∀ x ∈ [a, b, c, d, e, f, g, h], x ≠ 47 ∧ x ≠ 45 := by
    intro x hx
    have hdigit := hall x hx
    constructor <;> (rintro rfl; exact absurd hdigit (by decide))
  simp only [List.forall_mem_cons, List.not_mem_nil, false_imp_iff, implies_true, and_true]
    at hnone
  obtain ⟨ha, hb, hc, hd, he, hf, hg, hh⟩ := hnone
  constructor
  · have hjoin : [a, b, 47, c, d, 47, e, f, g, h] =
        [47].intercalate [[a, b], [c, d], [e, f, g, h]] := rfl
    rw [hjoin]
    apply List.splitOn_intercalate
    · simp [ha.1.symm, hb.1.symm, hc.1.symm, hd.1.symm, he.1.symm, hf.1.symm, hg.1.symm,
        hh.1.symm]
    · exact List.cons_ne_nil _ _
  · apply List.splitOn_eq_singleton
    simp [ha.2.symm, hb.2.symm, hc.2.symm, hd.2.symm, he.2.symm, hf.2.symm, hg.2.symm, hh.2.symm]

/-- Of the three formats only the first takes a date in the agent's format, and only a day
of the calendar. -/
theorem strptime_monthDayYear {date : StdString} (hform : isMonthDayYear date = true) :
    strptime date .iso = none ∧ strptime date .dashed = none ∧
      strptime date .slashed =
        if (1 ≤ monthOf date ∧ monthOf date ≤ 12) ∧ 1 ≤ dayOf date ∧
            Date.Exists ⟨yearOf date, monthOf date, dayOf date⟩ then
          some ⟨yearOf date, monthOf date, dayOf date⟩
        else none := by
  obtain ⟨a, b, c, d, e, f, g, h, rfl, hall⟩ := isMonthDayYear_iff.mp hform
  obtain ⟨hslash, hdash⟩ := splitOn_monthDayYear hall
  simp only [List.forall_mem_cons, List.not_mem_nil, false_imp_iff, implies_true, and_true]
    at hall
  obtain ⟨ha, hb, hc, hd, he, hf, hg, hh⟩ := hall
  have hyear : yearField [e, f, g, h] = some (digitsValue [e, f, g, h]) := by
    simp [yearField, he, hf, hg, hh]
  have hle := monthLength_le (digitsValue [e, f, g, h]) (digitsValue [a, b])
  unfold strptime
  rw [hslash, hdash]
  refine ⟨rfl, rfl, ?_⟩
  simp only [Option.bind_eq_bind, Option.bind_some, monthField_digits ha hb,
    dayField_digits hc hd, hyear]
  show (_ : Option Date) = if (1 ≤ digitsValue [a, b] ∧ digitsValue [a, b] ≤ 12) ∧
      1 ≤ digitsValue [c, d] ∧
      Date.Exists ⟨digitsValue [e, f, g, h], digitsValue [a, b], digitsValue [c, d]⟩ then
    some ⟨digitsValue [e, f, g, h], digitsValue [a, b], digitsValue [c, d]⟩ else none
  by_cases hm : 1 ≤ digitsValue [a, b] ∧ digitsValue [a, b] ≤ 12
  · rw [if_pos hm, Option.bind_some]
    by_cases hday : 1 ≤ digitsValue [c, d] ∧ digitsValue [c, d] ≤ 31
    · rw [if_pos hday, Option.bind_some]
      simp only [hm, hday.1, true_and]
    · rw [if_neg hday, Option.bind_none,
        if_neg fun hno => hday ⟨hno.2.1, Nat.le_trans hno.2.2.2 hle⟩]
  · rw [if_neg hm, Option.bind_none, if_neg fun hno => hm hno.1]

/-- The server on a date in the agent's format. -/
theorem dateCalendar_iff {s : StdString} (hform : isMonthDayYear (strip s) = true) :
    dateCalendar s = true ↔ CalendarDay 2100 (strip s) := by
  obtain ⟨hiso, hdashed, hslashed⟩ := strptime_monthDayYear hform
  unfold dateCalendar CalendarDay
  simp only [List.any_cons, List.any_nil, hiso, hdashed, hslashed, Bool.or_false]
  split
  · next dt hdt =>
      obtain ⟨⟨hm, hlow, hexists⟩, hdt⟩ := Option.ite_none_right_eq_some.mp hdt
      obtain rfl := Option.some.inj hdt
      rw [Bool.and_eq_true, decide_eq_true_eq, decide_eq_true_eq]
      exact ⟨fun hyears => ⟨hm, hyears, hlow, hexists.2⟩, fun hcal => hcal.2.1⟩
  · next hnone =>
      refine iff_of_false Bool.false_ne_true ?_
      rintro ⟨hm, hyears, hlow, hin⟩
      have hexists : Date.Exists ⟨yearOf (strip s), monthOf (strip s), dayOf (strip s)⟩ :=
        ⟨Nat.le_trans (by decide) hyears.1, hin⟩
      rw [if_pos ⟨hm, hlow, hexists⟩] at hnone
      cases hnone

/-- The agent on a date in its format. -/
theorem validateDateOfBirth_iff {s : StdString} (hform : isMonthDayYear (trimmed s) = true) :
    validateDateOfBirth s = .valid ↔ CalendarDay 2025 (trimmed s) := by
  obtain ⟨a, b, c, d, e, f, g, h, hdate, hall⟩ := isMonthDayYear_iff.mp hform
  simp only [List.forall_mem_cons, List.not_mem_nil, false_imp_iff, implies_true, and_true]
    at hall
  obtain ⟨ha, hb, hc, hd, he, hf, hg, hh⟩ := hall
  have hmonth : parseInt [a, b] = digitsValue [a, b] :=
    parseInt_digits (by simp) (by simp [ha, hb]) (by simp)
  have hday : parseInt [c, d] = digitsValue [c, d] :=
    parseInt_digits (by simp) (by simp [hc, hd]) (by simp)
  have hyear : parseInt [e, f, g, h] = digitsValue [e, f, g, h] :=
    parseInt_digits (by simp) (by simp [he, hf, hg, hh]) (by simp)
  have hdays := @daysInMonth_eq (digitsValue [a, b]) (digitsValue [e, f, g, h])
  unfold validateDateOfBirth CalendarDay monthOf dayOf yearOf
  rw [hdate]
  simp only [List.take_succ_cons, List.take_zero, List.drop_succ_cons, List.drop_zero, hmonth,
    hday, hyear]
  generalize digitsValue [a, b] = month at hdays
  generalize digitsValue [c, d] = day
  generalize digitsValue [e, f, g, h] = year at hdays
  by_cases hm : 1 ≤ month ∧ month ≤ 12
  · rw [hdays hm]
    simp only [List.length_cons, List.length_nil, Nat.zero_add, Nat.reduceAdd, ne_eq,
      not_true_eq_false, if_false, List.getD_cons_succ, List.getD_cons_zero, or_self]
    split
    · omega
    · split
      · exact iff_of_false (by decide) (by omega)
      · split
        · exact iff_of_false (by decide) (by omega)
        · exact iff_of_true rfl (by omega)
  · simp only [List.length_cons, List.length_nil, Nat.zero_add, Nat.reduceAdd, ne_eq,
      not_true_eq_false, if_false, List.getD_cons_succ, List.getD_cons_zero, or_self]
    rw [if_pos (by omega)]
    exact iff_of_false (by decide) (fun hcal => hm hcal.1)

/-- A year from 1900 on is four digits. -/
theorem isDigit_of_year {year : StdString} (hlength : year.length = 4)
    (h : 1900 ≤ parseInt year) : ∀ c ∈ year, isDigit c = true := by
  have hlt := parseInt_lt year
  have hprefix : year.takeWhile isDigit <+: year := List.takeWhile_prefix isDigit
  have hfour : (year.takeWhile isDigit).length = 4 := by
    have hle := hprefix.length_le
    by_contra hne
    have hpow : 10 ^ (year.takeWhile isDigit).length ≤ 10 ^ 3 :=
      Nat.pow_le_pow_right (by decide) (by omega)
    have hcast : ((10 ^ (year.takeWhile isDigit).length : Nat) : Int) =
        10 ^ (year.takeWhile isDigit).length := by
      rw [Nat.cast_pow]
      rfl
    omega
  have hwhole : year.takeWhile isDigit = year := hprefix.eq_of_length (by rw [hfour, hlength])
  exact List.takeWhile_eq_self_iff.mp hwhole

/-- The agent takes its format only, unless it reads loosely. -/
theorem isMonthDayYear_of_valid {s : StdString} (h : validateDateOfBirth s = .valid)
    (hstrict : ¬ LooseDate s) : isMonthDayYear (trimmed s) = true := by
  simp only [LooseDate, not_or, Bool.not_eq_false] at hstrict
  unfold validateDateOfBirth at h
  dsimp only at h
  generalize trimmed s = date at h hstrict
  split at h
  · cases h
  · rename_i hlength
    split at h
    · cases h
    · rename_i hslashes
      split at h
      · cases h
      · split at h
        · cases h
        · rename_i hyear
          rw [not_not] at hlength
          rw [not_or, not_not, not_not] at hslashes
          have htake : (date.drop 6).take 4 = date.drop 6 :=
            List.take_of_length_le (by rw [List.length_drop]; omega)
          rw [htake] at hyear
          have hdigits : (date.drop 6).all isDigit = true := by
            rw [List.all_eq_true]
            refine isDigit_of_year ?_ (by omega)
            rw [List.length_drop, hlength]
          simp only [isMonthDayYear, Bool.and_eq_true, beq_iff_eq]
          exact ⟨⟨⟨⟨⟨hlength, hslashes.1⟩, hslashes.2⟩, hstrict.1⟩, hstrict.2⟩, hdigits⟩

theorem dateCalendar_of_valid {s : StdString} (h : validateDateOfBirth s = .valid)
    (hstrict : ¬ LooseDate s) : dateCalendar s = true ∧ ¬ DateRefused s := by
  have hform := isMonthDayYear_of_valid h hstrict
  have hcalendar := (validateDateOfBirth_iff hform).mp h
  have hspace : ∀ c ∈ trimmed s, isPySpace c = false := by
    obtain ⟨a, b, c, d, e, f, g, h, hdate, hall⟩ := isMonthDayYear_iff.mp hform
    intro x hx
    by_cases hslash : x = 47
    · subst hslash
      decide
    · apply isPySpace_of_isDigit
      apply hall
      rw [hdate] at hx
      simp only [List.mem_cons, List.not_mem_nil, or_false] at hx ⊢
      grind
  obtain ⟨hstrip, hseparator⟩ := strip_eq_trimmed hspace
  obtain ⟨hmonth, hyears, hday⟩ := hcalendar
  rw [← hstrip] at hform hmonth hyears hday
  constructor
  · rw [dateCalendar_iff hform]
    exact ⟨hmonth, ⟨hyears.1, by omega⟩, hday⟩
  · rintro (hother | hlate | hsep)
    · exact absurd (hform.symm.trans hother) (by decide)
    · omega
    · exact hseparator hsep

theorem validateDateOfBirth_of_dateCalendar {s : StdString} (h : dateCalendar s = true)
    (hstrict : ¬ (validateDateOfBirth s = .valid ∧ LooseDate s)) :
    validateDateOfBirth s = .valid ↔ ¬ DateRefused s := by
  constructor
  · intro hvalid
    exact (dateCalendar_of_valid hvalid fun hloose => hstrict ⟨hvalid, hloose⟩).2
  · intro hnot
    simp only [DateRefused, not_or, Bool.not_eq_false, Nat.not_lt] at hnot
    obtain ⟨hform, hyear, hseparator⟩ := hnot
    obtain ⟨hmonth, hyears, hday⟩ := (dateCalendar_iff hform).mp h
    have hsame := trimmed_eq_strip hseparator
    rw [← hsame] at hform hyear hmonth hyears hday
    rw [validateDateOfBirth_iff hform]
    exact ⟨hmonth, ⟨hyears.1, hyear⟩, hday⟩

end AkesoDlp.Parity
