import AkesoDlp.Agent.StdString

/-!
# `std::to_string` and `std::stoi`

Decimal integers of 32 bits as text and back, in the "C" locale.
-/

namespace AkesoDlp.Agent

/-- The value of an `int32_t`. -/
abbrev IsInt32 (n : Int) : Prop := -2147483648 ≤ n ∧ n < 2147483648

/-- The decimal digits of a number. -/
def decimal (n : Nat) : StdString := (Nat.toDigits 10 n).map fun c => UInt8.ofNat c.toNat

/-- `std::to_string`. -/
def toStdString (n : Int) : StdString :=
  if n < 0 then 45 :: decimal n.natAbs else decimal n.natAbs

/-- `isspace`. -/
def isSpace (c : UInt8) : Bool := c == 32 || (9 ≤ c && c ≤ 13)

/-- `isdigit`. -/
def isDigit (c : UInt8) : Bool := 48 ≤ c && c ≤ 57

/-- The value of a run of digits. -/
def digitsValue (s : StdString) : Nat := s.foldl (fun n c => 10 * n + (c.toNat - 48)) 0

/-- `std::stoi` after the white space: an optional sign and at least one digit;
what follows is ignored. `none` where it throws. -/
def stoiDigits (negative : Bool) (s : StdString) : Option Int :=
  let digits := s.takeWhile isDigit
  let n : Int := if negative then -(digitsValue digits : Int) else digitsValue digits
  if digits = [] then none else if IsInt32 n then some n else none

/-- `std::stoi`. -/
def stoi (s : StdString) : Option Int :=
  match s.dropWhile isSpace with
  | 45 :: rest => stoiDigits true rest
  | 43 :: rest => stoiDigits false rest
  | rest => stoiDigits false rest

theorem decimal_ne_nil (n : Nat) : decimal n ≠ [] := by
  simp [decimal, Nat.toDigits_ne_nil]

theorem toNat_ofNat_digit {c : Char} (h : c.isDigit = true) :
    (UInt8.ofNat c.toNat).toNat = c.toNat ∧ 48 ≤ c.toNat ∧ c.toNat ≤ 57 := by
  simp only [Char.isDigit, Bool.and_eq_true, decide_eq_true_eq, ge_iff_le] at h
  have hlow : 48 ≤ c.toNat := h.1
  have hhigh : c.toNat ≤ 57 := h.2
  exact ⟨UInt8.toNat_ofNat_of_lt' (Nat.lt_of_le_of_lt hhigh (by decide)), hlow, hhigh⟩

theorem isDigit_of_mem_decimal {n : Nat} : ∀ b ∈ decimal n, isDigit b = true := by
  intro b hb
  obtain ⟨c, hc, rfl⟩ := List.mem_map.mp hb
  obtain ⟨heq, hlow, hhigh⟩ :=
    toNat_ofNat_digit (Nat.isDigit_of_mem_toDigits (by decide) (by decide) hc)
  simp only [isDigit, Bool.and_eq_true, decide_eq_true_eq, UInt8.le_iff_toNat_le, heq]
  exact ⟨hlow, hhigh⟩

theorem digitsValue_decimal (n : Nat) : digitsValue (decimal n) = n := by
  have hfold : ∀ (cs : List Char) (init : Nat), (∀ c ∈ cs, c.isDigit = true) →
      (cs.map fun c => UInt8.ofNat c.toNat).foldl (fun n c => 10 * n + (c.toNat - 48)) init =
        Nat.ofDigitChars 10 cs init := by
    intro cs
    induction cs with
    | nil => intro init _; rfl
    | cons c cs ih =>
        intro init h
        rw [List.forall_mem_cons] at h
        rw [List.map_cons, List.foldl_cons, Nat.ofDigitChars_cons, (toNat_ofNat_digit h.1).1,
          ih _ h.2]
        rfl
  rw [digitsValue, decimal, hfold _ _ fun c hc =>
    Nat.isDigit_of_mem_toDigits (by decide) (by decide) hc]
  exact Nat.ofDigitChars_ten_toDigits

theorem stoiDigits_decimal (negative : Bool) (n : Nat) :
    stoiDigits negative (decimal n) =
      if IsInt32 (if negative then -(n : Int) else n) then
        some (if negative then -(n : Int) else n) else none := by
  have hall : (decimal n).takeWhile isDigit = decimal n :=
    List.takeWhile_eq_self_iff.mpr isDigit_of_mem_decimal
  simp only [stoiDigits, hall, decimal_ne_nil, if_false, digitsValue_decimal]

/-- What is written as a decimal is read back. -/
theorem stoi_toStdString {n : Int} (h : IsInt32 n) : stoi (toStdString n) = some n := by
  by_cases hneg : n < 0
  · rw [toStdString, if_pos hneg]
    have hspace : ((45 : UInt8) :: decimal n.natAbs).dropWhile isSpace =
        45 :: decimal n.natAbs := rfl
    rw [stoi, hspace]
    simp only [stoiDigits_decimal, if_true]
    have habs : -(n.natAbs : Int) = n := by omega
    rw [habs, if_pos h]
  · rw [toStdString, if_neg hneg]
    have habs : (n.natAbs : Int) = n := by omega
    have hdigits := stoiDigits_decimal false n.natAbs
    simp only [Bool.false_eq_true, if_false, habs, if_pos h] at hdigits
    cases hd : decimal n.natAbs with
    | nil => exact absurd hd (decimal_ne_nil _)
    | cons b rest =>
        have hb : isDigit b = true :=
          isDigit_of_mem_decimal b (hd ▸ List.mem_cons_self)
        simp only [isDigit, Bool.and_eq_true, decide_eq_true_eq, UInt8.le_iff_toNat_le] at hb
        have hspace : isSpace b = false := by
          simp only [isSpace, Bool.or_eq_false_iff, beq_eq_false_iff_ne, Bool.and_eq_false_iff,
            decide_eq_false_iff_not, UInt8.le_iff_toNat_le]
          refine ⟨?_, .inr ?_⟩
          · rintro rfl
            exact absurd hb.1 (by decide)
          · have := hb.1
            simp at this ⊢
            omega
        rw [hd] at hdigits
        rw [stoi, List.dropWhile_cons_of_neg (by simp [hspace])]
        split
        · next heq =>
            cases heq
            exact absurd hb.1 (by decide)
        · next heq =>
            cases heq
            exact absurd hb.1 (by decide)
        · exact hdigits

theorem natRepr_injective : Function.Injective Nat.repr := by
  intro m n h
  have hdigits := congrArg (fun s => Nat.ofDigitChars 10 s.toList 0) h
  simpa only [Nat.toList_repr, Nat.ofDigitChars_ten_toDigits] using hdigits

/-- A sign is no digit. -/
theorem natRepr_ne_minus (m n : Nat) : m.repr ≠ "-" ++ n.repr := by
  intro h
  have hmem : '-' ∈ m.repr.toList := by simp [h]
  rw [Nat.toList_repr] at hmem
  exact absurd (Nat.isDigit_of_mem_toDigits (by decide) (by decide) hmem) (by decide)

/-- Different numbers have different decimals. -/
theorem toString_int_injective : Function.Injective fun n : Int => toString n := by
  intro m n h
  simp only [Int.toString_eq_repr, Int.repr_eq_if] at h
  split at h <;> split at h
  · have := natRepr_injective h
    omega
  · exact absurd h (natRepr_ne_minus _ _)
  · exact absurd h.symm (natRepr_ne_minus _ _)
  · have := natRepr_injective (String.append_right_inj _ |>.mp h)
    omega

end AkesoDlp.Agent
