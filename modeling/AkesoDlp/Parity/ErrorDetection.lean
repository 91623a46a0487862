import AkesoDlp.Lib.CheckDigit
import AkesoDlp.Parity.Checksums

/-!
# Typing errors in numbers with a check digit

One wrong digit in a card number or a routing number is noticed by the validators of agent
and server, and so are two neighbouring digits of a card number in the wrong order, but
for 0 and 9.
-/

namespace AkesoDlp.Parity

open Lib (checkSum Changed Swapped)
open Agent (StdString isDigit extractDigits str)
open Agent.Validators
open Server.Validators (luhn luhnTerm abaChecksum)

/-- A string of digits only. -/
def AllDigits (s : StdString) : Prop := ∀ c ∈ s, isDigit c = true

instance (s : StdString) : Decidable (AllDigits s) := inferInstanceAs (Decidable (∀ c ∈ s, _))

theorem AllDigits.extractDigits_eq {s : StdString} (h : AllDigits s) : extractDigits s = s :=
  List.filter_eq_self.mpr h

theorem AllDigits.not_hasOther {s : StdString} (h : AllDigits s) (other : UInt8 → Bool) :
    ¬ HasOther (fun c => isDigit c || other c) s := by
  rw [not_hasOther_iff]
  intro c hc
  rw [h c hc, Bool.true_or]

theorem AllDigits.reverse {s : StdString} (h : AllDigits s) : AllDigits s.reverse :=
  fun c hc => h c (List.mem_reverse.mp hc)

/-! ## What a digit counts for -/

/-- Doubling and taking 9 from what is above it permutes the digits. -/
theorem luhnTerm_injective {a b : UInt8} {i : Nat} (ha : isDigit a = true) (hb : isDigit b = true)
    (h : luhnTerm a i % 10 = luhnTerm b i % 10) : a = b := by
  rw [isDigit_iff] at ha hb
  rw [← UInt8.toNat_inj]
  simp only [luhnTerm] at h
  split at h
  · split at h <;> split at h <;> omega
  · omega

/-- Whichever of the two places is doubled, doubling adds 0 to 0 and to 9 and
differs modulo 10 for any other two digits. -/
theorem luhnTerm_swap_iff {a b : UInt8} (ha : isDigit a = true) (hb : isDigit b = true)
    (hne : a ≠ b) (i : Nat) :
    (luhnTerm a i + luhnTerm b (i + 1)) % 10 = (luhnTerm b i + luhnTerm a (i + 1)) % 10 ↔
      (a = 48 ∧ b = 57) ∨ (a = 57 ∧ b = 48) := by
  rw [isDigit_iff] at ha hb
  rw [ne_eq, ← UInt8.toNat_inj] at hne
  simp only [← UInt8.toNat_inj, UInt8.toNat_ofNat, luhnTerm]
  rcases Nat.mod_two_eq_zero_or_one i with hi | hi
  · have hnext : (i + 1) % 2 = 1 := by omega
    simp only [hi, hnext, if_true, Nat.zero_ne_one, if_false]
    split <;> split <;> omega
  · have hnext : ¬ (i + 1) % 2 = 1 := by omega
    simp only [hi, hnext, if_true, if_false]
    split <;> split <;> omega

/-- 3, 7 and 1 are invertible modulo 10. -/
theorem abaTerm_injective {a b : UInt8} {i : Nat} (ha : isDigit a = true) (hb : isDigit b = true)
    (hi : i < 9)
    (h : (a.toNat - 48) * abaWeights.getD i 0 % 10 = (b.toNat - 48) * abaWeights.getD i 0 % 10) :
    a = b := by
  rw [isDigit_iff] at ha hb
  rw [← UInt8.toNat_inj]
  have hweights : ∀ i < 9, abaWeights.getD i 0 = 3 ∨ abaWeights.getD i 0 = 7 ∨
      abaWeights.getD i 0 = 1 := by decide
  rcases hweights i hi with hw | hw | hw <;> rw [hw] at h <;> omega

/-! ## The sums of digit strings -/

theorem luhnLoop_eq_checkSum (reversed : StdString) :
    luhnLoop false 0 reversed = checkSum luhnTerm 0 reversed :=
  luhnLoop_eq_sum reversed

section

variable {s : StdString} (h : AllDigits s)

include h

theorem validateCreditCard_digits :
    validateCreditCard s = .valid ↔
      13 ≤ s.length ∧ s.length ≤ 19 ∧ checkSum luhnTerm 0 s.reverse % 10 = 0 := by
  rw [validateCreditCard_iff, h.extractDigits_eq, luhnLoop_eq_checkSum]

theorem luhn_digits :
    luhn s = true ↔ 13 ≤ s.length ∧ checkSum luhnTerm 0 s.reverse % 10 = 0 := by
  rw [luhn_iff, h.extractDigits_eq, luhnLoop_eq_checkSum]
  simp [h.not_hasOther]

theorem validateABA_digits :
    validateABA s = .valid ↔
      s.length = 9 ∧ checkSum (fun c i => (c.toNat - 48) * abaWeights.getD i 0) 0 s % 10 = 0 := by
  unfold validateABA
  dsimp only
  rw [h.extractDigits_eq]
  by_cases hlength : s.length = 9
  · have hsum := Lib.sum_zipWith_eq_checkSum (fun (c : UInt8) w => (c.toNat - 48) * w) s abaWeights
      hlength
    simp [hlength, verdict_eq_valid, hsum]
  · simp [hlength]

theorem abaChecksum_digits : abaChecksum s = true ↔ validateABA s = .valid := by
  rw [abaChecksum_iff]
  exact and_iff_left (h.not_hasOther _)

end

/-! ## Errors -/

/-- A validator that only looks at a condition and a sum is never inconclusive. -/
theorem invalid_of_not_valid {refused : Prop} [Decidable refused] {accepted : Bool}
    (h : ¬ (if refused then Agent.ValidationResult.invalid else verdict accepted) = .valid) :
    (if refused then Agent.ValidationResult.invalid else verdict accepted) = .invalid := by
  split
  · rfl
  · rename_i hrefused
    rw [if_neg hrefused] at h
    cases accepted with
    | true => exact absurd rfl h
    | false => rfl

/-- A wrong digit makes the sum of a card number another one. -/
theorem luhnSum_ne_of_changed {s t : StdString} (hs : AllDigits s) (ht : AllDigits t)
    (h : Changed s t) :
    checkSum luhnTerm 0 s.reverse % 10 ≠ checkSum luhnTerm 0 t.reverse % 10 :=
  h.reverse.checkSum_mod_ne hs.reverse ht.reverse fun _ _ _ _ => luhnTerm_injective

theorem luhnSum_eq_iff_of_swapped {a b : UInt8} {s t : StdString} (hs : AllDigits s)
    (h : Swapped a b s t) (hne : a ≠ b) :
    checkSum luhnTerm 0 s.reverse % 10 = checkSum luhnTerm 0 t.reverse % 10 ↔
      (a = 48 ∧ b = 57) ∨ (a = 57 ∧ b = 48) := by
  have hdigits : isDigit a = true ∧ isDigit b = true := by
    cases h
    exact ⟨hs a (by simp), hs b (by simp)⟩
  have hiff := h.reverse.checkSum_mod_eq_iff fun i =>
    luhnTerm_swap_iff hdigits.2 hdigits.1 hne.symm i
  rw [hiff]
  grind

theorem abaSum_ne_of_changed {s t : StdString} (hs : AllDigits s) (ht : AllDigits t)
    (hlength : s.length = 9) (h : Changed s t) :
    checkSum (fun c i => (c.toNat - 48) * abaWeights.getD i 0) 0 s % 10 ≠
      checkSum (fun c i => (c.toNat - 48) * abaWeights.getD i 0) 0 t % 10 :=
  h.checkSum_mod_ne hs ht fun _ _ _ hi ha hb =>
    abaTerm_injective ha hb (Nat.lt_of_lt_of_eq hi hlength)

theorem allDigits_of_all {s : StdString} (h : s.all isDigit = true) : AllDigits s :=
  List.all_eq_true.mp h

/-- Card numbers after one change keep their length, so their sums decide. -/
theorem cardChecks_congr {s t : StdString} (hs : AllDigits s) (ht : AllDigits t)
    (hlength : t.length = s.length)
    (hsum : checkSum luhnTerm 0 s.reverse % 10 = checkSum luhnTerm 0 t.reverse % 10) :
    (luhn t = true ↔ luhn s = true) ∧
    (validateCreditCard t = .valid ↔ validateCreditCard s = .valid) := by
  rw [luhn_digits hs, luhn_digits ht, validateCreditCard_digits hs, validateCreditCard_digits ht,
    hlength, hsum]
  exact ⟨Iff.rfl, Iff.rfl⟩

theorem cardChecks_reject {s t : StdString} (hs : AllDigits s) (ht : AllDigits t)
    (hsum : checkSum luhnTerm 0 s.reverse % 10 ≠ checkSum luhnTerm 0 t.reverse % 10) :
    (luhn s = true → luhn t = false) ∧
    (validateCreditCard s = .valid → validateCreditCard t = .invalid) := by
  constructor
  · intro haccepted
    rw [Bool.eq_false_iff, ne_eq, luhn_digits ht]
    exact fun h => hsum (((luhn_digits hs).mp haccepted).2.trans h.2.symm)
  · intro haccepted
    have hrefused : ¬ validateCreditCard t = .valid := by
      rw [validateCreditCard_digits ht]
      exact fun h => hsum (((validateCreditCard_digits hs).mp haccepted).2.2.trans h.2.2.symm)
    exact invalid_of_not_valid hrefused

theorem abaChecks_reject {s t : StdString} (hs : AllDigits s) (ht : AllDigits t)
    (hlength : s.length = 9) (h : Changed s t) :
    (abaChecksum s = true → abaChecksum t = false) ∧
    (validateABA s = .valid → validateABA t = .invalid) := by
  have hrejected : validateABA s = .valid → ¬ validateABA t = .valid := by
    rw [validateABA_digits hs, validateABA_digits ht]
    exact fun haccepted hchanged =>
      abaSum_ne_of_changed hs ht hlength h (haccepted.2.trans hchanged.2.symm)
  constructor
  · rw [Bool.eq_false_iff, ne_eq, abaChecksum_digits hs, abaChecksum_digits ht]
    exact hrejected
  · exact fun haccepted => invalid_of_not_valid (hrejected haccepted)

/-- `luhn` and `ValidateCreditCard` on card numbers, `aba_checksum` and `ValidateABA` on
routing numbers. -/
theorem checksums_detect_errors (s t : StdString) (hs : AllDigits s) (ht : AllDigits t) :
    (13 ≤ s.length → s.length ≤ 19 → Changed s t →
      (luhn s = true → luhn t = false) ∧
      (validateCreditCard s = .valid → validateCreditCard t = .invalid)) ∧
    (13 ≤ s.length → s.length ≤ 19 → ∀ a b, a ≠ b → Swapped a b s t →
      (luhn s = true → (luhn t = false ↔ ¬ ((a = 48 ∧ b = 57) ∨ (a = 57 ∧ b = 48)))) ∧
      (validateCreditCard s = .valid →
        (validateCreditCard t = .invalid ↔ ¬ ((a = 48 ∧ b = 57) ∨ (a = 57 ∧ b = 48))))) ∧
    (s.length = 9 → Changed s t →
      (abaChecksum s = true → abaChecksum t = false) ∧
      (validateABA s = .valid → validateABA t = .invalid)) := by
  refine ⟨fun _ _ h => cardChecks_reject hs ht (luhnSum_ne_of_changed hs ht h), ?_,
    fun hlength h => abaChecks_reject hs ht hlength h⟩
  intro _ _ a b hne h
  have hsums := luhnSum_eq_iff_of_swapped hs h hne
  by_cases hzeroNine : (a = 48 ∧ b = 57) ∨ (a = 57 ∧ b = 48)
  · obtain ⟨hluhn, hcard⟩ := cardChecks_congr hs ht h.length_eq (hsums.mpr hzeroNine)
    refine ⟨fun haccepted => iff_of_false ?_ (not_not_intro hzeroNine),
      fun haccepted => iff_of_false ?_ (not_not_intro hzeroNine)⟩
    · rw [hluhn.mpr haccepted]
      decide
    · rw [hcard.mpr haccepted]
      decide
  · obtain ⟨hluhn, hcard⟩ := cardChecks_reject hs ht (fun hsum => hzeroNine (hsums.mp hsum))
    exact ⟨fun haccepted => iff_of_true (hluhn haccepted) hzeroNine,
      fun haccepted => iff_of_true (hcard haccepted) hzeroNine⟩

/-- The last digit of a card number, the order of two of them, and the last digit of a
routing number. -/
theorem checksums_detect_errors_numbers :
    luhn (str "4111111111111112") = false ∧
    validateCreditCard (str "1411111111111111") = .invalid ∧
    validateABA (str "021000022") = .invalid :=
  ⟨((checksums_detect_errors (str "4111111111111111") (str "4111111111111112")
      (allDigits_of_all (by decide)) (allDigits_of_all (by decide))).1 (by decide) (by decide)
      (.intro (str "411111111111111") (by decide) [])).1 (by decide),
    (((checksums_detect_errors (str "4111111111111111") (str "1411111111111111")
      (allDigits_of_all (by decide)) (allDigits_of_all (by decide))).2.1 (by decide) (by decide)
      52 49 (by decide) (.intro [] (str "11111111111111"))).2 (by decide)).mpr (by decide),
    ((checksums_detect_errors (str "021000021") (str "021000022")
      (allDigits_of_all (by decide)) (allDigits_of_all (by decide))).2.2 (by decide)
      (.intro (str "02100002") (by decide) [])).2 (by decide)⟩

end AkesoDlp.Parity
