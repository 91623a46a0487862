import AkesoDlp.Server.Validators

/-!
# Number validators of agent and server

The validators that look at the digits or letters of a candidate only. The agent picks
them out of any string. The server removes separators and refuses what has other
characters left; for the rest both compute the same.
-/

namespace AkesoDlp.Parity

open Agent (StdString isDigit isAlnum isAlpha toUpper extractDigits extractAlnum parseInt
  digitsValue toStdString decimal str)
open Agent.Validators
open Server (isPySpace isSpaceOrDash isdigit isalpha)
open Server.Validators (luhn luhnTerm ssnArea phoneFormat ibanMod97 ibanNumeric abaChecksum)

/-- A character that is not allowed. -/
def HasOther (allowed : UInt8 → Bool) (s : StdString) : Prop := ∃ c ∈ s, allowed c = false

instance (allowed : UInt8 → Bool) (s : StdString) : Decidable (HasOther allowed s) :=
  inferInstanceAs (Decidable (∃ c ∈ s, _))

/-! ## Picking and stripping -/

theorem not_hasOther_iff {allowed : UInt8 → Bool} {s : StdString} :
    ¬ HasOther allowed s ↔ ∀ c ∈ s, allowed c = true := by
  simp [HasOther]

theorem isdigit_iff {s : StdString} : isdigit s = true ↔ s ≠ [] ∧ ∀ c ∈ s, isDigit c = true := by
  simp [isdigit]

theorem isDigit_of_mem_extractDigits {s : StdString} :
    ∀ c ∈ extractDigits s, isDigit c = true :=
  fun _ hc => (List.mem_filter.mp hc).2

section

variable {pick removed : UInt8 → Bool} {s : StdString}

/-- Where every character is picked or removed, picking and removing leave the same. -/
theorem filter_not_eq_filter (hdisjoint : ∀ c, pick c = true → removed c = false)
    (h : ¬ HasOther (fun c => pick c || removed c) s) :
    s.filter (fun c => !removed c) = s.filter pick := by
  rw [not_hasOther_iff] at h
  apply List.filter_congr
  intro c hc
  have hallowed := h c hc
  cases hp : pick c with
  | true => rw [hdisjoint c hp, Bool.not_false]
  | false =>
      rw [hp, Bool.false_or] at hallowed
      rw [hallowed, Bool.not_true]

/-- What is left after removing: not all digits, or the digits. -/
theorem isdigit_filter_cases (hdisjoint : ∀ c, isDigit c = true → removed c = false)
    (s : StdString) :
    (HasOther (fun c => isDigit c || removed c) s ∧
      isdigit (s.filter fun c => !removed c) = false) ∨
    (¬ HasOther (fun c => isDigit c || removed c) s ∧
      (s.filter fun c => !removed c) = extractDigits s) := by
  by_cases h : HasOther (fun c => isDigit c || removed c) s
  · refine Or.inl ⟨h, ?_⟩
    obtain ⟨c, hc, hnot⟩ := h
    obtain ⟨hdigit, hkept⟩ := Bool.or_eq_false_iff.mp hnot
    rw [Bool.eq_false_iff, ne_eq, isdigit_iff]
    rintro ⟨-, hall⟩
    have hmem : c ∈ s.filter fun c => !removed c :=
      List.mem_filter.mpr ⟨hc, by rw [hkept, Bool.not_false]⟩
    exact absurd ((hall c hmem).symm.trans hdigit) (by decide)
  · exact Or.inr ⟨h, filter_not_eq_filter hdisjoint h⟩

theorem isdigit_extractDigits {s : StdString} (h : extractDigits s ≠ []) :
    isdigit (extractDigits s) = true :=
  isdigit_iff.mpr ⟨h, isDigit_of_mem_extractDigits⟩

end

theorem isPySpace_of_isAlnum {c : UInt8} (h : isAlnum c = true) : isPySpace c = false := by
  simp only [isAlnum, Server.isPySpace, Agent.isSpace, Bool.or_eq_true, Bool.and_eq_true,
    decide_eq_true_eq, Bool.or_eq_false_iff, Bool.and_eq_false_iff, decide_eq_false_iff_not,
    beq_eq_false_iff_ne, ne_eq, UInt8.le_iff_toNat_le, ← UInt8.toNat_inj] at h ⊢
  simp only [UInt8.toNat_ofNat] at h ⊢
  omega

theorem isPySpace_of_isDigit {c : UInt8} (h : isDigit c = true) : isPySpace c = false :=
  isPySpace_of_isAlnum (isAlnum_iff.mpr (Or.inl h))

theorem isSpaceOrDash_of_isDigit {c : UInt8} (h : isDigit c = true) : isSpaceOrDash c = false := by
  have hne : (c == 45) = false := by
    rw [beq_eq_false_iff_ne]
    rintro rfl
    exact absurd h (by decide)
  rw [Server.isSpaceOrDash, isPySpace_of_isDigit h, hne, Bool.or_false]

/-! ## Credit cards -/

/-- The loop and the indexed sum go by the same parity. -/
theorem luhnLoop_eq (reversed : StdString) (k sum : Nat) :
    luhnLoop (decide (k % 2 = 1)) sum reversed =
      sum + ((reversed.zipIdx k).map fun (ch, i) => luhnTerm ch i).sum := by
  induction reversed generalizing k sum with
  | nil => simp [luhnLoop]
  | cons c rest ih =>
      have hnext : (!decide (k % 2 = 1)) = decide ((k + 1) % 2 = 1) := by
        rw [← decide_not, decide_eq_decide]
        omega
      rw [luhnLoop, hnext, ih, List.zipIdx_cons, List.map_cons, List.sum_cons]
      simp only [luhnTerm, decide_eq_true_eq]
      omega

theorem luhnLoop_eq_sum (reversed : StdString) :
    luhnLoop false 0 reversed = (reversed.zipIdx.map fun (ch, i) => luhnTerm ch i).sum := by
  have h := luhnLoop_eq reversed 0 0
  rwa [Nat.zero_add] at h

theorem validateCreditCard_iff {s : StdString} :
    validateCreditCard s = .valid ↔
      13 ≤ (extractDigits s).length ∧ (extractDigits s).length ≤ 19 ∧
        luhnLoop false 0 (extractDigits s).reverse % 10 = 0 := by
  unfold validateCreditCard
  dsimp only
  split
  · rename_i h
    exact iff_of_false (by decide) (by omega)
  · rename_i h
    rw [verdict_eq_valid, beq_iff_eq]
    omega

theorem luhn_iff {s : StdString} :
    luhn s = true ↔
      13 ≤ (extractDigits s).length ∧ luhnLoop false 0 (extractDigits s).reverse % 10 = 0 ∧
        ¬ HasOther (fun c => isDigit c || isSpaceOrDash c) s := by
  unfold luhn
  dsimp only
  rcases isdigit_filter_cases (fun c => isSpaceOrDash_of_isDigit) s with
    ⟨hother, hfalse⟩ | ⟨hother, hsame⟩
  · rw [hfalse]
    simp [hother]
  · rw [hsame, luhnLoop_eq_sum]
    by_cases hlength : (extractDigits s).length < 13
    · have hshort : ¬ 13 ≤ (extractDigits s).length := Nat.not_le.mpr hlength
      simp [hlength, hshort]
    · have hlong : 13 ≤ (extractDigits s).length := Nat.not_lt.mp hlength
      have hne : extractDigits s ≠ [] := List.ne_nil_of_length_pos (by omega)
      rw [isdigit_extractDigits hne]
      simp [hlength, hlong, hother]

/-! ## Social security numbers -/

/-- Nine digits that pass the checks of area, group and serial number. -/
theorem validateSSN_iff {s : StdString} :
    validateSSN s = .valid ↔
      (extractDigits s).length = 9 ∧
      ¬ (digitsValue ((extractDigits s).take 3) = 0 ∨
        digitsValue ((extractDigits s).take 3) = 666 ∨
        900 ≤ digitsValue ((extractDigits s).take 3)) ∧
      digitsValue (((extractDigits s).drop 3).take 2) ≠ 0 ∧
      digitsValue ((extractDigits s).drop 5) ≠ 0 := by
  have hdigits := isDigit_of_mem_extractDigits (s := s)
  unfold validateSSN
  dsimp only
  generalize extractDigits s = digits at hdigits
  by_cases hlength : digits.length = 9
  · have hread : ∀ part : StdString, part.Sublist digits → part ≠ [] →
        parseInt part = digitsValue part := by
      intro part hpart hne
      refine parseInt_digits hne (fun c hc => hdigits c (hpart.subset hc)) ?_
      rw [← hlength]
      exact hpart.length_le
    have harea := hread (digits.take 3) (List.take_sublist ..)
      (List.ne_nil_of_length_pos (by rw [List.length_take]; omega))
    have hgroup := hread ((digits.drop 3).take 2)
      ((List.take_sublist ..).trans (List.drop_sublist ..))
      (List.ne_nil_of_length_pos (by rw [List.length_take, List.length_drop]; omega))
    have hserial := hread (digits.drop 5) (List.drop_sublist ..)
      (List.ne_nil_of_length_pos (by rw [List.length_drop]; omega))
    have htake : (digits.drop 5).take 4 = digits.drop 5 :=
      List.take_of_length_le (by rw [List.length_drop]; omega)
    rw [htake, harea, hgroup, hserial]
    grind
  · simp [hlength]

theorem ssnArea_iff {s : StdString} :
    ssnArea s = true ↔
      validateSSN s = .valid ∧ ¬ HasOther (fun c => isDigit c || isSpaceOrDash c) s := by
  rw [validateSSN_iff]
  unfold ssnArea
  dsimp only
  rcases isdigit_filter_cases (fun c => isSpaceOrDash_of_isDigit) s with
    ⟨hother, hfalse⟩ | ⟨hother, hsame⟩
  · rw [hfalse]
    simp [hother]
  · rw [hsame]
    by_cases hlength : (extractDigits s).length = 9
    · have hne : extractDigits s ≠ [] := List.ne_nil_of_length_pos (by omega)
      rw [isdigit_extractDigits hne]
      simp [hlength, hother]
    · simp [hlength]

/-! ## Routing numbers -/

theorem abaChecksum_iff {s : StdString} :
    abaChecksum s = true ↔
      validateABA s = .valid ∧ ¬ HasOther (fun c => isDigit c || isPySpace c) s := by
  unfold abaChecksum validateABA
  dsimp only
  rcases isdigit_filter_cases (fun c => isPySpace_of_isDigit) s with
    ⟨hother, hfalse⟩ | ⟨hother, hsame⟩
  · rw [hfalse]
    simp [hother]
  · rw [hsame]
    by_cases hlength : (extractDigits s).length = 9
    · have hne : extractDigits s ≠ [] := List.ne_nil_of_length_pos (by omega)
      rw [isdigit_extractDigits hne, List.zipWith_map_left]
      simp [hlength, hother, verdict_eq_valid, Agent.Validators.abaWeights,
        Server.Validators.abaWeights]
    · simp [hlength]

/-! ## Phone numbers -/

/-- The digits without a country code. -/
def nationalNumber (digits : StdString) : StdString :=
  if digits.length = 11 ∧ digits.head? = some 49 then digits.drop 1 else digits

theorem nationalNumber_eq_getD (digits : StdString) :
    (if digits.length = 11 ∧ digits.getD 0 0 = 49 then digits.drop 1 else digits) =
      nationalNumber digits := by
  cases digits <;> simp [nationalNumber]

theorem isDigit_of_mem_nationalNumber {digits : StdString} (h : ∀ c ∈ digits, isDigit c = true) :
    ∀ c ∈ nationalNumber digits, isDigit c = true := by
  intro c hc
  unfold nationalNumber at hc
  split at hc
  · exact h c (List.mem_of_mem_drop hc)
  · exact h c hc

/-- Three digits are below 200 exactly when they start with 0 or 1. -/
theorem digitsValue_lt_200_iff {a b c : UInt8} (hb : isDigit b = true) (hc : isDigit c = true)
    (ha : isDigit a = true) : digitsValue [a, b, c] < 200 ↔ a = 48 ∨ a = 49 := by
  rw [isDigit_iff] at ha hb hc
  simp only [digitsValue, List.foldl_cons, List.foldl_nil, ← UInt8.toNat_inj, UInt8.toNat_ofNat]
  omega

/-- The agent lets an exchange start with 1. -/
theorem phoneFormat_iff {s : StdString} :
    phoneFormat s = true ↔
      validateUSPhone s = .valid ∧ (nationalNumber (extractDigits s)).getD 3 0 ≠ 49 := by
  have hdigits := isDigit_of_mem_nationalNumber (isDigit_of_mem_extractDigits (s := s))
  unfold phoneFormat validateUSPhone
  dsimp only
  have hserver : (if (s.filter isDigit).length = 11 ∧ (s.filter isDigit).head? = some 49 then
      (s.filter isDigit).drop 1 else s.filter isDigit) = nationalNumber (extractDigits s) := rfl
  rw [nationalNumber_eq_getD, hserver]
  generalize nationalNumber (extractDigits s) = number at hdigits
  by_cases hlength : number.length = 10
  · match number, hlength with
    | [a, b, c, d, e, f, g, h, i, j], _ =>
        simp only [List.forall_mem_cons] at hdigits
        obtain ⟨ha, hb, hc, hd, he, hf, -⟩ := hdigits
        have harea := digitsValue_lt_200_iff hb hc ha
        have hexchange := digitsValue_lt_200_iff he hf hd
        simp [harea, hexchange]
        grind
  · simp [hlength]

/-! ## Account numbers -/

theorem isDigit_toUpper (c : UInt8) : isDigit (toUpper c) = isDigit c := by
  rw [Bool.eq_iff_iff, isDigit_iff, isDigit_iff, toNat_toUpper]
  split <;> omega

theorem isAlpha_toUpper (c : UInt8) : isAlpha (toUpper c) = isAlpha c := by
  rw [Bool.eq_iff_iff, isAlpha_iff, isAlpha_iff, toNat_toUpper]
  split <;> omega

theorem toUpper_of_isDigit {c : UInt8} (h : isDigit c = true) : toUpper c = c := by
  rw [isDigit_iff] at h
  rw [← UInt8.toNat_inj, toNat_toUpper, if_neg (by omega)]

/-- The number of a letter is that of its capital, and no alphanumeric character is
refused. -/
theorem ibanNumeric_map_toUpper {s : StdString} (h : ∀ c ∈ s, isAlnum c = true) :
    ibanNumeric (s.map toUpper) = some (s.flatMap ibanDigits) := by
  induction s with
  | nil => rfl
  | cons c rest ih =>
      rw [List.forall_mem_cons] at h
      rw [List.map_cons, ibanNumeric, isDigit_toUpper, isAlpha_toUpper, ih h.2, List.flatMap_cons,
        ibanDigits]
      cases hdigit : isDigit c with
      | true =>
          rw [toUpper_of_isDigit hdigit]
          rfl
      | false =>
          have halpha : isAlpha c = true := by
            rw [isAlnum_iff, hdigit] at h
            simpa using h.1
          have hnumber : toStdString (((toUpper c).toNat : Int) - 65 + 10) =
              decimal ((toUpper c).toNat - 65 + 10) := by
            have hlow : 65 ≤ (toUpper c).toNat := by
              rw [← isAlpha_toUpper, isAlpha_iff] at halpha
              omega
            rw [toStdString, if_neg (by omega)]
            congr 1
            omega
          rw [halpha, hnumber]
          rfl

theorem isAlnum_of_ibanNumeric {s : StdString} (h : (ibanNumeric s).isSome) :
    ∀ c ∈ s, isAlnum c = true := by
  induction s with
  | nil => simp
  | cons c rest ih =>
      rw [ibanNumeric] at h
      split at h
      · rename_i hc
        rw [List.forall_mem_cons, isAlnum_iff]
        exact ⟨Or.inl hc, ih (by rwa [Option.isSome_map] at h)⟩
      · split at h
        · rename_i hc
          rw [List.forall_mem_cons, isAlnum_iff]
          exact ⟨Or.inr hc, ih (by rwa [Option.isSome_map] at h)⟩
        · cases h

/-- Taking remainders on the way changes nothing. -/
theorem foldl_remainder (m : Nat) (numeric : StdString) (r : Nat) :
    numeric.foldl (fun r c => (r * 10 + (c.toNat - 48)) % m) (r % m) =
      numeric.foldl (fun n c => 10 * n + (c.toNat - 48)) r % m := by
  induction numeric generalizing r with
  | nil => rfl
  | cons c rest ih =>
      have hstep : (r % m * 10 + (c.toNat - 48)) % m = (10 * r + (c.toNat - 48)) % m := by
        rw [Nat.add_mod, Nat.mul_mod, Nat.mod_mod, ← Nat.mul_mod, ← Nat.add_mod, Nat.mul_comm]
      rw [List.foldl_cons, List.foldl_cons, hstep, ih]

theorem remainder_eq (numeric : StdString) :
    numeric.foldl (fun r c => (r * 10 + (c.toNat - 48)) % 97) 0 = digitsValue numeric % 97 :=
  foldl_remainder 97 numeric 0

/-- What the removal of white space leaves of an accepted number is alphanumeric. -/
theorem not_hasOther_of_ibanMod97 {s : StdString} (h : ibanMod97 s = true) :
    ¬ HasOther (fun c => isAlnum c || isPySpace c) s := by
  unfold ibanMod97 at h
  dsimp only at h
  generalize hclean : (s.filter fun c => !isPySpace c).map toUpper = clean at h
  have hnumeric : (ibanNumeric (clean.drop 4 ++ clean.take 4)).isSome := by
    split at h
    · cases h
    · split at h
      · cases h
      · split at h
        · cases h
        · rename_i heq
          rw [heq]
          rfl
  rw [not_hasOther_iff]
  intro c hc
  cases hspace : isPySpace c with
  | true => rw [Bool.or_true]
  | false =>
      have hmem : toUpper c ∈ clean := by
        rw [← hclean]
        exact List.mem_map_of_mem (List.mem_filter.mpr ⟨hc, by rw [hspace, Bool.not_false]⟩)
      have halnum := isAlnum_of_ibanNumeric hnumeric (toUpper c) (by
        rw [List.mem_append, or_comm, ← List.mem_append, List.take_append_drop]
        exact hmem)
      rw [isAlnum_iff, isDigit_toUpper, isAlpha_toUpper, ← isAlnum_iff] at halnum
      rw [halnum, Bool.true_or]

theorem ibanMod97_iff {s : StdString} :
    ibanMod97 s = true ↔
      validateIBAN s = .valid ∧ ¬ HasOther (fun c => isAlnum c || isPySpace c) s := by
  by_cases hother : HasOther (fun c => isAlnum c || isPySpace c) s
  · exact iff_of_false (fun h => not_hasOther_of_ibanMod97 h hother) (fun h => h.2 hother)
  · have hsame : (s.filter fun c => !isPySpace c) = extractAlnum s :=
      filter_not_eq_filter (fun c => isPySpace_of_isAlnum) hother
    have halnum : ∀ c ∈ extractAlnum s, isAlnum c = true := fun c hc => (List.mem_filter.mp hc).2
    unfold ibanMod97 validateIBAN
    dsimp only
    rw [hsame]
    generalize extractAlnum s = alnum at halnum
    rw [List.length_map]
    by_cases hlength : alnum.length < 5 ∨ 34 < alnum.length
    · rw [if_pos hlength, if_pos hlength]
      simp
    · rw [if_neg hlength, if_neg hlength]
      match alnum, hlength with
      | [], hlength => exact absurd (by simp) hlength
      | [_], hlength => exact absurd (by simp) hlength
      | [_, _], hlength => exact absurd (by simp) hlength
      | [_, _, _], hlength => exact absurd (by simp) hlength
      | a :: b :: c :: d :: rest, _ =>
          have hnumeric : ibanNumeric (rest.map toUpper ++ [toUpper a, toUpper b, toUpper c,
              toUpper d]) = some ((rest ++ [a, b, c, d]).flatMap ibanDigits) := by
            have h := ibanNumeric_map_toUpper (s := rest ++ [a, b, c, d]) (by
              intro x hx
              apply halnum
              simp only [List.mem_append, List.mem_cons, List.not_mem_nil, or_false] at hx ⊢
              grind)
            simpa using h
          simp only [List.map_cons, List.drop_succ_cons, List.drop_zero, List.take_succ_cons,
            List.take_zero, hnumeric, remainder_eq]
          simp [isalpha, isdigit, isAlpha_toUpper, isDigit_toUpper, hother]
          cases isAlpha a <;> cases isAlpha b <;> cases isDigit c <;> cases isDigit d <;>
            simp [verdict_eq_valid]

/-! ## The remainder of an account number -/

/-- The agent's remainder after the digits `read`. -/
def ibanRemainder (read : StdString) : Nat :=
  read.foldl (fun remainder c => (remainder * 10 + (c.toNat - 48)) % 97) 0

/-- What the agent takes the remainder of at the next digit. -/
def ibanIntermediate (read : StdString) (c : UInt8) : Nat :=
  ibanRemainder read * 10 + (c.toNat - 48)

theorem ibanRemainder_append_singleton (read : StdString) (c : UInt8) :
    ibanRemainder (read ++ [c]) = ibanIntermediate read c % 97 := by
  simp [ibanRemainder, ibanIntermediate]

/-- A remainder is left by the last digit read, or nothing has been read. -/
theorem ibanRemainder_lt (read : StdString) : ibanRemainder read < 97 := by
  induction read using List.reverseRecOn with
  | nil => decide
  | append_singleton read c _ =>
      rw [ibanRemainder_append_singleton]
      exact Nat.mod_lt _ (by decide)

theorem isDigit_of_mem_ibanDigits {c : UInt8} (h : isAlnum c = true) :
    ∀ d ∈ ibanDigits c, isDigit d = true := by
  intro d hd
  unfold ibanDigits at hd
  split at hd
  · rename_i hc
    rwa [List.mem_singleton.mp hd]
  · rename_i hc
    -- A letter is not below `A`, so its number has no sign.
    have halpha : isAlpha c = true := (isAlnum_iff.mp h).resolve_left hc
    rw [← isAlpha_toUpper, isAlpha_iff] at halpha
    rw [toStdString, if_neg (by omega)] at hd
    exact Agent.isDigit_of_mem_decimal d hd

theorem ibanIntermediate_lt {c : UInt8} (h : isDigit c = true) (read : StdString) :
    ibanIntermediate read c < 970 := by
  have hremainder := ibanRemainder_lt read
  rw [isDigit_iff] at h
  unfold ibanIntermediate
  omega

theorem iban_remainders_coincide (s : StdString) (h : ∀ c ∈ s, isAlnum c = true) :
    let numeric := (s.drop 4 ++ s.take 4).flatMap ibanDigits
    ibanNumeric ((s.map toUpper).drop 4 ++ (s.map toUpper).take 4) = some numeric ∧
    (∀ read c unread, numeric = read ++ c :: unread → ibanIntermediate read c < 970) ∧
    ibanRemainder numeric = digitsValue numeric % 97 ∧
    (validateIBAN s = .valid ↔ ibanMod97 s = true) := by
  have hrearranged : ∀ c ∈ s.drop 4 ++ s.take 4, isAlnum c = true := by
    intro c hc
    rw [List.mem_append] at hc
    exact h c (hc.elim List.mem_of_mem_drop List.mem_of_mem_take)
  refine ⟨?_, ?_, remainder_eq _, ?_⟩
  · rw [← List.map_drop, ← List.map_take, ← List.map_append]
    exact ibanNumeric_map_toUpper hrearranged
  · intro read c unread heq
    apply ibanIntermediate_lt
    have hmem : c ∈ (s.drop 4 ++ s.take 4).flatMap ibanDigits := by
      rw [heq]
      exact List.mem_append_right _ List.mem_cons_self
    obtain ⟨letter, hletter, hc⟩ := List.mem_flatMap.mp hmem
    exact isDigit_of_mem_ibanDigits (hrearranged letter hletter) c hc
  · have hother : ¬ HasOther (fun c => isAlnum c || isPySpace c) s := by
      rw [not_hasOther_iff]
      intro c hc
      rw [h c hc, Bool.true_or]
    rw [ibanMod97_iff]
    exact (and_iff_left hother).symm

theorem iban_remainders_coincide_GB82 :
    let numeric := ((str "GB82west12345698765432").drop 4 ++
      (str "GB82west12345698765432").take 4).flatMap ibanDigits
    ibanRemainder numeric = digitsValue numeric % 97 ∧
    (validateIBAN (str "GB82west12345698765432") = .valid ↔
      ibanMod97 (str "GB82west12345698765432") = true) :=
  (iban_remainders_coincide (str "GB82west12345698765432") (by decide +kernel)).2.2

end AkesoDlp.Parity
