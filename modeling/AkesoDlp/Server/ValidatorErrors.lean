import AkesoDlp.Lib.Raises
import AkesoDlp.Lib.Utf16
import AkesoDlp.Server.UnicodeValidators

/-!
# Which candidates the validators stumble over

A validator raises on a candidate exactly if it gets as far as `int` with a digit that is not
decimal. Only four of the ten can.
-/

namespace AkesoDlp.Server.UnicodeValidators

open Lib (trim Raises)
open Inspector (PyStr)

section

variable (t : CharTables)

/-- Only digits, one of which is not decimal. -/
def CharTables.OddDigits (digits : PyStr) : Prop :=
  t.isdigitStr digits = true ∧ ∃ c ∈ digits, t.decimal c = none

/-- What is left of a candidate of `iban_mod97`. -/
def ibanClean (value : PyStr) : PyStr :=
  (value.filter fun c => !t.isspace c).flatMap t.upper

/-- The kinds of candidates that a validator raises on. -/
def BuiltinValidator.Stumbles : BuiltinValidator → PyStr → Prop
  | luhn, value =>
      let digits := value.filter fun c => !(t.isspace c || c == '-')
      t.OddDigits digits ∧ 13 ≤ digits.length
  | ssnArea, value =>
      let digits := value.filter fun c => !(t.isspace c || c == '-')
      t.OddDigits digits ∧ digits.length = 9
  | abaChecksum, value =>
      let digits := value.filter fun c => !t.isspace c
      t.OddDigits digits ∧ digits.length = 9
  | ibanMod97, value =>
      let clean := ibanClean t value
      5 ≤ clean.length ∧ clean.length ≤ 34 ∧ t.isalphaStr (clean.take 2) = true ∧
        t.isdigitStr ((clean.drop 2).take 2) = true ∧
        (∀ c ∈ clean, t.isdigit c = true ∨ t.isalpha c = true) ∧
        ∃ c ∈ clean, t.isdigit c = true ∧ t.decimal c = none
  | _, _ => False

end

variable {t : CharTables}

/-! ## `int` of digits -/

theorem isdigit_ne {c d : Char} (hc : t.isdigit c = true) (hd : d.toNat < 128)
    (hnot : d.isDigit = false) : c ≠ d := by
  rintro rfl
  rw [t.isdigit_ascii c hd, hnot] at hc
  cases hc

theorem not_intSpace_of_isdigit {c : Char} (h : t.isdigit c = true) : t.intSpace c = false := by
  unfold CharTables.intSpace
  split
  · next hlt =>
      have hspace := t.not_isspace_of_isdigit c h
      rw [t.isspace_ascii c (by omega), isPySpace, Bool.or_eq_false_iff] at hspace
      exact hspace.1
  · exact t.not_isspace_of_isdigit c h

/-- Digits are taken as they stand. -/
theorem pyInt_digits {s : PyStr} (hne : s ≠ []) (hdigits : ∀ c ∈ s, t.isdigit c = true)
    (hlength : s.length ≤ maxStrDigits) :
    pyInt t s =
      if s.all t.isdecimal = true then .ok (t.digitsValue s) else .error (intError s) := by
  obtain ⟨c, rest, rfl⟩ := List.exists_cons_of_ne_nil hne
  have hc := hdigits c List.mem_cons_self
  have htrim : trim t.intSpace (c :: rest) = c :: rest := by
    refine Lib.trim_of_trimmed ⟨?_, ?_⟩
    · intro x hx
      exact not_intSpace_of_isdigit (hdigits x (List.mem_of_mem_head? hx))
    · intro x hx
      exact not_intSpace_of_isdigit (hdigits x (List.mem_of_mem_getLast? hx))
  have hsplit : (c :: rest).splitOn '_' = [c :: rest] := by
    apply List.splitOn_eq_singleton
    intro hmem
    exact isdigit_ne (hdigits '_' hmem) (by decide) (by decide) rfl
  have hread : t.intDigits (c :: rest) =
      if (c :: rest).all t.isdecimal = true then some (t.digitsValue (c :: rest)) else none := by
    unfold CharTables.intDigits
    rw [hsplit]
    simp only [List.all_cons, List.all_nil, List.isEmpty_cons, Bool.not_false, Bool.true_and,
      Bool.and_true, List.flatten_cons, List.flatten_nil, List.append_nil, hlength, decide_true]
    rfl
  unfold pyInt
  rw [htrim]
  split
  · next heq => exact absurd (List.cons.inj heq).1 (isdigit_ne hc (by decide) (by decide))
  · next heq => exact absurd (List.cons.inj heq).1 (isdigit_ne hc (by decide) (by decide))
  · rw [signedInt, hread]
    by_cases hall : (c :: rest).all t.isdecimal = true
    · rw [if_pos hall, if_pos hall]
      exact congrArg Except.ok (Int.one_mul _)
    · rw [if_neg hall, if_neg hall]

/-- `int` raises on digits that are not all decimal. -/
theorem raises_pyInt {s : PyStr} (hne : s ≠ []) (hdigits : ∀ c ∈ s, t.isdigit c = true)
    (hlength : s.length ≤ maxStrDigits) :
    Raises (pyInt t s) ↔ ∃ c ∈ s, t.decimal c = none := by
  have hall : s.all t.isdecimal = true ↔ ¬ ∃ c ∈ s, t.decimal c = none := by
    simp [CharTables.isdecimal, Option.isSome_iff_ne_none]
  rw [pyInt_digits hne hdigits hlength]
  by_cases h : s.all t.isdecimal = true
  · rw [if_pos h]
    exact iff_of_false (Lib.not_raises_ok _) (hall.mp h)
  · rw [if_neg h]
    exact iff_of_true (Lib.raises_error _) (not_not.mp fun hno => h (hall.mpr hno))

theorem raises_pyInt_singleton {c : Char} (h : t.isdigit c = true) :
    Raises (pyInt t [c]) ↔ t.decimal c = none := by
  rw [raises_pyInt (List.cons_ne_nil _ _) (by simpa using h) (by simp [maxStrDigits])]
  simp

/-! ## The validators that check `isdigit` -/

theorem isdigitStr_iff {s : PyStr} :
    t.isdigitStr s = true ↔ s ≠ [] ∧ ∀ c ∈ s, t.isdigit c = true := by
  simp [CharTables.isdigitStr]

/-- The guard of a validator lets a text pass. -/
theorem not_skipped_iff {a b : Bool} : ¬ (!a || b) = true ↔ a = true ∧ b = false := by
  simp

theorem raises_luhnStep {total : Int} {entry : Char × Nat} (h : t.isdigit entry.1 = true) :
    Raises (luhnStep t total entry) ↔ t.decimal entry.1 = none := by
  rw [luhnStep, Lib.raises_bind_of_not, raises_pyInt_singleton h]
  intro n
  split
  · exact Lib.not_raises_pure _
  · exact Lib.not_raises_pure _

theorem raises_luhn {value : PyStr} :
    Raises (luhn t value) ↔ BuiltinValidator.luhn.Stumbles t value := by
  unfold luhn
  extract_lets digits
  change _ ↔ t.OddDigits digits ∧ 13 ≤ digits.length
  by_cases hskip : (!t.isdigitStr digits || decide (digits.length < 13)) = true
  · rw [if_pos hskip]
    refine iff_of_false (Lib.not_raises_ok _) ?_
    rintro ⟨⟨hdigit, -⟩, hlength⟩
    rw [hdigit, Bool.not_true, Bool.false_or, decide_eq_true_eq] at hskip
    omega
  · rw [if_neg hskip, Lib.raises_map]
    obtain ⟨hdigit, hshort⟩ := not_skipped_iff.mp hskip
    have hlength : 13 ≤ digits.length := Nat.not_lt.mp (of_decide_eq_false hshort)
    have hentries : ∀ entry ∈ digits.reverse.zipIdx, t.isdigit entry.1 = true := fun entry h =>
      (isdigitStr_iff.mp hdigit).2 _ (List.mem_reverse.mp (List.fst_mem_of_mem_zipIdx h))
    have hloop : Raises (digits.reverse.zipIdx.foldlM (luhnStep t) 0) ↔
        ∃ entry ∈ digits.reverse.zipIdx, t.decimal entry.1 = none :=
      Lib.raises_foldlM 0 fun entry h total => raises_luhnStep (hentries entry h)
    rw [hloop]
    constructor
    · rintro ⟨entry, hmem, hodd⟩
      exact ⟨⟨hdigit, entry.1, List.mem_reverse.mp (List.fst_mem_of_mem_zipIdx hmem), hodd⟩,
        hlength⟩
    · rintro ⟨⟨-, c, hmem, hodd⟩, -⟩
      rw [← List.mem_reverse, ← List.zipIdx_map_fst 0 digits.reverse] at hmem
      obtain ⟨entry, hentry, rfl⟩ := List.mem_map.mp hmem
      exact ⟨entry, hentry, hodd⟩

/-- The guard of the two validators that take nine digits. -/
theorem nine_digits {digits : PyStr} (h : ¬ (!t.isdigitStr digits || digits.length != 9) = true) :
    t.isdigitStr digits = true ∧ digits.length = 9 := by
  obtain ⟨hdigit, hlength⟩ := not_skipped_iff.mp h
  exact ⟨hdigit, by simpa using hlength⟩

theorem not_oddDigits_of_skip {digits : PyStr}
    (h : (!t.isdigitStr digits || digits.length != 9) = true) :
    ¬ (t.OddDigits digits ∧ digits.length = 9) := by
  rintro ⟨⟨hdigit, -⟩, hlength⟩
  simp [hdigit, hlength] at h

theorem raises_ssnArea {value : PyStr} :
    Raises (ssnArea t value) ↔ BuiltinValidator.ssnArea.Stumbles t value := by
  unfold ssnArea
  extract_lets digits
  change _ ↔ t.OddDigits digits ∧ digits.length = 9
  by_cases hskip : (!t.isdigitStr digits || digits.length != 9) = true
  · rw [if_pos hskip]
    exact iff_of_false (Lib.not_raises_ok _) (not_oddDigits_of_skip hskip)
  · rw [if_neg hskip]
    obtain ⟨hdigit, hlength⟩ := nine_digits hskip
    have hall := (isdigitStr_iff.mp hdigit).2
    have hpart {part : PyStr} (hsub : part ⊆ digits) (hpos : 0 < part.length)
        (hle : part.length ≤ 9) : Raises (pyInt t part) ↔ ∃ c ∈ part, t.decimal c = none :=
      raises_pyInt (List.ne_nil_of_length_pos hpos) (fun c hc => hall c (hsub hc))
        (by unfold maxStrDigits; omega)
    have hcut : digits = digits.take 3 ++ ((digits.drop 3).take 2 ++ digits.drop 5) := by
      conv_lhs => rw [← List.take_append_drop 3 digits, ← List.take_append_drop 2 (digits.drop 3)]
      rw [List.drop_drop]
    have hchecks (area group serial : Int) : ¬ Raises
        (if area = 0 ∨ area = 666 ∨ 900 ≤ area then pure false
        else if group = 0 then pure false
        else if serial = 0 then pure false
        else pure true : Except String Bool) := by
      split_ifs <;> exact Lib.not_raises_pure _
    rw [Lib.raises_bind_of_iff fun area => Lib.raises_bind_of_iff fun group =>
        Lib.raises_bind_of_not fun serial => hchecks area group serial,
      hpart (List.take_subset _ _) (by simp [hlength]) (by simp [hlength]),
      hpart (List.Subset.trans (List.take_subset _ _) (List.drop_subset _ _))
        (by simp [hlength]) (by simp [hlength]),
      hpart (List.drop_subset _ _) (by simp [hlength]) (by simp [hlength])]
    have hexists : (∃ c ∈ digits, t.decimal c = none) ↔
        (∃ c ∈ digits.take 3, t.decimal c = none) ∨
          (∃ c ∈ (digits.drop 3).take 2, t.decimal c = none) ∨
          ∃ c ∈ digits.drop 5, t.decimal c = none := by
      conv_lhs => rw [hcut]
      simp only [List.mem_append, or_and_right, exists_or]
    rw [← hexists]
    exact ⟨fun h => ⟨⟨hdigit, h⟩, hlength⟩, fun h => h.1.2⟩

theorem raises_abaChecksum {value : PyStr} :
    Raises (abaChecksum t value) ↔ BuiltinValidator.abaChecksum.Stumbles t value := by
  unfold abaChecksum
  extract_lets digits
  change _ ↔ t.OddDigits digits ∧ digits.length = 9
  by_cases hskip : (!t.isdigitStr digits || digits.length != 9) = true
  · rw [if_pos hskip]
    exact iff_of_false (Lib.not_raises_ok _) (not_oddDigits_of_skip hskip)
  · rw [if_neg hskip, Lib.raises_map, Lib.raises_mapM]
    obtain ⟨hdigit, hlength⟩ := nine_digits hskip
    have hall := (isdigitStr_iff.mp hdigit).2
    have hodd : (∃ c ∈ digits, Raises (pyInt t [c])) ↔ ∃ c ∈ digits, t.decimal c = none :=
      exists_congr fun c => and_congr_right fun hc => raises_pyInt_singleton (hall c hc)
    rw [hodd]
    exact ⟨fun h => ⟨⟨hdigit, h⟩, hlength⟩, fun h => h.1.2⟩

/-! ## `iban_mod97` -/

theorem isdigit_of_mem_toDigits {c : Char} {n : Nat} (h : c ∈ Nat.toDigits 10 n) :
    t.isdigit c = true ∧ t.decimal c ≠ none := by
  have hc : c.isDigit = true := Nat.isDigit_of_mem_toDigits (by decide) (by decide) h
  have hlt : c.toNat < 128 := by
    have hle : c.toNat ≤ 57 := (Char.isDigit_iff_toNat.mp hc).2
    omega
  rw [t.isdigit_ascii c hlt, t.decimal_ascii c hlt, if_pos hc]
  exact ⟨hc, Option.some_ne_none _⟩

theorem length_toDigits_letter (ch : Char) :
    (Nat.toDigits 10 (ch.toNat - 65 + 10)).length ≤ 7 := by
  have hlt : ch.toNat < 0x110000 := Lib.Utf16.toNat_lt ch
  exact (Nat.length_toDigits_le_iff (by decide) (by decide)).mpr (by omega)

theorem ibanNumeric_eq_none_iff {s : PyStr} :
    ibanNumeric t s = none ↔ ∃ c ∈ s, t.isdigit c = false ∧ t.isalpha c = false := by
  induction s with
  | nil => simp [ibanNumeric]
  | cons ch rest ih =>
      rw [ibanNumeric, List.exists_mem_cons_iff, ← ih]
      by_cases hdigit : t.isdigit ch = true
      · simp [hdigit]
      · by_cases halpha : t.isalpha ch = true
        · simp [hdigit, halpha]
        · simp [hdigit, halpha]

/-- The numeric string is of digits, at most seven for each character, and the ones that are
not decimal come from the text. -/
theorem ibanNumeric_spec {s numeric : PyStr} (h : ibanNumeric t s = some numeric) :
    (∀ c ∈ numeric, t.isdigit c = true) ∧ numeric.length ≤ 7 * s.length ∧
      s.length ≤ numeric.length ∧
      ((∃ c ∈ numeric, t.decimal c = none) ↔ ∃ c ∈ s, t.isdigit c = true ∧ t.decimal c = none) := by
  induction s generalizing numeric with
  | nil =>
      cases h
      simp
  | cons ch rest ih =>
      rw [ibanNumeric] at h
      by_cases hdigit : t.isdigit ch = true
      · rw [if_pos hdigit] at h
        obtain ⟨tail, htail, rfl⟩ := Option.map_eq_some_iff.mp h
        obtain ⟨hdigits, hle, hge, hodd⟩ := ih htail
        refine ⟨?_, ?_, ?_, ?_⟩
        · simpa [hdigit] using hdigits
        · simp only [List.length_cons]
          omega
        · simp only [List.length_cons]
          omega
        · simp only [List.exists_mem_cons_iff, hodd, hdigit, true_and]
      · rw [if_neg hdigit] at h
        by_cases halpha : t.isalpha ch = true
        · rw [if_pos halpha] at h
          obtain ⟨tail, htail, rfl⟩ := Option.map_eq_some_iff.mp h
          obtain ⟨hdigits, hle, hge, hodd⟩ := ih htail
          have hletter := length_toDigits_letter ch
          have hpos : 0 < (Nat.toDigits 10 (ch.toNat - 65 + 10)).length := Nat.length_toDigits_pos
          refine ⟨?_, ?_, ?_, ?_⟩
          · intro c hc
            rcases List.mem_append.mp hc with hc | hc
            · exact (isdigit_of_mem_toDigits hc).1
            · exact hdigits c hc
          · simp only [List.length_cons, List.length_append]
            omega
          · simp only [List.length_cons, List.length_append]
            omega
          · rw [List.exists_mem_cons_iff, ← hodd]
            constructor
            · rintro ⟨c, hc, hnone⟩
              rcases List.mem_append.mp hc with hc | hc
              · exact absurd hnone (isdigit_of_mem_toDigits hc).2
              · exact .inr ⟨c, hc, hnone⟩
            · rintro (⟨hno, -⟩ | ⟨c, hc, hnone⟩)
              · exact absurd hno hdigit
              · exact ⟨c, List.mem_append_right _ hc, hnone⟩
        · rw [if_neg halpha] at h
          cases h

theorem raises_ibanMod97 {value : PyStr} :
    Raises (ibanMod97 t value) ↔ BuiltinValidator.ibanMod97.Stumbles t value := by
  unfold ibanMod97
  extract_lets clean
  change _ ↔ 5 ≤ clean.length ∧ clean.length ≤ 34 ∧ t.isalphaStr (clean.take 2) = true ∧
    t.isdigitStr ((clean.drop 2).take 2) = true ∧
    (∀ c ∈ clean, t.isdigit c = true ∨ t.isalpha c = true) ∧
    ∃ c ∈ clean, t.isdigit c = true ∧ t.decimal c = none
  by_cases hsize : clean.length < 5 ∨ 34 < clean.length
  · rw [if_pos hsize]
    refine iff_of_false (Lib.not_raises_ok _) ?_
    rintro ⟨hmin, hmax, -⟩
    omega
  rw [if_neg hsize]
  by_cases hhead : (!t.isalphaStr (clean.take 2) || !t.isdigitStr ((clean.drop 2).take 2)) = true
  · rw [if_pos hhead]
    refine iff_of_false (Lib.not_raises_ok _) ?_
    rintro ⟨-, -, halpha, hdigit, -⟩
    simp [halpha, hdigit] at hhead
  rw [if_neg hhead]
  have hmem (c : Char) : c ∈ clean.drop 4 ++ clean.take 4 ↔ c ∈ clean := by
    conv_rhs => rw [← List.take_append_drop 4 clean]
    rw [List.mem_append, List.mem_append, or_comm]
  have hlength : (clean.drop 4 ++ clean.take 4).length = clean.length := by
    rw [List.length_append, List.length_drop, List.length_take]
    omega
  cases hnumeric : ibanNumeric t (clean.drop 4 ++ clean.take 4) with
  | none =>
      obtain ⟨c, hc, hnot⟩ := ibanNumeric_eq_none_iff.mp hnumeric
      refine iff_of_false (Lib.not_raises_ok _) ?_
      rintro ⟨-, -, -, -, hall, -⟩
      have hkind := hall c ((hmem c).mp hc)
      simp [hnot] at hkind
  | some numeric =>
      obtain ⟨hdigits, hle, hge, hodd⟩ := ibanNumeric_spec hnumeric
      simp only [hmem] at hodd
      have hkinds : ∀ c ∈ clean, t.isdigit c = true ∨ t.isalpha c = true := by
        intro c hc
        by_contra hnot
        have hnone := ibanNumeric_eq_none_iff.mpr ⟨c, (hmem c).mpr hc, by simpa using hnot⟩
        rw [hnumeric] at hnone
        cases hnone
      change Raises (pyInt t numeric >>= fun n => pure (n % 97 == 1)) ↔ _
      rw [Lib.raises_map, raises_pyInt (List.ne_nil_of_length_pos (by omega)) hdigits
        (by unfold maxStrDigits; omega), hodd]
      simp only [Bool.or_eq_true, Bool.not_eq_true', not_or, Bool.not_eq_false] at hhead
      exact ⟨fun h => ⟨by omega, by omega, hhead.1, hhead.2, hkinds, h⟩, fun h => h.2.2.2.2.2⟩

/-! ## The others -/

/-- What `phone_format` converts has been filtered by `\d`. -/
theorem not_raises_phoneFormat {value : PyStr} : ¬ Raises (phoneFormat t value) := by
  unfold phoneFormat
  extract_lets kept digits
  split
  · exact Lib.not_raises_ok _
  · next hlength =>
      have hsub : digits ⊆ kept := by
        intro c hc
        simp only [digits] at hc
        split at hc
        · exact List.drop_subset _ _ hc
        · exact hc
      have hdecimal : ∀ c ∈ digits, t.isdecimal c = true := fun c hc =>
        (List.mem_filter.mp (hsub hc)).2
      have hpart {part : PyStr} (hpart : part ⊆ digits) (hpos : 0 < part.length)
          (hle : part.length ≤ 9) : ¬ Raises (pyInt t part) := by
        rw [raises_pyInt (List.ne_nil_of_length_pos hpos)
          (fun c hc => t.isdigit_of_decimal c (hdecimal c (hpart hc)))
          (by unfold maxStrDigits; omega)]
        rintro ⟨c, hc, hnone⟩
        have hsome := hdecimal c (hpart hc)
        rw [CharTables.isdecimal, hnone] at hsome
        cases hsome
      have hchecks (area exchange : Int) : ¬ Raises
          (if area < 200 ∨ exchange < 200 then pure false else pure true : Except String Bool) := by
        split
        · exact Lib.not_raises_pure _
        · exact Lib.not_raises_pure _
      have hten : digits.length = 10 := not_not.mp hlength
      rw [Lib.raises_bind_of_not fun area => ?_]
      · exact hpart (List.take_subset _ _) (by simp [hten]) (by simp [hten])
      · rw [Lib.raises_bind_of_not (hchecks area)]
        exact hpart (List.Subset.trans (List.take_subset _ _) (List.drop_subset _ _))
          (by simp [hten]) (by simp [hten])

theorem not_raises_emailDomain {value : PyStr} : ¬ Raises (emailDomain value) := by
  unfold emailDomain
  obtain ⟨localPart, domain⟩ := rsplitAt value
  dsimp only
  split_ifs <;> exact Lib.not_raises_ok _

/-- The errors of `int` are caught here. -/
theorem not_raises_ipv4Range {value : PyStr} : ¬ Raises (ipv4Range t value) := by
  unfold ipv4Range
  extract_lets parts
  split
  · exact Lib.not_raises_ok _
  · split
    · exact Lib.not_raises_ok _
    · split_ifs <;> exact Lib.not_raises_ok _

theorem not_raises_driversLicenseFormat {value : PyStr} :
    ¬ Raises (driversLicenseFormat t value) := by
  unfold driversLicenseFormat
  extract_lets clean digits
  split_ifs <;> exact Lib.not_raises_ok _

/-- A validator raises exactly on the candidates that it stumbles over. -/
theorem raises_run {v : BuiltinValidator} {value : PyStr} :
    Raises (v.run t value) ↔ v.Stumbles t value := by
  cases v with
  | luhn => exact raises_luhn
  | ssnArea => exact raises_ssnArea
  | abaChecksum => exact raises_abaChecksum
  | ibanMod97 => exact raises_ibanMod97
  | phoneFormat => exact iff_of_false not_raises_phoneFormat not_false
  | emailDomain => exact iff_of_false not_raises_emailDomain not_false
  | ipv4Range => exact iff_of_false not_raises_ipv4Range not_false
  | driversLicenseFormat => exact iff_of_false not_raises_driversLicenseFormat not_false
  | passportFormat => exact iff_of_false (Lib.not_raises_ok _) not_false
  | dateCalendar => exact iff_of_false (Lib.not_raises_ok _) not_false

end AkesoDlp.Server.UnicodeValidators
