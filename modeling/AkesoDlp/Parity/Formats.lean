import AkesoDlp.Parity.Checksums

/-!
# Format validators of agent and server

The validators that look at the whole candidate. Both trim it, but the server's `strip`
takes four more characters, and each side has checks that the other lacks.
-/

namespace AkesoDlp.Parity

open Lib
open Agent (StdString isDigit isAlpha isSpace trimmed lastLabel)
open Agent.Validators
open Server (isPySpace isdigit strip)
open Server.Validators (emailDomain rsplitAt passportFormat driversLicenseFormat)

/-- A separator `\x1c` to `\x1f`, which only the server strips. -/
def HasSeparator (s : StdString) : Prop := ∃ c ∈ s, 28 ≤ c ∧ c ≤ 31

instance (s : StdString) : Decidable (HasSeparator s) := inferInstanceAs (Decidable (∃ c ∈ s, _))

/-! ## Email addresses -/

/-- A dot or a hyphen at the start or the end of a domain. -/
def BadEdge (domain : StdString) : Prop :=
  domain.head? = some 46 ∨ domain.head? = some 45 ∨ domain.getLast? = some 46 ∨
    domain.getLast? = some 45

instance (domain : StdString) : Decidable (BadEdge domain) :=
  inferInstanceAs (Decidable (_ ∨ _))

/-- What the server takes and the agent does not: a second `@`, no local part, a long local
part, a dot or hyphen at the edge of the domain, or a last label that is white space but
for one character. -/
def EmailRefused (s : StdString) : Prop :=
  2 ≤ s.count 64 ∨ (trimmed s).head? = some 64 ∨
    64 < ((trimmed s).takeWhile (· != 64)).length ∨
    BadEdge ((trimmed s).dropWhile (· != 64)).tail ∨ (lastLabel (trimmed s)).length < 2

instance (s : StdString) : Decidable (EmailRefused s) := inferInstanceAs (Decidable (_ ∨ _))

theorem lastLabel_append {domain : StdString} (h : 46 ∈ domain) (front : StdString) :
    lastLabel (front ++ domain) = lastLabel domain := by
  obtain ⟨left, right, rfl, hright⟩ := exists_last_separator h
  rw [lastLabel, lastLabel, lastField_append hright, ← List.append_assoc, lastField_append hright]

theorem emailDomain_append {domain : StdString} (h : 64 ∉ domain) (localPart : StdString) :
    emailDomain (localPart ++ 64 :: domain) = true ↔
      localPart ≠ [] ∧ 46 ∈ domain ∧ 2 ≤ (lastLabel domain).length ∧
        (lastLabel domain).length ≤ 63 := by
  have hsplit : rsplitAt (localPart ++ 64 :: domain) = (localPart, domain) := by
    have hreverse : (localPart ++ 64 :: domain).reverse =
        domain.reverse ++ 64 :: localPart.reverse := by simp
    have hnot : (64 : UInt8) ∉ domain.reverse := fun hmem => h (List.mem_reverse.mp hmem)
    rw [rsplitAt, hreverse, dropWhile_ne_append hnot, takeWhile_ne_append hnot, List.tail_cons,
      List.reverse_reverse, List.reverse_reverse]
  unfold emailDomain
  rw [hsplit]
  dsimp only
  by_cases hdot : 46 ∈ domain
  · obtain ⟨front, label, rfl, hlabel⟩ := exists_last_separator hdot
    obtain ⟨hlast, hlength⟩ := splitOn_last hlabel front
    rw [hlast, lastLabel, lastField_append hlabel, Option.getD_some]
    simp only [List.mem_append, List.mem_cons, true_or, or_true]
    grind
  · have hone : domain.splitOn 46 = [domain] := List.splitOn_eq_singleton hdot
    rw [hone]
    simp [hdot]

theorem validateEmail_of_trimmed {s localPart domain : StdString}
    (h : trimmed s = localPart ++ 64 :: domain) (hlocal : 64 ∉ localPart) :
    validateEmail s = .valid ↔
      localPart ≠ [] ∧ 64 ∉ domain ∧ localPart.length ≤ 64 ∧ 46 ∈ domain ∧ ¬ BadEdge domain ∧
        2 ≤ (lastLabel domain).length := by
  unfold validateEmail
  rw [h]
  dsimp only
  rw [takeWhile_ne_append hlocal, dropWhile_ne_append hlocal, List.tail_cons]
  have hdomain : 46 ∈ domain → domain ≠ [] := List.ne_nil_of_mem
  rw [if_neg (by simp)]
  unfold BadEdge
  grind

theorem not_validateEmail {s : StdString} (h : 64 ∉ trimmed s) : validateEmail s = .invalid := by
  have hrest : (trimmed s).dropWhile (· != 64) = [] := by
    rw [List.dropWhile_eq_nil_iff]
    intro c hc
    rw [bne_iff_ne]
    rintro rfl
    exact h hc
  unfold validateEmail
  dsimp only
  rw [hrest]
  simp

/-- White space is neither an `@` nor a dot. -/
theorem notMem_of_isSpace {run : StdString} (h : ∀ c ∈ run, isSpace c = true) :
    64 ∉ run ∧ 46 ∉ run := by
  constructor
  · intro hmem
    exact absurd (h 64 hmem) (by decide)
  · intro hmem
    exact absurd (h 46 hmem) (by decide)

/-- The server refuses an accepted address for the length of its last label only, with the
white space behind it. -/
theorem emailDomain_of_valid {s : StdString} (h : validateEmail s = .valid) :
    emailDomain s = true ↔ ¬ 63 < (lastLabel s).length := by
  obtain ⟨lead, trail, heq, hlead, htrail⟩ := exists_trim isSpace s
  obtain ⟨htrail64, htrail46⟩ := notMem_of_isSpace htrail
  have hat : 64 ∈ trimmed s := by
    by_contra hat
    rw [not_validateEmail hat] at h
    cases h
  obtain ⟨localPart, domain, hsplit, hlocal⟩ := List.eq_append_cons_of_mem hat
  obtain ⟨hne, hdomain, -, hdot, -, hlabel⟩ := (validateEmail_of_trimmed hsplit hlocal).mp h
  have hs : s = (lead ++ localPart) ++ 64 :: (domain ++ trail) := by
    show s = _
    conv => lhs; rw [heq]
    show lead ++ trimmed s ++ trail = _
    rw [hsplit]
    simp
  have hback : 64 ∉ domain ++ trail := by
    rw [List.mem_append]
    exact fun hmem => hmem.elim hdomain htrail64
  have hdot' : 46 ∈ domain ++ trail := List.mem_append_left _ hdot
  -- the label of the address as a whole ends with the white space behind it
  have hwhole : lastLabel s = lastLabel (domain ++ trail) := by
    rw [hs, List.append_cons, lastLabel_append hdot']
  have hlonger : (lastLabel domain).length ≤ (lastLabel (domain ++ trail)).length := by
    obtain ⟨front, label, rfl, hfront⟩ := exists_last_separator hdot
    have hboth : 46 ∉ label ++ trail := by
      rw [List.mem_append]
      exact fun hmem => hmem.elim hfront htrail46
    rw [List.append_assoc, List.cons_append, lastLabel, lastLabel, lastField_append hfront,
      lastField_append hboth, List.length_append]
    omega
  have hserver := emailDomain_append hback (lead ++ localPart)
  rw [← hs] at hserver
  rw [hserver, hwhole]
  have hlocalne : lead ++ localPart ≠ [] := List.append_ne_nil_of_right_ne_nil _ hne
  constructor
  · rintro ⟨-, -, -, hshort⟩
    omega
  · intro hshort
    exact ⟨hlocalne, hdot', by omega, by omega⟩

theorem mem_of_emailDomain {s : StdString} (h : emailDomain s = true) : 64 ∈ s := by
  by_contra hmem
  have hfalse : emailDomain s = false := by
    unfold emailDomain
    simp [hmem]
  rw [hfalse] at h
  cases h

/-- Trimming takes no character that is not white space. -/
theorem count_trimmed {c : UInt8} (hc : isSpace c = false) (s : StdString) :
    s.count c = (trimmed s).count c := by
  obtain ⟨lead, trail, heq, hlead, htrail⟩ := exists_trim isSpace s
  have hnone : ∀ space : StdString, (∀ x ∈ space, isSpace x = true) → space.count c = 0 := by
    intro space hspace
    rw [List.count_eq_zero]
    intro hmem
    exact Bool.false_ne_true (hc.symm.trans (hspace c hmem))
  conv => lhs; rw [heq]
  rw [List.count_append, List.count_append, hnone lead hlead, hnone trail htrail, Nat.zero_add,
    Nat.add_zero]
  rfl

/-- What the agent refuses, by the parts at the first `@`. -/
theorem emailRefused_iff {s localPart domain : StdString}
    (h : trimmed s = localPart ++ 64 :: domain) (hlocal : 64 ∉ localPart) :
    EmailRefused s ↔
      64 ∈ domain ∨ localPart = [] ∨ 64 < localPart.length ∨ BadEdge domain ∨
        (lastLabel (localPart ++ 64 :: domain)).length < 2 := by
  have hcount : s.count 64 = 1 + domain.count 64 := by
    rw [count_trimmed (by decide) s, h, List.count_append, List.count_cons_self,
      List.count_eq_zero_of_not_mem hlocal]
    omega
  have hsecond : 2 ≤ s.count 64 ↔ 64 ∈ domain := by
    rw [hcount, ← List.count_pos_iff]
    omega
  have hhead : (localPart ++ 64 :: domain).head? = some 64 ↔ localPart = [] := by
    cases localPart with
    | nil => simp
    | cons c rest =>
        rw [List.cons_append, List.head?_cons, Option.some_inj]
        refine iff_of_false ?_ (List.cons_ne_nil _ _)
        rintro rfl
        exact hlocal List.mem_cons_self
  rw [EmailRefused, hsecond, h, hhead, takeWhile_ne_append hlocal, dropWhile_ne_append hlocal,
    List.tail_cons]

theorem validateEmail_of_emailDomain {s : StdString} (h : emailDomain s = true) :
    validateEmail s = .valid ↔ ¬ EmailRefused s := by
  have hat : 64 ∈ trimmed s := mem_trim (mem_of_emailDomain h) (by decide)
  obtain ⟨localPart, domain, hsplit, hlocal⟩ := List.eq_append_cons_of_mem hat
  rw [validateEmail_of_trimmed hsplit hlocal, emailRefused_iff hsplit hlocal]
  by_cases hdomain : 64 ∈ domain
  · -- a second `@`
    exact iff_of_false (fun hvalid => hvalid.2.1 hdomain) (fun hnot => hnot (Or.inl hdomain))
  · obtain ⟨lead, trail, heq, hlead, htrail⟩ := exists_trim isSpace s
    obtain ⟨htrail64, htrail46⟩ := notMem_of_isSpace htrail
    have hs : s = lead ++ trimmed s ++ trail := heq
    have hback : 64 ∉ domain ++ trail := by
      rw [List.mem_append]
      exact fun hmem => hmem.elim hdomain htrail64
    have hserver := emailDomain_append hback (lead ++ localPart)
    have hwhole : lead ++ localPart ++ 64 :: (domain ++ trail) = s := by
      rw [hs, hsplit]
      simp
    rw [hwhole] at hserver
    obtain ⟨-, hdot, -, -⟩ := hserver.mp h
    have hdot : 46 ∈ domain := (List.mem_append.mp hdot).resolve_right htrail46
    have hlabel : lastLabel (localPart ++ 64 :: domain) = lastLabel domain := by
      rw [List.append_cons, lastLabel_append hdot]
    rw [hlabel]
    constructor
    · rintro ⟨hne, -, hshort, -, hedge, htwo⟩ (h2 | hnil | hlong | hbad | hone)
      · exact hdomain h2
      · exact hne hnil
      · omega
      · exact hedge hbad
      · omega
    · intro hnot
      simp only [not_or] at hnot
      obtain ⟨-, hne, hshort, hedge, htwo⟩ := hnot
      exact ⟨hne, hdomain, by omega, hdot, hedge, by omega⟩

/-! ## What both trim -/

theorem isPySpace_of_isSpace {c : UInt8} (h : isSpace c = true) : isPySpace c = true := by
  rw [Server.isPySpace, h, Bool.true_or]

/-- A separator is what only the server takes for white space. -/
theorem isPySpace_iff {c : UInt8} :
    isPySpace c = true ↔ isSpace c = true ∨ (28 ≤ c ∧ c ≤ 31) := by
  simp [Server.isPySpace]

theorem isSpace_of_separator {c : UInt8} (h : 28 ≤ c ∧ c ≤ 31) : isSpace c = false := by
  simp only [Agent.isSpace, Bool.or_eq_false_iff, beq_eq_false_iff_ne, Bool.and_eq_false_iff,
    decide_eq_false_iff_not, UInt8.le_iff_toNat_le, ne_eq, ← UInt8.toNat_inj] at h ⊢
  simp only [UInt8.toNat_ofNat] at h ⊢
  omega

/-- Where the agent leaves no white space, the server strips the same. -/
theorem strip_eq_trimmed {s : StdString} (h : ∀ c ∈ trimmed s, isPySpace c = false) :
    strip s = trimmed s ∧ ¬ HasSeparator s := by
  constructor
  · refine trim_eq_of_subset (fun c => isPySpace_of_isSpace) ?_
    constructor
    case head => exact fun c hc => h c (List.mem_of_mem_head? hc)
    case last => exact fun c hc => h c (List.mem_of_mem_getLast? hc)
  · rintro ⟨c, hc, hseparator⟩
    have hmem : c ∈ trimmed s := mem_trim hc (isSpace_of_separator hseparator)
    have hspace := isPySpace_iff.mpr (Or.inr hseparator)
    exact absurd (hspace.symm.trans (h c hmem)) (by decide)

theorem trimmed_eq_strip {s : StdString} (h : ¬ HasSeparator s) : trimmed s = strip s := by
  refine trim_eq_of_agree fun c hc => ?_
  rw [Bool.eq_iff_iff, isPySpace_iff]
  refine ⟨Or.inl, fun hspace => hspace.resolve_right fun hseparator => h ⟨c, hc, hseparator⟩⟩

/-! ## Passports -/

/-- What the server takes and the agent does not: no letter, a ninth digit after it, or a
separator. -/
def PassportRefused (s : StdString) : Prop :=
  isAlpha ((strip s).getD 0 0) = false ∨ (strip s).length ≠ 9 ∨ HasSeparator s

instance (s : StdString) : Decidable (PassportRefused s) :=
  inferInstanceAs (Decidable (_ ∨ _))

theorem validateUSPassport_iff {s : StdString} :
    validateUSPassport s = .valid ↔
      ∃ letter digits, trimmed s = letter :: digits ∧ isAlpha letter = true ∧
        digits.length = 8 ∧ ∀ c ∈ digits, isDigit c = true := by
  unfold validateUSPassport
  dsimp only
  cases trimmed s with
  | nil => simp
  | cons letter digits =>
      by_cases hlength : digits.length = 8
      · cases halpha : isAlpha letter <;> simp [hlength, halpha, verdict_eq_valid]
      · simp [hlength]

theorem passportFormat_of_valid {s : StdString} (h : validateUSPassport s = .valid) :
    passportFormat s = true ∧ ¬ PassportRefused s := by
  obtain ⟨letter, digits, htrimmed, halpha, hlength, hdigits⟩ := validateUSPassport_iff.mp h
  have hspace : ∀ c ∈ trimmed s, isPySpace c = false := by
    intro c hc
    rw [htrimmed] at hc
    apply isPySpace_of_isAlnum
    rw [isAlnum_iff]
    rcases List.mem_cons.mp hc with rfl | hc
    · exact Or.inr halpha
    · exact Or.inl (hdigits c hc)
  obtain ⟨hstrip, hseparator⟩ := strip_eq_trimmed hspace
  rw [htrimmed] at hstrip
  have hne : digits ≠ [] := List.ne_nil_of_length_pos (by omega)
  constructor
  · unfold passportFormat
    rw [hstrip]
    simp [halpha, isdigit_iff, hne, hlength]
    exact hdigits
  · rintro (hletter | hnine | hsep)
    · rw [hstrip] at hletter
      exact absurd (halpha.symm.trans hletter) (by decide)
    · rw [hstrip, List.length_cons] at hnine
      omega
    · exact hseparator hsep

theorem validateUSPassport_of_passportFormat {s : StdString} (h : passportFormat s = true) :
    validateUSPassport s = .valid ↔ ¬ PassportRefused s := by
  refine ⟨fun hvalid => (passportFormat_of_valid hvalid).2, ?_⟩
  intro hnot
  simp only [PassportRefused, not_or, Bool.not_eq_false, not_not] at hnot
  obtain ⟨halpha, hlength, hseparator⟩ := hnot
  rw [validateUSPassport_iff, trimmed_eq_strip hseparator]
  unfold passportFormat at h
  cases hstrip : strip s with
  | nil =>
      rw [hstrip] at hlength
      cases hlength
  | cons letter digits =>
      rw [hstrip] at h halpha hlength
      have halpha : isAlpha letter = true := halpha
      refine ⟨letter, digits, rfl, halpha, Nat.succ.inj hlength, ?_⟩
      simp [halpha, isdigit_iff] at h
      exact h.1.1.2

/-! ## Driver licenses -/

/-- The agent's format: seven to thirteen digits, the first perhaps a letter. -/
def LicenseForm (s : StdString) : Prop :=
  7 ≤ (trimmed s).length ∧ (trimmed s).length ≤ 13 ∧
    (isAlpha ((trimmed s).getD 0 0) = true ∨ isDigit ((trimmed s).getD 0 0) = true) ∧
    ((trimmed s).drop 1).all isDigit = true

instance (s : StdString) : Decidable (LicenseForm s) := inferInstanceAs (Decidable (_ ∧ _))

theorem validateUSDriverLicense_iff {s : StdString} :
    validateUSDriverLicense s = .valid ↔ LicenseForm s := by
  unfold validateUSDriverLicense LicenseForm
  dsimp only
  generalize trimmed s = t
  by_cases hlength : t.length < 7 ∨ 13 < t.length
  · rw [if_pos hlength]
    exact iff_of_false (by decide) (by omega)
  · rw [if_neg hlength]
    cases t with
    | nil => simp at hlength
    | cons c rest =>
        rw [List.length_cons] at hlength ⊢
        have hshort : 7 ≤ rest.length + 1 := by omega
        have hlong : rest.length + 1 ≤ 13 := by omega
        rw [and_iff_right hshort, and_iff_right hlong]
        cases halpha : isAlpha c <;> simp [halpha, verdict_eq_valid]

/-- The server refuses an accepted number when all its digits are zero. -/
theorem driversLicenseFormat_of_valid {s : StdString} (h : validateUSDriverLicense s = .valid) :
    driversLicenseFormat s = true ↔ ¬ ∀ c ∈ s, isDigit c = true → c = 48 := by
  obtain ⟨hlong, -, -, hdigits⟩ := validateUSDriverLicense_iff.mp h
  -- the second character is a digit
  have hdigit : ∃ c ∈ strip s, isDigit c = true := by
    match htrimmed : trimmed s, hlong, hdigits with
    | _ :: c :: rest, _, hdigits =>
        have hc : isDigit c = true := List.all_eq_true.mp hdigits c (by simp)
        have hmem : c ∈ s := mem_of_mem_trim (p := isSpace) (by
          show c ∈ trimmed s
          rw [htrimmed]
          simp)
        exact ⟨c, mem_trim hmem (isPySpace_of_isDigit hc), hc⟩
  obtain ⟨c, hc, hisDigit⟩ := hdigit
  have hne : strip s ≠ [] := List.ne_nil_of_mem hc
  have hfilter : (strip s).filter isDigit = s.filter isDigit := by
    refine filter_trim ?_ s
    intro c hspace
    rw [Bool.eq_false_iff]
    intro hdigit
    exact absurd (hspace.symm.trans (isPySpace_of_isDigit hdigit)) (by decide)
  have hsome : s.filter isDigit ≠ [] :=
    hfilter ▸ List.ne_nil_of_mem (List.mem_filter.mpr ⟨hc, hisDigit⟩)
  unfold driversLicenseFormat
  dsimp only
  rw [if_neg hne, hfilter]
  simp only [ne_eq, hsome, not_false_eq_true, true_and, List.all_filter]
  simp

end AkesoDlp.Parity
