import AkesoDlp.Lib.Lists
import AkesoDlp.Lib.Trim
import AkesoDlp.Server.ValidatorErrors

/-!
# The validators agree on ASCII

On ASCII text the validators on characters are the ones on bytes, and none of them raises.
-/

namespace AkesoDlp.Server.UnicodeValidators

open Lib (trim)
open Inspector (PyStr)
open Validators (DateFormat)

/-- The characters of an ASCII string. -/
def text (s : AsciiStr) : PyStr := s.map Char.ofUInt8

def IsAscii (s : AsciiStr) : Prop := ∀ c ∈ s, c < 128

/-- The validators on bytes. -/
def BuiltinValidator.runAscii : BuiltinValidator → AsciiStr → Bool
  | luhn => Validators.luhn
  | ssnArea => Validators.ssnArea
  | phoneFormat => Validators.phoneFormat
  | emailDomain => Validators.emailDomain
  | ibanMod97 => Validators.ibanMod97
  | passportFormat => Validators.passportFormat
  | driversLicenseFormat => Validators.driversLicenseFormat
  | ipv4Range => Validators.ipv4Range
  | dateCalendar => Validators.dateCalendar
  | abaChecksum => Validators.abaChecksum

variable {t : CharTables} {c : UInt8} {s : AsciiStr}

/-! ## Characters -/

theorem ofUInt8_injective : Function.Injective Char.ofUInt8 := by
  intro a b h
  exact UInt8.toNat_inj.mp (congrArg Char.toNat h)

theorem ofUInt8_inj {a b : UInt8} : Char.ofUInt8 a = Char.ofUInt8 b ↔ a = b :=
  ofUInt8_injective.eq_iff

theorem toNat_ofUInt8 (c : UInt8) : (Char.ofUInt8 c).toNat = c.toNat := rfl

theorem ofUInt8_ofNat {d : Char} (h : d.toNat < 128) : Char.ofUInt8 (UInt8.ofNat d.toNat) = d := by
  refine Char.toNat_inj.mp ?_
  rw [toNat_ofUInt8, UInt8.toNat_ofNat']
  omega

/-- What holds of the characters is checked on all of them. -/
theorem forall_byte {p : UInt8 → Prop} (h : ∀ n < 256, p (UInt8.ofNat n)) (c : UInt8) : p c := by
  have hc := h c.toNat c.toNat_lt
  rwa [UInt8.ofNat_toNat] at hc

theorem ofUInt8_lt (hc : c < 128) : (Char.ofUInt8 c).toNat < 128 := hc

theorem lt_of_isDigit (h : Agent.isDigit c = true) : c < 128 := by
  simp only [Agent.isDigit, Bool.and_eq_true, decide_eq_true_eq] at h
  exact UInt8.lt_of_le_of_lt h.2 (by decide)

theorem isdigit_text (hc : c < 128) : t.isdigit (Char.ofUInt8 c) = Agent.isDigit c :=
  t.isdigit_ascii _ (ofUInt8_lt hc)

theorem decimal_text (hc : c < 128) :
    t.decimal (Char.ofUInt8 c) = if Agent.isDigit c = true then some (c.toNat - 48) else none :=
  t.decimal_ascii _ (ofUInt8_lt hc)

theorem isdecimal_text (hc : c < 128) : t.isdecimal (Char.ofUInt8 c) = Agent.isDigit c := by
  rw [CharTables.isdecimal, decimal_text hc]
  cases Agent.isDigit c <;> rfl

theorem isAlpha_ofUInt8 : (Char.ofUInt8 c).isAlpha = Agent.isAlpha c :=
  forall_byte (p := fun c => (Char.ofUInt8 c).isAlpha = Agent.isAlpha c) (by decide +kernel) c

theorem toUpper_ofUInt8 : (Char.ofUInt8 c).toUpper = Char.ofUInt8 (Agent.toUpper c) :=
  forall_byte (p := fun c => (Char.ofUInt8 c).toUpper = Char.ofUInt8 (Agent.toUpper c))
    (by decide +kernel) c

theorem isalpha_text (hc : c < 128) : t.isalpha (Char.ofUInt8 c) = Agent.isAlpha c :=
  (t.isalpha_ascii _ (ofUInt8_lt hc)).trans isAlpha_ofUInt8

theorem isspace_text (hc : c < 128) : t.isspace (Char.ofUInt8 c) = isPySpace c := by
  rw [t.isspace_ascii _ (ofUInt8_lt hc), toNat_ofUInt8, UInt8.ofNat_toNat]

theorem upper_text (hc : c < 128) :
    t.upper (Char.ofUInt8 c) = [Char.ofUInt8 (Agent.toUpper c)] := by
  rw [t.upper_ascii _ (ofUInt8_lt hc), toUpper_ofUInt8]

theorem intSpace_text (hc : c < 128) : t.intSpace (Char.ofUInt8 c) = Agent.isSpace c := by
  rw [CharTables.intSpace, toNat_ofUInt8, UInt8.ofNat_toNat]
  split
  · rfl
  · next hge =>
      have hdel : c = 127 := UInt8.toNat_inj.mp (by
        have hlt : c.toNat < 128 := hc
        change c.toNat = 127
        omega)
      rw [isspace_text hc, hdel]
      rfl

/-! ## Strings -/

theorem filter_text {p : Char → Bool} {q : UInt8 → Bool} (hs : IsAscii s)
    (h : ∀ c < 128, p (Char.ofUInt8 c) = q c) : (text s).filter p = text (s.filter q) := by
  rw [text, List.filter_map, text]
  exact congrArg _ (List.filter_congr fun c hc => h c (hs c hc))

theorem all_text {p : Char → Bool} {q : UInt8 → Bool} (hs : IsAscii s)
    (h : ∀ c < 128, p (Char.ofUInt8 c) = q c) : (text s).all p = s.all q := by
  rw [text, List.all_map, Bool.eq_iff_iff, List.all_eq_true, List.all_eq_true]
  exact forall₂_congr fun c hc => by rw [Function.comp_apply, h c (hs c hc)]

theorem isdigitStr_text (hs : IsAscii s) : t.isdigitStr (text s) = isdigit s := by
  rw [CharTables.isdigitStr, isdigit, all_text hs fun c => isdigit_text, text, List.isEmpty_map]

theorem isalphaStr_text (hs : IsAscii s) : t.isalphaStr (text s) = isalpha s := by
  rw [CharTables.isalphaStr, isalpha, all_text hs fun c => isalpha_text, text, List.isEmpty_map]

theorem digitsValue_text (hs : ∀ c ∈ s, Agent.isDigit c = true) :
    t.digitsValue (text s) = Agent.digitsValue s := by
  rw [CharTables.digitsValue, text, List.foldl_map, Agent.digitsValue]
  refine List.foldl_ext _ _ _ fun n c hc => ?_
  rw [decimal_text (lt_of_isDigit (hs c hc)), if_pos (hs c hc), Option.getD_some]

theorem IsAscii.of_subset {s' : AsciiStr} (hs : IsAscii s) (h : s' ⊆ s) : IsAscii s' :=
  fun c hc => hs c (h hc)

theorem IsAscii.of_mem_splitOn {sep : UInt8} {field : AsciiStr} (hs : IsAscii s)
    (h : field ∈ s.splitOn sep) : IsAscii field := by
  have hinfix := Lib.infix_intercalate [sep] h
  rw [List.intercalate_splitOn] at hinfix
  exact hs.of_subset hinfix.subset

theorem splitOn_text (sep : UInt8) (s : AsciiStr) :
    (text s).splitOn (Char.ofUInt8 sep) = (s.splitOn sep).map text :=
  Lib.splitOn_map ofUInt8_injective sep s

@[simp] theorem length_text : (text s).length = s.length := List.length_map _

theorem take_text (n : Nat) (s : AsciiStr) : (text s).take n = text (s.take n) :=
  List.map_take.symm

theorem drop_text (n : Nat) (s : AsciiStr) : (text s).drop n = text (s.drop n) :=
  List.map_drop.symm

theorem text_eq_nil : text s = [] ↔ s = [] := List.map_eq_nil_iff

theorem trim_text {p : Char → Bool} {q : UInt8 → Bool} (hs : IsAscii s)
    (h : ∀ c < 128, p (Char.ofUInt8 c) = q c) : trim p (text s) = text (trim q s) :=
  Lib.trim_map Char.ofUInt8 fun c hc => h c (hs c hc)

/-! ## `int` -/

theorem intDigits_text (hs : IsAscii s) : t.intDigits (text s) = intDigits s := by
  have hsplit : (text s).splitOn '_' = (s.splitOn 95).map text := splitOn_text 95 s
  have hgroups : ((text s).splitOn '_').all
      (fun group => !group.isEmpty && group.all t.isdecimal) = (s.splitOn 95).all isdigit := by
    rw [hsplit, List.all_map, Bool.eq_iff_iff, List.all_eq_true, List.all_eq_true]
    refine forall₂_congr fun group hgroup => ?_
    have hascii : IsAscii group := hs.of_mem_splitOn hgroup
    rw [Function.comp_apply, all_text hascii fun c => isdecimal_text, isdigit, text,
      List.isEmpty_map]
  have hflatten : ((text s).splitOn '_').flatten = text (s.splitOn 95).flatten := by
    rw [hsplit, text, List.map_flatten]
    rfl
  unfold CharTables.intDigits intDigits
  dsimp only
  rw [hgroups, hflatten, length_text]
  split
  · next h =>
      rw [digitsValue_text]
      intro c hc
      obtain ⟨group, hgroup, hc⟩ := List.mem_flatten.mp hc
      have hall := List.all_eq_true.mp (Bool.and_eq_true_iff.mp h).1 group hgroup
      exact List.all_eq_true.mp (Bool.and_eq_true_iff.mp hall).2 c hc
  · rfl

theorem pyInt_text (hs : IsAscii s) :
    pyInt t (text s) = (Server.pyInt s).elim (.error (intError (text s))) .ok := by
  have hbody : IsAscii (trim Agent.isSpace s) := hs.of_subset fun c hc => Lib.mem_of_mem_trim hc
  unfold pyInt Server.pyInt
  rw [trim_text hs fun c => intSpace_text]
  generalize trim Agent.isSpace s = body at hbody
  have hsigned {n : Int} {body : AsciiStr} {result : Option Int} (hbody : IsAscii body)
      (hresult : ∀ digits, intDigits body = digits → result = digits.map fun d : Nat => n * d) :
      signedInt t (text s) n (text body) = result.elim (.error (intError (text s))) .ok := by
    rw [signedInt, intDigits_text hbody, hresult _ rfl]
    cases intDigits body <;> rfl
  have hplain (body : AsciiStr) : ∀ digits, intDigits body = digits →
      (intDigits body).map (fun n => (n : Int)) = digits.map fun d : Nat => 1 * (d : Int) := by
    rintro digits rfl
    cases intDigits body with
    | none => rfl
    | some d => exact congrArg some (one_mul _).symm
  rcases body with _ | ⟨c, rest⟩
  · exact hsigned hbody (hplain [])
  · have hrest : IsAscii rest := fun c hc => hbody c (List.mem_cons_of_mem _ hc)
    by_cases hplus : c = 43
    · subst hplus
      exact hsigned hrest (hplain rest)
    · by_cases hminus : c = 45
      · subst hminus
        refine hsigned hrest ?_
        rintro digits rfl
        change (intDigits rest).map (fun n => -(n : Int)) = _
        cases intDigits rest with
        | none => rfl
        | some d => exact congrArg some (neg_one_mul _).symm
      · have hchar {d : UInt8} {tail : PyStr} (hne : c ≠ d) :
            text (c :: rest) ≠ Char.ofUInt8 d :: tail := fun heq =>
          hne (ofUInt8_injective (List.cons.inj heq).1)
        split
        · next heq => exact absurd heq (hchar hplus)
        · next heq => exact absurd heq (hchar hminus)
        · split
          · next heq => exact absurd (List.cons.inj heq).1 hplus
          · next heq => exact absurd (List.cons.inj heq).1 hminus
          · exact hsigned hbody (hplain (c :: rest))

theorem pyInt_text_digits (hne : s ≠ []) (hs : ∀ c ∈ s, Agent.isDigit c = true)
    (hlength : s.length ≤ maxStrDigits) :
    pyInt t (text s) = .ok (Agent.digitsValue s : Int) := by
  have hascii : IsAscii s := fun c hc => lt_of_isDigit (hs c hc)
  have hdigits : ∀ c ∈ text s, t.isdigit c = true := by
    intro c hc
    obtain ⟨b, hb, rfl⟩ := List.mem_map.mp hc
    rw [isdigit_text (hascii b hb), hs b hb]
  have hall : (text s).all t.isdecimal = true := by
    rw [all_text hascii fun c => isdecimal_text]
    exact List.all_eq_true.mpr hs
  rw [pyInt_digits (fun h => hne (text_eq_nil.mp h)) hdigits (by rwa [length_text]), if_pos hall,
    digitsValue_text hs]

theorem pyInt_text_singleton (h : Agent.isDigit c = true) :
    pyInt t [Char.ofUInt8 c] = .ok ((c.toNat - 48 : Nat) : Int) := by
  have hint := pyInt_text_digits (t := t) (s := [c]) (List.cons_ne_nil _ _)
    (fun d hd => List.mem_singleton.mp hd ▸ h) (by simp [maxStrDigits])
  rw [Agent.digitsValue, List.foldl_cons, List.foldl_nil, Nat.mul_zero, Nat.zero_add] at hint
  exact hint

/-! ## The validators -/

theorem isdigit_iff : isdigit s = true ↔ s ≠ [] ∧ ∀ c ∈ s, Agent.isDigit c = true := by
  simp [isdigit]

theorem IsAscii.filter (hs : IsAscii s) (p : UInt8 → Bool) : IsAscii (s.filter p) :=
  hs.of_subset (List.filter_subset_self s)

/-- The class `[\s-]`. -/
theorem isSpaceOrDash_text (hc : c < 128) :
    (t.isspace (Char.ofUInt8 c) || Char.ofUInt8 c == '-') = isSpaceOrDash c := by
  have hdash : (Char.ofUInt8 c == '-') = (c == 45) := by
    rw [Bool.eq_iff_iff, beq_iff_eq, beq_iff_eq]
    exact ofUInt8_inj (b := 45)
  rw [isspace_text hc, hdash, isSpaceOrDash]

theorem luhnStep_text {i : Nat} {total : Int} (h : Agent.isDigit c = true) :
    luhnStep t total (Char.ofUInt8 c, i) = .ok (total + (Validators.luhnTerm c i : Nat)) := by
  unfold luhnStep Validators.luhnTerm
  rw [pyInt_text_singleton h]
  generalize c.toNat - 48 = n
  change (if i % 2 = 1 then
      Except.ok (total + if (9 : Int) < n * 2 then (n : Int) * 2 - 9 else (n : Int) * 2)
    else Except.ok (total + n)) = _
  dsimp only
  by_cases hodd : i % 2 = 1
  · rw [if_pos hodd, if_pos hodd]
    congr 2
    split_ifs <;> omega
  · rw [if_neg hodd, if_neg hodd]

theorem foldlM_luhnStep_text {entries : List (UInt8 × Nat)}
    (h : ∀ entry ∈ entries, Agent.isDigit entry.1 = true) (total : Int) :
    (entries.map (Prod.map Char.ofUInt8 id)).foldlM (luhnStep t) total =
      .ok (total + ((entries.map fun (ch, i) => Validators.luhnTerm ch i).sum : Nat)) := by
  induction entries generalizing total with
  | nil => simp [pure, Except.pure]
  | cons entry entries ih =>
      rw [List.forall_mem_cons] at h
      rw [List.map_cons, List.foldlM_cons, Prod.map, id, luhnStep_text h.1]
      change List.foldlM (luhnStep t) _ _ = _
      rw [ih h.2, List.map_cons, List.sum_cons, Int.natCast_add, add_assoc]

theorem natCast_mod_beq (n m k : Nat) : ((n : Int) % m == k) = (n % m == k) := by
  rw [Bool.eq_iff_iff, beq_iff_eq, beq_iff_eq]
  omega

theorem luhn_text (hs : IsAscii s) : luhn t (text s) = .ok (Validators.luhn s) := by
  unfold luhn Validators.luhn
  rw [filter_text hs fun c hc => congrArg Bool.not (isSpaceOrDash_text hc)]
  have hascii := hs.filter fun c => !isSpaceOrDash c
  generalize s.filter (fun c => !isSpaceOrDash c) = digits at hascii
  dsimp only
  rw [isdigitStr_text hascii, length_text]
  split
  · rfl
  · next h =>
      obtain ⟨hdigit, hsize⟩ := not_skipped_iff.mp h
      have hentries : ∀ entry ∈ digits.reverse.zipIdx, Agent.isDigit entry.1 = true :=
        fun entry hentry => (isdigit_iff.mp hdigit).2 _
          (List.mem_reverse.mp (List.fst_mem_of_mem_zipIdx hentry))
      rw [text, ← List.map_reverse, List.zipIdx_map, foldlM_luhnStep_text hentries]
      change Except.ok _ = _
      rw [zero_add]
      exact congrArg Except.ok (natCast_mod_beq _ 10 0)

theorem ssnArea_text (hs : IsAscii s) : ssnArea t (text s) = .ok (Validators.ssnArea s) := by
  unfold ssnArea Validators.ssnArea
  rw [filter_text hs fun c hc => congrArg Bool.not (isSpaceOrDash_text hc)]
  have hascii := hs.filter fun c => !isSpaceOrDash c
  generalize s.filter (fun c => !isSpaceOrDash c) = digits at hascii
  dsimp only
  rw [isdigitStr_text hascii, length_text]
  split
  · rfl
  · next h =>
      obtain ⟨hdigit, hsize⟩ := not_skipped_iff.mp h
      have hlength : digits.length = 9 := by simpa using hsize
      have hpart {part : AsciiStr} (hsub : part ⊆ digits) (hpos : 0 < part.length)
          (hle : part.length ≤ 9) :
          pyInt t (text part) = .ok (Agent.digitsValue part : Int) :=
        pyInt_text_digits (List.ne_nil_of_length_pos hpos)
          (fun c hc => (isdigit_iff.mp hdigit).2 c (hsub hc)) (by unfold maxStrDigits; omega)
      rw [take_text, drop_text, take_text, drop_text,
        hpart (List.take_subset _ _) (by simp [hlength]) (by simp [hlength]),
        hpart (List.Subset.trans (List.take_subset _ _) (List.drop_subset _ _))
          (by simp [hlength]) (by simp [hlength]),
        hpart (List.drop_subset _ _) (by simp [hlength]) (by simp [hlength])]
      generalize Agent.digitsValue (digits.take 3) = area,
        Agent.digitsValue ((digits.drop 3).take 2) = group,
        Agent.digitsValue (digits.drop 5) = serial
      dsimp only [bind, Except.bind, pure, Except.pure]
      split_ifs <;> first | rfl | omega

theorem sum_zipWith_natCast (ds ws : List Nat) :
    (List.zipWith (· * ·) (ds.map fun d : Nat => (d : Int))
        (ws.map fun w : Nat => (w : Int))).sum =
      ((List.zipWith (· * ·) ds ws).sum : Nat) := by
  induction ds generalizing ws with
  | nil => rfl
  | cons d ds ih =>
      cases ws with
      | nil => rfl
      | cons w ws =>
          simp only [List.map_cons, List.zipWith_cons_cons, List.sum_cons, ih, Int.natCast_add,
            Int.natCast_mul]

theorem mapM_pyInt_text {digits : AsciiStr} (h : ∀ c ∈ digits, Agent.isDigit c = true) :
    (text digits).mapM (fun c => pyInt t [c]) =
      .ok ((digits.map fun c => c.toNat - 48).map fun d : Nat => (d : Int)) := by
  induction digits with
  | nil => rfl
  | cons c digits ih =>
      rw [List.forall_mem_cons] at h
      rw [text, List.map_cons, List.mapM_cons, pyInt_text_singleton h.1]
      change (List.mapM (fun c => pyInt t [c]) (text digits) >>= fun ds => _) = _
      rw [ih h.2]
      rfl

theorem abaChecksum_text (hs : IsAscii s) :
    abaChecksum t (text s) = .ok (Validators.abaChecksum s) := by
  unfold abaChecksum Validators.abaChecksum
  rw [filter_text hs fun c hc => congrArg Bool.not (isspace_text hc)]
  have hascii := hs.filter fun c => !isPySpace c
  generalize s.filter (fun c => !isPySpace c) = digits at hascii
  dsimp only
  rw [isdigitStr_text hascii, length_text]
  split
  · rfl
  · next h =>
      obtain ⟨hdigit, hsize⟩ := not_skipped_iff.mp h
      have hweights : abaWeights = Validators.abaWeights.map fun w : Nat => (w : Int) := rfl
      rw [mapM_pyInt_text (isdigit_iff.mp hdigit).2, hweights]
      change Except.ok _ = _
      rw [sum_zipWith_natCast]
      exact congrArg Except.ok (natCast_mod_beq _ 10 0)

theorem head?_text (s : AsciiStr) (d : UInt8) :
    (text s).head? = some (Char.ofUInt8 d) ↔ s.head? = some d := by
  rw [text, List.head?_map, Option.map_eq_some_iff]
  constructor
  · rintro ⟨c, hc, heq⟩
    rw [hc, ofUInt8_injective heq]
  · intro hd
    exact ⟨d, hd, rfl⟩

theorem phoneFormat_text (hs : IsAscii s) :
    phoneFormat t (text s) = .ok (Validators.phoneFormat s) := by
  unfold phoneFormat Validators.phoneFormat
  rw [filter_text hs fun c => isdecimal_text]
  have hdigits : ∀ c ∈ s.filter Agent.isDigit, Agent.isDigit c = true := fun c hc =>
    (List.mem_filter.mp hc).2
  generalize s.filter Agent.isDigit = kept at hdigits
  have hcountry : (if (text kept).length = 11 ∧ (text kept).head? = some '1'
      then (text kept).drop 1 else text kept) =
      text (if kept.length = 11 ∧ kept.head? = some 49 then kept.drop 1 else kept) := by
    rw [length_text, apply_ite text, drop_text]
    exact if_congr (and_congr_right fun _ => head?_text kept 49) rfl rfl
  have hsub : (if kept.length = 11 ∧ kept.head? = some 49 then kept.drop 1 else kept) ⊆ kept := by
    split
    · exact List.drop_subset _ _
    · exact List.Subset.refl _
  dsimp only
  rw [hcountry]
  generalize (if kept.length = 11 ∧ kept.head? = some 49 then kept.drop 1 else kept) = digits
    at hsub
  rw [length_text]
  split
  · rfl
  · next h =>
      have hlength : digits.length = 10 := not_not.mp h
      have hpart {part : AsciiStr} (hpart : part ⊆ digits) (hpos : 0 < part.length)
          (hle : part.length ≤ 10) :
          pyInt t (text part) = .ok (Agent.digitsValue part : Int) :=
        pyInt_text_digits (List.ne_nil_of_length_pos hpos)
          (fun c hc => hdigits c (hsub (hpart hc))) (by unfold maxStrDigits; omega)
      rw [take_text, drop_text, take_text,
        hpart (List.take_subset _ _) (by simp [hlength]) (by simp [hlength]),
        hpart (List.Subset.trans (List.take_subset _ _) (List.drop_subset _ _))
          (by simp [hlength]) (by simp [hlength])]
      generalize Agent.digitsValue (digits.take 3) = area,
        Agent.digitsValue ((digits.drop 3).take 3) = exchange
      dsimp only [bind, Except.bind, pure, Except.pure]
      split_ifs <;> first | rfl | omega

theorem mem_text {d : UInt8} : Char.ofUInt8 d ∈ text s ↔ d ∈ s :=
  List.mem_map_of_injective ofUInt8_injective

theorem bne_text (c d : UInt8) : (Char.ofUInt8 c != Char.ofUInt8 d) = (c != d) := by
  rw [Bool.eq_iff_iff, bne_iff_ne, bne_iff_ne, ne_eq, ofUInt8_inj]

theorem rsplitAt_text (s : AsciiStr) :
    rsplitAt (text s) = (text (Validators.rsplitAt s).1, text (Validators.rsplitAt s).2) := by
  have hsame : (fun c : Char => c != '@') ∘ Char.ofUInt8 = fun c => c != 64 :=
    funext fun c => bne_text c 64
  unfold rsplitAt Validators.rsplitAt text
  rw [← List.map_reverse, List.dropWhile_map, List.takeWhile_map, hsame, ← List.map_tail,
    ← List.map_reverse, ← List.map_reverse]

theorem emailDomain_text (s : AsciiStr) :
    emailDomain (text s) = .ok (Validators.emailDomain s) := by
  unfold emailDomain Validators.emailDomain
  rw [rsplitAt_text]
  obtain ⟨localPart, domain⟩ := Validators.rsplitAt s
  have hparts : (text domain).splitOn '.' = (domain.splitOn 46).map text := splitOn_text 46 domain
  have htld : ((domain.splitOn 46).map text).getLast?.getD [] =
      text ((domain.splitOn 46).getLast?.getD []) := by
    rw [List.getLast?_map]
    cases (domain.splitOn 46).getLast? <;> rfl
  have hat : '@' ∈ text s ↔ 64 ∈ s := mem_text (d := 64)
  dsimp only
  rw [hparts, htld]
  simp only [hat, text_eq_nil, List.length_map, length_text]
  split_ifs <;> rfl

theorem strip_text (hs : IsAscii s) : strip t (text s) = text (Server.strip s) :=
  trim_text hs fun _ => isspace_text

theorem IsAscii.strip (hs : IsAscii s) : IsAscii (Server.strip s) :=
  hs.of_subset fun _ hc => Lib.mem_of_mem_trim hc

theorem passportFormat_text (hs : IsAscii s) :
    passportFormat t (text s) = .ok (Validators.passportFormat s) := by
  unfold passportFormat Validators.passportFormat
  rw [strip_text hs]
  have hascii := hs.strip
  generalize Server.strip s = clean at hascii
  dsimp only
  have hletter : (text clean).head?.any t.isalpha =
      decide (clean ≠ [] ∧ Agent.isAlpha (clean.getD 0 0) = true) := by
    cases clean with
    | nil => rfl
    | cons c rest =>
        change t.isalpha (Char.ofUInt8 c) = _
        rw [isalpha_text (hascii c List.mem_cons_self)]
        simp
  rw [hletter]
  simp only [decide_eq_true_eq]
  split
  · rw [drop_text, isdigitStr_text (hascii.of_subset (List.drop_subset _ _)), length_text]
  · rw [isdigitStr_text hascii, length_text]

theorem driversLicenseFormat_text (hs : IsAscii s) :
    driversLicenseFormat t (text s) = .ok (Validators.driversLicenseFormat s) := by
  unfold driversLicenseFormat Validators.driversLicenseFormat
  rw [strip_text hs]
  have hascii := hs.strip
  generalize Server.strip s = clean at hascii
  have hzeros : (text (clean.filter Agent.isDigit)).all (· == '0') =
      (clean.filter Agent.isDigit).all (· == 48) := by
    refine all_text (hascii.filter _) fun _ _ => ?_
    rw [Bool.eq_iff_iff, beq_iff_eq, beq_iff_eq]
    exact ofUInt8_inj (b := 48)
  dsimp only
  rw [filter_text (q := Agent.isDigit) hascii fun _ _ => rfl, hzeros]
  simp only [text_eq_nil, ne_eq]
  split_ifs <;> rfl

theorem text_decimal (n : Nat) : text (Agent.decimal n) = Nat.toDigits 10 n := by
  rw [text, Agent.decimal, List.map_map]
  refine (List.map_congr_left fun d hd => ?_).trans (List.map_id _)
  have hdigit : d.isDigit = true := Nat.isDigit_of_mem_toDigits (by decide) (by decide) hd
  have hle : d.toNat ≤ 57 := (Char.isDigit_iff_toNat.mp hdigit).2
  exact ofUInt8_ofNat (by omega)

theorem ibanNumeric_text (hs : IsAscii s) :
    ibanNumeric t (text s) = (Validators.ibanNumeric s).map text := by
  induction s with
  | nil => rfl
  | cons c rest ih =>
      have hc := hs c List.mem_cons_self
      have hrest := ih fun d hd => hs d (List.mem_cons_of_mem _ hd)
      rw [text] at hrest
      rw [text, List.map_cons, ibanNumeric, Validators.ibanNumeric, isdigit_text hc,
        isalpha_text hc, hrest, toNat_ofUInt8, ← text_decimal]
      cases Validators.ibanNumeric rest with
      | none => split_ifs <;> rfl
      | some numeric =>
          split_ifs
          · rfl
          · exact congrArg some List.map_append.symm
          · rfl

theorem isDigit_of_ibanNumeric {numeric : AsciiStr} (h : Validators.ibanNumeric s = some numeric) :
    ∀ c ∈ numeric, Agent.isDigit c = true := by
  induction s generalizing numeric with
  | nil =>
      cases h
      intro c hc
      cases hc
  | cons ch rest ih =>
      rw [Validators.ibanNumeric] at h
      split at h
      · next hdigit =>
          obtain ⟨tail, htail, rfl⟩ := Option.map_eq_some_iff.mp h
          exact List.forall_mem_cons.mpr ⟨hdigit, ih htail⟩
      · split at h
        · obtain ⟨tail, htail, rfl⟩ := Option.map_eq_some_iff.mp h
          intro c hc
          rcases List.mem_append.mp hc with hc | hc
          · exact Agent.isDigit_of_mem_decimal c hc
          · exact ih htail c hc
        · cases h

theorem toUpper_lt (hc : c < 128) : Agent.toUpper c < 128 :=
  forall_byte (p := fun c => c < 128 → Agent.toUpper c < 128) (by decide +kernel) c hc

theorem ibanMod97_text (hs : IsAscii s) :
    ibanMod97 t (text s) = .ok (Validators.ibanMod97 s) := by
  unfold ibanMod97 Validators.ibanMod97
  rw [filter_text hs fun c hc => congrArg Bool.not (isspace_text hc)]
  have hfilter := hs.filter fun c => !isPySpace c
  generalize s.filter (fun c => !isPySpace c) = kept at hfilter
  have hupper : (text kept).flatMap t.upper = text (kept.map Agent.toUpper) := by
    rw [text, List.flatMap_map, List.flatMap_congr fun c hc => upper_text (hfilter c hc),
      ← List.map_eq_flatMap, text, List.map_map]
    rfl
  have hascii : IsAscii (kept.map Agent.toUpper) := by
    intro c hc
    obtain ⟨d, hd, rfl⟩ := List.mem_map.mp hc
    exact toUpper_lt (hfilter d hd)
  dsimp only
  rw [hupper]
  generalize kept.map Agent.toUpper = clean at hascii
  have hmoved : IsAscii (clean.drop 4 ++ clean.take 4) := by
    refine hascii.of_subset (List.append_subset.mpr ⟨?_, ?_⟩)
    · exact List.drop_subset _ _
    · exact List.take_subset _ _
  have hrearranged : (text clean).drop 4 ++ (text clean).take 4 =
      text (clean.drop 4 ++ clean.take 4) := by
    rw [drop_text, take_text]
    exact List.map_append.symm
  rw [length_text, take_text, isalphaStr_text (hascii.of_subset (List.take_subset _ _)), drop_text,
    take_text, isdigitStr_text
      (hascii.of_subset (List.Subset.trans (List.take_subset _ _) (List.drop_subset _ _))),
    hrearranged, ibanNumeric_text hmoved]
  split
  · rfl
  · next hsize =>
      split
      · rfl
      · cases hnumeric : Validators.ibanNumeric (clean.drop 4 ++ clean.take 4) with
        | none => rfl
        | some numeric =>
            obtain ⟨-, hle, hge, -⟩ := ibanNumeric_spec (t := t)
              ((ibanNumeric_text hmoved).trans (congrArg (Option.map text) hnumeric))
            rw [length_text, length_text, List.length_append, List.length_drop,
              List.length_take] at hle hge
            change (pyInt t (text numeric) >>= fun n => _) = _
            rw [pyInt_text_digits (List.ne_nil_of_length_pos (by omega))
              (isDigit_of_ibanNumeric hnumeric) (by unfold maxStrDigits; omega)]
            exact congrArg Except.ok (natCast_mod_beq _ 97 1)

theorem mapM_text {parts : List AsciiStr} (hs : ∀ part ∈ parts, IsAscii part) :
    ((parts.map text).mapM (pyInt t)).toOption = parts.mapM Server.pyInt := by
  induction parts with
  | nil => rfl
  | cons part parts ih =>
      rw [List.forall_mem_cons] at hs
      rw [List.map_cons, List.mapM_cons, List.mapM_cons, pyInt_text hs.1, ← ih hs.2]
      cases Server.pyInt part with
      | none => rfl
      | some n =>
          cases (parts.map text).mapM (pyInt t) with
          | error e => rfl
          | ok ns => rfl

theorem ipv4Range_text (hs : IsAscii s) : ipv4Range t (text s) = .ok (Validators.ipv4Range s) := by
  unfold ipv4Range Validators.ipv4Range
  have hparts : (text s).splitOn '.' = (s.splitOn 46).map text := splitOn_text 46 s
  have hascii : ∀ part ∈ s.splitOn 46, IsAscii part := fun part hpart => hs.of_mem_splitOn hpart
  rw [hparts]
  generalize s.splitOn 46 = parts at hascii
  dsimp only
  rw [List.length_map]
  split
  · rfl
  · rw [← mapM_text (t := t) hascii]
    cases (parts.map text).mapM (pyInt t) with
    | error e => rfl
    | ok octets =>
        dsimp only [Except.toOption]
        split_ifs <;> rfl


theorem le_text {a b : UInt8} : Char.ofUInt8 a ≤ Char.ofUInt8 b ↔ a ≤ b := Iff.rfl

theorem monthField_text (field : AsciiStr) :
    monthField (text field) = Validators.monthField field := by
  rcases field with _ | ⟨b, _ | ⟨c, _ | ⟨d, rest⟩⟩⟩
  · rfl
  · exact if_congr (and_congr (le_text (a := 49)) (le_text (b := 57))) rfl rfl
  · have hone : Char.ofUInt8 b = '1' ↔ b = 49 := ofUInt8_inj (b := 49)
    have hzero : Char.ofUInt8 b = '0' ↔ b = 48 := ofUInt8_inj (b := 48)
    exact if_congr
      (and_congr hone (and_congr (le_text (a := 48)) (le_text (b := 50)))) rfl
      (if_congr (and_congr hzero (and_congr (le_text (a := 49)) (le_text (b := 57)))) rfl rfl)
  · rfl

theorem dayField_text {field : AsciiStr} (hs : IsAscii field) :
    dayField t (text field) = Validators.dayField field := by
  rcases field with _ | ⟨b, _ | ⟨c, _ | ⟨d, rest⟩⟩⟩
  · rfl
  · exact if_congr (and_congr (le_text (a := 49)) (le_text (b := 57))) rfl rfl
  · have hthree : Char.ofUInt8 b = '3' ↔ b = 51 := ofUInt8_inj (b := 51)
    have hzero : Char.ofUInt8 b = '0' ↔ b = 48 := ofUInt8_inj (b := 48)
    have hblank : Char.ofUInt8 b = ' ' ↔ b = 32 := ofUInt8_inj (b := 32)
    have hc := hs c (by simp)
    refine if_congr (and_congr hthree (and_congr (le_text (a := 48)) (le_text (b := 49)))) rfl ?_
    change (if '1' ≤ Char.ofUInt8 b ∧ Char.ofUInt8 b ≤ '2' ∧ t.isdecimal (Char.ofUInt8 c) = true
      then some (10 * (b.toNat - 48) + (t.decimal (Char.ofUInt8 c)).getD 0) else _) = _
    rw [isdecimal_text hc, decimal_text hc]
    refine if_ctx_congr (and_congr (le_text (a := 49)) (and_congr (le_text (b := 50)) Iff.rfl))
      (fun h => ?_) fun _ => if_congr (and_congr (or_congr hzero hblank)
        (and_congr (le_text (a := 49)) (le_text (b := 57)))) rfl rfl
    rw [if_pos h.2.2]
    rfl
  · rfl

theorem yearField_text {field : AsciiStr} (hs : IsAscii field) :
    yearField t (text field) = Validators.yearField field := by
  unfold yearField Validators.yearField
  rw [length_text, all_text hs fun _ => isdecimal_text]
  split
  · next h => rw [digitsValue_text (List.all_eq_true.mp h.2)]
  · rfl

theorem date_text {m d y : AsciiStr} (hd : IsAscii d) (hy : IsAscii y) :
    (do
      let date : Validators.Date :=
        { month := ← monthField (text m)
          day := ← dayField t (text d)
          year := ← yearField t (text y) }
      if date.Exists then some date else none) =
    (do
      let date : Validators.Date :=
        { month := ← Validators.monthField m
          day := ← Validators.dayField d
          year := ← Validators.yearField y }
      if date.Exists then some date else none) := by
  rw [monthField_text, dayField_text hd, yearField_text hy]

theorem strptime_text (hs : IsAscii s) (fmt : DateFormat) :
    strptime t (text s) fmt = Validators.strptime s fmt := by
  unfold strptime Validators.strptime
  have hslash : (text s).splitOn '/' = (s.splitOn 47).map text := splitOn_text 47 s
  have hdash : (text s).splitOn '-' = (s.splitOn 45).map text := splitOn_text 45 s
  have hslashes : ∀ part ∈ s.splitOn 47, IsAscii part := fun part hpart => hs.of_mem_splitOn hpart
  have hdashes : ∀ part ∈ s.splitOn 45, IsAscii part := fun part hpart => hs.of_mem_splitOn hpart
  rw [hslash, hdash]
  generalize s.splitOn 47 = slashes at hslashes
  generalize s.splitOn 45 = dashes at hdashes
  cases fmt with
  | slashed =>
      rcases slashes with _ | ⟨m, _ | ⟨d, _ | ⟨y, _ | ⟨z, rest⟩⟩⟩⟩ <;> try rfl
      exact date_text (hslashes d (by simp)) (hslashes y (by simp))
  | iso =>
      rcases dashes with _ | ⟨y, _ | ⟨m, _ | ⟨d, _ | ⟨z, rest⟩⟩⟩⟩ <;> try rfl
      exact date_text (hdashes d (by simp)) (hdashes y (by simp))
  | dashed =>
      rcases dashes with _ | ⟨m, _ | ⟨d, _ | ⟨y, _ | ⟨z, rest⟩⟩⟩⟩ <;> try rfl
      exact date_text (hdashes d (by simp)) (hdashes y (by simp))

theorem dateCalendar_text (hs : IsAscii s) :
    dateCalendar t (text s) = .ok (Validators.dateCalendar s) := by
  unfold dateCalendar Validators.dateCalendar
  rw [strip_text hs]
  refine congrArg Except.ok (congrArg (List.any _) (funext fun fmt => ?_))
  have hsame := strptime_text (t := t) hs.strip fmt
  cases hresult : Validators.strptime (Server.strip s) fmt with
  | none => simp only [hsame.trans hresult]
  | some dt => simp only [hsame.trans hresult]

/-- On ASCII text no validator raises, and each has the result of the one on bytes. -/
theorem run_text (v : BuiltinValidator) (hs : IsAscii s) :
    v.run t (text s) = .ok (v.runAscii s) := by
  cases v with
  | luhn => exact luhn_text hs
  | ssnArea => exact ssnArea_text hs
  | phoneFormat => exact phoneFormat_text hs
  | emailDomain => exact emailDomain_text s
  | ibanMod97 => exact ibanMod97_text hs
  | passportFormat => exact passportFormat_text hs
  | driversLicenseFormat => exact driversLicenseFormat_text hs
  | ipv4Range => exact ipv4Range_text hs
  | dateCalendar => exact dateCalendar_text hs
  | abaChecksum => exact abaChecksum_text hs

theorem exists_text {value : PyStr} (h : ∀ c ∈ value, c.toNat < 128) :
    ∃ s, IsAscii s ∧ value = text s := by
  refine ⟨value.map fun c => UInt8.ofNat c.toNat, ?_, ?_⟩
  · intro c hc
    obtain ⟨d, hd, rfl⟩ := List.mem_map.mp hc
    have hlt := h d hd
    refine UInt8.lt_iff_toNat_lt.mpr ?_
    rw [UInt8.toNat_ofNat']
    change d.toNat % 256 < 128
    omega
  · rw [text, List.map_map]
    refine ((List.map_congr_left fun d hd => ?_).trans (List.map_id _)).symm
    exact ofUInt8_ofNat (h d hd)

theorem not_stumbles_of_ascii {v : BuiltinValidator} {value : PyStr}
    (h : ∀ c ∈ value, c.toNat < 128) : ¬ v.Stumbles t value := by
  obtain ⟨s, hs, rfl⟩ := exists_text h
  rw [← raises_run, run_text v hs]
  exact Lib.not_raises_ok _

end AkesoDlp.Server.UnicodeValidators
