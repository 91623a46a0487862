import AkesoDlp.Agent.ContentExtractor
import AkesoDlp.Lib.Utf16
import AkesoDlp.Lib.Utf8
import Mathlib.Tactic.SplitIfs

/-!
# Plain text in its encodings

What `DetectEncoding` takes UTF-8 for, and what `ConvertToUTF8` makes of UTF-16 and UTF-32.
-/

namespace AkesoDlp.Agent

open Lib

/-! ## Code points -/

theorem and_low (n : Nat) : n &&& 0x3F = n % 64 := Nat.and_two_pow_sub_one_eq_mod n 6

theorem or_tail (n : Nat) : 0x80 ||| n &&& 0x3F = n % 64 + 0x80 := by
  have hor : ∀ m < 64, 0x80 ||| m = m + 0x80 := by decide
  rw [and_low, hor _ (Nat.mod_lt _ (by decide))]

/-- The conversions write a character as UTF-8 has it. -/
theorem encodePoint_toNat (c : Char) : encodePoint c.toNat = String.utf8EncodeChar c := by
  have htwo : ∀ m < 32, 0xC0 ||| m = m % 32 + 0xC0 := by decide
  have hthree : ∀ m < 16, 0xE0 ||| m = m % 16 + 0xE0 := by decide
  have hfour : ∀ m < 8, 0xF0 ||| m = m % 8 + 0xF0 := by decide
  have hlt := Utf16.toNat_lt c
  have hval : c.val.toNat = c.toNat := rfl
  unfold encodePoint String.utf8EncodeChar
  rw [hval]
  generalize c.toNat = n at hlt
  simp only [or_tail, Nat.shiftRight_eq_div_pow, Nat.reducePow]
  split
  · rfl
  · split
    · rw [htwo _ (by omega)]
    · split
      · rw [hthree _ (by omega)]
      · rw [if_pos (by omega), hfour _ (by omega)]

/-! ## UTF-16 and UTF-32 -/

theorem encode_two (n : Nat) :
    LittleEndian.encode 2 n = [UInt8.ofNat n, UInt8.ofNat (n / 256)] := rfl

theorem encode_four (n : Nat) :
    LittleEndian.encode 4 n = [UInt8.ofNat n, UInt8.ofNat (n / 256), UInt8.ofNat (n / 256 / 256),
      UInt8.ofNat (n / 256 / 256 / 256)] := rfl

theorem utf16Text_unit (bigEndian : Bool) {unit : Nat} (h : unit < 0x10000) (rest : StdString) :
    utf16Text bigEndian (orderedBytes bigEndian 2 unit ++ rest) =
      encodePoint unit ++ utf16Text bigEndian rest := by
  have hlow : unit % 256 + unit / 256 % 256 * 256 = unit := by omega
  have hhigh : unit / 256 % 256 * 256 + unit % 256 = unit := by omega
  rw [orderedBytes, encode_two]
  cases bigEndian with
  | false => simp [utf16Text, bytePairs, hlow]
  | true => simp [utf16Text, bytePairs, hhigh]

theorem utf16Text_units (bigEndian : Bool) {units : List Nat} (h : ∀ unit ∈ units, unit < 0x10000)
    (rest : StdString) :
    utf16Text bigEndian (units.flatMap (orderedBytes bigEndian 2) ++ rest) =
      units.flatMap encodePoint ++ utf16Text bigEndian rest := by
  induction units with
  | nil => rfl
  | cons unit units ih =>
      rw [List.forall_mem_cons] at h
      rw [List.flatMap_cons, List.flatMap_cons, List.append_assoc, List.append_assoc,
        utf16Text_unit bigEndian h.1, ih h.2]

/-- Every unit is written on its own. -/
theorem utf16Text_encode (bigEndian : Bool) (s : List Char) :
    utf16Text bigEndian (Utf16.encode bigEndian s) =
      s.flatMap fun c => (Utf16.units c).flatMap encodePoint := by
  induction s with
  | nil => rfl
  | cons c s ih =>
      have hcons : Utf16.encode bigEndian (c :: s) =
          (Utf16.units c).flatMap (orderedBytes bigEndian 2) ++ Utf16.encode bigEndian s := rfl
      rw [hcons, utf16Text_units bigEndian fun _ => Utf16.lt_of_mem_units, ih, List.flatMap_cons]

theorem utf32Text_encode (bigEndian : Bool) (s : List Char) :
    utf32Text bigEndian (Utf32.encode bigEndian s) = Utf8.encode s := by
  induction s with
  | nil => rfl
  | cons c s ih =>
      have hcons : Utf32.encode bigEndian (c :: s) =
          orderedBytes bigEndian 4 c.toNat ++ Utf32.encode bigEndian s := rfl
      have hlt : c.toNat < 256 ^ 4 := Nat.lt_trans (Utf16.toNat_lt c) (by decide)
      have hdecode := LittleEndian.decode_encode hlt
      rw [encode_four] at hdecode
      rw [hcons, Utf8.encode_cons, ← encodePoint_toNat, ← ih, orderedBytes, encode_four]
      cases bigEndian <;> simp [utf32Text, hdecode]

/-- A surrogate in the three bytes of a character. -/
def surrogateBytes (unit : Nat) : StdString :=
  [UInt8.ofNat (unit / 4096 + 0xE0), UInt8.ofNat (unit / 64 % 64 + 0x80),
    UInt8.ofNat (unit % 64 + 0x80)]

/-- UTF-8 in which pairs of surrogates are not joined. -/
def unjoined (c : Char) : StdString :=
  if c.toNat < 0x10000 then String.utf8EncodeChar c
  else (Utf16.units c).flatMap surrogateBytes

theorem encodePoint_surrogate {unit : Nat} (hlow : 0xD800 ≤ unit) (hhigh : unit < 0x10000) :
    encodePoint unit = surrogateBytes unit := by
  have hthree : ∀ m < 16, 0xE0 ||| m = m + 0xE0 := by decide
  simp only [encodePoint, surrogateBytes, or_tail, Nat.shiftRight_eq_div_pow, Nat.reducePow]
  rw [if_neg (by omega), if_neg (by omega), if_pos (by omega), hthree _ (by omega)]

theorem flatMap_encodePoint_units (c : Char) :
    (Utf16.units c).flatMap encodePoint = unjoined c := by
  have hlt := Utf16.toNat_lt c
  unfold unjoined
  split
  · next hplane =>
      rw [Utf16.units, if_pos hplane, List.flatMap_singleton, encodePoint_toNat]
  · next hplane =>
      simp only [Utf16.units, if_neg hplane, List.flatMap_cons, List.flatMap_nil]
      rw [encodePoint_surrogate (by omega) (by omega), encodePoint_surrogate (by omega) (by omega)]

theorem length_unjoined (c : Char) :
    (unjoined c).length =
      (String.utf8EncodeChar c).length + if c.toNat < 0x10000 then 0 else 2 := by
  unfold unjoined
  split
  · rfl
  · next hplane =>
      have hfour : (String.utf8EncodeChar c).length = 4 := by
        have hval : c.val.toNat = c.toNat := rfl
        simp only [String.utf8EncodeChar, hval]
        rw [if_neg (by omega), if_neg (by omega), if_neg (by omega)]
        rfl
      rw [hfour, Utf16.units, if_neg hplane]
      rfl

theorem length_flatMap_unjoined (s : List Char) :
    (s.flatMap unjoined).length =
      (Utf8.encode s).length + 2 * s.countP fun c => 0x10000 ≤ c.toNat := by
  induction s with
  | nil => rfl
  | cons c s ih =>
      rw [List.flatMap_cons, List.length_append, Utf8.encode_cons, List.length_append, ih,
        length_unjoined, List.countP_cons]
      simp only [decide_eq_true_eq]
      split <;> split <;> omega

/-- Text with a character outside the plane comes out longer than its UTF-8. -/
theorem flatMap_unjoined_eq_iff (s : List Char) :
    s.flatMap unjoined = Utf8.encode s ↔ ∀ c ∈ s, c.toNat < 0x10000 := by
  constructor
  · intro h c hc
    have hlength := length_flatMap_unjoined s
    rw [h] at hlength
    have hnone : (s.countP fun c => decide (0x10000 ≤ c.toNat)) = 0 := by omega
    simpa using List.countP_eq_zero.mp hnone c hc
  · intro h
    refine List.flatMap_congr fun c hc => ?_
    rw [unjoined, if_pos (h c hc)]

/-- UTF-32 is converted exactly; of UTF-16 the basic multilingual plane, beyond which the two
surrogates of a character are written one by one. -/
theorem convertToUtf8_unicode (s : List Char) :
    convertToUtf8 ([0xFF, 0xFE, 0x00, 0x00] ++ Utf32.encode false s) .utf32LE = Utf8.encode s ∧
    convertToUtf8 ([0x00, 0x00, 0xFE, 0xFF] ++ Utf32.encode true s) .utf32BE = Utf8.encode s ∧
    convertToUtf8 ([0xFF, 0xFE] ++ Utf16.encode false s) .utf16LE = s.flatMap unjoined ∧
    convertToUtf8 ([0xFE, 0xFF] ++ Utf16.encode true s) .utf16BE = s.flatMap unjoined ∧
    (s.flatMap unjoined = Utf8.encode s ↔ ∀ c ∈ s, c.toNat < 0x10000) := by
  have hskip : ∀ bom rest, skipBom bom (bom ++ rest) = rest := by
    intro bom rest
    rw [skipBom, List.take_left, if_pos rfl, List.drop_left]
  simp only [convertToUtf8, hskip, utf32Text_encode, utf16Text_encode, flatMap_encodePoint_units]
  exact ⟨trivial, trivial, trivial, trivial, flatMap_unjoined_eq_iff s⟩

/-- U+1F600 comes out as two surrogates. -/
theorem convertToUtf8_unicode_astral :
    convertToUtf8 ([0xFF, 0xFE] ++ Utf16.encode false [Char.ofNat 0x1F600]) .utf16LE =
        [0xED, 0xA0, 0xBD, 0xED, 0xB8, 0x80] ∧
      Utf8.encode [Char.ofNat 0x1F600] = [0xF0, 0x9F, 0x98, 0x80] := by
  decide

/-! ## Detection -/

theorem mem_of_mem_bytePairs {data : StdString} {pair : UInt8 × UInt8}
    (h : pair ∈ bytePairs data) : pair.1 ∈ data ∧ pair.2 ∈ data := by
  induction data using bytePairs.induct with
  | case1 a b rest ih =>
      rw [bytePairs] at h
      obtain rfl | h := List.mem_cons.mp h
      · simp
      · exact ⟨List.mem_cons_of_mem _ (List.mem_cons_of_mem _ (ih h).1),
          List.mem_cons_of_mem _ (List.mem_cons_of_mem _ (ih h).2)⟩
  | case2 data hshort =>
      rw [bytePairs.eq_2 data hshort] at h
      cases h

/-- Data without a NUL is not taken for UTF-16. -/
theorem detectUtf16_of_no_nul {data : StdString} (h : ∀ b ∈ data, b ≠ 0) :
    detectUtf16 data = none := by
  have hnone : ∀ p : UInt8 × UInt8 → Bool, (∀ a b, a ≠ 0 → b ≠ 0 → p (a, b) = false) →
      (bytePairs (data.take 256)).countP p = 0 := by
    intro p hp
    refine List.countP_eq_zero.mpr fun pair hpair => ?_
    obtain ⟨hfirst, hsecond⟩ := mem_of_mem_bytePairs hpair
    rw [hp pair.1 pair.2 (h _ (List.mem_of_mem_take hfirst)) (h _ (List.mem_of_mem_take hsecond))]
    exact Bool.false_ne_true
  simp only [detectUtf16]
  rw [hnone, hnone]
  · simp only [Nat.not_lt_zero, if_false, ite_self]
  · intro a b _ hb
    simp [hb]
  · intro a b ha _
    simp [ha]

/-- A mark whose first byte does not occur is not there. -/
theorem take_ne_of_not_mem {data : StdString} {first : UInt8} (h : first ∉ data) (n : Nat)
    (rest : StdString) : data.take n ≠ first :: rest := by
  intro heq
  exact h (List.mem_of_mem_take (heq ▸ List.mem_cons_self))

/-- A prefix passes the check, wherever it is cut. -/
theorem validUtf8_of_append {front back : StdString} {cont : Nat}
    (h : validUtf8 cont (front ++ back) = true) : validUtf8 cont front = true := by
  induction front generalizing cont with
  | nil => cases cont <;> rfl
  | cons b front ih =>
      rw [List.cons_append] at h
      cases cont with
      | zero =>
          rw [validUtf8] at h ⊢
          split_ifs at h ⊢
          all_goals exact ih h
      | succ cont =>
          rw [validUtf8, Bool.and_eq_true] at h ⊢
          exact ⟨h.1, ih h.2⟩

theorem validUtf8_tail (cont n : Nat) (rest : StdString) :
    validUtf8 (cont + 1) (UInt8.ofNat (n % 64 + 0x80) :: rest) = validUtf8 cont rest := by
  have htail : ∀ m < 64, UInt8.ofNat (m + 0x80) &&& 0xC0 = 0x80 := by decide
  rw [validUtf8, htail _ (Nat.mod_lt _ (by decide))]
  simp only [decide_true, Bool.true_and]

theorem validUtf8_utf8EncodeChar (c : Char) (rest : StdString) :
    validUtf8 0 (String.utf8EncodeChar c ++ rest) = validUtf8 0 rest := by
  have hone : ∀ m < 128, UInt8.ofNat m ≤ 0x7F := by decide
  have htwo : ∀ m < 32, ¬ UInt8.ofNat (m + 0xC0) ≤ 0x7F ∧
      UInt8.ofNat (m + 0xC0) &&& 0xE0 = 0xC0 := by decide
  have hthree : ∀ m < 16, ¬ UInt8.ofNat (m + 0xE0) ≤ 0x7F ∧
      UInt8.ofNat (m + 0xE0) &&& 0xE0 ≠ 0xC0 ∧ UInt8.ofNat (m + 0xE0) &&& 0xF0 = 0xE0 := by decide
  have hfour : ∀ m < 8, ¬ UInt8.ofNat (m + 0xF0) ≤ 0x7F ∧
      UInt8.ofNat (m + 0xF0) &&& 0xE0 ≠ 0xC0 ∧ UInt8.ofNat (m + 0xF0) &&& 0xF0 ≠ 0xE0 ∧
      UInt8.ofNat (m + 0xF0) &&& 0xF8 = 0xF0 := by decide
  simp only [String.utf8EncodeChar]
  split
  · rw [List.singleton_append, validUtf8, if_pos (hone _ (by omega))]
  · split
    · obtain ⟨hhigh, hlead⟩ := htwo (c.val.toNat / 64 % 32) (Nat.mod_lt _ (by decide))
      simp only [List.cons_append, List.nil_append]
      rw [validUtf8, if_neg hhigh, if_pos hlead, validUtf8_tail]
    · split
      · obtain ⟨hhigh, hnot, hlead⟩ := hthree (c.val.toNat / 4096 % 16) (Nat.mod_lt _ (by decide))
        simp only [List.cons_append, List.nil_append]
        rw [validUtf8, if_neg hhigh, if_neg hnot, if_pos hlead, validUtf8_tail, validUtf8_tail]
      · obtain ⟨hhigh, hnot, hnot', hlead⟩ :=
          hfour (c.val.toNat / 262144 % 8) (Nat.mod_lt _ (by decide))
        simp only [List.cons_append, List.nil_append]
        rw [validUtf8, if_neg hhigh, if_neg hnot, if_neg hnot', if_pos hlead, validUtf8_tail,
          validUtf8_tail, validUtf8_tail]

theorem validUtf8_encode (s : List Char) : validUtf8 0 (Utf8.encode s) = true := by
  induction s with
  | nil => rfl
  | cons c s ih => rw [Utf8.encode_cons, validUtf8_utf8EncodeChar, ih]

/-- The marks of UTF-16 do not occur in UTF-8. -/
theorem lt_of_mem_encode {s : List Char} {b : UInt8} (h : b ∈ Utf8.encode s) : b.toNat < 0xF8 := by
  obtain ⟨c, -, hb⟩ := List.mem_flatMap.mp h
  have hbyte : ∀ m, (UInt8.ofNat m).toNat = m % 256 := fun m => UInt8.toNat_ofNat'
  simp only [String.utf8EncodeChar] at hb
  split_ifs at hb
  all_goals simp only [List.mem_cons, List.not_mem_nil, or_false] at hb
  · rw [hb, hbyte]
    omega
  · rcases hb with rfl | rfl <;> rw [hbyte] <;> omega
  · rcases hb with rfl | rfl | rfl <;> rw [hbyte] <;> omega
  · rcases hb with rfl | rfl | rfl | rfl <;> rw [hbyte] <;> omega

theorem zero_not_mem_encode {s : List Char} (hnul : Char.ofNat 0 ∉ s) : 0 ∉ Utf8.encode s := by
  intro h
  obtain ⟨c, hc, hb⟩ := List.mem_flatMap.mp h
  rw [Utf8.ascii_mem_utf8EncodeChar (by decide)] at hb
  have hzero : c = Char.ofNat 0 := Char.toNat_inj.mp hb
  exact hnul (hzero ▸ hc)

/-- UTF-8 without NULs goes through the conversion that keeps it. -/
theorem convertToUtf8_detected {s : List Char} (hnul : Char.ofNat 0 ∉ s) :
    convertToUtf8 (Utf8.encode s) (detectEncoding (Utf8.encode s)) =
      skipBom [0xEF, 0xBB, 0xBF] (Utf8.encode s) := by
  have hzero := zero_not_mem_encode hnul
  have habsent : ∀ b : UInt8, 0xF8 ≤ b.toNat → b ∉ Utf8.encode s := fun b hb hmem =>
    Nat.not_lt.mpr hb (lt_of_mem_encode hmem)
  have hbom : detectBom (Utf8.encode s) = none ∨ detectBom (Utf8.encode s) = some .utf8 := by
    unfold detectBom
    rw [if_neg (take_ne_of_not_mem (habsent 0xFF (by decide)) _ _),
      if_neg (take_ne_of_not_mem hzero _ _),
      if_neg (take_ne_of_not_mem (habsent 0xFF (by decide)) _ _),
      if_neg (take_ne_of_not_mem (habsent 0xFE (by decide)) _ _)]
    split
    · exact .inr rfl
    · exact .inl rfl
  have hutf16 := detectUtf16_of_no_nul fun b hb => (ne_of_mem_of_not_mem hb hzero : b ≠ 0)
  have hvalid : validUtf8 0 ((Utf8.encode s).take 4096) = true := by
    have hwhole : validUtf8 0 ((Utf8.encode s).take 4096 ++ (Utf8.encode s).drop 4096) = true := by
      rw [List.take_append_drop, validUtf8_encode]
    exact validUtf8_of_append hwhole
  unfold detectEncoding
  rw [hutf16, Option.or_none]
  rcases hbom with hbom | hbom
  · rw [hbom]
    simp only [hvalid, if_true]
    split <;> rfl
  · rw [hbom]
    rfl

/-- Only U+FEFF is written as the byte order mark. -/
theorem take_encode_eq_mark {c : Char} {s : List Char}
    (h : (Utf8.encode (c :: s)).take 3 = [0xEF, 0xBB, 0xBF]) : c = Char.ofNat 0xFEFF := by
  obtain ⟨b, bytes, hchar, hnext⟩ := Utf8.next_utf8EncodeChar c (Utf8.encode s)
  rw [Utf8.encode_cons, hchar, List.cons_append, List.take_succ_cons, List.cons.injEq] at h
  obtain ⟨rfl, htail⟩ := h
  have hrest : bytes ++ Utf8.encode s = 0xBB :: 0xBF :: (bytes ++ Utf8.encode s).drop 2 := by
    conv => lhs; rw [← List.take_append_drop 2 (bytes ++ Utf8.encode s), htail]
    rfl
  rw [hrest] at hnext
  exact (Option.some.inj (congrArg Prod.fst hnext)).symm

/-- The byte order mark of UTF-8 is a character. -/
theorem skipBom_encode (s : List Char) :
    skipBom [0xEF, 0xBB, 0xBF] (Utf8.encode s) =
      Utf8.encode (if s.head? = some (Char.ofNat 0xFEFF) then s.tail else s) := by
  cases s with
  | nil => rfl
  | cons c s =>
      simp only [List.head?_cons, Option.some.injEq, List.tail_cons]
      by_cases hmark : c = Char.ofNat 0xFEFF
      · rw [if_pos hmark, hmark]
        rfl
      · rw [if_neg hmark, skipBom, if_neg]
        exact fun htake => hmark (take_encode_eq_mark htake)

theorem extractPlainText_utf8 (options : ExtractionOptions) (s : List Char) (filename : StdString)
    (hnonempty : s ≠ []) (hnul : Char.ofNat 0 ∉ s)
    (hsize : (Utf8.encode s).length ≤ options.maxTextSize) :
    extractPlainText options (Utf8.encode s) filename =
      extractedResult
        (Utf8.encode (if s.head? = some (Char.ofNat 0xFEFF) then s.tail else s))
        filename .document := by
  have hdata : Utf8.encode s ≠ [] := by
    obtain ⟨c, rest, rfl⟩ := List.exists_cons_of_ne_nil hnonempty
    rw [Utf8.encode_cons]
    exact List.append_ne_nil_of_left_ne_nil String.utf8EncodeChar_ne_nil _
  have hshort : (skipBom [0xEF, 0xBB, 0xBF] (Utf8.encode s)).length ≤ options.maxTextSize := by
    refine Nat.le_trans ?_ hsize
    unfold skipBom
    split
    · rw [List.length_drop]
      exact Nat.sub_le _ _
    · exact Nat.le_refl _
  rw [extractPlainText, if_neg hdata, convertToUtf8_detected hnul, List.take_of_length_le hshort,
    skipBom_encode]

/-- With a mark, and a character of four bytes. -/
theorem extractPlainText_utf8_marked :
    extractPlainText {} (Utf8.encode [Char.ofNat 0xFEFF, 'a', Char.ofNat 0x1F600]) [] =
      extractedResult (Utf8.encode ['a', Char.ofNat 0x1F600]) [] .document :=
  extractPlainText_utf8 {} [Char.ofNat 0xFEFF, 'a', Char.ofNat 0x1F600] []
    (by decide) (by decide) (by decide)

end AkesoDlp.Agent
