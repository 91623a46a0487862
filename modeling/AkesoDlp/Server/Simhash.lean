import AkesoDlp.Lib.Squeeze
import AkesoDlp.Lib.Utf8
import AkesoDlp.Server.FingerprintIndex
import AkesoDlp.Server.KeywordAnalyzer
import Mathlib.Data.List.GetD
import Mathlib.Logic.Relation

/-!
# Fingerprints of text

`_normalize_text` lowers the text before it strips the punctuation, and the lower case of a
capital sigma depends on the characters around it. Nothing else of the formatting reaches the
fingerprint, whose bits are majorities over the shingles.
-/

namespace AkesoDlp.Server.Simhash

open Lib
open Lib.CaseTables (Glyph)
open FingerprintIndex (fnv1a64 generateShingles weigh buildHash shingleHash)
open Inspector (PyStr)

/-! ## The fingerprint -/

/-- Cased, but neither a letter nor a number. -/
def circledA : Char := Char.ofNat 0x24B6

/-- The tables behind `str.lower`, `\w` and `\s`, with what Unicode says about them. -/
structure TextTables extends UnicodeTables where
  space : Char → Bool
  wordChar_lower : ∀ c, wordChar (lower c) = wordChar c
  space_lower : ∀ c, space (lower c) = space c
  not_space_of_wordChar : ∀ c, wordChar c = true → space c = false
  space_blank : space ' ' = true
  lower_ascii : ∀ c, c.isAlpha = true → lower c = c.toLower
  wordChar_ascii : ∀ c, c.isAlpha = true → wordChar c = true
  wordChar_smallSigma : wordChar smallSigma = true
  wordChar_finalSigma : wordChar finalSigma = true
  hyphen : wordChar '-' = false ∧ space '-' = false ∧ ignorable '-' = false ∧ cased '-' = false
  circledA : wordChar circledA = false ∧ space circledA = false ∧ ignorable circledA = false ∧
    cased circledA = true

section

variable (t : TextTables)

/-- What `re.sub(r"[^\w\s]", "", text)` leaves. -/
def TextTables.keep (c : Char) : Bool := t.wordChar c || t.space c

/-- `_normalize_text`. -/
def normalizeText (text : PyStr) : PyStr :=
  let text := t.lowerText text
  let text := text.filter t.keep
  trim t.space (squeeze t.space ' ' text)

/-- `compute_simhash`. -/
def computeSimhash (text : PyStr) (shingleSize : Int) : Nat :=
  FingerprintIndex.computeSimhash (normalizeText t text) shingleSize

end

/-! ## Majorities -/

/-- Each weight counts the hashes with the bit up and the others down. -/
theorem foldl_weigh (hashes : List Nat) (weights : List Int) {i : Nat} (hi : i < weights.length) :
    (hashes.foldl weigh weights).getD i 0 =
      weights.getD i 0 + 2 * hashes.countP (fun h => h.testBit i) - hashes.length := by
  induction hashes generalizing weights with
  | nil => simp
  | cons h hashes ih =>
      have hlength : (weigh weights h).length = weights.length := by
        rw [weigh, List.length_mapIdx]
      have hround : (weigh weights h).getD i 0 =
          weights.getD i 0 + if h.testBit i then 1 else -1 := by
        rw [List.getD_eq_getElem _ _ (by omega), List.getD_eq_getElem _ _ hi]
        unfold weigh
        rw [List.getElem_mapIdx]
        split <;> rfl
      rw [List.foldl_cons, ih _ (by omega), hround, List.countP_cons, List.length_cons]
      cases h.testBit i <;> simp <;> omega

theorem testBit_foldl_or (n : Nat) (b : Nat → Bool) (i : Nat) :
    ((List.range n).foldl (fun acc j => if b j then acc ||| 1 <<< j else acc) 0).testBit i =
      (decide (i < n) && b i) := by
  induction n with
  | zero => simp
  | succ n ih =>
      rw [List.range_succ, List.foldl_append, List.foldl_cons, List.foldl_nil]
      by_cases hn : i = n
      · subst hn
        cases hb : b i <;> simp [ih, Nat.testBit_or, hb]
      · have hlt : decide (i < n + 1) = decide (i < n) := by
          rw [decide_eq_decide]
          omega
        have hne : Nat.testBit (1 <<< n) i = false := by
          rw [Nat.one_shiftLeft, Nat.testBit_two_pow_of_ne (Ne.symm hn)]
        cases b n <;> simp only [if_true, Bool.false_eq_true, if_false, Nat.testBit_or, hne,
          Bool.or_false, ih, hlt]

theorem testBit_buildHash (weights : List Int) (i : Nat) :
    (buildHash weights).testBit i = (decide (i < 64) && decide (0 < weights.getD i 0)) := by
  have hfold := testBit_foldl_or 64 (fun j => decide (0 < weights.getD j 0)) i
  simpa only [buildHash, decide_eq_true_eq] using hfold

theorem shingleHash_lt (shingle : PyStr) : shingleHash shingle < 2 ^ 64 :=
  (fnv1a64 (Utf8.encode shingle)).toNat_lt

theorem countP_testBit_eq_zero {i : Nat} (hi : 64 ≤ i) (shingles : List PyStr) :
    shingles.countP (fun shingle => (shingleHash shingle).testBit i) = 0 := by
  rw [List.countP_eq_zero]
  intro shingle _
  rw [Nat.testBit_lt_two_pow (lt_of_lt_of_le (shingleHash_lt shingle)
    (Nat.pow_le_pow_right (by decide) hi))]
  exact Bool.false_ne_true

variable {t : TextTables} {text text' : PyStr}

/-- A bit of the fingerprint is set when more than half of the shingles have it. -/
theorem testBit_computeSimhash (text : PyStr) (shingleSize : Int) (i : Nat) :
    (computeSimhash t text shingleSize).testBit i = true ↔
      (generateShingles (normalizeText t text) shingleSize).length <
        2 * (generateShingles (normalizeText t text) shingleSize).countP
          (fun shingle => (shingleHash shingle).testBit i) := by
  unfold computeSimhash FingerprintIndex.computeSimhash
  dsimp only
  generalize generateShingles (normalizeText t text) shingleSize = shingles
  by_cases hempty : shingles = []
  · subst hempty
    simp
  rw [if_neg (by simpa using hempty), testBit_buildHash]
  by_cases hi : i < 64
  · rw [foldl_weigh _ _ (by simpa using hi), List.countP_map, List.length_map]
    have hzero : (List.replicate 64 (0 : Int)).getD i 0 = 0 := by
      rw [List.getD_eq_getElem _ _ (by simpa using hi), List.getElem_replicate]
    rw [hzero, Bool.and_eq_true, decide_eq_true_eq, decide_eq_true_eq]
    have hcomp : ((fun h => h.testBit i) ∘ shingleHash) =
        fun shingle => (shingleHash shingle).testBit i := rfl
    rw [hcomp]
    omega
  · rw [countP_testBit_eq_zero (Nat.le_of_not_lt hi)]
    simp [hi]

/-! ## Formatting -/

variable (t) in
/-- One change of the formatting. -/
inductive Edit : PyStr → PyStr → Prop
  | letterCase (front back : PyStr) {c d : Char} (hc : c.isAlpha = true) (hd : d.isAlpha = true)
      (h : c.toLower = d.toLower) : Edit (front ++ c :: back) (front ++ d :: back)
  | insert (front back : PyStr) {c : Char} (hword : t.wordChar c = false)
      (hspace : t.space c = false) : Edit (front ++ back) (front ++ c :: back)
  | delete (front back : PyStr) {c : Char} (hword : t.wordChar c = false)
      (hspace : t.space c = false) : Edit (front ++ c :: back) (front ++ back)
  | lengthen (front back : PyStr) {run run' : PyStr} (hne : run ≠ [])
      (hrun : ∀ c ∈ run, t.space c = true) (hrun' : ∀ c ∈ run', t.space c = true)
      (hle : run.length ≤ run'.length) : Edit (front ++ run ++ back) (front ++ run' ++ back)
  | pad (text : PyStr) {lead trail : PyStr} (hlead : ∀ c ∈ lead, t.space c = true)
      (htrail : ∀ c ∈ trail, t.space c = true) : Edit text (lead ++ text ++ trail)

variable (t) in
/-- Any number of such changes. -/
def Reformatted : PyStr → PyStr → Prop := Relation.ReflTransGen (Edit t)

variable (t) in
/-- The punctuation and the whitespace of `_normalize_text`, before the sigmas are rendered. -/
def format (gs : List Glyph) : List Glyph :=
  trim (fun g => t.space g.render)
    (squeeze (fun g => t.space g.render) (.plain ' ') (gs.filter fun g => t.keep g.render))

theorem normalizeText_eq_format (text : PyStr) :
    normalizeText t text = (format t (t.glyphs text)).map Glyph.render := by
  unfold normalizeText format
  dsimp only
  rw [CaseTables.lowerText_eq_glyphs, List.filter_map,
    ← trim_map (p := t.space) Glyph.render fun _ _ => rfl,
    ← squeeze_map (q := t.space) Glyph.render fun _ => rfl]
  rfl

theorem wordChar_render_blur (g : Glyph) : t.wordChar g.blur.render = t.wordChar g.render := by
  cases g with
  | plain c => rfl
  | sigma final =>
      cases final with
      | false => rfl
      | true => exact t.wordChar_smallSigma.trans t.wordChar_finalSigma.symm

theorem space_render_blur (g : Glyph) : t.space g.blur.render = t.space g.render := by
  cases g with
  | plain c => rfl
  | sigma final =>
      cases final with
      | false => rfl
      | true =>
          exact (t.not_space_of_wordChar _ t.wordChar_smallSigma).trans
            (t.not_space_of_wordChar _ t.wordChar_finalSigma).symm

/-- Blurred before or after. -/
theorem format_blur (gs : List Glyph) :
    (format t gs).map Glyph.blur = format t (gs.map Glyph.blur) := by
  have hkeep : (fun g : Glyph => t.keep g.render) ∘ Glyph.blur = fun g => t.keep g.render := by
    funext g
    simp only [Function.comp_apply, TextTables.keep, wordChar_render_blur, space_render_blur]
  unfold format
  rw [List.filter_map, hkeep, ← trim_map (p := fun g => t.space g.render) Glyph.blur
      fun g _ => space_render_blur g,
    ← squeeze_map (q := fun g => t.space g.render) Glyph.blur space_render_blur]
  rfl

/-- No sigma is lost. -/
theorem filterMap_final_format (gs : List Glyph) :
    (format t gs).filterMap Glyph.final? = gs.filterMap Glyph.final? := by
  have hword : ∀ g : Glyph, (Glyph.final? g).isSome = true → t.wordChar g.render = true := by
    intro g hg
    cases g with
    | plain c => cases hg
    | sigma final =>
        cases final with
        | false => exact t.wordChar_smallSigma
        | true => exact t.wordChar_finalSigma
  have hspace : ∀ g : Glyph, t.space g.render = true → (Glyph.final? g).isSome = false := by
    intro g hg
    rw [← Bool.not_eq_true]
    intro hsome
    rw [t.not_space_of_wordChar _ (hword g hsome)] at hg
    cases hg
  have hfilter : (format t gs).filter (fun g => (Glyph.final? g).isSome) =
      gs.filter fun g => (Glyph.final? g).isSome := by
    rw [format, filter_trim hspace, filter_squeeze hspace rfl, List.filter_filter]
    refine List.filter_congr fun g _ => ?_
    cases hsome : (Glyph.final? g).isSome with
    | false => rfl
    | true => simp [TextTables.keep, hword g hsome]
  have hmap : ∀ l : List Glyph, l.filterMap Glyph.final? =
      (l.filter fun g => (Glyph.final? g).isSome).filterMap Glyph.final? := by
    intro l
    rw [List.filterMap_filter]
    refine List.filterMap_congr fun g _ => ?_
    cases g <;> rfl
  rw [hmap, hfilter, ← hmap]

/-! ### What an edit leaves -/

theorem format_append_cons_dropped {g : Glyph} (hg : t.keep g.render = false)
    (front back : List Glyph) : format t (front ++ g :: back) = format t (front ++ back) := by
  unfold format
  rw [List.filter_append, List.filter_cons_of_neg (by simp [hg]), ← List.filter_append]

/-- A character that keeps its place, whatever its context. -/
theorem blurred_of_ne {c : Char} (hdotted : c ≠ dottedI) (hsigma : c ≠ capitalSigma) :
    t.blurred c = [.plain (t.lower c)] := by
  rw [CaseTables.blurred, CaseTables.glyphsAt, if_neg hdotted, if_neg hsigma]
  rfl

theorem wordChar_dottedI : t.wordChar dottedI = true := by
  rw [← t.wordChar_lower, t.lower_dottedI]
  exact t.wordChar_ascii 'i' (by decide)

theorem wordChar_capitalSigma : t.wordChar capitalSigma = true := by
  rw [← t.wordChar_lower, t.lower_capitalSigma]
  exact t.wordChar_smallSigma

theorem blurred_of_not_wordChar {c : Char} (h : t.wordChar c = false) :
    t.blurred c = [.plain (t.lower c)] := by
  refine blurred_of_ne ?_ ?_
  · rintro rfl
    exact absurd (wordChar_dottedI.symm.trans h) (by decide)
  · rintro rfl
    exact absurd (wordChar_capitalSigma.symm.trans h) (by decide)

theorem blurred_of_isAlpha {c : Char} (h : c.isAlpha = true) :
    t.blurred c = [.plain c.toLower] := by
  rw [blurred_of_ne, t.lower_ascii c h]
  · rintro rfl
    exact absurd h (by decide)
  · rintro rfl
    exact absurd h (by decide)

theorem not_wordChar_of_space {c : Char} (h : t.space c = true) : t.wordChar c = false := by
  rw [← Bool.not_eq_true]
  intro hword
  rw [t.not_space_of_wordChar c hword] at h
  cases h

/-- A run of whitespace stays one. -/
theorem space_flatMap_blurred {run : PyStr} (h : ∀ c ∈ run, t.space c = true) :
    ∀ g ∈ run.flatMap t.blurred, t.space g.render = true := by
  intro g hg
  obtain ⟨c, hc, hmem⟩ := List.mem_flatMap.mp hg
  rw [blurred_of_not_wordChar (not_wordChar_of_space (h c hc)), List.mem_singleton] at hmem
  subst hmem
  exact (t.space_lower c).trans (h c hc)

theorem flatMap_blurred_ne_nil {run : PyStr} (hne : run ≠ [])
    (h : ∀ c ∈ run, t.space c = true) : run.flatMap t.blurred ≠ [] := by
  obtain ⟨c, rest, rfl⟩ := List.exists_cons_of_ne_nil hne
  rw [List.flatMap_cons,
    blurred_of_not_wordChar (not_wordChar_of_space (h c List.mem_cons_self))]
  exact List.cons_ne_nil _ _

theorem filter_keep_of_space {gs : List Glyph} (h : ∀ g ∈ gs, t.space g.render = true) :
    (gs.filter fun g => t.keep g.render) = gs :=
  List.filter_eq_self.mpr fun g hg => by simp [TextTables.keep, h g hg]

theorem format_blurred_insert (front back : PyStr) {c : Char} (hword : t.wordChar c = false)
    (hspace : t.space c = false) :
    format t ((front ++ c :: back).flatMap t.blurred) =
      format t ((front ++ back).flatMap t.blurred) := by
  have hdropped : t.keep (t.lower c) = false := by
    rw [TextTables.keep, t.wordChar_lower, t.space_lower, hword, hspace, Bool.or_false]
  rw [List.flatMap_append, List.flatMap_cons, blurred_of_not_wordChar hword,
    List.singleton_append, format_append_cons_dropped hdropped, List.flatMap_append]

/-- Apart from the forms of the sigmas an edit changes nothing. -/
theorem Edit.format_blurred (h : Edit t text text') :
    format t (text'.flatMap t.blurred) = format t (text.flatMap t.blurred) := by
  cases h with
  | letterCase front back hc hd hlower =>
      rw [List.flatMap_append, List.flatMap_cons, List.flatMap_append, List.flatMap_cons,
        blurred_of_isAlpha hc, blurred_of_isAlpha hd, hlower]
  | insert front back hword hspace => exact format_blurred_insert front back hword hspace
  | delete front back hword hspace => exact (format_blurred_insert front back hword hspace).symm
  | @lengthen front back run run' hne hrun hrun' hle =>
      have hne' : run' ≠ [] := by
        intro hnil
        rw [hnil, List.length_nil] at hle
        exact hne (List.length_eq_zero_iff.mp (Nat.le_zero.mp hle))
      have hspace := space_flatMap_blurred hrun
      have hspace' := space_flatMap_blurred hrun'
      unfold format
      simp only [List.flatMap_append, List.filter_append]
      rw [filter_keep_of_space hspace, filter_keep_of_space hspace',
        squeeze_replace_run (flatMap_blurred_ne_nil hne hrun) hspace
          (flatMap_blurred_ne_nil hne' hrun') hspace']
  | @pad _ lead trail hlead htrail =>
      have hspaceLead := space_flatMap_blurred hlead
      have hspaceTrail := space_flatMap_blurred htrail
      have hblank : (fun g : Glyph => t.space g.render) (.plain ' ') = true := t.space_blank
      unfold format
      simp only [List.flatMap_append, List.filter_append]
      rw [filter_keep_of_space hspaceLead, filter_keep_of_space hspaceTrail,
        trim_squeeze_pad (p := fun g : Glyph => t.space g.render) hblank hspaceLead hspaceTrail]

/-- Nor does any number of them. -/
theorem Reformatted.blur_format (h : Reformatted t text text') :
    (format t (t.glyphs text')).map Glyph.blur = (format t (t.glyphs text)).map Glyph.blur := by
  rw [format_blur, format_blur, CaseTables.glyphs_blur, CaseTables.glyphs_blur]
  induction h with
  | refl => rfl
  | tail _ hedit ih => exact hedit.format_blurred.trans ih

/-- If the same sigmas are final ones, the normal form is the same. -/
theorem Reformatted.normalizeText_eq (h : Reformatted t text text')
    (hsigmas : t.finalSigmas text' = t.finalSigmas text) :
    normalizeText t text' = normalizeText t text := by
  have hsame : format t (t.glyphs text') = format t (t.glyphs text) := by
    refine Glyph.eq_of_blur_of_final h.blur_format ?_
    rw [filterMap_final_format, filterMap_final_format]
    exact hsigmas
  rw [normalizeText_eq_format, normalizeText_eq_format, hsame]

/-- As many sigmas as before. -/
theorem Reformatted.length_finalSigmas (h : Reformatted t text text') :
    (t.finalSigmas text').length = (t.finalSigmas text).length := by
  have hlength := Glyph.length_final h.blur_format
  rwa [filterMap_final_format, filterMap_final_format] at hlength

theorem Reformatted.finalSigmas_eq (h : Reformatted t text text') (hsigma : capitalSigma ∉ text) :
    t.finalSigmas text' = t.finalSigmas text := by
  have hnil := CaseTables.finalSigmas_eq_nil (t := t.toCaseTables) hsigma
  have hlength := h.length_finalSigmas
  rw [hnil, List.length_nil, List.length_eq_zero_iff] at hlength
  rw [hlength, hnil]

/-! ## Sigmas in the hash -/

/-- The factor of FNV-1a is odd. -/
theorem mul_fnvPrime_injective {x y : UInt64} (h : x * 0x100000001B3 = y * 0x100000001B3) :
    x = y := by
  have hinverse : (0x100000001B3 : UInt64) * 0xCE965057AFF6957B = 1 := by decide
  have hmul := congrArg (fun z : UInt64 => z * 0xCE965057AFF6957B) h
  simpa only [UInt64.mul_assoc, hinverse, UInt64.mul_one] using hmul

/-- So the rest of the bytes keeps two states apart. -/
theorem fnv1a64_foldl_injective {h h' : UInt64} (data : List UInt8)
    (heq : data.foldl (fun h b => (h ^^^ b.toUInt64) * 0x100000001B3) h =
      data.foldl (fun h b => (h ^^^ b.toUInt64) * 0x100000001B3) h') : h = h' := by
  induction data generalizing h h' with
  | nil => exact heq
  | cons b data ih => exact (UInt64.xor_left_inj _).mp (mul_fnvPrime_injective (ih heq))

/-- The two forms of one sigma give two hashes. -/
theorem shingleHash_sigma_ne (front back : PyStr) :
    shingleHash (front ++ finalSigma :: back) ≠ shingleHash (front ++ smallSigma :: back) := by
  intro heq
  have hencode : ∀ c, Utf8.encode (front ++ c :: back) =
      Utf8.encode front ++ (String.utf8EncodeChar c ++ Utf8.encode back) := by
    intro c
    simp [Utf8.encode]
  have hfinal : String.utf8EncodeChar finalSigma = [0xCF, 0x82] := by decide
  have hsmall : String.utf8EncodeChar smallSigma = [0xCF, 0x83] := by decide
  have hfold := UInt64.toNat_inj.mp heq
  unfold fnv1a64 at hfold
  rw [hencode, hencode, hfinal, hsmall, List.foldl_append, List.foldl_append, List.foldl_append,
    List.foldl_append] at hfold
  -- the states differ after the second byte of the sigma
  have hbytes := mul_fnvPrime_injective (fnv1a64_foldl_injective _ hfold)
  exact absurd ((UInt64.xor_right_inj _).mp hbytes) (by decide)

/-- A shingle as long as the normal form is all of it. -/
theorem computeSimhash_length (text : PyStr) :
    computeSimhash t text (normalizeText t text).length = shingleHash (normalizeText t text) := by
  have hone : generateShingles (normalizeText t text) (normalizeText t text).length =
      [normalizeText t text] := by
    rw [generateShingles, if_neg (Int.lt_irrefl _)]
    simp
  refine Nat.eq_of_testBit_eq fun i => ?_
  rw [Bool.eq_iff_iff, testBit_computeSimhash, hone]
  cases hbit : (shingleHash (normalizeText t text)).testBit i <;> simp [hbit]

/-- Around a kept character outside of the runs the form is put together from its two sides. -/
theorem format_append_cons {g : Glyph} (hkeep : t.keep g.render = true)
    (hspace : t.space g.render = false) (front back : List Glyph) :
    format t (front ++ g :: back) =
      (squeeze (fun g => t.space g.render) (.plain ' ')
          (front.filter fun g => t.keep g.render)).dropWhile (fun g => t.space g.render) ++
        g :: (squeeze (fun g => t.space g.render) (.plain ' ')
          (back.filter fun g => t.keep g.render)).rdropWhile (fun g => t.space g.render) := by
  unfold format
  rw [List.filter_append, List.filter_cons_of_pos (by simpa using hkeep)]
  exact trim_squeeze_append_cons (p := fun g : Glyph => t.space g.render) hspace _ _

theorem glyphs_hyphen (front rest : PyStr) :
    t.glyphs (front ++ '-' :: rest) =
      t.glyphs (front ++ ['-']) ++ t.glyphsFrom ('-' :: front.reverse) rest := by
  have hsplit := CaseTables.glyphsFrom_append_barrier t.hyphen.2.2.1 (by decide) [] front rest
  rwa [List.append_nil] at hsplit

theorem glyphsFrom_of_not_wordChar {c : Char} (h : t.wordChar c = false) (before rest : PyStr) :
    t.glyphsFrom before (c :: rest) = .plain (t.lower c) :: t.glyphsFrom (c :: before) rest := by
  have hdotted : c ≠ dottedI := by
    rintro rfl
    exact absurd (wordChar_dottedI.symm.trans h) (by decide)
  have hsigma : c ≠ capitalSigma := by
    rintro rfl
    exact absurd (wordChar_capitalSigma.symm.trans h) (by decide)
  rw [CaseTables.glyphsFrom, CaseTables.glyphsAt, if_neg hdotted, if_neg hsigma]
  rfl

theorem startsCased_cons {c : Char} (h : t.ignorable c = false) (s : PyStr) :
    t.startsCased (c :: s) = t.cased c := by
  rw [CaseTables.startsCased, List.dropWhile_cons_of_neg (by simp [h])]
  rfl

/-- Before a hyphen a sigma is a final one if it comes after a cased character. -/
theorem glyphsFrom_sigma_hyphen (before back : PyStr) :
    t.glyphsFrom before (capitalSigma :: '-' :: back) =
      .sigma (t.startsCased before) :: .plain (t.lower '-') :: t.glyphsFrom ['-'] back := by
  obtain ⟨hword, -, hignorable, hcased⟩ := t.hyphen
  rw [CaseTables.glyphsFrom, glyphsFrom_of_not_wordChar hword, CaseTables.glyphsAt,
    if_neg (by decide), if_pos rfl, startsCased_cons hignorable, hcased, Bool.not_false,
    Bool.and_true]
  have hbarrier := CaseTables.glyphsFrom_barrier hignorable [] (capitalSigma :: before) back
  rw [List.nil_append, List.nil_append] at hbarrier
  rw [hbarrier]
  rfl

/-- Punctuation around a sigma decides whether it is a final one, and nothing else. -/
theorem exists_normalizeText_sigma (t : TextTables) (front back : PyStr) :
    ∃ a b : PyStr,
      normalizeText t (front ++ '-' :: circledA :: capitalSigma :: '-' :: back) =
          a ++ finalSigma :: b ∧
        normalizeText t (front ++ '-' :: capitalSigma :: '-' :: back) = a ++ smallSigma :: b := by
  obtain ⟨-, -, hignorableHyphen, hcasedHyphen⟩ := t.hyphen
  obtain ⟨hwordA, hspaceA, hignorableA, hcasedA⟩ := t.circledA
  have hafterA : t.glyphs (front ++ '-' :: circledA :: capitalSigma :: '-' :: back) =
      t.glyphs (front ++ ['-']) ++ .plain (t.lower circledA) :: .sigma true ::
        .plain (t.lower '-') :: t.glyphsFrom ['-'] back := by
    rw [glyphs_hyphen, glyphsFrom_of_not_wordChar hwordA, glyphsFrom_sigma_hyphen,
      startsCased_cons hignorableA, hcasedA]
  have hafterHyphen : t.glyphs (front ++ '-' :: capitalSigma :: '-' :: back) =
      t.glyphs (front ++ ['-']) ++ .sigma false :: .plain (t.lower '-') ::
        t.glyphsFrom ['-'] back := by
    rw [glyphs_hyphen, glyphsFrom_sigma_hyphen, startsCased_cons hignorableHyphen, hcasedHyphen]
  have hdropped : t.keep (t.lower circledA) = false := by
    rw [TextTables.keep, t.wordChar_lower, t.space_lower, hwordA, hspaceA, Bool.or_false]
  have hkeepFinal : t.keep finalSigma = true := by
    rw [TextTables.keep, t.wordChar_finalSigma, Bool.true_or]
  have hkeepSmall : t.keep smallSigma = true := by
    rw [TextTables.keep, t.wordChar_smallSigma, Bool.true_or]
  rw [normalizeText_eq_format, normalizeText_eq_format, hafterA, hafterHyphen,
    format_append_cons_dropped hdropped,
    format_append_cons (g := .sigma true) hkeepFinal
      (t.not_space_of_wordChar _ t.wordChar_finalSigma),
    format_append_cons (g := .sigma false) hkeepSmall
      (t.not_space_of_wordChar _ t.wordChar_smallSigma)]
  simp only [List.map_append, List.map_cons]
  exact ⟨_, _, rfl, rfl⟩

/-! ## Formatting and fingerprints -/

variable (t) in
/-- No change of the formatting changes the fingerprint. -/
def FormattingIgnored (text : PyStr) : Prop :=
  ∀ text', Reformatted t text text' →
    ∀ shingleSize, computeSimhash t text' shingleSize = computeSimhash t text shingleSize

variable (t) in
/-- The bits that more than half of the shingles of the normal form have in their hashes. -/
def BitsByMajority (text : PyStr) : Prop :=
  ∀ shingleSize i, (computeSimhash t text shingleSize).testBit i = true ↔
    (generateShingles (normalizeText t text) shingleSize).length <
      2 * (generateShingles (normalizeText t text) shingleSize).countP
        (fun shingle => (shingleHash shingle).testBit i)

theorem computeSimhash_congr (h : normalizeText t text' = normalizeText t text)
    (shingleSize : Int) :
    computeSimhash t text' shingleSize = computeSimhash t text shingleSize := by
  unfold computeSimhash
  rw [h]

/-- With a capital sigma in the text, two ways to set it apart have different fingerprints. -/
theorem not_formattingIgnored (h : capitalSigma ∈ text) : ¬ FormattingIgnored t text := by
  intro hignored
  obtain ⟨front, back, rfl⟩ := List.append_of_mem h
  obtain ⟨hwordHyphen, hspaceHyphen, -⟩ := t.hyphen
  obtain ⟨hwordA, hspaceA, -⟩ := t.circledA
  obtain ⟨a, b, hfinal, hsmall⟩ := exists_normalizeText_sigma t front back
  have hbetween : Reformatted t (front ++ capitalSigma :: back)
      (front ++ '-' :: capitalSigma :: '-' :: back) := by
    refine .tail (.single (.insert front (capitalSigma :: back) hwordHyphen hspaceHyphen)) ?_
    simpa using Edit.insert (front ++ ['-', capitalSigma]) back hwordHyphen hspaceHyphen
  have hafterA : Reformatted t (front ++ capitalSigma :: back)
      (front ++ '-' :: circledA :: capitalSigma :: '-' :: back) := by
    refine hbetween.tail ?_
    simpa using Edit.insert (front ++ ['-']) (capitalSigma :: '-' :: back) hwordA hspaceA
  have hlength :
      (normalizeText t (front ++ '-' :: circledA :: capitalSigma :: '-' :: back)).length =
        (normalizeText t (front ++ '-' :: capitalSigma :: '-' :: back)).length := by
    simp [hfinal, hsmall]
  have hsame : ∀ shingleSize,
      computeSimhash t (front ++ '-' :: circledA :: capitalSigma :: '-' :: back) shingleSize =
        computeSimhash t (front ++ '-' :: capitalSigma :: '-' :: back) shingleSize :=
    fun shingleSize => (hignored _ hafterA shingleSize).trans (hignored _ hbetween shingleSize).symm
  -- a shingle of the whole text tells the two apart
  have hone := computeSimhash_length (t := t)
    (front ++ '-' :: circledA :: capitalSigma :: '-' :: back)
  rw [hsame, hlength, computeSimhash_length, hfinal, hsmall] at hone
  exact shingleHash_sigma_ne a b hone.symm

/-- Formatting is ignored exactly in texts without capital sigmas, and in the others by every
change that keeps the same of them final. -/
theorem formatting_ignored_iff (t : TextTables) (text : PyStr) :
    (FormattingIgnored t text ↔ capitalSigma ∉ text) ∧
      (∀ text', Reformatted t text text' → t.finalSigmas text' = t.finalSigmas text →
        ∀ shingleSize, computeSimhash t text' shingleSize = computeSimhash t text shingleSize) ∧
      BitsByMajority t text := by
  have hkept : ∀ text', Reformatted t text text' → t.finalSigmas text' = t.finalSigmas text →
      ∀ shingleSize, computeSimhash t text' shingleSize = computeSimhash t text shingleSize :=
    fun text' hreformatted hsigmas => computeSimhash_congr (hreformatted.normalizeText_eq hsigmas)
  refine ⟨⟨fun hignored hmem => not_formattingIgnored hmem hignored, fun hsigma text' h => ?_⟩,
    hkept, testBit_computeSimhash text⟩
  exact hkept text' h (h.finalSigmas_eq hsigma)

/-! ## A Greek word -/

theorem apply_sampleLower (f : Char → Bool)
    (hletter : ∀ n, 65 ≤ n → n ≤ 90 → f (Char.ofNat (n + 32)) = f (Char.ofNat n))
    (hdotted : f 'i' = f dottedI) (hsigma : f smallSigma = f capitalSigma) (c : Char) :
    f (sampleLower c) = f c := by
  unfold sampleLower
  split
  · next hupper => rw [hletter c.toNat hupper.1 hupper.2, Char.ofNat_toNat]
  · split
    · next heq => rw [heq, hdotted]
    · split
      · next heq => rw [heq, hsigma]
      · rfl

/-- A property of the letters of ASCII is one of 128 characters. -/
theorem forall_isAlpha {p : Char → Prop}
    (h : ∀ n < 128, (Char.ofNat n).isAlpha = true → p (Char.ofNat n)) {c : Char}
    (hc : c.isAlpha = true) : p c := by
  have hlt : c.toNat < 128 := by
    rcases Bool.or_eq_true_iff.mp hc with hupper | hlower
    · have hle := (of_decide_eq_true hupper).2
      exact lt_of_le_of_lt (UInt32.le_iff_toNat_le.mp hle) (by decide)
    · have hle := of_decide_eq_true (Bool.and_eq_true_iff.mp hlower).2
      exact lt_of_le_of_lt (UInt32.le_iff_toNat_le.mp hle) (by decide)
  have hchar := h c.toNat hlt
  rw [Char.ofNat_toNat] at hchar
  exact hchar hc

def sampleSpace (c : Char) : Bool := [' ', '\n', '\t'].contains c

def sampleTextTables : TextTables where
  toUnicodeTables := { sampleTables with
    cased := fun c => sampleTables.cased c || c == circledA }
  space := sampleSpace
  wordChar_lower := apply_sampleLower sampleTables.wordChar (by decide) (by decide) (by decide)
  space_lower := apply_sampleLower sampleSpace (by decide) (by decide) (by decide)
  not_space_of_wordChar := by
    intro c hword
    rw [← Bool.not_eq_true]
    intro hspace
    have hall : [' ', '\n', '\t'].all (fun d => !sampleTables.wordChar d) = true := by decide
    have hnot := List.all_eq_true.mp hall c (List.contains_iff_mem.mp hspace)
    rw [hword] at hnot
    cases hnot
  space_blank := by decide
  lower_ascii _ := forall_isAlpha (p := fun c => sampleLower c = c.toLower) (by decide)
  wordChar_ascii _ := forall_isAlpha (p := fun c => sampleTables.wordChar c = true) (by decide)
  wordChar_smallSigma := by decide
  wordChar_finalSigma := by decide
  hyphen := by decide
  circledA := by decide

/-- A text without sigmas in another layout. -/
theorem formatting_ignored_memo :
    normalizeText sampleTextTables " Memo:  Q3 plan\n".toList = "memo q3 plan".toList ∧
      FormattingIgnored sampleTextTables " Memo:  Q3 plan\n".toList :=
  ⟨by decide +kernel, (formatting_ignored_iff sampleTextTables _).1.mpr (by decide)⟩

/-- A hyphen after the sigma makes it a final one. -/
theorem not_formattingIgnored_hyphen :
    Reformatted sampleTextTables ['A', capitalSigma, 'B'] ['A', capitalSigma, '-', 'B'] ∧
      normalizeText sampleTextTables ['A', capitalSigma, 'B'] = ['a', smallSigma, 'b'] ∧
      normalizeText sampleTextTables ['A', capitalSigma, '-', 'B'] = ['a', finalSigma, 'b'] ∧
      ¬ FormattingIgnored sampleTextTables ['A', capitalSigma, 'B'] := by
  have hreformatted :
      Reformatted sampleTextTables ['A', capitalSigma, 'B'] ['A', capitalSigma, '-', 'B'] :=
    .single (.insert ['A', capitalSigma] ['B'] (by decide) (by decide))
  refine ⟨hreformatted, by decide, by decide, fun hignored => ?_⟩
  exact absurd (hignored _ hreformatted 4) (by decide +kernel)

end AkesoDlp.Server.Simhash
