import Mathlib.Data.List.Infix
import Mathlib.Data.List.TakeWhile

/-!
# Lower case of Unicode text

The full lower case mapping over the tables of characters: one character for one, but for
U+0130, which becomes two, and for capital sigma, which becomes a final sigma after a cased
and before no cased character. Lowering is idempotent. It commutes with taking parts of the
text exactly when neither of the two comes up.
-/

namespace Lib

/-- Latin capital I with dot above. -/
def dottedI : Char := Char.ofNat 0x130

/-- Combining dot above. -/
def combiningDot : Char := Char.ofNat 0x307

def capitalSigma : Char := Char.ofNat 0x3A3

def smallSigma : Char := Char.ofNat 0x3C3

def finalSigma : Char := Char.ofNat 0x3C2

/-- The simple lower case mapping, and the two properties that the context of a capital
sigma is made of. -/
structure CaseTables where
  lower : Char → Char
  cased : Char → Bool
  ignorable : Char → Bool
  lower_lower : ∀ c, lower (lower c) = lower c
  lower_dottedI : lower dottedI = 'i'
  lower_combiningDot : lower combiningDot = combiningDot
  lower_capitalSigma : lower capitalSigma = smallSigma
  lower_finalSigma : lower finalSigma = finalSigma

namespace CaseTables

variable (t : CaseTables)

/-- After the case-ignorable characters comes a cased one. -/
def startsCased (s : List Char) : Bool := (s.dropWhile t.ignorable).head?.any t.cased

/-- The lower case of `c` between these characters, the ones before it from right to left. -/
def lowerAt (before : List Char) (c : Char) (after : List Char) : List Char :=
  if c = dottedI then ['i', combiningDot]
  else if c = capitalSigma then
    if t.startsCased before && !t.startsCased after then [finalSigma] else [smallSigma]
  else [t.lower c]

def lowerFrom : (before s : List Char) → List Char
  | _, [] => []
  | before, c :: s => t.lowerAt before c s ++ lowerFrom (c :: before) s

def lowerText (s : List Char) : List Char := t.lowerFrom [] s

/-! ## Lowered text -/

theorem lower_i : t.lower 'i' = 'i' := by rw [← t.lower_dottedI, t.lower_lower]

theorem lower_smallSigma : t.lower smallSigma = smallSigma := by
  rw [← t.lower_capitalSigma, t.lower_lower]

/-- Characters that the mapping leaves. -/
def Lowered (s : List Char) : Prop := ∀ c ∈ s, t.lower c = c

theorem lower_eq_self_ne {c : Char} (h : t.lower c = c) : c ≠ dottedI ∧ c ≠ capitalSigma := by
  refine ⟨?_, ?_⟩
  · rintro rfl
    rw [t.lower_dottedI] at h
    exact absurd h (by decide)
  · rintro rfl
    rw [t.lower_capitalSigma] at h
    exact absurd h (by decide)

theorem lowered_lowerAt (before : List Char) (c : Char) (after : List Char) :
    t.Lowered (t.lowerAt before c after) := by
  intro d hd
  unfold lowerAt at hd
  split at hd
  · simp only [List.mem_cons, List.not_mem_nil, or_false] at hd
    rcases hd with rfl | rfl
    · exact t.lower_i
    · exact t.lower_combiningDot
  · split at hd
    · split at hd
      · rw [List.mem_singleton.mp hd, t.lower_finalSigma]
      · rw [List.mem_singleton.mp hd, t.lower_smallSigma]
    · rw [List.mem_singleton.mp hd, t.lower_lower]

theorem lowered_lowerFrom (before s : List Char) : t.Lowered (t.lowerFrom before s) := by
  induction s generalizing before with
  | nil => exact fun c hc => absurd hc List.not_mem_nil
  | cons c s ih =>
      intro d hd
      rcases List.mem_append.mp hd with hd | hd
      · exact t.lowered_lowerAt before c s d hd
      · exact ih _ d hd

variable {t}

theorem Lowered.lowerFrom_eq {s : List Char} (h : t.Lowered s) (before : List Char) :
    t.lowerFrom before s = s := by
  induction s generalizing before with
  | nil => rfl
  | cons c s ih =>
      obtain ⟨hc, hs⟩ := List.forall_mem_cons.mp h
      obtain ⟨hdotted, hsigma⟩ := t.lower_eq_self_ne hc
      rw [lowerFrom, lowerAt, if_neg hdotted, if_neg hsigma, ih hs, hc, List.singleton_append]

theorem lowerText_lowerText (s : List Char) : t.lowerText (t.lowerText s) = t.lowerText s :=
  (t.lowered_lowerFrom [] s).lowerFrom_eq []

/-! ## Parts of a text -/

variable (t)

/-- After these characters, from right to left, `c` becomes its own lower case whatever
follows it. -/
def Plain (before : List Char) (c : Char) : Prop :=
  c ≠ dottedI ∧ (c = capitalSigma → t.startsCased before = false)

def PlainFrom : (before s : List Char) → Prop
  | _, [] => True
  | before, c :: s => t.Plain before c ∧ PlainFrom (c :: before) s

/-- No U+0130, and no capital sigma after a cased character. -/
def PlainText (s : List Char) : Prop := t.PlainFrom [] s

variable {t} {before s : List Char} {c : Char}

theorem startsCased_append (h : t.startsCased s = true) (more : List Char) :
    t.startsCased (s ++ more) = true := by
  unfold startsCased at h ⊢
  rw [List.dropWhile_append]
  split
  · next hempty =>
      rw [List.isEmpty_iff.mp hempty] at h
      cases h
  · next hempty =>
      rw [List.head?_append_of_ne_nil _ (by rwa [List.isEmpty_iff] at hempty)]
      exact h

theorem Plain.of_append {more : List Char} (h : t.Plain (before ++ more) c) : t.Plain before c := by
  refine ⟨h.1, fun hsigma => ?_⟩
  rw [← Bool.not_eq_true]
  intro hcased
  have hno := h.2 hsigma
  rw [startsCased_append hcased] at hno
  cases hno

theorem Plain.lowerAt_eq (h : t.Plain before c) (after : List Char) :
    t.lowerAt before c after = [t.lower c] := by
  unfold lowerAt
  rw [if_neg h.1]
  split
  · next hsigma =>
      rw [h.2 hsigma, Bool.false_and, if_neg Bool.false_ne_true, hsigma, t.lower_capitalSigma]
  · rfl

theorem PlainFrom.lowerFrom_append (h : t.PlainFrom before s) (rest : List Char) :
    t.lowerFrom before (s ++ rest) = s.map t.lower ++ t.lowerFrom (s.reverse ++ before) rest := by
  induction s generalizing before with
  | nil => rfl
  | cons c s ih =>
      rw [List.cons_append, lowerFrom, h.1.lowerAt_eq, ih h.2, List.reverse_cons,
        List.append_assoc]
      rfl

theorem PlainText.lowerText_eq (h : t.PlainText s) : t.lowerText s = s.map t.lower := by
  have happend := PlainFrom.lowerFrom_append h []
  rwa [List.append_nil, lowerFrom, List.append_nil] at happend

theorem plainFrom_append (before front back : List Char) :
    t.PlainFrom before (front ++ back) ↔
      t.PlainFrom before front ∧ t.PlainFrom (front.reverse ++ before) back := by
  induction front generalizing before with
  | nil => exact ⟨fun h => ⟨trivial, h⟩, fun h => h.2⟩
  | cons c front ih =>
      rw [List.cons_append, PlainFrom, PlainFrom, ih, and_assoc, List.reverse_cons,
        List.append_assoc, List.singleton_append]

theorem PlainFrom.of_append (before : List Char) {more : List Char}
    (h : t.PlainFrom (before ++ more) s) : t.PlainFrom before s := by
  induction s generalizing before with
  | nil => trivial
  | cons c s ih => exact ⟨h.1.of_append, ih _ h.2⟩

/-- A part of a plain text is plain. -/
theorem PlainText.of_isInfix {part : List Char} (h : t.PlainText s) (hpart : part <:+: s) :
    t.PlainText part := by
  obtain ⟨front, back, rfl⟩ := hpart
  have hfront := ((plainFrom_append [] (front ++ part) back).mp h).1
  exact PlainFrom.of_append [] ((plainFrom_append [] front part).mp hfront).2

/-- A text that is not plain has a first character that is not. -/
theorem exists_not_plain (h : ¬ t.PlainFrom before s) :
    ∃ front c back, s = front ++ c :: back ∧ t.PlainFrom before front ∧
      ¬ t.Plain (front.reverse ++ before) c := by
  induction s generalizing before with
  | nil => exact absurd trivial h
  | cons c s ih =>
      by_cases hc : t.Plain before c
      · obtain ⟨front, d, back, rfl, hfront, hd⟩ := ih fun hs => h ⟨hc, hs⟩
        refine ⟨c :: front, d, back, rfl, ⟨hc, hfront⟩, ?_⟩
        rwa [List.reverse_cons, List.append_assoc]
      · exact ⟨[], c, s, rfl, trivial, hc⟩

theorem PlainText.lowerText_append {front : List Char} (h : t.PlainText front) (c : Char)
    (back : List Char) :
    t.lowerText (front ++ c :: back) =
      front.map t.lower ++ (t.lowerAt front.reverse c back ++
        t.lowerFrom (c :: front.reverse) back) := by
  have happend := PlainFrom.lowerFrom_append h (c :: back)
  rwa [List.append_nil, lowerFrom] at happend

theorem lowerText_capitalSigma : t.lowerText [capitalSigma] = [smallSigma] := by
  have hplain : t.PlainText [capitalSigma] := ⟨⟨by decide, fun _ => rfl⟩, trivial⟩
  rw [hplain.lowerText_eq, List.map_singleton, t.lower_capitalSigma]

variable (t) in
/-- Every part of the lowered text is the lowered part of the text. -/
def LowersByParts (s : List Char) : Prop :=
  ∀ front part back, part ≠ [] → t.lowerText s = front ++ part ++ back →
    t.lowerText ((s.take (front.length + part.length)).drop front.length) = part

theorem PlainText.lowersByParts (h : t.PlainText s) : t.LowersByParts s := by
  intro front part back _ hlower
  have hpart : (s.take (front.length + part.length)).drop front.length <:+: s :=
    (List.drop_suffix _ _).isInfix.trans (List.take_prefix _ _).isInfix
  rw [(h.of_isInfix hpart).lowerText_eq, List.map_drop, List.map_take, ← h.lowerText_eq, hlower,
    ← List.length_append, List.take_left, List.drop_left]

/-- The one character of the part at the end of a plain text. -/
theorem LowersByParts.lowerText_singleton {front back : List Char} {d : Char}
    (h : t.LowersByParts (front ++ c :: back)) (hfront : t.PlainText front) (tail : List Char)
    (hd : t.lowerAt front.reverse c back = d :: tail) : t.lowerText [c] = [d] := by
  have hone : ((front ++ c :: back).take ((front.map t.lower).length + 1)).drop
      (front.map t.lower).length = [c] := by
    rw [List.length_map, List.take_length_add_append, List.drop_left]
    rfl
  have hpart := h (front.map t.lower) [d] (tail ++ t.lowerFrom (c :: front.reverse) back)
    (List.cons_ne_nil _ _) (by rw [hfront.lowerText_append, hd]; simp)
  rwa [List.length_singleton, hone] at hpart

/-- At the end of a part a sigma is final. -/
theorem LowersByParts.not_small {front back : List Char} (hfront : t.PlainText front)
    (hcased : t.startsCased front.reverse = true) (hafter : t.startsCased back = true) :
    ¬ t.LowersByParts (front ++ capitalSigma :: back) := by
  intro h
  have hsmall : t.lowerAt front.reverse capitalSigma back = [smallSigma] := by
    rw [lowerAt, if_neg (by decide), if_pos rfl, hcased, hafter]
    rfl
  have hfinal : t.lowerAt front.reverse capitalSigma [] = [finalSigma] := by
    rw [lowerAt, if_neg (by decide), if_pos rfl, hcased]
    rfl
  have hpart := h [] (front.map t.lower ++ [smallSigma])
    (t.lowerFrom (capitalSigma :: front.reverse) back) (by simp)
    (by rw [hfront.lowerText_append, hsmall]; simp)
  have htake : (front ++ capitalSigma :: back).take (front.length + 1) =
      front ++ [capitalSigma] := by
    rw [List.take_length_add_append]
    rfl
  simp only [List.length_nil, Nat.zero_add, List.length_append, List.length_map,
    List.length_singleton, List.drop_zero, htake] at hpart
  rw [hfront.lowerText_append, hfinal] at hpart
  simp only [lowerFrom, List.append_nil, List.append_cancel_left_eq] at hpart
  exact absurd hpart (by decide)

theorem plainText_iff_lowersByParts : t.PlainText s ↔ t.LowersByParts s := by
  refine ⟨PlainText.lowersByParts, fun h => ?_⟩
  by_contra hnot
  obtain ⟨front, c, back, rfl, hfront, hc⟩ := exists_not_plain hnot
  rw [List.append_nil] at hc
  by_cases hdotted : c = dottedI
  · subst hdotted
    have hi : ['i', combiningDot] = ['i'] := h.lowerText_singleton hfront _ rfl
    exact absurd hi (by decide)
  · obtain ⟨rfl, hcased⟩ : c = capitalSigma ∧ t.startsCased front.reverse = true := by
      by_contra hno
      refine hc ⟨hdotted, fun hsigma => ?_⟩
      rw [← Bool.not_eq_true]
      exact fun hcased => hno ⟨hsigma, hcased⟩
    cases hafter : t.startsCased back with
    | true => exact LowersByParts.not_small hfront hcased hafter h
    | false =>
        have hfinal : t.lowerAt front.reverse capitalSigma back = [finalSigma] := by
          rw [lowerAt, if_neg hdotted, if_pos rfl, hcased, hafter]
          rfl
        have hone := h.lowerText_singleton hfront [] hfinal
        rw [lowerText_capitalSigma] at hone
        exact absurd hone (by decide)

/-! ## Sigmas -/

/-- What becomes of a character, before a capital sigma gets one of its two forms. -/
inductive Glyph
  | plain (c : Char)
  | sigma (final : Bool)
deriving DecidableEq, Repr

namespace Glyph

def render : Glyph → Char
  | plain c => c
  | sigma true => Lib.finalSigma
  | sigma false => smallSigma

/-- Without the form of the sigma. -/
def blur : Glyph → Glyph
  | plain c => plain c
  | sigma _ => sigma false

def final? : Glyph → Option Bool
  | plain _ => none
  | sigma final => some final

/-- What is left is told apart by the forms. -/
theorem eq_of_blur_of_final {l m : List Glyph} (hblur : l.map blur = m.map blur)
    (hfinal : l.filterMap final? = m.filterMap final?) : l = m := by
  induction l generalizing m with
  | nil => exact (List.map_eq_nil_iff.mp hblur.symm).symm
  | cons g l ih =>
      cases m with
      | nil => cases hblur
      | cons h m =>
          obtain ⟨hhead, htail⟩ := List.cons.inj hblur
          cases g with
          | plain c =>
              cases h with
              | plain d =>
                  cases hhead
                  rw [ih htail hfinal]
              | sigma b => cases hhead
          | sigma a =>
              cases h with
              | plain d => cases hhead
              | sigma b =>
                  obtain ⟨hab, hrest⟩ := List.cons.inj hfinal
                  rw [hab, ih htail hrest]

theorem length_final {l m : List Glyph} (hblur : l.map blur = m.map blur) :
    (l.filterMap final?).length = (m.filterMap final?).length := by
  have hblurred : ∀ l : List Glyph,
      (l.filterMap final?).length = (l.map blur).countP fun g => (final? g).isSome := by
    intro l
    induction l with
    | nil => rfl
    | cons g l ih =>
        cases g with
        | plain c =>
            rw [List.map_cons, List.countP_cons_of_neg (by simp [blur, final?])]
            exact ih
        | sigma final =>
            rw [List.map_cons, List.countP_cons_of_pos (by simp [blur, final?]), ← ih]
            rfl
  rw [hblurred, hblurred, hblur]

end Glyph

variable (t) in
def glyphsAt (before : List Char) (c : Char) (after : List Char) : List Glyph :=
  if c = dottedI then [.plain 'i', .plain combiningDot]
  else if c = capitalSigma then [.sigma (t.startsCased before && !t.startsCased after)]
  else [.plain (t.lower c)]

variable (t) in
def glyphsFrom : (before s : List Char) → List Glyph
  | _, [] => []
  | before, c :: s => t.glyphsAt before c s ++ glyphsFrom (c :: before) s

variable (t) in
def glyphs (s : List Char) : List Glyph := t.glyphsFrom [] s

variable (t) in
/-- Which of the capital sigmas of the text become final ones. -/
def finalSigmas (s : List Char) : List Bool := (t.glyphs s).filterMap Glyph.final?

theorem lowerFrom_eq_glyphsFrom (before s : List Char) :
    t.lowerFrom before s = (t.glyphsFrom before s).map Glyph.render := by
  induction s generalizing before with
  | nil => rfl
  | cons c s ih =>
      rw [lowerFrom, glyphsFrom, List.map_append, ih, lowerAt, glyphsAt]
      congr 1
      split
      · rfl
      · split
        · cases t.startsCased before && !t.startsCased s <;> rfl
        · rfl

theorem lowerText_eq_glyphs (s : List Char) :
    t.lowerText s = (t.glyphs s).map Glyph.render :=
  lowerFrom_eq_glyphsFrom [] s

variable (t) in
/-- The glyphs of a character without its context. -/
def blurred (c : Char) : List Glyph := (t.glyphsAt [] c []).map Glyph.blur

theorem glyphsFrom_blur (before s : List Char) :
    (t.glyphsFrom before s).map Glyph.blur = s.flatMap t.blurred := by
  induction s generalizing before with
  | nil => rfl
  | cons c s ih =>
      rw [glyphsFrom, List.map_append, ih, List.flatMap_cons, blurred, glyphsAt, glyphsAt]
      congr 1
      split
      · rfl
      · split <;> rfl

theorem glyphs_blur (s : List Char) : (t.glyphs s).map Glyph.blur = s.flatMap t.blurred :=
  glyphsFrom_blur [] s

/-- A text without capital sigmas has no final ones. -/
theorem finalSigmas_eq_nil (h : capitalSigma ∉ s) : t.finalSigmas s = [] := by
  unfold finalSigmas glyphs
  generalize ([] : List Char) = before
  induction s generalizing before with
  | nil => rfl
  | cons c s ih =>
      rw [List.mem_cons, not_or] at h
      rw [glyphsFrom, List.filterMap_append, ih h.2, glyphsAt]
      split
      · rfl
      · rw [if_neg (Ne.symm h.1)]
        rfl

/-! ## Characters that end the context -/

theorem startsCased_append_barrier (hc : t.ignorable c = false) (s more : List Char) :
    t.startsCased (s ++ c :: more) = t.startsCased (s ++ [c]) := by
  have hneg : ¬ t.ignorable c = true := by simp [hc]
  unfold startsCased
  rw [List.dropWhile_append, List.dropWhile_append, List.dropWhile_cons_of_neg hneg,
    List.dropWhile_cons_of_neg hneg]
  split
  · rfl
  · next hempty =>
      rw [List.head?_append_of_ne_nil _ (by rwa [List.isEmpty_iff] at hempty),
        List.head?_append_of_ne_nil _ (by rwa [List.isEmpty_iff] at hempty)]

/-- What comes before such a character does not see what is after it. -/
theorem glyphsFrom_append_barrier (hc : t.ignorable c = false) (hsigma : c ≠ capitalSigma)
    (before s more : List Char) :
    t.glyphsFrom before (s ++ c :: more) =
      t.glyphsFrom before (s ++ [c]) ++ t.glyphsFrom (c :: s.reverse ++ before) more := by
  induction s generalizing before with
  | nil =>
      have hcontext : t.glyphsAt before c more = t.glyphsAt before c [] := by
        rw [glyphsAt, glyphsAt, if_neg hsigma, if_neg hsigma]
      rw [List.nil_append, glyphsFrom, hcontext]
      simp [glyphsFrom]
  | cons d s ih =>
      have hcontext : t.glyphsAt before d (s ++ c :: more) = t.glyphsAt before d (s ++ [c]) := by
        rw [glyphsAt, glyphsAt, startsCased_append_barrier hc]
      rw [List.cons_append, List.cons_append, glyphsFrom, glyphsFrom, hcontext, ih]
      simp

/-- And the other way round. -/
theorem glyphsFrom_barrier (hc : t.ignorable c = false) (before more s : List Char) :
    t.glyphsFrom (before ++ c :: more) s = t.glyphsFrom (before ++ [c]) s := by
  induction s generalizing before with
  | nil => rfl
  | cons d s ih =>
      rw [glyphsFrom, glyphsFrom, glyphsAt, glyphsAt, startsCased_append_barrier hc]
      congr 1
      exact ih (d :: before)

end CaseTables

end Lib
