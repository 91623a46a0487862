import Mathlib.Data.List.Infix

/-!
# Longest suffixes in a prefix-closed set of words

The theory behind the failure links of a string-matching automaton. `W` is the
set of words of a trie: it holds `[]` and is closed under prefixes. Reading a
character moves from the longest suffix of what was read that is in `W` to the
next one, and the failure link of a word is the longest one of its tail.
-/

namespace Lib

variable {α : Type*}

/-- A set of words that a trie can hold. -/
structure PrefixClosed (W : List α → Prop) : Prop where
  nil : W []
  init : ∀ w c, W (w ++ [c]) → W w

/-- `t` is the longest suffix of `s` in `W`. -/
structure LongestSuffix (W : List α → Prop) (s t : List α) : Prop where
  mem : W t
  suffix : t <:+ s
  longest : ∀ r, W r → r <:+ s → r <:+ t

variable {W : List α → Prop} {s t w r : List α} {c : α}

namespace LongestSuffix

theorem self (h : W s) : LongestSuffix W s s :=
  ⟨h, List.suffix_rfl, fun _ _ hr => hr⟩

theorem nil (hW : PrefixClosed W) : LongestSuffix W [] [] :=
  self hW.nil

/-- The suffixes of `s` in `W` are those of its longest one. -/
theorem suffix_iff (h : LongestSuffix W s t) (hr : W r) : r <:+ s ↔ r <:+ t :=
  ⟨h.longest r hr, fun hrt => hrt.trans h.suffix⟩

/-- Words with the same suffixes in `W` have the same longest one. -/
theorem congr {s' : List α} (h : ∀ q, W q → (q <:+ s ↔ q <:+ s')) :
    LongestSuffix W s r ↔ LongestSuffix W s' r := by
  constructor
  · intro hr
    exact ⟨hr.mem, (h r hr.mem).mp hr.suffix, fun q hq hqs => hr.longest q hq ((h q hq).mpr hqs)⟩
  · intro hr
    exact ⟨hr.mem, (h r hr.mem).mpr hr.suffix, fun q hq hqs => hr.longest q hq ((h q hq).mp hqs)⟩

end LongestSuffix

/-- Suffixes of `s ++ [c]`: empty, or a suffix of `s` and `c`. -/
theorem suffix_concat_iff : r <:+ s ++ [c] ↔ r = [] ∨ ∃ q, r = q ++ [c] ∧ q <:+ s := by
  constructor
  · intro h
    rcases List.eq_nil_or_concat' r with rfl | ⟨q, d, rfl⟩
    · exact Or.inl rfl
    · right
      obtain ⟨p, hp⟩ := h
      rw [← List.append_assoc] at hp
      obtain ⟨hpq, hd⟩ := List.append_inj' hp rfl
      exact ⟨q, by rw [List.singleton_inj.mp hd], p, hpq⟩
  · rintro (rfl | ⟨q, rfl, p, rfl⟩)
    · exact List.nil_suffix
    · exact ⟨p, by rw [List.append_assoc]⟩

/-- Only the longest suffix of what was read matters for what comes next. -/
theorem LongestSuffix.extend (hW : PrefixClosed W) (h : LongestSuffix W s t) :
    LongestSuffix W (s ++ [c]) r ↔ LongestSuffix W (t ++ [c]) r := by
  apply LongestSuffix.congr
  intro q hq
  rw [suffix_concat_iff, suffix_concat_iff]
  constructor
  · rintro (rfl | ⟨p, rfl, hp⟩)
    · exact Or.inl rfl
    · exact Or.inr ⟨p, rfl, h.longest p (hW.init p c hq) hp⟩
  · rintro (rfl | ⟨p, rfl, hp⟩)
    · exact Or.inl rfl
    · exact Or.inr ⟨p, rfl, hp.trans h.suffix⟩

theorem suffix_tail_of_ne (h : r <:+ w) (hne : r ≠ w) : r <:+ w.tail := by
  cases w with
  | nil => exact absurd (List.suffix_nil.mp h) hne
  | cons a w => exact (List.suffix_cons_iff.mp h).resolve_left hne

/-- Where the word cannot be extended by `c`, its failure link is as good. -/
theorem LongestSuffix.of_fail (hW : PrefixClosed W) (hfail : LongestSuffix W w.tail t)
    (hw : w ≠ []) (hstuck : ¬ W (w ++ [c])) :
    LongestSuffix W (w ++ [c]) r ↔ LongestSuffix W (t ++ [c]) r := by
  rw [← hfail.extend hW]
  apply LongestSuffix.congr
  intro q hq
  rw [← List.tail_append_of_ne_nil hw]
  constructor
  · intro h
    exact suffix_tail_of_ne h fun heq => hstuck (heq ▸ hq)
  · intro h
    exact h.trans (List.tail_suffix _)

/-- At the root there is nothing shorter to fall back to. -/
theorem LongestSuffix.of_root (hW : PrefixClosed W) (hstuck : ¬ W [c]) :
    LongestSuffix W [c] [] := by
  refine ⟨hW.nil, List.nil_suffix, ?_⟩
  intro q hq hqc
  rcases List.suffix_cons_iff.mp hqc with rfl | hnil
  · exact absurd hq hstuck
  · exact hnil

end Lib
