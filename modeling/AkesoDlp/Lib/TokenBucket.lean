import Mathlib.Algebra.Order.Field.Basic
import Mathlib.Tactic.Linarith
import Mathlib.Tactic.Ring

/-!
# Token buckets

A bucket holds at most `cap` tokens and gains `rate` of them per unit of time. It
is refilled lazily: the tokens are those of the time `last`. Whoever takes a token
is entered in a log with the time. `Covered` says what the log and the bucket have
to do with each other; every operation keeps it, and it bounds the log in every
window of time.
-/

namespace Lib

namespace Bucket

variable {K : Type*} [Field K] [LinearOrder K] [IsStrictOrderedRing K]

/-- The entries from `a` on. -/
def countFrom (log : List K) (a : K) : Nat :=
  log.countP fun t => a ≤ t

/-- The entries in the window from `a` to `b`, both ends included. -/
def countIn (log : List K) (a b : K) : Nat :=
  log.countP fun t => a ≤ t ∧ t ≤ b

omit [Field K] [IsStrictOrderedRing K] in
theorem countIn_le_countFrom (log : List K) (a b : K) : countIn log a b ≤ countFrom log a := by
  refine List.countP_mono_left fun t _ ht => ?_
  simp only [decide_eq_true_eq] at ht ⊢
  exact ht.1

omit [Field K] [IsStrictOrderedRing K] in
theorem countFrom_eq_zero {log : List K} {last a : K} (hpast : ∀ t ∈ log, t ≤ last)
    (ha : last < a) : countFrom log a = 0 := by
  refine List.countP_eq_zero.mpr fun t ht => ?_
  simpa using (hpast t ht).trans_lt ha

/-- Since any time `a`, what was taken and what is left came from a full bucket and
the refill. -/
structure Covered (cap rate : K) (log : List K) (tokens last : K) : Prop where
  past : ∀ t ∈ log, t ≤ last
  nonneg : 0 ≤ tokens
  credit : ∀ a ≤ last, countFrom log a + tokens ≤ cap + rate * (last - a)
  windows : ∀ a b, a ≤ b → countIn log a b ≤ cap + rate * (b - a)

namespace Covered

variable {cap rate tokens last : K} {log : List K}

theorem start (hcap : 0 ≤ cap) (hrate : 0 ≤ rate) (now : K) :
    Covered cap rate [] cap now where
  past t ht := absurd ht List.not_mem_nil
  nonneg := hcap
  credit a ha := by
    have hrefill : 0 ≤ rate * (now - a) := mul_nonneg hrate (sub_nonneg.mpr ha)
    simpa [countFrom] using hrefill
  windows a b hab := by
    have hrefill : 0 ≤ rate * (b - a) := mul_nonneg hrate (sub_nonneg.mpr hab)
    simpa [countIn] using add_nonneg hcap hrefill

theorem refill (h : Covered cap rate log tokens last) (hcap : 0 ≤ cap) (hrate : 0 ≤ rate) {now : K}
    (hnow : last ≤ now) :
    Covered cap rate log (min cap (tokens + (now - last) * rate)) now where
  past t ht := (h.past t ht).trans hnow
  nonneg := le_min hcap
    (add_nonneg h.nonneg (mul_nonneg (sub_nonneg.mpr hnow) hrate))
  credit a ha := by
    rcases le_or_gt a last with hlast | hlast
    · have hle := min_le_right cap (tokens + (now - last) * rate)
      have hcredit := h.credit a hlast
      have hsplit : rate * (now - a) = rate * (last - a) + (now - last) * rate := by ring
      linarith
    · have hle := min_le_left cap (tokens + (now - last) * rate)
      have hrefill : 0 ≤ rate * (now - a) := mul_nonneg hrate (sub_nonneg.mpr ha)
      rw [countFrom_eq_zero h.past hlast, Nat.cast_zero]
      linarith
  windows := h.windows

theorem take (h : Covered cap rate log tokens last) (hrate : 0 ≤ rate) (htoken : 1 ≤ tokens) :
    Covered cap rate (last :: log) (tokens - 1) last where
  past t ht := by
    rcases List.mem_cons.mp ht with rfl | ht
    · exact le_rfl
    · exact h.past t ht
  nonneg := sub_nonneg.mpr htoken
  credit a ha := by
    have hcredit := h.credit a ha
    rw [countFrom, List.countP_cons_of_pos (by simpa using ha)]
    push_cast
    rw [countFrom] at hcredit
    linarith
  windows a b hab := by
    by_cases hin : a ≤ last ∧ last ≤ b
    · -- the new entry is in the window, so the credit since `a` bounds it
      have hcredit := h.credit a hin.1
      have hcount : (countIn log a b : K) ≤ countFrom log a := by
        exact_mod_cast countIn_le_countFrom log a b
      have hmono : rate * (last - a) ≤ rate * (b - a) :=
        mul_le_mul_of_nonneg_left (sub_le_sub_right hin.2 a) hrate
      rw [countIn, List.countP_cons_of_pos (by simpa using hin)]
      push_cast
      rw [countIn] at hcount
      linarith
    · rw [countIn, List.countP_cons_of_neg (by simpa using hin)]
      exact h.windows a b hab

end Covered

end Bucket

end Lib
