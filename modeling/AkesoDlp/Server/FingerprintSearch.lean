import AkesoDlp.Server.FingerprintFile
import AkesoDlp.Server.Simhash
import Mathlib.Algebra.Order.Ring.Rat
import Mathlib.Data.Int.Bitwise
import Mathlib.Data.Nat.Count
import Mathlib.Data.Set.Card
import Mathlib.Tactic.Linarith

/-!
# Searching the fingerprint index

`FingerprintIndex.search` compares the fingerprint of a text with those of the records of one
shingle size. What it finds depends on the records only, and these survive the file.
-/

namespace AkesoDlp.Server.FingerprintIndex

open Lib Simhash
open Inspector (PyStr)

/-- A Python `float`. -/
inductive PyFloat
  | nan
  | negInf
  | posInf
  | finite (q : ℚ)
deriving DecidableEq

/-- The comparison of a number with a `float`, as in `number >= threshold`. -/
def PyFloat.Le : PyFloat → ℚ → Prop
  | nan, _ => False
  | negInf, _ => True
  | posInf, _ => False
  | finite q, score => q ≤ score

instance (threshold : PyFloat) (score : ℚ) : Decidable (threshold.Le score) := by
  cases threshold <;> unfold PyFloat.Le <;> infer_instance

/-- `bin(a ^ b).count("1")`; `bin` writes a negative number as its magnitude after a sign. -/
def hammingDistance (a b : Int) : Nat := (Nat.toDigits 2 (Int.xor a b).natAbs).count '1'

/-- `similarity_score`, whose floating-point operations are exact. -/
def similarityScore (a b : Int) : ℚ := 1 - hammingDistance a b / 64

section

variable (t : TextTables)

/-- One record of the loop. -/
def scoreRecord (queryHash : Nat) (threshold : PyFloat) (shingleSize : Int)
    (record : FingerprintRecord) : Option (FingerprintRecord × ℚ) :=
  if record.shingleSize ≠ shingleSize then none
  else
    let score := similarityScore queryHash record.simhash
    if threshold.Le score then some (record, score) else none

/-- `FingerprintIndex.search`. -/
def search (rs : Records) (text : PyStr) (threshold : PyFloat) (shingleSize : Int) :
    List (FingerprintRecord × ℚ) :=
  if rs.list.isEmpty then []
  else
    let normalized := normalizeText t text
    if normalized.length < minTextLength then []
    else
      let queryHash := Simhash.computeSimhash t text shingleSize
      let results := rs.list.filterMap (scoreRecord queryHash threshold shingleSize)
      results.mergeSort fun x y => decide (y.2 ≤ x.2)

end

/-- In how many places two numbers have different bits. A negative number, which no fingerprint
is, differs in infinitely many; there the ones of the magnitude of `a ^ b` count, which is
`-(a ^ n) - 1`. -/
noncomputable def bitDistance (a : Nat) : Int → Nat
  | .ofNat b => Set.ncard {i | a.testBit i ≠ b.testBit i}
  | .negSucc n => Set.ncard {i | ((a ^^^ n) + 1).testBit i = true}

/-- A record of the shingle size whose fingerprint is near enough. -/
def Similar (queryHash : Nat) (threshold : PyFloat) (shingleSize : Int)
    (record : FingerprintRecord) : Prop :=
  record.shingleSize = shingleSize ∧
    threshold.Le (1 - (bitDistance queryHash record.simhash : ℚ) / 64)

open Classical in
/-- The similar records with their scores, the most similar ones first and those of one score
in the order of the index. -/
structure ExactResults (rs : Records) (queryHash : Nat) (threshold : PyFloat) (shingleSize : Int)
    (results : List (FingerprintRecord × ℚ)) : Prop where
  perm : results.Perm <|
    (rs.list.filter fun r => decide (Similar queryHash threshold shingleSize r)).map fun r =>
      (r, 1 - (bitDistance queryHash r.simhash : ℚ) / 64)
  sorted : results.Pairwise fun x y => y.2 ≤ x.2
  stable : ∀ x y, x.2 = y.2 → [x.1, y.1].Sublist rs.list → x ∈ results → y ∈ results →
    [x, y].Sublist results

/-! ## Distances -/

theorem count_toDigits_two (k : Nat) {n : Nat} (h : n < 2 ^ k) :
    (Nat.toDigits 2 n).count '1' = Nat.count (fun i => n.testBit i = true) k := by
  induction k generalizing n with
  | zero =>
      obtain rfl : n = 0 := by simpa using h
      rfl
  | succ k ih =>
      have hrest := ih (n := n / 2) (by omega)
      have hlow : ∀ m < 2, [m.digitChar].count '1' = if m.testBit 0 = true then 1 else 0 := by
        decide
      simp only [Nat.count_succ', Nat.testBit_succ]
      rw [← hrest]
      by_cases hlt : n < 2
      · have hzero : n / 2 = 0 := by omega
        rw [Nat.toDigits_of_lt_base hlt, hlow n hlt, hzero, Nat.toDigits_zero]
        exact (Nat.zero_add _).symm
      · have hbit : (n % 2).testBit 0 = n.testBit 0 := by simp [Nat.testBit_zero]
        rw [Nat.toDigits_of_base_le (by decide) (Nat.le_of_not_lt hlt), List.count_append,
          hlow (n % 2) (Nat.mod_lt _ (by decide)), hbit]

/-- The ones of a numeral are the bits that are up. -/
theorem count_ones (n : Nat) :
    (Nat.toDigits 2 n).count '1' = Set.ncard {i | n.testBit i = true} := by
  have hlt : n < 2 ^ n := Nat.lt_two_pow_self
  have hset : {i | n.testBit i = true} =
      ((Finset.range n).filter fun i => n.testBit i = true : Finset ℕ) := by
    ext i
    simp only [Set.mem_ofPred_eq, Finset.coe_filter, Finset.mem_range]
    refine ⟨fun hbit => ⟨?_, hbit⟩, fun h => h.2⟩
    by_contra hge
    have hzero : n.testBit i = false := Nat.testBit_lt_two_pow
      (lt_of_lt_of_le hlt (Nat.pow_le_pow_right (by decide) (Nat.le_of_not_lt hge)))
    exact absurd (hbit.symm.trans hzero) (by decide)
  rw [count_toDigits_two _ hlt, hset, Set.ncard_coe_finset, Nat.count_eq_card_filter_range]

/-- Counting ones counts the places with different bits. -/
theorem hammingDistance_eq (a : Nat) (b : Int) : hammingDistance a b = bitDistance a b := by
  cases b with
  | ofNat b =>
      have hxor : Int.xor a (.ofNat b) = .ofNat (a ^^^ b) := rfl
      have hset : {i | (a ^^^ b).testBit i = true} = {i | a.testBit i ≠ b.testBit i} := by
        ext i
        simp only [Set.mem_ofPred_eq, Nat.testBit_xor, bne_iff_ne]
      rw [hammingDistance, hxor, Int.natAbs_ofNat', count_ones, hset, bitDistance]
  | negSucc n =>
      have hxor : Int.xor a (.negSucc n) = .negSucc (a ^^^ n) := rfl
      rw [hammingDistance, hxor, Int.natAbs_negSucc, count_ones, bitDistance]

/-! ## Results -/

variable {t : TextTables} {rs : Records} {text : PyStr} {threshold : PyFloat} {shingleSize : Int}

theorem scoreRecord_eq (queryHash : Nat) (threshold : PyFloat) (shingleSize : Int)
    (record : FingerprintRecord) [Decidable (Similar queryHash threshold shingleSize record)] :
    scoreRecord queryHash threshold shingleSize record =
      if Similar queryHash threshold shingleSize record then
        some (record, 1 - (bitDistance queryHash record.simhash : ℚ) / 64) else none := by
  unfold scoreRecord similarityScore
  rw [hammingDistance_eq]
  by_cases hsize : record.shingleSize = shingleSize
  · have hsimilar : Similar queryHash threshold shingleSize record ↔
        threshold.Le (1 - (bitDistance queryHash record.simhash : ℚ) / 64) := and_iff_right hsize
    rw [if_neg (not_not_intro hsize)]
    by_cases hle : threshold.Le (1 - (bitDistance queryHash record.simhash : ℚ) / 64)
    · exact (if_pos hle).trans (if_pos (hsimilar.mpr hle)).symm
    · exact (if_neg hle).trans (if_neg fun h => hle (hsimilar.mp h)).symm
  · rw [if_pos hsize, if_neg fun h => hsize h.1]

/-- Only similar records get a score. -/
theorem filterMap_scoreRecord (rs : List FingerprintRecord) (queryHash : Nat)
    (threshold : PyFloat) (shingleSize : Int)
    [DecidablePred (Similar queryHash threshold shingleSize)] :
    rs.filterMap (scoreRecord queryHash threshold shingleSize) =
      (rs.filter fun r => decide (Similar queryHash threshold shingleSize r)).map
        fun r => (r, 1 - (bitDistance queryHash r.simhash : ℚ) / 64) := by
  induction rs with
  | nil => rfl
  | cons r rs ih =>
      rw [List.filterMap_cons, List.filter_cons, scoreRecord_eq, ih]
      by_cases h : Similar queryHash threshold shingleSize r <;> simp [h]

/-- The sort compares scores. -/
theorem exactResults_mergeSort (rs : Records) (queryHash : Nat) (threshold : PyFloat)
    (shingleSize : Int) :
    ExactResults rs queryHash threshold shingleSize
      ((rs.list.filterMap (scoreRecord queryHash threshold shingleSize)).mergeSort
        fun x y => decide (y.2 ≤ x.2)) := by
  classical
  have htrans : ∀ x y z : FingerprintRecord × ℚ, decide (y.2 ≤ x.2) = true →
      decide (z.2 ≤ y.2) = true → decide (z.2 ≤ x.2) = true := by
    intro x y z hxy hyz
    simp only [decide_eq_true_eq] at hxy hyz ⊢
    exact hyz.trans hxy
  have htotal : ∀ x y : FingerprintRecord × ℚ,
      (decide (y.2 ≤ x.2) || decide (x.2 ≤ y.2)) = true := by
    intro x y
    simpa using le_total y.2 x.2
  refine ⟨?_, ?_, ?_⟩
  · rw [← filterMap_scoreRecord]
    exact List.mergeSort_perm _ _
  · exact (List.pairwise_mergeSort htrans htotal _).imp fun h => by simpa using h
  · intro x y hxy hrecords hx hy
    have hself : ∀ z ∈ (rs.list.filterMap (scoreRecord queryHash threshold shingleSize)).mergeSort
        (fun x y => decide (y.2 ≤ x.2)),
        scoreRecord queryHash threshold shingleSize z.1 = some z := by
      intro z hz
      obtain ⟨r, -, hr⟩ := List.mem_filterMap.mp (List.mem_mergeSort.mp hz)
      obtain ⟨hsimilar, rfl⟩ := Option.ite_none_right_eq_some.mp
        ((scoreRecord_eq queryHash threshold shingleSize r).symm.trans hr)
        |>.imp_right Option.some.inj
      exact hr
    refine List.pair_sublist_mergeSort htrans htotal (by simpa using hxy.ge) ?_
    have hpair := hrecords.filterMap (scoreRecord queryHash threshold shingleSize)
    simpa [hself x hx, hself y hy] using hpair

/-- The search is exact for every text that is long enough. -/
theorem exactResults_search (hlength : minTextLength ≤ (normalizeText t text).length) :
    ExactResults rs (Simhash.computeSimhash t text shingleSize) threshold shingleSize
      (search t rs text threshold shingleSize) := by
  have hexact := exactResults_mergeSort rs (Simhash.computeSimhash t text shingleSize) threshold
    shingleSize
  by_cases hempty : rs.list = []
  · rw [hempty, List.filterMap_nil, List.mergeSort_nil] at hexact
    rwa [search, if_pos (by simpa using hempty)]
  · rw [search, if_neg (by simpa using hempty), if_neg (Nat.not_lt.mpr hlength)]
    exact hexact

/-- The search finds exactly the similar records, and an index that is loaded from the saved
file finds the same ones for every text. -/
theorem search_exact_and_persistent (t : TextTables) (rs : Records) (text : PyStr)
    (threshold : PyFloat) (shingleSize : Int)
    (hlength : minTextLength ≤ (normalizeText t text).length) :
    ExactResults rs (Simhash.computeSimhash t text shingleSize) threshold shingleSize
        (search t rs text threshold shingleSize) ∧
      ∀ newIds, ∃ reloaded, loadText newIds (saveText rs) = some (reloaded, false) ∧
        ∀ text threshold shingleSize,
          search t reloaded text threshold shingleSize = search t rs text threshold shingleSize :=
  ⟨exactResults_search hlength, fun newIds => ⟨rs, loadText_saveText newIds rs, fun _ _ _ => rfl⟩⟩

/-- An index of one record, and a text of sixty letters. -/
theorem search_exact_letters :
    ExactResults ⟨[recordOf "a"], by decide⟩
        (Simhash.computeSimhash sampleTextTables sixtyLetters.text.toList 4) (.finite (2 / 5)) 4
        (search sampleTextTables ⟨[recordOf "a"], by decide⟩ sixtyLetters.text.toList
          (.finite (2 / 5)) 4) ∧
      ∃ reloaded, loadText noNewIds (saveText ⟨[recordOf "a"], by decide⟩) =
        some (reloaded, false) ∧ ∀ text threshold shingleSize,
          search sampleTextTables reloaded text threshold shingleSize =
            search sampleTextTables ⟨[recordOf "a"], by decide⟩ text threshold shingleSize := by
  have h := search_exact_and_persistent sampleTextTables ⟨[recordOf "a"], by decide⟩
    sixtyLetters.text.toList (.finite (2 / 5)) 4 (by decide +kernel)
  exact ⟨h.1, h.2 noNewIds⟩

end AkesoDlp.Server.FingerprintIndex
