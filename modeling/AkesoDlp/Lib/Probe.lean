import Mathlib.Data.Finset.Card
import Mathlib.Data.Finset.Range
import Mathlib.Data.Nat.Find

/-!
# Looking for a free number

The numbers are tried one after the other. If finitely many of them are taken, the search ends.
-/

namespace Lib

variable {taken : Nat → Bool}

/-- The first number from `n` on that is not taken, if it is among so many. -/
def probe (taken : Nat → Bool) : (fuel n : Nat) → Option Nat
  | 0, _ => none
  | fuel + 1, n => if taken n then probe taken fuel (n + 1) else some n

theorem probe_eq_some_iff {fuel n k : Nat} :
    probe taken fuel n = some k ↔
      n ≤ k ∧ k < n + fuel ∧ taken k = false ∧ ∀ i, n ≤ i → i < k → taken i = true := by
  induction fuel generalizing n with
  | zero =>
      rw [probe]
      refine iff_of_false nofun ?_
      rintro ⟨hle, hlt, -⟩
      omega
  | succ fuel ih =>
      rw [probe]
      cases hn : taken n with
      | true =>
          rw [if_pos rfl, ih]
          constructor
          · rintro ⟨hle, hlt, hfree, hbefore⟩
            refine ⟨by omega, by omega, hfree, fun i hi hik => ?_⟩
            rcases Nat.eq_or_lt_of_le hi with rfl | hi
            · exact hn
            · exact hbefore i hi hik
          · rintro ⟨hle, hlt, hfree, hbefore⟩
            have hne : n ≠ k := by
              rintro rfl
              rw [hn] at hfree
              cases hfree
            exact ⟨by omega, by omega, hfree, fun i hi hik => hbefore i (by omega) hik⟩
      | false =>
          rw [if_neg Bool.false_ne_true, Option.some.injEq]
          constructor
          · rintro rfl
            exact ⟨Nat.le_refl n, by omega, hn, fun i hi hik => by omega⟩
          · rintro ⟨hle, -, -, hbefore⟩
            by_contra hne
            rw [hbefore n (Nat.le_refl n) (by omega)] at hn
            cases hn

/-- The search ends after as many steps as there are numbers taken at the latest, however much
longer it could have gone on. -/
theorem exists_probe {s : Finset Nat} (htaken : ∀ n, taken n = true → n ∈ s) :
    ∃ k ≤ s.card, ∀ fuel, k < fuel → probe taken fuel 0 = some k := by
  have hfree : ∃ k ≤ s.card, taken k = false := by
    by_contra hall
    simp only [not_exists, not_and, Bool.not_eq_false] at hall
    have hsub : Finset.range (s.card + 1) ⊆ s := by
      intro n hn
      exact htaken n (hall n (Nat.le_of_lt_succ (Finset.mem_range.mp hn)))
    have hcard := Finset.card_le_card hsub
    rw [Finset.card_range] at hcard
    omega
  classical
  obtain ⟨hle, hfirst⟩ := Nat.find_spec hfree
  refine ⟨Nat.find hfree, hle, fun fuel hfuel => probe_eq_some_iff.mpr ?_⟩
  refine ⟨Nat.zero_le _, by omega, hfirst, fun i _ hi => ?_⟩
  have hmin := Nat.find_min hfree hi
  rw [not_and] at hmin
  exact Bool.eq_true_of_not_eq_false (hmin (by omega))

end Lib
