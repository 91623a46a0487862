import Mathlib.Order.Basic
import Mathlib.Data.List.Basic

/-!
# Tiers

A count is looked up in tiers that are sorted by falling threshold: the first tier whose
threshold it reaches gives the value. Where higher thresholds have higher values, more
never gives less.
-/

namespace Lib

section

variable {τ β : Type*} (threshold : τ → Int) (value : τ → β) (fallback : β)

/-- The value of the first tier that the count reaches. -/
def tierValue (tiers : List τ) (count : Int) : β :=
  match tiers.find? fun tier => threshold tier ≤ count with
  | some tier => value tier
  | none => fallback

variable {threshold value fallback}

theorem tierValue_cons (tier : τ) (tiers : List τ) (count : Int) :
    tierValue threshold value fallback (tier :: tiers) count =
      if threshold tier ≤ count then value tier
      else tierValue threshold value fallback tiers count := by
  unfold tierValue
  by_cases h : threshold tier ≤ count
  · rw [List.find?_cons_of_pos (by simpa using h), if_pos h]
  · rw [List.find?_cons_of_neg (by simpa using h), if_neg h]

/-- The value is that of a tier the count reaches, or the fallback. -/
theorem tierValue_cases (tiers : List τ) (count : Int) :
    (∃ tier ∈ tiers, threshold tier ≤ count ∧
        tierValue threshold value fallback tiers count = value tier) ∨
      tierValue threshold value fallback tiers count = fallback := by
  unfold tierValue
  cases hfind : tiers.find? fun tier => threshold tier ≤ count with
  | none => exact .inr rfl
  | some tier =>
      exact .inl ⟨tier, List.mem_of_find?_eq_some hfind, by simpa using List.find?_some hfind, rfl⟩

variable [Preorder β]

/-- Higher thresholds have no lower values, and no value is below the fallback. -/
structure TiersRise (threshold : τ → Int) (value : τ → β) (fallback : β) (tiers : List τ) :
    Prop where
  rise : ∀ a ∈ tiers, ∀ b ∈ tiers, threshold a < threshold b → value a ≤ value b
  fallback_le : ∀ a ∈ tiers, fallback ≤ value a

theorem TiersRise.perm {tiers tiers' : List τ} (h : TiersRise threshold value fallback tiers)
    (hperm : tiers'.Perm tiers) : TiersRise threshold value fallback tiers' where
  rise := fun a ha b hb => h.rise a (hperm.mem_iff.mp ha) b (hperm.mem_iff.mp hb)
  fallback_le := fun a ha => h.fallback_le a (hperm.mem_iff.mp ha)

theorem tierValue_mono {tiers : List τ}
    (hsorted : tiers.Pairwise fun a b => threshold b ≤ threshold a)
    (h : TiersRise threshold value fallback tiers) {m n : Int} (hmn : m ≤ n) :
    tierValue threshold value fallback tiers m ≤ tierValue threshold value fallback tiers n := by
  induction tiers with
  | nil => exact le_refl _
  | cons tier tiers ih =>
      obtain ⟨hhead, htail⟩ := List.pairwise_cons.mp hsorted
      have hrest : TiersRise threshold value fallback tiers :=
        ⟨fun a ha b hb => h.rise a (.tail _ ha) b (.tail _ hb),
          fun a ha => h.fallback_le a (.tail _ ha)⟩
      rw [tierValue_cons, tierValue_cons]
      by_cases hm : threshold tier ≤ m
      · rw [if_pos hm, if_pos (Int.le_trans hm hmn)]
      · rw [if_neg hm]
        split
        · -- only the larger count reaches this tier, and the tiers below it are no higher
          have hcases : (∃ tier ∈ tiers, threshold tier ≤ m ∧
              tierValue threshold value fallback tiers m = value tier) ∨
                tierValue threshold value fallback tiers m = fallback := tierValue_cases tiers m
          rcases hcases with ⟨lower, hlower, hreached, heq⟩ | heq
          · rw [heq]
            exact h.rise lower (.tail _ hlower) tier (.head _) (by omega)
          · rw [heq]
            exact h.fallback_le tier (.head _)
        · exact ih htail hrest

end

end Lib
