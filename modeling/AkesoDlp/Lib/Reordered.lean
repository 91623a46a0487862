import Mathlib.Data.List.Forall2
import Mathlib.Data.List.Perm.Basic

/-!
# Lists that are the same up to order and a relation

`l'` is a permutation of a list whose elements are related, one by one, to those of `l`.
-/

namespace Lib

variable {α β : Type*} {R : α → β → Prop} {l : List α} {l' : List β}

def Reordered (R : α → β → Prop) (l : List α) (l' : List β) : Prop :=
  ∃ related, List.Forall₂ R l related ∧ related.Perm l'

theorem any_eq_of_forall₂ {f : α → Bool} {g : β → Bool} (h : List.Forall₂ R l l')
    (hfg : ∀ a b, R a b → f a = g b) : l.any f = l'.any g := by
  induction h with
  | nil => rfl
  | cons hab _ ih => rw [List.any_cons, List.any_cons, hfg _ _ hab, ih]

theorem Reordered.any_eq {f : α → Bool} {g : β → Bool} (h : Reordered R l l')
    (hfg : ∀ a b, R a b → f a = g b) : l.any f = l'.any g := by
  obtain ⟨related, hrelated, hperm⟩ := h
  rw [any_eq_of_forall₂ hrelated hfg, hperm.any_eq]

theorem Reordered.isEmpty_eq (h : Reordered R l l') : l.isEmpty = l'.isEmpty := by
  obtain ⟨related, hrelated, hperm⟩ := h
  have hlength : l.length = l'.length := hrelated.length_eq.trans hperm.length_eq
  rw [Bool.eq_iff_iff, List.isEmpty_iff_length_eq_zero, List.isEmpty_iff_length_eq_zero, hlength]

end Lib
