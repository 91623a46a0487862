import Mathlib.Data.List.Chain
import Mathlib.Logic.Function.Iterate

/-!
# Rewriting that shortens

A rewriting step that leaves its input as it is or makes it shorter. Such steps
compose, and a composition that changes nothing is one in which no step does. A step
repeated until nothing changes goes through shorter and shorter lists.
-/

namespace Lib

variable {α : Type*}

/-- `s` is rewritten to `r`: left as it is, or made shorter. -/
def Shortens (s r : List α) : Prop := r = s ∨ r.length < s.length

namespace Shortens

theorem refl (s : List α) : Shortens s s := .inl rfl

theorem of_lt {s r : List α} (h : r.length < s.length) : Shortens s r := .inr h

theorem length_le {s r : List α} (h : Shortens s r) : r.length ≤ s.length := by
  obtain rfl | h := h
  · exact Nat.le_refl _
  · exact Nat.le_of_lt h

/-- Nothing was lost, so nothing was changed. -/
theorem eq_of_length {s r : List α} (h : Shortens s r) (hlength : s.length ≤ r.length) :
    r = s := by
  obtain h | h := h
  · exact h
  · omega

theorem trans {s r q : List α} (h : Shortens s r) (h' : Shortens r q) : Shortens s q := by
  have hle := h'.length_le
  obtain rfl | h := h
  · exact h'
  · exact .inr (by omega)

theorem append {s r s' r' : List α} (h : Shortens s r) (h' : Shortens s' r') :
    Shortens (s ++ s') (r ++ r') := by
  have hle := h'.length_le
  obtain rfl | h := h
  · obtain rfl | h' := h'
    · exact .inl rfl
    · exact .inr (by simpa using h')
  · exact .inr (by simp only [List.length_append]; omega)

theorem cons {s r : List α} (c : α) (h : Shortens s r) : Shortens (c :: s) (c :: r) :=
  append (refl [c]) h

/-- A pair of steps that changes nothing together changes nothing apart. -/
theorem eq_of_append {s r s' r' : List α} (h : Shortens s r) (h' : Shortens s' r')
    (heq : r ++ r' = s ++ s') : r = s ∧ r' = s' := by
  have hlength := congrArg List.length heq
  simp only [List.length_append] at hlength
  have hle := h.length_le
  have hle' := h'.length_le
  exact ⟨h.eq_of_length (by omega), h'.eq_of_length (by omega)⟩

theorem eq_of_append_cons {s r s' r' : List α} {c : α} (h : Shortens s r) (h' : Shortens s' r')
    (heq : r ++ c :: r' = s ++ c :: s') : r = s ∧ r' = s' := by
  obtain ⟨hr, hr'⟩ := h.eq_of_append (h'.cons c) heq
  exact ⟨hr, (List.cons.injEq .. ▸ hr').2⟩

theorem eq_of_trans {s r q : List α} (h : Shortens s r) (h' : Shortens r q) (heq : q = s) :
    r = s := by
  have hle := h'.length_le
  exact h.eq_of_length (by rw [← heq]; exact hle)

end Shortens

/-! ## Passes -/

section Passes

variable [DecidableEq α] (f : List α → List α)

/-- What at most so many passes make of a list, up to the pass that changes nothing. -/
def stages : (passes : Nat) → List α → List (List α)
  | 0, _ => []
  | passes + 1, s => if f s = s then [] else f s :: stages passes (f s)

/-- How many of the passes change what they get. -/
def changes : (passes : Nat) → List α → Nat
  | 0, _ => 0
  | passes + 1, s => (if f s = s then 0 else 1) + changes passes (f s)

variable {f}

theorem changes_of_stable {s : List α} (h : f s = s) (passes : Nat) :
    changes f passes s = 0 := by
  induction passes with
  | zero => rfl
  | succ passes ih => rw [changes, if_pos h, h, ih]

variable (f)

theorem changes_le (passes : Nat) (s : List α) : changes f passes s ≤ passes := by
  induction passes generalizing s with
  | zero => exact Nat.le_refl 0
  | succ passes ih =>
      have hrest := ih (f s)
      rw [changes]
      split <;> omega

theorem length_stages (passes : Nat) (s : List α) :
    (stages f passes s).length = changes f passes s := by
  induction passes generalizing s with
  | zero => rfl
  | succ passes ih =>
      rw [stages]
      split
      · next hstable => exact (changes_of_stable hstable _).symm
      · next hchanged => rw [List.length_cons, ih, changes, if_neg hchanged, Nat.add_comm]

/-- Each stage is what a pass made of the one before, and not the same. -/
theorem isChain_stages (passes : Nat) (s : List α) :
    (s :: stages f passes s).IsChain fun a b => b = f a ∧ b ≠ a := by
  induction passes generalizing s with
  | zero => exact .singleton s
  | succ passes ih =>
      rw [stages]
      split
      · exact .singleton s
      · next hchanged => exact .cons_cons ⟨rfl, hchanged⟩ (ih (f s))

/-- Whether it is reached or not, the last stage is what all the passes make of the list. -/
theorem getLast_stages (passes : Nat) (s : List α) :
    (s :: stages f passes s).getLast (List.cons_ne_nil _ _) = f^[passes] s := by
  induction passes generalizing s with
  | zero => rfl
  | succ passes ih =>
      simp only [stages]
      split
      · next hstable => exact (Function.iterate_fixed hstable _).symm
      · exact ih (f s)

/-- A pass that changed nothing leaves nothing for the next. -/
theorem iterate_fixed_of_changes_lt {passes : Nat} {s : List α}
    (h : changes f passes s < passes) : f (f^[passes] s) = f^[passes] s := by
  induction passes generalizing s with
  | zero => exact absurd h (Nat.lt_irrefl 0)
  | succ passes ih =>
      by_cases hstable : f s = s
      · rw [Function.iterate_fixed hstable, hstable]
      · rw [changes, if_neg hstable] at h
        exact ih (by omega)

variable {f} (hf : ∀ s, Shortens s (f s))
include hf

/-- The stages become shorter and shorter. -/
theorem pairwise_stages (passes : Nat) (s : List α) :
    (s :: stages f passes s).Pairwise fun a b => b.length < a.length := by
  have hshorter := (isChain_stages f passes s).imp fun a b h =>
    (h.1 ▸ hf a).resolve_left h.2
  exact (List.isChain_iff_pairwise (R := fun a b : List α => b.length < a.length)).mp hshorter

/-- Each pass that changes a list takes something from it. -/
theorem changes_add_length_le (passes : Nat) (s : List α) :
    changes f passes s + (f^[passes] s).length ≤ s.length := by
  induction passes generalizing s with
  | zero => exact Nat.le_of_eq (Nat.zero_add _)
  | succ passes ih =>
      have hrest := ih (f s)
      rw [changes, Function.iterate_succ_apply]
      split
      · next hstable =>
          rw [hstable] at hrest ⊢
          omega
      · next hchanged =>
          have hlt := (hf s).resolve_left hchanged
          omega

end Passes

end Lib
