import Mathlib.Data.List.Basic
import Mathlib.Algebra.BigOperators.Group.List.Basic
import Mathlib.Algebra.GroupWithZero.Nat
import Mathlib.Data.Nat.ModEq

/-!
# Check digits

A check sum adds up what each symbol counts for at its position. What is left of it after
division tells two symbols at one position apart exactly when it tells apart what they
count for, whatever stands around them.
-/

namespace Lib

variable {α : Type*}

/-- The sum of what the symbols count for at their positions, from position `k` on. -/
def checkSum (term : α → Nat → Nat) (k : Nat) (s : List α) : Nat :=
  ((s.zipIdx k).map fun (a, i) => term a i).sum

/-- One symbol of `s` is another one in `t`. -/
inductive Changed : List α → List α → Prop
  | intro (before : List α) {a b : α} (hne : a ≠ b) (behind : List α) :
      Changed (before ++ a :: behind) (before ++ b :: behind)

/-- `s` has `a` before `b` where `t` has them the other way round. -/
inductive Swapped (a b : α) : List α → List α → Prop
  | intro (before behind : List α) :
      Swapped a b (before ++ a :: b :: behind) (before ++ b :: a :: behind)

theorem Changed.length_eq {s t : List α} (h : Changed s t) : t.length = s.length := by
  cases h
  simp

theorem Swapped.length_eq {a b : α} {s t : List α} (h : Swapped a b s t) :
    t.length = s.length := by
  cases h
  simp

theorem Swapped.perm {a b : α} {s t : List α} (h : Swapped a b s t) : t.Perm s := by
  cases h with
  | intro before behind => exact (List.Perm.swap a b behind).append_left before

theorem Changed.reverse {s t : List α} (h : Changed s t) : Changed s.reverse t.reverse := by
  cases h with
  | intro before hne behind =>
      simp only [List.reverse_append, List.reverse_cons, List.append_assoc, List.singleton_append]
      exact .intro behind.reverse hne before.reverse

theorem Swapped.reverse {a b : α} {s t : List α} (h : Swapped a b s t) :
    Swapped b a s.reverse t.reverse := by
  cases h with
  | intro before behind =>
      simp only [List.reverse_append, List.reverse_cons, List.append_assoc, List.singleton_append]
      exact .intro behind.reverse before.reverse

section

variable (term : α → Nat → Nat)

@[simp] theorem checkSum_nil (k : Nat) : checkSum term k [] = 0 := rfl

@[simp] theorem checkSum_cons (k : Nat) (a : α) (s : List α) :
    checkSum term k (a :: s) = term a k + checkSum term (k + 1) s := by
  simp [checkSum, List.zipIdx_cons]

@[simp] theorem checkSum_append (k : Nat) (s t : List α) :
    checkSum term k (s ++ t) = checkSum term k s + checkSum term (k + s.length) t := by
  simp [checkSum, List.zipIdx_append]

/-- Weights that stand beside the symbols. -/
theorem sum_zipWith_eq_checkSum (f : α → Nat → Nat) (s : List α) (weights : List Nat)
    (h : s.length = weights.length) :
    (List.zipWith f s weights).sum = checkSum (fun a i => f a (weights.getD i 0)) 0 s := by
  have hfrom : ∀ (s : List α) (before weights : List Nat), s.length = weights.length →
      (List.zipWith f s weights).sum =
        checkSum (fun a i => f a ((before ++ weights).getD i 0)) before.length s := by
    intro s
    induction s with
    | nil => intro before weights _; simp
    | cons a s ih =>
        intro before weights h
        match weights, h with
        | w :: weights, h =>
            have htail := ih (before ++ [w]) weights (by simpa using h)
            rw [List.append_assoc, List.singleton_append, List.length_append,
              List.length_singleton] at htail
            rw [List.zipWith_cons_cons, List.sum_cons, checkSum_cons, htail]
            simp
  exact hfrom s [] weights h

variable {term} {m : Nat}

/-- A check sum that tells all symbols apart at each position notices a change. -/
theorem Changed.checkSum_mod_ne {s t : List α} {valid : α → Prop} (h : Changed s t)
    (hs : ∀ a ∈ s, valid a) (ht : ∀ a ∈ t, valid a)
    (hterm : ∀ a b i, i < s.length → valid a → valid b → term a i % m = term b i % m → a = b) :
    checkSum term 0 s % m ≠ checkSum term 0 t % m := by
  cases h with
  | @intro before a b hne behind =>
      intro heq
      simp only [checkSum_append, checkSum_cons] at heq
      have hterms : term a before.length ≡ term b before.length [MOD m] := by
        have hrest := Nat.ModEq.add_left_cancel' _ (show _ ≡ _ [MOD m] from heq)
        simpa using Nat.ModEq.add_right_cancel' _ hrest
      refine hne (hterm a b before.length (by simp) (hs a (by simp)) (ht b (by simp)) hterms)

/-- Two neighbours may change places unnoticed where they count for the same together. -/
theorem Swapped.checkSum_mod_eq_iff {a b : α} {s t : List α} {P : Prop} (h : Swapped a b s t)
    (hterm : ∀ i, (term a i + term b (i + 1)) % m = (term b i + term a (i + 1)) % m ↔ P) :
    checkSum term 0 s % m = checkSum term 0 t % m ↔ P := by
  cases h with
  | intro before behind =>
      rw [← hterm before.length]
      simp only [checkSum_append, checkSum_cons, Nat.zero_add, ← Nat.add_assoc]
      constructor
      · intro heq
        have hrest := Nat.ModEq.add_right_cancel' _ (show _ ≡ _ [MOD m] from heq)
        rw [Nat.add_assoc, Nat.add_assoc] at hrest
        exact Nat.ModEq.add_left_cancel' _ hrest
      · intro heq
        have hfront := Nat.ModEq.add_left (checkSum term 0 before) (show _ ≡ _ [MOD m] from heq)
        rw [← Nat.add_assoc, ← Nat.add_assoc] at hfront
        exact Nat.ModEq.add_right _ hfront

end

end Lib
