import Mathlib.Data.List.Perm.Basic
import Mathlib.Data.List.Flatten
import Mathlib.Data.List.Count
import Mathlib.Data.List.Induction
import Mathlib.Data.List.Forall2

/-!
# Filtered lists

How dropping elements shows in a `flatMap`, when two filters of one list keep
the same elements as often, the last write of a `foldl`, the parts of a joined
list and their pieces, and a `mapM` that may fail.
-/

namespace Lib

variable {α β : Type*}

theorem length_flatMap_filter_le (f : α → List β) (p : α → Bool) (l : List α) :
    ((l.filter p).flatMap f).length ≤ (l.flatMap f).length := by
  induction l with
  | nil => simp
  | cons x l ih =>
      rw [List.filter_cons]
      split
      · simpa using ih
      · simp only [List.flatMap_cons, List.length_append]
        omega

/-- Filtering before a `flatMap` loses nothing exactly when the dropped elements
contribute nothing. -/
theorem length_flatMap_filter_eq_iff (f : α → List β) (p : α → Bool) (l : List α) :
    ((l.filter p).flatMap f).length = (l.flatMap f).length ↔
      ∀ x ∈ l, p x = false → f x = [] := by
  induction l with
  | nil => simp
  | cons x l ih =>
      have hle := length_flatMap_filter_le f p l
      cases hp : p x with
      | true =>
          simp only [List.filter_cons, hp, if_true, List.flatMap_cons, List.length_append,
            List.forall_mem_cons, Bool.true_eq_false, false_implies, true_and, ← ih]
          omega
      | false =>
          simp only [List.filter_cons, hp, Bool.false_eq_true, if_false, List.flatMap_cons,
            List.length_append, List.forall_mem_cons, forall_const, ← ih]
          constructor
          · intro h
            exact ⟨List.length_eq_zero_iff.mp (by omega), by omega⟩
          · rintro ⟨hx, h⟩
            simp [hx, h]

theorem flatMap_filter_eq_iff (f : α → List β) (p : α → Bool) (l : List α) :
    (l.filter p).flatMap f = l.flatMap f ↔ ∀ x ∈ l, p x = false → f x = [] := by
  rw [← length_flatMap_filter_eq_iff f p l]
  constructor
  · intro h
    rw [h]
  · intro h
    have hsub : ((l.filter p).flatMap f).Sublist (l.flatMap f) :=
      List.filter_sublist.flatMap f
    exact hsub.eq_of_length h

theorem any_or (l : List α) (p q : α → Bool) :
    (l.any fun x => p x || q x) = (l.any p || l.any q) := by
  induction l with
  | nil => rfl
  | cons x l ih =>
      rw [List.any_cons, List.any_cons, List.any_cons, ih]
      ac_rfl

/-- Two filters of one list keep the same elements as often exactly when they
agree on the list. -/
theorem filter_perm_filter_iff [DecidableEq α] (p q : α → Bool) (l : List α) :
    (l.filter p).Perm (l.filter q) ↔ ∀ x ∈ l, p x = q x := by
  constructor
  · intro h x hx
    rw [Bool.eq_iff_iff]
    have hmem : x ∈ l.filter p ↔ x ∈ l.filter q := h.mem_iff
    simpa [List.mem_filter, hx] using hmem
  · intro h
    rw [List.filter_congr h]

theorem sublist_append_eq_iff {a a' b b' : List α} (ha : a'.Sublist a) (hb : b'.Sublist b) :
    a' ++ b' = a ++ b ↔ a' = a ∧ b' = b := by
  constructor
  · intro h
    have hlen := congrArg List.length h
    rw [List.length_append, List.length_append] at hlen
    have hla := ha.length_le
    have hlb := hb.length_le
    exact ⟨ha.eq_of_length (by omega), hb.eq_of_length (by omega)⟩
  · rintro ⟨rfl, rfl⟩
    rfl

theorem flatMap_sublist_flatMap {f g : α → List β} {l : List α}
    (h : ∀ x ∈ l, (f x).Sublist (g x)) : (l.flatMap f).Sublist (l.flatMap g) := by
  induction l with
  | nil => exact List.Sublist.refl _
  | cons x l ih =>
      rw [List.forall_mem_cons] at h
      exact h.1.append (ih h.2)

/-- Two `flatMap`s, one inside the other, agree only if they agree everywhere. -/
theorem flatMap_eq_flatMap_iff {f g : α → List β} {l : List α}
    (h : ∀ x ∈ l, (f x).Sublist (g x)) :
    l.flatMap f = l.flatMap g ↔ ∀ x ∈ l, f x = g x := by
  induction l with
  | nil => simp
  | cons x l ih =>
      rw [List.forall_mem_cons] at h ⊢
      rw [List.flatMap_cons, List.flatMap_cons,
        sublist_append_eq_iff h.1 (flatMap_sublist_flatMap h.2), ih h.2]

/-- A part of the state that every step overwrites or leaves alone holds, after
a run, what the last overwriting step put there. -/
theorem foldl_lastWrite {σ : Type*} {step : σ → α → σ} {get : σ → β} {writes : α → Bool}
    {val : α → β} {P : σ → Prop} (hP : ∀ s a, P s → P (step s a))
    (h : ∀ s a, P s → get (step s a) = if writes a then val a else get s) (l : List α) {s : σ}
    (hs : P s) :
    P (l.foldl step s) ∧
      get (l.foldl step s) = ((l.reverse.find? writes).map val).getD (get s) := by
  induction l using List.reverseRecOn with
  | nil => exact ⟨hs, rfl⟩
  | append_singleton l a ih =>
      rw [List.foldl_append, List.foldl_cons, List.foldl_nil, List.reverse_append]
      refine ⟨hP _ _ ih.1, ?_⟩
      rw [h _ _ ih.1, ih.2, List.reverse_singleton, List.singleton_append, List.find?_cons]
      cases writes a <;> rfl

/-- Two disjoint selections, one after the other, are the common selection when
no element of the second precedes one of the first. -/
theorem filter_append_filter_of_pairwise {p q : α → Bool} {l : List α}
    (hdisj : ∀ x ∈ l, p x = true → q x = false)
    (h : l.Pairwise fun x y => q x = true → p y = false) :
    l.filter p ++ l.filter q = l.filter fun x => p x || q x := by
  induction l with
  | nil => rfl
  | cons x l ih =>
      rw [List.forall_mem_cons] at hdisj
      rw [List.pairwise_cons] at h
      have ih := ih hdisj.2 h.2
      cases hp : p x with
      | true => simp [hp, hdisj.1 hp, ih]
      | false =>
          cases hq : q x with
          | false => simp [hp, hq, ih]
          | true =>
              -- from here on only the second selection takes elements
              have hnone : l.filter p = [] :=
                List.filter_eq_nil_iff.mpr fun y hy => by simp [h.1 y hy hq]
              rw [hnone, List.nil_append] at ih
              simp [hp, hq, hnone, ih]

/-- Every part of a joined list is in the result. -/
theorem infix_intercalate (sep : List α) {x : List α} {xs : List (List α)} (h : x ∈ xs) :
    x <:+: sep.intercalate xs := by
  induction xs with
  | nil => simp at h
  | cons first rest ih =>
      cases rest with
      | nil =>
          have heq : x = sep.intercalate [first] :=
            (List.mem_singleton.mp h).trans (List.intercalate_singleton ..).symm
          exact heq ▸ List.infix_rfl
      | cons second rest =>
          rw [List.intercalate_cons_cons, List.append_assoc]
          obtain rfl | h := List.mem_cons.mp h
          · exact (List.prefix_append ..).isInfix
          · rw [← List.append_assoc]
            exact (ih h).trans (List.suffix_append ..).isInfix

/-- Joined lists fall into the pieces of their parts. -/
theorem splitOn_intercalate_eq_flatMap [DecidableEq α] (x : α) {ls : List (List α)}
    (h : ls ≠ []) : ([x].intercalate ls).splitOn x = ls.flatMap fun l => l.splitOn x := by
  induction ls with
  | nil => exact absurd rfl h
  | cons first rest ih =>
      cases rest with
      | nil => simp
      | cons second rest =>
          rw [List.intercalate_cons_cons, List.append_assoc, List.singleton_append,
            List.splitOn_append_cons_self, ih (List.cons_ne_nil _ _)]
          rfl

/-- Two joined lists are equal exactly when their parts have the same pieces. -/
theorem intercalate_eq_iff [DecidableEq α] (x : α) {ls ls' : List (List α)} (h : ls ≠ [])
    (h' : ls' ≠ []) :
    [x].intercalate ls = [x].intercalate ls' ↔
      (ls.flatMap fun l => l.splitOn x) = ls'.flatMap fun l => l.splitOn x := by
  rw [← splitOn_intercalate_eq_flatMap x h, ← splitOn_intercalate_eq_flatMap x h']
  constructor
  · intro heq
    rw [heq]
  · intro heq
    have hjoined := congrArg [x].intercalate heq
    rwa [List.intercalate_splitOn, List.intercalate_splitOn] at hjoined

theorem mapM_eq_some_iff {f : α → Option β} {l : List α} {ys : List β} :
    l.mapM f = some ys ↔ List.Forall₂ (fun x y => f x = some y) l ys := by
  induction l generalizing ys with
  | nil => simp [eq_comm]
  | cons x l ih =>
      rw [List.mapM_cons, List.forall₂_cons_left_iff]
      constructor
      · intro h
        obtain ⟨y, hy, h⟩ := Option.bind_eq_some_iff.mp h
        obtain ⟨rest, hrest, h⟩ := Option.bind_eq_some_iff.mp h
        exact ⟨y, rest, hy, ih.mp hrest, (Option.some.inj h).symm⟩
      · rintro ⟨y, rest, hy, hrest, rfl⟩
        exact Option.bind_eq_some_iff.mpr
          ⟨y, hy, Option.bind_eq_some_iff.mpr ⟨rest, ih.mpr hrest, rfl⟩⟩

/-- Nothing fails if no element does. -/
theorem exists_mapM {f : α → Option β} {l : List α} (h : ∀ x ∈ l, ∃ y, f x = some y) :
    ∃ ys, l.mapM f = some ys := by
  induction l with
  | nil => exact ⟨[], rfl⟩
  | cons x l ih =>
      rw [List.forall_mem_cons] at h
      obtain ⟨y, hy⟩ := h.1
      obtain ⟨ys, hys⟩ := ih h.2
      exact ⟨y :: ys, by rw [List.mapM_cons, hy, hys]; rfl⟩

end Lib
