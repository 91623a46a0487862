import Mathlib.Data.List.Induction
import Mathlib.Data.List.Infix

/-!
# Paths and their components

A path is a list; separators, of whatever kind and number, come between its components.
One path contains another one if both have the same root and the components of the first
are the first components of the second.
-/

namespace Lib

variable {α : Type*} (sep : α → Bool)

/-- What is between the separators. -/
def components (path : List α) : List (List α) :=
  (path.splitOnP sep).filter fun name => !name.isEmpty

/-- The number of separators at the beginning. -/
def rootLength (path : List α) : Nat := (path.takeWhile sep).length

/-- `path` is `dir`, or lies below it. -/
def Contains (dir path : List α) : Prop :=
  rootLength sep dir = rootLength sep path ∧ components sep dir <+: components sep path

/-- `dir` ends where a component of `dir ++ rest` does. -/
def EndsAtComponent (dir rest : List α) : Prop :=
  rootLength sep dir = rootLength sep (dir ++ rest) ∧
    (rest.head?.all sep = true ∨ dir.getLast?.all sep = true)

instance [DecidableEq α] (dir path : List α) : Decidable (Contains sep dir path) :=
  inferInstanceAs (Decidable (_ ∧ _))

instance (dir rest : List α) : Decidable (EndsAtComponent sep dir rest) :=
  inferInstanceAs (Decidable (_ ∧ _))

variable {sep}

theorem components_append_cons (front : List α) {c : α} (hc : sep c = true) (rest : List α) :
    components sep (front ++ c :: rest) = components sep front ++ components sep rest := by
  rw [components, List.splitOnP_append_cons _ _ hc, List.filter_append]
  rfl

theorem components_append {front : List α} (h : front.getLast?.all sep = true) (rest : List α) :
    components sep (front ++ rest) = components sep front ++ components sep rest := by
  rcases List.eq_nil_or_concat front with rfl | ⟨init, last, rfl⟩
  · rfl
  · have hlast : sep last = true := by simpa using h
    have hinit : components sep (init ++ [last]) = components sep init := by
      rw [components_append_cons init hlast]
      exact List.append_nil _
    rw [List.concat_eq_append, hinit, List.append_assoc, List.singleton_append,
      components_append_cons init hlast]

/-- Letters in front of a path go into its first piece. -/
theorem splitOnP_append {word : List α} (h : ∀ c ∈ word, sep c = false) (rest : List α) :
    (word ++ rest).splitOnP sep = (rest.splitOnP sep).modifyHead (word ++ ·) := by
  induction word with
  | nil =>
      cases hrest : rest.splitOnP sep with
      | nil => exact absurd hrest (List.splitOnP_ne_nil sep rest)
      | cons piece pieces => simp [hrest]
  | cons c word ih =>
      rw [List.forall_mem_cons] at h
      rw [List.cons_append, List.splitOnP_cons_eq_if_modifyHead, if_neg (by simp [h.1]), ih h.2,
        List.modifyHead_modifyHead]
      rfl

theorem components_word {word : List α} (h : ∀ c ∈ word, sep c = false) (hne : word ≠ []) :
    components sep word = [word] := by
  rw [components, List.splitOnP_eq_singleton h, List.filter_cons_of_pos (by simp [hne]),
    List.filter_nil]

/-- A word that goes on is another component. -/
theorem components_word_append {word : List α} (h : ∀ c ∈ word, sep c = false) {c : α}
    (hc : sep c = false) (rest : List α) :
    ∃ more others, more ≠ [] ∧
      components sep (word ++ c :: rest) = (word ++ more) :: others := by
  cases hrest : rest.splitOnP sep with
  | nil => exact absurd hrest (List.splitOnP_ne_nil sep rest)
  | cons piece pieces =>
      refine ⟨c :: piece, pieces.filter fun name => !name.isEmpty, List.cons_ne_nil _ _, ?_⟩
      rw [components, splitOnP_append h, List.splitOnP_cons_eq_if_modifyHead, if_neg (by simp [hc]),
        hrest, List.modifyHead_cons, List.modifyHead_cons, List.filter_cons_of_pos (by simp)]

variable (sep) in
/-- A path ends with a word, after a separator or at the beginning. -/
theorem exists_lastWord (path : List α) :
    ∃ front word, path = front ++ word ∧ front.getLast?.all sep = true ∧
      ∀ c ∈ word, sep c = false := by
  induction path using List.reverseRecOn with
  | nil => exact ⟨[], [], rfl, rfl, List.forall_mem_nil _⟩
  | append_singleton path c ih =>
      cases hc : sep c with
      | true => exact ⟨path ++ [c], [], by simp, by simp [hc], List.forall_mem_nil _⟩
      | false =>
          obtain ⟨front, word, rfl, hfront, hword⟩ := ih
          refine ⟨front, word ++ [c], by simp, hfront, ?_⟩
          intro d hd
          rcases List.mem_append.mp hd with hd | hd
          · exact hword d hd
          · rw [List.mem_singleton.mp hd]
            exact hc

/-- The beginning of a path contains it exactly if it does not cut a component. -/
theorem contains_append_iff {dir rest : List α} :
    Contains sep dir (dir ++ rest) ↔ EndsAtComponent sep dir rest := by
  refine and_congr_right fun _ => ?_
  constructor
  · intro hprefix
    by_contra hcut
    rw [not_or, Bool.not_eq_true, Bool.not_eq_true] at hcut
    obtain ⟨hrest, hdir⟩ := hcut
    obtain ⟨front, word, rfl, hfront, hword⟩ := exists_lastWord sep dir
    cases rest with
    | nil => cases hrest
    | cons c rest =>
        have hc : sep c = false := by simpa using hrest
        have hne : word ≠ [] := by
          rintro rfl
          rw [List.append_nil, hfront] at hdir
          cases hdir
        obtain ⟨more, others, hmore, hcomponents⟩ := components_word_append hword hc rest
        rw [List.append_assoc, components_append hfront, components_append hfront,
          components_word hword hne, hcomponents, List.prefix_append_right_inj,
          List.cons_prefix_cons] at hprefix
        exact hmore (List.self_eq_append_right.mp hprefix.1)
  · rintro (hrest | hdir)
    · cases rest with
      | nil => rw [List.append_nil]
      | cons c rest =>
          rw [components_append_cons dir (by simpa using hrest)]
          exact List.prefix_append _ _
    · rw [components_append hdir]
      exact List.prefix_append _ _

end Lib
