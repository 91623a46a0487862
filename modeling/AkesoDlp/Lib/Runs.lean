import Mathlib.Data.List.Basic
import Mathlib.Data.Nat.Init

/-!
# Runs

The maximal runs of elements of a kind in a list, as pairs of the places where they start and
end, from left to right.
-/

namespace Lib

variable {α : Type*} (p : α → Bool)

/-- The runs from `pos` on, the first of which may have begun before. -/
def runsFrom : (pos : Nat) → Option Nat → List α → List (Nat × Nat)
  | _, none, [] => []
  | pos, some start, [] => [(start, pos)]
  | pos, none, a :: l => runsFrom (pos + 1) (if p a then some pos else none) l
  | pos, some start, a :: l =>
      if p a then runsFrom (pos + 1) (some start) l
      else (start, pos) :: runsFrom (pos + 1) none l

def runs (l : List α) : List (Nat × Nat) := runsFrom p 0 none l

/-- Does the element at this place satisfy `p`? -/
def HoldsAt (l : List α) (i : Nat) : Prop := ∃ a, l[i]? = some a ∧ p a = true

structure IsRun (l : List α) (span : Nat × Nat) : Prop where
  nonempty : span.1 < span.2
  holds : ∀ i, span.1 ≤ i → i < span.2 → HoldsAt p l i
  before : ∀ i, i + 1 = span.1 → ¬ HoldsAt p l i
  after : ¬ HoldsAt p l span.2

variable {p} {l done : List α} {start : Option Nat}

theorem HoldsAt.lt_length {i : Nat} (h : HoldsAt p l i) : i < l.length := by
  obtain ⟨a, ha, -⟩ := h
  exact (List.getElem?_eq_some_iff.mp ha).1

theorem holdsAt_middle {a : α} : HoldsAt p (done ++ a :: l) done.length ↔ p a = true := by
  simp [HoldsAt]

/-- What is known of the run that is open after `done`. -/
def Open (p : α → Bool) (l : List α) (pos : Nat) : Option Nat → Prop
  | none => ∀ i, i + 1 = pos → ¬ HoldsAt p l i
  | some start => start < pos ∧ (∀ i, start ≤ i → i < pos → HoldsAt p l i) ∧
      ∀ i, i + 1 = start → ¬ HoldsAt p l i

/-- An open run is the only one that starts in its places. -/
theorem IsRun.start_eq {pos first : Nat} {span : Nat × Nat} (hopen : Open p l pos (some first))
    (h : IsRun p l span) (hfirst : first ≤ span.1) (hpos : span.1 < pos) : span.1 = first := by
  by_contra hne
  exact h.before (span.1 - 1) (by omega) (hopen.2.1 _ (by omega) (by omega))

theorem IsRun.eq_of_stop {first pos : Nat} {span : Nat × Nat} (hopen : Open p l pos (some first))
    (hstop : ¬ HoldsAt p l pos) (h : IsRun p l span) (hfirst : first ≤ span.1)
    (hpos : span.1 < pos) : span = (first, pos) := by
  have hstart := h.start_eq hopen hfirst hpos
  have hend : span.2 = pos := by
    by_contra hne
    rcases Nat.lt_or_gt_of_ne hne with hlt | hgt
    · exact h.after (hopen.2.1 _ (by have := h.nonempty; omega) hlt)
    · exact hstop (h.holds pos (by omega) hgt)
  exact Prod.ext hstart hend

theorem Open.isRun {first pos : Nat} (hopen : Open p l pos (some first))
    (hstop : ¬ HoldsAt p l pos) : IsRun p l (first, pos) :=
  ⟨hopen.1, hopen.2.1, hopen.2.2, hstop⟩

/-- The runs that are found from `pos` on are those that start there, and the open one. -/
theorem mem_runsFrom (done : List α) (start : Option Nat)
    (hopen : Open p (done ++ l) done.length start) (span : Nat × Nat) :
    span ∈ runsFrom p done.length start l ↔
      IsRun p (done ++ l) span ∧ start.getD done.length ≤ span.1 := by
  induction l generalizing done start with
  | nil =>
      have hstop : ¬ HoldsAt p (done ++ []) done.length := fun h => by
        simpa using h.lt_length
      cases start with
      | none =>
          simp only [runsFrom, List.not_mem_nil, false_iff, Option.getD_none]
          rintro ⟨hrun, hle⟩
          have hlt := (hrun.holds _ (Nat.le_refl _) hrun.nonempty).lt_length
          rw [List.append_nil] at hlt
          omega
      | some first =>
          simp only [runsFrom, List.mem_singleton, Option.getD_some]
          constructor
          · rintro rfl
            exact ⟨hopen.isRun hstop, Nat.le_refl _⟩
          · rintro ⟨hrun, hle⟩
            have hlt := (hrun.holds _ (Nat.le_refl _) hrun.nonempty).lt_length
            rw [List.append_nil] at hlt
            exact hrun.eq_of_stop hopen hstop hle hlt
  | cons a l ih =>
      have hnext : ∀ start', Open p (done ++ a :: l) (done.length + 1) start' →
          (span ∈ runsFrom p (done.length + 1) start' l ↔
            IsRun p (done ++ a :: l) span ∧ start'.getD (done.length + 1) ≤ span.1) := by
        intro start'
        have hstep := ih (done ++ [a]) start'
        rwa [List.length_append, List.length_singleton, List.append_assoc, List.singleton_append]
          at hstep
      have hhere : HoldsAt p (done ++ a :: l) done.length ↔ p a = true := holdsAt_middle
      -- no run starts at an element that does not satisfy `p`
      have hclosed : ¬ HoldsAt p (done ++ a :: l) done.length →
          (span ∈ runsFrom p (done.length + 1) none l ↔
            IsRun p (done ++ a :: l) span ∧ done.length + 1 ≤ span.1) := by
        intro hstop
        refine hnext none fun i hi => ?_
        rwa [Nat.succ.inj hi]
      have hlater : ¬ HoldsAt p (done ++ a :: l) done.length → IsRun p (done ++ a :: l) span →
          span.1 ≠ done.length := fun hstop hrun heq =>
        hstop (heq ▸ hrun.holds _ (Nat.le_refl _) hrun.nonempty)
      cases start with
      | none =>
          rw [runsFrom, Option.getD_none]
          by_cases ha : p a = true
          · rw [if_pos ha]
            refine hnext (some done.length) ⟨Nat.lt_succ_self _, fun i hle hlt => ?_, hopen⟩
            have hi : i = done.length := by omega
            rwa [hi, hhere]
          · rw [if_neg ha]
            rw [← hhere] at ha
            rw [hclosed ha]
            exact and_congr_right fun hrun =>
              ⟨Nat.le_of_succ_le, fun hle => Nat.lt_of_le_of_ne hle (hlater ha hrun).symm⟩
      | some first =>
          rw [runsFrom, Option.getD_some]
          by_cases ha : p a = true
          · rw [if_pos ha]
            refine hnext (some first) ⟨Nat.lt_succ_of_lt hopen.1, fun i hle hlt => ?_, hopen.2.2⟩
            rcases Nat.lt_succ_iff_lt_or_eq.mp hlt with hlt | rfl
            · exact hopen.2.1 i hle hlt
            · rwa [hhere]
          · rw [if_neg ha, List.mem_cons]
            rw [← hhere] at ha
            rw [hclosed ha]
            constructor
            · rintro (rfl | ⟨hrun, hle⟩)
              · exact ⟨hopen.isRun ha, Nat.le_refl _⟩
              · exact ⟨hrun, by have := hopen.1; omega⟩
            · rintro ⟨hrun, hle⟩
              rcases Nat.lt_or_ge span.1 done.length with hlt | hge
              · exact .inl (hrun.eq_of_stop hopen ha hle hlt)
              · exact .inr ⟨hrun, Nat.lt_of_le_of_ne hge (hlater ha hrun).symm⟩

/-- Exactly the maximal runs are found. -/
theorem mem_runs {span : Nat × Nat} : span ∈ runs p l ↔ IsRun p l span := by
  have hrun := @mem_runsFrom _ p l [] none (fun i hi => by cases hi) span
  rw [List.nil_append] at hrun
  rw [runs, ← List.length_nil, hrun]
  exact and_iff_left (Nat.zero_le _)

/-- Between two runs is an element that is in neither. -/
theorem runsFrom_pairwise (start : Option Nat) {pos : Nat} (hstart : start.getD pos ≤ pos) :
    (runsFrom p pos start l).Pairwise (fun a b => a.2 < b.1) ∧
      ∀ span ∈ runsFrom p pos start l, start.getD pos ≤ span.1 := by
  induction l generalizing pos start with
  | nil => cases start <;> simp [runsFrom]
  | cons a l ih =>
      cases start with
      | none =>
          rw [runsFrom]
          split
          · exact ih (some pos) (Nat.le_succ pos)
          · obtain ⟨hpairwise, hle⟩ := ih none (Nat.le_refl (pos + 1))
            exact ⟨hpairwise, fun span hspan => Nat.le_of_succ_le (hle span hspan)⟩
      | some first =>
          rw [runsFrom]
          split
          · exact ih (some first) (Nat.le_succ_of_le hstart)
          · obtain ⟨hpairwise, hle⟩ := ih none (Nat.le_refl (pos + 1))
            refine ⟨List.pairwise_cons.mpr ⟨hle, hpairwise⟩, fun span hspan => ?_⟩
            rcases List.mem_cons.mp hspan with rfl | hspan
            · exact Nat.le_refl _
            · exact Nat.le_trans (Nat.le_succ_of_le hstart) (hle span hspan)

theorem runs_pairwise (p : α → Bool) (l : List α) :
    (runs p l).Pairwise fun a b => a.2 < b.1 :=
  (runsFrom_pairwise none (Nat.le_refl 0)).1

/-- A run is found once, and two runs neither start nor end together. -/
theorem getElem_runs_inj {i j : Nat} (hi : i < (runs p l).length) (hj : j < (runs p l).length)
    (h : (runs p l)[i].1 = (runs p l)[j].1 ∨ (runs p l)[i].2 = (runs p l)[j].2) : i = j := by
  have hordered : ∀ a b (ha : a < (runs p l).length) (hb : b < (runs p l).length), a < b →
      (runs p l)[a].1 < (runs p l)[b].1 ∧ (runs p l)[a].2 < (runs p l)[b].2 := by
    intro a b ha hb hab
    have hbetween := List.pairwise_iff_getElem.mp (runs_pairwise p l) a b ha hb hab
    have hfirst := (mem_runs.mp (List.getElem_mem ha)).nonempty
    have hsecond := (mem_runs.mp (List.getElem_mem hb)).nonempty
    exact ⟨Nat.lt_trans hfirst hbetween, Nat.lt_trans hbetween hsecond⟩
  rcases Nat.lt_trichotomy i j with hlt | heq | hgt
  · have := hordered i j hi hj hlt
    omega
  · exact heq
  · have := hordered j i hj hi hgt
    omega

end Lib
