import Mathlib.Data.List.Nodup
import Mathlib.Data.List.Perm.Basic

/-!
# Ordered pages and their merge

A query with an order and a page size returns the rows that have fewer than a
page of rows before them. Several such answers are merged by key: the first row
of each key is kept.
-/

namespace Lib

variable {α κ : Type*}

/-- How a database orders rows: it returns the rows it was given, and none
before a row that must come before it. Rows that `before` does not separate may
stand either way. -/
structure OrderBy (α : Type*) (before : α → α → Prop) where
  rows : List α → List α
  perm : ∀ l, (rows l).Perm l
  sorted : ∀ l, (rows l).Pairwise fun x y => ¬ before y x

/-- `OFFSET (number - 1) * size LIMIT size`. -/
def page (number size : Nat) (l : List α) : List α :=
  (l.drop ((number - 1) * size)).take size

theorem mem_firstPage [DecidableEq α] {size : Nat} {l : List α} {x : α} :
    x ∈ page 1 size l ↔ x ∈ l ∧ l.idxOf x < size := by
  rw [page, Nat.sub_self, Nat.zero_mul, List.drop_zero]
  constructor
  · intro h
    have hmem := List.mem_of_mem_take h
    exact ⟨hmem, (List.mem_take_iff_idxOf_lt hmem).mp h⟩
  · rintro ⟨hmem, hlt⟩
    exact (List.mem_take_iff_idxOf_lt hmem).mpr hlt

section FirstSeen

variable [DecidableEq κ]

/-- The elements whose key is not in `seen` and not that of an earlier element. -/
def firstSeen (key : α → κ) : List κ → List α → List α
  | _, [] => []
  | seen, x :: l =>
      if key x ∈ seen then firstSeen key seen l
      else x :: firstSeen key (key x :: seen) l

variable {key : α → κ}

theorem mem_of_mem_firstSeen {seen : List κ} {l : List α} {x : α}
    (h : x ∈ firstSeen key seen l) : x ∈ l ∧ key x ∉ seen := by
  induction l generalizing seen with
  | nil => cases h
  | cons y l ih =>
      rw [firstSeen] at h
      split at h
      · exact ⟨List.mem_cons_of_mem _ (ih h).1, (ih h).2⟩
      · next hy =>
          rcases List.mem_cons.mp h with rfl | hrest
          · exact ⟨List.mem_cons_self, hy⟩
          · obtain ⟨hmem, hseen⟩ := ih hrest
            exact ⟨List.mem_cons_of_mem _ hmem, fun hin => hseen (List.mem_cons_of_mem _ hin)⟩

theorem nodup_keys_firstSeen (seen : List κ) (l : List α) :
    ((firstSeen key seen l).map key).Nodup := by
  induction l generalizing seen with
  | nil => exact List.nodup_nil
  | cons x l ih =>
      rw [firstSeen]
      split
      · exact ih seen
      · rw [List.map_cons, List.nodup_cons]
        refine ⟨?_, ih _⟩
        intro hin
        obtain ⟨y, hy, hkey⟩ := List.mem_map.mp hin
        exact (mem_of_mem_firstSeen hy).2 (hkey ▸ List.mem_cons_self)

/-- Where the key tells the elements apart, the merge loses none. -/
theorem mem_firstSeen {seen : List κ} {l : List α} {x : α}
    (hinj : ∀ y ∈ l, ∀ z ∈ l, key y = key z → y = z) :
    x ∈ firstSeen key seen l ↔ x ∈ l ∧ key x ∉ seen := by
  constructor
  · exact mem_of_mem_firstSeen
  · induction l generalizing seen with
    | nil => exact fun h => absurd h.1 List.not_mem_nil
    | cons y l ih =>
        rintro ⟨hmem, hseen⟩
        have hrest : ∀ a ∈ l, ∀ b ∈ l, key a = key b → a = b := fun a ha b hb =>
          hinj a (List.mem_cons_of_mem _ ha) b (List.mem_cons_of_mem _ hb)
        rw [firstSeen]
        by_cases hxy : x = y
        · subst hxy
          rw [if_neg hseen]
          exact List.mem_cons_self
        · have hx : x ∈ l := (List.mem_cons.mp hmem).resolve_left hxy
          have hkey : key x ≠ key y := fun h =>
            hxy (hinj x (List.mem_cons_of_mem _ hx) y List.mem_cons_self h)
          split
          · exact ih hrest ⟨hx, hseen⟩
          · refine List.mem_cons_of_mem _ (ih hrest ⟨hx, ?_⟩)
            intro hin
            rcases List.mem_cons.mp hin with heq | hin
            · exact hkey heq
            · exact hseen hin

end FirstSeen

end Lib
