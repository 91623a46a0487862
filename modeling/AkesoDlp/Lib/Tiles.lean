import Mathlib.Data.List.Chain
import Mathlib.Data.List.Pairwise
import Mathlib.Order.Lattice

/-!
# Half-open ranges, one after the other

Where every range begins at the end of the one before it, the ranges do not overlap and
leave no gap.
-/

namespace Lib

variable {ι α : Type*} [LinearOrder α] (start finish : ι → α)

structure Tiles (l : List ι) : Prop where
  consecutive : l.IsChain fun p q => finish p = start q
  nonempty : ∀ p ∈ l, start p < finish p

variable {start finish} {l : List ι}

theorem Tiles.tail {p : ι} (h : Tiles start finish (p :: l)) : Tiles start finish l where
  consecutive := h.consecutive.tail
  nonempty := (List.forall_mem_cons.mp h.nonempty).2

/-- What comes later begins later. -/
theorem Tiles.finish_le {p : ι} (h : Tiles start finish (p :: l)) :
    ∀ q ∈ l, finish p ≤ start q := by
  induction l generalizing p with
  | nil => exact List.forall_mem_nil _
  | cons next l ih =>
      have hnext : finish p = start next := (List.isChain_cons_cons.mp h.consecutive).1
      intro q hq
      rcases List.mem_cons.mp hq with rfl | hq
      · exact hnext.le
      · have hlt := h.tail.nonempty next List.mem_cons_self
        exact (hnext.trans_lt hlt).le.trans (ih h.tail q hq)

/-- The ranges do not overlap. -/
theorem Tiles.pairwise (h : Tiles start finish l) :
    l.Pairwise fun p q => finish p ≤ start q := by
  induction l with
  | nil => exact List.Pairwise.nil
  | cons p l ih => exact List.Pairwise.cons h.finish_le (ih h.tail)

/-- What lies between the first beginning and the last end is in exactly one of the ranges. -/
theorem Tiles.existsUnique {first last : ι} (h : Tiles start finish l)
    (hfirst : l.head? = some first) (hlast : l.getLast? = some last) {x : α}
    (hlow : start first ≤ x) (hhigh : x < finish last) :
    ∃! p, p ∈ l ∧ start p ≤ x ∧ x < finish p := by
  induction l generalizing first with
  | nil => cases hfirst
  | cons p l ih =>
      obtain rfl : p = first := Option.some.inj hfirst
      rcases lt_or_ge x (finish p) with hx | hx
      · refine ⟨p, ⟨List.mem_cons_self, hlow, hx⟩, ?_⟩
        rintro q ⟨hq, hstart, -⟩
        rcases List.mem_cons.mp hq with rfl | hq
        · rfl
        · exact absurd (hx.trans_le ((h.finish_le q hq).trans hstart)) (lt_irrefl x)
      · cases l with
        | nil =>
            obtain rfl : p = last := Option.some.inj hlast
            exact absurd (hhigh.trans_le hx) (lt_irrefl x)
        | cons next l =>
            have hnext : finish p = start next := (List.isChain_cons_cons.mp h.consecutive).1
            have hlast' : (next :: l).getLast? = some last := by
              rwa [List.getLast?_cons_cons] at hlast
            obtain ⟨q, ⟨hq, hin⟩, hunique⟩ := ih h.tail rfl hlast' (hnext ▸ hx)
            refine ⟨q, ⟨List.mem_cons_of_mem _ hq, hin⟩, ?_⟩
            rintro r ⟨hr, hrin⟩
            rcases List.mem_cons.mp hr with rfl | hr
            · exact absurd (hrin.2.trans_le hx) (lt_irrefl x)
            · exact hunique r ⟨hr, hrin⟩

end Lib
