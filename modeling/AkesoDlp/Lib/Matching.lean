import Mathlib.Data.List.Basic

/-!
# Matching in a log

In a log of events some open and some close. The log is matched when every
closing event has an opening one before it and no two share one. What is to be
kept along a run is whether an opening event is still free.
-/

namespace Lib

variable {ε : Type*} {opens closes : ε → Prop} {log : List ε} {e : ε}

/-- The event at position `i` satisfies `p`. -/
def At (log : List ε) (i : Nat) (p : ε → Prop) : Prop :=
  ∃ e, log[i]? = some e ∧ p e

theorem at_lt {i : Nat} {p : ε → Prop} (h : At log i p) : i < log.length := by
  obtain ⟨e, he, -⟩ := h
  exact (List.getElem?_eq_some_iff.mp he).1

theorem at_append_last {p : ε → Prop} (h : p e) : At (log ++ [e]) log.length p :=
  ⟨e, by simp, h⟩

theorem at_append {i : Nat} {p : ε → Prop} (h : At log i p) : At (log ++ [e]) i p := by
  obtain ⟨x, hx, hp⟩ := h
  exact ⟨x, by rw [List.getElem?_append_left (at_lt ⟨x, hx, hp⟩), hx], hp⟩

theorem at_append_iff {i : Nat} {p : ε → Prop} :
    At (log ++ [e]) i p ↔ At log i p ∨ i = log.length ∧ p e := by
  constructor
  · rintro ⟨x, hx, hp⟩
    rcases Nat.lt_trichotomy i log.length with hlt | heq | hgt
    · rw [List.getElem?_append_left hlt] at hx
      exact .inl ⟨x, hx, hp⟩
    · subst heq
      rw [List.getElem?_concat_length, Option.some.injEq] at hx
      exact .inr ⟨rfl, hx ▸ hp⟩
    · rw [List.getElem?_eq_none (by simp; omega)] at hx
      cases hx
  · rintro (h | ⟨rfl, hp⟩)
    · exact at_append h
    · exact at_append_last hp

/-- `f` gives every closing event an opening one of its own before it. -/
structure MatchedBy (opens closes : ε → Prop) (log : List ε) (f : Nat → Nat) : Prop where
  earlier : ∀ i, At log i closes → f i < i ∧ At log (f i) opens
  distinct : ∀ i j, At log i closes → At log j closes → f i = f j → i = j

def Matched (opens closes : ε → Prop) (log : List ε) : Prop :=
  ∃ f, MatchedBy opens closes log f

/-- The log is matched with an opening event that is free. -/
def HasFree (opens closes : ε → Prop) (log : List ε) : Prop :=
  ∃ f, MatchedBy opens closes log f ∧
    ∃ j, At log j opens ∧ ∀ i, At log i closes → f i ≠ j

theorem matched_nil : Matched opens closes ([] : List ε) :=
  ⟨id, fun i h => absurd (at_lt h) (Nat.not_lt_zero i),
    fun i _ h => absurd (at_lt h) (Nat.not_lt_zero i)⟩

theorem HasFree.matched (h : HasFree opens closes log) : Matched opens closes log := by
  obtain ⟨f, hf, -⟩ := h
  exact ⟨f, hf⟩

/-- An event that does not close leaves the matching as it is. -/
theorem MatchedBy.append {f : Nat → Nat} (h : MatchedBy opens closes log f) (he : ¬ closes e) :
    MatchedBy opens closes (log ++ [e]) f := by
  have hold : ∀ i, At (log ++ [e]) i closes → At log i closes := fun i hi =>
    (at_append_iff.mp hi).resolve_right fun hlast => he hlast.2
  constructor
  case earlier =>
    intro i hi
    obtain ⟨hlt, hopen⟩ := h.earlier i (hold i hi)
    exact ⟨hlt, at_append hopen⟩
  case distinct =>
    intro i j hi hj
    exact h.distinct i j (hold i hi) (hold j hj)

theorem Matched.append (h : Matched opens closes log) (he : ¬ closes e) :
    Matched opens closes (log ++ [e]) := by
  obtain ⟨f, hf⟩ := h
  exact ⟨f, hf.append he⟩

theorem HasFree.append (h : HasFree opens closes log) (he : ¬ closes e) :
    HasFree opens closes (log ++ [e]) := by
  obtain ⟨f, hf, j, hj, hfree⟩ := h
  refine ⟨f, hf.append he, j, at_append hj, fun i hi => ?_⟩
  exact hfree i ((at_append_iff.mp hi).resolve_right fun hlast => he hlast.2)

/-- A new opening event is free. -/
theorem Matched.append_opens (h : Matched opens closes log) (ho : opens e) (he : ¬ closes e) :
    HasFree opens closes (log ++ [e]) := by
  obtain ⟨f, hf⟩ := h
  refine ⟨f, hf.append he, log.length, at_append_last ho, fun i hi => ?_⟩
  have hi := (at_append_iff.mp hi).resolve_right fun hlast => he hlast.2
  have hlt := (hf.earlier i hi).1
  have hlen := at_lt hi
  omega

/-- A new closing event takes the free opening one. -/
theorem HasFree.append_closes (h : HasFree opens closes log) :
    Matched opens closes (log ++ [e]) := by
  obtain ⟨f, hf, j, hj, hfree⟩ := h
  have hat : ∀ i, At (log ++ [e]) i closes → i ≠ log.length → At log i closes := fun i hi hne =>
    (at_append_iff.mp hi).resolve_right fun hlast => hne hlast.1
  refine ⟨fun i => if i = log.length then j else f i, ?_, ?_⟩
  · intro i hi
    by_cases hlast : i = log.length
    · rw [if_pos hlast]
      exact ⟨hlast ▸ at_lt hj, at_append hj⟩
    · rw [if_neg hlast]
      obtain ⟨hlt, hopen⟩ := hf.earlier i (hat i hi hlast)
      exact ⟨hlt, at_append hopen⟩
  · intro i k hi hk heq
    by_cases hil : i = log.length <;> by_cases hkl : k = log.length
    · exact hil.trans hkl.symm
    · rw [if_pos hil, if_neg hkl] at heq
      exact absurd heq.symm (hfree k (hat k hk hkl))
    · rw [if_neg hil, if_pos hkl] at heq
      exact absurd heq (hfree i (hat i hi hil))
    · rw [if_neg hil, if_neg hkl] at heq
      exact hf.distinct i k (hat i hi hil) (hat k hk hkl) heq

end Lib
