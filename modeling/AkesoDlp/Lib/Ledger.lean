import Mathlib.Data.List.Basic

/-!
# Ledgers

A log to which a run appends. Each entry was justified by the entries before it at the time it
was written, and what comes later does not change that.
-/

namespace Lib

variable {α : Type*}

/-- Each entry satisfies `P` together with the entries before it. -/
def Justified (P : List α → α → Prop) (log : List α) : Prop :=
  ∀ before e later, log = before ++ e :: later → P before e

variable {P : List α → α → Prop} {log : List α}

theorem justified_nil : Justified P [] := by
  intro before e later h
  exact absurd h (List.append_ne_nil_of_right_ne_nil _ (List.cons_ne_nil _ _)).symm

theorem Justified.concat (h : Justified P log) {e : α} (he : P log e) :
    Justified P (log ++ [e]) := by
  intro before e' later hsplit
  rcases List.eq_nil_or_concat later with rfl | ⟨later, last, rfl⟩
  · obtain ⟨rfl, hlast⟩ := List.append_inj' hsplit rfl
    exact List.singleton_inj.mp hlast ▸ he
  · rw [List.concat_eq_append, ← List.cons_append, ← List.append_assoc] at hsplit
    exact h before e' later (List.append_inj' hsplit rfl).1

theorem justified_singleton {e : α} (he : P [] e) : Justified P [e] :=
  justified_nil.concat he

theorem justified_of_forall (h : ∀ e ∈ log, ∀ before, P before e) : Justified P log := by
  intro before e later hsplit
  exact h e (by rw [hsplit]; exact List.mem_append_right _ List.mem_cons_self) before

/-- Several entries at once. -/
theorem Justified.append {entries : List α} (h : Justified P log)
    (hentries : Justified (fun before e => P (log ++ before) e) entries) :
    Justified P (log ++ entries) := by
  induction entries generalizing log with
  | nil => rwa [List.append_nil]
  | cons e entries ih =>
      have he : P log e := by
        have hfirst : P (log ++ []) e := hentries [] e entries rfl
        rwa [List.append_nil] at hfirst
      rw [List.append_cons]
      refine ih (h.concat he) fun before e' later hsplit => ?_
      have hrest : P (log ++ e :: before) e' :=
        hentries (e :: before) e' later (by rw [hsplit]; rfl)
      rwa [List.append_cons] at hrest

end Lib
