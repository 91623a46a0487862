import AkesoDlp.Lib.Act
import Mathlib.Data.List.Basic

/-!
# Units of work

A database session collects writes until a commit makes them durable. A statement
that fails rolls the open transaction back and raises; closing the session drops what
is still pending. Commands between two commits are described by what they stage: how
many statements they run and which writes they leave pending if none of these fails.
-/

namespace Lib

/-- `failAt` is the number of the statement that fails, if one does. -/
structure UnitOfWork (W : Type*) where
  pending : List W := []
  committed : List W := []
  statements : Nat := 0
  failAt : Option Nat := none

namespace UnitOfWork

variable {W ε : Type*}

/-- The session after one more statement. -/
def next (s : UnitOfWork W) : UnitOfWork W := { s with statements := s.statements + 1 }

def rollback (s : UnitOfWork W) : UnitOfWork W := { s with pending := [] }

def durable (s : UnitOfWork W) : UnitOfWork W :=
  { s with pending := [], committed := s.committed ++ s.pending }

/-- A statement, a flush for example; `e` is what it raises. -/
def statement (e : ε) : Act (UnitOfWork W) ε := fun s =>
  if s.failAt = some s.statements then (s.next.rollback, some e) else (s.next, none)

def add (writes : List W) : Act (UnitOfWork W) ε :=
  Act.update fun s => { s with pending := s.pending ++ writes }

def commit (e : ε) : Act (UnitOfWork W) ε := (statement e).seq (Act.update durable)

/-- None of the next `n` statements fails. -/
def Clear (s : UnitOfWork W) (n : Nat) : Prop :=
  ∀ i, s.statements ≤ i → i < s.statements + n → s.failAt ≠ some i

theorem clear_or (s : UnitOfWork W) (n : Nat) :
    s.Clear n ∨ ∃ i, s.failAt = some i ∧ s.statements ≤ i ∧ i < s.statements + n := by
  by_cases h : s.Clear n
  · exact .inl h
  · simp only [Clear, not_forall, ne_eq, not_not] at h
    obtain ⟨i, hle, hlt, hfail⟩ := h
    exact .inr ⟨i, hfail, hle, hlt⟩

/-- The session after `n` statements that left `writes` pending. -/
def after (s : UnitOfWork W) (n : Nat) (writes : List W) : UnitOfWork W :=
  { s with pending := s.pending ++ writes, statements := s.statements + n }

/-- `a` runs `n` statements and leaves `writes` pending; if one of the statements
fails it raises, and nothing is pending or newly committed. -/
structure Stages (a : Act (UnitOfWork W) ε) (n : Nat) (writes : List W) : Prop where
  runs : ∀ s : UnitOfWork W, s.Clear n → a s = (s.after n writes, none)
  fails : ∀ s : UnitOfWork W, ¬ s.Clear n →
    ∃ s' e, a s = (s', some e) ∧ s'.committed = s.committed

namespace Stages

variable {a b : Act (UnitOfWork W) ε} {m n : Nat} {first second : List W}

theorem skip : Stages (Act.skip : Act (UnitOfWork W) ε) 0 [] where
  runs s _ := by simp [Act.skip, after]
  fails s h := absurd (fun i hle hlt => by omega) h

theorem add (writes : List W) : Stages (UnitOfWork.add writes : Act (UnitOfWork W) ε) 0 writes where
  runs s _ := by simp [UnitOfWork.add, Act.update, after]
  fails s h := absurd (fun i hle hlt => by omega) h

theorem statement (e : ε) : Stages (UnitOfWork.statement e : Act (UnitOfWork W) ε) 1 [] where
  runs s h := by
    unfold UnitOfWork.statement
    rw [if_neg (h s.statements (Nat.le_refl _) (Nat.lt_succ_self _))]
    simp [next, after]
  fails s h := by
    obtain h' | ⟨i, hfail, hle, hlt⟩ := s.clear_or 1
    · exact absurd h' h
    · obtain rfl : i = s.statements := by omega
      refine ⟨s.next.rollback, e, ?_, rfl⟩
      unfold UnitOfWork.statement
      rw [if_pos hfail]

theorem clear_seq {s : UnitOfWork W} (writes : List W) :
    s.Clear (m + n) ↔ s.Clear m ∧ (s.after m writes).Clear n := by
  constructor
  · intro h
    exact ⟨fun i hle hlt => h i hle (by omega), fun i hle hlt => h i (by
      simp only [after] at hle; omega) (by simp only [after] at hlt; omega)⟩
  · rintro ⟨hm, hn⟩ i hle hlt
    by_cases hi : i < s.statements + m
    · exact hm i hle hi
    · exact hn i (by simp only [after]; omega) (by simp only [after]; omega)

theorem seq (ha : Stages a m first) (hb : Stages b n second) :
    Stages (a.seq b) (m + n) (first ++ second) where
  runs s h := by
    obtain ⟨hm, hn⟩ := (clear_seq first).mp h
    unfold Act.seq
    rw [ha.runs s hm]
    simp only [hb.runs _ hn]
    simp [after, Nat.add_assoc]
  fails s h := by
    unfold Act.seq
    by_cases hm : s.Clear m
    · obtain ⟨s', e, heq, hcommitted⟩ := hb.fails (s.after m first) fun hn =>
        h ((clear_seq first).mpr ⟨hm, hn⟩)
      rw [ha.runs s hm]
      exact ⟨s', e, heq, hcommitted⟩
    · obtain ⟨s', e, heq, hcommitted⟩ := ha.fails s hm
      rw [heq]
      exact ⟨s', e, rfl, hcommitted⟩

/-- With a commit at the end the writes become durable, all of them or none. -/
theorem commit (ha : Stages a n first) (e : ε) (s : UnitOfWork W) :
    (s.Clear (n + 1) →
      a.seq (UnitOfWork.commit e) s = ((s.after (n + 1) first).durable, none)) ∧
    (¬ s.Clear (n + 1) →
      ∃ s' e', a.seq (UnitOfWork.commit e) s = (s', some e') ∧ s'.committed = s.committed) := by
  have hstaged : Stages (a.seq (UnitOfWork.statement e)) (n + 1) (first ++ []) :=
    ha.seq (Stages.statement e)
  rw [List.append_nil] at hstaged
  rw [UnitOfWork.commit, ← Act.seq_assoc]
  constructor
  · intro h
    unfold Act.seq at hstaged ⊢
    rw [hstaged.runs s h]
    rfl
  · intro h
    obtain ⟨s', e', heq, hcommitted⟩ := hstaged.fails s h
    refine ⟨s', e', ?_, hcommitted⟩
    rw [Act.seq, heq]

end Stages

end UnitOfWork

end Lib
