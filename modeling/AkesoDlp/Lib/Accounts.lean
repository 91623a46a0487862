import Mathlib.Algebra.BigOperators.Group.Finset.Basic
import Mathlib.Tactic.Abel
import AkesoDlp.Lib.CallHistory

/-!
# What the calls of threads add up to

A measure of the data is the sum of the changes that the accesses of all calls have made. If
the calls of some procedures change it by what their results say, and no access of the others
changes it, it can be read off the results once none of the former is running.
-/

namespace Lib

namespace LockOrder

variable {M P S R Q G : Type} {Ans : Q → Type} [AddCommGroup G] (measure : S → G)

/-! ## The balance -/

/-- By how much some accesses have changed the measure. -/
def changes (trace : List (Event S Ans)) : G :=
  (trace.map fun e => measure e.after - measure e.before).sum

/-- The changes by the call that a thread is in, if it is in one. -/
def changesOf : Option (Call P S Ans) → G
  | none => 0
  | some call => changes measure call.trace

/-- The measure is what it was at the start with all changes by the calls that have finished
and by those that run. -/
def Balanced (h : History M P S R Ans) : Prop :=
  ∃ threads : Finset Nat, (∀ t, t ∉ threads → h.running t = none) ∧
    measure h.world.shared =
      measure h.start + (h.finished.map fun x => changes measure x.1.trace).sum +
        ∑ t ∈ threads, changesOf measure (h.running t)

variable {measure} {h h' : History M P S R Ans} {body : P → Prog M P S R Ans}

theorem changes_eq_zero {trace : List (Event S Ans)}
    (hsame : ∀ e ∈ trace, measure e.after = measure e.before) : changes measure trace = 0 := by
  refine List.sum_eq_zero fun x hx => ?_
  obtain ⟨e, he, rfl⟩ := List.mem_map.mp hx
  exact sub_eq_zero.mpr (hsame e he)

/-- A step of a thread may change the measure by what its call has changed more. -/
theorem Balanced.update (hinv : Balanced measure h) {t : Nat} {call : Option (Call P S Ans)}
    {world : World M P S R Ans} {finished : List (Call P S Ans × R)}
    (hsum : measure world.shared + (h.finished.map fun x => changes measure x.1.trace).sum +
        changesOf measure (h.running t) =
      measure h.world.shared + (finished.map fun x => changes measure x.1.trace).sum +
        changesOf measure call) :
    Balanced measure { h.setRunning t call with world := world, finished := finished } := by
  obtain ⟨threads, hidle, hbalance⟩ := hinv
  have hzero : t ∉ threads → changesOf measure (h.running t) = 0 := by
    intro ht
    rw [hidle t ht]
    rfl
  have hbefore : ∑ u ∈ threads, changesOf measure (h.running u) =
      changesOf measure (h.running t) +
        ∑ u ∈ (insert t threads).erase t, changesOf measure (h.running u) := by
    rw [← Finset.sum_insert_of_eq_zero_if_notMem hzero]
    exact (Finset.add_sum_erase _ _ (Finset.mem_insert_self t threads)).symm
  have hafter : ∑ u ∈ insert t threads, changesOf measure (Function.update h.running t call u) =
      changesOf measure call +
        ∑ u ∈ (insert t threads).erase t, changesOf measure (h.running u) := by
    rw [← Finset.add_sum_erase _ _ (Finset.mem_insert_self t threads), Function.update_self]
    refine congrArg _ (Finset.sum_congr rfl fun u hu => ?_)
    rw [Function.update_of_ne (Finset.ne_of_mem_erase hu)]
  refine ⟨insert t threads, fun u hu => ?_, ?_⟩
  · rw [Finset.mem_insert, not_or] at hu
    exact (Function.update_of_ne hu.1 _ _).trans (hidle u hu.2)
  · dsimp only [History.setRunning]
    rw [hafter]
    have hmeasure := eq_sub_of_add_eq (eq_sub_of_add_eq hsum)
    rw [hbalance, hbefore] at hmeasure
    rw [hmeasure]
    abel

theorem Balanced.advance {contract : P → Contract S R Ans} (hinv : Balanced measure h)
    (hcalls : KeepsContracts contract h) (hstep : Advances body h h') : Balanced measure h' := by
  cases hstep with
  | @start t p world hidle hshared hthreads =>
      refine hinv.update ?_
      rw [hshared, hcalls.idle t hidle]
      rfl
  | @finish t r world hthread hshared hthreads =>
      refine hinv.update ?_
      obtain ⟨call, hcall, -⟩ := hcalls.running t _ hthread
      rw [hshared, hcall]
      simp only [changesOf, Option.map_some, Option.toList_some, List.singleton_append,
        List.map_cons, List.sum_cons]
      abel
  | @access t q f k ks world a hthread hshared hthreads =>
      refine hinv.update ?_
      obtain ⟨call, hcall, -⟩ := hcalls.running t _ hthread
      rw [hshared, hcall]
      simp only [History.setRunning, changesOf, Option.map_some, changes, List.map_append,
        List.map_cons, List.map_nil, List.sum_append, List.sum_cons, List.sum_nil]
      abel
  | silent hthread hsilent hshared hthreads =>
      obtain ⟨threads, hnone, hbalance⟩ := hinv
      refine ⟨threads, hnone, ?_⟩
      dsimp only
      rw [hshared, hbalance]

theorem balanced_invariantBy [DecidableEq M] {init : S → Prop} :
    (histories body init).InvariantBy (fun _ _ => True) (Balanced measure) := by
  have hinv : (histories body init).InvariantBy (fun _ _ => True) fun h =>
      KeepsContracts (fun _ => Contract.any) h ∧ Balanced measure h := by
    refine TSys.InductiveBy.invariant ⟨?_, fun _ _ _ hinv _ hstep => ?_⟩
    · rintro h ⟨s, -, rfl⟩
      refine ⟨keepsContracts_idle s, ∅, fun _ _ => rfl, ?_⟩
      rw [Finset.sum_empty, add_zero]
      exact (add_zero _).symm
    · have hadvances := advances_of_step hstep
      exact ⟨hinv.1.advance (fun p => ensures_any (body p)) hadvances,
        hinv.2.advance hinv.1 hadvances⟩
  exact fun h hreach => (hinv h hreach).2

/-! ## Results that tell the changes -/

variable (measure)

/-- With what has been changed before, the changes are what the result says. -/
def Contract.settles (due : R → G) (before : G) : Contract S R Ans where
  within _ := True
  post trace r := before + changes measure trace = due r

/-- No access changes the measure. -/
def Contract.still : Contract S R Ans where
  within e := measure e.after = measure e.before
  post _ _ := True

/-- The procedures that are counted settle, and the others do nothing. -/
def accounts (counted : P → Bool) (due : R → G) (p : P) : Contract S R Ans :=
  if counted p then .settles measure due 0 else .still measure

variable {measure}

theorem settles_after (due : R → G) (before : G) (trace : List (Event S Ans)) :
    (Contract.settles measure due before).after trace =
      .settles measure due (before + changes measure trace) := by
  simp only [Contract.after, Contract.settles, changes, List.map_append, List.sum_append,
    add_assoc]

theorem settles_after_access (due : R → G) (before : G) (e : Event S Ans) :
    (Contract.settles measure due before).after [e] =
      .settles measure due (before + (measure e.after - measure e.before)) := by
  rw [settles_after, changes, List.map_singleton, List.sum_singleton]

theorem settles_after_of_still (due : R → G) (before : G) {trace : List (Event S Ans)}
    (hstill : ∀ e ∈ trace, (Contract.still measure : Contract S R Ans).within e) :
    (Contract.settles measure due before).after trace = .settles measure due before := by
  rw [settles_after, changes_eq_zero hstill, add_zero]

/-- A measure of the data is what the results add up to, while no call is counted that has not
returned. -/
theorem measure_eq_of_settled [DecidableEq M] {init : S → Prop} {counted : P → Bool} {due : R → G}
    (hbody : ∀ p, Ensures (accounts measure counted due) (body p) (accounts measure counted due p))
    (hreach : (histories body init).Reachable h)
    (hidle : ∀ t call, h.running t = some call → counted call.proc = false) :
    measure h.world.shared = measure h.start +
      ((h.finished.filter fun x => counted x.1.proc).map fun x => due x.2).sum := by
  have hkeeps := keepsContracts_invariantBy hbody h hreach
  have hbalanced : Balanced measure h := balanced_invariantBy h hreach
  obtain ⟨threads, -, hbalance⟩ := hbalanced
  have hrunning : ∑ t ∈ threads, changesOf measure (h.running t) = 0 := by
    refine Finset.sum_eq_zero fun t _ => ?_
    cases hcall : h.running t with
    | none => rfl
    | some call =>
        have hwithin := hkeeps.within hcall
        rw [accounts, hidle t call hcall, if_neg Bool.false_ne_true] at hwithin
        exact changes_eq_zero hwithin
  have hfinished : ∀ x ∈ h.finished,
      changes measure x.1.trace = if counted x.1.proc then due x.2 else 0 := by
    intro x hx
    obtain ⟨hwithin, hpost⟩ := hkeeps.finished x hx
    unfold accounts at hwithin hpost
    split at hwithin
    · next hcounted =>
        rw [if_pos hcounted] at hpost ⊢
        exact (zero_add _).symm.trans hpost
    · next hcounted =>
        rw [if_neg hcounted]
        exact changes_eq_zero hwithin
  rw [hbalance, hrunning, add_zero, List.map_congr_left hfinished, List.sum_map_ite,
    List.map_const', List.sum_replicate, nsmul_zero, add_zero]
  simp only [Bool.decide_eq_true]

end LockOrder

end Lib
