import Mathlib.Logic.Basic

/-!
# Labelled transition systems

A system is a set of initial states and a partial step function: `step s a`
is the state after action `a`, or `none` where `a` is not enabled. Runs are
restricted by a *step condition* `ok s a`, a property of the state before a
step and of the action taken there, so one set of rules serves both the
unrestricted system (`ok` always true) and the runs of a system whose
environment or scheduler keeps to a discipline.
-/

namespace Lib

/-- A labelled transition system with partial steps. -/
structure TSys (S A : Type*) where
  init : S → Prop
  step : S → A → Option S

namespace TSys

variable {S A : Type*} {sys : TSys S A} {ok : S → A → Prop}

/-- The states of runs all of whose steps satisfy `ok`. -/
inductive ReachableBy (sys : TSys S A) (ok : S → A → Prop) : S → Prop
  | init {s} : sys.init s → ReachableBy sys ok s
  | step {s a s'} : ReachableBy sys ok s → ok s a → sys.step s a = some s' →
      ReachableBy sys ok s'

/-- The states of all runs. -/
def Reachable (sys : TSys S A) (s : S) : Prop :=
  sys.ReachableBy (fun _ _ => True) s

/-- `P` holds in every state of every run whose steps satisfy `ok`. -/
def InvariantBy (sys : TSys S A) (ok : S → A → Prop) (P : S → Prop) : Prop :=
  ∀ s, sys.ReachableBy ok s → P s

/-- `P` holds initially and every `ok` step preserves it. -/
structure InductiveBy (sys : TSys S A) (ok : S → A → Prop) (P : S → Prop) : Prop where
  init : ∀ s, sys.init s → P s
  step : ∀ s a s', P s → ok s a → sys.step s a = some s' → P s'

/-- The induction over a run. -/
theorem InductiveBy.invariant {P : S → Prop} (h : sys.InductiveBy ok P) :
    sys.InvariantBy ok P := by
  intro s hreach
  induction hreach with
  | init hs => exact h.init _ hs
  | step _ hok hstep ih => exact h.step _ _ _ ih hok hstep

/-- Run a list of actions. -/
def run (sys : TSys S A) : S → List A → Option S
  | s, [] => some s
  | s, a :: as => (sys.step s a).bind fun s' => sys.run s' as

/-- Every action of the list satisfies `ok` where it is taken. -/
def RunOk (sys : TSys S A) (ok : S → A → Prop) : S → List A → Prop
  | _, [] => True
  | s, a :: as => ok s a ∧ ∀ s', sys.step s a = some s' → sys.RunOk ok s' as

theorem runOk_of_forall {as : List A} (h : ∀ a ∈ as, ∀ s, ok s a) (s : S) :
    sys.RunOk ok s as := by
  induction as generalizing s with
  | nil => trivial
  | cons a as ih =>
      rw [List.forall_mem_cons] at h
      exact ⟨h.1 s, fun s' _ => ih h.2 s'⟩

/-- A test of each step of a run. -/
def runAll (sys : TSys S A) (test : S → A → Bool) : S → List A → Bool
  | _, [] => true
  | s, a :: as => test s a && ((sys.step s a).all fun s' => sys.runAll test s' as)

/-- The test may be read in states that satisfy an invariant of the steps that pass it. -/
theorem runOk_of_runAll_of_inv {test : S → A → Bool} {I : S → Prop}
    (hinv : ∀ s a s', I s → test s a = true → sys.step s a = some s' → I s')
    (htest : ∀ s a, I s → test s a = true → ok s a) {s : S} {as : List A} (hs : I s)
    (h : sys.runAll test s as = true) : sys.RunOk ok s as := by
  induction as generalizing s with
  | nil => trivial
  | cons a as ih =>
      rw [runAll, Bool.and_eq_true] at h
      refine ⟨htest s a hs h.1, fun s' hs' => ih (hinv s a s' hs h.1 hs') ?_⟩
      rw [hs'] at h
      exact h.2

theorem runOk_of_runAll {test : S → A → Bool} (htest : ∀ s a, test s a = true → ok s a) {s : S}
    {as : List A} (h : sys.runAll test s as = true) : sys.RunOk ok s as := by
  induction as generalizing s with
  | nil => trivial
  | cons a as ih =>
      rw [runAll, Bool.and_eq_true] at h
      refine ⟨htest s a h.1, fun s' hs' => ih ?_⟩
      rw [hs'] at h
      exact h.2

/-- Every state that a list of `ok` actions leads to is reachable by them. -/
theorem reachableBy_run {s s' : S} (hs : sys.ReachableBy ok s) (as : List A)
    (hok : sys.RunOk ok s as) (h : sys.run s as = some s') : sys.ReachableBy ok s' := by
  induction as generalizing s with
  | nil =>
      simp only [run, Option.some.injEq] at h
      exact h ▸ hs
  | cons a as ih =>
      obtain ⟨t, ht, hrest⟩ := Option.bind_eq_some_iff.mp h
      exact ih (ReachableBy.step hs hok.1 ht) (hok.2 t ht) hrest

/-- Where, from states that satisfy an invariant, each step keeps `P` exactly when
it satisfies `ok`, a run keeps `P` exactly when all its steps do. -/
theorem run_iff_runOk_of_inv {P I : S → Prop}
    (hinv : ∀ s a s', I s → sys.step s a = some s' → I s')
    (hstep : ∀ s a s', I s → sys.step s a = some s' → (P s' ↔ P s ∧ ok s a)) {s s' : S}
    {as : List A} (hs : I s) (h : sys.run s as = some s') : P s' ↔ P s ∧ sys.RunOk ok s as := by
  induction as generalizing s with
  | nil =>
      rw [run, Option.some.injEq] at h
      rw [h]
      exact (and_iff_left trivial).symm
  | cons a as ih =>
      obtain ⟨t, ht, hrest⟩ := Option.bind_eq_some_iff.mp h
      rw [ih (hinv s a t hs ht) hrest, hstep s a t hs ht, and_assoc, RunOk]
      refine and_congr_right fun _ => and_congr_right fun _ => ?_
      constructor
      · intro hok t' ht'
        rw [ht, Option.some.injEq] at ht'
        exact ht' ▸ hok
      · intro hok
        exact hok t ht

/-- The same where no invariant is needed. -/
theorem run_iff_runOk {P : S → Prop}
    (hstep : ∀ s a s', sys.step s a = some s' → (P s' ↔ P s ∧ ok s a)) {s s' : S} {as : List A}
    (h : sys.run s as = some s') : P s' ↔ P s ∧ sys.RunOk ok s as :=
  run_iff_runOk_of_inv (I := fun _ => True) (fun _ _ _ _ _ => trivial)
    (fun s a s' _ => hstep s a s') trivial h

/-- `P` holds wherever the run of the actions gets to. -/
def Always (sys : TSys S A) (P : S → Prop) (s : S) (as : List A) : Prop :=
  ∀ done, done <+: as → ∀ t, sys.run s done = some t → P t

/-- Where, from states that satisfy an invariant and `P`, a step leads to `P` exactly when it
satisfies `ok`, `P` holds all along a run exactly when all steps of the run do. The invariant
need only be kept by steps between states that satisfy `P`. -/
theorem always_iff_runOk {P I : S → Prop}
    (hinv : ∀ s a s', I s → P s → sys.step s a = some s' → P s' → I s')
    (hstep : ∀ s a s', I s → P s → sys.step s a = some s' → (P s' ↔ ok s a)) {s s' : S}
    {as : List A} (hs : I s) (hP : P s) (h : sys.run s as = some s') :
    sys.Always P s as ↔ sys.RunOk ok s as := by
  induction as generalizing s with
  | nil =>
      refine iff_of_true (fun done hdone t ht => ?_) trivial
      rw [List.prefix_nil.mp hdone, run, Option.some.injEq] at ht
      exact ht ▸ hP
  | cons a as ih =>
      obtain ⟨t, ht, hrest⟩ := Option.bind_eq_some_iff.mp h
      have hfirst : sys.Always P s (a :: as) ↔ P t ∧ sys.Always P t as := by
        constructor
        · intro hall
          refine ⟨hall [a] ⟨as, rfl⟩ t (by rw [run, ht]; rfl), fun done hdone u hu => ?_⟩
          exact hall (a :: done) ((List.prefix_cons_inj a).mpr hdone) u (by rw [run, ht]; exact hu)
        · rintro ⟨hPt, hall⟩ done hdone u hu
          cases done with
          | nil =>
              rw [run, Option.some.injEq] at hu
              exact hu ▸ hP
          | cons b done =>
              obtain ⟨rfl, hprefix⟩ := List.cons_prefix_cons.mp hdone
              rw [run, ht] at hu
              exact hall done hprefix u hu
      rw [hfirst, RunOk, ← hstep s a t hs hP ht]
      refine and_congr_right fun hPt => ?_
      rw [ih (hinv s a t hs hP ht hPt) hPt hrest]
      constructor
      · intro hok t' ht'
        rw [ht, Option.some.injEq] at ht'
        exact ht' ▸ hok
      · exact fun hok => hok t ht

/-- What every `ok` step keeps, a run of them keeps. -/
theorem run_keeps {P : S → Prop} (hstep : ∀ s a s', P s → ok s a → sys.step s a = some s' → P s')
    {s s' : S} (as : List A) (hs : P s) (hok : sys.RunOk ok s as) (h : sys.run s as = some s') :
    P s' := by
  induction as generalizing s with
  | nil =>
      rw [run, Option.some.injEq] at h
      exact h ▸ hs
  | cons a as ih =>
      obtain ⟨t, ht, hrest⟩ := Option.bind_eq_some_iff.mp h
      exact ih (hstep s a t hs hok.1 ht) (hok.2 t ht) hrest

theorem run_keeps_of_step {P : S → Prop}
    (hstep : ∀ s a s', P s → sys.step s a = some s' → P s') {s s' : S} (as : List A) (hs : P s)
    (h : sys.run s as = some s') : P s' :=
  run_keeps (fun s a s' hP (_ : True) => hstep s a s' hP) as hs
    (runOk_of_forall (fun _ _ _ => trivial) s) h

theorem reachable_run {s s' : S} (hs : sys.Reachable s) (as : List A)
    (h : sys.run s as = some s') : sys.Reachable s' :=
  reachableBy_run hs as (runOk_of_forall (fun _ _ _ => trivial) s) h

end TSys

end Lib
