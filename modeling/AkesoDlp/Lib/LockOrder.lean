import Mathlib.Logic.Function.Basic
import Mathlib.Logic.Relation
import AkesoDlp.Lib.TSys

/-!
# Threads, mutexes and the order of the mutexes

Threads run programs over shared data and mutexes that are not recursive. A program
locks, unlocks, accesses the data (which may bring in an answer from outside), calls
a procedure or returns. Procedures may call each other without end, so a thread has a
stack.

`Checked` is a check of one procedure by itself: every lock it takes is above all
locks it holds, and it returns with those it was entered with. If all procedures pass,
no run gets to a circular wait. The check may leave out the branches that follow an
access which the runs in question never make.
-/

namespace Lib

namespace LockOrder

/-- A program: `M` the mutexes, `P` the procedures, `S` the shared data, `R` what
procedures return. An access of kind `q` has an answer in `Ans q`. -/
inductive Prog (M P S R : Type) {Q : Type} (Ans : Q → Type)
  | ret (r : R)
  | lock (m : M) (k : Prog M P S R Ans)
  | unlock (m : M) (k : Prog M P S R Ans)
  | access (q : Q) (f : S → Ans q → S) (k : S → Ans q → Prog M P S R Ans)
  | call (p : P) (k : R → Prog M P S R Ans)

variable {M P S R Q : Type} {Ans : Q → Type}

/-- An access under a lock of its own. -/
def Prog.guarded (m : M) (q : Q) (f : S → Ans q → S) (k : S → Ans q → Prog M P S R Ans) :
    Prog M P S R Ans :=
  .lock m (.access q f fun s a => .unlock m (k s a))

/-- The run of one thread that never has to wait for a mutex: the data after it, what the
program returns, and the accesses it makes. `call` runs a procedure; `none` is a call that
does not return. -/
def Prog.alone (answer : ∀ q, Ans q) (call : P → S → Option (S × R × List Q)) :
    Prog M P S R Ans → S → Option (S × R × List Q)
  | .ret r, s => some (s, r, [])
  | .lock _ k, s => k.alone answer call s
  | .unlock _ k, s => k.alone answer call s
  | .access q f k, s =>
      ((k s (answer q)).alone answer call (f s (answer q))).map fun (s', r, qs) => (s', r, q :: qs)
  | .call p k, s =>
      (call p s).bind fun (s', r, qs) =>
        ((k r).alone answer call s').map fun (s'', r', qs') => (s'', r', qs ++ qs')

/-- What a thread runs, and where the calls it is in return to. -/
structure Thread (M P S R : Type) {Q : Type} (Ans : Q → Type) where
  prog : Prog M P S R Ans
  stack : List (R → Prog M P S R Ans) := []

structure World (M P S R : Type) {Q : Type} (Ans : Q → Type) where
  shared : S
  owner : M → Option Nat
  threads : Nat → Option (Thread M P S R Ans)

inductive Move (P : Type) {Q : Type} (Ans : Q → Type)
  /-- An idle thread calls a procedure. -/
  | start (t : Nat) (p : P)
  | run (t : Nat) (answer : ∀ q, Ans q)

namespace World

variable (w : World M P S R Ans)

/-- No thread runs and no mutex is held. -/
def idle (s : S) : World M P S R Ans where
  shared := s
  owner _ := none
  threads _ := none

def setThread (t : Nat) (th : Option (Thread M P S R Ans)) : World M P S R Ans :=
  { w with threads := Function.update w.threads t th }

def setOwner [DecidableEq M] (m : M) (o : Option Nat) : World M P S R Ans :=
  { w with owner := Function.update w.owner m o }

/-- One step of a thread; `none` when it has to wait for a mutex. -/
def runThread [DecidableEq M] (body : P → Prog M P S R Ans) (t : Nat) (answer : ∀ q, Ans q)
    (stack : List (R → Prog M P S R Ans)) : Prog M P S R Ans → Option (World M P S R Ans)
  | .ret r =>
      match stack with
      | [] => some (w.setThread t none)
      | k :: ks => some (w.setThread t (some ⟨k r, ks⟩))
  | .lock m k =>
      if w.owner m = none then some ((w.setOwner m (some t)).setThread t (some ⟨k, stack⟩))
      else none
  | .unlock m k =>
      if w.owner m = some t then some ((w.setOwner m none).setThread t (some ⟨k, stack⟩))
      else none
  | .access q f k =>
      some (({ w with shared := f w.shared (answer q) } : World M P S R Ans).setThread t
        (some ⟨k w.shared (answer q), stack⟩))
  | .call p k => some (w.setThread t (some ⟨body p, k :: stack⟩))

def step [DecidableEq M] (body : P → Prog M P S R Ans) : Move P Ans → Option (World M P S R Ans)
  | .start t p =>
      match w.threads t with
      | none => some (w.setThread t (some ⟨body p, []⟩))
      | some _ => none
  | .run t answer => (w.threads t).bind fun th => w.runThread body t answer th.stack th.prog

/-- The mutex that a thread is about to lock. -/
def wants (t : Nat) : Option M :=
  match w.threads t with
  | some ⟨.lock m _, _⟩ => some m
  | _ => none

/-- The kind of access that a thread is about to make. -/
def nextAccess (t : Nat) : Option Q :=
  match w.threads t with
  | some ⟨.access q _ _, _⟩ => some q
  | _ => none

/-- `t` waits for a mutex that `u` holds. -/
def WaitsFor (t u : Nat) : Prop := ∃ m, w.wants t = some m ∧ w.owner m = some u

def CircularWait : Prop := ∃ t, Relation.TransGen w.WaitsFor t t

/-- Whoever holds a mutex and is about to lock another one goes up in the order. -/
def Ordered (rank : M → Nat) : Prop :=
  ∀ t m h, w.wants t = some m → w.owner h = some t → rank h < rank m

end World

/-- The system of all threads that call the procedures. -/
def system [DecidableEq M] (body : P → Prog M P S R Ans) (init : S → Prop) :
    TSys (World M P S R Ans) (Move P Ans) where
  init w := ∃ s, init s ∧ w = World.idle s
  step w := w.step body

/-- The accesses of the run are all in `ok`. -/
def AccessOk (ok : ∀ q, S → Ans q → Prop) (w : World M P S R Ans) : Move P Ans → Prop
  | .start _ _ => True
  | .run t answer => ∀ q f k stack, w.threads t = some ⟨.access q f k, stack⟩ →
      ok q w.shared (answer q)

theorem accessOk_of_nextAccess {ok : ∀ q, S → Ans q → Prop} {w : World M P S R Ans} {t : Nat}
    {answer : ∀ q, Ans q} (h : ∀ q, w.nextAccess t = some q → ok q w.shared (answer q)) :
    AccessOk ok w (.run t answer) := by
  intro q f k stack hthread
  exact h q (by simp [World.nextAccess, hthread])

/-! ## The check of a procedure -/

section check

variable (rank : M → Nat) (ok : ∀ q, S → Ans q → Prop) (callable : P → List M → Prop)

/-- With `held` locked, the program takes locks in the order, calls procedures with
locks that they may be called with, and returns with `entry` locked. -/
def Checked (entry : List M) : List M → Prog M P S R Ans → Prop
  | held, .ret _ => held = entry
  | held, .lock m k => (∀ h ∈ held, rank h < rank m) ∧ Checked entry (m :: held) k
  | held, .unlock m k => ∃ rest, held = m :: rest ∧ Checked entry rest k
  | held, .access q _ k => ∀ s a, ok q s a → Checked entry held (k s a)
  | held, .call p k => callable p held ∧ ∀ r, Checked entry held (k r)

/-- The program that a thread runs, and all that its calls return to. -/
def CheckedStack : List (R → Prog M P S R Ans) → List M → Prog M P S R Ans → Prop
  | [], held, p => Checked rank ok callable [] held p
  | k :: ks, held, p =>
      ∃ entry, Checked rank ok callable entry held p ∧ ∀ r, CheckedStack ks entry (k r)

end check

theorem checked_guarded {rank : M → Nat} {ok : ∀ q, S → Ans q → Prop}
    {callable : P → List M → Prop} {entry held : List M} {m : M} {q : Q} {f : S → Ans q → S}
    {k : S → Ans q → Prog M P S R Ans} (hup : ∀ h ∈ held, rank h < rank m)
    (hk : ∀ s a, ok q s a → Checked rank ok callable entry held (k s a)) :
    Checked rank ok callable entry held (.guarded m q f k) :=
  ⟨hup, fun s a hok => ⟨held, rfl, hk s a hok⟩⟩

/-! ## The invariant -/

section invariant

variable (rank : M → Nat) (ok : ∀ q, S → Ans q → Prop) (callable : P → List M → Prop)

/-- Thread `t` holds the mutexes of the list, the last one that it locked first, and
its program is checked with them. -/
structure Holds (w : World M P S R Ans) (t : Nat) (held : List M) : Prop where
  sorted : held.Pairwise fun a b => rank b < rank a
  owns : ∀ m, w.owner m = some t ↔ m ∈ held
  idle : w.threads t = none → held = []
  checked : ∀ th, w.threads t = some th → CheckedStack rank ok callable th.stack held th.prog

def Disciplined (w : World M P S R Ans) : Prop :=
  ∀ t, ∃ held, Holds rank ok callable w t held

end invariant

section preservation

variable {rank : M → Nat} {ok : ∀ q, S → Ans q → Prop} {callable : P → List M → Prop}
  {w w' : World M P S R Ans} {t u : Nat} {held : List M}

/-- What another thread does is no concern of a thread's. -/
theorem Holds.frame (h : Holds rank ok callable w u held) (hthread : w'.threads u = w.threads u)
    (howner : ∀ m, w'.owner m = some u ↔ w.owner m = some u) :
    Holds rank ok callable w' u held where
  sorted := h.sorted
  owns m := (howner m).trans (h.owns m)
  idle hnone := h.idle (hthread ▸ hnone)
  checked th hth := h.checked th (hthread ▸ hth)

/-- A step that gives thread `t` a checked program and changes no other thread. -/
theorem Disciplined.update (h : Disciplined rank ok callable w)
    (hothers : ∀ u, u ≠ t → w'.threads u = w.threads u)
    (howner : ∀ u, u ≠ t → ∀ m, w'.owner m = some u ↔ w.owner m = some u)
    (hself : Holds rank ok callable w' t held) : Disciplined rank ok callable w' := by
  intro u
  by_cases hu : u = t
  · exact ⟨held, hu ▸ hself⟩
  · obtain ⟨held', hheld⟩ := h u
    exact ⟨held', hheld.frame (hothers u hu) (howner u hu)⟩

theorem holds_setThread {th : Thread M P S R Ans}
    (hsorted : held.Pairwise fun a b => rank b < rank a)
    (howns : ∀ m, w.owner m = some t ↔ m ∈ held)
    (hchecked : CheckedStack rank ok callable th.stack held th.prog) :
    Holds rank ok callable (w.setThread t (some th)) t held where
  sorted := hsorted
  owns := howns
  idle hnone := by simp [World.setThread] at hnone
  checked th' hth' := by
    simp only [World.setThread, Function.update_self, Option.some.injEq] at hth'
    exact hth' ▸ hchecked

theorem setThread_threads_of_ne (w : World M P S R Ans) {th : Option (Thread M P S R Ans)}
    (hu : u ≠ t) : (w.setThread t th).threads u = w.threads u :=
  Function.update_of_ne hu _ _

/-- The rest of the stack is checked whatever the procedure returns. -/
theorem checkedStack_cons {p : Prog M P S R Ans} {ks : List (R → Prog M P S R Ans)}
    (h : CheckedStack rank ok callable ks held p) :
    ∃ entry, Checked rank ok callable entry held p ∧
      ∀ {held' p'}, Checked rank ok callable entry held' p' →
        CheckedStack rank ok callable ks held' p' := by
  cases ks with
  | nil => exact ⟨[], h, id⟩
  | cons k ks =>
      obtain ⟨entry, hp, hk⟩ := h
      exact ⟨entry, hp, fun hp' => ⟨entry, hp', hk⟩⟩

theorem disciplined_idle (s : S) :
    Disciplined rank ok callable (World.idle s : World M P S R Ans) := by
  intro t
  refine ⟨[], List.Pairwise.nil, fun m => ?_, fun _ => rfl, fun th hth => ?_⟩
  · simp [World.idle]
  · simp [World.idle] at hth

variable [DecidableEq M] {body : P → Prog M P S R Ans}

theorem Disciplined.runThread (h : Disciplined rank ok callable w)
    (hbody : ∀ p held, callable p held → Checked rank ok callable held held (body p))
    {th : Thread M P S R Ans} (hth : w.threads t = some th) {answer : ∀ q, Ans q}
    (hok : ∀ q f k stack, w.threads t = some ⟨.access q f k, stack⟩ → ok q w.shared (answer q))
    (hstep : w.runThread body t answer th.stack th.prog = some w') :
    Disciplined rank ok callable w' := by
  obtain ⟨held, hheld⟩ := h t
  obtain ⟨prog, stack⟩ := th
  have hchecked := hheld.checked _ hth
  cases prog with
  | ret r =>
      cases stack with
      | nil =>
          cases hstep
          have hnil : held = [] := hchecked
          subst hnil
          refine h.update (fun u hu => setThread_threads_of_ne w hu) (fun _ _ _ => Iff.rfl)
            ⟨hheld.sorted, hheld.owns, fun _ => rfl, fun th' hth' => ?_⟩
          simp [World.setThread] at hth'
      | cons k ks =>
          cases hstep
          obtain ⟨entry, hret, hk⟩ := hchecked
          have hentry : held = entry := hret
          subst hentry
          exact h.update (fun u hu => setThread_threads_of_ne w hu) (fun _ _ _ => Iff.rfl)
            (holds_setThread hheld.sorted hheld.owns (hk r))
  | lock m k =>
      obtain ⟨entry, ⟨hup, hk⟩, hstack⟩ := checkedStack_cons hchecked
      simp only [World.runThread, Option.ite_none_right_eq_some, Option.some.injEq] at hstep
      obtain ⟨hfree, rfl⟩ := hstep
      refine h.update (fun u hu => setThread_threads_of_ne _ hu) (fun u hu m' => ?_)
        (holds_setThread (List.pairwise_cons.mpr ⟨hup, hheld.sorted⟩) (fun m' => ?_) (hstack hk))
      · by_cases hm : m' = m
        · simp [World.setThread, World.setOwner, hm, hfree, Ne.symm hu]
        · simp [World.setThread, World.setOwner, hm]
      · by_cases hm : m' = m
        · simp [World.setOwner, hm]
        · simp [World.setOwner, hm, hheld.owns m']
  | unlock m k =>
      obtain ⟨entry, ⟨rest, rfl, hk⟩, hstack⟩ := checkedStack_cons hchecked
      simp only [World.runThread, Option.ite_none_right_eq_some, Option.some.injEq] at hstep
      obtain ⟨hmine, rfl⟩ := hstep
      obtain ⟨hup, hrest⟩ := List.pairwise_cons.mp hheld.sorted
      refine h.update (fun u hu => setThread_threads_of_ne _ hu) (fun u hu m' => ?_)
        (holds_setThread hrest (fun m' => ?_) (hstack hk))
      · by_cases hm : m' = m
        · simp [World.setThread, World.setOwner, hm, hmine, Ne.symm hu]
        · simp [World.setThread, World.setOwner, hm]
      · by_cases hm : m' = m
        · have hnot : m ∉ rest := fun hmem => Nat.lt_irrefl _ (hup m hmem)
          simp [World.setOwner, hm, hnot]
        · simp [World.setOwner, hm, hheld.owns m']
  | access q f k =>
      obtain ⟨entry, hk, hstack⟩ := checkedStack_cons hchecked
      cases hstep
      exact h.update (fun u hu => setThread_threads_of_ne _ hu) (fun _ _ _ => Iff.rfl)
        (holds_setThread hheld.sorted hheld.owns
          (hstack (hk _ _ (hok q f k stack hth))))
  | call p k =>
      obtain ⟨entry, ⟨hcall, hk⟩, hstack⟩ := checkedStack_cons hchecked
      cases hstep
      refine h.update (fun u hu => setThread_threads_of_ne _ hu) (fun _ _ _ => Iff.rfl)
        (holds_setThread hheld.sorted hheld.owns ?_)
      exact ⟨held, hbody p held hcall, fun r => hstack (hk r)⟩

theorem Disciplined.step (h : Disciplined rank ok callable w)
    (hbody : ∀ p held, callable p held → Checked rank ok callable held held (body p))
    (hentry : ∀ p, callable p []) {move : Move P Ans} (hok : AccessOk ok w move)
    (hstep : w.step body move = some w') : Disciplined rank ok callable w' := by
  cases move with
  | start t p =>
      simp only [World.step] at hstep
      split at hstep
      · next hnone =>
          cases hstep
          obtain ⟨held, hheld⟩ := h t
          have hnil := hheld.idle hnone
          subst hnil
          exact h.update (fun u hu => setThread_threads_of_ne w hu) (fun _ _ _ => Iff.rfl)
            (holds_setThread hheld.sorted hheld.owns (hbody p [] (hentry p)))
      · cases hstep
  | run t answer =>
      obtain ⟨th, hth, hrun⟩ := Option.bind_eq_some_iff.mp hstep
      exact h.runThread hbody hth hok hrun

end preservation

/-! ## No circular wait -/

section order

variable {rank : M → Nat} {ok : ∀ q, S → Ans q → Prop} {callable : P → List M → Prop}
  {w : World M P S R Ans}

theorem wants_cases {t : Nat} {m : M} (h : w.wants t = some m) :
    ∃ k stack, w.threads t = some ⟨.lock m k, stack⟩ := by
  unfold World.wants at h
  split at h
  · next m' k stack hthread =>
      cases h
      exact ⟨k, stack, hthread⟩
  · cases h

theorem Disciplined.ordered (h : Disciplined rank ok callable w) : w.Ordered rank := by
  intro t m m' hwants howner
  obtain ⟨k, stack, hthread⟩ := wants_cases hwants
  obtain ⟨held, hheld⟩ := h t
  obtain ⟨entry, ⟨hup, -⟩, -⟩ := checkedStack_cons (hheld.checked _ hthread)
  exact hup m' ((hheld.owns m').mp howner)

/-- Along a chain of waiting threads the mutexes go up. -/
theorem World.Ordered.chain (h : w.Ordered rank) {t u : Nat}
    (hchain : Relation.TransGen w.WaitsFor t u) {m : M} (hwants : w.wants t = some m) :
    ∃ m', w.owner m' = some u ∧ rank m ≤ rank m' := by
  induction hchain with
  | single hedge =>
      obtain ⟨m', hwants', howner⟩ := hedge
      rw [hwants, Option.some.injEq] at hwants'
      exact ⟨m, hwants' ▸ howner, Nat.le_refl _⟩
  | tail _ hedge ih =>
      obtain ⟨m', howner, hle⟩ := ih
      obtain ⟨m'', hwants', howner'⟩ := hedge
      exact ⟨m'', howner', Nat.le_of_lt (Nat.lt_of_le_of_lt hle (h _ _ _ hwants' howner))⟩

theorem World.Ordered.not_circularWait (h : w.Ordered rank) : ¬ w.CircularWait := by
  rintro ⟨t, hcycle⟩
  obtain ⟨u, ⟨m, hwants, -⟩, -⟩ := Relation.TransGen.head'_iff.mp hcycle
  obtain ⟨m', howner, hle⟩ := h.chain hcycle hwants
  exact Nat.lt_irrefl _ (Nat.lt_of_le_of_lt hle (h t m m' hwants howner))

/-- Procedures that pass the check lock in the order in every run of allowed accesses. -/
theorem ordered_invariantBy [DecidableEq M] {body : P → Prog M P S R Ans} {init : S → Prop}
    (hbody : ∀ p held, callable p held → Checked rank ok callable held held (body p))
    (hentry : ∀ p, callable p []) :
    (system body init).InvariantBy (AccessOk ok) (World.Ordered · rank) := by
  intro w hw
  have hinv : (system body init).InductiveBy (AccessOk ok) (Disciplined rank ok callable) :=
    { init := by
        rintro w ⟨s, -, rfl⟩
        exact disciplined_idle s
      step := fun w move w' h hok hstep => h.step hbody hentry hok hstep }
  exact (hinv.invariant w hw).ordered

end order

end LockOrder

end Lib
