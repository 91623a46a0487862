import AkesoDlp.Lib.LockOrder

/-!
# What the calls of threads come across

The history of a run of threads: for each call the accesses that it has made, with the data
before and after each, and what it has returned.

A *contract* says what every access of a procedure keeps to, and what its accesses and its
result have to do with each other. `Ensures` is a check of one procedure by itself, which
takes the contracts of the procedures that it calls for granted. If all procedures pass, the
contracts hold in every run, however the threads take turns.
-/

namespace Lib

namespace LockOrder

variable {M P S R Q : Type} {Ans : Q → Type}

/-! ## Histories -/

/-- An access as it was made. -/
structure Event (S : Type) {Q : Type} (Ans : Q → Type) where
  kind : Q
  before : S
  answer : Ans kind
  after : S

/-- A call by a thread, with its accesses and those of the procedures that it has called. -/
structure Call (P S : Type) {Q : Type} (Ans : Q → Type) where
  proc : P
  trace : List (Event S Ans) := []

/-- The call that finished last comes first. -/
structure History (M P S R : Type) {Q : Type} (Ans : Q → Type) where
  start : S
  world : World M P S R Ans
  running : Nat → Option (Call P S Ans)
  finished : List (Call P S Ans × R)

namespace History

def idle (s : S) : History M P S R Ans where
  start := s
  world := World.idle s
  running _ := none
  finished := []

def setRunning (h : History M P S R Ans) (t : Nat) (call : Option (Call P S Ans)) :
    History M P S R Ans :=
  { h with running := Function.update h.running t call }

/-- What is written down about a step of a thread to `world`. -/
def recordRun (h : History M P S R Ans) (world : World M P S R Ans) (t : Nat)
    (answer : ∀ q, Ans q) : Option (Thread M P S R Ans) → History M P S R Ans
  | some ⟨.ret r, []⟩ =>
      { h.setRunning t none with
        world := world
        finished := ((h.running t).map fun call => (call, r)).toList ++ h.finished }
  | some ⟨.access q f _, _⟩ =>
      let e := ⟨q, h.world.shared, answer q, f h.world.shared (answer q)⟩
      { h.setRunning t ((h.running t).map fun call =>
          { call with trace := call.trace ++ [e] }) with world := world }
  | _ => { h with world := world }

def record (h : History M P S R Ans) (world : World M P S R Ans) :
    Move P Ans → History M P S R Ans
  | .start t p => { h.setRunning t (some { proc := p }) with world := world }
  | .run t answer => h.recordRun world t answer (h.world.threads t)

def step [DecidableEq M] (body : P → Prog M P S R Ans) (h : History M P S R Ans)
    (move : Move P Ans) : Option (History M P S R Ans) :=
  (h.world.step body move).map fun world => h.record world move

end History

def Move.thread : Move P Ans → Nat
  | .start t _ => t
  | .run t _ => t

/-- The system of all threads that call the procedures, with the history. -/
def histories [DecidableEq M] (body : P → Prog M P S R Ans) (init : S → Prop) :
    TSys (History M P S R Ans) (Move P Ans) where
  init h := ∃ s, init s ∧ h = History.idle s
  step h := h.step body

@[simp] theorem History.record_world (h : History M P S R Ans) (world : World M P S R Ans)
    (move : Move P Ans) : (h.record world move).world = world := by
  cases move with
  | start t p => rfl
  | run t answer =>
      rw [History.record]
      unfold History.recordRun
      split <;> rfl

/-- A step of a thread is no concern of the other calls. -/
theorem History.running_of_step [DecidableEq M] {body : P → Prog M P S R Ans}
    {h h' : History M P S R Ans} {move : Move P Ans} (hstep : h.step body move = some h') {t : Nat}
    (ht : t ≠ move.thread) : h'.running t = h.running t := by
  obtain ⟨w, -, rfl⟩ := Option.map_eq_some_iff.mp hstep
  cases move with
  | start u p => exact Function.update_of_ne ht _ _
  | run u answer =>
      rw [History.record]
      unfold History.recordRun
      split
      · exact Function.update_of_ne ht _ _
      · exact Function.update_of_ne ht _ _
      · rfl

theorem running_of_run [DecidableEq M] {body : P → Prog M P S R Ans} {init : S → Prop}
    {h h' : History M P S R Ans} {moves : List (Move P Ans)}
    (hrun : (histories body init).run h moves = some h') {t : Nat}
    (ht : ∀ move ∈ moves, t ≠ move.thread) : h'.running t = h.running t := by
  induction moves generalizing h with
  | nil =>
      cases hrun
      rfl
  | cons move moves ih =>
      obtain ⟨hmove, hmoves⟩ := List.forall_mem_cons.mp ht
      obtain ⟨h₁, hstep, hrest⟩ := Option.bind_eq_some_iff.mp hrun
      exact (ih hrest hmoves).trans (History.running_of_step hstep hmove)

/-- The history takes no part: the runs are those of the threads. -/
theorem reachable_world [DecidableEq M] {body : P → Prog M P S R Ans} {init : S → Prop}
    {w : World M P S R Ans} :
    (system body init).Reachable w ↔ ∃ h, (histories body init).Reachable h ∧ h.world = w := by
  constructor
  · intro hw
    induction hw with
    | init hs =>
        obtain ⟨s, hs, rfl⟩ := hs
        exact ⟨.idle s, .init ⟨s, hs, rfl⟩, rfl⟩
    | @step w move w' _ _ hstep ih =>
        obtain ⟨h, hreach, rfl⟩ := ih
        have hrecord : (histories body init).step h move = some (h.record w' move) :=
          Option.map_eq_some_iff.mpr ⟨w', hstep, rfl⟩
        exact ⟨h.record w' move, .step hreach trivial hrecord, h.record_world w' move⟩
  · rintro ⟨h, hreach, rfl⟩
    induction hreach with
    | init hs =>
        obtain ⟨s, hs, rfl⟩ := hs
        exact .init ⟨s, hs, rfl⟩
    | @step h move h' _ _ hstep ih =>
        obtain ⟨w', hw', rfl⟩ := Option.map_eq_some_iff.mp hstep
        rw [h.record_world]
        exact .step ih trivial hw'

/-! ## What a step does -/

/-- A step of one thread without an access. -/
inductive Silent (body : P → Prog M P S R Ans) : Thread M P S R Ans → Thread M P S R Ans → Prop
  | ret {r k ks} : Silent body ⟨.ret r, k :: ks⟩ ⟨k r, ks⟩
  | lock {m k ks} : Silent body ⟨.lock m k, ks⟩ ⟨k, ks⟩
  | unlock {m k ks} : Silent body ⟨.unlock m k, ks⟩ ⟨k, ks⟩
  | call {p k ks} : Silent body ⟨.call p k, ks⟩ ⟨body p, k :: ks⟩

/-- The data and the threads after a step, with the history. -/
inductive Advances (body : P → Prog M P S R Ans) (h : History M P S R Ans) :
    History M P S R Ans → Prop
  | start {t p world} (hidle : h.world.threads t = none) (hshared : world.shared = h.world.shared)
      (hthreads : world.threads = Function.update h.world.threads t (some ⟨body p, []⟩)) :
      Advances body h { h.setRunning t (some { proc := p }) with world := world }
  | finish {t r world} (hthread : h.world.threads t = some ⟨.ret r, []⟩)
      (hshared : world.shared = h.world.shared)
      (hthreads : world.threads = Function.update h.world.threads t none) :
      Advances body h { h.setRunning t none with
        world := world
        finished := ((h.running t).map fun call => (call, r)).toList ++ h.finished }
  | access {t q f k ks world} (a : Ans q)
      (hthread : h.world.threads t = some ⟨.access q f k, ks⟩)
      (hshared : world.shared = f h.world.shared a)
      (hthreads : world.threads =
        Function.update h.world.threads t (some ⟨k h.world.shared a, ks⟩)) :
      Advances body h { h.setRunning t ((h.running t).map fun call =>
        { call with trace := call.trace ++ [⟨q, h.world.shared, a, f h.world.shared a⟩] }) with
          world := world }
  | silent {t th th' world} (hthread : h.world.threads t = some th) (hsilent : Silent body th th')
      (hshared : world.shared = h.world.shared)
      (hthreads : world.threads = Function.update h.world.threads t (some th')) :
      Advances body h { h with world := world }

theorem advances_of_step [DecidableEq M] {body : P → Prog M P S R Ans}
    {h h' : History M P S R Ans} {move : Move P Ans} (hstep : h.step body move = some h') :
    Advances body h h' := by
  obtain ⟨w, hw, rfl⟩ := Option.map_eq_some_iff.mp hstep
  cases move with
  | start t p =>
      rw [World.step] at hw
      split at hw
      · next hidle =>
          cases hw
          exact .start hidle rfl rfl
      · cases hw
  | run t answer =>
      obtain ⟨⟨prog, stack⟩, hthread, hrun⟩ := Option.bind_eq_some_iff.mp hw
      rw [History.record, hthread]
      cases prog with
      | ret r =>
          cases stack with
          | nil =>
              cases hrun
              exact .finish hthread rfl rfl
          | cons k ks =>
              cases hrun
              exact .silent hthread .ret rfl rfl
      | lock m k =>
          obtain ⟨-, heq⟩ := Option.ite_none_right_eq_some.mp hrun
          cases heq
          exact .silent hthread .lock rfl rfl
      | unlock m k =>
          obtain ⟨-, heq⟩ := Option.ite_none_right_eq_some.mp hrun
          cases heq
          exact .silent hthread .unlock rfl rfl
      | access q f k =>
          cases hrun
          exact .access (answer q) hthread rfl rfl
      | call p k =>
          cases hrun
          exact .silent hthread .call rfl rfl

theorem start_invariantBy [DecidableEq M] {body : P → Prog M P S R Ans} {init : S → Prop} :
    (histories body init).InvariantBy (fun _ _ => True) fun h => init h.start := by
  refine TSys.InductiveBy.invariant ⟨?_, fun _ _ _ hstart _ hstep => ?_⟩
  · rintro h ⟨s, hs, rfl⟩
    exact hs
  · cases advances_of_step hstep <;> exact hstart

/-! ## Contracts -/

/-- `within` holds of every access of a call, `post` of all of them with the result. -/
structure Contract (S R : Type) {Q : Type} (Ans : Q → Type) where
  within : Event S Ans → Prop
  post : List (Event S Ans) → R → Prop

/-- Of every access and every result. -/
def Contract.any : Contract S R Ans where
  within _ := True
  post _ _ := True

/-- What is left of a contract when there have been some accesses. -/
def Contract.after (c : Contract S R Ans) (trace : List (Event S Ans)) : Contract S R Ans where
  within := c.within
  post rest r := c.post (trace ++ rest) r

theorem Contract.after_after (c : Contract S R Ans) (trace rest : List (Event S Ans)) :
    (c.after trace).after rest = c.after (trace ++ rest) := by
  simp only [Contract.after, List.append_assoc]

section check

variable (contract : P → Contract S R Ans)

/-- The program keeps to `c` if the procedures that it calls keep to theirs. -/
def Ensures : Prog M P S R Ans → Contract S R Ans → Prop
  | .ret r, c => c.post [] r
  | .lock _ k, c => Ensures k c
  | .unlock _ k, c => Ensures k c
  | .access q f k, c => ∀ s a,
      c.within ⟨q, s, a, f s a⟩ ∧ Ensures (k s a) (c.after [⟨q, s, a, f s a⟩])
  | .call p k, c =>
      (∀ e, (contract p).within e → c.within e) ∧
        ∀ trace r, (∀ e ∈ trace, (contract p).within e) → (contract p).post trace r →
          Ensures (k r) (c.after trace)

/-- The program keeps to a contract of its own, after which what its call returns to does. -/
def EnsuresStack : List (R → Prog M P S R Ans) → Prog M P S R Ans → Contract S R Ans → Prop
  | [], p, c => Ensures contract p c
  | k :: ks, p, c => ∃ inner, Ensures contract p inner ∧ (∀ e, inner.within e → c.within e) ∧
      ∀ trace r, (∀ e ∈ trace, inner.within e) → inner.post trace r →
        EnsuresStack ks (k r) (c.after trace)

end check

section rules

variable {contract : P → Contract S R Ans} {c : Contract S R Ans} {k : R → Prog M P S R Ans}
  {ks : List (R → Prog M P S R Ans)}

theorem ensures_guarded {m : M} {q : Q} {f : S → Ans q → S} {k : S → Ans q → Prog M P S R Ans}
    (h : ∀ s a, c.within ⟨q, s, a, f s a⟩ ∧ Ensures contract (k s a) (c.after [⟨q, s, a, f s a⟩])) :
    Ensures contract (.guarded m q f k) c :=
  h

theorem ensures_any (p : Prog M P S R Ans) : Ensures contract p .any := by
  induction p with
  | ret r => trivial
  | lock m k ih | unlock m k ih => exact ih
  | access q f k ih => exact fun s a => ⟨trivial, ih s a⟩
  | call p k ih => exact ⟨fun _ _ => trivial, fun _ r _ _ => ih r⟩

/-- The rest of the stack takes over what is left of the contract. -/
theorem ensuresStack_cases {p : Prog M P S R Ans} (h : EnsuresStack contract ks p c) :
    ∃ inner, Ensures contract p inner ∧ (∀ e, inner.within e → c.within e) ∧
      ∀ trace p', (∀ e ∈ trace, inner.within e) → Ensures contract p' (inner.after trace) →
        EnsuresStack contract ks p' (c.after trace) := by
  cases ks with
  | nil => exact ⟨c, h, fun _ he => he, fun _ _ _ hp' => hp'⟩
  | cons k ks =>
      obtain ⟨inner, hp, hwithin, hk⟩ := h
      refine ⟨inner, hp, hwithin, fun trace p' htrace hp' =>
        ⟨inner.after trace, hp', hwithin, ?_⟩⟩
      intro rest r hrest hpost
      rw [Contract.after_after]
      exact hk (trace ++ rest) r (List.forall_mem_append.mpr ⟨htrace, hrest⟩) hpost

theorem ensuresStack_silent {body : P → Prog M P S R Ans} {th th' : Thread M P S R Ans}
    (hbody : ∀ p, Ensures contract (body p) (contract p)) (hsilent : Silent body th th')
    (h : EnsuresStack contract th.stack th.prog c) :
    EnsuresStack contract th'.stack th'.prog c := by
  cases hsilent with
  | ret =>
      obtain ⟨inner, hpost, -, hk⟩ := h
      exact hk [] _ (List.forall_mem_nil _) hpost
  | lock | unlock =>
      obtain ⟨inner, hp, -, hrest⟩ := ensuresStack_cases h
      exact hrest [] _ (List.forall_mem_nil _) hp
  | call =>
      obtain ⟨inner, ⟨hcallee, hk⟩, hwithin, hrest⟩ := ensuresStack_cases h
      refine ⟨_, hbody _, fun e he => hwithin e (hcallee e he), fun trace r htrace hpost => ?_⟩
      exact hrest trace _ (fun e he => hcallee e (htrace e he)) (hk trace r htrace hpost)

theorem ensuresStack_access {q : Q} {f : S → Ans q → S} {k : S → Ans q → Prog M P S R Ans}
    (h : EnsuresStack contract ks (.access q f k) c) (s : S) (a : Ans q) :
    c.within ⟨q, s, a, f s a⟩ ∧
      EnsuresStack contract ks (k s a) (c.after [⟨q, s, a, f s a⟩]) := by
  obtain ⟨inner, hp, hwithin, hrest⟩ := ensuresStack_cases h
  obtain ⟨he, hk⟩ := hp s a
  exact ⟨hwithin _ he, hrest _ _ (List.forall_mem_singleton.mpr he) hk⟩

end rules

/-! ## The contracts hold -/

section contracts

variable (contract : P → Contract S R Ans)

/-- A running call has kept to its contract, and its thread keeps to what is left of it. -/
structure Keeps (call : Call P S Ans) (th : Thread M P S R Ans) : Prop where
  within : ∀ e ∈ call.trace, (contract call.proc).within e
  rest : EnsuresStack contract th.stack th.prog ((contract call.proc).after call.trace)

structure Kept (call : Call P S Ans) (r : R) : Prop where
  within : ∀ e ∈ call.trace, (contract call.proc).within e
  post : (contract call.proc).post call.trace r

/-- The threads that run are those with a call. -/
structure KeepsContracts (h : History M P S R Ans) : Prop where
  running : ∀ t th, h.world.threads t = some th →
    ∃ call, h.running t = some call ∧ Keeps contract call th
  idle : ∀ t, h.world.threads t = none → h.running t = none
  finished : ∀ x ∈ h.finished, Kept contract x.1 x.2

variable {contract} {h h' : History M P S R Ans} {body : P → Prog M P S R Ans}

theorem KeepsContracts.within (hinv : KeepsContracts contract h) {t : Nat} {call : Call P S Ans}
    (hcall : h.running t = some call) : ∀ e ∈ call.trace, (contract call.proc).within e := by
  cases hthread : h.world.threads t with
  | none =>
      rw [hinv.idle t hthread] at hcall
      cases hcall
  | some th =>
      obtain ⟨call', hcall', hkeeps⟩ := hinv.running t th hthread
      rw [hcall', Option.some.injEq] at hcall
      exact hcall ▸ hkeeps.within

/-- A step of a thread, which changes no other thread. -/
theorem KeepsContracts.update (hinv : KeepsContracts contract h) {t : Nat}
    {th : Option (Thread M P S R Ans)} {call : Option (Call P S Ans)}
    {world : World M P S R Ans} {finished : List (Call P S Ans × R)}
    (hthreads : world.threads = Function.update h.world.threads t th)
    (hself : ∀ th', th = some th' → ∃ call', call = some call' ∧ Keeps contract call' th')
    (hidle : th = none → call = none)
    (hfinished : ∀ x ∈ finished, Kept contract x.1 x.2) :
    KeepsContracts contract { h.setRunning t call with world := world, finished := finished } where
  running u th' hth' := by
    dsimp only [History.setRunning] at hth' ⊢
    rw [hthreads] at hth'
    by_cases hu : u = t
    · subst hu
      rw [Function.update_self] at hth' ⊢
      exact hself th' hth'
    · rw [Function.update_of_ne hu] at hth' ⊢
      exact hinv.running u th' hth'
  idle u hnone := by
    dsimp only [History.setRunning] at hnone ⊢
    rw [hthreads] at hnone
    by_cases hu : u = t
    · subst hu
      rw [Function.update_self] at hnone ⊢
      exact hidle hnone
    · rw [Function.update_of_ne hu] at hnone ⊢
      exact hinv.idle u hnone
  finished := hfinished

theorem KeepsContracts.advance (hbody : ∀ p, Ensures contract (body p) (contract p))
    (hinv : KeepsContracts contract h) (hstep : Advances body h h') :
    KeepsContracts contract h' := by
  cases hstep with
  | @start t p world hidle hshared hthreads =>
      refine hinv.update hthreads ?_ nofun hinv.finished
      rintro th ⟨⟩
      exact ⟨_, rfl, List.forall_mem_nil _, hbody p⟩
  | @finish t r world hthread hshared hthreads =>
      obtain ⟨call, hcall, hkeeps⟩ := hinv.running t _ hthread
      refine hinv.update hthreads nofun (fun _ => rfl) ?_
      rw [hcall]
      have hpost : (contract call.proc).post (call.trace ++ []) r := hkeeps.rest
      rw [List.append_nil] at hpost
      exact List.forall_mem_cons.mpr ⟨⟨hkeeps.within, hpost⟩, hinv.finished⟩
  | @access t q f k ks world a hthread hshared hthreads =>
      obtain ⟨call, hcall, hkeeps⟩ := hinv.running t _ hthread
      refine hinv.update hthreads ?_ nofun hinv.finished
      rintro th ⟨⟩
      rw [hcall]
      obtain ⟨hwithin, hrest⟩ := ensuresStack_access hkeeps.rest h.world.shared a
      refine ⟨_, rfl, List.forall_mem_append.mpr ⟨hkeeps.within, ?_⟩, ?_⟩
      · exact List.forall_mem_singleton.mpr hwithin
      · rwa [Contract.after_after] at hrest
  | @silent t th th' world hthread hsilent hshared hthreads =>
      obtain ⟨call, hcall, hkeeps⟩ := hinv.running t _ hthread
      have hsame : { h with world := world } =
          { h.setRunning t (some call) with world := world, finished := h.finished } := by
        rw [History.setRunning, ← hcall, Function.update_eq_self]
      rw [hsame]
      refine hinv.update hthreads ?_ nofun hinv.finished
      rintro th'' ⟨⟩
      exact ⟨call, rfl, hkeeps.within, ensuresStack_silent hbody hsilent hkeeps.rest⟩

theorem keepsContracts_idle (s : S) :
    KeepsContracts contract (.idle s : History M P S R Ans) :=
  ⟨nofun, fun _ _ => rfl, List.forall_mem_nil _⟩

/-- Procedures that pass the check keep to their contracts in every run. -/
theorem keepsContracts_invariantBy [DecidableEq M] {init : S → Prop}
    (hbody : ∀ p, Ensures contract (body p) (contract p)) :
    (histories body init).InvariantBy (fun _ _ => True) (KeepsContracts contract) := by
  refine TSys.InductiveBy.invariant ⟨?_, fun _ _ _ hinv _ hstep => ?_⟩
  · rintro h ⟨s, -, rfl⟩
    exact keepsContracts_idle s
  · exact hinv.advance hbody (advances_of_step hstep)

end contracts

end LockOrder

end Lib
