import Mathlib.Logic.Basic

/-!
# Commands that raise

A command takes a state to a state and ends normally or with an exception; what
it did to the state before it raised stays. A triple `{P} a {Q} {X}` speaks of
both ends: `Q` after a normal one, `X` after an exception.
-/

namespace Lib

/-- A command over states `σ` with exceptions `ε`. -/
def Act (σ ε : Type*) := σ → σ × Option ε

namespace Act

variable {σ ε α : Type*}

def skip : Act σ ε := fun s => (s, none)

def raise (e : ε) : Act σ ε := fun s => (s, some e)

def update (f : σ → σ) : Act σ ε := fun s => (f s, none)

/-- Raise `e` in a state that is `bad`. -/
def failIf (bad : σ → Bool) (e : ε) : Act σ ε := fun s => (s, if bad s then some e else none)

def seq (a b : Act σ ε) : Act σ ε := fun s =>
  match a s with
  | (s', none) => b s'
  | (s', some e) => (s', some e)

def forEach (body : α → Act σ ε) : List α → Act σ ε
  | [] => skip
  | x :: xs => (body x).seq (forEach body xs)

/-- `handler` takes over when `a` raises. -/
def recover (a : Act σ ε) (handler : ε → Act σ ε) : Act σ ε := fun s =>
  match a s with
  | (s', none) => (s', none)
  | (s', some e) => handler e s'

@[simp] theorem seq_skip (a : Act σ ε) : a.seq skip = a := by
  funext s
  unfold seq
  rcases a s with ⟨s', - | e⟩ <;> rfl

theorem seq_assoc (a b c : Act σ ε) : (a.seq b).seq c = a.seq (b.seq c) := by
  funext s
  unfold seq
  rcases a s with ⟨s', - | e⟩ <;> rfl

/-- From a state with `P` the command ends with `Q` or raises with `X`. -/
def Triple (P : σ → Prop) (a : Act σ ε) (Q : σ → Prop) (X : σ → ε → Prop) : Prop :=
  ∀ s, P s → match a s with
    | (s', none) => Q s'
    | (s', some e) => X s' e

/-- The command keeps `I`, whether it raises or not. -/
def Keeps (I : σ → Prop) (a : Act σ ε) : Prop := Triple I a I fun s _ => I s

section Rules

variable {P Q R : σ → Prop} {X Y : σ → ε → Prop} {a b : Act σ ε}

namespace Triple

theorem conseq {P' Q' : σ → Prop} (h : Triple P a Q X) (hpre : ∀ s, P' s → P s)
    (hpost : ∀ s, Q s → Q' s) (hraise : ∀ s e, X s e → Y s e) : Triple P' a Q' Y := by
  intro s hs
  have h := h s (hpre s hs)
  revert h
  rcases a s with ⟨s', - | e⟩
  · exact hpost s'
  · exact hraise s' e

theorem skip (h : ∀ s, P s → Q s) : Triple P (skip : Act σ ε) Q X := h

theorem raise {e : ε} (h : ∀ s, P s → X s e) : Triple P (raise e) Q X := h

theorem update {f : σ → σ} (h : ∀ s, P s → Q (f s)) : Triple P (update f : Act σ ε) Q X := h

/-- Past the check the state is known not to be bad. -/
theorem failIf {bad : σ → Bool} {e : ε} (hgood : ∀ s, P s → bad s = false → Q s)
    (hbad : ∀ s, P s → bad s = true → X s e) : Triple P (failIf bad e) Q X := by
  intro s hs
  unfold Act.failIf
  cases h : bad s with
  | false => exact hgood s hs h
  | true => exact hbad s hs h

theorem seq (ha : Triple P a Q X) (hb : Triple Q b R X) : Triple P (a.seq b) R X := by
  intro s hs
  have ha := ha s hs
  unfold Act.seq
  revert ha
  rcases a s with ⟨s', - | e⟩
  · exact hb s'
  · exact id

/-- A loop with an invariant that may depend on what is left to do. -/
theorem forEach {body : α → Act σ ε} (I : List α → σ → Prop)
    (hbody : ∀ x xs, Triple (I (x :: xs)) (body x) (I xs) X) (xs : List α) :
    Triple (I xs) (forEach body xs) (I []) X := by
  induction xs with
  | nil => exact Triple.skip fun _ h => h
  | cons x xs ih => exact (hbody x xs).seq ih

theorem recover {handler : ε → Act σ ε} (ha : Triple P a Q Y)
    (hhandler : ∀ e, Triple (fun s => Y s e) (handler e) Q X) :
    Triple P (a.recover handler) Q X := by
  intro s hs
  have ha := ha s hs
  unfold Act.recover
  revert ha
  rcases a s with ⟨s', - | e⟩
  · exact id
  · exact hhandler e s'

end Triple

namespace Keeps

variable {I : σ → Prop}

theorem skip : Keeps I (skip : Act σ ε) := Triple.skip fun _ h => h

theorem raise (e : ε) : Keeps I (raise e) := Triple.raise fun _ h => h

theorem update {f : σ → σ} (h : ∀ s, I s → I (f s)) : Keeps I (update f : Act σ ε) :=
  Triple.update h

theorem seq (ha : Keeps I a) (hb : Keeps I b) : Keeps I (a.seq b) := Triple.seq ha hb

theorem forEach {body : α → Act σ ε} {xs : List α} (h : ∀ x ∈ xs, Keeps I (body x)) :
    Keeps I (forEach body xs) := by
  induction xs with
  | nil => exact Keeps.skip
  | cons x xs ih =>
      rw [List.forall_mem_cons] at h
      exact h.1.seq (ih h.2)

theorem recover {handler : ε → Act σ ε} (ha : Keeps I a) (h : ∀ e, Keeps I (handler e)) :
    Keeps I (a.recover handler) := Triple.recover ha h

/-- It is the state that counts, however the command ends. -/
theorem iff_apply : Keeps I a ↔ ∀ s, I s → I (a s).1 := by
  refine forall₂_congr fun s _ => ?_
  rcases a s with ⟨s', - | e⟩ <;> exact Iff.rfl

theorem apply (h : Keeps I a) {s : σ} (hs : I s) : I (a s).1 := iff_apply.mp h s hs

end Keeps

end Rules

end Act

end Lib
