import AkesoDlp.Lib.TSys

/-!
# Loops

A loop that goes on while its body gives a next state. A rank that falls with every turn
bounds the turns, and what the turns keep holds where the loop ends.
-/

namespace Lib.Loop

variable {S : Type*} {next : S → Option S}

/-- The states that a loop goes through. -/
def system (next : S → Option S) (start : S) : TSys S Unit where
  init s := s = start
  step s _ := next s

/-- At most so many turns. -/
def turns (next : S → Option S) : (fuel : Nat) → S → S
  | 0, s => s
  | fuel + 1, s =>
      match next s with
      | none => s
      | some s' => turns next fuel s'

theorem turns_of_none {s : S} (h : next s = none) (fuel : Nat) : turns next fuel s = s := by
  cases fuel with
  | zero => rfl
  | succ fuel => rw [turns, h]

theorem turns_of_some {s s' : S} (h : next s = some s') (fuel : Nat) :
    turns next (fuel + 1) s = turns next fuel s' := by
  rw [turns, h]

/-- What the turns keep holds in every state of the loop. -/
theorem invariant {I : S → Prop} {start : S} (hstart : I start)
    (hnext : ∀ s s', I s → next s = some s' → I s') {s : S}
    (h : (system next start).Reachable s) : I s := by
  refine TSys.InductiveBy.invariant ⟨?_, ?_⟩ s h
  · rintro s rfl
    exact hstart
  · intro s _ s' hs _ hstep
    exact hnext s s' hs hstep

theorem reachable_turns (fuel : Nat) {start s : S} (h : (system next start).Reachable s) :
    (system next start).Reachable (turns next fuel s) := by
  induction fuel generalizing s with
  | zero => exact h
  | succ fuel ih =>
      cases hnext : next s with
      | none => rwa [turns_of_none hnext]
      | some s' =>
          rw [turns_of_some hnext]
          exact ih (.step (a := ()) h trivial hnext)

/-- A rank that falls with every turn bounds their number. -/
theorem next_turns {I : S → Prop} (rank : S → Nat)
    (hnext : ∀ s s', I s → next s = some s' → I s' ∧ rank s' < rank s) {fuel : Nat} {s : S}
    (hs : I s) (hfuel : rank s ≤ fuel) : next (turns next fuel s) = none := by
  induction fuel generalizing s with
  | zero =>
      cases hstep : next s with
      | none => rwa [turns_of_none hstep]
      | some s' =>
          have hlt := (hnext s s' hs hstep).2
          omega
  | succ fuel ih =>
      cases hstep : next s with
      | none => rwa [turns_of_none hstep]
      | some s' =>
          obtain ⟨hs', hlt⟩ := hnext s s' hs hstep
          rw [turns_of_some hstep]
          exact ih hs' (by omega)

end Lib.Loop
