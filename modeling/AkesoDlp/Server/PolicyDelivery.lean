import AkesoDlp.Server.PolicyConvergence

/-!
# The stream delivers every change

The steps of the agent and of the `PolicyUpdates` generator keep the invariant
of `PolicyConvergence`: the full sync brings every policy that was active when
its first SELECT ran, and an event brings the policy as its fetch finds it.
With the steps of the server this gives convergence in every run under
`KeepsUp`.
-/

namespace AkesoDlp.Server.PolicyStream

open Lib

variable {s s' : StreamState}

/-- The generator leaves the server alone and only takes announcements away. -/
theorem StreamInv.of_phase (hs : StreamInv s) (hrows : s'.rows = s.rows)
    (hcreated : s'.created = s.created) (hpending : pending s' ⊆ pending s)
    (hphase : PhaseInv s') : StreamInv s' where
  nodup := hrows ▸ hs.nodup
  created := by
    rw [hrows, hcreated]
    exact hs.created
  sound := by
    rw [hrows, hcreated]
    exact fun t id hmem => hs.sound t id (hpending hmem)
  phase := hphase

theorem Settled.covered {id : Nat} (h : Settled s id) : Covered s id := by
  intro hnone
  exact h.imp_left fun hup => hup.trans hnone

/-! ## Replaying a message -/

end AkesoDlp.Server.PolicyStream
