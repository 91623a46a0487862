import AkesoDlp.Server.PolicyStream

/-!
# Convergence of the `PolicyUpdates` stream

A policy is *settled* when the agent has it as the server has it, or when an
announcement of it is still on its way to the subscriber queue or in it. Three
steps can unsettle a policy for good: opening the stream behind the server
while holding a policy that is no longer active (a full sync only adds), a
request that changes one policy and announces another, and the fetch of a
policy with a response rule, which fails. Where none of them is taken, every
policy stays settled, so a quiescent stream has converged.
-/

namespace AkesoDlp.Server.PolicyStream

open Lib

/-- The announcements that will still reach the stream: of committed requests
and of queued events. -/
def pending (s : StreamState) : List (PolicyUpdateType × Nat) :=
  s.unpublished.map Change.announcement ++ s.queue.map fun e => (e.updateType, e.policyId)

/-- An announcement of the policy is pending that will tell what became of it:
a removal, or one whose fetch will find the row. -/
def Announced (s : StreamState) (id : Nat) : Prop :=
  ∃ t, (t, id) ∈ pending s ∧ (t = .policyRemove ∨ lookup s.rows id ≠ none)

/-- The agent has the policy as the server has it. -/
def UpToDate (s : StreamState) (id : Nat) : Prop :=
  agentSet s id = serverSet s.rows id

/-- The policy is settled. -/
def Settled (s : StreamState) (id : Nat) : Prop :=
  UpToDate s id ∨ Announced s id

/-- The agent will hear of changes through events alone: no full sync is still
to be selected. -/
def StreamState.relies (s : StreamState) : Bool :=
  match s.phase with
  | .offline => false
  | .holding _ => false
  | .subscribed c => c == s.version
  | .selecting _ => false
  | _ => true

/-- The request has changed the active policy `id` under another name. -/
def Change.StraysTo (c : Change) (id : Nat) : Prop :=
  c.astray = true ∧ ∃ policyId p, c = .modify policyId (some p) ∧ p.id = id

/-- A full sync selected now would leave the policy settled. -/
def Covered (s : StreamState) (id : Nat) : Prop :=
  serverSet s.rows id = none → agentSet s id = none ∨ Announced s id

/-- Every SELECT of a load so far saw the policy as it is now. -/
structure Fresh (rows head : List Policy) (seen : Relation → Option (List Policy))
    (id : Nat) : Prop where
  head : serverSet head id = serverSet rows id
  seen : ∀ rel table, seen rel = some table → serverSet table id = serverSet rows id

/-- What holds of the agent's policies in each phase. -/
def PhaseInv (s : StreamState) : Prop :=
  match s.phase with
  | .offline => s.received = []
  | .holding c => c ≤ s.version ∧ (c = s.version →
      ∀ id, Settled s id ∨ ∃ c' ∈ s.unpublished, c'.StraysTo id)
  | .subscribed c =>
      c ≤ s.version ∧ (c = s.version → ∀ id, Settled s id) ∧ ∀ id, Covered s id
  | .selecting _ => ∀ id, Covered s id
  | .syncing _ head order seen =>
      (∀ id, id ∈ order ↔ serverSet head id ≠ none) ∧
        ∀ id, Announced s id ∨ Fresh s.rows head seen id ∧ (id ∈ order ∨ UpToDate s id)
  | .sending v rest =>
      ∀ id, Announced s id ∨
        (rest.map (syncMessage v)).foldl PolicyUpdate.replay (agentSet s) id = serverSet s.rows id
  | .waiting => ∀ id, Settled s id
  | .fetching e =>
      e.updateType ≠ .policyRemove ∧ namesPolicy s.rows s.created e.policyId = true ∧
        ∀ id, Settled s id ∨ id = e.policyId ∧ lookup s.rows id ≠ none
  | .loading e head row seen =>
      -- a torn definition would replace one that is up to date
      e.updateType ≠ .policyRemove ∧ (lookup head e.policyId = some row ∧ row.isTemplate = false) ∧
        (Announced s e.policyId ∨ Fresh s.rows head seen e.policyId) ∧
        ∀ id, id ≠ e.policyId → Settled s id

structure StreamInv (s : StreamState) : Prop where
  nodup : (s.rows.map (·.id)).Nodup
  created : ∀ p ∈ s.rows, p.id ∈ s.created
  /-- Announcements are about policies; an announced removal is final. -/
  sound : ∀ t id, (t, id) ∈ pending s → namesPolicy s.rows s.created id = true ∧
    (t = .policyRemove → lookup s.rows id = none)
  phase : PhaseInv s

theorem namesPolicy_iff {rows : List Policy} {created : List Nat} {id : Nat} :
    namesPolicy rows created id = true ↔
      id ∈ created ∧ ∀ p, lookup rows id = some p → p.isTemplate = false := by
  rw [namesPolicy, Bool.and_eq_true, List.contains_iff_mem, Option.all_eq_true]
  refine and_congr_right fun _ => forall_congr' fun p => ?_
  cases p.isTemplate <;> simp

/-- A commit as a change of the state. -/
def StreamState.commit (s : StreamState) (c : Change) : StreamState :=
  { s with
    rows := c.apply s.rows
    created := c.announcement.2 :: s.created
    unpublished := s.unpublished ++ [c] }

theorem mem_pending_commit {s : StreamState} {c : Change} {t : PolicyUpdateType} {id : Nat} :
    (t, id) ∈ pending (s.commit c) ↔ (t, id) ∈ pending s ∨ c.announcement = (t, id) := by
  simp only [pending, StreamState.commit, List.map_append, List.mem_append, List.map_cons,
    List.map_nil, List.mem_singleton, eq_comm (a := c.announcement)]
  tauto

/-- A policy without a row has never been one of the table's. -/
theorem lookup_fresh {s : StreamState} (hs : StreamInv s) {id : Nat} (h : id ∉ s.created) :
    lookup s.rows id = none := by
  cases hl : lookup s.rows id with
  | none => rfl
  | some p => exact absurd (lookup_id hl ▸ hs.created p (lookup_mem hl)) h

/-- What a commit does to one policy's row. -/
theorem lookup_commit {s : StreamState} (hs : StreamInv s) {c : Change}
    (hc : c.allowed s.rows s.created = true) (id : Nat) :
    lookup (c.apply s.rows) id = lookup s.rows id ∨
      (c = .delete id ∧ lookup (c.apply s.rows) id = none) ∨
      (∃ p, lookup (c.apply s.rows) id = some p ∧ c.announcement.2 = id ∧ p.isTemplate = false) ∨
      (∃ policyId p r, c = .modify policyId (some p) ∧ policyId ≠ id ∧ p.id = id ∧
        lookup s.rows id = some r ∧ lookup (c.apply s.rows) id = some p ∧
        r.isTemplate = p.isTemplate ∧ r.isActive = p.isActive) := by
  cases c with
  | create p =>
      simp only [Change.allowed, Bool.and_eq_true, Bool.not_eq_true', List.contains_eq_mem,
        decide_eq_false_iff_not] at hc
      by_cases hid : id = p.id
      · subst hid
        refine .inr (.inr (.inl ⟨p, ?_, rfl, hc.1.2⟩))
        exact lookup_create_self s.rows p (lookup_fresh hs hc.1.1)
      · exact .inl (lookup_create s.rows p hid)
  | delete policyId =>
      by_cases hid : id = policyId
      · subst hid
        exact .inr (.inl ⟨rfl, (lookup_delete s.rows id id).trans (if_pos rfl)⟩)
      · exact .inl ((lookup_delete s.rows policyId id).trans (if_neg hid))
  | modify policyId row =>
      cases row with
      | none => exact .inl rfl
      | some p =>
          have hrow := lookup_modify s.rows p id
          by_cases hid : id = p.id
          · subst hid
            simp only [Change.allowed, Bool.and_eq_true] at hc
            obtain ⟨hnames, hold⟩ := hc
            cases hl : lookup s.rows p.id with
            | none => simp [hl] at hold
            | some r =>
                simp only [hl, Bool.and_eq_true, Bool.or_eq_true, beq_iff_eq] at hold
                rw [if_pos rfl, hl, Option.map_some] at hrow
                by_cases hpid : p.id = policyId
                · refine .inr (.inr (.inl ⟨p, hrow, hpid.symm, ?_⟩))
                  rw [← hold.1]
                  exact (namesPolicy_iff.mp hnames).2 r (hpid ▸ hl)
                · have hsame := hold.2.resolve_left hpid
                  refine .inr (.inr (.inr
                    ⟨policyId, p, r, rfl, fun h => hpid h.symm, rfl, rfl, hrow, hold.1, ?_⟩))
                  rw [Policy.isActive, Policy.isActive, hsame.1.1, hold.1]
          · rw [if_neg hid] at hrow
            exact .inl hrow

theorem announced_of_delete {s : StreamState} {id : Nat} :
    Announced (s.commit (.delete id)) id :=
  ⟨.policyRemove, mem_pending_commit.mpr (.inr rfl), .inl rfl⟩

/-- A row survives a commit, or its removal is announced. -/
theorem lookup_ne_none_commit {s : StreamState} (hs : StreamInv s) {c : Change}
    (hc : c.allowed s.rows s.created = true) {id : Nat} (h : lookup s.rows id ≠ none) :
    lookup (c.apply s.rows) id ≠ none ∨ Announced (s.commit c) id := by
  rcases lookup_commit hs hc id with heq | ⟨rfl, -⟩ | ⟨p, hp, -, -⟩ | ⟨_, p, _, -, -, -, -, hp, -⟩
  · exact .inl (heq ▸ h)
  · exact .inr announced_of_delete
  · exact .inl (hp ▸ Option.some_ne_none p)
  · exact .inl (hp ▸ Option.some_ne_none p)

theorem Announced.commit {s : StreamState} (hs : StreamInv s) {c : Change}
    (hc : c.allowed s.rows s.created = true) {id : Nat} (h : Announced s id) :
    Announced (s.commit c) id := by
  obtain ⟨t, hmem, hremove | hrow⟩ := h
  · exact ⟨t, mem_pending_commit.mpr (.inl hmem), .inl hremove⟩
  · rcases lookup_ne_none_commit hs hc hrow with hrow' | hann
    · exact ⟨t, mem_pending_commit.mpr (.inl hmem), .inr hrow'⟩
    · exact hann

/-- The server moves on under the stream: the agent and the phase stay, and
each policy's entry stays, gets announced, or is strayed to while the agent
does not rely on events. -/
structure MovesOn (s s' : StreamState) : Prop where
  phase : s'.phase = s.phase
  received : s'.received = s.received
  agent : agentSet s' = agentSet s
  version : s.version ≤ s'.version
  announced : ∀ id, Announced s id → Announced s' id
  entry : ∀ id, serverSet s'.rows id = serverSet s.rows id ∨ Announced s' id ∨
    s.relies = false ∧ serverSet s'.rows id ≠ none ∧
      ∃ c' ∈ s'.unpublished, c'.StraysTo id
  strayed : s'.version = s.version → s.unpublished ⊆ s'.unpublished
  row : ∀ id, lookup s.rows id ≠ none → lookup s'.rows id ≠ none ∨ Announced s' id
  names : ∀ id, namesPolicy s.rows s.created id = true →
    namesPolicy s'.rows s'.created id = true

variable {s s' : StreamState}

theorem MovesOn.settled (h : MovesOn s s') {id : Nat}
    (hentry : serverSet s'.rows id = serverSet s.rows id ∨ Announced s' id)
    (hs : Settled s id) : Settled s' id := by
  rcases hs with hup | hann
  · refine hentry.imp_left fun hsame => ?_
    rw [UpToDate, h.agent, hsame]
    exact hup
  · exact .inr (h.announced id hann)

theorem MovesOn.covered (h : MovesOn s s') {id : Nat} (hs : Covered s id) : Covered s' id := by
  intro hnone
  rcases h.entry id with hsame | hann | ⟨-, hsome, -⟩
  · rw [h.agent]
    exact (hs (hsame ▸ hnone)).imp_right (h.announced id)
  · exact .inr hann
  · exact absurd hnone hsome

theorem MovesOn.fresh {id : Nat} {head : List Policy} {seen : Relation → Option (List Policy)}
    (hsame : serverSet s'.rows id = serverSet s.rows id) (hs : Fresh s.rows head seen id) :
    Fresh s'.rows head seen id where
  head := hs.head.trans hsame.symm
  seen := fun rel table htable => (hs.seen rel table htable).trans hsame.symm

/-- The state after the `i`-th committed request `c` has published. -/
def StreamState.publish (s : StreamState) (i : Nat) (c : Change) : StreamState :=
  { s with
    version := s.version + 1
    unpublished := s.unpublished.eraseIdx i
    queue :=
      if s.phase.connected then
        s.queue ++ [⟨c.announcement.1, c.announcement.2, s.version + 1⟩]
      else s.queue }

end AkesoDlp.Server.PolicyStream
