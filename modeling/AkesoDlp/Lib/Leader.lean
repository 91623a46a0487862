import Mathlib.Data.List.Infix
import Mathlib.Data.List.Sort

/-!
# The leader of a sorted list

A scan that keeps the first element of the greatest value, over a list that is sorted by a key
of another kind. What it finds depends on how the sort orders equal keys exactly if two elements
tie in both.
-/

namespace Lib

variable {α β : Type*} (value key : α → Nat)

/-- The scan: an element takes the lead when its value is greater. -/
def leader (l : List α) : Option α :=
  l.foldl (fun best a => if best.elim 0 value < value a then some a else best) none

/-- No element has a greater value, nor the same value and a greater key. -/
structure Top (l : List α) (a : α) : Prop where
  mem : a ∈ l
  pos : 0 < value a
  best : ∀ b ∈ l, value b < value a ∨ value b = value a ∧ key b ≤ key a

/-- Greater keys come first. -/
def KeySorted (l : List α) : Prop := l.Pairwise fun a b => key b ≤ key a

variable {value key} {l l' : List α} {a b : α}

/-- The first element of the greatest value leads. -/
structure Leads (value : α → Nat) (l : List α) (a : α) (before after : List α) : Prop where
  split : l = before ++ a :: after
  pos : 0 < value a
  before : ∀ b ∈ before, value b < value a
  after : ∀ b ∈ after, value b ≤ value a

theorem leader_concat (l : List α) (a : α) :
    leader value (l ++ [a]) =
      if (leader value l).elim 0 value < value a then some a else leader value l := by
  rw [leader, List.foldl_append]
  rfl

theorem leader_spec (l : List α) :
    (∀ a, leader value l = some a → ∃ before after, Leads value l a before after) ∧
      (leader value l = none → ∀ a ∈ l, value a = 0) := by
  induction l using List.reverseRecOn with
  | nil => exact ⟨nofun, fun _ => nofun⟩
  | append_singleton l x ih =>
      rw [leader_concat]
      constructor
      · intro a ha
        split at ha
        · next hlt =>
          obtain rfl := Option.some.inj ha
          refine ⟨l, [], rfl, Nat.zero_lt_of_lt hlt, fun b hb => ?_, nofun⟩
          cases hlead : leader value l with
          | none =>
              rw [ih.2 hlead b hb]
              exact Nat.zero_lt_of_lt hlt
          | some c =>
              obtain ⟨before, after, hsplit, -, hbefore, hafter⟩ := ih.1 c hlead
              rw [hlead, Option.elim_some] at hlt
              rw [hsplit, List.mem_append, List.mem_cons] at hb
              rcases hb with hb | rfl | hb
              · exact Nat.lt_trans (hbefore b hb) hlt
              · exact hlt
              · exact Nat.lt_of_le_of_lt (hafter b hb) hlt
        · next hle =>
          obtain ⟨before, after, hsplit, hpos, hbefore, hafter⟩ := ih.1 a ha
          rw [ha, Option.elim_some, Nat.not_lt] at hle
          refine ⟨before, after ++ [x], ?_, hpos, hbefore, fun b hb => ?_⟩
          · rw [hsplit, List.append_assoc, List.cons_append]
          · rcases List.mem_append.mp hb with hb | hb
            · exact hafter b hb
            · exact List.mem_singleton.mp hb ▸ hle
      · intro hnone b hb
        split at hnone
        · cases hnone
        · next hle =>
          rw [hnone, Option.elim_none, Nat.not_lt, Nat.le_zero] at hle
          rcases List.mem_append.mp hb with hb | hb
          · exact ih.2 hnone b hb
          · exact List.mem_singleton.mp hb ▸ hle

theorem leader_eq_some {before after : List α} (h : Leads value l a before after) :
    leader value l = some a := by
  obtain ⟨rfl, hpos, hbefore, hafter⟩ := h
  induction after using List.reverseRecOn with
  | nil =>
      rw [leader_concat, if_pos]
      cases hlead : leader value before with
      | none => exact hpos
      | some c =>
          obtain ⟨_, _, hsplit, -⟩ := (leader_spec before).1 c hlead
          exact hbefore c (hsplit ▸ List.mem_append_right _ List.mem_cons_self)
  | append_singleton after x ih =>
      rw [← List.cons_append, ← List.append_assoc, leader_concat,
        ih fun b hb => hafter b (List.mem_append_left _ hb), if_neg]
      exact Nat.not_lt.mpr (hafter x (List.mem_append_right _ (List.mem_singleton.mpr rfl)))

/-- What leads a sorted list is at the top. -/
theorem top_of_leader (hsorted : KeySorted key l) (h : leader value l = some a) :
    Top value key l a := by
  obtain ⟨before, after, rfl, hpos, hbefore, hafter⟩ := (leader_spec l).1 a h
  refine ⟨List.mem_append_right _ List.mem_cons_self, hpos, fun b hb => ?_⟩
  have hkeys := (List.pairwise_append.mp hsorted).2.1
  rcases List.mem_append.mp hb with hb | hb
  · exact .inl (hbefore b hb)
  · rcases List.mem_cons.mp hb with rfl | hb
    · exact .inr ⟨rfl, Nat.le_refl _⟩
    · rcases Nat.lt_or_eq_of_le (hafter b hb) with hlt | heq
      · exact .inl hlt
      · exact .inr ⟨heq, List.rel_of_pairwise_cons hkeys hb⟩

theorem exists_keySorted (key : α → Nat) (l : List α) : ∃ l', l'.Perm l ∧ KeySorted key l' := by
  have : Std.Total fun a b : α => key b ≤ key a := ⟨fun a b => Nat.le_total ..⟩
  have : IsTrans α fun a b => key b ≤ key a := ⟨fun a b c hab hbc => Nat.le_trans hbc hab⟩
  exact ⟨l.insertionSort fun a b => key b ≤ key a, List.perm_insertionSort ..,
    List.pairwise_insertionSort ..⟩

/-- Each element at the top leads some sorted order of the list. -/
theorem exists_leader (h : Top value key l a) :
    ∃ l', l'.Perm l ∧ KeySorted key l' ∧ leader value l' = some a := by
  obtain ⟨before, after, rfl⟩ := List.append_of_mem h.mem
  obtain ⟨m, hperm, hsorted⟩ := exists_keySorted key (before ++ after)
  have hrest : ∀ b ∈ m, b ∈ before ++ a :: after := fun b hb =>
    List.perm_middle.mem_iff.mpr (List.mem_cons_of_mem _ (hperm.mem_iff.mp hb))
  -- among the elements with its key the chosen one comes first
  let longer := m.filter fun b => decide (key a < key b)
  let others := m.filter fun b => !decide (key a < key b)
  refine ⟨longer ++ a :: others, ?_, ?_, leader_eq_some ⟨rfl, h.pos, ?_, ?_⟩⟩
  · refine (List.perm_middle.trans (.cons a ?_)).trans List.perm_middle.symm
    exact (List.filter_append_perm ..).trans hperm
  · refine List.pairwise_append.mpr ⟨hsorted.filter _, List.pairwise_cons.mpr
      ⟨fun b hb => ?_, hsorted.filter _⟩, fun b hb c hc => ?_⟩
    · simpa using (List.mem_filter.mp hb).2
    · have hlonger : key a < key b := by simpa using (List.mem_filter.mp hb).2
      rcases List.mem_cons.mp hc with rfl | hc
      · exact hlonger.le
      · have hle : key c ≤ key a := by simpa using (List.mem_filter.mp hc).2
        exact hle.trans hlonger.le
  · intro b hb
    have hlonger : key a < key b := by simpa using (List.mem_filter.mp hb).2
    refine (h.best b (hrest b (List.mem_filter.mp hb).1)).resolve_right fun htie => ?_
    exact Nat.not_lt.mpr htie.2 hlonger
  · intro b hb
    rcases h.best b (hrest b (List.mem_filter.mp hb).1) with hlt | htie
    · exact hlt.le
    · exact htie.1.le

theorem Top.perm (h : Top value key l a) (hperm : l.Perm l') : Top value key l' a :=
  ⟨hperm.mem_iff.mp h.mem, h.pos, fun b hb => h.best b (hperm.mem_iff.mpr hb)⟩

/-- Two at the top tie. -/
theorem Top.tie (ha : Top value key l a) (hb : Top value key l b) :
    value a = value b ∧ key a = key b := by
  have hab := ha.best b hb.mem
  have hba := hb.best a ha.mem
  omega

/-- What is made of the leader is the same in all sorted orders of a list exactly if it is the
same for all elements at the top. -/
theorem leader_order_free_iff (f : Option α → β) (l : List α) :
    (∀ l₁ l₂, l₁.Perm l → KeySorted key l₁ → l₂.Perm l → KeySorted key l₂ →
      f (leader value l₁) = f (leader value l₂)) ↔
      ∀ a b, Top value key l a → Top value key l b → f (some a) = f (some b) := by
  constructor
  · intro h a b ha hb
    obtain ⟨l₁, hperm₁, hsorted₁, hlead₁⟩ := exists_leader ha
    obtain ⟨l₂, hperm₂, hsorted₂, hlead₂⟩ := exists_leader hb
    have hsame := h l₁ l₂ hperm₁ hsorted₁ hperm₂ hsorted₂
    rwa [hlead₁, hlead₂] at hsame
  · intro h l₁ l₂ hperm₁ hsorted₁ hperm₂ hsorted₂
    have hnone : ∀ {l₁ l₂ : List α}, l₁.Perm l → l₂.Perm l → leader value l₁ = none →
        leader value l₂ = none := by
      intro l₁ l₂ hperm₁ hperm₂ hlead
      rw [Option.eq_none_iff_forall_ne_some]
      intro a ha
      obtain ⟨_, _, hsplit, hpos, -⟩ := (leader_spec l₂).1 a ha
      have hmem : a ∈ l₂ := hsplit ▸ List.mem_append_right _ List.mem_cons_self
      have hzero := (leader_spec l₁).2 hlead a ((hperm₂.trans hperm₁.symm).mem_iff.mp hmem)
      exact absurd hpos (hzero ▸ Nat.lt_irrefl 0)
    cases h₁ : leader value l₁ with
    | none => rw [hnone hperm₁ hperm₂ h₁]
    | some a =>
        cases h₂ : leader value l₂ with
        | none =>
            rw [hnone hperm₂ hperm₁ h₂] at h₁
            cases h₁
        | some b =>
            exact h a b ((top_of_leader hsorted₁ h₁).perm hperm₁)
              ((top_of_leader hsorted₂ h₂).perm hperm₂)

end Lib
