import Mathlib.Algebra.Order.Group.Defs
import Mathlib.Algebra.Order.Sub.Basic
import Mathlib.Data.List.Nodup

/-!
# Cooldowns

A visit is suppressed if one under the same key was let through less than the cooldown
before. A table that holds the last visit under each key decides so too, and it may drop
every entry that is as old as the cooldown.
-/

namespace Lib

namespace Cooldown

structure Visit (κ T : Type*) where
  key : κ
  time : T
deriving DecidableEq, Repr

variable {κ T : Type*}

/-- What becomes of the visits one after the other: is the visit suppressed? -/
def decisions {σ : Type*} (step : σ → Visit κ T → Bool × σ) : σ → List (Visit κ T) → List Bool
  | _, [] => []
  | s, v :: vs => (step s v).1 :: decisions step (step s v).2 vs

/-- The visits that are let through. -/
def accepted {σ : Type*} (step : σ → Visit κ T → Bool × σ) :
    σ → List (Visit κ T) → List (Visit κ T)
  | _, [] => []
  | s, v :: vs =>
      if (step s v).1 = true then accepted step (step s v).2 vs
      else v :: accepted step (step s v).2 vs

section order

variable [DecidableEq κ] [LinearOrder T] [AddCommGroup T] (cooldown : T)

/-- One of the visits that were let through is under the same key and too close. -/
def Suppressed (past : List (Visit κ T)) (v : Visit κ T) : Prop :=
  ∃ a ∈ past, a.key = v.key ∧ v.time - a.time < cooldown

instance (past : List (Visit κ T)) (v : Visit κ T) : Decidable (Suppressed cooldown past v) :=
  inferInstanceAs (Decidable (∃ a ∈ past, _ ∧ _))

/-- To decide by all the visits that were let through. -/
def history (past : List (Visit κ T)) (v : Visit κ T) : Bool × List (Visit κ T) :=
  if Suppressed cooldown past v then (true, past) else (false, v :: past)

end order

section table

variable [DecidableEq κ] (young keep : T → T → Bool)

/-- To decide by a table: entries that are not to be kept are dropped first. -/
def visit (recent : List (Visit κ T)) (v : Visit κ T) : Bool × List (Visit κ T) :=
  let kept := recent.filter fun a => keep v.time a.time
  match kept.find? fun a => a.key = v.key with
  | some a =>
      if young v.time a.time = true then (true, kept)
      else (false, v :: kept.filter fun b => b.key ≠ v.key)
  | none => (false, v :: kept.filter fun b => b.key ≠ v.key)

variable {young keep} {recent : List (Visit κ T)} {v : Visit κ T}

/-- The visit was suppressed by an entry that was kept; or else it is entered. -/
theorem visit_cases (hkeys : (recent.map Visit.key).Nodup) :
    (∃ a ∈ recent, keep v.time a.time = true ∧ a.key = v.key ∧ young v.time a.time = true ∧
      visit young keep recent v = (true, recent.filter fun a => keep v.time a.time)) ∨
    ((∀ a ∈ recent, keep v.time a.time = true → a.key = v.key → young v.time a.time = false) ∧
      visit young keep recent v = (false,
        v :: (recent.filter fun a => keep v.time a.time).filter fun b => b.key ≠ v.key)) := by
  cases hfind : (recent.filter fun a => keep v.time a.time).find? fun a => a.key = v.key with
  | some a =>
      have hmem := List.mem_filter.mp (List.mem_of_find?_eq_some hfind)
      have hkey : a.key = v.key := by simpa using List.find?_some hfind
      cases hyoung : young v.time a.time with
      | true =>
          exact .inl ⟨a, hmem.1, hmem.2, hkey, hyoung, by simp only [visit, hfind, hyoung, if_true]⟩
      | false =>
          refine .inr ⟨fun b hb _ hbkey => ?_, by simp [visit, hfind, hyoung]⟩
          have hab : b = a := List.inj_on_of_nodup_map hkeys hb hmem.1 (hbkey.trans hkey.symm)
          rw [hab]
          exact hyoung
  | none =>
      refine .inr ⟨fun b hb hkeep hbkey => ?_, by simp only [visit, hfind]⟩
      have hnone := List.find?_eq_none.mp hfind b (List.mem_filter.mpr ⟨hb, hkeep⟩)
      exact absurd hbkey (by simpa using hnone)

/-- Without a young entry under its key the visit is let through. -/
theorem visit_of_free (h : ∀ a ∈ recent, keep v.time a.time = true → a.key = v.key →
      young v.time a.time = false) :
    (visit young keep recent v).1 = false ∧
      ∀ b ∈ (visit young keep recent v).2, b = v ∨ b ∈ recent := by
  have hentered : ∀ b ∈ v :: (recent.filter fun a => keep v.time a.time).filter
      fun b => b.key ≠ v.key, b = v ∨ b ∈ recent := by
    intro b hb
    exact (List.mem_cons.mp hb).imp_right fun hb =>
      List.mem_of_mem_filter (List.mem_of_mem_filter hb)
  cases hfind : (recent.filter fun a => keep v.time a.time).find? fun a => a.key = v.key with
  | some a =>
      have hmem := List.mem_filter.mp (List.mem_of_find?_eq_some hfind)
      have hold := h a hmem.1 hmem.2 (by simpa using List.find?_some hfind)
      simp only [visit, hfind, hold, Bool.false_eq_true, if_false]
      exact ⟨trivial, hentered⟩
  | none =>
      simp only [visit, hfind]
      exact ⟨trivial, hentered⟩

end table

section refinement

variable [DecidableEq κ] [LinearOrder T] [AddCommGroup T] [IsOrderedAddMonoid T] {cooldown : T}
  {young keep : T → T → Bool}

/-- What the table knows of the visits that were let through. -/
structure Knows (cooldown : T) (recent past : List (Visit κ T)) (last : T) : Prop where
  keys : (recent.map Visit.key).Nodup
  sub : ∀ a ∈ recent, a ∈ past
  before : ∀ a ∈ past, a.time ≤ last
  covers : ∀ a ∈ past, (∃ b ∈ recent, b.key = a.key ∧ a.time ≤ b.time) ∨
    cooldown ≤ last - a.time

/-- The rules of a table: whether an entry is younger than the cooldown, and which entries are
kept, among them all that are younger. -/
structure Rules (cooldown : T) (young keep : T → T → Bool) : Prop where
  young_iff : ∀ {now t}, t ≤ now → (young now t = true ↔ now - t < cooldown)
  keep_of_young : ∀ {now t}, t ≤ now → now - t < cooldown → keep now t = true

variable {recent past : List (Visit κ T)} {last : T} {v : Visit κ T}

theorem Knows.step (hrules : Rules cooldown young keep) (h : Knows cooldown recent past last)
    (hv : last ≤ v.time) :
    (visit young keep recent v).1 = (history cooldown past v).1 ∧
      Knows cooldown (visit young keep recent v).2 (history cooldown past v).2 v.time := by
  have hbefore : ∀ a ∈ past, a.time ≤ v.time := fun a ha => (h.before a ha).trans hv
  have hkept : ((recent.filter fun a => keep v.time a.time).map Visit.key).Nodup :=
    h.keys.sublist (List.filter_sublist.map _)
  -- an entry that is dropped is too old to matter
  have hcovers : ∀ a ∈ past, (∃ b ∈ recent.filter fun a => keep v.time a.time,
      b.key = a.key ∧ a.time ≤ b.time) ∨ cooldown ≤ v.time - a.time := by
    intro a ha
    rcases h.covers a ha with ⟨b, hb, hkey, hle⟩ | hold
    · by_cases hyoung : v.time - b.time < cooldown
      · exact .inl ⟨b, List.mem_filter.mpr
          ⟨hb, hrules.keep_of_young (hbefore b (h.sub b hb)) hyoung⟩, hkey, hle⟩
      · exact .inr ((not_lt.mp hyoung).trans (sub_le_sub_left hle _))
    · exact .inr (hold.trans (sub_le_sub_right hv _))
  have hcases := @visit_cases _ _ _ young keep recent v h.keys
  rcases hcases with
    ⟨a, ha, -, hkey, hyoung, hvisit⟩ | ⟨hnone, hvisit⟩
  · have hpast := h.sub a ha
    have hsuppressed : Suppressed cooldown past v :=
      ⟨a, hpast, hkey, (hrules.young_iff (hbefore a hpast)).mp hyoung⟩
    rw [hvisit, history, if_pos hsuppressed]
    exact ⟨rfl, hkept, fun b hb => h.sub b (List.mem_of_mem_filter hb), hbefore, hcovers⟩
  · have hfree : ¬ Suppressed cooldown past v := by
      rintro ⟨a, ha, hkey, hclose⟩
      rcases hcovers a ha with ⟨b, hb, hbkey, hle⟩ | hold
      · obtain ⟨hb, hkeep⟩ := List.mem_filter.mp hb
        have hyoung := (hrules.young_iff (hbefore b (h.sub b hb))).mpr
          ((sub_le_sub_left hle v.time).trans_lt hclose)
        rw [hnone b hb hkeep (hbkey.trans hkey)] at hyoung
        cases hyoung
      · exact absurd hclose (not_lt.mpr hold)
    rw [hvisit, history, if_neg hfree]
    refine ⟨rfl, ?_, ?_, ?_, ?_⟩
    · rw [List.map_cons, List.nodup_cons]
      refine ⟨fun hmem => ?_, hkept.sublist (List.filter_sublist.map _)⟩
      obtain ⟨b, hb, hbkey⟩ := List.mem_map.mp hmem
      simpa [hbkey] using (List.mem_filter.mp hb).2
    · intro a ha
      rcases List.mem_cons.mp ha with rfl | ha
      · exact List.mem_cons_self
      · exact List.mem_cons_of_mem _ (h.sub a (List.mem_of_mem_filter (List.mem_of_mem_filter ha)))
    · exact List.forall_mem_cons.mpr ⟨le_refl _, hbefore⟩
    · refine List.forall_mem_cons.mpr ⟨.inl ⟨v, List.mem_cons_self, rfl, le_refl _⟩, ?_⟩
      intro a ha
      rcases hcovers a ha with ⟨b, hb, hbkey, hle⟩ | hold
      · by_cases hkey : a.key = v.key
        · exact .inl ⟨v, List.mem_cons_self, hkey.symm, hbefore a ha⟩
        · refine .inl ⟨b, List.mem_cons_of_mem _ (List.mem_filter.mpr ⟨hb, ?_⟩), hbkey, hle⟩
          simpa [hbkey] using hkey
      · exact .inr hold

omit [IsOrderedAddMonoid T] [DecidableEq κ] in
theorem knows_nil (last : T) : Knows cooldown ([] : List (Visit κ T)) [] last where
  keys := List.nodup_nil
  sub _ ha := ha
  before := List.forall_mem_nil _
  covers := List.forall_mem_nil _

/-- The table lets through what the whole history does. -/
theorem Knows.run (hrules : Rules cooldown young keep) {visits : List (Visit κ T)}
    (h : Knows cooldown recent past last) (hlast : ∀ v ∈ visits, last ≤ v.time)
    (hordered : visits.Pairwise fun a b => a.time ≤ b.time) :
    decisions (visit young keep) recent visits = decisions (history cooldown) past visits ∧
      accepted (visit young keep) recent visits = accepted (history cooldown) past visits := by
  induction visits generalizing recent past last with
  | nil => exact ⟨rfl, rfl⟩
  | cons v visits ih =>
      rw [List.forall_mem_cons] at hlast
      rw [List.pairwise_cons] at hordered
      obtain ⟨hdecision, hnext⟩ := h.step hrules hlast.1
      obtain ⟨hdecisions, haccepted⟩ := ih hnext hordered.1 hordered.2
      rw [decisions, decisions, accepted, accepted, hdecision, hdecisions, haccepted]
      exact ⟨rfl, rfl⟩

/-- The table decides as the whole history. -/
theorem decisions_visit (hrules : Rules cooldown young keep) {visits : List (Visit κ T)}
    (hordered : visits.Pairwise fun a b => a.time ≤ b.time) :
    decisions (visit young keep) [] visits = decisions (history cooldown) [] visits ∧
      accepted (visit young keep) [] visits = accepted (history cooldown) [] visits := by
  cases visits with
  | nil => exact ⟨rfl, rfl⟩
  | cons v visits =>
      refine (knows_nil v.time).run hrules ?_ hordered
      exact List.forall_mem_cons.mpr ⟨le_refl _, (List.pairwise_cons.mp hordered).1⟩

omit [IsOrderedAddMonoid T] in
theorem accepted_history_of_suppressed (h : Suppressed cooldown past v)
    (visits : List (Visit κ T)) :
    accepted (history cooldown) past (v :: visits) = accepted (history cooldown) past visits := by
  rw [accepted, history, if_pos h]
  rfl

omit [IsOrderedAddMonoid T] in
theorem accepted_history_of_free (h : ¬ Suppressed cooldown past v) (visits : List (Visit κ T)) :
    accepted (history cooldown) past (v :: visits) =
      v :: accepted (history cooldown) (v :: past) visits := by
  rw [accepted, history, if_neg h]
  rfl

omit [IsOrderedAddMonoid T] in
theorem le_of_mem_accepted {visits : List (Visit κ T)} {b : Visit κ T}
    (hb : b ∈ accepted (history cooldown) past visits) :
    ∀ a ∈ past, a.key = b.key → cooldown ≤ b.time - a.time := by
  induction visits generalizing past with
  | nil => cases hb
  | cons v visits ih =>
      intro a ha hkey
      by_cases hv : Suppressed cooldown past v
      · rw [accepted_history_of_suppressed hv] at hb
        exact ih hb a ha hkey
      · rw [accepted_history_of_free hv] at hb
        rcases List.mem_cons.mp hb with rfl | hb
        · exact not_lt.mp fun hclose => hv ⟨a, ha, hkey, hclose⟩
        · exact ih hb a (List.mem_cons_of_mem _ ha) hkey

omit [IsOrderedAddMonoid T] in
/-- Visits under one key that are let through lie apart. -/
theorem accepted_history_apart {visits : List (Visit κ T)} :
    (accepted (history cooldown) past visits).Pairwise fun a b =>
      a.key = b.key → cooldown ≤ b.time - a.time := by
  induction visits generalizing past with
  | nil => exact List.Pairwise.nil
  | cons v visits ih =>
      by_cases hv : Suppressed cooldown past v
      · rw [accepted_history_of_suppressed hv]
        exact ih
      · rw [accepted_history_of_free hv]
        exact List.pairwise_cons.mpr
          ⟨fun b hb => le_of_mem_accepted hb v List.mem_cons_self, ih⟩

end refinement

/-! ## Nothing to suppress -/

section free

variable {σ : Type*} {step : σ → Visit κ T → Bool × σ} (inv : σ → List (Visit κ T) → Prop)

/-- Where no step suppresses, all visits are let through. -/
theorem run_of_free
    (hstep : ∀ s v vs, inv s (v :: vs) → (step s v).1 = false ∧ inv (step s v).2 vs)
    {s : σ} {visits : List (Visit κ T)} (h : inv s visits) :
    decisions step s visits = visits.map (fun _ => false) ∧ accepted step s visits = visits := by
  induction visits generalizing s with
  | nil => exact ⟨rfl, rfl⟩
  | cons v visits ih =>
      obtain ⟨hfree, hnext⟩ := hstep s v visits h
      obtain ⟨hdecisions, haccepted⟩ := ih hnext
      rw [decisions, accepted, hfree, hdecisions, haccepted]
      exact ⟨rfl, rfl⟩

end free

end Cooldown

end Lib
