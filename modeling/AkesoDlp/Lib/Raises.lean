import Mathlib.Data.List.Basic

/-!
# Computations that raise

Which parts of a computation in `Except` can make it raise: of a sequence the parts that are
reached, of a loop the rounds.
-/

namespace Lib

variable {ε α β : Type}

def Raises (x : Except ε α) : Prop := ∃ e, x = .error e

@[simp] theorem raises_error (e : ε) : Raises (.error e : Except ε α) := ⟨e, rfl⟩

@[simp] theorem not_raises_ok (a : α) : ¬ Raises (.ok a : Except ε α) := by
  rintro ⟨e, he⟩
  cases he

@[simp] theorem not_raises_pure (a : α) : ¬ Raises (pure a : Except ε α) := not_raises_ok a

theorem not_raises_iff {x : Except ε α} : ¬ Raises x ↔ ∃ a, x = .ok a := by
  cases x with
  | error e => simp
  | ok a => simp

/-- A sequence raises where its first part does, or the rest after it. -/
theorem raises_bind {x : Except ε α} {f : α → Except ε β} :
    Raises (x >>= f) ↔ Raises x ∨ ∃ a, x = .ok a ∧ Raises (f a) := by
  cases x with
  | error e => exact iff_of_true ⟨e, rfl⟩ (.inl ⟨e, rfl⟩)
  | ok a =>
      constructor
      · intro h
        exact .inr ⟨a, rfl, h⟩
      · rintro (h | ⟨b, hb, h⟩)
        · exact absurd h (not_raises_ok a)
        · cases hb
          exact h

/-- Where the first part says nothing about whether the rest raises. -/
theorem raises_bind_of_iff {x : Except ε α} {f : α → Except ε β} {q : Prop}
    (hf : ∀ a, Raises (f a) ↔ q) : Raises (x >>= f) ↔ Raises x ∨ q := by
  rw [raises_bind]
  constructor
  · rintro (h | ⟨a, -, h⟩)
    · exact .inl h
    · exact .inr ((hf a).mp h)
  · rintro (h | hq)
    · exact .inl h
    · by_cases h : Raises x
      · exact .inl h
      · obtain ⟨a, ha⟩ := not_raises_iff.mp h
        exact .inr ⟨a, ha, (hf a).mpr hq⟩

theorem raises_bind_of_not {x : Except ε α} {f : α → Except ε β} (hf : ∀ a, ¬ Raises (f a)) :
    Raises (x >>= f) ↔ Raises x :=
  (raises_bind_of_iff fun a => iff_false_intro (hf a)).trans (or_iff_left not_false)

@[simp] theorem raises_map {x : Except ε α} {f : α → β} :
    Raises (x >>= fun a => pure (f a)) ↔ Raises x :=
  raises_bind_of_not fun a => not_raises_pure (f a)

/-! ## Loops -/

/-- A loop whose rounds raise at the elements of a kind. -/
theorem raises_foldlM {f : β → α → Except ε β} {p : α → Prop} :
    ∀ {l : List α} (b : β), (∀ a ∈ l, ∀ b, Raises (f b a) ↔ p a) →
      (Raises (l.foldlM f b) ↔ ∃ a ∈ l, p a)
  | [], b, _ => by simp
  | a :: l, b, h => by
      have htail (b : β) : Raises (l.foldlM f b) ↔ ∃ a ∈ l, p a :=
        raises_foldlM b fun a ha => h a (List.mem_cons_of_mem _ ha)
      rw [List.foldlM_cons, raises_bind_of_iff htail, h a List.mem_cons_self,
        List.exists_mem_cons_iff]

theorem raises_mapM {f : α → Except ε β} :
    ∀ {l : List α}, Raises (l.mapM f) ↔ ∃ a ∈ l, Raises (f a)
  | [] => by simp
  | a :: l => by
      have htail (b : β) : Raises (l.mapM f >>= fun bs => pure (b :: bs)) ↔
          ∃ a ∈ l, Raises (f a) :=
        raises_map.trans raises_mapM
      rw [List.mapM_cons, raises_bind_of_iff htail, List.exists_mem_cons_iff]

theorem mem_of_mapM_eq_ok {f : α → Except ε β} :
    ∀ {l : List α} {bs : List β}, l.mapM f = .ok bs → ∀ {b}, b ∈ bs ↔ ∃ a ∈ l, f a = .ok b
  | [], bs, h, b => by
      cases h
      simp
  | a :: l, bs, h, b => by
      rw [List.mapM_cons] at h
      cases ha : f a with
      | error e =>
          rw [ha] at h
          cases h
      | ok b' =>
          cases hl : l.mapM f with
          | error e =>
              rw [ha, hl] at h
              cases h
          | ok bs' =>
              rw [ha, hl] at h
              cases h
              rw [List.mem_cons, List.exists_mem_cons_iff, mem_of_mapM_eq_ok hl, ha,
                Except.ok.injEq, eq_comm]

/-- A loop that extends a list in each round. -/
def gather (f : α → Except ε (List β)) (l : List α) : Except ε (List β) := do
  let parts ← l.mapM f
  return parts.flatten

theorem raises_gather {f : α → Except ε (List β)} {l : List α} :
    Raises (gather f l) ↔ ∃ a ∈ l, Raises (f a) := by
  rw [gather, raises_map, raises_mapM]

/-- It returns a list with this element. -/
def Yields (x : Except ε (List β)) (b : β) : Prop := ∃ bs, x = .ok bs ∧ b ∈ bs

@[simp] theorem not_yields_error {e : ε} {b : β} : ¬ Yields (.error e) b := by
  rintro ⟨bs, h, -⟩
  cases h

@[simp] theorem yields_ok {bs : List β} {b : β} :
    Yields (.ok bs : Except ε (List β)) b ↔ b ∈ bs := by
  simp [Yields]

theorem Yields.not_raises {x : Except ε (List β)} {b : β} (h : Yields x b) : ¬ Raises x := by
  obtain ⟨bs, rfl, -⟩ := h
  exact not_raises_ok bs

/-- A loop has the results of all its rounds, if none of them raises. -/
theorem yields_gather {f : α → Except ε (List β)} {l : List α} {b : β} :
    Yields (gather f l) b ↔ (∀ a ∈ l, ¬ Raises (f a)) ∧ ∃ a ∈ l, Yields (f a) b := by
  have hraises : Raises (gather f l) ↔ ∃ a ∈ l, Raises (f a) := raises_gather
  unfold gather at hraises ⊢
  cases hl : l.mapM f with
  | error e =>
      rw [hl] at hraises
      refine iff_of_false not_yields_error fun h => ?_
      obtain ⟨a, ha, hraise⟩ := hraises.mp (raises_error e)
      exact h.1 a ha hraise
  | ok parts =>
      rw [hl] at hraises
      change Yields (.ok parts.flatten) b ↔ _
      rw [yields_ok, List.mem_flatten]
      simp only [mem_of_mapM_eq_ok hl]
      constructor
      · rintro ⟨part, ⟨a, ha, hpart⟩, hb⟩
        refine ⟨fun a ha hraise => ?_, a, ha, part, hpart, hb⟩
        exact not_raises_ok _ (hraises.mpr ⟨a, ha, hraise⟩)
      · rintro ⟨-, a, ha, part, hpart, hb⟩
        exact ⟨part, ⟨a, ha, hpart⟩, hb⟩

theorem not_raises_of_gather {f : α → Except ε (List β)} {l : List α}
    (h : ¬ Raises (gather f l)) {a : α} (ha : a ∈ l) : ¬ Raises (f a) :=
  fun hraise => h (raises_gather.mpr ⟨a, ha, hraise⟩)

theorem yields_gather_of_mem {f : α → Except ε (List β)} {l : List α}
    (h : ¬ Raises (gather f l)) {a : α} (ha : a ∈ l) {b : β} (hb : Yields (f a) b) :
    Yields (gather f l) b :=
  yields_gather.mpr ⟨fun _ => not_raises_of_gather h, a, ha, hb⟩

end Lib
