import AkesoDlp.Lib.Trim

/-!
# Squeezing runs

Every run of a kind becomes one element. Squeezed and trimmed, a list does not tell how
long its runs were, nor whether there was one at either end.
-/

namespace Lib

variable {α β : Type*}

/-- Inside of a run that has been replaced already, or not. -/
def squeezeFrom (p : α → Bool) (sep : α) : (inRun : Bool) → List α → List α
  | _, [] => []
  | inRun, x :: l =>
      if p x then
        if inRun then squeezeFrom p sep true l else sep :: squeezeFrom p sep true l
      else x :: squeezeFrom p sep false l

/-- Every run of elements with `p` as one `sep`. -/
def squeeze (p : α → Bool) (sep : α) (l : List α) : List α := squeezeFrom p sep false l

/-- Whether the list ends inside of a run. -/
def endsInRun (p : α → Bool) (inRun : Bool) (l : List α) : Bool := l.getLast?.elim inRun p

variable {p : α → Bool} {sep : α}

theorem squeezeFrom_append (inRun : Bool) (l m : List α) :
    squeezeFrom p sep inRun (l ++ m) =
      squeezeFrom p sep inRun l ++ squeezeFrom p sep (endsInRun p inRun l) m := by
  induction l generalizing inRun with
  | nil => rfl
  | cons x l ih =>
      have hends : endsInRun p inRun (x :: l) = endsInRun p (p x) l := by
        cases l with
        | nil => rfl
        | cons y l => rfl
      rw [List.cons_append, squeezeFrom, squeezeFrom, hends]
      cases hx : p x <;> cases inRun <;> simp [ih]

theorem squeezeFrom_run {run : List α} (hne : run ≠ []) (hrun : ∀ x ∈ run, p x = true)
    (inRun : Bool) : squeezeFrom p sep inRun run = if inRun then [] else [sep] := by
  have htrue : ∀ rest : List α, (∀ x ∈ rest, p x = true) → squeezeFrom p sep true rest = [] := by
    intro rest hrest
    induction rest with
    | nil => rfl
    | cons x rest ih =>
        rw [List.forall_mem_cons] at hrest
        rw [squeezeFrom, if_pos hrest.1, if_pos rfl, ih hrest.2]
  obtain ⟨x, rest, rfl⟩ := List.exists_cons_of_ne_nil hne
  rw [List.forall_mem_cons] at hrun
  rw [squeezeFrom, if_pos hrun.1, htrue rest hrun.2]

theorem endsInRun_run {run : List α} (hne : run ≠ []) (hrun : ∀ x ∈ run, p x = true)
    (inRun : Bool) : endsInRun p inRun run = true := by
  rw [endsInRun, List.getLast?_eq_some_getLast hne]
  exact hrun _ (List.getLast_mem hne)

theorem endsInRun_append {m : List α} (hne : m ≠ []) (inRun : Bool) (l : List α) :
    endsInRun p inRun (l ++ m) = endsInRun p false m := by
  rw [endsInRun, List.getLast?_append_of_ne_nil _ hne, endsInRun,
    List.getLast?_eq_some_getLast hne]
  rfl

/-- One run or another between the same lists. -/
theorem squeeze_replace_run {run run' : List α} (hne : run ≠ []) (hrun : ∀ x ∈ run, p x = true)
    (hne' : run' ≠ []) (hrun' : ∀ x ∈ run', p x = true) (front back : List α) :
    squeeze p sep (front ++ run' ++ back) = squeeze p sep (front ++ run ++ back) := by
  unfold squeeze
  rw [squeezeFrom_append, squeezeFrom_append, squeezeFrom_append, squeezeFrom_append,
    squeezeFrom_run hne hrun, squeezeFrom_run hne' hrun', endsInRun_append hne,
    endsInRun_append hne', endsInRun_run hne hrun, endsInRun_run hne' hrun']

/-- Squeezing after a run loses the run that the list starts with. -/
theorem trim_squeezeFrom (hsep : p sep = true) (inRun : Bool) (l : List α) :
    trim p (squeezeFrom p sep inRun l) = trim p (squeeze p sep l) := by
  cases inRun with
  | false => rfl
  | true =>
      cases l with
      | nil => rfl
      | cons x l =>
          rw [squeeze, squeezeFrom, squeezeFrom]
          cases hx : p x with
          | false => simp
          | true =>
              have hlead : ∀ y ∈ [sep], p y = true := by simpa using hsep
              rw [if_pos rfl, if_pos rfl, if_pos rfl, if_neg Bool.false_ne_true]
              exact (trim_append_left hlead _).symm

/-- Runs at the ends are trimmed away. -/
theorem trim_squeeze_pad (hsep : p sep = true) {lead trail : List α}
    (hlead : ∀ x ∈ lead, p x = true) (htrail : ∀ x ∈ trail, p x = true) (l : List α) :
    trim p (squeeze p sep (lead ++ l ++ trail)) = trim p (squeeze p sep l) := by
  have hrun : ∀ (run : List α), (∀ x ∈ run, p x = true) → ∀ inRun,
      ∀ x ∈ squeezeFrom p sep inRun run, p x = true := by
    intro run hall inRun x hx
    by_cases hne : run = []
    · subst hne
      exact absurd hx List.not_mem_nil
    · rw [squeezeFrom_run hne hall] at hx
      split at hx
      · exact absurd hx List.not_mem_nil
      · rwa [List.mem_singleton.mp hx]
  rw [squeeze, squeezeFrom_append, squeezeFrom_append, trim_append_right (hrun trail htrail _),
    trim_append_left (hrun lead hlead _), trim_squeezeFrom hsep]

theorem dropWhile_append_cons {x : α} (hx : p x = false) (front back : List α) :
    (front ++ x :: back).dropWhile p = front.dropWhile p ++ x :: back := by
  rw [List.dropWhile_append, List.dropWhile_cons_of_neg (by simp [hx])]
  split
  · next hempty => rw [List.isEmpty_iff.mp hempty, List.nil_append]
  · rfl

/-- What is squeezed and trimmed on the two sides of an element outside of the runs does not
depend on the element. -/
theorem trim_squeeze_append_cons {x : α} (hx : p x = false) (front back : List α) :
    trim p (squeeze p sep (front ++ x :: back)) =
      (squeeze p sep front).dropWhile p ++ x :: (squeeze p sep back).rdropWhile p := by
  have hends : squeeze p sep (front ++ x :: back) =
      squeeze p sep front ++ x :: squeeze p sep back := by
    unfold squeeze
    rw [squeezeFrom_append, squeezeFrom, if_neg (by simp [hx])]
  rw [hends, trim, dropWhile_append_cons hx, List.rdropWhile, List.rdropWhile,
    List.reverse_append, List.reverse_cons, List.append_assoc, List.singleton_append,
    dropWhile_append_cons hx]
  simp

/-- A filter that drops the runs does not see the squeezing. -/
theorem filter_squeeze {q : α → Bool} (hq : ∀ x, p x = true → q x = false) (hsep : q sep = false)
    (l : List α) : (squeeze p sep l).filter q = l.filter q := by
  unfold squeeze
  generalize false = inRun
  induction l generalizing inRun with
  | nil => rfl
  | cons x l ih =>
      rw [squeezeFrom]
      cases hx : p x with
      | false => simp [List.filter_cons, ih]
      | true => cases inRun <;> simp [ih, hq x hx, hsep]

/-- Squeezing and trimming commute with a mapping that keeps the kind. -/
theorem squeeze_map {q : β → Bool} (f : α → β) (hf : ∀ x, q (f x) = p x) (l : List α) :
    squeeze q (f sep) (l.map f) = (squeeze p sep l).map f := by
  unfold squeeze
  generalize false = inRun
  induction l generalizing inRun with
  | nil => rfl
  | cons x l ih =>
      rw [List.map_cons, squeezeFrom, squeezeFrom, hf]
      cases hx : p x <;> cases inRun <;> simp [ih]

end Lib
