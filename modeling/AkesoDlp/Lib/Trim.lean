import Mathlib.Data.List.DropRight

/-!
# Trimming

What is left of a list when the elements of a kind are taken off both ends. The
fields between separators change only at the ends when the list is trimmed.
-/

namespace Lib

variable {α : Type*}

/-- The list without the elements that satisfy `p` at its start and at its end. -/
def trim (p : α → Bool) (l : List α) : List α := (l.dropWhile p).rdropWhile p

/-- No element at either end satisfies `p`. -/
structure Trimmed (p : α → Bool) (l : List α) : Prop where
  head : ∀ x ∈ l.head?, p x = false
  last : ∀ x ∈ l.getLast?, p x = false

section

variable {p q : α → Bool} {l t lead trail : List α}

/-- A list is its trimmed part between two runs of the kind. -/
theorem exists_trim (p : α → Bool) (l : List α) :
    ∃ lead trail, l = lead ++ trim p l ++ trail ∧ (∀ x ∈ lead, p x = true) ∧
      (∀ x ∈ trail, p x = true) := by
  refine ⟨l.takeWhile p, (l.dropWhile p).rtakeWhile p, ?_, fun x => List.mem_takeWhile_imp,
    fun x => List.mem_rtakeWhile_imp⟩
  rw [trim, List.append_assoc, List.rdropWhile_append_rtakeWhile, List.takeWhile_append_dropWhile]

theorem trim_append_left (hlead : ∀ x ∈ lead, p x = true) (l : List α) :
    trim p (lead ++ l) = trim p l := by
  induction lead with
  | nil => rfl
  | cons x lead ih =>
      rw [List.forall_mem_cons] at hlead
      rw [← ih hlead.2, trim, List.cons_append, List.dropWhile_cons_of_pos hlead.1]
      rfl

theorem rdropWhile_append_right (htrail : ∀ x ∈ trail, p x = true) (l : List α) :
    (l ++ trail).rdropWhile p = l.rdropWhile p := by
  induction trail generalizing l with
  | nil => rw [List.append_nil]
  | cons x trail ih =>
      rw [List.forall_mem_cons] at htrail
      rw [List.append_cons, ih htrail.2, List.rdropWhile_concat_pos p l x htrail.1]

theorem trim_append_right (htrail : ∀ x ∈ trail, p x = true) (l : List α) :
    trim p (l ++ trail) = trim p l := by
  rw [trim, trim, List.dropWhile_append]
  split
  · rename_i hempty
    have hall : ∀ x ∈ trail.dropWhile p, p x = true :=
      fun x hx => htrail x ((List.dropWhile_sublist p).subset hx)
    rw [List.isEmpty_iff.mp hempty, List.rdropWhile_nil, List.rdropWhile_eq_nil_iff]
    exact hall
  · exact rdropWhile_append_right htrail _

theorem trim_of_trimmed (h : Trimmed p t) : trim p t = t := by
  have hdrop : t.dropWhile p = t := by
    cases t with
    | nil => rfl
    | cons x rest =>
        have hx : p x = false := h.head x rfl
        exact List.dropWhile_cons_of_neg (by rw [hx]; exact Bool.false_ne_true)
  rw [trim, hdrop, List.rdropWhile_eq_self_iff]
  intro hne
  rw [h.last _ (List.getLast?_eq_some_getLast hne)]
  exact Bool.false_ne_true

/-- The trimmed part is the one between runs of the kind that does not start or end with
it. -/
theorem trim_eq_of_append (h : Trimmed p t) (hlead : ∀ x ∈ lead, p x = true)
    (htrail : ∀ x ∈ trail, p x = true) : trim p (lead ++ t ++ trail) = t := by
  rw [trim_append_right htrail, trim_append_left hlead, trim_of_trimmed h]

theorem trimmed_trim (p : α → Bool) (l : List α) : Trimmed p (trim p l) := by
  constructor
  case last =>
    intro x hx
    obtain ⟨hne, rfl⟩ := List.mem_getLast?_eq_getLast hx
    exact Bool.eq_false_iff.mpr (List.rdropWhile_last_not p _ hne)
  case head =>
    intro x hx
    have hhead : (l.dropWhile p).head? = some x := by
      obtain ⟨rest, hrest⟩ := List.rdropWhile_prefix p (l := l.dropWhile p)
      rw [← hrest, List.head?_append]
      rw [trim] at hx
      rw [hx]
      rfl
    have hne : l.dropWhile p ≠ [] := by
      intro hnil
      rw [hnil] at hhead
      cases hhead
    have hnot := List.head_dropWhile_not p hne
    rw [List.head?_eq_some_head hne] at hhead
    exact Option.some.inj hhead ▸ hnot

theorem mem_trim {x : α} (hx : x ∈ l) (h : p x = false) : x ∈ trim p l := by
  obtain ⟨lead, trail, heq, hlead, htrail⟩ := exists_trim p l
  rw [heq] at hx
  simp only [List.mem_append] at hx
  rcases hx with (hx | hx) | hx
  · exact absurd ((hlead x hx).symm.trans h) (by decide)
  · exact hx
  · exact absurd ((htrail x hx).symm.trans h) (by decide)

theorem mem_of_mem_trim {x : α} (hx : x ∈ trim p l) : x ∈ l := by
  obtain ⟨lead, trail, heq, -, -⟩ := exists_trim p l
  rw [heq]
  exact List.mem_append_left _ (List.mem_append_right _ hx)

/-- A filter that drops the kind does not see the trimming. -/
theorem filter_trim (h : ∀ x, p x = true → q x = false) (l : List α) :
    (trim p l).filter q = l.filter q := by
  obtain ⟨lead, trail, heq, hlead, htrail⟩ := exists_trim p l
  have hnil : ∀ run : List α, (∀ x ∈ run, p x = true) → run.filter q = [] := by
    intro run hrun
    rw [List.filter_eq_nil_iff]
    intro x hx
    rw [h x (hrun x hx)]
    exact Bool.false_ne_true
  conv => rhs; rw [heq]
  rw [List.filter_append, List.filter_append, hnil lead hlead, hnil trail htrail,
    List.nil_append, List.append_nil]

/-- Trimming a larger kind goes no further than to elements outside of it. -/
theorem trim_eq_of_subset (hsub : ∀ x, p x = true → q x = true) (h : Trimmed q (trim p l)) :
    trim q l = trim p l := by
  obtain ⟨lead, trail, heq, hlead, htrail⟩ := exists_trim p l
  conv => lhs; rw [heq]
  exact trim_eq_of_append h (fun x hx => hsub x (hlead x hx)) (fun x hx => hsub x (htrail x hx))

/-- Where the list has no element that only the larger kind has, both trim the same. -/
theorem trim_eq_of_agree (hsame : ∀ x ∈ l, p x = q x) : trim p l = trim q l := by
  obtain ⟨lead, trail, heq, hlead, htrail⟩ := exists_trim q l
  have hmem : ∀ run : List α, (∀ x ∈ run, x ∈ l) → (∀ x ∈ run, q x = true) →
      ∀ x ∈ run, p x = true :=
    fun run hrun hall x hx => (hsame x (hrun x hx)).trans (hall x hx)
  have hsub : (∀ x ∈ lead, x ∈ l) ∧ (∀ x ∈ trail, x ∈ l) := by
    constructor
    · intro x hx
      rw [heq]
      exact List.mem_append_left _ (List.mem_append_left _ hx)
    · intro x hx
      rw [heq]
      exact List.mem_append_right _ hx
  have htrimmed : Trimmed p (trim q l) := by
    have hq := trimmed_trim q l
    constructor
    case head =>
      intro x hx
      rw [hsame x (mem_of_mem_trim (List.mem_of_mem_head? hx))]
      exact hq.head x hx
    case last =>
      intro x hx
      rw [hsame x (mem_of_mem_trim (List.mem_of_mem_getLast? hx))]
      exact hq.last x hx
  conv => lhs; rw [heq]
  exact trim_eq_of_append htrimmed (hmem lead hsub.1 hlead) (hmem trail hsub.2 htrail)

end

/-! ## Fields -/

section

variable [BEq α] [LawfulBEq α] {sep : α} {l : List α}

/-- A field has no separator. -/
theorem notMem_of_mem_splitOn {field : List α} (h : field ∈ l.splitOn sep) : sep ∉ field := by
  induction l generalizing field with
  | nil =>
      rw [List.splitOn_nil] at h
      rw [List.mem_singleton.mp h]
      exact List.not_mem_nil
  | cons x l ih =>
      rw [List.splitOn_cons_eq_if_modifyHead] at h
      split at h
      · rcases List.mem_cons.mp h with rfl | h
        · exact List.not_mem_nil
        · exact ih h
      · rename_i hx
        obtain ⟨first, rest, hsplit⟩ := List.exists_cons_of_ne_nil (List.splitOn_ne_nil sep l)
        rw [hsplit] at h ih
        rw [List.modifyHead_cons] at h
        rcases List.mem_cons.mp h with rfl | h
        · rw [List.mem_cons]
          rintro (rfl | hmem)
          · exact hx (beq_self_eq_true _)
          · exact ih List.mem_cons_self hmem
        · exact ih (List.mem_cons_of_mem _ h)

omit [LawfulBEq α] in
/-- There is one field more than there are separators. -/
theorem length_splitOn (sep : α) (l : List α) : (l.splitOn sep).length = l.count sep + 1 := by
  induction l with
  | nil => simp
  | cons x l ih =>
      rw [List.splitOn_cons_eq_if_modifyHead, List.count_cons]
      split <;> simp [ih]

theorem takeWhile_ne_append (h : sep ∉ l) (r : List α) :
    (l ++ sep :: r).takeWhile (· != sep) = l := by
  have hall : ∀ x ∈ l, (x != sep) = true := by
    intro x hx
    rw [bne_iff_ne]
    rintro rfl
    exact h hx
  rw [List.takeWhile_append_of_pos hall, List.takeWhile_cons_of_neg (by simp), List.append_nil]

theorem dropWhile_ne_append (h : sep ∉ l) (r : List α) :
    (l ++ sep :: r).dropWhile (· != sep) = sep :: r := by
  have hall : ∀ x ∈ l, (x != sep) = true := by
    intro x hx
    rw [bne_iff_ne]
    rintro rfl
    exact h hx
  rw [List.dropWhile_append_of_pos hall, List.dropWhile_cons_of_neg (by simp)]

omit [BEq α] [LawfulBEq α] in
/-- The last separator of a list. -/
theorem exists_last_separator (h : sep ∈ l) :
    ∃ front back, l = front ++ sep :: back ∧ sep ∉ back := by
  obtain ⟨back, front, hreverse, hback⟩ :=
    List.eq_append_cons_of_mem (List.mem_reverse.mpr h)
  refine ⟨front.reverse, back.reverse, ?_, fun hmem => hback (List.mem_reverse.mp hmem)⟩
  have heq := congrArg List.reverse hreverse
  rw [List.reverse_reverse] at heq
  simpa using heq

/-- What is behind the last separator. -/
def lastField (sep : α) (l : List α) : List α := (l.reverse.takeWhile (· != sep)).reverse

theorem lastField_append {back : List α} (h : sep ∉ back) (front : List α) :
    lastField sep (front ++ sep :: back) = back := by
  have hreverse : (front ++ sep :: back).reverse = back.reverse ++ sep :: front.reverse := by
    simp
  rw [lastField, hreverse, takeWhile_ne_append (fun hmem => h (List.mem_reverse.mp hmem)),
    List.reverse_reverse]

/-- The last of the fields. -/
theorem splitOn_last {back : List α} (h : sep ∉ back) (front : List α) :
    ((front ++ sep :: back).splitOn sep).getLast? = some back ∧
      2 ≤ ((front ++ sep :: back).splitOn sep).length := by
  have hpos := List.length_pos_iff.mpr (List.splitOn_ne_nil sep front)
  rw [List.splitOn_append_cons_self, List.splitOn_eq_singleton h, List.getLast?_concat,
    List.length_append, List.length_singleton]
  exact ⟨rfl, by omega⟩

end

/-! ## Renamed elements -/

theorem trim_map {β : Type*} {p : α → Bool} {q : β → Bool} (f : β → α) {l : List β}
    (h : ∀ b ∈ l, p (f b) = q b) : trim p (l.map f) = (trim q l).map f := by
  have hdrop {l : List β} (h : ∀ b ∈ l, p (f b) = q b) :
      (l.map f).dropWhile p = (l.dropWhile q).map f := by
    induction l with
    | nil => rfl
    | cons b l ih =>
        rw [List.forall_mem_cons] at h
        rw [List.map_cons, List.dropWhile_cons, List.dropWhile_cons, h.1, ih h.2]
        split
        · rfl
        · rfl
  have hrest : ∀ b ∈ (l.dropWhile q).reverse, p (f b) = q b := fun b hb =>
    h b ((List.dropWhile_sublist q).subset (List.mem_reverse.mp hb))
  rw [trim, trim, hdrop h, List.rdropWhile, List.rdropWhile, ← List.map_reverse, hdrop hrest,
    List.map_reverse]

theorem splitOn_map {β : Type*} [DecidableEq α] [DecidableEq β] {f : β → α}
    (hf : Function.Injective f) (sep : β) (l : List β) :
    (l.map f).splitOn (f sep) = (l.splitOn sep).map (List.map f) := by
  induction l with
  | nil => simp
  | cons b l ih =>
      rw [List.map_cons, List.splitOn_cons_eq_if_modifyHead, List.splitOn_cons_eq_if_modifyHead, ih]
      by_cases hb : b = sep
      · simp [hb]
      · have hne : f b ≠ f sep := fun h => hb (hf h)
        obtain ⟨first, rest, hsplit⟩ := List.exists_cons_of_ne_nil (List.splitOn_ne_nil sep l)
        simp [hb, hne, hsplit]

end Lib
