import Mathlib.Data.List.Perm.Basic
import Mathlib.Data.List.Nodup

/-!
# Lists with a key

A table is a list whose elements have pairwise distinct keys. Deleting by key
splits it: what a call deleted and what it kept are together what was there.
Writing an element replaces the one of its key or adds it at the end, as a Python
dictionary does.
-/

namespace Lib

variable {α κ : Type*} [DecidableEq κ] {key : α → κ}

/-- An element of a table is the one that its key finds. -/
theorem find?_key_of_mem {l : List α} (hnd : (l.map key).Nodup) {x : α} (h : x ∈ l) :
    l.find? (fun y => key y == key x) = some x := by
  induction l with
  | nil => exact absurd h List.not_mem_nil
  | cons y l ih =>
      rw [List.map_cons, List.nodup_cons] at hnd
      rcases List.mem_cons.mp h with rfl | hmem
      · simp
      · have hne : key y ≠ key x := fun heq => hnd.1 (heq ▸ List.mem_map_of_mem hmem)
        rw [List.find?_cons_of_neg (by simpa using hne)]
        exact ih hnd.2 hmem

/-- The elements whose key is not among `ks`. -/
def eraseKeys (key : α → κ) (ks : List κ) (l : List α) : List α :=
  l.filter fun x => !decide (key x ∈ ks)

/-- The elements of `l` whose key is gone in `l'`. -/
def gone (key : α → κ) (l l' : List α) : List α :=
  eraseKeys key (l'.map key) l

theorem eraseKeys_sublist (ks : List κ) (l : List α) : (eraseKeys key ks l).Sublist l :=
  List.filter_sublist

@[simp] theorem eraseKeys_nil (l : List α) : eraseKeys key [] l = l := by
  simp [eraseKeys]

theorem mem_eraseKeys {ks : List κ} {l : List α} {x : α} :
    x ∈ eraseKeys key ks l ↔ x ∈ l ∧ key x ∉ ks := by
  simp [eraseKeys, List.mem_filter]

theorem mem_gone {l l' : List α} {x : α} :
    x ∈ gone key l l' ↔ x ∈ l ∧ key x ∉ l'.map key :=
  mem_eraseKeys

@[simp] theorem gone_self (l : List α) : gone key l l = [] := by
  apply List.eq_nil_iff_forall_not_mem.mpr
  intro x hx
  obtain ⟨hmem, hgone⟩ := mem_gone.mp hx
  exact hgone (List.mem_map_of_mem hmem)

/-- Adding elements with new keys loses nothing. -/
theorem gone_append {l l' added : List α}
    (h : ∀ x ∈ l, ∀ y ∈ added, key x ≠ key y) :
    gone key l (l' ++ added) = gone key l l' := by
  apply List.filter_congr
  intro x hx
  have hnew : key x ∉ added.map key := by
    intro hmem
    obtain ⟨y, hy, heq⟩ := List.mem_map.mp hmem
    exact h x hx y hy heq.symm
  rw [List.map_append]
  simp [hnew]

theorem key_mem_of_mem_gone {ks : List κ} {l : List α} {x : α}
    (h : x ∈ gone key l (eraseKeys key ks l)) : key x ∈ ks := by
  obtain ⟨hmem, hgone⟩ := mem_gone.mp h
  by_contra hne
  exact hgone (List.mem_map_of_mem (mem_eraseKeys.mpr ⟨hmem, hne⟩))

theorem eraseKeys_cons (k : κ) (ks : List κ) (l : List α) :
    eraseKeys key (k :: ks) l = eraseKeys key ks (eraseKeys key [k] l) := by
  rw [eraseKeys, eraseKeys, eraseKeys, List.filter_filter]
  apply List.filter_congr
  intro x _
  simp [Bool.and_comm]

/-- Deleting keys one after the other deletes them all. -/
theorem foldl_eraseKeys (ks : List κ) (l : List α) :
    ks.foldl (fun l k => eraseKeys key [k] l) l = eraseKeys key ks l := by
  induction ks generalizing l with
  | nil => simp
  | cons k ks ih =>
      rw [List.foldl_cons, ih, ← eraseKeys_cons]

/-- A selection by position, deleted by key, leaves the rest. -/
theorem eraseKeys_perm {l selected rest : List α} (h : l.Perm (selected ++ rest))
    (hnd : (l.map key).Nodup) : (eraseKeys key (selected.map key) l).Perm rest := by
  have hsplit : ((selected ++ rest).map key).Nodup := (h.map key).nodup_iff.mp hnd
  rw [List.map_append, List.nodup_append] at hsplit
  have hselected : eraseKeys key (selected.map key) selected = [] := by
    apply List.filter_eq_nil_iff.mpr
    intro x hx
    simpa using ⟨x, hx, rfl⟩
  have hrest : eraseKeys key (selected.map key) rest = rest := by
    apply List.filter_eq_self.mpr
    intro x hx
    rw [Bool.not_eq_true', decide_eq_false_iff_not]
    intro hmem
    exact hsplit.2.2 _ hmem _ (List.mem_map_of_mem hx) rfl
  have hfilter := h.filter fun x => !decide (key x ∈ selected.map key)
  rw [List.filter_append] at hfilter
  change (eraseKeys key (selected.map key) l).Perm
    (eraseKeys key (selected.map key) selected ++ eraseKeys key (selected.map key) rest) at hfilter
  rwa [hselected, hrest, List.nil_append] at hfilter

/-- One key is that of one element at most. -/
theorem length_le_eraseKeys_singleton {l : List α} (hnd : (l.map key).Nodup) (k : κ) :
    l.length ≤ (eraseKeys key [k] l).length + 1 := by
  have hcount : l.countP (fun x => decide (key x ∈ [k])) ≤ 1 := by
    have h := List.nodup_iff_count_le_one.mp hnd k
    rw [List.count, List.countP_map] at h
    refine Nat.le_trans (Nat.le_of_eq ?_) h
    apply List.countP_congr
    intro x _
    simp
  have hsplit := List.length_eq_length_filter_add (l := l) fun x => decide (key x ∈ [k])
  rw [← List.countP_eq_length_filter] at hsplit
  unfold eraseKeys
  omega

/-- A sublist of a table is what its keys select. -/
theorem filter_key_mem {l l' : List α} (hsub : l'.Sublist l) (hnd : (l.map key).Nodup) :
    l.filter (fun x => key x ∈ l'.map key) = l' := by
  induction hsub with
  | slnil => rfl
  | @cons l' l x hsub ih =>
      rw [List.map_cons, List.nodup_cons] at hnd
      have hx : key x ∉ l'.map key := fun hmem => hnd.1 ((hsub.map key).subset hmem)
      rw [List.filter_cons_of_neg (by simpa using hx), ih hnd.2]
  | @cons_cons l' l x hsub ih =>
      rw [List.map_cons, List.nodup_cons] at hnd
      rw [List.filter_cons_of_pos (by simp)]
      congr 1
      refine Eq.trans (List.filter_congr ?_) (ih hnd.2)
      intro y hy
      have hne : key y ≠ key x := fun heq => hnd.1 (heq ▸ List.mem_map_of_mem hy)
      rw [decide_eq_decide, List.map_cons, List.mem_cons, or_iff_right hne]

/-- What is kept and what is gone make up the table. -/
theorem perm_append_gone {l l' : List α} (hsub : l'.Sublist l) (hnd : (l.map key).Nodup) :
    l.Perm (l' ++ gone key l l') := by
  have hsplit := List.filter_append_perm (fun x => decide (key x ∈ l'.map key)) l
  rw [filter_key_mem hsub hnd] at hsplit
  exact hsplit.symm

/-! ## Writing by key -/

/-- Replace the element of the same key, or append. -/
def putKey (key : α → κ) (l : List α) (x : α) : List α :=
  if key x ∈ l.map key then l.map fun y => if key y = key x then x else y else l ++ [x]

theorem putKey_of_notMem {l : List α} {x : α} (h : key x ∉ l.map key) :
    putKey key l x = l ++ [x] :=
  if_neg h

theorem nodup_putKey {l : List α} (hnd : (l.map key).Nodup) (x : α) :
    ((putKey key l x).map key).Nodup := by
  unfold putKey
  split
  · have hkeys : (l.map fun y => if key y = key x then x else y).map key = l.map key := by
      rw [List.map_map]
      apply List.map_congr_left
      intro y _
      by_cases hy : key y = key x
      · simp [hy]
      · simp [hy]
    rw [hkeys]
    exact hnd
  · next hx =>
      rw [List.map_append, List.map_singleton]
      refine List.nodup_append.mpr ⟨hnd, List.nodup_singleton _, ?_⟩
      rintro k hk _ hnew rfl
      exact hx (List.mem_singleton.mp hnew ▸ hk)

/-- Writing the elements of a table one after the other gives the table. -/
theorem foldl_putKey {l acc : List α} (hnd : ((acc ++ l).map key).Nodup) :
    l.foldl (putKey key) acc = acc ++ l := by
  induction l generalizing acc with
  | nil => simp
  | cons x l ih =>
      have hx : key x ∉ acc.map key := by
        rw [List.map_append, List.map_cons] at hnd
        intro hmem
        exact (List.nodup_append.mp hnd).2.2 _ hmem _ List.mem_cons_self rfl
      rw [List.foldl_cons, putKey_of_notMem hx, ih]
      · simp
      · simpa using hnd

/-! ## Association lists -/

section Lookup

variable {β γ : Type*} {k : κ}

theorem lookup_map_snd (f : β → γ) (l : List (κ × β)) :
    (l.map fun x => (x.1, f x.2)).lookup k = (l.lookup k).map f := by
  induction l with
  | nil => rfl
  | cons x l ih =>
      rw [List.map_cons, List.lookup_cons, List.lookup_cons]
      cases k == x.1
      · exact ih
      · rfl

theorem lookup_filter_ne (x : κ) (l : List (κ × β)) :
    (l.filter fun y => y.1 != x).lookup k = if k = x then none else l.lookup k := by
  induction l with
  | nil => simp
  | cons y l ih =>
      rw [List.filter_cons, List.lookup_cons]
      by_cases hy : y.1 = x
      · rw [if_neg (by simp [hy]), ih]
        by_cases hk : k = x
        · rw [if_pos hk, if_pos hk]
        · rw [if_neg hk, if_neg hk, beq_false_of_ne (hy ▸ hk)]
      · rw [if_pos (by simp [hy]), List.lookup_cons, ih]
        by_cases hk : k = x
        · rw [if_pos hk, if_pos hk, beq_false_of_ne (fun h => hy (h.symm.trans hk))]
        · rw [if_neg hk, if_neg hk]

theorem mem_of_lookup {l : List (κ × β)} {b : β} (h : l.lookup k = some b) : (k, b) ∈ l := by
  obtain ⟨l₁, l₂, rfl, -⟩ := List.lookup_eq_some_iff.mp h
  exact List.mem_append_right _ List.mem_cons_self

end Lookup

end Lib
