import Mathlib.Data.List.Basic
import Mathlib.Algebra.GroupWithZero.Nat

/-!
# Sweeps of a tree

A tree is given by a function that opens its nodes: a leaf does not open, an inner
node has children. A sweep visits the leaves in order, down to a bounded depth. It
may read another node in a child's place or fail to read the child, and a node may
fail to open. A child that fails ends the visit of its siblings, and a visit can
also break the whole sweep off. The main result says which trees are swept to the
last leaf all the same.
-/

namespace Lib

namespace Sweep

/-- What a sweep reads for a child. -/
inductive Reading (N : Type*)
  | skips
  | fails
  | node (n : N)
deriving DecidableEq

/-- A child: the node that it is, if it is sound, the one that is read, and a weight. -/
structure Child (N W : Type*) where
  own : Option N
  reading : Reading N
  weight : W

/-- How a visit ends: a failure ends the visit of the siblings, an escape the sweep. -/
inductive Ending
  | normal
  | failed
  | escaped
deriving DecidableEq, Repr

/-- A failure goes no further than the node that it happens in. -/
def Ending.contained : Ending → Ending
  | .failed => .normal
  | .normal => .normal
  | .escaped => .escaped

/-- An inner node; its children are visited if opening it ends normally. -/
structure Opened (N W : Type*) where
  children : List (Child N W)
  opening : Ending

/-- The children that are visited. -/
def Opened.visits {N W : Type*} (o : Opened N W) : List (Child N W) :=
  match o.opening with
  | .normal => o.children
  | .failed | .escaped => []

/-- A leaf and the way to it: the place of each node among its siblings. -/
structure Leaf (N : Type*) where
  node : N
  trail : List (Nat × N)
deriving DecidableEq

section Children

variable {N W L : Type*}

/-- The end of a visit to the children, by the ends of their visits. -/
def firstEnding (ending : Child N W → Ending) : List (Child N W) → Ending
  | [] => .normal
  | c :: cs =>
      match ending c with
      | .normal => firstEnding ending cs
      | .failed => .failed
      | .escaped => .escaped

/-- What the children contribute, numbered from `i` on, up to one that stops. -/
def collect (visit : Child N W → Nat → List L) (stops : Child N W → Bool) :
    Nat → List (Child N W) → List L
  | _, [] => []
  | i, c :: cs => visit c i ++ if stops c then [] else collect visit stops (i + 1) cs

end Children

section Tree

variable {N W : Type*} (view : N → Option (Opened N W))

/-- The end of the visit to a child. -/
def childEnding (ending : N → Ending) (c : Child N W) : Ending :=
  match c.reading with
  | .skips => .normal
  | .fails => .failed
  | .node n => ending n

/-- How opening a node and visiting its children ends. -/
def Opened.ending (ending : N → Ending) (o : Opened N W) : Ending :=
  match o.opening with
  | .normal => firstEnding (childEnding ending) o.children
  | .failed => .failed
  | .escaped => .escaped

/-- How the visit to a node ends; a node that is too deep breaks the sweep off. -/
def ending : Nat → N → Ending
  | 0, _ => .escaped
  | levels + 1, n =>
      match view n with
      | none => .normal
      | some o => (o.ending (ending levels)).contained

/-- The leaves that a child contributes to the tree. -/
def childLeaves (leaves : N → List (Nat × N) → List (Leaf N)) (trail : List (Nat × N))
    (c : Child N W) (i : Nat) : List (Leaf N) :=
  match c.own with
  | none => []
  | some n => leaves n (trail ++ [(i, n)])

/-- The leaves of a tree. -/
def leaves : Nat → N → List (Nat × N) → List (Leaf N)
  | 0, _, _ => []
  | levels + 1, n, trail =>
      match view n with
      | none => [⟨n, trail⟩]
      | some o => collect (childLeaves (leaves levels) trail) (fun _ => false) 0 o.children

/-- The leaves that a child contributes to the sweep. -/
def childVisits (visits : N → List (Nat × N) → List (Leaf N)) (trail : List (Nat × N))
    (c : Child N W) (i : Nat) : List (Leaf N) :=
  match c.reading with
  | .skips | .fails => []
  | .node n => visits n (trail ++ [(i, n)])

def stops (ending : N → Ending) (c : Child N W) : Bool := childEnding ending c ≠ .normal

/-- The leaves that the sweep visits. -/
def visits : Nat → N → List (Nat × N) → List (Leaf N)
  | 0, _, _ => []
  | levels + 1, n, trail =>
      match view n with
      | none => [⟨n, trail⟩]
      | some o =>
          collect (childVisits (visits levels) trail) (stops (ending view levels)) 0 o.visits

def childHoldsLeaf (holdsLeaf : N → Bool) (c : Child N W) : Bool := c.own.any holdsLeaf

/-- The tree has a leaf. -/
def holdsLeaf : Nat → N → Bool
  | 0, _ => false
  | levels + 1, n =>
      match view n with
      | none => true
      | some o => o.children.any (childHoldsLeaf (holdsLeaf levels))

/-- A child with leaves is read as itself, and nothing is hidden in it. -/
def childShown [DecidableEq N] (holdsLeaf shown : N → Bool) (c : Child N W) : Bool :=
  c.own.all fun n => !holdsLeaf n || (c.reading = .node n && shown n)

/-- No child with leaves comes after one that stops. -/
def noneAfterStop (holdsLeaf stops : Child N W → Bool) : List (Child N W) → Bool
  | [] => true
  | c :: cs => (!stops c || cs.all (!holdsLeaf ·)) && noneAfterStop holdsLeaf stops cs

/-- Nothing is hidden: a node that does not open normally holds no leaf, a child
with leaves is read as itself and comes after none that stops. -/
def nothingHidden [DecidableEq N] : Nat → N → Bool
  | 0, _ => true
  | levels + 1, n =>
      match view n with
      | none => true
      | some o =>
          match o.opening with
          | .normal =>
              o.children.all (childShown (holdsLeaf view levels) (nothingHidden levels)) &&
                noneAfterStop (childHoldsLeaf (holdsLeaf view levels))
                  (stops (ending view levels)) o.children
          | .failed | .escaped => o.children.all (!childHoldsLeaf (holdsLeaf view levels) ·)

/-- The weight of a child with what is below it. -/
def childTotal (weight : W → Nat) (total : N → Nat) (c : Child N W) : Nat :=
  weight c.weight +
    match c.reading with
    | .skips | .fails => 0
    | .node n => total n

/-- The sum of a weight over all children that a complete sweep visits. -/
def total (weight : W → Nat) : Nat → N → Nat
  | 0, _ => 0
  | levels + 1, n =>
      match view n with
      | none => 0
      | some o => (o.visits.map (childTotal weight (total weight levels))).sum

def childFits (bad : W → Bool) (fits : N → Bool) (c : Child N W) : Bool :=
  !bad c.weight &&
    match c.reading with
    | .skips | .fails => true
    | .node n => fits n

/-- A complete sweep meets no child that is `bad` and no node too deep. -/
def fits (bad : W → Bool) : Nat → N → Bool
  | 0, _ => false
  | levels + 1, n =>
      match view n with
      | none => true
      | some o => o.visits.all (childFits bad (fits bad levels))

/-- The child is a sound node with a sound tree, or nothing that the tree counts. -/
def childIntact [DecidableEq N] (intact : N → Bool) (c : Child N W) : Bool :=
  match c.own with
  | none => c.reading = .skips
  | some n => intact n

/-- Every node of the tree opens and every child in it is sound. -/
def intact [DecidableEq N] : Nat → N → Bool
  | 0, _ => false
  | levels + 1, n =>
      match view n with
      | none => true
      | some o => o.opening = .normal && o.children.all (childIntact (intact levels))

def childClear [DecidableEq N] (clear : N → Bool) (c : Child N W) : Bool :=
  c.own.all fun n => c.reading = .node n && clear n

/-- Every node of the tree is `ok`, and every child is read as itself. -/
def clear [DecidableEq N] (ok : N → Bool) : Nat → N → Bool
  | 0, _ => true
  | levels + 1, n =>
      ok n &&
        match view n with
        | none => true
        | some o => o.children.all (childClear (clear ok levels))

end Tree

/-! ## What a sweep misses -/

section Missed

variable {N W : Type*} {view : N → Option (Opened N W)}

theorem collect_all_cons {L : Type*} (visit : Child N W → Nat → List L) (i : Nat)
    (c : Child N W) (cs : List (Child N W)) :
    collect visit (fun _ => false) i (c :: cs) =
      visit c i ++ collect visit (fun _ => false) (i + 1) cs := rfl

theorem collect_stops_cons {L : Type*} (visit : Child N W → Nat → List L) (f : N → Ending)
    (i : Nat) (c : Child N W) (cs : List (Child N W)) :
    collect visit (stops f) i (c :: cs) =
      visit c i ++ match childEnding f c with
        | .normal => collect visit (stops f) (i + 1) cs
        | .failed | .escaped => [] := by
  rw [collect, stops]
  cases childEnding f c <;> rfl

theorem mem_collect {L : Type*} {visit : Child N W → Nat → List L} {stops : Child N W → Bool}
    {i : Nat} {cs : List (Child N W)} {l : L} (h : l ∈ collect visit stops i cs) :
    ∃ c ∈ cs, ∃ j, i ≤ j ∧ l ∈ visit c j := by
  induction cs generalizing i with
  | nil => cases h
  | cons c cs ih =>
      rw [collect, List.mem_append] at h
      rcases h with h | h
      · exact ⟨c, List.mem_cons_self, i, Nat.le_refl i, h⟩
      · split at h
        · cases h
        · obtain ⟨c', hc', j, hj, hl⟩ := ih h
          exact ⟨c', List.mem_cons_of_mem c hc', j, by omega, hl⟩

theorem mem_childLeaves {f : N → List (Nat × N) → List (Leaf N)} {trail : List (Nat × N)}
    {c : Child N W} {i : Nat} {l : Leaf N} (h : l ∈ childLeaves f trail c i) :
    ∃ n, c.own = some n ∧ l ∈ f n (trail ++ [(i, n)]) := by
  unfold childLeaves at h
  split at h
  · cases h
  · next n hn => exact ⟨n, hn, h⟩

theorem mem_childVisits {f : N → List (Nat × N) → List (Leaf N)} {trail : List (Nat × N)}
    {c : Child N W} {i : Nat} {l : Leaf N} (h : l ∈ childVisits f trail c i) :
    ∃ n, c.reading = .node n ∧ l ∈ f n (trail ++ [(i, n)]) := by
  unfold childVisits at h
  split at h
  · cases h
  · cases h
  · next n hn => exact ⟨n, hn, h⟩

theorem leaves_trail {levels : Nat} {n : N} {trail : List (Nat × N)} {l : Leaf N}
    (h : l ∈ leaves view levels n trail) : trail <+: l.trail := by
  induction levels generalizing n trail with
  | zero => cases h
  | succ levels ih =>
      rw [leaves] at h
      split at h
      · rw [List.mem_singleton] at h
        exact h ▸ List.prefix_rfl
      · obtain ⟨c, -, i, -, hl⟩ := mem_collect h
        obtain ⟨m, -, hl⟩ := mem_childLeaves hl
        exact (List.prefix_append trail _).trans (ih hl)

theorem visits_trail {levels : Nat} {n : N} {trail : List (Nat × N)} {l : Leaf N}
    (h : l ∈ visits view levels n trail) : trail <+: l.trail := by
  induction levels generalizing n trail with
  | zero => cases h
  | succ levels ih =>
      rw [visits] at h
      split at h
      · rw [List.mem_singleton] at h
        exact h ▸ List.prefix_rfl
      · obtain ⟨c, -, i, -, hl⟩ := mem_collect h
        obtain ⟨m, -, hl⟩ := mem_childVisits hl
        exact (List.prefix_append trail _).trans (ih hl)

/-- A trail goes on in one way. -/
theorem next_unique {trail u : List (Nat × N)} {x y : Nat × N} (hx : trail ++ [x] <+: u)
    (hy : trail ++ [y] <+: u) : x = y := by
  have heq : trail ++ [x] = trail ++ [y] :=
    (List.prefix_of_prefix_length_le hx hy (by simp)).eq_of_length (by simp)
  exact List.cons.inj (List.append_cancel_left heq) |>.1

/-- A leaf of the tree that lies in a child is not met in a later one. -/
theorem notMem_collect_visits {levels : Nat} {trail : List (Nat × N)} {i j : Nat} (hij : i < j)
    {c : Child N W} {cs : List (Child N W)} {stops : Child N W → Bool} {l : Leaf N}
    (h : l ∈ childLeaves (leaves view levels) trail c i) :
    l ∉ collect (childVisits (visits view levels) trail) stops j cs := by
  intro hl
  obtain ⟨n, -, hn⟩ := mem_childLeaves h
  obtain ⟨c', -, k, hk, hl⟩ := mem_collect hl
  obtain ⟨m, -, hm⟩ := mem_childVisits hl
  have heq := next_unique (leaves_trail hn) (visits_trail hm)
  have hplace : i = k := congrArg Prod.fst heq
  omega

/-- A leaf of the tree that lies in a later child is not met in this one. -/
theorem notMem_childVisits {levels : Nat} {trail : List (Nat × N)} {i j : Nat} (hij : i < j)
    {c : Child N W} {cs : List (Child N W)} {stops : Child N W → Bool} {l : Leaf N}
    (h : l ∈ collect (childLeaves (leaves view levels) trail) stops j cs) :
    l ∉ childVisits (visits view levels) trail c i := by
  intro hl
  obtain ⟨c', -, k, hk, hn⟩ := mem_collect h
  obtain ⟨n, -, hn⟩ := mem_childLeaves hn
  obtain ⟨m, -, hm⟩ := mem_childVisits hl
  have heq := next_unique (leaves_trail hn) (visits_trail hm)
  have hplace : k = i := congrArg Prod.fst heq
  omega

theorem collect_leaves_eq_nil_iff {L : Type*} {visit : Child N W → Nat → List L}
    {holds : Child N W → Bool} (h : ∀ c i, visit c i = [] ↔ holds c = false) (i : Nat)
    (cs : List (Child N W)) :
    collect visit (fun _ => false) i cs = [] ↔ ∀ c ∈ cs, holds c = false := by
  induction cs generalizing i with
  | nil => simp [collect]
  | cons c cs ih =>
      rw [collect, List.append_eq_nil_iff, h, List.forall_mem_cons]
      exact and_congr_right fun _ => ih (i + 1)

theorem childLeaves_eq_nil_iff {f : N → List (Nat × N) → List (Leaf N)} {g : N → Bool}
    (h : ∀ n trail, f n trail = [] ↔ g n = false) (trail : List (Nat × N)) (c : Child N W)
    (i : Nat) : childLeaves f trail c i = [] ↔ childHoldsLeaf g c = false := by
  unfold childLeaves childHoldsLeaf
  cases c.own with
  | none => simp
  | some n => simpa using h n _

theorem leaves_eq_nil_iff (levels : Nat) (n : N) (trail : List (Nat × N)) :
    leaves view levels n trail = [] ↔ holdsLeaf view levels n = false := by
  induction levels generalizing n trail with
  | zero => simp [leaves, holdsLeaf]
  | succ levels ih =>
      rw [leaves, holdsLeaf]
      cases view n with
      | none => simp
      | some o =>
          show collect _ _ 0 o.children = [] ↔ o.children.any _ = false
          rw [collect_leaves_eq_nil_iff (childLeaves_eq_nil_iff ih trail)]
          simp

/-- No leaf of the children is left to be met exactly when none of them holds one. -/
theorem noLeaves_iff (levels : Nat) (trail : List (Nat × N)) (i : Nat) (cs : List (Child N W)) :
    (∀ l ∈ collect (childLeaves (leaves view levels) trail) (fun _ => false) i cs,
        l ∈ ([] : List (Leaf N))) ↔
      ∀ c ∈ cs, childHoldsLeaf (holdsLeaf view levels) c = false := by
  rw [← collect_leaves_eq_nil_iff (childLeaves_eq_nil_iff (leaves_eq_nil_iff levels) trail) i,
    List.eq_nil_iff_forall_not_mem]
  simp

/-- A child's leaves are all met when it is read as itself and all are met in it. -/
theorem childLeaves_subset_iff [DecidableEq N] {levels : Nat}
    (ih : ∀ n trail, (∀ l ∈ leaves view levels n trail, l ∈ visits view levels n trail) ↔
      nothingHidden view levels n = true) (trail : List (Nat × N)) (c : Child N W) (i : Nat) :
    (∀ l ∈ childLeaves (leaves view levels) trail c i,
        l ∈ childVisits (visits view levels) trail c i) ↔
      childShown (holdsLeaf view levels) (nothingHidden view levels) c = true := by
  unfold childLeaves childShown
  cases c.own with
  | none => simp
  | some n =>
      show (∀ l ∈ leaves view levels n (trail ++ [(i, n)]), _) ↔ _
      rw [Option.all_some, Bool.or_eq_true, Bool.not_eq_true', Bool.and_eq_true,
        decide_eq_true_eq, ← ih n (trail ++ [(i, n)])]
      cases hholds : holdsLeaf view levels n with
      | false =>
          rw [(leaves_eq_nil_iff levels n _).mpr hholds]
          simp
      | true =>
          have hne : leaves view levels n (trail ++ [(i, n)]) ≠ [] := by
            rw [Ne, leaves_eq_nil_iff, hholds]
            decide
          obtain ⟨l, hl⟩ := List.exists_mem_of_ne_nil _ hne
          constructor
          · intro h
            obtain ⟨m, hm, hlm⟩ := mem_childVisits (h l hl)
            have heq := next_unique (leaves_trail hl) (visits_trail hlm)
            have hnm : n = m := congrArg Prod.snd heq
            subst hnm
            rw [childVisits, hm] at h
            exact .inr ⟨hm, h⟩
          · rintro (h | ⟨hread, h⟩)
            · cases h
            · rw [childVisits, hread]
              exact h

theorem childShown_of_holdsNone [DecidableEq N] {holds shown : N → Bool} {c : Child N W}
    (h : childHoldsLeaf holds c = false) : childShown holds shown c = true := by
  unfold childHoldsLeaf at h
  unfold childShown
  cases hown : c.own with
  | none => rfl
  | some n =>
      rw [hown, Option.any_some] at h
      simp [h]

theorem noneAfterStop_of_holdsNone {holds stops : Child N W → Bool} {cs : List (Child N W)}
    (h : ∀ c ∈ cs, holds c = false) : noneAfterStop holds stops cs = true := by
  induction cs with
  | nil => rfl
  | cons c cs ih =>
      rw [List.forall_mem_cons] at h
      rw [noneAfterStop, ih h.2, Bool.and_true, Bool.or_eq_true, List.all_eq_true]
      refine .inr fun c' hc' => ?_
      rw [h.2 c' hc']
      rfl

/-- After a child that stops, the leaves are all met when there are none. -/
theorem later_of_stop_iff [DecidableEq N] {levels : Nat} {shown : N → Bool}
    {stops : Child N W → Bool} (trail : List (Nat × N)) (i : Nat) (cs : List (Child N W)) :
    (∀ l ∈ collect (childLeaves (leaves view levels) trail) (fun _ => false) i cs,
        l ∈ ([] : List (Leaf N))) ↔
      (cs.all (childShown (holdsLeaf view levels) shown) = true ∧
        (∀ c ∈ cs, childHoldsLeaf (holdsLeaf view levels) c = false) ∧
          noneAfterStop (childHoldsLeaf (holdsLeaf view levels)) stops cs = true) := by
  rw [noLeaves_iff]
  constructor
  · intro hnone
    exact ⟨List.all_eq_true.mpr fun c hc => childShown_of_holdsNone (hnone c hc), hnone,
      noneAfterStop_of_holdsNone hnone⟩
  · rintro ⟨-, hnone, -⟩
    exact hnone

/-- The leaves of the children, one child at a time. -/
theorem collect_subset_iff [DecidableEq N] {levels : Nat}
    (ih : ∀ n trail, (∀ l ∈ leaves view levels n trail, l ∈ visits view levels n trail) ↔
      nothingHidden view levels n = true) (trail : List (Nat × N)) (i : Nat)
    (cs : List (Child N W)) :
    (∀ l ∈ collect (childLeaves (leaves view levels) trail) (fun _ => false) i cs,
        l ∈ collect (childVisits (visits view levels) trail) (stops (ending view levels)) i cs) ↔
      (cs.all (childShown (holdsLeaf view levels) (nothingHidden view levels)) &&
        noneAfterStop (childHoldsLeaf (holdsLeaf view levels)) (stops (ending view levels)) cs) =
          true := by
  induction cs generalizing i with
  | nil => simp [collect, noneAfterStop]
  | cons c cs ihcs =>
      rw [collect_all_cons, List.forall_mem_append]
      -- this child's leaves can only be met in it, the later ones only in later children
      have hhere : (∀ l ∈ childLeaves (leaves view levels) trail c i,
            l ∈ collect (childVisits (visits view levels) trail) (stops (ending view levels)) i
              (c :: cs)) ↔
          childShown (holdsLeaf view levels) (nothingHidden view levels) c = true := by
        rw [← childLeaves_subset_iff ih trail c i]
        refine forall_congr' fun l => imp_congr_right fun hl => ?_
        rw [collect, List.mem_append]
        refine or_iff_left fun hlater => ?_
        split at hlater
        · cases hlater
        · exact notMem_collect_visits (Nat.lt_succ_self i) hl hlater
      have hlater : (∀ l ∈ collect (childLeaves (leaves view levels) trail) (fun _ => false)
              (i + 1) cs,
            l ∈ collect (childVisits (visits view levels) trail) (stops (ending view levels)) i
              (c :: cs)) ↔
          (cs.all (childShown (holdsLeaf view levels) (nothingHidden view levels)) &&
            noneAfterStop (childHoldsLeaf (holdsLeaf view levels)) (stops (ending view levels))
              (c :: cs)) = true := by
        have hrest : ∀ l ∈ collect (childLeaves (leaves view levels) trail) (fun _ => false)
              (i + 1) cs,
            (l ∈ collect (childVisits (visits view levels) trail) (stops (ending view levels)) i
                (c :: cs) ↔
              l ∈ if stops (ending view levels) c then [] else
                collect (childVisits (visits view levels) trail) (stops (ending view levels))
                  (i + 1) cs) := by
          intro l hl
          rw [collect, List.mem_append]
          exact or_iff_right (notMem_childVisits (Nat.lt_succ_self i) hl)
        rw [forall₂_congr hrest, noneAfterStop]
        cases hstops : stops (ending view levels) c with
        | false => simpa using ihcs (i + 1)
        | true =>
            rw [if_pos rfl]
            simpa using later_of_stop_iff trail (i + 1) cs
      rw [hhere, hlater, List.all_cons]
      simp only [Bool.and_eq_true, and_assoc]

/-- **What a sweep misses.** All leaves of a tree are visited exactly when nothing is
hidden in it. -/
theorem leaves_subset_visits_iff [DecidableEq N] (view : N → Option (Opened N W)) (levels : Nat)
    (n : N) (trail : List (Nat × N)) :
    (∀ l ∈ leaves view levels n trail, l ∈ visits view levels n trail) ↔
      nothingHidden view levels n = true := by
  induction levels generalizing n trail with
  | zero => simp [leaves, nothingHidden]
  | succ levels ih =>
      rw [leaves, visits, nothingHidden]
      cases view n with
      | none => simp
      | some o =>
          have hlost : (∀ l ∈ collect (childLeaves (leaves view levels) trail) (fun _ => false) 0
                o.children, l ∈ ([] : List (Leaf N))) ↔
              o.children.all (!childHoldsLeaf (holdsLeaf view levels) ·) = true := by
            rw [noLeaves_iff]
            simp
          simp only [Opened.visits]
          cases o.opening with
          | normal => exact collect_subset_iff ih trail 0 o.children
          | failed => exact hlost
          | escaped => exact hlost

end Missed

/-! ## Sweeps of intact trees -/

section Intact

variable {N W : Type*}

/-- What a sweep does below a node as it is described by another view of the tree. -/
structure SweptAs (view truth : N → Option (Opened N W)) (bad : W → Bool) (levels : Nat) (n : N) :
    Prop where
  visits : ∀ trail, visits view levels n trail = leaves truth levels n trail
  ending : ending view levels n = .normal
  fits : fits view bad levels n = true
  total : ∀ weight, total view weight levels n = total truth weight levels n

variable {view truth : N → Option (Opened N W)} {bad : W → Bool} {levels : Nat}

/-- The same for a child. -/
structure ChildSweptAs (view truth : N → Option (Opened N W)) (bad : W → Bool) (levels : Nat)
    (c : Child N W) : Prop where
  visits : ∀ trail i, childVisits (visits view levels) trail c i =
    childLeaves (leaves truth levels) trail c i
  ending : childEnding (ending view levels) c = .normal
  fits : childFits bad (fits view bad levels) c = true
  total : ∀ weight, childTotal weight (total view weight levels) c =
    childTotal weight (total truth weight levels) c

theorem SweptAs.child {c : Child N W} {n : N} (h : SweptAs view truth bad levels n)
    (hown : c.own = some n) (hread : c.reading = .node n) (hbad : bad c.weight = false) :
    ChildSweptAs view truth bad levels c := by
  constructor
  · intro trail i
    rw [childVisits, childLeaves, hread, hown]
    exact h.visits _
  · rw [childEnding, hread]
    exact h.ending
  · rw [childFits, hread, hbad]
    exact h.fits
  · intro weight
    rw [childTotal, childTotal, hread]
    exact congrArg (weight c.weight + ·) (h.total weight)

theorem childSweptAs_skips {c : Child N W} (hown : c.own = none) (hread : c.reading = .skips)
    (hbad : bad c.weight = false) : ChildSweptAs view truth bad levels c := by
  constructor
  · intro trail i
    rw [childVisits, childLeaves, hread, hown]
  · rw [childEnding, hread]
  · rw [childFits, hread, hbad]
    rfl
  · intro weight
    rw [childTotal, childTotal, hread]

theorem collect_congr {L : Type*} {visit visit' : Child N W → Nat → List L} {f : N → Ending}
    {cs : List (Child N W)} (hvisit : ∀ c ∈ cs, ∀ i, visit c i = visit' c i)
    (hending : ∀ c ∈ cs, childEnding f c = .normal) (i : Nat) :
    collect visit (stops f) i cs = collect visit' (fun _ => false) i cs := by
  induction cs generalizing i with
  | nil => rfl
  | cons c cs ih =>
      rw [List.forall_mem_cons] at hvisit hending
      rw [collect_stops_cons, collect_all_cons, hvisit.1, hending.1]
      show _ ++ collect visit (stops f) (i + 1) cs = _
      rw [ih hvisit.2 hending.2]

theorem firstEnding_eq_normal {f : N → Ending} {cs : List (Child N W)}
    (h : ∀ c ∈ cs, childEnding f c = .normal) :
    firstEnding (childEnding f) cs = .normal := by
  induction cs with
  | nil => rfl
  | cons c cs ih =>
      rw [List.forall_mem_cons] at h
      rw [firstEnding, h.1]
      exact ih h.2

/-- **Intact trees are swept to the last leaf**, where every node is opened as what it
is and every child is read as itself. -/
theorem sweptAs_of_clear [DecidableEq N] {ok : N → Bool}
    (hok : ∀ n, ok n = true → view n = truth n) (n : N)
    (hfits : fits truth bad levels n = true) (hintact : intact truth levels n = true)
    (hclear : clear truth ok levels n = true) : SweptAs view truth bad levels n := by
  induction levels generalizing n with
  | zero => cases hfits
  | succ levels ih =>
      rw [clear, Bool.and_eq_true] at hclear
      have hview : view n = truth n := hok n hclear.1
      have hclear := hclear.2
      cases htruth : truth n with
      | none =>
          rw [htruth] at hview
          constructor
          · intro trail
            rw [visits, leaves, hview, htruth]
          · rw [ending, hview]
          · rw [fits, hview]
          · intro weight
            rw [total, total, hview, htruth]
      | some o =>
          rw [htruth] at hview hclear
          rw [fits, htruth] at hfits
          rw [intact, htruth] at hintact
          simp only [Bool.and_eq_true, decide_eq_true_eq, List.all_eq_true] at hintact hclear
          have hvisits : o.visits = o.children := by rw [Opened.visits, hintact.1]
          simp only [hvisits, List.all_eq_true] at hfits
          have hchild : ∀ c ∈ o.children, ChildSweptAs view truth bad levels c := by
            intro c hc
            have hcfits := Bool.and_eq_true_iff.mp (hfits c hc)
            have hbad : bad c.weight = false := by simpa using hcfits.1
            have hcintact := hintact.2 c hc
            have hcclear := hclear c hc
            rw [childIntact] at hcintact
            rw [childClear] at hcclear
            cases hown : c.own with
            | none =>
                rw [hown] at hcintact
                exact childSweptAs_skips hown (decide_eq_true_eq.mp hcintact) hbad
            | some m =>
                rw [hown] at hcintact hcclear
                simp only [Option.all_some, Bool.and_eq_true, decide_eq_true_eq] at hcclear
                obtain ⟨hread, hm⟩ := hcclear
                rw [hread] at hcfits
                exact (ih m hcfits.2 hcintact hm).child hown hread hbad
          constructor
          · intro trail
            rw [visits, leaves, hview, htruth]
            show collect _ _ 0 o.visits = _
            rw [hvisits]
            exact collect_congr (fun c hc => (hchild c hc).visits trail)
              (fun c hc => (hchild c hc).ending) 0
          · rw [ending, hview]
            show (o.ending _).contained = _
            rw [Opened.ending, hintact.1]
            show (firstEnding _ o.children).contained = _
            rw [firstEnding_eq_normal fun c hc => (hchild c hc).ending]
            rfl
          · rw [fits, hview]
            show o.visits.all _ = true
            rw [hvisits]
            exact List.all_eq_true.mpr fun c hc => (hchild c hc).fits
          · intro weight
            rw [total, total, hview, htruth]
            show (o.visits.map _).sum = (o.visits.map _).sum
            rw [hvisits]
            exact congrArg List.sum (List.map_congr_left fun c hc => (hchild c hc).total weight)

end Intact

end Sweep

end Lib
