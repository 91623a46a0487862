import AkesoDlp.Agent.KeywordTrie

/-!
# The links of the keyword automaton

The breadth-first loop gives every node its failure link, the node of the
longest proper suffix of its word in the trie, and its dictionary suffix link,
the node of the longest proper suffix that is a keyword. The queue holds at
most two depths at a time, in order; so when a node is taken from it, all
nodes that are not deeper have their links, and a failure walk only meets
those.
-/

namespace AkesoDlp.Agent

open Lib

/-- The words of the terminal nodes. -/
def KeywordWord (nodes : List AcNode) (word : Nat → StdString) (w : StdString) : Prop :=
  ∃ u, u < nodes.length ∧ (nodeAt nodes u).keywordIndex.isSome = true ∧ word u = w

/-- `o` is the node of the longest suffix of `s` that is a keyword, if there is
one. -/
def NearestKeyword (nodes : List AcNode) (word : Nat → StdString) (s : StdString)
    (o : Option Nat) : Prop :=
  match o with
  | none => ∀ w, KeywordWord nodes word w → ¬ w <:+ s
  | some d => d < nodes.length ∧ LongestSuffix (KeywordWord nodes word) s (word d)

/-- The links of `v` are right. -/
structure Linked (nodes : List AcNode) (word : Nat → StdString) (v : Nat) : Prop where
  fail_lt : (nodeAt nodes v).fail < nodes.length
  fail : LongestSuffix (Spelled nodes word) (word v).tail (word (nodeAt nodes v).fail)
  dictSuffix : NearestKeyword nodes word (word v).tail (nodeAt nodes v).dictSuffix

/-- All nodes with words of length at most `bound` are linked. -/
def LinkedUpTo (nodes : List AcNode) (word : Nat → StdString) (bound : Nat) : Prop :=
  ∀ v, v < nodes.length → v ≠ 0 → (word v).length ≤ bound → Linked nodes word v

variable {nodes nodes' : List AcNode} {word : Nat → StdString}

theorem KeywordWord.spelled {w : StdString} (h : KeywordWord nodes word w) :
    Spelled nodes word w := by
  obtain ⟨u, hu, -, hword⟩ := h
  exact ⟨u, hu, hword⟩

/-! ## The failure walk -/

theorem length_fail_lt {v : Nat} (hv : Linked nodes word v) (hne : word v ≠ []) :
    (word (nodeAt nodes v).fail).length < (word v).length := by
  have hle := hv.fail.suffix.length_le
  rw [List.length_tail] at hle
  have := List.length_pos_iff.mpr hne
  omega

/-- The walk ends at the root or at a node with a child under `ch`, and the
longest suffix that can follow is unchanged. -/
theorem followFail_spec (h : Trie nodes word) {bound : Nat} (hlinked : LinkedUpTo nodes word bound)
    (ch : UInt8) (fuel : Nat) {f : Nat} (hf : f < nodes.length) (hbound : (word f).length ≤ bound)
    (hfuel : (word f).length ≤ fuel) :
    followFail nodes fuel f ch < nodes.length ∧
    (word (followFail nodes fuel f ch)).length ≤ (word f).length ∧
    (∀ t, LongestSuffix (Spelled nodes word) (word f ++ [ch]) t ↔
      LongestSuffix (Spelled nodes word) (word (followFail nodes fuel f ch) ++ [ch]) t) ∧
    (followFail nodes fuel f ch = 0 ∨ findChild nodes (followFail nodes fuel f ch) ch ≠ none) := by
  -- every step goes to a shorter word, so the length of the word is fuel enough
  induction fuel generalizing f with
  | zero =>
      have hnil : word f = [] := List.length_eq_zero_iff.mp (Nat.le_zero.mp hfuel)
      have hzero : f = 0 := h.inj f 0 hf h.pos (hnil.trans h.root.symm)
      exact ⟨hf, Nat.le_refl _, fun _ => Iff.rfl, Or.inl hzero⟩
  | succ fuel ih =>
      rw [followFail]
      split
      · rename_i hstuck
        -- no child under `ch` here: the longest suffix lies behind the failure link
        have hne := h.word_ne_nil hf hstuck.1
        have hlink := hlinked f hf hstuck.1 hbound
        have hlt := length_fail_lt hlink hne
        obtain ⟨hr, hlength, hsame, hend⟩ := ih hlink.fail_lt (by omega) (by omega)
        refine ⟨hr, by omega, ?_, hend⟩
        intro t
        rw [hlink.fail.of_fail h.prefixClosed hne ((h.findChild_eq_none_iff hf).mp hstuck.2)]
        exact hsame t
      · rename_i hstop
        refine ⟨hf, Nat.le_refl _, fun _ => Iff.rfl, ?_⟩
        by_cases hzero : f = 0
        · exact Or.inl hzero
        · exact Or.inr fun hnone => hstop ⟨hzero, hnone⟩

/-- The state after one more byte: the node of the longest suffix. -/
theorem nextState_spec (h : Trie nodes word) {bound : Nat} (hlinked : LinkedUpTo nodes word bound)
    (ch : UInt8) {f : Nat} (hf : f < nodes.length) (hbound : (word f).length ≤ bound) :
    nextState nodes f ch < nodes.length ∧
    LongestSuffix (Spelled nodes word) (word f ++ [ch]) (word (nextState nodes f ch)) := by
  have hfuel : (word f).length ≤ nodes.length :=
    Nat.le_trans (h.length_word_le hf) (Nat.le_of_lt hf)
  obtain ⟨hr, -, hsame, hend⟩ := followFail_spec h hlinked ch nodes.length hf hbound hfuel
  unfold nextState
  generalize followFail nodes nodes.length f ch = r at *
  rw [hsame]
  cases hfind : findChild nodes r ch with
  | some next =>
      obtain ⟨hnext, hword⟩ := (h.findChild_eq_some_iff hr).mp hfind
      rw [Option.getD_some, ← hword]
      exact ⟨hnext, LongestSuffix.self ⟨next, hnext, rfl⟩⟩
  | none =>
      -- the walk ended without a child, which happens at the root only
      have hroot : r = 0 := hend.resolve_right fun hne => hne hfind
      have hnot := (h.findChild_eq_none_iff hr).mp hfind
      rw [hroot, h.root, List.nil_append] at hnot ⊢
      rw [Option.getD_none, h.root]
      exact ⟨h.pos, LongestSuffix.of_root h.prefixClosed hnot⟩

/-! ## Linking a child -/

theorem NearestKeyword.congr {s s' : StdString} {o : Option Nat}
    (hsame : ∀ w, KeywordWord nodes word w → (w <:+ s ↔ w <:+ s'))
    (h : NearestKeyword nodes word s o) : NearestKeyword nodes word s' o := by
  cases o with
  | none => exact fun w hw hs' => h w hw ((hsame w hw).mpr hs')
  | some d => exact ⟨h.1, (LongestSuffix.congr hsame).mp h.2⟩

/-- The dictionary suffix link that goes with the failure link `f`. -/
theorem nearestKeyword_of_fail (h : Trie nodes word)
    (hroot : (nodeAt nodes 0).dictSuffix = none) {s : StdString} {f : Nat} (hf : f < nodes.length)
    (hlongest : LongestSuffix (Spelled nodes word) s (word f))
    (hlinked : f ≠ 0 → Linked nodes word f) :
    NearestKeyword nodes word s
      (if (nodeAt nodes f).keywordIndex.isSome then some f else (nodeAt nodes f).dictSuffix) := by
  -- the keywords that end `s` are those that end the word of `f`
  have hsame : ∀ w, KeywordWord nodes word w → (w <:+ s ↔ w <:+ word f) :=
    fun w hw => hlongest.suffix_iff hw.spelled
  split
  · rename_i hterminal
    exact ⟨hf, (LongestSuffix.congr hsame).mpr (LongestSuffix.self ⟨f, hf, hterminal, rfl⟩)⟩
  · rename_i hplain
    -- `f` is no keyword itself, so only shorter suffixes count
    have hne : ∀ w, KeywordWord nodes word w → w ≠ word f := by
      rintro w ⟨u, hu, hterminal, rfl⟩ heq
      rw [h.inj u f hu hf heq] at hterminal
      exact hplain hterminal
    by_cases hzero : f = 0
    · subst hzero
      rw [hroot]
      intro w hw hs
      have hnil := (hsame w hw).mp hs
      rw [h.root] at hnil
      exact hne w hw (by rw [List.suffix_nil.mp hnil, h.root])
    · refine (hlinked hzero).dictSuffix.congr fun w hw => ?_
      rw [hsame w hw]
      exact ⟨fun htail => htail.trans (List.tail_suffix _),
        fun hsuffix => suffix_tail_of_ne hsuffix (hne w hw)⟩

/-- Only links differ. -/
structure SameShape (nodes nodes' : List AcNode) : Prop where
  length_eq : nodes'.length = nodes.length
  children : ∀ u, (nodeAt nodes' u).children = (nodeAt nodes u).children
  keywordIndex : ∀ u, (nodeAt nodes' u).keywordIndex = (nodeAt nodes u).keywordIndex

theorem SameShape.trans {nodes'' : List AcNode} (h : SameShape nodes nodes')
    (h' : SameShape nodes' nodes'') : SameShape nodes nodes'' where
  length_eq := h'.length_eq.trans h.length_eq
  children u := (h'.children u).trans (h.children u)
  keywordIndex u := (h'.keywordIndex u).trans (h.keywordIndex u)

theorem SameShape.trie (h : SameShape nodes nodes') (htrie : Trie nodes word) :
    Trie nodes' word :=
  htrie.of_children h.length_eq h.children

theorem SameShape.spelled (h : SameShape nodes nodes') :
    Spelled nodes' word = Spelled nodes word := by
  funext w
  unfold Spelled
  rw [h.length_eq]

theorem SameShape.keywordWord (h : SameShape nodes nodes') :
    KeywordWord nodes' word = KeywordWord nodes word := by
  funext w
  simp only [KeywordWord, h.length_eq, h.keywordIndex]

theorem SameShape.nearestKeyword (h : SameShape nodes nodes') {s : StdString} {o : Option Nat} :
    NearestKeyword nodes' word s o ↔ NearestKeyword nodes word s o := by
  unfold NearestKeyword
  rw [h.keywordWord, h.length_eq]

theorem Linked.of_eq {v : Nat} (hv : Linked nodes word v) (h : SameShape nodes nodes')
    (heq : nodeAt nodes' v = nodeAt nodes v) : Linked nodes' word v := by
  constructor
  · rw [heq, h.length_eq]
    exact hv.fail_lt
  · rw [heq, h.spelled]
    exact hv.fail
  · rw [heq, h.nearestKeyword]
    exact hv.dictSuffix

theorem sameShape_modify (nodes : List AcNode) (v fail : Nat) (dictSuffix : Option Nat) :
    SameShape nodes
      (nodes.modify v fun n => { n with fail := fail, dictSuffix := dictSuffix }) where
  length_eq := List.length_modify ..
  children u := by
    rw [nodeAt_modify]
    split <;> rfl
  keywordIndex u := by
    rw [nodeAt_modify]
    split <;> rfl

/-- Writing the right links into `v`. -/
theorem linked_modify {v fail : Nat} {dictSuffix : Option Nat} (hv : v < nodes.length)
    (hfail : fail < nodes.length)
    (hlongest : LongestSuffix (Spelled nodes word) (word v).tail (word fail))
    (hnearest : NearestKeyword nodes word (word v).tail dictSuffix) :
    Linked (nodes.modify v fun n => { n with fail := fail, dictSuffix := dictSuffix }) word v := by
  have hshape := sameShape_modify nodes v fail dictSuffix
  have hat : nodeAt (nodes.modify v fun n => { n with fail := fail, dictSuffix := dictSuffix }) v =
      { nodeAt nodes v with fail := fail, dictSuffix := dictSuffix } := by
    rw [nodeAt_modify, if_pos ⟨rfl, hv⟩]
  constructor
  · rw [hat, hshape.length_eq]
    exact hfail
  · rw [hat, hshape.spelled]
    exact hlongest
  · rw [hat, hshape.nearestKeyword]
    exact hnearest

/-- The failure link that the inner loop computes for `v`, the child of `u`. The
test that it is not `v` itself never fails. -/
theorem linkChild_eq (h : Trie nodes word) {u v : Nat} {ch : UInt8} (hu : u < nodes.length)
    (hword : word v = word u ++ [ch]) (hne : u ≠ 0)
    (hlinked : LinkedUpTo nodes word (word u).length) :
    linkChild u nodes (ch, v) = nodes.modify v fun n => { n with
      fail := nextState nodes (nodeAt nodes u).fail ch
      dictSuffix :=
        if (nodeAt nodes (nextState nodes (nodeAt nodes u).fail ch)).keywordIndex.isSome then
          some (nextState nodes (nodeAt nodes u).fail ch)
        else (nodeAt nodes (nextState nodes (nodeAt nodes u).fail ch)).dictSuffix } := by
  have hlink := hlinked u hu hne (Nat.le_refl _)
  have hshorter := length_fail_lt hlink (h.word_ne_nil hu hne)
  obtain ⟨-, hlongest⟩ := nextState_spec h hlinked ch hlink.fail_lt (Nat.le_of_lt hshorter)
  have hlength := hlongest.suffix.length_le
  rw [List.length_append, List.length_singleton] at hlength
  -- the target is no deeper than `u`, and `v` is
  have hother : nextState nodes (nodeAt nodes u).fail ch ≠ v := by
    intro heq
    rw [heq, hword, List.length_append, List.length_singleton] at hlength
    omega
  have hfail : failTarget nodes (followFail nodes nodes.length (nodeAt nodes u).fail ch) ch v =
      nextState nodes (nodeAt nodes u).fail ch := by
    unfold failTarget
    unfold nextState at hother ⊢
    cases hfind : findChild nodes
        (followFail nodes nodes.length (nodeAt nodes u).fail ch) ch with
    | some next =>
        rw [hfind, Option.getD_some] at hother
        exact if_pos hother
    | none => rfl
  unfold linkChild
  simp only [hfail]

/-- What the inner loop does for one child `v` of `u`. -/
theorem linkChild_spec (h : Trie nodes word) (hroot : (nodeAt nodes 0).dictSuffix = none)
    {u v : Nat} {ch : UInt8} (hu : u < nodes.length) (hne : u ≠ 0) (hv : v < nodes.length)
    (hword : word v = word u ++ [ch]) (hlinked : LinkedUpTo nodes word (word u).length) :
    SameShape nodes (linkChild u nodes (ch, v)) ∧
    Linked (linkChild u nodes (ch, v)) word v ∧
    ∀ x, x ≠ v → nodeAt (linkChild u nodes (ch, v)) x = nodeAt nodes x := by
  have hlink := hlinked u hu hne (Nat.le_refl _)
  have hshorter := length_fail_lt hlink (h.word_ne_nil hu hne)
  obtain ⟨hlt, hlongest⟩ := nextState_spec h hlinked ch hlink.fail_lt (Nat.le_of_lt hshorter)
  rw [linkChild_eq h hu hword hne hlinked]
  generalize nextState nodes (nodeAt nodes u).fail ch = fail at *
  have hbound : (word fail).length ≤ (word u).length := by
    have hlength := hlongest.suffix.length_le
    rw [List.length_append, List.length_singleton] at hlength
    omega
  -- the failure link of `u`, extended by `ch`, is that of `v`
  have htail : LongestSuffix (Spelled nodes word) (word v).tail (word fail) := by
    rw [hword, List.tail_append_of_ne_nil (h.word_ne_nil hu hne)]
    exact (hlink.fail.extend h.prefixClosed).mpr hlongest
  refine ⟨sameShape_modify .., linked_modify hv hlt htail ?_, ?_⟩
  · exact nearestKeyword_of_fail h hroot hlt htail fun hzero => hlinked fail hlt hzero hbound
  · intro x hx
    rw [nodeAt_modify, if_neg fun hand => hx hand.1]

/-- What a loop body does for the edge to `v`: it gives `v` its links and leaves
the other nodes alone, provided that the nodes up to depth `bound` are linked. -/
def LinksChild (link : List AcNode → UInt8 × Nat → List AcNode) (word : Nat → StdString)
    (bound n : Nat) (e : UInt8 × Nat) : Prop :=
  ∀ nodes : List AcNode, nodes.length = n → Trie nodes word →
    (nodeAt nodes 0).dictSuffix = none → LinkedUpTo nodes word bound →
    SameShape nodes (link nodes e) ∧ Linked (link nodes e) word e.2 ∧
    ∀ x, x ≠ e.2 → nodeAt (link nodes e) x = nodeAt nodes x

/-- A loop over edges to nodes one level below `bound`. -/
theorem foldl_link_spec {link : List AcNode → UInt8 × Nat → List AcNode} {bound : Nat}
    (edges : List (UInt8 × Nat)) (h : Trie nodes word)
    (hroot : (nodeAt nodes 0).dictSuffix = none) (hlinked : LinkedUpTo nodes word bound)
    (hedges : ∀ e ∈ edges, (word e.2).length = bound + 1 ∧
      LinksChild link word bound nodes.length e) :
    SameShape nodes (edges.foldl link nodes) ∧
    (∀ e ∈ edges, Linked (edges.foldl link nodes) word e.2) ∧
    ∀ x, x ∉ edges.map (·.2) → nodeAt (edges.foldl link nodes) x = nodeAt nodes x := by
  -- on the edges; what lies above their targets keeps its links
  induction edges generalizing nodes with
  | nil =>
      exact ⟨⟨rfl, fun _ => rfl, fun _ => rfl⟩, fun e he => absurd he List.not_mem_nil,
        fun _ _ => rfl⟩
  | cons e rest ih =>
      obtain ⟨⟨hlength, hlink⟩, hrest⟩ := List.forall_mem_cons.mp hedges
      obtain ⟨hshape, hdone, hkeep⟩ := hlink nodes rfl h hroot hlinked
      have hshallow (x : Nat) (hx : (word x).length ≤ bound) : x ≠ e.2 := by
        rintro rfl
        omega
      have hroot' : (nodeAt (link nodes e) 0).dictSuffix = none := by
        rw [hkeep 0 (hshallow 0 (by simp [h.root])), hroot]
      have hlinked' : LinkedUpTo (link nodes e) word bound := by
        intro x hx hxne hbound
        rw [hshape.length_eq] at hx
        exact (hlinked x hx hxne hbound).of_eq hshape (hkeep x (hshallow x hbound))
      obtain ⟨hshape', hdone', hkeep'⟩ := ih (hshape.trie h) hroot' hlinked'
        (hshape.length_eq ▸ hrest)
      refine ⟨hshape.trans hshape', ?_, ?_⟩
      · rw [List.forall_mem_cons]
        refine ⟨?_, hdone'⟩
        -- a target that comes again gets its links again
        by_cases hagain : e.2 ∈ rest.map (·.2)
        · obtain ⟨e', he', heq⟩ := List.mem_map.mp hagain
          exact heq ▸ hdone' e' he'
        · exact hdone.of_eq hshape' (hkeep' e.2 hagain)
      · intro x hx
        rw [List.map_cons, List.mem_cons, not_or] at hx
        rw [List.foldl_cons, hkeep' x hx.2, hkeep x hx.1]

/-- The inner loop: all children of `u` get their links. -/
theorem foldl_linkChild_spec (edges : List (UInt8 × Nat)) (h : Trie nodes word)
    (hroot : (nodeAt nodes 0).dictSuffix = none) {u : Nat} (hu : u < nodes.length) (hne : u ≠ 0)
    (hedges : ∀ e ∈ edges, e.2 < nodes.length ∧ word e.2 = word u ++ [e.1])
    (hlinked : LinkedUpTo nodes word (word u).length) :
    SameShape nodes (edges.foldl (linkChild u) nodes) ∧
    (∀ e ∈ edges, Linked (edges.foldl (linkChild u) nodes) word e.2) ∧
    ∀ x, x ∉ edges.map (·.2) → nodeAt (edges.foldl (linkChild u) nodes) x = nodeAt nodes x := by
  apply foldl_link_spec edges h hroot hlinked
  intro e he
  obtain ⟨hv, hword⟩ := hedges e he
  constructor
  · rw [hword, List.length_append, List.length_singleton]
  · intro nodes' hlength h' hroot' hlinked'
    exact linkChild_spec h' hroot' (hlength ▸ hu) hne (hlength ▸ hv) hword hlinked'

/-- The first loop: all children of the root get their links. -/
theorem foldl_linkRootChild_spec (edges : List (UInt8 × Nat)) (h : Trie nodes word)
    (hroot : (nodeAt nodes 0).dictSuffix = none)
    (hedges : ∀ e ∈ edges, e.2 < nodes.length ∧ word e.2 = [e.1]) :
    SameShape nodes (edges.foldl linkRootChild nodes) ∧
    (∀ e ∈ edges, Linked (edges.foldl linkRootChild nodes) word e.2) ∧
    ∀ x, x ∉ edges.map (·.2) → nodeAt (edges.foldl linkRootChild nodes) x = nodeAt nodes x := by
  have hnone : LinkedUpTo nodes word 0 := by
    intro v hv hne hlength
    exact absurd (List.length_eq_zero_iff.mp (Nat.le_zero.mp hlength)) (h.word_ne_nil hv hne)
  apply foldl_link_spec edges h hroot hnone
  intro e he
  obtain ⟨hv, hword⟩ := hedges e he
  refine ⟨by rw [hword]; rfl, ?_⟩
  intro nodes' hlength h' hroot' _
  have htail : (word e.2).tail = [] := by rw [hword]; rfl
  refine ⟨sameShape_modify .., ?_, ?_⟩
  · have hlongest : LongestSuffix (Spelled nodes' word) (word e.2).tail (word 0) := by
      rw [htail, h'.root]
      exact LongestSuffix.nil h'.prefixClosed
    refine linked_modify (hlength ▸ hv) h'.pos hlongest ?_
    have hnearest := nearestKeyword_of_fail h' hroot' h'.pos hlongest fun hne => absurd rfl hne
    rwa [hroot'] at hnearest
  · intro x hx
    exact (nodeAt_modify ..).trans (if_neg fun hand => hx hand.1)

/-! ## The breadth-first loop -/

section

variable {u v : Nat} (order : HashMapOrder)

/-- What is queued for a node: the nodes whose words extend its word by a byte. -/
theorem Trie.mem_kids_iff (h : Trie nodes word) (hu : u < nodes.length) :
    v ∈ (order.iterate (nodeAt nodes u).children).map (·.2) ↔
      v < nodes.length ∧ ∃ c, word v = word u ++ [c] := by
  have hperm := order.iterate_perm (nodeAt nodes u).children
  constructor
  · intro hv
    obtain ⟨e, he, rfl⟩ := List.mem_map.mp hv
    obtain ⟨hlt, hword⟩ := h.edge u hu e (hperm.mem_iff.mp he)
    exact ⟨hlt, e.1, hword⟩
  · rintro ⟨hlt, c, hword⟩
    exact List.mem_map_of_mem (hperm.mem_iff.mpr (h.complete u v c hu hlt hword))

theorem Trie.nodup_kids (h : Trie nodes word) (hu : u < nodes.length) :
    ((order.iterate (nodeAt nodes u).children).map (·.2)).Nodup :=
  ((order.iterate_perm (nodeAt nodes u).children).map _).nodup_iff.mpr (h.nodup u hu)

/-- The root is not queued. -/
theorem Trie.zero_notMem_kids (h : Trie nodes word) (hu : u < nodes.length) :
    0 ∉ (order.iterate (nodeAt nodes u).children).map (·.2) := by
  intro hzero
  obtain ⟨-, c, hword⟩ := (h.mem_kids_iff order hu).mp hzero
  rw [h.root] at hword
  simp at hword

end

/-- The state of the search: `done` have been taken from the queue `bfs`. -/
structure Search (nodes : List AcNode) (word : Nat → StdString) (done bfs : List Nat) : Prop where
  trie : Trie nodes word
  rootSuffix : (nodeAt nodes 0).dictSuffix = none
  nodup : (done ++ bfs).Nodup
  seen : ∀ v ∈ done ++ bfs, v < nodes.length ∧ v ≠ 0
  start : ∀ v c, v < nodes.length → word v = [c] → v ∈ done ++ bfs
  origin : ∀ v ∈ done ++ bfs, ∃ p c, (p = 0 ∨ p ∈ done) ∧ word v = word p ++ [c]
  closed : ∀ u ∈ done, ∀ v c, v < nodes.length → word v = word u ++ [c] → v ∈ done ++ bfs
  linked : ∀ v ∈ done ++ bfs, Linked nodes word v
  sorted : bfs.Pairwise fun u v => (word u).length ≤ (word v).length
  near : ∀ u ∈ bfs, ∀ v ∈ bfs, (word v).length ≤ (word u).length + 1

namespace Search

variable {done bfs : List Nat} {u : Nat}

/-- Nodes that are not deeper than the front of the queue have been seen. -/
theorem seen_of_length_le (h : Search nodes word done (u :: bfs)) {v : Nat}
    (hv : v < nodes.length) (hne : v ≠ 0) (hlength : (word v).length ≤ (word u).length) :
    v ∈ done ++ u :: bfs := by
  -- along the parents, which have smaller indices
  induction v using Nat.strongRecOn with
  | ind v ih =>
      obtain ⟨p, c, hp, hword⟩ := h.trie.parent v hv hne
      by_cases hzero : p = 0
      · rw [hzero, h.trie.root] at hword
        exact h.start v c hv hword
      · rw [hword, List.length_append, List.length_singleton] at hlength
        have hseen := ih p hp (Nat.lt_trans hp hv) hzero (by omega)
        rcases List.mem_append.mp hseen with hdone | hqueue
        · exact h.closed p hdone v c hv hword
        · -- the queue holds nothing shallower than its front
          rcases List.mem_cons.mp hqueue with rfl | hrest
          · omega
          · have := List.rel_of_pairwise_cons h.sorted hrest
            omega

theorem linkedUpTo (h : Search nodes word done (u :: bfs)) :
    LinkedUpTo nodes word (word u).length :=
  fun v hv hne hlength => h.linked v (h.seen_of_length_le hv hne hlength)

/-- A child has one parent, and `u` has not been done before. -/
theorem child_not_seen (h : Search nodes word done (u :: bfs)) {v : Nat} {c : UInt8}
    (hword : word v = word u ++ [c]) : v ∉ done ++ u :: bfs := by
  intro hold
  obtain ⟨hu, hne⟩ := h.seen u (List.mem_append_right _ List.mem_cons_self)
  obtain ⟨p, d, hp, hparent⟩ := h.origin v hold
  have hsame := (List.append_inj' (hparent.symm.trans hword) rfl).1
  rcases hp with rfl | hdone
  · exact h.trie.word_ne_nil hu hne (hsame.symm.trans h.trie.root)
  · have hpu := h.trie.inj p u (h.seen p (List.mem_append_left _ hdone)).1 hu hsame
    rw [hpu] at hdone
    exact (List.nodup_append.mp h.nodup).2.2 u hdone u List.mem_cons_self rfl

/-- The queue spans two depths, that of its front and the next. -/
theorem length_queue (h : Search nodes word done (u :: bfs)) {v : Nat} (hv : v ∈ bfs) :
    (word u).length ≤ (word v).length ∧ (word v).length ≤ (word u).length + 1 :=
  ⟨List.rel_of_pairwise_cons h.sorted hv,
    h.near u List.mem_cons_self v (List.mem_cons_of_mem _ hv)⟩

/-- Taking `u` from the queue, linking its children and queueing them. -/
theorem step (order : HashMapOrder) (h : Search nodes word done (u :: bfs)) :
    SameShape nodes ((order.iterate (nodeAt nodes u).children).foldl (linkChild u) nodes) ∧
    Search ((order.iterate (nodeAt nodes u).children).foldl (linkChild u) nodes) word
      (done ++ [u]) (bfs ++ (order.iterate (nodeAt nodes u).children).map (·.2)) := by
  have hseen := h.seen u (List.mem_append_right _ List.mem_cons_self)
  have hperm := order.iterate_perm (nodeAt nodes u).children
  have hedges : ∀ e ∈ order.iterate (nodeAt nodes u).children,
      e.2 < nodes.length ∧ word e.2 = word u ++ [e.1] :=
    fun e he => h.trie.edge u hseen.1 e (hperm.mem_iff.mp he)
  obtain ⟨hshape, hnew, hkeep⟩ := foldl_linkChild_spec _ h.trie h.rootSuffix hseen.1 hseen.2
    hedges h.linkedUpTo
  have hkids (v : Nat) := h.trie.mem_kids_iff order (v := v) hseen.1
  have hnodup := h.trie.nodup_kids order hseen.1
  have hzero := h.trie.zero_notMem_kids order hseen.1
  generalize hkidsDef : (order.iterate (nodeAt nodes u).children).map (·.2) = kids at *
  generalize (order.iterate (nodeAt nodes u).children).foldl (linkChild u) nodes = nodes' at *
  have hmem (v : Nat) : v ∈ done ++ [u] ++ (bfs ++ kids) ↔ v ∈ done ++ u :: bfs ∨ v ∈ kids := by
    simp only [List.mem_append, List.mem_cons, List.not_mem_nil, or_false, or_assoc]
  have hfresh : ∀ v ∈ kids, v ∉ done ++ u :: bfs := by
    intro v hv
    obtain ⟨-, c, hword⟩ := (hkids v).mp hv
    exact h.child_not_seen hword
  have hkidLength : ∀ v ∈ kids, (word v).length = (word u).length + 1 := by
    intro v hv
    obtain ⟨-, c, hword⟩ := (hkids v).mp hv
    rw [hword, List.length_append, List.length_singleton]
  have hrange : ∀ v ∈ bfs ++ kids,
      (word u).length ≤ (word v).length ∧ (word v).length ≤ (word u).length + 1 := by
    intro v hv
    rcases List.mem_append.mp hv with hold | hkid
    · exact h.length_queue hold
    · rw [hkidLength v hkid]
      omega
  refine ⟨hshape, hshape.trie h.trie, ?_, ?_, ?_, ?_, ?_, ?_, ?_, ?_, ?_⟩
  · -- the root is no child
    rw [hkeep 0 hzero, h.rootSuffix]
  · rw [List.append_assoc, List.singleton_append, ← List.cons_append, ← List.append_assoc,
      List.nodup_append]
    refine ⟨h.nodup, hnodup, ?_⟩
    rintro v hold w hw rfl
    exact hfresh v hw hold
  · intro v hv
    rw [hshape.length_eq]
    rcases (hmem v).mp hv with hold | hkid
    · exact h.seen v hold
    · exact ⟨((hkids v).mp hkid).1, fun heq => hzero (heq ▸ hkid)⟩
  · -- the children of the root stay seen
    intro v c hv hword
    rw [hshape.length_eq] at hv
    exact (hmem v).mpr (Or.inl (h.start v c hv hword))
  · intro v hv
    rcases (hmem v).mp hv with hold | hkid
    · obtain ⟨p, c, hp, hword⟩ := h.origin v hold
      exact ⟨p, c, hp.imp_right (List.mem_append_left _), hword⟩
    · obtain ⟨-, c, hword⟩ := (hkids v).mp hkid
      exact ⟨u, c, Or.inr (List.mem_append_right _ (List.mem_singleton_self u)), hword⟩
  · -- the children of `u` have just been queued
    intro p hp v c hv hword
    rw [hshape.length_eq] at hv
    rcases List.mem_append.mp hp with hdone | hu
    · exact (hmem v).mpr (Or.inl (h.closed p hdone v c hv hword))
    · rw [List.mem_singleton.mp hu] at hword
      exact (hmem v).mpr (Or.inr ((hkids v).mpr ⟨hv, c, hword⟩))
  · -- a child has just been linked, the others keep their links
    intro v hv
    by_cases hkid : v ∈ kids
    · rw [← hkidsDef] at hkid
      obtain ⟨e, he, rfl⟩ := List.mem_map.mp hkid
      exact hnew e he
    · exact (h.linked v (((hmem v).mp hv).resolve_right hkid)).of_eq hshape (hkeep v hkid)
  · -- the children go behind nodes that are at most as deep as they are
    rw [List.pairwise_append]
    refine ⟨(List.pairwise_cons.mp h.sorted).2, ?_, ?_⟩
    · apply List.pairwise_of_forall_mem_list
      intro v hv w hw
      rw [hkidLength v hv, hkidLength w hw]
    · intro v hv w hw
      rw [hkidLength w hw]
      exact (h.length_queue hv).2
  · intro v hv w hw
    have hlow := (hrange v hv).1
    have hhigh := (hrange w hw).2
    omega

end Search

/-- The queue starts with the children of the root. -/
theorem search_start (order : HashMapOrder) (h : Trie nodes word)
    (hroot : (nodeAt nodes 0).dictSuffix = none) :
    SameShape nodes ((order.iterate (nodeAt nodes 0).children).foldl linkRootChild nodes) ∧
    Search ((order.iterate (nodeAt nodes 0).children).foldl linkRootChild nodes) word []
      ((order.iterate (nodeAt nodes 0).children).map (·.2)) := by
  have hperm := order.iterate_perm (nodeAt nodes 0).children
  have hedges : ∀ e ∈ order.iterate (nodeAt nodes 0).children,
      e.2 < nodes.length ∧ word e.2 = [e.1] := by
    intro e he
    have hedge := h.edge 0 h.pos e (hperm.mem_iff.mp he)
    rwa [h.root, List.nil_append] at hedge
  obtain ⟨hshape, hnew, hkeep⟩ := foldl_linkRootChild_spec _ h hroot hedges
  have hkids (v : Nat) : v ∈ (order.iterate (nodeAt nodes 0).children).map (·.2) ↔
      v < nodes.length ∧ ∃ c, word v = [c] := by
    rw [h.mem_kids_iff order h.pos, h.root]
    rfl
  have hzero := h.zero_notMem_kids order h.pos
  -- all that is queued has a word of one byte
  refine ⟨hshape, hshape.trie h, ?_, ?_, ?_, ?_, ?_, ?_, ?_, ?_, ?_⟩
  · rw [hkeep 0 hzero, hroot]
  · exact h.nodup_kids order h.pos
  · intro v hv
    exact ⟨hshape.length_eq ▸ ((hkids v).mp hv).1, fun heq => hzero (heq ▸ hv)⟩
  · intro v c hv hword
    rw [hshape.length_eq] at hv
    exact (hkids v).mpr ⟨hv, c, hword⟩
  · intro v hv
    obtain ⟨-, c, hword⟩ := (hkids v).mp hv
    exact ⟨0, c, Or.inl rfl, by rw [h.root, hword]; rfl⟩
  · exact fun p hp => absurd hp List.not_mem_nil
  · intro v hv
    obtain ⟨e, he, rfl⟩ := List.mem_map.mp hv
    exact hnew e he
  · apply List.pairwise_of_forall_mem_list
    intro v hv w hw
    obtain ⟨-, c, hv⟩ := (hkids v).mp hv
    obtain ⟨-, d, hw⟩ := (hkids w).mp hw
    rw [hv, hw]
    exact Nat.le_refl _
  · intro v hv w hw
    obtain ⟨-, c, hv⟩ := (hkids v).mp hv
    obtain ⟨-, d, hw⟩ := (hkids w).mp hw
    rw [hv, hw]
    exact Nat.le_succ _

/-- With an empty queue all nodes are done. -/
theorem Search.all_done {done : List Nat} (h : Search nodes word done []) {v : Nat}
    (hv : v < nodes.length) (hne : v ≠ 0) : Linked nodes word v := by
  apply h.linked
  -- along the parents again, which are all done
  induction v using Nat.strongRecOn with
  | ind v ih =>
      obtain ⟨p, c, hp, hword⟩ := h.trie.parent v hv hne
      by_cases hzero : p = 0
      · rw [hzero, h.trie.root] at hword
        exact h.start v c hv hword
      · have hdone := ih p hp (Nat.lt_trans hp hv) hzero
        rw [List.append_nil] at hdone
        exact h.closed p hdone v c hv hword

/-- There are fewer seen nodes than nodes: the root is not among them. -/
theorem Search.length_lt {done bfs : List Nat} (h : Search nodes word done bfs) :
    (done ++ bfs).length < nodes.length := by
  have hnodup : (0 :: (done ++ bfs)).Nodup :=
    List.nodup_cons.mpr ⟨fun hzero => (h.seen 0 hzero).2 rfl, h.nodup⟩
  -- the seen nodes and the root are different indices below the length
  have hsub : 0 :: (done ++ bfs) ⊆ List.range nodes.length := by
    intro v hv
    rw [List.mem_range]
    rcases List.mem_cons.mp hv with rfl | hseen
    · exact h.trie.pos
    · exact (h.seen v hseen).1
  have hle := (List.subperm_of_subset hnodup hsub).length_le
  rw [List.length_cons, List.length_range] at hle
  exact hle

/-- The fuel is not used up: every round takes another node from the queue. -/
theorem linkLoop_spec (order : HashMapOrder) (fuel : Nat) {done bfs : List Nat}
    (h : Search nodes word done bfs) (hfuel : nodes.length ≤ fuel + done.length) :
    SameShape nodes (linkLoop order fuel nodes bfs) ∧
    ∀ v, v < nodes.length → v ≠ 0 → Linked (linkLoop order fuel nodes bfs) word v := by
  induction fuel generalizing nodes done bfs with
  | zero =>
      -- more nodes would be done than there are
      have := h.length_lt
      rw [List.length_append] at this
      omega
  | succ fuel ih =>
      cases bfs with
      | nil =>
          exact ⟨⟨rfl, fun _ => rfl, fun _ => rfl⟩, fun v hv hne => h.all_done hv hne⟩
      | cons u bfs =>
          obtain ⟨hshape, hnext⟩ := h.step order
          have hlength : ((order.iterate (nodeAt nodes u).children).foldl
              (linkChild u) nodes).length ≤ fuel + (done ++ [u]).length := by
            rw [hshape.length_eq, List.length_append, List.length_singleton]
            omega
          obtain ⟨hshape', hlinked⟩ := ih hnext hlength
          exact ⟨hshape.trans hshape', fun v hv hne => hlinked v (hshape.length_eq ▸ hv) hne⟩

/-- `BuildFailureLinks` gives every node but the root the right links. -/
theorem buildFailureLinks_spec (order : HashMapOrder) (h : Trie nodes word)
    (hroot : (nodeAt nodes 0).dictSuffix = none) :
    SameShape nodes (buildFailureLinks order nodes) ∧
    ∀ v, v < nodes.length → v ≠ 0 → Linked (buildFailureLinks order nodes) word v := by
  obtain ⟨hshape, hsearch⟩ := search_start order h hroot
  obtain ⟨hshape', hlinked⟩ := linkLoop_spec order nodes.length hsearch (by
    rw [hshape.length_eq]
    exact Nat.le_refl _)
  exact ⟨hshape.trans hshape', fun v hv hne => hlinked v (hshape.length_eq ▸ hv) hne⟩

end AkesoDlp.Agent
