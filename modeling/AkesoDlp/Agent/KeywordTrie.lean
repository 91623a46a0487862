import AkesoDlp.Agent.KeywordAnalyzer
import AkesoDlp.Lib.LongestSuffix
import Mathlib.Logic.Function.Basic
import Mathlib.Data.List.GetD
import Mathlib.Data.List.Nodup

/-!
# The trie of the keyword analyzer

Each node spells a word, the bytes on the way to it from the root. Insertion
keeps the nodes a trie: distinct nodes spell distinct words, the children of a
node extend its word by one byte, and every node but the root is a child. The
index at a node is that of the last keyword that lowers to its word; an
earlier one with the same lowered form is overwritten.
-/

namespace AkesoDlp.Agent

open Lib

/-- `word u` is what node `u` spells. -/
structure Trie (nodes : List AcNode) (word : Nat → StdString) : Prop where
  pos : 0 < nodes.length
  root : word 0 = []
  inj : ∀ u v, u < nodes.length → v < nodes.length → word u = word v → u = v
  edge : ∀ u, u < nodes.length → ∀ e ∈ (nodeAt nodes u).children,
    e.2 < nodes.length ∧ word e.2 = word u ++ [e.1]
  complete : ∀ u v c, u < nodes.length → v < nodes.length → word v = word u ++ [c] →
    (c, v) ∈ (nodeAt nodes u).children
  parent : ∀ v, v < nodes.length → v ≠ 0 → ∃ u c, u < v ∧ word v = word u ++ [c]
  nodup : ∀ u, u < nodes.length → ((nodeAt nodes u).children.map (·.2)).Nodup

/-- The words of the trie. -/
def Spelled (nodes : List AcNode) (word : Nat → StdString) (w : StdString) : Prop :=
  ∃ u, u < nodes.length ∧ word u = w

/-! ## Reading and writing nodes -/

theorem nodeAt_of_length_le {nodes : List AcNode} {u : Nat} (h : nodes.length ≤ u) :
    nodeAt nodes u = {} :=
  List.getD_eq_default _ _ h

theorem nodeAt_modify (nodes : List AcNode) (f : AcNode → AcNode) (i u : Nat) :
    nodeAt (nodes.modify i f) u =
      if u = i ∧ u < nodes.length then f (nodeAt nodes u) else nodeAt nodes u := by
  unfold nodeAt
  rw [List.getD_eq_getElem?_getD, List.getD_eq_getElem?_getD, List.getElem?_modify]
  by_cases hu : u < nodes.length
  · rw [List.getElem?_eq_getElem hu]
    by_cases hi : i = u <;> simp [hi, hu, eq_comm]
  · rw [List.getElem?_eq_none (Nat.le_of_not_lt hu)]
    simp [hu]

theorem nodeAt_append_new (nodes : List AcNode) (u : Nat) :
    nodeAt (nodes ++ [({} : AcNode)]) u = nodeAt nodes u := by
  unfold nodeAt
  rcases Nat.lt_or_ge u nodes.length with hu | hu
  · rw [List.getD_append _ _ _ _ hu]
  · rw [List.getD_append_right _ _ _ _ hu, List.getD_eq_default _ _ hu]
    cases u - nodes.length <;> rfl

namespace Trie

variable {nodes : List AcNode} {word : Nat → StdString} {u v : Nat} {c : UInt8}

theorem findChild_eq_some_iff (h : Trie nodes word) (hu : u < nodes.length) :
    findChild nodes u c = some v ↔ v < nodes.length ∧ word v = word u ++ [c] := by
  have hmem (v : Nat) (hfind : findChild nodes u c = some v) :
      (c, v) ∈ (nodeAt nodes u).children := by
    obtain ⟨l₁, l₂, heq, -⟩ := List.lookup_eq_some_iff.mp hfind
    rw [heq]
    exact List.mem_append_right _ List.mem_cons_self
  constructor
  · intro hfind
    exact h.edge u hu _ (hmem v hfind)
  · rintro ⟨hv, hword⟩
    have hchild := h.complete u v c hu hv hword
    cases hfind : findChild nodes u c with
    | none =>
        have := List.lookup_eq_none_iff.mp hfind _ hchild
        simp at this
    | some v' =>
        obtain ⟨hv', hword'⟩ := h.edge u hu _ (hmem v' hfind)
        rw [h.inj v' v hv' hv (hword'.trans hword.symm)]

theorem findChild_eq_none_iff (h : Trie nodes word) (hu : u < nodes.length) :
    findChild nodes u c = none ↔ ¬ Spelled nodes word (word u ++ [c]) := by
  rw [Option.eq_none_iff_forall_ne_some]
  constructor
  · rintro hnone ⟨v, hv, hword⟩
    exact hnone v ((h.findChild_eq_some_iff hu).mpr ⟨hv, hword⟩)
  · intro hnot v hfind
    obtain ⟨hv, hword⟩ := (h.findChild_eq_some_iff hu).mp hfind
    exact hnot ⟨v, hv, hword⟩

theorem prefixClosed (h : Trie nodes word) : PrefixClosed (Spelled nodes word) where
  nil := ⟨0, h.pos, h.root⟩
  init := by
    rintro w c ⟨v, hv, hword⟩
    have hne : v ≠ 0 := by
      rintro rfl
      rw [h.root] at hword
      simp at hword
    obtain ⟨u, d, hu, hparent⟩ := h.parent v hv hne
    rw [hparent] at hword
    exact ⟨u, Nat.lt_trans hu hv, (List.append_inj' hword rfl).1⟩

/-- Parents come first, so a word is no longer than the index of its node. -/
theorem length_word_le (h : Trie nodes word) (hv : v < nodes.length) : (word v).length ≤ v := by
  induction v using Nat.strongRecOn with
  | ind v ih =>
      by_cases hne : v = 0
      · rw [hne, h.root]
        exact Nat.le_refl _
      · obtain ⟨u, c, hu, hword⟩ := h.parent v hv hne
        have := ih u hu (Nat.lt_trans hu hv)
        rw [hword, List.length_append, List.length_singleton]
        omega

theorem word_ne_nil (h : Trie nodes word) (hv : v < nodes.length) (hne : v ≠ 0) :
    word v ≠ [] := by
  intro hnil
  exact hne (h.inj v 0 hv h.pos (by rw [hnil, h.root]))

end Trie

theorem trie_root : Trie [{}] fun _ => [] where
  pos := Nat.zero_lt_one
  root := rfl
  inj u v hu hv _ := by
    rw [List.length_singleton, Nat.lt_one_iff] at hu hv
    rw [hu, hv]
  edge u hu e he := by
    rw [List.length_singleton, Nat.lt_one_iff] at hu
    subst hu
    exact absurd he List.not_mem_nil
  complete u v c _ _ h := by simp at h
  parent v hv hne := by
    rw [List.length_singleton, Nat.lt_one_iff] at hv
    exact absurd hv hne
  nodup u hu := by
    rw [List.length_singleton, Nat.lt_one_iff] at hu
    subst hu
    exact List.nodup_nil

/-! ## Insertion -/

/-- The trie has grown: old words, indices and links are as they were, and a
new node has none. -/
structure Grown (nodes nodes' : List AcNode) (word word' : Nat → StdString) : Prop where
  length_le : nodes.length ≤ nodes'.length
  word_eq : ∀ u, u < nodes.length → word' u = word u
  keywordIndex : ∀ u, (nodeAt nodes' u).keywordIndex = (nodeAt nodes u).keywordIndex
  dictSuffix : ∀ u, (nodeAt nodes' u).dictSuffix = (nodeAt nodes u).dictSuffix

theorem Grown.refl (nodes : List AcNode) (word : Nat → StdString) : Grown nodes nodes word word :=
  ⟨Nat.le_refl _, fun _ _ => rfl, fun _ => rfl, fun _ => rfl⟩

theorem Grown.trans {nodes₁ nodes₂ nodes₃ : List AcNode} {word₁ word₂ word₃ : Nat → StdString}
    (h : Grown nodes₁ nodes₂ word₁ word₂) (h' : Grown nodes₂ nodes₃ word₂ word₃) :
    Grown nodes₁ nodes₃ word₁ word₃ where
  length_le := Nat.le_trans h.length_le h'.length_le
  word_eq u hu := by rw [h'.word_eq u (Nat.lt_of_lt_of_le hu h.length_le), h.word_eq u hu]
  keywordIndex u := by rw [h'.keywordIndex, h.keywordIndex]
  dictSuffix u := by rw [h'.dictSuffix, h.dictSuffix]

@[simp] theorem length_addChild (nodes : List AcNode) (cur : Nat) (ch : UInt8) :
    (addChild nodes cur ch).length = nodes.length + 1 := by
  simp [addChild]

theorem nodeAt_addChild (nodes : List AcNode) {cur : Nat} (hcur : cur < nodes.length)
    (ch : UInt8) (u : Nat) :
    nodeAt (addChild nodes cur ch) u =
      if u = cur then
        { nodeAt nodes u with children := (nodeAt nodes u).children ++ [(ch, nodes.length)] }
      else nodeAt nodes u := by
  unfold addChild
  rw [nodeAt_append_new, nodeAt_modify]
  by_cases hu : u = cur <;> simp [hu, hcur]

theorem nodeAt_addChild_new (nodes : List AcNode) {cur : Nat} (hcur : cur < nodes.length)
    (ch : UInt8) : nodeAt (addChild nodes cur ch) nodes.length = {} := by
  rw [nodeAt_addChild nodes hcur, if_neg (Nat.ne_of_gt hcur),
    nodeAt_of_length_le (Nat.le_refl _)]

theorem grown_addChild {nodes : List AcNode} {word : Nat → StdString} {cur : Nat}
    (hcur : cur < nodes.length) (ch : UInt8) (w : StdString) :
    Grown nodes (addChild nodes cur ch) word (Function.update word nodes.length w) where
  length_le := by
    rw [length_addChild]
    omega
  word_eq u hu := Function.update_of_ne (Nat.ne_of_lt hu) _ _
  keywordIndex u := by
    rw [nodeAt_addChild nodes hcur]
    split <;> rfl
  dictSuffix u := by
    rw [nodeAt_addChild nodes hcur]
    split <;> rfl

/-- The children of an old node, after `cur` got its new one. -/
theorem mem_children_addChild {nodes : List AcNode} {cur : Nat} (hcur : cur < nodes.length)
    (ch : UInt8) {u : Nat} {e : UInt8 × Nat} :
    e ∈ (nodeAt (addChild nodes cur ch) u).children ↔
      e ∈ (nodeAt nodes u).children ∨ (u = cur ∧ e = (ch, nodes.length)) := by
  rw [nodeAt_addChild nodes hcur]
  by_cases hu : u = cur <;> simp [hu]

theorem trie_addChild {nodes : List AcNode} {word : Nat → StdString} (h : Trie nodes word)
    {cur : Nat} (hcur : cur < nodes.length) {ch : UInt8}
    (hnew : ¬ Spelled nodes word (word cur ++ [ch])) :
    Trie (addChild nodes cur ch) (Function.update word nodes.length (word cur ++ [ch])) := by
  have hgrown : Grown nodes _ word _ := grown_addChild hcur ch (word cur ++ [ch])
  have hself : Function.update word nodes.length (word cur ++ [ch]) nodes.length =
      word cur ++ [ch] := Function.update_self ..
  have hcases (u : Nat) (hu : u < (addChild nodes cur ch).length) :
      u < nodes.length ∨ u = nodes.length := by
    rw [length_addChild] at hu
    omega
  have hmem {u : Nat} {e : UInt8 × Nat} :=
    mem_children_addChild hcur ch (u := u) (e := e)
  generalize hword' : Function.update word nodes.length (word cur ++ [ch]) = word' at *
  constructor
  case pos =>
    exact Nat.lt_of_lt_of_le h.pos hgrown.length_le
  case root =>
    rw [hgrown.word_eq 0 h.pos, h.root]
  case inj =>
    -- the new word is not one of the old
    intro u v hu hv heq
    rcases hcases u hu with hu | rfl <;> rcases hcases v hv with hv | rfl
    · rw [hgrown.word_eq u hu, hgrown.word_eq v hv] at heq
      exact h.inj u v hu hv heq
    · rw [hgrown.word_eq u hu, hself] at heq
      exact absurd ⟨u, hu, heq⟩ hnew
    · rw [hgrown.word_eq v hv, hself] at heq
      exact absurd ⟨v, hv, heq.symm⟩ hnew
    · rfl
  case edge =>
    -- an edge of the new trie is an old one, or the new edge of `cur`
    intro u hu e he
    rcases hcases u hu with hu | rfl
    · rcases hmem.mp he with hold | ⟨rfl, rfl⟩
      · obtain ⟨hlt, hword⟩ := h.edge u hu e hold
        rw [hgrown.word_eq u hu, hgrown.word_eq _ hlt]
        exact ⟨Nat.lt_of_lt_of_le hlt hgrown.length_le, hword⟩
      · rw [hgrown.word_eq u hcur, hself, length_addChild]
        exact ⟨Nat.lt_succ_self _, rfl⟩
    · rw [nodeAt_addChild_new nodes hcur] at he
      exact absurd he List.not_mem_nil
  case complete =>
    -- only `cur` gains a word that extends its own
    intro u v c hu hv hword
    rcases hcases u hu with hu | rfl
    · rw [hgrown.word_eq u hu] at hword
      rcases hcases v hv with hv | rfl
      · rw [hgrown.word_eq v hv] at hword
        exact hmem.mpr (Or.inl (h.complete u v c hu hv hword))
      · rw [hself] at hword
        obtain ⟨hsame, hc⟩ := List.append_inj' hword rfl
        rw [h.inj u cur hu hcur hsame.symm, ← List.singleton_inj.mp hc]
        exact hmem.mpr (Or.inr ⟨rfl, rfl⟩)
    · -- nothing extends the new word
      exfalso
      rw [hself] at hword
      rcases hcases v hv with hv | rfl
      · rw [hgrown.word_eq v hv] at hword
        exact hnew (h.prefixClosed.init _ c ⟨v, hv, hword⟩)
      · rw [hself] at hword
        simpa using congrArg List.length hword
  case parent =>
    intro v hv hne
    rcases hcases v hv with hv | rfl
    · obtain ⟨u, c, hu, hword⟩ := h.parent v hv hne
      refine ⟨u, c, hu, ?_⟩
      rw [hgrown.word_eq u (Nat.lt_trans hu hv), hgrown.word_eq v hv, hword]
    · exact ⟨cur, ch, hcur, by rw [hself, hgrown.word_eq cur hcur]⟩
  case nodup =>
    -- the new child has an index no old child has
    intro u hu
    rw [nodeAt_addChild nodes hcur]
    rcases hcases u hu with hu | rfl
    · split
      · rw [List.map_append, List.nodup_append]
        refine ⟨h.nodup u hu, List.nodup_singleton _, ?_⟩
        intro x hx y hy heq
        obtain ⟨e, he, rfl⟩ := List.mem_map.mp hx
        have hlt := (h.edge u hu e he).1
        have hy : y = nodes.length := by simpa using hy
        omega
      · exact h.nodup u hu
    · rw [if_neg (Nat.ne_of_gt hcur), nodeAt_of_length_le (Nat.le_refl _)]
      exact List.nodup_nil

/-- Walking down one byte, with a new node where there is none yet. -/
theorem insertChar_spec {nodes : List AcNode} {word : Nat → StdString} (h : Trie nodes word)
    {cur : Nat} (hcur : cur < nodes.length) (ch : UInt8) :
    ∃ word', Trie (insertChar (nodes, cur) ch).1 word' ∧
      Grown nodes (insertChar (nodes, cur) ch).1 word word' ∧
      (insertChar (nodes, cur) ch).2 < (insertChar (nodes, cur) ch).1.length ∧
      word' (insertChar (nodes, cur) ch).2 = word cur ++ [ch] := by
  -- an existing child is taken as it is, a missing one is added
  cases hfind : findChild nodes cur ch with
  | some next =>
      have heq : insertChar (nodes, cur) ch = (nodes, next) := by simp [insertChar, hfind]
      obtain ⟨hnext, hword⟩ := (h.findChild_eq_some_iff hcur).mp hfind
      rw [heq]
      exact ⟨word, h, Grown.refl _ _, hnext, hword⟩
  | none =>
      have heq : insertChar (nodes, cur) ch = (addChild nodes cur ch, nodes.length) := by
        simp [insertChar, hfind]
      have hnew := (h.findChild_eq_none_iff hcur).mp hfind
      rw [heq]
      refine ⟨_, trie_addChild h hcur hnew, grown_addChild hcur ch _, ?_, Function.update_self ..⟩
      rw [length_addChild]
      exact Nat.lt_succ_self _

theorem foldl_insertChar_spec (w : StdString) {nodes : List AcNode} {word : Nat → StdString}
    (h : Trie nodes word) {cur : Nat} (hcur : cur < nodes.length) :
    ∃ word', Trie (w.foldl insertChar (nodes, cur)).1 word' ∧
      Grown nodes (w.foldl insertChar (nodes, cur)).1 word word' ∧
      (w.foldl insertChar (nodes, cur)).2 < (w.foldl insertChar (nodes, cur)).1.length ∧
      word' (w.foldl insertChar (nodes, cur)).2 = word cur ++ w := by
  -- on the bytes still to walk; the spelling map changes with every new node
  induction w generalizing nodes word cur with
  | nil => exact ⟨word, h, Grown.refl _ _, hcur, by simp⟩
  | cons ch w ih =>
      obtain ⟨word₁, h₁, hgrown₁, hcur₁, hword₁⟩ := insertChar_spec h hcur ch
      obtain ⟨word₂, h₂, hgrown₂, hcur₂, hword₂⟩ := ih h₁ hcur₁
      refine ⟨word₂, h₂, hgrown₁.trans hgrown₂, hcur₂, ?_⟩
      rw [List.foldl_cons, hword₂, hword₁, List.append_assoc, List.singleton_append]

/-- Only the children matter for the shape of the trie. -/
theorem Trie.of_children {nodes nodes' : List AcNode} {word : Nat → StdString}
    (h : Trie nodes word) (hlength : nodes'.length = nodes.length)
    (hchildren : ∀ u, (nodeAt nodes' u).children = (nodeAt nodes u).children) :
    Trie nodes' word where
  pos := hlength ▸ h.pos
  root := h.root
  inj := hlength ▸ h.inj
  edge := by simpa only [hlength, hchildren] using h.edge
  complete := by simpa only [hlength, hchildren] using h.complete
  parent := by simpa only [hlength] using h.parent
  nodup := by simpa only [hlength, hchildren] using h.nodup

/-- The index of the last keyword that lowers to `w`, counted from `start`. -/
def lastIndex (w : StdString) (start : Nat) : List KeywordEntry → Option Nat
  | [] => none
  | entry :: rest =>
      (lastIndex w (start + 1) rest).or (if lower entry.keyword = w then some start else none)

theorem insertKeyword_spec {nodes : List AcNode} {word : Nat → StdString} (h : Trie nodes word)
    (idx : Nat) (entry : KeywordEntry) :
    ∃ word', Trie (insertKeyword nodes idx entry) word' ∧
      nodes.length ≤ (insertKeyword nodes idx entry).length ∧
      (∀ u, u < nodes.length → word' u = word u) ∧
      Spelled (insertKeyword nodes idx entry) word' (lower entry.keyword) ∧
      (∀ u, (nodeAt (insertKeyword nodes idx entry) u).dictSuffix =
        (nodeAt nodes u).dictSuffix) ∧
      ∀ u, u < (insertKeyword nodes idx entry).length →
        (nodeAt (insertKeyword nodes idx entry) u).keywordIndex =
          (if lower entry.keyword = word' u then some idx else none).or
            (nodeAt nodes u).keywordIndex := by
  obtain ⟨word', htrie, hgrown, hcur, hword⟩ :=
    foldl_insertChar_spec (lower entry.keyword) h h.pos
  rw [h.root, List.nil_append] at hword
  -- writing the index at the end of the walk changes no child
  unfold insertKeyword
  generalize (lower entry.keyword).foldl insertChar (nodes, 0) = st at *
  obtain ⟨nodes₁, cur⟩ := st
  dsimp only at *
  have hlength : (nodes₁.modify cur fun n => { n with keywordIndex := some idx }).length =
      nodes₁.length := List.length_modify ..
  refine ⟨word', htrie.of_children hlength ?_, ?_, hgrown.word_eq, ⟨cur, ?_, hword⟩, ?_, ?_⟩
  · intro u
    rw [nodeAt_modify]
    split <;> rfl
  · rw [hlength]
    exact hgrown.length_le
  · rw [hlength]
    exact hcur
  · intro u
    rw [nodeAt_modify, ← hgrown.dictSuffix]
    split <;> rfl
  · intro u hu
    rw [hlength] at hu
    rw [nodeAt_modify, ← hgrown.keywordIndex]
    by_cases hsame : u = cur
    · rw [if_pos ⟨hsame, hu⟩, hsame, hword, if_pos rfl]
      rfl
    · have hne : lower entry.keyword ≠ word' u := by
        intro heq
        exact hsame (htrie.inj u cur hu hcur (heq.symm.trans hword.symm))
      rw [if_neg fun hand => hsame hand.1, if_neg hne, Option.none_or]

theorem insertKeywords_spec (keywords : List KeywordEntry) (start : Nat) {nodes : List AcNode}
    {word : Nat → StdString} (h : Trie nodes word) :
    ∃ word', Trie (insertKeywords nodes start keywords) word' ∧
      nodes.length ≤ (insertKeywords nodes start keywords).length ∧
      (∀ u, u < nodes.length → word' u = word u) ∧
      (∀ entry ∈ keywords,
        Spelled (insertKeywords nodes start keywords) word' (lower entry.keyword)) ∧
      (∀ u, (nodeAt (insertKeywords nodes start keywords) u).dictSuffix =
        (nodeAt nodes u).dictSuffix) ∧
      ∀ u, u < (insertKeywords nodes start keywords).length →
        (nodeAt (insertKeywords nodes start keywords) u).keywordIndex =
          (lastIndex (word' u) start keywords).or (nodeAt nodes u).keywordIndex := by
  induction keywords generalizing start nodes word with
  | nil =>
      refine ⟨word, h, Nat.le_refl _, fun _ _ => rfl, ?_, fun _ => rfl, fun _ _ => rfl⟩
      intro entry hentry
      exact absurd hentry List.not_mem_nil
  | cons entry rest ih =>
      obtain ⟨word₁, h₁, hle₁, hword₁, ⟨v, hv, hspelled⟩, hdict₁, hindex₁⟩ :=
        insertKeyword_spec h start entry
      obtain ⟨word₂, h₂, hle₂, hword₂, hrest, hdict₂, hindex₂⟩ := ih (start + 1) h₁
      refine ⟨word₂, h₂, Nat.le_trans hle₁ hle₂, ?_, ?_, ?_, ?_⟩
      · intro u hu
        rw [hword₂ u (Nat.lt_of_lt_of_le hu hle₁), hword₁ u hu]
      · rw [List.forall_mem_cons]
        refine ⟨⟨v, Nat.lt_of_lt_of_le hv hle₂, ?_⟩, hrest⟩
        rw [hword₂ v hv, hspelled]
      · intro u
        exact (hdict₂ u).trans (hdict₁ u)
      · intro u hu
        have hstep := hindex₂ u hu
        show (nodeAt (insertKeywords (insertKeyword nodes start entry) (start + 1) rest)
          u).keywordIndex = _
        rw [hstep, lastIndex, Option.or_assoc]
        congr 1
        -- an earlier index stands unless a later keyword has the same word
        rcases Nat.lt_or_ge u (insertKeyword nodes start entry).length with hold | hnew
        · rw [hindex₁ u hold, hword₂ u hold]
        · -- a node of a later keyword, which spells another word
          have hne : lower entry.keyword ≠ word₂ u := by
            intro heq
            have hvu := h₂.inj v u (Nat.lt_of_lt_of_le hv hle₂) hu
              (by rw [hword₂ v hv, hspelled, heq])
            omega
          rw [if_neg hne, nodeAt_of_length_le hnew, nodeAt_of_length_le (Nat.le_trans hle₁ hnew)]
          rfl

/-- After inserting `keywords` the nodes are a trie in which all of them are
spelled, and every node holds the last index of its word. -/
structure Inserted (keywords : List KeywordEntry) (nodes : List AcNode)
    (word : Nat → StdString) : Prop where
  trie : Trie nodes word
  spelled : ∀ entry ∈ keywords, Spelled nodes word (lower entry.keyword)
  keywordIndex : ∀ u, u < nodes.length →
    (nodeAt nodes u).keywordIndex = lastIndex (word u) 0 keywords
  rootSuffix : (nodeAt nodes 0).dictSuffix = none

theorem inserted (keywords : List KeywordEntry) :
    ∃ word, Inserted keywords (insertKeywords [{}] 0 keywords) word := by
  obtain ⟨word, htrie, -, -, hspelled, hdict, hindex⟩ := insertKeywords_spec keywords 0 trie_root
  refine ⟨word, htrie, hspelled, ?_, hdict 0⟩
  intro u hu
  rw [hindex u hu]
  have hnone : (nodeAt [{}] u).keywordIndex = none := by
    cases u <;> rfl
  rw [hnone, Option.or_none]

end AkesoDlp.Agent
