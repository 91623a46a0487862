import AkesoDlp.Agent.KeywordLinks

/-!
# What a keyword scan reports

The state of the automaton is the longest suffix of the text read so far that
is in the trie, so the chain of dictionary suffix links behind it meets every
keyword that ends there. A scan reports exactly the occurrences of keywords,
each under the last entry whose keyword has the same lowered form.
-/

namespace AkesoDlp.Agent

open Lib

/-- The last entry whose keyword lowers to `w`: the one whose index survives at
the node of `w`. -/
def lastEntry (keywords : List KeywordEntry) (w : StdString) : Option KeywordEntry :=
  keywords.reverse.find? fun entry => lower entry.keyword == w

/-- `before` and `after` put no word character next to what is between them. -/
def Bounded (before after : StdString) : Prop :=
  (∀ c ∈ before.getLast?, isWordChar c = false) ∧ (∀ c ∈ after.head?, isWordChar c = false)

/-- The checks of an entry where its lowered keyword occurs. -/
def KeywordEntry.Accepts (entry : KeywordEntry) (before found after : StdString) : Prop :=
  (entry.caseSensitive = true → found = entry.keyword) ∧
  (entry.wholeWord = true → Bounded before after)

/-- The match reported for an entry. -/
def KeywordEntry.matchAt (entry : KeywordEntry) (offset : Nat) : KeywordMatch where
  patternId := entry.id
  label := entry.label
  keyword := entry.keyword
  offset := offset

/-! ## The last entry of a word -/

theorem lastIndex_bounds {w : StdString} {keywords : List KeywordEntry} {start i : Nat}
    (h : lastIndex w start keywords = some i) : start ≤ i ∧ i < start + keywords.length := by
  induction keywords generalizing start with
  | nil => exact absurd h (by simp [lastIndex])
  | cons entry rest ih =>
      rw [lastIndex, Option.or_eq_some_iff] at h
      rw [List.length_cons]
      rcases h with hrest | ⟨-, hhead⟩
      · have := ih hrest
        omega
      · split at hhead
        · have := Option.some.inj hhead
          omega
        · exact absurd hhead (by simp)

theorem bind_lastIndex (w : StdString) (keywords : List KeywordEntry) (start : Nat) :
    (lastIndex w start keywords).bind (fun i => keywords[i - start]?) = lastEntry keywords w := by
  induction keywords generalizing start with
  | nil => rfl
  | cons entry rest ih =>
      have hrest := ih (start + 1)
      unfold lastEntry at hrest ⊢
      rw [List.reverse_cons, List.find?_append, ← hrest, lastIndex]
      cases hlast : lastIndex w (start + 1) rest with
      | some i =>
          obtain ⟨hle, hlt⟩ := lastIndex_bounds hlast
          have hindex : i - start = i - (start + 1) + 1 := by omega
          have hget : i - (start + 1) < rest.length := by omega
          rw [Option.some_or, Option.bind_some, Option.bind_some, hindex, List.getElem?_cons_succ,
            List.getElem?_eq_getElem hget, Option.some_or]
      | none =>
          by_cases hhead : lower entry.keyword = w <;> simp [hhead]

theorem lastEntry_eq_some {keywords : List KeywordEntry} {w : StdString} {entry : KeywordEntry}
    (h : lastEntry keywords w = some entry) : entry ∈ keywords ∧ lower entry.keyword = w :=
  ⟨List.mem_reverse.mp (List.mem_of_find?_eq_some h), beq_iff_eq.mp (List.find?_some h :)⟩

theorem exists_lastEntry {keywords : List KeywordEntry} {entry : KeywordEntry}
    (h : entry ∈ keywords) : ∃ last, lastEntry keywords (lower entry.keyword) = some last := by
  rw [← Option.isSome_iff_exists, lastEntry, List.find?_isSome]
  exact ⟨entry, List.mem_reverse.mpr h, beq_self_eq_true _⟩

/-! ## The automaton -/

/-- The nodes of a built automaton. -/
structure Automaton (keywords : List KeywordEntry) (nodes : List AcNode)
    (word : Nat → StdString) : Prop where
  trie : Trie nodes word
  spelled : ∀ entry ∈ keywords, Spelled nodes word (lower entry.keyword)
  keywordIndex : ∀ u, u < nodes.length →
    (nodeAt nodes u).keywordIndex = lastIndex (word u) 0 keywords
  linked : ∀ v, v < nodes.length → v ≠ 0 → Linked nodes word v

theorem automaton_build (order : HashMapOrder) (keywords : List KeywordEntry) :
    ∃ word, Automaton keywords (buildFailureLinks order (insertKeywords [{}] 0 keywords)) word := by
  obtain ⟨word, h⟩ := inserted keywords
  obtain ⟨hshape, hlinked⟩ := buildFailureLinks_spec order h.trie h.rootSuffix
  refine ⟨word, hshape.trie h.trie, ?_, ?_, ?_⟩
  · rw [hshape.spelled]
    exact h.spelled
  · intro u hu
    rw [hshape.length_eq] at hu
    rw [hshape.keywordIndex, h.keywordIndex u hu]
  · intro v hv
    rw [hshape.length_eq] at hv
    exact hlinked v hv

/-- `m` is the match of a keyword that is a suffix of the lowered text `s`. -/
def Reports (keywords : List KeywordEntry) (data : StdString) (stop : Nat) (s : StdString)
    (m : KeywordMatch) : Prop :=
  ∃ entry, lastEntry keywords (lower entry.keyword) = some entry ∧ entry.keyword ≠ [] ∧
    lower entry.keyword <:+ s ∧ validate data stop entry = some m

section

variable {keywords : List KeywordEntry} {nodes : List AcNode} {word : Nat → StdString}
  {data : StdString} {stop : Nat} {m : KeywordMatch}

/-- The output of one node. -/
theorem mem_node_output (h : Automaton keywords nodes word) {v : Nat} (hv : v < nodes.length) :
    m ∈ ((nodeAt nodes v).keywordIndex.bind fun idx =>
        keywords[idx]?.bind (validate data stop)).toList ↔
      ∃ entry, lastEntry keywords (word v) = some entry ∧ validate data stop entry = some m := by
  have hlast := bind_lastIndex (word v) keywords 0
  rw [h.keywordIndex v hv, Option.mem_toList, ← hlast]
  simp only [Nat.sub_zero, Option.bind_eq_some_iff]
  constructor
  · rintro ⟨idx, hidx, entry, hentry, hm⟩
    exact ⟨entry, ⟨idx, hidx, hentry⟩, hm⟩
  · rintro ⟨entry, ⟨idx, hidx, hentry⟩, hm⟩
    exact ⟨idx, hidx, entry, hentry, hm⟩

/-- What is reported at a node: its own keyword, and what is reported for the
tail of its word. -/
theorem reports_node_iff (h : Automaton keywords nodes word) {v : Nat} (hv : v < nodes.length)
    (hne : v ≠ 0) :
    Reports keywords data stop (word v) m ↔
      (∃ entry, lastEntry keywords (word v) = some entry ∧ validate data stop entry = some m) ∨
      Reports keywords data stop (word v).tail m := by
  constructor
  · rintro ⟨entry, hentry, hnil, hsuffix, hm⟩
    -- a keyword that ends the word is the whole word or ends its tail
    by_cases hwhole : lower entry.keyword = word v
    · exact Or.inl ⟨entry, hwhole ▸ hentry, hm⟩
    · exact Or.inr ⟨entry, hentry, hnil, suffix_tail_of_ne hsuffix hwhole, hm⟩
  · rintro (⟨entry, hentry, hm⟩ | ⟨entry, hentry, hnil, hsuffix, hm⟩)
    · have hword := (lastEntry_eq_some hentry).2
      refine ⟨entry, hword.symm ▸ hentry, ?_, hword ▸ List.suffix_rfl, hm⟩
      intro hnil
      rw [hnil] at hword
      exact h.trie.word_ne_nil hv hne hword.symm
    · exact ⟨entry, hentry, hnil, hsuffix.trans (List.tail_suffix _), hm⟩

theorem keywordWord_of_mem (h : Automaton keywords nodes word) {entry : KeywordEntry}
    (hentry : entry ∈ keywords) : KeywordWord nodes word (lower entry.keyword) := by
  obtain ⟨u, hu, hword⟩ := h.spelled entry hentry
  refine ⟨u, hu, ?_, hword⟩
  obtain ⟨last, hlast⟩ := exists_lastEntry hentry
  rw [h.keywordIndex u hu, hword]
  rw [← bind_lastIndex _ _ 0, Option.bind_eq_some_iff] at hlast
  obtain ⟨idx, hidx, -⟩ := hlast
  rw [hidx]
  rfl

/-- Only the suffixes that are keywords count. -/
theorem reports_congr (h : Automaton keywords nodes word) {s s' : StdString}
    (hsame : ∀ w, KeywordWord nodes word w → (w <:+ s ↔ w <:+ s')) :
    Reports keywords data stop s m ↔ Reports keywords data stop s' m := by
  constructor
  · rintro ⟨entry, hentry, hnil, hsuffix, hm⟩
    have hkeyword := keywordWord_of_mem h (lastEntry_eq_some hentry).1
    exact ⟨entry, hentry, hnil, (hsame _ hkeyword).mp hsuffix, hm⟩
  · rintro ⟨entry, hentry, hnil, hsuffix, hm⟩
    have hkeyword := keywordWord_of_mem h (lastEntry_eq_some hentry).1
    exact ⟨entry, hentry, hnil, (hsame _ hkeyword).mpr hsuffix, hm⟩

theorem not_reports_nil : ¬ Reports keywords data stop [] m := by
  rintro ⟨entry, -, hnil, hsuffix, -⟩
  exact hnil (List.map_eq_nil_iff.mp (List.suffix_nil.mp hsuffix))

/-- The nodes behind a dictionary suffix link report what `s` does. -/
theorem mem_collect_nearest (h : Automaton keywords nodes word) (fuel : Nat) {s : StdString}
    {o : Option Nat} (hnearest : NearestKeyword nodes word s o) (hfuel : s.length < fuel) :
    m ∈ collect nodes keywords data stop fuel o ↔ Reports keywords data stop s m := by
  -- a dictionary link goes to a shorter word, so the length of `s` bounds the walk
  induction fuel generalizing s o with
  | zero => omega
  | succ fuel ih =>
      cases o with
      | none =>
          refine iff_of_false (by simp [collect]) ?_
          rintro ⟨entry, hentry, -, hsuffix, -⟩
          exact hnearest _ (keywordWord_of_mem h (lastEntry_eq_some hentry).1) hsuffix
      | some d =>
          obtain ⟨hd, hlongest⟩ := hnearest
          -- the keywords that end `s` are those that end the word of `d`
          rw [reports_congr h fun w hw => hlongest.suffix_iff hw, collect]
          split
          · rename_i hzero
            rw [hzero, h.trie.root]
            exact iff_of_false List.not_mem_nil not_reports_nil
          · rename_i hne
            have hlength := hlongest.suffix.length_le
            have htail : (word d).tail.length < fuel := by
              have := List.length_pos_iff.mpr (h.trie.word_ne_nil hd hne)
              rw [List.length_tail]
              omega
            rw [List.mem_append, mem_node_output h hd, ih (h.linked d hd hne).dictSuffix htail,
              reports_node_iff h hd hne]

/-- The output loop at a state reports the keywords that are suffixes of its
word. -/
theorem mem_collect_state (h : Automaton keywords nodes word) {cur : Nat}
    (hcur : cur < nodes.length) :
    m ∈ collect nodes keywords data stop nodes.length (some cur) ↔
      Reports keywords data stop (word cur) m := by
  obtain ⟨fuel, hfuel⟩ := Nat.exists_eq_add_of_lt h.trie.pos
  rw [Nat.zero_add] at hfuel
  rw [hfuel, collect]
  split
  · rename_i hzero
    rw [hzero, h.trie.root]
    exact iff_of_false List.not_mem_nil not_reports_nil
  · rename_i hne
    have hle := h.trie.length_word_le hcur
    have htail : (word cur).tail.length < fuel := by
      rw [List.length_tail]
      have := List.length_pos_iff.mpr (h.trie.word_ne_nil hcur hne)
      omega
    rw [List.mem_append, mem_node_output h hcur,
      mem_collect_nearest h fuel (h.linked cur hcur hne).dictSuffix htail,
      reports_node_iff h hcur hne]

/-- The next byte of the text, when there is one. -/
theorem read_cons {i : Nat} {ch : UInt8} {rest : StdString} (hrest : data.drop i = ch :: rest) :
    i < data.length ∧ data.take (i + 1) = data.take i ++ [ch] ∧ data.drop (i + 1) = rest := by
  refine ⟨?_, ?_, ?_⟩
  · by_contra hge
    rw [List.drop_eq_nil_of_le (Nat.le_of_not_lt hge)] at hrest
    exact List.cons_ne_nil _ _ hrest.symm
  · have hch : data[i]? = some ch := by rw [← List.head?_drop, hrest, List.head?_cons]
    rw [List.take_add_one, hch, Option.toList_some]
  · rw [← List.tail_drop, hrest, List.tail_cons]

/-- The next state fits the text with the next byte. -/
theorem Automaton.next (h : Automaton keywords nodes word) {s : StdString} {cur : Nat}
    (ch : UInt8) (hcur : cur < nodes.length)
    (hstate : LongestSuffix (Spelled nodes word) (lower s) (word cur)) :
    nextState nodes cur (toLower ch) < nodes.length ∧
      LongestSuffix (Spelled nodes word) (lower (s ++ [ch]))
        (word (nextState nodes cur (toLower ch))) := by
  have hlinked : LinkedUpTo nodes word (word cur).length := fun v hv hne _ => h.linked v hv hne
  obtain ⟨hnext, hlongest⟩ := nextState_spec h.trie hlinked (toLower ch) hcur (Nat.le_refl _)
  rw [lower_append]
  exact ⟨hnext, (hstate.extend h.trie.prefixClosed).mpr hlongest⟩

/-- The scan from a state that fits what was read so far. -/
theorem mem_scanFrom (h : Automaton keywords nodes word) {i cur : Nat} {rest : StdString}
    (hcur : cur < nodes.length) (hrest : data.drop i = rest)
    (hstate : LongestSuffix (Spelled nodes word) (lower (data.take i)) (word cur)) :
    m ∈ scanFrom nodes keywords data i cur rest ↔
      ∃ stop, i < stop ∧ stop ≤ data.length ∧
        Reports keywords data stop (lower (data.take stop)) m := by
  -- on what is left to read; the state stands for what was read
  induction rest generalizing i cur with
  | nil =>
      refine iff_of_false List.not_mem_nil ?_
      rintro ⟨stop, hlt, hle, -⟩
      have := List.drop_eq_nil_iff.mp hrest
      omega
  | cons ch rest ih =>
      obtain ⟨hlt, hread, hrest'⟩ := read_cons hrest
      obtain ⟨hnext, hstate'⟩ := h.next ch hcur hstate
      rw [← hread] at hstate'
      -- the matches that stop here are those of the state, the others come later
      rw [scanFrom, List.mem_append, mem_collect_state h hnext, ih hnext hrest' hstate',
        ← reports_congr h fun w hw => hstate'.suffix_iff hw.spelled]
      constructor
      · rintro (hreport | ⟨stop, hlt', hle, hreport⟩)
        · exact ⟨i + 1, Nat.lt_succ_self i, hlt, hreport⟩
        · exact ⟨stop, Nat.lt_of_succ_lt hlt', hle, hreport⟩
      · rintro ⟨stop, hlt', hle, hreport⟩
        rcases Nat.lt_or_ge (i + 1) stop with hlater | hnow
        · exact Or.inr ⟨stop, hlater, hle, hreport⟩
        · obtain rfl : stop = i + 1 := by omega
          exact Or.inl hreport

end

/-! ## The whole scan -/

theorem wordChar_before_iff (before rest : StdString) :
    (decide (before.length > 0) && isWordChar ((before ++ rest).getD (before.length - 1) 0)) =
        false ↔ ∀ c ∈ before.getLast?, isWordChar c = false := by
  rcases List.eq_nil_or_concat' before with rfl | ⟨init, c, rfl⟩
  · simp
  · have hget : ((init ++ [c] ++ rest).getD ((init ++ [c]).length - 1) 0) = c := by
      simp [List.append_assoc]
    rw [hget]
    simp

theorem wordChar_after_iff (front after : StdString) :
    (decide (front.length < (front ++ after).length) &&
        isWordChar ((front ++ after).getD front.length 0)) = false ↔
      ∀ c ∈ after.head?, isWordChar c = false := by
  cases after with
  | nil => simp
  | cons c rest => simp

theorem isWordBoundary_iff (before found after : StdString) :
    isWordBoundary (before ++ found ++ after) before.length found.length = true ↔
      Bounded before after := by
  have hafter := wordChar_after_iff (before ++ found) after
  rw [List.length_append] at hafter
  unfold isWordBoundary Bounded
  rw [Bool.and_eq_true, Bool.not_eq_true', Bool.not_eq_true', hafter, List.append_assoc,
    wordChar_before_iff]

theorem validate_eq_some_iff (entry : KeywordEntry) (before found after : StdString)
    (hlength : found.length = entry.keyword.length) (m : KeywordMatch) :
    validate (before ++ found ++ after) (before.length + found.length) entry = some m ↔
      entry.Accepts before found after ∧ m = entry.matchAt before.length := by
  have hstart : before.length + found.length - entry.keyword.length = before.length := by omega
  have hslice : ((before ++ found ++ after).drop before.length).take entry.keyword.length =
      found := by
    rw [List.append_assoc, List.drop_left, ← hlength, List.take_left]
  -- the two flags, each of which turns a check off
  have hchecks : ((!entry.caseSensitive || found == entry.keyword) &&
      (!entry.wholeWord ||
        isWordBoundary (before ++ found ++ after) before.length entry.keyword.length)) = true ↔
      entry.Accepts before found after := by
    rw [← hlength, Bool.and_eq_true, Bool.or_eq_true, Bool.or_eq_true, isWordBoundary_iff,
      beq_iff_eq, Bool.not_eq_true', Bool.not_eq_true']
    unfold KeywordEntry.Accepts
    cases entry.caseSensitive <;> cases entry.wholeWord <;> simp
  unfold validate
  simp only [hstart, hslice]
  rw [Option.ite_none_right_eq_some, hchecks, Option.some_inj, eq_comm (a := m)]
  rfl

/-- What a text ends with at `stop` is a split of the text there. -/
theorem suffix_take_iff {data w : StdString} {stop : Nat} (hstop : stop ≤ data.length) :
    lower w <:+ lower (data.take stop) ↔
      ∃ before found after, data = before ++ found ++ after ∧
        before.length + found.length = stop ∧ lower found = lower w := by
  constructor
  · rintro ⟨front, hfront⟩
    unfold lower at hfront
    rw [eq_comm, List.map_eq_append_iff] at hfront
    obtain ⟨before, found, hsplit, -, hfound⟩ := hfront
    refine ⟨before, found, data.drop stop, ?_, ?_, hfound⟩
    · rw [← hsplit, List.take_append_drop]
    · rw [← List.length_append, ← hsplit, List.length_take_of_le hstop]
  · rintro ⟨before, found, after, rfl, rfl, hfound⟩
    rw [← List.length_append, List.take_left, lower_append, hfound]
    exact List.suffix_append _ _

/-- Before the first byte the root is the longest suffix. -/
theorem Automaton.start {keywords : List KeywordEntry} {nodes : List AcNode}
    {word : Nat → StdString} (h : Automaton keywords nodes word) {data : StdString} :
    LongestSuffix (Spelled nodes word) (lower (data.take 0)) (word 0) := by
  rw [h.trie.root]
  exact LongestSuffix.nil h.trie.prefixClosed

theorem scan_buildAutomaton (ka : KeywordAnalyzer) {keywords : List KeywordEntry}
    (hne : keywords ≠ []) {data : StdString} :
    (ka.buildAutomaton keywords).2.scan data =
      scanFrom (buildFailureLinks ka.order (insertKeywords [{}] 0 keywords)) keywords data 0 0
        data := by
  obtain ⟨word, h⟩ := automaton_build ka.order keywords
  have hnodes := List.length_pos_iff.mp h.trie.pos
  simp [KeywordAnalyzer.buildAutomaton, KeywordAnalyzer.scan, hne, hnodes]

/-- A scan reports the occurrences of keywords that pass the checks of the last
entry with that lowered keyword, and nothing else. -/
theorem mem_scan_iff (ka : KeywordAnalyzer) {keywords : List KeywordEntry} (hne : keywords ≠ [])
    {data : StdString} {m : KeywordMatch} :
    m ∈ (ka.buildAutomaton keywords).2.scan data ↔
      ∃ entry before found after, data = before ++ found ++ after ∧ found ≠ [] ∧
        lastEntry keywords (lower found) = some entry ∧ entry.Accepts before found after ∧
        m = entry.matchAt before.length := by
  obtain ⟨word, h⟩ := automaton_build ka.order keywords
  rw [scan_buildAutomaton ka hne, mem_scanFrom h h.trie.pos List.drop_zero h.start]
  constructor
  · rintro ⟨stop, -, hstop, entry, hlast, hnil, hsuffix, hm⟩
    obtain ⟨before, found, after, rfl, rfl, hfound⟩ := (suffix_take_iff hstop).mp hsuffix
    have hlength : found.length = entry.keyword.length := by
      rw [← length_lower, hfound, length_lower]
    obtain ⟨haccepts, rfl⟩ := (validate_eq_some_iff entry before found after hlength m).mp hm
    refine ⟨entry, before, found, after, rfl, ?_, hfound ▸ hlast, haccepts, rfl⟩
    rintro rfl
    exact hnil (List.length_eq_zero_iff.mp hlength.symm)
  · rintro ⟨entry, before, found, after, rfl, hnil, hlast, haccepts, rfl⟩
    have hfound := (lastEntry_eq_some hlast).2
    have hlength : found.length = entry.keyword.length := by
      rw [← length_lower, ← hfound, length_lower]
    have hpos := List.length_pos_iff.mpr hnil
    have hstop : before.length + found.length ≤ (before ++ found ++ after).length := by
      rw [List.length_append, List.length_append]
      omega
    refine ⟨before.length + found.length, by omega, hstop, entry, hfound.symm ▸ hlast, ?_, ?_, ?_⟩
    · intro hempty
      rw [hempty] at hlength
      exact hnil (List.length_eq_zero_iff.mp hlength)
    · exact (suffix_take_iff hstop).mpr ⟨before, found, after, rfl, rfl, hfound.symm⟩
    · exact (validate_eq_some_iff entry before found after hlength _).mpr ⟨haccepts, rfl⟩

end AkesoDlp.Agent
