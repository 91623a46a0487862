import AkesoDlp.Agent.KeywordScan

/-!
# The keyword scan is exact

Keywords that differ in more than case have nodes of their own. A scan then reports every
occurrence of every keyword, and each of them once: the matches of one position get shorter
along the dictionary suffix links, and matches of different positions end at different bytes.
-/

namespace AkesoDlp.Agent

open Lib

/-- The keyword occurs at the offset, up to the case of ASCII letters, and the options of
the entry admit it there. -/
def KeywordEntry.OccursAt (entry : KeywordEntry) (data : StdString) (offset : Nat) : Prop :=
  ∃ before found after, data = before ++ found ++ after ∧ before.length = offset ∧
    lower found = lower entry.keyword ∧ entry.Accepts before found after

theorem validate_fields {data : StdString} {stop : Nat} {entry : KeywordEntry} {m : KeywordMatch}
    (h : validate data stop entry = some m) :
    m.keyword = entry.keyword ∧ m.offset = stop - entry.keyword.length := by
  obtain ⟨-, hm⟩ := Option.ite_none_right_eq_some.mp h
  obtain rfl := Option.some.inj hm
  exact ⟨rfl, rfl⟩

section

variable {keywords : List KeywordEntry} {nodes : List AcNode} {word : Nat → StdString}
  {data : StdString} {stop : Nat} {m : KeywordMatch}

/-- A reported match ends where it was reported. -/
theorem Reports.ends (h : Reports keywords data stop (lower (data.take stop)) m) :
    m.offset + m.keyword.length = stop := by
  obtain ⟨entry, -, -, hsuffix, hm⟩ := h
  obtain ⟨hkeyword, hoffset⟩ := validate_fields hm
  have hlength := hsuffix.length_le
  rw [length_lower, length_lower, List.length_take] at hlength
  rw [hkeyword, hoffset]
  omega

/-- Along the dictionary suffix links the keywords get shorter. -/
theorem collect_shorter (h : Automaton keywords nodes word) (fuel : Nat) {v : Nat}
    (hv : v < nodes.length) :
    ((collect nodes keywords data stop fuel (some v)).Pairwise fun a b =>
        b.keyword.length < a.keyword.length) ∧
      ∀ m ∈ collect nodes keywords data stop fuel (some v),
        m.keyword.length ≤ (word v).length := by
  induction fuel generalizing v with
  | zero => exact ⟨List.Pairwise.nil, by simp [collect]⟩
  | succ fuel ih =>
      rw [collect]
      split
      · exact ⟨List.Pairwise.nil, by simp⟩
      · next hne =>
          have hown : ∀ m ∈ ((nodeAt nodes v).keywordIndex.bind fun idx =>
              keywords[idx]?.bind (validate data stop)).toList,
              m.keyword.length = (word v).length := by
            intro m hm
            obtain ⟨entry, hentry, hvalid⟩ := (mem_node_output h hv).mp hm
            rw [(validate_fields hvalid).1, ← (lastEntry_eq_some hentry).2, length_lower]
          have hpos := List.length_pos_iff.mpr (h.trie.word_ne_nil hv hne)
          -- what lies behind the link is shorter than the word of the node
          have hrest : ((collect nodes keywords data stop fuel
                (nodeAt nodes v).dictSuffix).Pairwise fun a b =>
                  b.keyword.length < a.keyword.length) ∧
              ∀ m ∈ collect nodes keywords data stop fuel (nodeAt nodes v).dictSuffix,
                m.keyword.length < (word v).length := by
            have hnearest := (h.linked v hv hne).dictSuffix
            cases hlink : (nodeAt nodes v).dictSuffix with
            | none =>
                cases fuel with
                | zero => exact ⟨List.Pairwise.nil, by simp [collect]⟩
                | succ fuel => exact ⟨List.Pairwise.nil, by simp [collect]⟩
            | some d =>
                rw [hlink] at hnearest
                obtain ⟨hd, hlongest⟩ := hnearest
                obtain ⟨hpairwise, hle⟩ := ih hd
                have hlength := hlongest.suffix.length_le
                rw [List.length_tail] at hlength
                refine ⟨hpairwise, fun m hm => ?_⟩
                have := hle m hm
                omega
          constructor
          · refine List.pairwise_append.mpr ⟨?_, hrest.1, ?_⟩
            · cases ((nodeAt nodes v).keywordIndex.bind fun idx =>
                keywords[idx]?.bind (validate data stop)) with
              | none => exact List.Pairwise.nil
              | some m => exact List.pairwise_singleton _ _
            · intro a ha b hb
              rw [hown a ha]
              exact hrest.2 b hb
          · intro m hm
            rcases List.mem_append.mp hm with hm | hm
            · exact Nat.le_of_eq (hown m hm)
            · exact Nat.le_of_lt (hrest.2 m hm)

/-- The scan from a state that fits what was read so far reports nothing twice. -/
theorem scanFrom_once (h : Automaton keywords nodes word) {i cur : Nat} {rest : StdString}
    (hcur : cur < nodes.length) (hrest : data.drop i = rest)
    (hstate : LongestSuffix (Spelled nodes word) (lower (data.take i)) (word cur)) :
    (scanFrom nodes keywords data i cur rest).Pairwise fun a b =>
      (a.keyword, a.offset) ≠ (b.keyword, b.offset) := by
  induction rest generalizing i cur with
  | nil => exact List.Pairwise.nil
  | cons ch rest ih =>
      obtain ⟨-, hread, hrest'⟩ := read_cons hrest
      obtain ⟨hnext, hstate'⟩ := h.next ch hcur hstate
      rw [← hread] at hstate'
      rw [scanFrom]
      refine List.pairwise_append.mpr ⟨?_, ih hnext hrest' hstate', ?_⟩
      · refine (collect_shorter h nodes.length hnext).1.imp ?_
        intro a b hlt heq
        rw [(Prod.mk.inj heq).1] at hlt
        exact Nat.lt_irrefl _ hlt
      · -- what is reported later ends later
        intro a ha b hb heq
        obtain ⟨later, hlater, -, hb⟩ := (mem_scanFrom h hnext hrest' hstate').mp hb
        have ha := (reports_congr h fun w hw => hstate'.suffix_iff hw.spelled).mpr
          ((mem_collect_state h hnext).mp ha)
        have hends := ha.ends
        rw [(Prod.mk.inj heq).1, (Prod.mk.inj heq).2, hb.ends] at hends
        omega

end

theorem lastEntry_of_distinct {keywords : List KeywordEntry}
    (hdistinct : (keywords.map fun entry => lower entry.keyword).Nodup) {w : StdString}
    {entry : KeywordEntry} :
    lastEntry keywords w = some entry ↔ entry ∈ keywords ∧ lower entry.keyword = w := by
  constructor
  · exact lastEntry_eq_some
  · rintro ⟨hentry, rfl⟩
    obtain ⟨last, hlast⟩ := exists_lastEntry hentry
    obtain ⟨hmem, hlower⟩ := lastEntry_eq_some hlast
    rw [hlast, List.inj_on_of_nodup_map hdistinct hmem hentry hlower]

theorem scan_once (ka : KeywordAnalyzer) {keywords : List KeywordEntry} (hne : keywords ≠ [])
    (data : StdString) :
    (((ka.buildAutomaton keywords).2.scan data).map fun m => (m.keyword, m.offset)).Nodup := by
  obtain ⟨word, h⟩ := automaton_build ka.order keywords
  rw [scan_buildAutomaton ka hne]
  exact List.pairwise_map.mpr (scanFrom_once h h.trie.pos List.drop_zero h.start)

/-- For keywords that are not empty and differ in more than case, a scan after
`BuildAutomaton` reports exactly the pairs of a keyword and an offset at which it occurs,
each once. (`BuildAutomaton` takes no empty list: with one a used analyzer stays as it is.) -/
theorem scan_exact (ka : KeywordAnalyzer) (keywords : List KeywordEntry)
    (hnonempty : ∀ entry ∈ keywords, entry.keyword ≠ [])
    (hdistinct : (keywords.map fun entry => lower entry.keyword).Nodup)
    (hbuilt : keywords = [] → ka.built = false) (data : StdString) :
    (∀ m, m ∈ (ka.buildAutomaton keywords).2.scan data ↔
        ∃ entry ∈ keywords, ∃ offset, entry.OccursAt data offset ∧ m = entry.matchAt offset) ∧
      (((ka.buildAutomaton keywords).2.scan data).map fun m => (m.keyword, m.offset)).Nodup := by
  by_cases hne : keywords = []
  · subst hne
    have hscan : (ka.buildAutomaton []).2.scan data = [] := by
      simp [KeywordAnalyzer.buildAutomaton, KeywordAnalyzer.scan, hbuilt rfl]
    rw [hscan]
    exact ⟨by simp, List.nodup_nil⟩
  · refine ⟨fun m => ?_, scan_once ka hne data⟩
    rw [mem_scan_iff ka hne]
    constructor
    · rintro ⟨entry, before, found, after, hdata, -, hlast, haccepts, rfl⟩
      obtain ⟨hentry, hlower⟩ := lastEntry_eq_some hlast
      exact ⟨entry, hentry, before.length,
        ⟨before, found, after, hdata, rfl, hlower.symm, haccepts⟩, rfl⟩
    · rintro ⟨entry, hentry, offset, ⟨before, found, after, hdata, rfl, hlower, haccepts⟩, rfl⟩
      refine ⟨entry, before, found, after, hdata, ?_, ?_, haccepts, rfl⟩
      · rintro rfl
        exact hnonempty entry hentry (List.map_eq_nil_iff.mp hlower.symm)
      · exact (lastEntry_of_distinct hdistinct).mpr ⟨hentry, hlower.symm⟩

/-- Keywords that are suffixes and infixes of one another. -/
def nestedKeywords : List KeywordEntry :=
  [{ id := 0, keyword := str "she", label := str "she" },
    { id := 1, keyword := str "he", label := str "he", wholeWord := true },
    { id := 2, keyword := str "HERS", label := str "hers" },
    { id := 3, keyword := str "e", label := str "e", caseSensitive := true }]

example :
    ((({ order := .insertion } : KeywordAnalyzer).buildAutomaton nestedKeywords).2.scan
      (str "usHers")).map (fun m => (m.patternId, m.offset)) = [(0, 1), (3, 3), (2, 2)] := by
  decide +kernel

theorem scan_exact_nested :
    (∀ m, m ∈ (({ order := .insertion } : KeywordAnalyzer).buildAutomaton nestedKeywords).2.scan
        (str "usHers") ↔
      ∃ entry ∈ nestedKeywords, ∃ offset,
        entry.OccursAt (str "usHers") offset ∧ m = entry.matchAt offset) ∧
      (((({ order := .insertion } : KeywordAnalyzer).buildAutomaton nestedKeywords).2.scan
        (str "usHers")).map fun m => (m.keyword, m.offset)).Nodup :=
  scan_exact { order := .insertion } nestedKeywords (by decide) (by decide) (fun _ => rfl)
    (str "usHers")

/-- With an empty list a used analyzer goes on reporting the old keywords. -/
theorem not_scan_exact_reused :
    ¬ ∀ (ka : KeywordAnalyzer) (keywords : List KeywordEntry),
      (∀ entry ∈ keywords, entry.keyword ≠ []) →
      (keywords.map fun entry => lower entry.keyword).Nodup → ∀ data : StdString,
        (∀ m, m ∈ (ka.buildAutomaton keywords).2.scan data ↔
            ∃ entry ∈ keywords, ∃ offset, entry.OccursAt data offset ∧ m = entry.matchAt offset) ∧
          (((ka.buildAutomaton keywords).2.scan data).map
            fun m => (m.keyword, m.offset)).Nodup := by
  intro h
  have hscan : (((({ order := .insertion } : KeywordAnalyzer).buildAutomaton
      nestedKeywords).2.buildAutomaton []).2.scan (str "he")).head?.isSome = true := by
    decide +kernel
  obtain ⟨m, hm⟩ := Option.isSome_iff_exists.mp hscan
  obtain ⟨entry, hentry, -⟩ := ((h _ [] (List.forall_mem_nil _) List.nodup_nil _).1 m).mp
    (List.mem_of_head? hm)
  cases hentry

end AkesoDlp.Agent
