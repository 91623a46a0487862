import AkesoDlp.Server.KeywordAnalyzer

/-!
# The offsets of keyword matches

Matches are found in the lowered text, and their offsets are used in the text itself. The two
fit together as long as lowering keeps every part of the text in its place.
-/

namespace AkesoDlp.Server

open Lib
open Inspector (PyStr)

section

variable (tables : UnicodeTables)

/-- The offsets of a match point at its text, and this is the keyword. -/
def KeywordMatch.Evidence (m : KeywordMatch) : Prop :=
  slice m.component.content.toList m.startOffset m.endOffset = m.matchedText.toList ∧
    m.caseMode.fold tables m.matchedText.toList = m.caseMode.fold tables m.keyword

variable {tables}

theorem lookup_buildAutomaton {config : KeywordDictionaryConfig} {key : PyStr}
    {stored : StoredKeyword}
    (h : (buildAutomaton tables config).reverse.lookup key = some stored) :
    config.caseMode.fold tables stored.1 = key ∧ stored.2 = key.length := by
  obtain ⟨front, back, hwords, -⟩ := List.lookup_eq_some_iff.mp h
  have hmem : (key, stored) ∈ buildAutomaton tables config := by
    rw [← List.mem_reverse, hwords]
    exact List.mem_append_right _ List.mem_cons_self
  obtain ⟨keyword, -, hkeyword⟩ := List.mem_map.mp hmem
  obtain ⟨rfl, rfl⟩ := Prod.mk.inj hkeyword
  exact ⟨rfl, rfl⟩

/-- Where a match comes from: its key in the search text. -/
theorem mem_matchKeywords {library : AhoCorasick} {analyzerName : String}
    {config : KeywordDictionaryConfig} {component : MessageComponent} {m : KeywordMatch}
    (h : m ∈ matchKeywords tables library analyzerName config component) :
    ∃ before key after, key ≠ [] ∧
      config.caseMode.fold tables component.content.toList = before ++ key ++ after ∧
      config.caseMode.fold tables m.keyword = key ∧ m.component = component ∧
      m.caseMode = config.caseMode ∧ m.startOffset = before.length ∧
      m.endOffset = before.length + key.length ∧
      m.matchedText.toList =
        slice component.content.toList before.length (before.length + key.length) := by
  obtain ⟨⟨endIdx, keyword, length⟩, hhit, hm⟩ := List.mem_filterMap.mp h
  obtain ⟨key, before, after, hkey, hlookup, htext, hend⟩ := (library.mem_iter ..).mp hhit
  obtain ⟨hfold, rfl⟩ := lookup_buildAutomaton hlookup
  dsimp only at hm
  split at hm
  · cases hm
  · obtain rfl := Option.some.inj hm
    have hstart : endIdx + 1 - key.length = before.length := by omega
    refine ⟨before, key, after, hkey, htext, hfold, rfl, rfl, hstart, hend, ?_⟩
    rw [String.toList_ofList, hstart, hend]

/-- Where whole words are not asked for, every occurrence of a key is reported. -/
theorem exists_mem_matchKeywords (library : AhoCorasick) {component : MessageComponent}
    {before keyword after : PyStr} (mode : CaseMode) (hkeyword : keyword ≠ [])
    (hfixed : mode.fold tables keyword = keyword)
    (htext : mode.fold tables component.content.toList = before ++ keyword ++ after) :
    ∃ m ∈ matchKeywords tables library ""
        { name := "", keywords := [keyword], caseMode := mode, wholeWord := false } component,
      m.keyword = keyword ∧ m.caseMode = mode ∧ m.component = component ∧
        m.matchedText.toList =
          slice component.content.toList before.length (before.length + keyword.length) := by
  have hlength := List.length_pos_iff.mpr hkeyword
  have hhit : (before.length + keyword.length - 1, keyword, keyword.length) ∈ library.iter
      (buildAutomaton tables { name := "", keywords := [keyword], caseMode := mode })
      (mode.fold tables component.content.toList) := by
    refine (library.mem_iter ..).mpr ⟨keyword, before, after, hkeyword, ?_, htext, by omega⟩
    simp [buildAutomaton, hfixed]
  refine ⟨_, List.mem_filterMap.mpr ⟨_, hhit, rfl⟩, rfl, rfl, rfl, ?_⟩
  have hend : before.length + keyword.length - 1 + 1 = before.length + keyword.length := by omega
  dsimp only
  rw [String.toList_ofList, hend, Nat.add_sub_cancel]

/-- The matches of every dictionary of a case mode point at their evidence if and only if the
mode is sensitive or lowering keeps the places in the text. -/
theorem matchKeywords_evidence (tables : UnicodeTables) (library : AhoCorasick) (mode : CaseMode)
    (component : MessageComponent) :
    (∀ analyzerName, ∀ config : KeywordDictionaryConfig, config.caseMode = mode →
      ∀ m ∈ matchKeywords tables library analyzerName config component, m.Evidence tables) ↔
      mode = .sensitive ∨ tables.PlainText component.content.toList := by
  constructor
  · intro h
    cases mode with
    | sensitive => exact .inl rfl
    | insensitive =>
        refine .inr (CaseTables.plainText_iff_lowersByParts.mpr ?_)
        intro before part after hpart hlower
        have hlowered : tables.Lowered part := fun c hc =>
          tables.lowered_lowerFrom [] component.content.toList c
            (by rw [← CaseTables.lowerText, hlower]; simp [hc])
        have hfixed : tables.lowerText part = part := hlowered.lowerFrom_eq []
        obtain ⟨m, hm, hkeyword, hmode, -, hmatched⟩ :=
          exists_mem_matchKeywords library .insensitive hpart hfixed hlower
        have hfold := (h _ _ rfl m hm).2
        rw [hmode, hkeyword, hmatched] at hfold
        exact hfold.trans hfixed
  · rintro h analyzerName config rfl m hm
    obtain ⟨before, key, after, hkey, htext, hkeyword, hcomponent, hmode, hstart, hend, hmatched⟩ :=
      mem_matchKeywords hm
    refine ⟨by rw [hcomponent, hstart, hend, hmatched], ?_⟩
    rw [hmode, hkeyword, hmatched]
    cases hcase : config.caseMode with
    | sensitive =>
        rw [hcase] at htext
        change component.content.toList = _ at htext
        change slice _ _ _ = key
        rw [slice, htext, ← List.length_append, List.take_left, List.drop_left]
    | insensitive =>
        rw [hcase] at htext h
        have hplain := h.resolve_left CaseMode.noConfusion
        exact hplain.lowersByParts before key after hkey htext

end

/-- U+0130 becomes two characters, and what follows it is taken one place too far. -/
theorem matchKeywords_evidence_dottedI :
    ∃ m ∈ matchKeywords sampleTables everyPlace "kw"
        { name := "pci", keywords := [['v', 'i', 's', 'a']] }
        ⟨.body, String.ofList (dottedI :: " visa".toList), []⟩,
      slice m.component.content.toList m.startOffset m.endOffset = ['i', 's', 'a'] ∧
        sampleTables.lowerText ['i', 's', 'a'] ≠ sampleTables.lowerText m.keyword := by
  decide +kernel

end AkesoDlp.Server
