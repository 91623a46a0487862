import AkesoDlp.Server.KeywordAnalyzer

/-!
# Proximity matches

The words of the text are lowered whatever the case mode of the rule, and the keywords only
for an insensitive rule. So a sensitive rule compares exactly only as long as no word that
comes up for it is written with capitals.
-/

namespace AkesoDlp.Server

open Lib
open Inspector (PyStr)

section

variable (tables : UnicodeTables)

def textWords (text : PyStr) : List PyStr :=
  (wordPositions tables text).map fun span => slice text span.1 span.2

/-- Two different places with few enough words between them. -/
def ProximityRule.Near (rule : ProximityRule) (i j : Nat) : Prop :=
  i ≠ j ∧ wordDistance i j ≤ rule.maxDistance

/-- The words at two near places, converted in one way, are these. -/
structure ProximityRule.NearWords (rule : ProximityRule) (text : PyStr) (convert : PyStr → PyStr)
    (a b : PyStr) (i j : Nat) : Prop where
  near : rule.Near i j
  first : ((textWords tables text)[i]?).map convert = some a
  second : ((textWords tables text)[j]?).map convert = some b

/-- Near places with the keywords, under the case mode of the rule. -/
def ProximityRule.PairAt (rule : ProximityRule) (text : PyStr) (i j : Nat) : Prop :=
  rule.NearWords tables text (rule.caseMode.fold tables) (rule.caseMode.fold tables rule.keywordA)
    (rule.caseMode.fold tables rule.keywordB) i j

/-- The span goes from the first of two words to the last. -/
def ProximityMatch.Spans (m : ProximityMatch) (text : PyStr) (i j : Nat) : Prop :=
  ((wordPositions tables text)[min i j]?).map Prod.fst = some m.startOffset ∧
    ((wordPositions tables text)[max i j]?).map Prod.snd = some m.endOffset

/-- There are matches exactly if there is a pair, and each of them spans one. -/
structure ProximityRule.Exact (rule : ProximityRule) (text : PyStr)
    (reported : List ProximityMatch) : Prop where
  reported_iff : reported ≠ [] ↔ ∃ i j, rule.PairAt tables text i j
  spans : ∀ m ∈ reported, ∃ i j, rule.PairAt tables text i j ∧ m.Spans tables text i j

/-- Case is no matter: the rule is insensitive; or the keywords are in lower case, and so are
the words that come up for them; or they are not, and no words near one another are they. -/
def ProximityRule.CaseSettled (rule : ProximityRule) (text : PyStr) : Prop :=
  rule.caseMode = .insensitive ∨
    if tables.lowerText rule.keywordA = rule.keywordA ∧
        tables.lowerText rule.keywordB = rule.keywordB then
      ∀ i j, rule.NearWords tables text tables.lowerText rule.keywordA rule.keywordB i j →
        rule.NearWords tables text id rule.keywordA rule.keywordB i j
    else ∀ i j, ¬ rule.NearWords tables text id rule.keywordA rule.keywordB i j

variable {tables} {rule : ProximityRule} {text : PyStr} {i j : Nat}

/-! ## What is reported -/

theorem mem_indicesOf {words : List PyStr} {keyword : PyStr} :
    i ∈ indicesOf words keyword ↔ words[i]? = some keyword := by
  rw [indicesOf, List.mem_filter, List.mem_range, beq_iff_eq]
  exact and_iff_right_of_imp fun h => (List.getElem?_eq_some_iff.mp h).1

theorem getElem?_textWords :
    (textWords tables text)[i]? =
      ((wordPositions tables text)[i]?).map fun span => slice text span.1 span.2 :=
  List.getElem?_map

/-- The places of which the matches of a rule are made. -/
def ProximityRule.FoundAt (tables : UnicodeTables) (rule : ProximityRule) (text : PyStr)
    (i j : Nat) : Prop :=
  rule.NearWords tables text tables.lowerText (rule.caseMode.fold tables rule.keywordA)
    (rule.caseMode.fold tables rule.keywordB) i j

theorem mem_matchRule {analyzerName : String} {config : KeywordDictionaryConfig}
    {component : MessageComponent} {m : ProximityMatch} :
    m ∈ matchRule tables analyzerName config component rule ↔
      ∃ i j, rule.FoundAt tables component.content.toList i j ∧
        m = proximityMatch tables analyzerName config component rule i j := by
  have hlower : ∀ k : Nat, ((wordPositions tables component.content.toList).map fun span =>
      tables.lowerText (slice component.content.toList span.1 span.2))[k]? =
        ((textWords tables component.content.toList)[k]?).map tables.lowerText := by
    intro k
    rw [getElem?_textWords, List.getElem?_map, Option.map_map]
    rfl
  simp only [matchRule, List.mem_flatMap, List.mem_filterMap, mem_indicesOf, hlower,
    Option.ite_none_right_eq_some, Option.some.injEq]
  constructor
  · rintro ⟨i, hi, j, hj, hnear, rfl⟩
    exact ⟨i, j, ⟨hnear, hi, hj⟩, rfl⟩
  · rintro ⟨i, j, hfound, rfl⟩
    exact ⟨i, hfound.first, j, hfound.second, hfound.near, rfl⟩

theorem ProximityRule.NearWords.lt_length {convert : PyStr → PyStr} {a b : PyStr}
    (h : rule.NearWords tables text convert a b i j) :
    i < (wordPositions tables text).length ∧ j < (wordPositions tables text).length := by
  have hlength : (textWords tables text).length = (wordPositions tables text).length :=
    List.length_map _
  obtain ⟨w, hw, -⟩ := Option.map_eq_some_iff.mp h.first
  obtain ⟨v, hv, -⟩ := Option.map_eq_some_iff.mp h.second
  rw [← hlength]
  exact ⟨(List.getElem?_eq_some_iff.mp hw).1, (List.getElem?_eq_some_iff.mp hv).1⟩

theorem spans_proximityMatch {analyzerName : String} {config : KeywordDictionaryConfig}
    {component : MessageComponent}
    (h : rule.FoundAt tables component.content.toList i j) :
    (proximityMatch tables analyzerName config component rule i j).Spans tables
      component.content.toList i j := by
  obtain ⟨hi, hj⟩ := h.lt_length
  have hmin : min i j < (wordPositions tables component.content.toList).length :=
    Nat.lt_of_le_of_lt (Nat.min_le_left i j) hi
  have hmax : max i j < (wordPositions tables component.content.toList).length :=
    Nat.max_lt.mpr ⟨hi, hj⟩
  simp only [ProximityMatch.Spans, proximityMatch, List.getD_eq_getElem?_getD,
    List.getElem?_eq_getElem hmin, List.getElem?_eq_getElem hmax, Option.map_some,
    Option.getD_some, and_self]

/-- A span belongs to two places only, in either order. -/
theorem ProximityMatch.Spans.same_places {m : ProximityMatch} {i' j' : Nat}
    (h : m.Spans tables text i j) (h' : m.Spans tables text i' j') :
    (i = i' ∧ j = j') ∨ (i = j' ∧ j = i') := by
  have hsame : ∀ {a b : Nat} {f : Nat × Nat → Nat} {offset : Nat}, (f = Prod.fst ∨ f = Prod.snd) →
      ((wordPositions tables text)[a]?).map f = some offset →
      ((wordPositions tables text)[b]?).map f = some offset → a = b := by
    intro a b f offset hf ha hb
    obtain ⟨span, hspan, hoffset⟩ := Option.map_eq_some_iff.mp ha
    obtain ⟨span', hspan', hoffset'⟩ := Option.map_eq_some_iff.mp hb
    obtain ⟨hlt, rfl⟩ := List.getElem?_eq_some_iff.mp hspan
    obtain ⟨hlt', rfl⟩ := List.getElem?_eq_some_iff.mp hspan'
    have heq := hoffset.trans hoffset'.symm
    refine getElem_runs_inj hlt hlt' ?_
    rcases hf with rfl | rfl
    · exact .inl heq
    · exact .inr heq
  have hmin := hsame (.inl rfl) h.1 h'.1
  have hmax := hsame (.inr rfl) h.2 h'.2
  omega

/-! ## The case mode -/

/-- What is found for a sensitive rule has keywords in lower case. -/
theorem ProximityRule.FoundAt.lowered (hmode : rule.caseMode = .sensitive)
    (h : rule.FoundAt tables text i j) :
    tables.lowerText rule.keywordA = rule.keywordA ∧
      tables.lowerText rule.keywordB = rule.keywordB := by
  have hfirst := h.first
  have hsecond := h.second
  rw [hmode] at hfirst hsecond
  obtain ⟨w, -, hw⟩ := Option.map_eq_some_iff.mp hfirst
  obtain ⟨v, -, hv⟩ := Option.map_eq_some_iff.mp hsecond
  change tables.lowerText w = rule.keywordA at hw
  change tables.lowerText v = rule.keywordB at hv
  rw [← hw, ← hv]
  exact ⟨CaseTables.lowerText_lowerText w, CaseTables.lowerText_lowerText v⟩

theorem ProximityRule.pairAt_sensitive (hmode : rule.caseMode = .sensitive) :
    rule.PairAt tables text i j ↔
      rule.NearWords tables text id rule.keywordA rule.keywordB i j := by
  rw [PairAt, hmode]
  exact Iff.rfl

theorem ProximityRule.foundAt_sensitive (hmode : rule.caseMode = .sensitive) :
    rule.FoundAt tables text i j ↔
      rule.NearWords tables text tables.lowerText rule.keywordA rule.keywordB i j := by
  rw [FoundAt, hmode]
  exact Iff.rfl

/-- Keywords in lower case are found wherever they are. -/
theorem ProximityRule.NearWords.lowered {a b : PyStr} (h : rule.NearWords tables text id a b i j)
    (hlower : tables.lowerText a = a ∧ tables.lowerText b = b) :
    rule.NearWords tables text tables.lowerText a b i j := by
  have hfirst := h.first
  have hsecond := h.second
  rw [Option.map_id, id_eq] at hfirst hsecond
  refine ⟨h.near, ?_, ?_⟩
  · rw [hfirst, Option.map_some, hlower.1]
  · rw [hsecond, Option.map_some, hlower.2]

section

variable {analyzerName : String} {config : KeywordDictionaryConfig} {component : MessageComponent}

/-- If the pairs are what is found, the matches are exact. -/
theorem exact_of_found_iff
    (h : ∀ i j, rule.FoundAt tables component.content.toList i j ↔
      rule.PairAt tables component.content.toList i j) :
    rule.Exact tables component.content.toList
      (matchRule tables analyzerName config component rule) where
  reported_iff := by
    constructor
    · intro hne
      obtain ⟨m, hm⟩ := List.exists_mem_of_ne_nil _ hne
      obtain ⟨i, j, hfound, -⟩ := mem_matchRule.mp hm
      exact ⟨i, j, (h i j).mp hfound⟩
    · rintro ⟨i, j, hpair⟩
      exact List.ne_nil_of_mem (mem_matchRule.mpr ⟨i, j, (h i j).mpr hpair, rfl⟩)
  spans m hm := by
    obtain ⟨i, j, hfound, rfl⟩ := mem_matchRule.mp hm
    exact ⟨i, j, (h i j).mp hfound, spans_proximityMatch hfound⟩

/-- Matches that are exact are found at pairs. -/
theorem ProximityRule.Exact.pairAt (hmode : rule.caseMode = .sensitive)
    (h : rule.Exact tables component.content.toList
      (matchRule tables analyzerName config component rule))
    (hfound : rule.FoundAt tables component.content.toList i j) :
    rule.NearWords tables component.content.toList id rule.keywordA rule.keywordB i j := by
  obtain ⟨i', j', hpair, hspans⟩ := h.spans _ (mem_matchRule.mpr ⟨i, j, hfound, rfl⟩)
  rw [pairAt_sensitive hmode] at hpair
  rcases (spans_proximityMatch hfound).same_places hspans with ⟨rfl, rfl⟩ | ⟨rfl, rfl⟩
  · exact hpair
  · -- the pair the other way round: then the two keywords are the same
    have hlower := hfound.lowered hmode
    rw [foundAt_sensitive hmode] at hfound
    obtain ⟨w, hw, hwB⟩ := Option.map_eq_some_iff.mp hpair.second
    obtain ⟨v, hv, hvA⟩ := Option.map_eq_some_iff.mp hpair.first
    have hfirst := hfound.first
    rw [hw, Option.map_some, ← id_eq w, hwB, hlower.2, Option.some.injEq] at hfirst
    exact ⟨hfound.near, by rw [hw, Option.map_some, hwB, hfirst],
      by rw [hv, Option.map_some, hvA, hfirst]⟩

/-- The matches of a rule are exact if and only if case is no matter for it. -/
theorem matchProximity_exact (tables : UnicodeTables) (analyzerName : String)
    (config : KeywordDictionaryConfig) (component : MessageComponent) :
    matchProximity tables analyzerName config component =
        config.proximityRules.flatMap (matchRule tables analyzerName config component) ∧
      ∀ rule : ProximityRule,
        rule.Exact tables component.content.toList
            (matchRule tables analyzerName config component rule) ↔
          rule.CaseSettled tables component.content.toList := by
  refine ⟨?_, fun rule => ⟨fun h => ?_, fun h => ?_⟩⟩
  · unfold matchProximity
    split
    · next hempty =>
        have hnone : ∀ rule, matchRule tables analyzerName config component rule = [] := by
          intro rule
          rw [matchRule, List.isEmpty_iff.mp hempty]
          rfl
        exact (List.flatMap_eq_nil_iff.mpr fun rule _ => hnone rule).symm
    · rfl
  · cases hmode : rule.caseMode with
    | insensitive => exact .inl hmode
    | sensitive =>
        refine .inr ?_
        split
        · intro i j hfound
          exact h.pairAt hmode ((ProximityRule.foundAt_sensitive hmode).mpr hfound)
        · next hcapitals =>
            intro i j hpair
            have hne := h.reported_iff.mpr ⟨i, j, (ProximityRule.pairAt_sensitive hmode).mpr hpair⟩
            obtain ⟨m, hm⟩ := List.exists_mem_of_ne_nil _ hne
            obtain ⟨i', j', hfound, -⟩ := mem_matchRule.mp hm
            exact hcapitals (hfound.lowered hmode)
  · cases hmode : rule.caseMode with
    | insensitive =>
        refine exact_of_found_iff fun i j => ?_
        rw [ProximityRule.FoundAt, ProximityRule.PairAt, hmode]
        exact Iff.rfl
    | sensitive =>
        rcases h with hinsensitive | h
        · rw [hmode] at hinsensitive
          cases hinsensitive
        · refine exact_of_found_iff fun i j => ?_
          split at h
          · next hlower =>
              rw [ProximityRule.foundAt_sensitive hmode, ProximityRule.pairAt_sensitive hmode]
              exact ⟨h i j, fun hpair => hpair.lowered hlower⟩
          · next hcapitals =>
              rw [ProximityRule.pairAt_sensitive hmode]
              exact ⟨fun hfound => absurd (hfound.lowered hmode) hcapitals,
                fun hpair => absurd hpair (h i j)⟩

end

end

def executives : ProximityRule where
  keywordA := ['C', 'E', 'O']
  keywordB := ['C', 'F', 'O']
  maxDistance := 5
  caseMode := .sensitive

/-- Keywords with capitals are never found for a sensitive rule. -/
theorem matchProximity_exact_capitals :
    matchRule sampleTables "kw" { name := "roles", keywords := [], proximityRules := [executives] }
        ⟨.body, "CEO and CFO", []⟩ executives = [] ∧
      executives.PairAt sampleTables "CEO and CFO".toList 0 2 :=
  ⟨by decide +kernel, ⟨by decide, by decide⟩, by decide +kernel, by decide +kernel⟩

end AkesoDlp.Server
