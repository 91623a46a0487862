import AkesoDlp.Agent.PolicyHistory
import AkesoDlp.Agent.RegexContainment

/-!
# The evidence of a regex match

`RunDetection` cuts the matched text out of the scanned one by the two offsets of the
callback. `UpdatePolicies` compiles without `HS_FLAG_SOM_LEFTMOST`, so the start is 0, and
what is cut out is all of the text up to the end of the match.
-/

namespace AkesoDlp.Agent

open DetectionPipeline

/-- `HS_FLAG_SOM_LEFTMOST` -/
def hsFlagSomLeftmost : Nat := 256

/-- Hyperscan in block mode as documented: `occurs expression flags text start stop` says that
the text has a match of the expression from `start` to `stop`. The ends of all matches are
reported, with a start of 0 for an expression that was not compiled with the flag. -/
structure HsSemantics (hs : Hyperscan) where
  occurs : StdString → Nat → StdString → Nat → Nat → Prop
  le_stop : ∀ {e flags text start stop}, occurs e flags text start stop → start ≤ stop
  stop_le : ∀ {e flags text start stop}, occurs e flags text start stop → stop ≤ text.length
  reports : ∀ {sources database}, hs.compileMulti sources = some database →
    ∀ (text : StdString) (id stop : Nat),
      (∃ m ∈ hs.scan database text, m.id = id ∧ m.stop = stop) ↔
        ∃ e flags, (e, flags, id) ∈ sources ∧ ∃ start, occurs e flags text start stop
  start_eq_zero : ∀ {sources database}, hs.compileMulti sources = some database →
    ∀ text, ∀ m ∈ hs.scan database text,
      (∀ source ∈ sources, source.2.2 = m.id → source.2.1 &&& hsFlagSomLeftmost = 0) → m.start = 0

variable {env : PipelineEnv}

/-- The matched text is a part of the text that ends at the reported end, and the pattern of
the label matches it. -/
structure RegexEvidence (semantics : HsSemantics env.hs) (text : StdString) (m : MatchResult)
    (dm : DetectionMatch) : Prop where
  part : dm.matchedText <:+: text
  ends : dm.matchedText <:+ text.take m.stop ∧ m.stop ≤ text.length
  «matches» : semantics.occurs (cStr dm.label) 0 dm.matchedText 0 dm.matchedText.length

/-- All regex matches of a detection carry such evidence. -/
def DetectionPipeline.EvidenceMatches (p : DetectionPipeline env) (semantics : HsSemantics env.hs)
    (content : List UInt8) (filename : StdString) (fileSize : Int) : Prop :=
  ∀ detection, p.runDetection content filename fileSize = .ok detection →
    ∀ dm ∈ detection.matches, dm.analyzerName = str "regex" →
      ∃ fileType extractions, env.extract content filename = .ok (fileType, extractions) ∧
        ∃ text ∈ scannedTexts extractions, ∃ m ∈ p.regexAnalyzer.scan text,
          dm = regexMatch text m ∧ RegexEvidence semantics text m dm

/-- The list compiles. -/
def Compiles (hs : Hyperscan) (policies : List Policy) : Prop :=
  ∃ database, hs.compileMulti ((regexPatterns policies).map RegexPattern.source) = some database ∧
    hs.allocScratch database = true

/-- In the scanned texts, wherever a pattern in force ends a match, it matches all of the text
up to there. -/
def MatchesFromStart (semantics : HsSemantics env.hs) (updates : List (List Policy))
    (content : List UInt8) (filename : StdString) : Prop :=
  ∀ fileType extractions, env.extract content filename = .ok (fileType, extractions) →
    ∀ text ∈ scannedTexts extractions, ∀ policies, latestWith .regex updates = some policies →
      Compiles env.hs policies → ∀ label ∈ conditionLabels .regex policies, ∀ start stop,
        semantics.occurs (cStr label) 0 text start stop →
          semantics.occurs (cStr label) 0 (text.take stop) 0 stop

/-! ## What is reported -/

theorem keywordMatch_analyzerName_ne {m : KeywordMatch} :
    (keywordMatch m).analyzerName ≠ str "regex" := by
  change str "keyword" ≠ str "regex"
  decide

/-- The matches of the regex analyzer among those of a detection. -/
theorem mem_regex_iff {p : DetectionPipeline env} {extractions : List ExtractionResult}
    {dm : DetectionMatch} :
    dm ∈ (scannedTexts extractions).flatMap p.scanText ∧ dm.analyzerName = str "regex" ↔
      ∃ text ∈ scannedTexts extractions, ∃ m ∈ p.regexAnalyzer.scan text,
        dm = regexMatch text m := by
  constructor
  · rintro ⟨hmem, hname⟩
    obtain ⟨text, htext, hdm⟩ := List.mem_flatMap.mp hmem
    rcases List.mem_append.mp hdm with hregex | hkeyword
    · obtain ⟨m, hm, rfl⟩ := List.mem_map.mp hregex
      exact ⟨text, htext, m, hm, rfl⟩
    · obtain ⟨m, -, rfl⟩ := List.mem_map.mp hkeyword
      exact absurd hname keywordMatch_analyzerName_ne
  · rintro ⟨text, htext, m, hm, rfl⟩
    exact ⟨List.mem_flatMap.mpr
      ⟨text, htext, List.mem_append_left _ (List.mem_map_of_mem hm)⟩, rfl⟩

/-- Patterns have the flags 0, their labels for expressions, and an id each. -/
theorem mem_regexPatterns {policies : List Policy} {pattern : RegexPattern} :
    pattern ∈ regexPatterns policies ↔
      ∃ i, ∃ h : i < (conditionLabels .regex policies).length,
        pattern = ⟨i + 1, (conditionLabels .regex policies)[i], 0,
          (conditionLabels .regex policies)[i]⟩ := by
  rw [regexPatterns, List.mem_mapIdx]
  exact exists_congr fun i => exists_congr fun h => eq_comm

/-- The callback finds the label of the pattern. -/
theorem label_onMatch {policies : List Policy} {pattern : RegexPattern}
    (h : pattern ∈ regexPatterns policies) {m : HsMatch} (hid : m.id = pattern.id) :
    (HsRegexAnalyzer.onMatch (regexPatterns policies) m).label = pattern.label := by
  unfold HsRegexAnalyzer.onMatch
  dsimp only
  cases hfind : (regexPatterns policies).reverse.find? fun p => p.id == m.id with
  | none =>
      have hnone := List.find?_eq_none.mp hfind pattern (List.mem_reverse.mpr h)
      exact absurd (beq_iff_eq.mpr hid.symm) hnone
  | some found =>
      have hfound := List.find?_some (p := fun p : RegexPattern => p.id == m.id) hfind
      obtain ⟨i, hi, rfl⟩ := mem_regexPatterns.mp h
      obtain ⟨j, hj, rfl⟩ := mem_regexPatterns.mp
        (List.mem_reverse.mp (List.mem_of_find?_eq_some hfind))
      have hij : j = i := Nat.succ.inj ((beq_iff_eq.mp hfound).trans hid)
      subst hij
      rfl

theorem scan_of_database {hs : Hyperscan} {database : hs.Database} {patterns : List RegexPattern}
    {text : StdString} (htext : text ≠ []) :
    HsRegexAnalyzer.scan { database := some database, patterns := patterns } text =
      (hs.scan database text).map (HsRegexAnalyzer.onMatch patterns) := by
  simp [HsRegexAnalyzer.scan, htext]

/-- What the analyzer of a compiled list reports: each end of a match of one of its patterns,
from the beginning of the text. -/
theorem mem_scan_compiled (semantics : HsSemantics env.hs) {policies : List Policy}
    (hlabels : conditionLabels .regex policies ≠ []) {text : StdString} (htext : text ≠ [])
    {label : StdString} {stop : Nat} :
    (∃ m ∈ (compiled env.hs policies).scan text, m.label = label ∧ m.stop = stop) ↔
      Compiles env.hs policies ∧ label ∈ conditionLabels .regex policies ∧
        ∃ start, semantics.occurs (cStr label) 0 text start stop := by
  have hne : regexPatterns policies ≠ [] := fun hnil => hlabels (regexPatterns_eq_nil_iff.mp hnil)
  unfold compiled
  obtain ⟨hnil, -⟩ | ⟨database, -, hcompile, halloc, heq⟩ | ⟨-, hfail, heq⟩ :=
    HsRegexAnalyzer.compilePatterns_cases ({} : HsRegexAnalyzer env.hs) (regexPatterns policies)
  · exact absurd hnil hne
  · rw [heq]
    constructor
    · rintro ⟨m, hm, rfl, rfl⟩
      obtain ⟨hit, hhit, rfl⟩ := List.mem_map.mp (scan_of_database htext ▸ hm)
      obtain ⟨e, flags, hsource, start, hoccurs⟩ :=
        (semantics.reports hcompile text hit.id hit.stop).mp ⟨hit, hhit, rfl, rfl⟩
      obtain ⟨pattern, hpattern, heq⟩ := List.mem_map.mp hsource
      obtain ⟨i, hi, rfl⟩ := mem_regexPatterns.mp hpattern
      obtain ⟨rfl, rfl, hid⟩ : cStr _ = e ∧ 0 = flags ∧ i + 1 = hit.id := by
        simpa [RegexPattern.source] using heq
      have hlabel := label_onMatch hpattern hid.symm
      rw [hlabel]
      exact ⟨⟨database, hcompile, halloc⟩, List.getElem_mem hi, start, hoccurs⟩
    · rintro ⟨-, hlabel, start, hoccurs⟩
      obtain ⟨i, hi, rfl⟩ := List.mem_iff_getElem.mp hlabel
      have hpattern := mem_regexPatterns.mpr ⟨i, hi, rfl⟩
      obtain ⟨hit, hhit, hid, rfl⟩ := (semantics.reports hcompile text (i + 1) stop).mpr
        ⟨_, 0, List.mem_map_of_mem (f := RegexPattern.source) hpattern, start, hoccurs⟩
      refine ⟨_, scan_of_database htext ▸ List.mem_map_of_mem hhit, ?_, rfl⟩
      exact label_onMatch hpattern hid
  · rw [heq]
    apply iff_of_false
    · rintro ⟨m, hm, -⟩
      rw [HsRegexAnalyzer.scan_freed] at hm
      exact absurd hm List.not_mem_nil
    · rintro ⟨⟨database, hcompile, halloc⟩, -⟩
      exact absurd (halloc.symm.trans (hfail database hcompile)) (by decide)

/-- No pattern has the flag. -/
theorem start_of_mem_scan_compiled (semantics : HsSemantics env.hs) {policies : List Policy}
    {text : StdString} {m : MatchResult} (hm : m ∈ (compiled env.hs policies).scan text) :
    m.start = 0 := by
  have htext : text ≠ [] := by
    rintro rfl
    simp [HsRegexAnalyzer.scan] at hm
  unfold compiled at hm
  obtain ⟨-, heq⟩ | ⟨database, -, hcompile, -, heq⟩ | ⟨-, -, heq⟩ :=
    HsRegexAnalyzer.compilePatterns_cases ({} : HsRegexAnalyzer env.hs) (regexPatterns policies)
  · rw [heq, HsRegexAnalyzer.scan_freed] at hm
    exact absurd hm List.not_mem_nil
  · rw [heq, scan_of_database htext] at hm
    obtain ⟨hit, hhit, rfl⟩ := List.mem_map.mp hm
    refine semantics.start_eq_zero hcompile text hit hhit fun source hsource _ => ?_
    obtain ⟨pattern, hpattern, rfl⟩ := List.mem_map.mp hsource
    obtain ⟨i, hi, rfl⟩ := mem_regexPatterns.mp hpattern
    exact Nat.zero_and _
  · rw [heq, HsRegexAnalyzer.scan_freed] at hm
    exact absurd hm List.not_mem_nil

theorem ne_nil_of_mem_scannedTexts {extractions : List ExtractionResult} {text : StdString}
    (h : text ∈ scannedTexts extractions) : text ≠ [] := by
  simp only [scannedTexts, List.mem_map, List.mem_filter, Bool.and_eq_true, Bool.not_eq_true',
    List.isEmpty_eq_false_iff] at h
  obtain ⟨extraction, ⟨-, -, hne⟩, rfl⟩ := h
  exact hne

/-! ## The evidence -/

/-- With a start of 0 the evidence is all of the text up to the end of the match. -/
theorem matchedText_of_start {text : StdString} {m : MatchResult} (hstart : m.start = 0) :
    (regexMatch text m).matchedText = text.take m.stop := by
  simp [regexMatch, hstart]

/-- So it is a part of the text with the right end, and the question is what matches it. -/
theorem regexEvidence_of_occurs (semantics : HsSemantics env.hs) {text : StdString}
    {m : MatchResult} (hstart : m.start = 0) (hstop : m.stop ≤ text.length)
    (hoccurs : semantics.occurs (cStr m.label) 0 (text.take m.stop) 0 m.stop) :
    RegexEvidence semantics text m (regexMatch text m) where
  part := by
    rw [matchedText_of_start hstart]
    exact (List.take_prefix _ _).isInfix
  ends := by
    rw [matchedText_of_start hstart]
    exact ⟨List.suffix_refl _, hstop⟩
  «matches» := by
    rw [matchedText_of_start hstart, List.length_take, Nat.min_eq_left hstop]
    exact hoccurs

/-- The matched texts of the regexes match them exactly when every pattern in force that ends
a match somewhere in a scanned text matches the text from its beginning up to there. -/
theorem evidenceMatches_iff (semantics : HsSemantics env.hs) (order : HashMapOrder)
    (updates : List (List Policy)) (content : List UInt8) (filename : StdString)
    (fileSize : Int) :
    (pipelineAfter env order updates).EvidenceMatches semantics content filename fileSize ↔
      MatchesFromStart semantics updates content filename := by
  unfold DetectionPipeline.EvidenceMatches MatchesFromStart runDetection
  cases hextract : env.extract content filename with
  | error message => simp [bind, Except.bind]
  | ok extracted =>
      obtain ⟨fileType, extractions⟩ := extracted
      have hanalyzer : (pipelineAfter env order updates).regexAnalyzer = _ :=
        regexAnalyzer_pipelineAfter order updates
      constructor
      · rintro hevidence _ _ ⟨⟩ text htext policies hlatest hcompiles label hlabel start stop
          hoccurs
        rw [hlatest, Option.map_some, Option.getD_some] at hanalyzer
        obtain ⟨m, hm, rfl, rfl⟩ := (mem_scan_compiled semantics
          (conditionLabels_of_latestWith hlatest) (ne_nil_of_mem_scannedTexts htext)).mpr
            ⟨hcompiles, hlabel, start, hoccurs⟩
        have hmem := mem_regex_iff.mpr ⟨text, htext, m, hanalyzer ▸ hm, rfl⟩
        obtain ⟨_, _, -, _, -, _, -, -, -, -, hmatches⟩ := hevidence _ rfl _ hmem.1 hmem.2
        rw [matchedText_of_start (start_of_mem_scan_compiled semantics hm), List.length_take,
          Nat.min_eq_left (semantics.stop_le hoccurs)] at hmatches
        exact hmatches
      · rintro hstarts _ ⟨⟩ dm hdm hname
        obtain ⟨text, htext, m, hm, rfl⟩ := mem_regex_iff.mp ⟨hdm, hname⟩
        refine ⟨fileType, extractions, rfl, text, htext, m, hm, rfl, ?_⟩
        cases hlatest : latestWith .regex updates with
        | none =>
            rw [hanalyzer, hlatest, Option.map_none, Option.getD_none,
              HsRegexAnalyzer.scan_freed] at hm
            exact absurd hm List.not_mem_nil
        | some policies =>
            rw [hanalyzer, hlatest, Option.map_some, Option.getD_some] at hm
            obtain ⟨hcompiles, hlabel, start, hoccurs⟩ := (mem_scan_compiled semantics
              (conditionLabels_of_latestWith hlatest) (ne_nil_of_mem_scannedTexts htext)).mp
                ⟨m, hm, rfl, rfl⟩
            exact regexEvidence_of_occurs semantics (start_of_mem_scan_compiled semantics hm)
              (semantics.stop_le hoccurs)
              (hstarts _ _ rfl text htext policies hlatest hcompiles _ hlabel start m.stop hoccurs)

/-! ## A word in the middle of a text -/

/-- The word is in the text from `start` to `stop`. -/
def WordAt (word text : StdString) (start stop : Nat) : Prop :=
  isLiteral word = true ∧ start + word.length = stop ∧ stop ≤ text.length ∧
    (text.take stop).drop start = word

theorem ne_nil_of_isLiteral {word : StdString} (h : isLiteral word = true) : word ≠ [] := by
  rintro rfl
  exact absurd h (by decide)

/-- The end of a word is reported by the place before it. -/
theorem exists_wordAt_iff {word text : StdString} (hliteral : isLiteral word = true)
    {stop : Nat} :
    (∃ start, WordAt word text start stop) ↔
      ∃ i < text.length, i + 1 = stop ∧
        ((text.take (i + 1)).drop (i + 1 - word.length) == word) = true := by
  have hpos : 0 < word.length := List.length_pos_iff.mpr (ne_nil_of_isLiteral hliteral)
  constructor
  · rintro ⟨start, -, hstop, hle, hword⟩
    refine ⟨stop - 1, by omega, by omega, ?_⟩
    obtain rfl : start = stop - 1 + 1 - word.length := by omega
    rw [show stop - 1 + 1 = stop by omega] at hword ⊢
    exact beq_iff_eq.mpr hword
  · rintro ⟨i, hi, rfl, hword⟩
    have hlength := congrArg List.length (beq_iff_eq.mp hword)
    rw [List.length_drop, List.length_take, Nat.min_eq_left hi] at hlength
    exact ⟨i + 1 - word.length, hliteral, by omega, hi, beq_iff_eq.mp hword⟩

/-- The library of words as documented. -/
def literalSemantics : HsSemantics literalEnv.hs where
  occurs e _ text start stop := WordAt e text start stop
  le_stop h := Nat.le_trans (Nat.le_add_right _ _) h.2.1.le
  stop_le h := h.2.2.1
  reports := by
    intro sources database hcompile text id stop
    have hall : (sources.all fun source => isLiteral source.1) = true := by
      by_contra hinvalid
      exact absurd (hcompile.symm.trans (if_neg hinvalid)) (Option.some_ne_none _)
    obtain rfl : sources.map (fun source => (source.1, source.2.2)) = database :=
      Option.some.inj ((if_pos hall).symm.trans hcompile)
    constructor
    · rintro ⟨m, hm, rfl, rfl⟩
      obtain ⟨i, hi, hm⟩ := List.mem_flatMap.mp hm
      obtain ⟨word, hword, rfl⟩ := List.mem_map.mp hm
      obtain ⟨hmem, hfound⟩ := List.mem_filter.mp hword
      obtain ⟨⟨e, flags, id⟩, hsource, rfl⟩ := List.mem_map.mp hmem
      exact ⟨e, flags, hsource, (exists_wordAt_iff (List.all_eq_true.mp hall _ hsource)).mpr
        ⟨i, List.mem_range.mp hi, rfl, hfound⟩⟩
    · rintro ⟨e, flags, hsource, hoccurs⟩
      obtain ⟨i, hi, rfl, hfound⟩ :=
        (exists_wordAt_iff (List.all_eq_true.mp hall _ hsource)).mp hoccurs
      refine ⟨⟨id, 0, i + 1⟩, List.mem_flatMap.mpr ⟨i, List.mem_range.mpr hi, ?_⟩, rfl, rfl⟩
      exact List.mem_map.mpr ⟨(e, id), List.mem_filter.mpr
        ⟨List.mem_map.mpr ⟨(e, flags, id), hsource, rfl⟩, hfound⟩, rfl⟩
  start_eq_zero := by
    intro sources database _ text m hm _
    obtain ⟨i, -, hm⟩ := List.mem_flatMap.mp hm
    obtain ⟨word, -, rfl⟩ := List.mem_map.mp hm
    rfl

/-- Where the word begins the text, the evidence is the word. -/
theorem evidenceMatches_merger :
    (pipelineAfter literalEnv .insertion [[regexPolicy 1 "merger"]]).EvidenceMatches
      literalSemantics (str "merger") (str "a.txt") 6 := by
  refine (@evidenceMatches_iff literalEnv literalSemantics .insertion _ _ _ 6).mpr ?_
  rintro _ _ ⟨⟩ text htext _ ⟨⟩ - label hlabel start stop hoccurs
  obtain rfl : text = str "merger" := List.mem_singleton.mp htext
  obtain rfl : label = str "merger" := List.mem_singleton.mp hlabel
  obtain ⟨hliteral, hstop, hle, hword⟩ := hoccurs
  -- the word is as long as the text
  obtain ⟨rfl, rfl⟩ : start = 0 ∧ stop = 6 := by
    change start + 6 = stop at hstop
    change stop ≤ 6 at hle
    omega
  exact ⟨hliteral, hstop, hle, hword⟩

/-- The evidence for a later word is everything before it as well. -/
theorem not_evidenceMatches_theMerger :
    ((pipelineAfter literalEnv .insertion [[regexPolicy 1 "merger"]]).runDetection
      (str "the merger") (str "a.txt") 10).map
        (·.matches.map fun dm => (dm.label, dm.matchedText)) =
          .ok [(str "merger", str "the merger")] ∧
    ¬ (pipelineAfter literalEnv .insertion [[regexPolicy 1 "merger"]]).EvidenceMatches
      literalSemantics (str "the merger") (str "a.txt") 10 := by
  refine ⟨by decide +kernel, fun hevidence => ?_⟩
  let m : MatchResult := ⟨1, str "merger", 0, 10⟩
  have hm : m ∈ (pipelineAfter literalEnv .insertion
      [[regexPolicy 1 "merger"]]).regexAnalyzer.scan (str "the merger") := by decide +kernel
  have htext : str "the merger" ∈ scannedTexts [{ success := true, text := str "the merger" }] :=
    List.mem_singleton.mpr rfl
  have hmem := mem_regex_iff.mpr ⟨_, htext, m, hm, rfl⟩
  obtain ⟨_, _, -, _, -, _, -, -, -, -, -, hlength, -⟩ := hevidence _ rfl _ hmem.1 hmem.2
  exact absurd hlength (by decide)

end AkesoDlp.Agent
