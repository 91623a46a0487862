import AkesoDlp.Agent.KeywordCoverage
import AkesoDlp.Lib.Lists

/-!
# What is left of earlier policies

`UpdatePolicies` builds an analyzer anew only if the new list has a pattern for
it. Otherwise the analyzer goes on reporting the patterns of the latest list
that had some, and a condition with wide filters counts those matches.
-/

namespace AkesoDlp.Agent

open DetectionPipeline

variable {env : PipelineEnv}

/-- A started pipeline after a sequence of updates. -/
def pipelineAfter (env : PipelineEnv) (order : HashMapOrder) (updates : List (List Policy)) :
    DetectionPipeline env :=
  updates.foldl updatePolicies (.fresh env order)

def DetectionPipeline.violations (p : DetectionPipeline env) (content : List UInt8)
    (filename : StdString) (fileSize : Int) : Except StdString (List PolicyViolation) :=
  (p.runDetection content filename fileSize).map (env.evaluator.evaluateAll p.policies)

/-- For this content the earlier updates make no difference. -/
def HistoryIndependent (env : PipelineEnv) (order : HashMapOrder) (earlier : List (List Policy))
    (policies : List Policy) (content : List UInt8) (filename : StdString) (fileSize : Int) :
    Prop :=
  (pipelineAfter env order (earlier ++ [policies])).runDetection content filename fileSize =
      (pipelineAfter env order [policies]).runDetection content filename fileSize ∧
    (pipelineAfter env order (earlier ++ [policies])).violations content filename fileSize =
      (pipelineAfter env order [policies]).violations content filename fileSize

/-- The latest list with a condition of the type. -/
def latestWith (type : ConditionType) (updates : List (List Policy)) : Option (List Policy) :=
  updates.reverse.find? fun policies => !(conditionLabels type policies).isEmpty

/-- The patterns compile to a database that finds something in the text. -/
def RegexesReport (hs : Hyperscan) (patterns : List RegexPattern) (text : StdString) : Prop :=
  ∃ database, hs.compileMulti (patterns.map fun p => (cStr p.expression, p.flags, p.id)) =
    some database ∧ hs.allocScratch database = true ∧ hs.scan database text ≠ []

/-- No pattern that the last update removed without a successor is in a text of
the content. -/
def NothingStale (env : PipelineEnv) (earlier : List (List Policy)) (policies : List Policy)
    (content : List UInt8) (filename : StdString) : Prop :=
  ∀ fileType extractions, env.extract content filename = .ok (fileType, extractions) →
    ∀ text ∈ scannedTexts extractions,
      (conditionLabels .regex policies = [] → ∀ old, latestWith .regex earlier = some old →
        ¬ RegexesReport env.hs (regexPatterns old) text) ∧
      (conditionLabels .keyword policies = [] → ∀ old, latestWith .keyword earlier = some old →
        ∀ keyword ∈ conditionLabels .keyword old, ¬ OccursBounded text keyword)

/-! ## The analyzers after a history -/

theorem regexPatterns_eq_nil_iff {policies : List Policy} :
    regexPatterns policies = [] ↔ conditionLabels .regex policies = [] := by
  unfold regexPatterns
  exact List.mapIdx_eq_nil_iff

theorem keywordEntries_eq_nil_iff {policies : List Policy} :
    keywordEntries policies = [] ↔ conditionLabels .keyword policies = [] := by
  unfold keywordEntries
  exact List.mapIdx_eq_nil_iff

/-- The regex analyzer that a list with patterns leads to. -/
def compiled (hs : Hyperscan) (policies : List Policy) : HsRegexAnalyzer hs :=
  (({} : HsRegexAnalyzer hs).compilePatterns (regexPatterns policies)).2

/-- The keyword analyzer that a list with keywords leads to. -/
def built (order : HashMapOrder) (policies : List Policy) : KeywordAnalyzer :=
  (({ order := order } : KeywordAnalyzer).buildAutomaton (keywordEntries policies)).2

theorem regexAnalyzer_pipelineAfter (order : HashMapOrder) (updates : List (List Policy)) :
    (pipelineAfter env order updates).regexAnalyzer =
      ((latestWith .regex updates).map (compiled env.hs)).getD {} := by
  -- `CompilePatterns` starts by freeing the database, whatever was in it
  refine (Lib.foldl_lastWrite (P := fun _ => True) (fun _ _ _ => trivial) ?_ updates trivial).2
  intro p policies _
  rw [updatePolicies_regexAnalyzer]
  by_cases h : conditionLabels .regex policies = []
  · rw [if_pos (regexPatterns_eq_nil_iff.mpr h)]
    simp [h]
  · have hpatterns : regexPatterns policies ≠ [] := fun hnil => h (regexPatterns_eq_nil_iff.mp hnil)
    rw [if_neg hpatterns]
    simp [h, compiled, HsRegexAnalyzer.compilePatterns, HsRegexAnalyzer.freeDatabase, hpatterns]

theorem keywordAnalyzer_pipelineAfter (order : HashMapOrder) (updates : List (List Policy)) :
    (pipelineAfter env order updates).keywordAnalyzer =
      ((latestWith .keyword updates).map (built order)).getD { order := order } := by
  -- only the order of the hash map outlives a rebuild, and it never changes
  refine (Lib.foldl_lastWrite (P := fun p => p.keywordAnalyzer.order = order) ?_ ?_ updates rfl).2
  · intro p policies horder
    rw [updatePolicies_keywordAnalyzer]
    by_cases h : keywordEntries policies = [] <;> simp [h, KeywordAnalyzer.buildAutomaton, horder]
  · intro p policies horder
    rw [updatePolicies_keywordAnalyzer]
    by_cases h : conditionLabels .keyword policies = []
    · rw [if_pos (keywordEntries_eq_nil_iff.mpr h)]
      simp [h]
    · have hentries : keywordEntries policies ≠ [] :=
        fun hnil => h (keywordEntries_eq_nil_iff.mp hnil)
      rw [if_neg hentries]
      simp [h, built, KeywordAnalyzer.buildAutomaton, hentries, horder]

/-! ## What the analyzers report -/

theorem latestWith_append_singleton (type : ConditionType) (earlier : List (List Policy))
    (policies : List Policy) :
    latestWith type (earlier ++ [policies]) =
      if conditionLabels type policies = [] then latestWith type earlier else some policies := by
  unfold latestWith
  rw [List.reverse_append, List.reverse_singleton, List.singleton_append, List.find?_cons]
  cases conditionLabels type policies <;> rfl

theorem latestWith_singleton (type : ConditionType) (policies : List Policy) :
    latestWith type [policies] =
      if conditionLabels type policies = [] then none else some policies :=
  latestWith_append_singleton type [] policies

theorem conditionLabels_of_latestWith {type : ConditionType} {updates : List (List Policy)}
    {old : List Policy} (h : latestWith type updates = some old) :
    conditionLabels type old ≠ [] := by
  simpa using List.find?_some h

theorem compiled_scan_eq_nil_iff {hs : Hyperscan} {policies : List Policy} {text : StdString}
    (hpatterns : conditionLabels .regex policies ≠ []) (htext : text ≠ []) :
    (compiled hs policies).scan text = [] ↔ ¬ RegexesReport hs (regexPatterns policies) text := by
  have hne : regexPatterns policies ≠ [] := fun hnil => hpatterns (regexPatterns_eq_nil_iff.mp hnil)
  unfold compiled RegexesReport HsRegexAnalyzer.compilePatterns HsRegexAnalyzer.scan
  -- without a database the scan reports nothing, and so does the specification
  cases hs.compileMulti
      ((regexPatterns policies).map fun p => (cStr p.expression, p.flags, p.id)) with
  | none => simp [hne, HsRegexAnalyzer.freeDatabase]
  | some database =>
      cases halloc : hs.allocScratch database <;>
        simp [hne, htext, halloc, HsRegexAnalyzer.freeDatabase]

theorem built_scan_eq_nil_iff {order : HashMapOrder} {policies : List Policy} {text : StdString}
    (hkeywords : conditionLabels .keyword policies ≠ []) :
    (built order policies).scan text = [] ↔
      ∀ keyword ∈ conditionLabels .keyword policies, ¬ OccursBounded text keyword := by
  have hne : keywordEntries policies ≠ [] :=
    fun hnil => hkeywords (keywordEntries_eq_nil_iff.mp hnil)
  have hbuilt : built order policies =
      ((DetectionPipeline.fresh plainEnv order).updatePolicies policies).keywordAnalyzer := by
    rw [updatePolicies_keywordAnalyzer, if_neg hne]
    rfl
  rw [hbuilt, List.eq_nil_iff_forall_not_mem]
  constructor
  · rintro hnone keyword hkeyword ⟨before, found, after, htext, hfound, hbounded⟩
    obtain ⟨entry, hentry, rfl⟩ := exists_keywordEntry hkeyword
    obtain ⟨last, hlast⟩ := exists_lastEntry hentry
    obtain ⟨cond, ⟨_, _, _, _, _, _, _, hnonempty⟩, hlabel⟩ := mem_conditionLabels.mp hkeyword
    -- labels in the policies are not empty, so no occurrence is
    have hfoundne : found ≠ [] := by
      rintro rfl
      exact hnonempty (hlabel.trans (List.map_eq_nil_iff.mp hfound.symm))
    exact hnone _ ((mem_scan_updatePolicies _ hne).mpr
      ⟨last, before, found, after, htext, hfoundne, hfound ▸ hlast, hbounded, rfl⟩)
  · intro hnone m hm
    obtain ⟨entry, before, found, after, htext, -, hlast, hbounded, -⟩ :=
      (mem_scan_updatePolicies _ hne).mp hm
    obtain ⟨hmem, hlower⟩ := lastEntry_eq_some hlast
    exact hnone _ (keywordEntries_spec hmem).1
      ⟨before, found, after, htext, hlower.symm, hbounded⟩

theorem scanText_pipelineAfter (order : HashMapOrder) (updates : List (List Policy))
    (text : StdString) :
    (pipelineAfter env order updates).scanText text =
      ((latestWith .regex updates).map fun old =>
          ((compiled env.hs old).scan text).map (regexMatch text)).getD [] ++
        ((latestWith .keyword updates).map fun old =>
          ((built order old).scan text).map keywordMatch).getD [] := by
  unfold scanText
  rw [regexAnalyzer_pipelineAfter, keywordAnalyzer_pipelineAfter]
  have hregex : HsRegexAnalyzer.scan ({} : HsRegexAnalyzer env.hs) text = [] := by
    simp [HsRegexAnalyzer.scan]
  have hkeyword : KeywordAnalyzer.scan { order := order } text = [] := rfl
  cases latestWith .regex updates <;> cases latestWith .keyword updates <;>
    simp [hregex, hkeyword]

/-- What an analyzer reports after the last list alone is part of what it
reports after all lists, and the rest comes from the latest list that the last
one did not replace. -/
theorem report_compare {β : Type} (type : ConditionType) (scan : List Policy → List β)
    (earlier : List (List Policy)) (policies : List Policy) :
    (((latestWith type [policies]).map scan).getD []).Sublist
        (((latestWith type (earlier ++ [policies])).map scan).getD []) ∧
      (((latestWith type [policies]).map scan).getD [] =
          ((latestWith type (earlier ++ [policies])).map scan).getD [] ↔
        (conditionLabels type policies = [] → ∀ old, latestWith type earlier = some old →
          scan old = [])) := by
  -- the last list replaces the earlier ones, or nothing of its own is reported
  rw [latestWith_singleton, latestWith_append_singleton]
  by_cases h : conditionLabels type policies = []
  · rw [if_pos h, if_pos h, Option.map_none, Option.getD_none]
    refine ⟨List.nil_sublist _, ?_⟩
    cases latestWith type earlier <;> simp [h, eq_comm]
  · rw [if_neg h, if_neg h]
    exact ⟨List.Sublist.refl _, by simp [h]⟩

theorem scanText_compare (order : HashMapOrder) (earlier : List (List Policy))
    (policies : List Policy) {text : StdString} (htext : text ≠ []) :
    ((pipelineAfter env order [policies]).scanText text).Sublist
        ((pipelineAfter env order (earlier ++ [policies])).scanText text) ∧
      ((pipelineAfter env order [policies]).scanText text =
          (pipelineAfter env order (earlier ++ [policies])).scanText text ↔
        (conditionLabels .regex policies = [] → ∀ old, latestWith .regex earlier = some old →
          ¬ RegexesReport env.hs (regexPatterns old) text) ∧
        (conditionLabels .keyword policies = [] → ∀ old, latestWith .keyword earlier = some old →
          ∀ keyword ∈ conditionLabels .keyword old, ¬ OccursBounded text keyword)) := by
  obtain ⟨hregex, hregexEq⟩ := report_compare .regex
    (fun old => ((compiled env.hs old).scan text).map (regexMatch text)) earlier policies
  obtain ⟨hkeyword, hkeywordEq⟩ := report_compare .keyword
    (fun old => ((built order old).scan text).map keywordMatch) earlier policies
  rw [scanText_pipelineAfter, scanText_pipelineAfter]
  refine ⟨hregex.append hkeyword, ?_⟩
  -- neither analyzer can make up for what the other reports in addition
  rw [Lib.sublist_append_eq_iff hregex hkeyword, hregexEq, hkeywordEq]
  refine and_congr (imp_congr_right fun _ => forall₂_congr fun old hold => ?_)
    (imp_congr_right fun _ => forall₂_congr fun old hold => ?_)
  · rw [List.map_eq_nil_iff]
    exact compiled_scan_eq_nil_iff (conditionLabels_of_latestWith hold) htext
  · rw [List.map_eq_nil_iff]
    exact built_scan_eq_nil_iff (conditionLabels_of_latestWith hold)

/-! ## History independence -/

theorem pipelineAfter_policies (order : HashMapOrder) (earlier : List (List Policy))
    (policies : List Policy) :
    (pipelineAfter env order (earlier ++ [policies])).policies = policies := by
  unfold pipelineAfter
  rw [List.foldl_append, List.foldl_cons, List.foldl_nil, updatePolicies_policies]

theorem detectionOf_inj {fileType filename : StdString} {fileSize : Int}
    {found found' : List DetectionMatch} :
    detectionOf fileType filename fileSize found = detectionOf fileType filename fileSize found' ↔
      found = found' := by
  simp [detectionOf]

/-- The earlier updates make no difference exactly when no text of the content
holds a pattern that the last update left without a successor. -/
theorem historyIndependent_iff (env : PipelineEnv) (order : HashMapOrder)
    (earlier : List (List Policy)) (policies : List Policy) (content : List UInt8)
    (filename : StdString) (fileSize : Int) :
    HistoryIndependent env order earlier policies content filename fileSize ↔
      NothingStale env earlier policies content filename := by
  -- the policies are the same, so only the detections can differ
  have hviolations : HistoryIndependent env order earlier policies content filename fileSize ↔
      (pipelineAfter env order [policies]).runDetection content filename fileSize =
        (pipelineAfter env order (earlier ++ [policies])).runDetection content filename
          fileSize := by
    unfold HistoryIndependent DetectionPipeline.violations
    have hlast : (pipelineAfter env order [policies]).policies = policies :=
      pipelineAfter_policies order [] policies
    rw [hlast, pipelineAfter_policies]
    constructor
    · rintro ⟨h, -⟩
      exact h.symm
    · intro h
      rw [h]
      exact ⟨rfl, rfl⟩
  rw [hviolations]
  unfold NothingStale runDetection
  cases hextract : env.extract content filename with
  | error message => simp [bind, Except.bind]
  | ok extracted =>
      obtain ⟨fileType, extractions⟩ := extracted
      have htext : ∀ text ∈ scannedTexts extractions, text ≠ [] := by
        intro text hmem
        simp only [scannedTexts, List.mem_map, List.mem_filter, Bool.and_eq_true,
          Bool.not_eq_true', List.isEmpty_eq_false_iff] at hmem
        obtain ⟨extraction, ⟨-, -, hne⟩, rfl⟩ := hmem
        exact hne
      -- text by text, the longer history reports more
      have hsublist : ∀ text ∈ scannedTexts extractions,
          ((pipelineAfter env order [policies]).scanText text).Sublist
            ((pipelineAfter env order (earlier ++ [policies])).scanText text) :=
        fun text hmem => (scanText_compare order earlier policies (htext text hmem)).1
      simp only [bind, Except.bind, pure, Except.pure, Except.ok.injEq, detectionOf_inj,
        Lib.flatMap_eq_flatMap_iff hsublist, Prod.mk.injEq, and_imp]
      constructor
      · rintro h _ _ rfl rfl text hmem
        exact (scanText_compare order earlier policies (htext text hmem)).2.mp (h text hmem)
      · intro h text hmem
        exact (scanText_compare order earlier policies (htext text hmem)).2.mpr
          (h _ _ rfl rfl text hmem)

/-! ## A keyword that is gone from the policies -/

/-- The keyword of the first list is reported although no condition of the second
list names one, and blocks the file. -/
theorem not_historyIndependent_removedKeyword :
    conditionLabels .keyword [keywordPolicy 2 ""] = [] ∧
    (pipelineAfter plainEnv .insertion
        [[keywordPolicy 1 "secret"], [keywordPolicy 2 ""]]).violations
      (str "top secret") (str "a") 10 ≠
    (pipelineAfter plainEnv .insertion [[keywordPolicy 2 ""]]).violations
      (str "top secret") (str "a") 10 ∧
    ¬ HistoryIndependent plainEnv .insertion [[keywordPolicy 1 "secret"]] [keywordPolicy 2 ""]
      (str "top secret") (str "a") 10 := by
  have hdiffer : (pipelineAfter plainEnv .insertion
        [[keywordPolicy 1 "secret"], [keywordPolicy 2 ""]]).violations
          (str "top secret") (str "a") 10 ≠
      (pipelineAfter plainEnv .insertion [[keywordPolicy 2 ""]]).violations
        (str "top secret") (str "a") 10 := by
    have hafter : ((pipelineAfter plainEnv .insertion
        [[keywordPolicy 1 "secret"], [keywordPolicy 2 ""]]).violations
          (str "top secret") (str "a") 10).map List.length = .ok 1 := rfl
    have hfresh : ((pipelineAfter plainEnv .insertion [[keywordPolicy 2 ""]]).violations
        (str "top secret") (str "a") 10).map List.length = .ok 0 := rfl
    intro heq
    rw [heq, hfresh] at hafter
    exact absurd (Except.ok.inj hafter) (by decide)
  exact ⟨by decide, hdiffer, fun h => hdiffer h.2⟩

end AkesoDlp.Agent
