import AkesoDlp.Agent.Pipeline

/-!
# Regexes that do not compile

`CompilePatterns` frees the old database before it knows whether there will be
a new one, and Hyperscan compiles a list as a whole or not at all. An
expression is valid if the library compiles it alone.
-/

namespace AkesoDlp.Agent

namespace Hyperscan

variable (hs : Hyperscan)

def Valid (expression : StdString) (flags : Nat) : Prop :=
  ∃ id, (hs.compileMulti [(expression, flags, id)]).isSome

/-- Compiled alone, the expression is found in the text. -/
def Finds (expression : StdString) (flags : Nat) (text : StdString) : Prop :=
  ∃ id database, hs.compileMulti [(expression, flags, id)] = some database ∧
    hs.scan database text ≠ []

/-- One invalid expression fails the whole list. -/
def FailsAsAWhole : Prop :=
  ∀ sources, (∃ source ∈ sources, ¬ hs.Valid source.1 source.2.1) → hs.compileMulti sources = none

end Hyperscan

/-- The analyzer is the new one, or it scans as before; the result tells which. -/
def CompileContained {hs : Hyperscan} (ra : HsRegexAnalyzer hs) (patterns : List RegexPattern) :
    Prop :=
  ((ra.compilePatterns patterns).1 = true ∧
      ∃ database, hs.compileMulti (patterns.map RegexPattern.source) = some database ∧
        (ra.compilePatterns patterns).2 = { database := some database, patterns := patterns }) ∨
    ((ra.compilePatterns patterns).1 = false ∧
      ∀ text, (ra.compilePatterns patterns).2.scan text = ra.scan text)

/-- The policy is active and one of its regexes does not compile. -/
def Policy.HasInvalidRegex (hs : Hyperscan) (policy : Policy) : Prop :=
  ∃ label ∈ conditionLabels .regex [policy], ¬ hs.Valid (cStr label) 0

/-- The policy is active and has a regex that is in some text. -/
def Policy.HasRegexIn (hs : Hyperscan) (policy : Policy) (text : StdString) (label : StdString) :
    Prop :=
  label ∈ conditionLabels .regex [policy] ∧ text ≠ [] ∧ hs.Finds (cStr label) 0 text

/-- Whatever regexes of one policy are invalid, those of the others are reported. -/
def RegexesIsolated {env : PipelineEnv} (p : DetectionPipeline env) (policies : List Policy) :
    Prop :=
  ∀ (i j : Nat) (bad good : Policy), policies[i]? = some bad → policies[j]? = some good → i ≠ j →
    bad.HasInvalidRegex env.hs → ∀ text label, good.HasRegexIn env.hs text label →
      ∃ m ∈ (p.updatePolicies policies).regexAnalyzer.scan text, m.label = label

namespace HsRegexAnalyzer

variable {hs : Hyperscan}

/-- A failed compilation is contained if there was nothing to lose. -/
theorem compileContained_iff (ra : HsRegexAnalyzer hs) (patterns : List RegexPattern) :
    CompileContained ra patterns ↔
      patterns = [] ∨
      (∃ database, hs.compileMulti (patterns.map RegexPattern.source) = some database ∧
        hs.allocScratch database = true) ∨
      ∀ text, ra.scan text = [] := by
  unfold CompileContained
  obtain ⟨rfl, heq⟩ | ⟨database, hne, hcompile, halloc, heq⟩ | ⟨hne, hfail, heq⟩ :=
    ra.compilePatterns_cases patterns
  · rw [heq]
    exact iff_of_true (.inr ⟨rfl, fun _ => rfl⟩) (.inl rfl)
  · rw [heq]
    exact iff_of_true (.inl ⟨rfl, database, hcompile, rfl⟩)
      (.inr (.inl ⟨database, hcompile, halloc⟩))
  · rw [heq]
    have hno : ¬ ∃ database, hs.compileMulti (patterns.map RegexPattern.source) = some database ∧
        hs.allocScratch database = true := by
      rintro ⟨database, hcompile, halloc⟩
      exact absurd (halloc.symm.trans (hfail database hcompile)) (by decide)
    rw [or_iff_right hne, or_iff_right hno, or_iff_right (fun h => Bool.false_ne_true h.1)]
    simp only [scan_freed, true_and]
    exact forall_congr' fun text => eq_comm

end HsRegexAnalyzer

/-! ## Through an update -/

theorem conditionLabels_subset {policies : List Policy} {policy : Policy} (h : policy ∈ policies)
    (type : ConditionType) :
    conditionLabels type [policy] ⊆ conditionLabels type policies := by
  intro label hlabel
  unfold conditionLabels at hlabel ⊢
  obtain ⟨p, hp, hrules⟩ := List.mem_flatMap.mp hlabel
  obtain ⟨hmem, hactive⟩ := List.mem_filter.mp hp
  obtain rfl := List.mem_singleton.mp hmem
  exact List.mem_flatMap.mpr ⟨p, List.mem_filter.mpr ⟨h, hactive⟩, hrules⟩

/-- Every label of the condition type is an expression of the list. -/
theorem exists_regexPattern {policies : List Policy} {label : StdString}
    (h : label ∈ conditionLabels .regex policies) :
    ∃ p ∈ regexPatterns policies, p.expression = label ∧ p.flags = 0 := by
  obtain ⟨i, hi, rfl⟩ := List.mem_iff_getElem.mp h
  refine ⟨_, List.mem_mapIdx.mpr ⟨i, hi, rfl⟩, rfl, rfl⟩

/-- With an invalid regex among them, the new policies leave the analyzer empty. -/
theorem regexAnalyzer_of_invalid {env : PipelineEnv} (hwhole : env.hs.FailsAsAWhole)
    (p : DetectionPipeline env) {policies : List Policy} {bad : Policy} (hmem : bad ∈ policies)
    (hbad : bad.HasInvalidRegex env.hs) : (p.updatePolicies policies).regexAnalyzer = {} := by
  obtain ⟨label, hlabel, hinvalid⟩ := hbad
  obtain ⟨pattern, hpattern, rfl, hflags⟩ :=
    exists_regexPattern (conditionLabels_subset hmem .regex hlabel)
  have hnone : env.hs.compileMulti ((regexPatterns policies).map RegexPattern.source) = none :=
    hwhole _ ⟨pattern.source, List.mem_map_of_mem hpattern, by rwa [RegexPattern.source, hflags]⟩
  have hne : regexPatterns policies ≠ [] := List.ne_nil_of_mem hpattern
  rw [DetectionPipeline.updatePolicies_regexAnalyzer, if_neg hne]
  obtain ⟨hnil, -⟩ | ⟨database, -, hcompile, -⟩ | ⟨-, -, heq⟩ :=
    p.regexAnalyzer.compilePatterns_cases (regexPatterns policies)
  · exact absurd hnil hne
  · exact absurd (hnone.symm.trans hcompile) (Option.some_ne_none _).symm
  · rw [heq]

theorem regexesIsolated_iff {env : PipelineEnv} (hwhole : env.hs.FailsAsAWhole)
    (p : DetectionPipeline env) (policies : List Policy) :
    RegexesIsolated p policies ↔
      ∀ (i j : Nat) (bad good : Policy),
        policies[i]? = some bad → policies[j]? = some good → i ≠ j →
        bad.HasInvalidRegex env.hs → ∀ text label, ¬ good.HasRegexIn env.hs text label := by
  unfold RegexesIsolated
  refine forall₄_congr fun i j bad good => ?_
  refine forall₅_congr fun hi hj hne hbad text => forall_congr' fun label => ?_
  rw [regexAnalyzer_of_invalid hwhole p (List.mem_of_getElem? hi) hbad]
  simp

/-- Exactly when a failed compilation costs nothing: there is no list to compile,
it compiles, or nothing was found before; and no policy loses a regex that is in
a text to an invalid one of another policy. -/
theorem regexFailures_contained_iff {env : PipelineEnv} (hwhole : env.hs.FailsAsAWhole)
    (ra : HsRegexAnalyzer env.hs) (patterns : List RegexPattern) (p : DetectionPipeline env)
    (policies : List Policy) :
    (CompileContained ra patterns ↔
      patterns = [] ∨
      (∃ database, env.hs.compileMulti (patterns.map RegexPattern.source) = some database ∧
        env.hs.allocScratch database = true) ∨
      ∀ text, ra.scan text = []) ∧
    (RegexesIsolated p policies ↔
      ∀ (i j : Nat) (bad good : Policy),
        policies[i]? = some bad → policies[j]? = some good → i ≠ j →
        bad.HasInvalidRegex env.hs → ∀ text label, ¬ good.HasRegexIn env.hs text label) :=
  ⟨ra.compileContained_iff patterns, regexesIsolated_iff hwhole p policies⟩

/-! ## A missing bracket -/

theorem literal_valid_iff {expression : StdString} {flags : Nat} :
    Hyperscan.literal.Valid expression flags ↔ isLiteral expression = true := by
  simp [Hyperscan.Valid, Hyperscan.literal]

theorem literal_failsAsAWhole : Hyperscan.literal.FailsAsAWhole := by
  rintro sources ⟨source, hmem, hinvalid⟩
  have hall : ¬ (sources.all fun source => isLiteral source.1) = true :=
    fun hall => hinvalid (literal_valid_iff.mpr (List.all_eq_true.mp hall source hmem))
  exact if_neg hall

def regexPolicy (id : Nat) (expression : String) : Policy where
  id := id
  name := str expression
  detectionRules := [{ name := str expression, conditions :=
    [{ type := .regex, analyzerName := str "regex", patternLabel := str expression }] }]

def literalEnv : PipelineEnv := { plainEnv with hs := .literal }

/-- An analyzer that finds one word. -/
def mergerAnalyzer : HsRegexAnalyzer .literal where
  database := some [(str "merger", 1)]
  patterns := [mergerPattern]

/-- A valid word replaces another one, an unclosed bracket costs an analyzer nothing that has not
found anything before, and two valid policies stand beside each other. -/
theorem regexFailures_contained_words :
    CompileContained mergerAnalyzer [⟨1, str "lunch", 0, str "lunch"⟩] ∧
    (Hyperscan.literal.compileMulti [(str "(", 0, 2)] = none ∧
      CompileContained ({} : HsRegexAnalyzer .literal) [⟨2, str "(", 0, str "("⟩]) ∧
    RegexesIsolated (.fresh literalEnv .insertion)
      [regexPolicy 1 "merger", regexPolicy 2 "lunch"] := by
  obtain ⟨hcompile, hisolated⟩ := @regexFailures_contained_iff literalEnv
    literal_failsAsAWhole mergerAnalyzer [⟨1, str "lunch", 0, str "lunch"⟩]
    (.fresh literalEnv .insertion) [regexPolicy 1 "merger", regexPolicy 2 "lunch"]
  have hbracket := (@regexFailures_contained_iff literalEnv literal_failsAsAWhole {}
    [⟨2, str "(", 0, str "("⟩] (.fresh literalEnv .insertion) []).1
  refine ⟨hcompile.mpr (.inr (.inl ⟨_, rfl, rfl⟩)),
    ⟨by decide, hbracket.mpr (.inr (.inr HsRegexAnalyzer.scan_freed))⟩, hisolated.mpr ?_⟩
  -- neither of the two is invalid
  intro i j bad good hi hj hne ⟨label, hlabel, hinvalid⟩
  refine absurd (literal_valid_iff.mpr ?_) hinvalid
  obtain rfl | rfl := (by simpa using List.mem_of_getElem? hi :
    bad = regexPolicy 1 "merger" ∨ bad = regexPolicy 2 "lunch")
  · obtain rfl : label = str "merger" := List.mem_singleton.mp hlabel
    decide
  · obtain rfl : label = str "lunch" := List.mem_singleton.mp hlabel
    decide

/-- With an unclosed bracket in the list nothing is found any more. -/
theorem not_contained_bracket :
    (mergerAnalyzer.scan (str "a merger")).map (·.label) = [str "merger"] ∧
    ¬ CompileContained mergerAnalyzer [mergerPattern, ⟨2, str "(", 0, str "("⟩] ∧
    ¬ RegexesIsolated (.fresh literalEnv .insertion)
      [regexPolicy 1 "merger", regexPolicy 2 "("] := by
  refine ⟨by decide, ?_, ?_⟩
  · rintro (⟨hok, -⟩ | ⟨-, hscan⟩)
    · exact absurd hok (by decide)
    · exact absurd (hscan (str "a merger")) (by decide)
  · intro hisolated
    refine (@regexesIsolated_iff literalEnv literal_failsAsAWhole _ _).mp hisolated 1 0
      _ _ rfl rfl (by decide) ⟨str "(", by decide, ?_⟩ (str "a merger") (str "merger")
      ⟨by decide, by decide, 1, [(str "merger", 1)], rfl, by decide⟩
    exact fun hvalid => absurd (literal_valid_iff.mp hvalid) (by decide)

end AkesoDlp.Agent
