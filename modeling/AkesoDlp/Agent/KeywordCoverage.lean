import AkesoDlp.Agent.KeywordScan
import AkesoDlp.Agent.Pipeline

/-!
# Which keyword conditions can fire

The keywords of all active policies go into one automaton, and a match is tied
to its condition by the label. Two keywords that differ in case only share a
node, which keeps the label of the later one; the conditions of the earlier
one never see a match. This is the only way in which a keyword gets lost.
-/

namespace AkesoDlp.Agent

/-- The keyword occurs in the text, up to ASCII case and between word
boundaries. -/
def OccursBounded (text keyword : StdString) : Prop :=
  ∃ before found after, text = before ++ found ++ after ∧ lower found = lower keyword ∧
    Bounded before after

/-- A condition of the type, with a label, in an active policy. -/
def ActiveCondition (policies : List Policy) (type : ConditionType) (cond : RuleCondition) : Prop :=
  ∃ policy ∈ policies, policy.active = true ∧ ∃ rule ∈ policy.detectionRules,
    cond ∈ rule.conditions ∧ cond.type = type ∧ cond.patternLabel ≠ []

/-- The filters of the condition admit keyword matches. -/
def AdmitsKeywords (cond : RuleCondition) : Prop :=
  (cond.analyzerName = [] ∨ cond.analyzerName = str "keyword") ∧
  (cond.component = [] ∨ cond.component = str "body")

/-- A scan of the text reports a match with the label of the condition, and the
condition counts it in every detection that holds the reported matches. -/
def Covered {env : PipelineEnv} (p : DetectionPipeline env) (cond : RuleCondition)
    (text : StdString) : Prop :=
  (∃ m ∈ p.keywordAnalyzer.scan text, m.label = cond.patternLabel) ∧
  ∀ detection : DetectionResult,
    (∀ m ∈ p.keywordAnalyzer.scan text,
      DetectionPipeline.keywordMatch m ∈ detection.matches) →
    AdmitsKeywords cond → 1 ≤ countMatches cond detection

/-- After the update every occurrence of the keyword of an active condition is
reported for that condition. -/
def NoKeywordLost {env : PipelineEnv} (p : DetectionPipeline env) (policies : List Policy) : Prop :=
  ∀ cond, ActiveCondition policies .keyword cond → ∀ text, OccursBounded text cond.patternLabel →
    Covered (p.updatePolicies policies) cond text

/-! ## The pooled keywords -/

theorem mem_conditionLabels {type : ConditionType} {policies : List Policy} {label : StdString} :
    label ∈ conditionLabels type policies ↔
      ∃ cond, ActiveCondition policies type cond ∧ cond.patternLabel = label := by
  simp only [conditionLabels, ActiveCondition, List.mem_flatMap, List.mem_filter, List.mem_map,
    Bool.and_eq_true, beq_iff_eq, Bool.not_eq_true', List.isEmpty_eq_false_iff]
  constructor
  · rintro ⟨policy, ⟨hpolicy, hactive⟩, rule, hrule, cond, ⟨hcond, htype, hne⟩, rfl⟩
    exact ⟨cond, ⟨policy, hpolicy, hactive, rule, hrule, hcond, htype, hne⟩, rfl⟩
  · rintro ⟨cond, ⟨policy, hpolicy, hactive, rule, hrule, hcond, htype, hne⟩, rfl⟩
    exact ⟨policy, ⟨hpolicy, hactive⟩, rule, hrule, cond, ⟨hcond, htype, hne⟩, rfl⟩

/-- An entry has its keyword as label, is case-insensitive and wants whole
words. -/
theorem keywordEntries_spec {policies : List Policy} {entry : KeywordEntry}
    (h : entry ∈ keywordEntries policies) :
    entry.keyword ∈ conditionLabels .keyword policies ∧ entry.label = entry.keyword ∧
    entry.caseSensitive = false ∧ entry.wholeWord = true := by
  obtain ⟨i, hi, rfl⟩ := List.mem_mapIdx.mp h
  exact ⟨List.getElem_mem hi, rfl, rfl, rfl⟩

theorem exists_keywordEntry {policies : List Policy} {label : StdString}
    (h : label ∈ conditionLabels .keyword policies) :
    ∃ entry ∈ keywordEntries policies, entry.keyword = label := by
  obtain ⟨i, hi, rfl⟩ := List.mem_iff_getElem.mp h
  exact ⟨_, List.mem_mapIdx.mpr ⟨i, hi, rfl⟩, rfl⟩

/-- The scan after an update with at least one keyword. -/
theorem mem_scan_updatePolicies {env : PipelineEnv} (p : DetectionPipeline env)
    {policies : List Policy} (h : keywordEntries policies ≠ []) {text : StdString}
    {m : KeywordMatch} :
    m ∈ (p.updatePolicies policies).keywordAnalyzer.scan text ↔
      ∃ entry before found after, text = before ++ found ++ after ∧ found ≠ [] ∧
        lastEntry (keywordEntries policies) (lower found) = some entry ∧
        Bounded before after ∧ m = entry.matchAt before.length := by
  rw [DetectionPipeline.updatePolicies_keywordAnalyzer, if_neg h, mem_scan_iff _ h]
  constructor
  · rintro ⟨entry, before, found, after, htext, hfound, hlast, haccepts, hm⟩
    obtain ⟨-, -, -, hwhole⟩ := keywordEntries_spec (lastEntry_eq_some hlast).1
    exact ⟨entry, before, found, after, htext, hfound, hlast, haccepts.2 hwhole, hm⟩
  · rintro ⟨entry, before, found, after, htext, hfound, hlast, hbounded, hm⟩
    obtain ⟨-, -, hcase, -⟩ := keywordEntries_spec (lastEntry_eq_some hlast).1
    refine ⟨entry, before, found, after, htext, hfound, hlast, ⟨?_, fun _ => hbounded⟩, hm⟩
    intro hsensitive
    rw [hcase] at hsensitive
    exact absurd hsensitive Bool.false_ne_true

/-! ## Coverage -/

theorem one_le_countMatches {cond : RuleCondition} {detection : DetectionResult}
    {m : KeywordMatch} (htype : cond.type = .keyword) (hlabel : m.label = cond.patternLabel)
    (hmem : DetectionPipeline.keywordMatch m ∈ detection.matches) (hadmits : AdmitsKeywords cond) :
    1 ≤ countMatches cond detection := by
  have haccepts : cond.accepts (DetectionPipeline.keywordMatch m) = true := by
    obtain ⟨hanalyzer, hcomponent⟩ := hadmits
    unfold RuleCondition.accepts DetectionPipeline.keywordMatch
    rcases hanalyzer with hanalyzer | hanalyzer <;>
      rcases hcomponent with hcomponent | hcomponent <;>
      simp [hanalyzer, hcomponent, hlabel]
  have hpos : 0 < detection.matches.countP fun m => cond.accepts m &&
      (cond.type != .fileType || cond.patternLabel.isEmpty ||
        detection.fileType == cond.patternLabel) := by
    rw [List.countP_pos_iff]
    exact ⟨_, hmem, by rw [haccepts, htype]; rfl⟩
  have hguard : (cond.type == ConditionType.fileType) = false := by rw [htype]; rfl
  unfold countMatches
  simp only [hguard, Bool.false_and, Bool.false_eq_true, if_false]
  omega

theorem lost_of_variant {env : PipelineEnv} (p : DetectionPipeline env) {policies : List Policy}
    {label : StdString} {last : KeywordEntry}
    (hlabel : label ∈ conditionLabels .keyword policies)
    (hlast : lastEntry (keywordEntries policies) (lower label) = some last)
    (hne : last.keyword ≠ label) : ¬ NoKeywordLost p policies := by
  intro hcovered
  obtain ⟨cond, hcond, rfl⟩ := mem_conditionLabels.mp hlabel
  have hentries : keywordEntries policies ≠ [] := List.ne_nil_of_mem (lastEntry_eq_some hlast).1
  -- the label itself is a text in which it occurs
  have hoccurs : OccursBounded cond.patternLabel cond.patternLabel :=
    ⟨[], cond.patternLabel, [], by simp, rfl, by simp [Bounded]⟩
  obtain ⟨⟨m, hm, hmlabel⟩, -⟩ := hcovered cond hcond cond.patternLabel hoccurs
  obtain ⟨entry, before, found, after, -, -, hentry, -, rfl⟩ :=
    (mem_scan_updatePolicies p hentries).mp hm
  obtain ⟨hmem, hfound⟩ := lastEntry_eq_some hentry
  have hkeyword : entry.keyword = cond.patternLabel :=
    (keywordEntries_spec hmem).2.1.symm.trans hmlabel
  rw [← hfound, hkeyword, hlast] at hentry
  exact hne ((congrArg KeywordEntry.keyword (Option.some.inj hentry)).trans hkeyword)

/-- No keyword gets lost exactly when keywords that differ, differ in more than
case. -/
theorem noKeywordLost_iff {env : PipelineEnv} (p : DetectionPipeline env)
    (policies : List Policy) :
    NoKeywordLost p policies ↔
      ∀ a ∈ conditionLabels .keyword policies, ∀ b ∈ conditionLabels .keyword policies,
        lower a = lower b → a = b := by
  constructor
  · intro hcovered a ha b hb hlower
    obtain ⟨entry, hentry, hkeyword⟩ := exists_keywordEntry ha
    obtain ⟨last, hlast⟩ := exists_lastEntry hentry
    rw [hkeyword] at hlast
    by_contra hne
    -- the entry that survives has one of the two spellings, so the other is lost
    by_cases hlasta : last.keyword = a
    · exact lost_of_variant p hb (hlower ▸ hlast) (fun hlastb => hne (hlasta.symm.trans hlastb))
        hcovered
    · exact lost_of_variant p ha hlast hlasta hcovered
  · intro hdistinct cond hcond text hoccurs
    obtain ⟨before, found, after, rfl, hfound, hbounded⟩ := hoccurs
    have hlabel : cond.patternLabel ∈ conditionLabels .keyword policies :=
      mem_conditionLabels.mpr ⟨cond, hcond, rfl⟩
    obtain ⟨entry, hentry, hkeyword⟩ := exists_keywordEntry hlabel
    have hentries : keywordEntries policies ≠ [] := List.ne_nil_of_mem hentry
    obtain ⟨last, hlast⟩ := exists_lastEntry hentry
    rw [hkeyword, ← hfound] at hlast
    obtain ⟨hmem, hlower⟩ := lastEntry_eq_some hlast
    obtain ⟨hpooled, hlastLabel, -⟩ := keywordEntries_spec hmem
    -- the surviving entry is that of the condition
    have hsame : last.label = cond.patternLabel :=
      hlastLabel.trans (hdistinct _ hpooled _ hlabel (hlower.trans hfound))
    obtain ⟨policy, -, -, rule, -, -, htype, hnonempty⟩ := hcond
    have hfoundne : found ≠ [] := by
      rintro rfl
      exact hnonempty (List.map_eq_nil_iff.mp hfound.symm)
    have hreported : last.matchAt before.length ∈
        (p.updatePolicies policies).keywordAnalyzer.scan (before ++ found ++ after) :=
      (mem_scan_updatePolicies p hentries).mpr
        ⟨last, before, found, after, rfl, hfoundne, hlast, hbounded, rfl⟩
    refine ⟨⟨_, hreported, hsame⟩, ?_⟩
    intro detection hin hadmits
    exact one_le_countMatches htype hsame (hin _ hreported) hadmits

/-! ## Two policies that differ in case -/

/-- "Secret" is in the text, but only the policy for "secret" sees it. -/
theorem not_noKeywordLost_secret :
    OccursBounded (str "top Secret plan") (str "Secret") ∧
    ((plainPipeline.updatePolicies [keywordPolicy 1 "Secret", keywordPolicy 2 "secret"]
      ).keywordAnalyzer.scan (str "top Secret plan")).map (·.label) = [str "secret"] ∧
    ¬ NoKeywordLost plainPipeline [keywordPolicy 1 "Secret", keywordPolicy 2 "secret"] := by
  have hoccurs : OccursBounded (str "top Secret plan") (str "Secret") :=
    ⟨str "top ", str "Secret", str " plan", by decide, by decide,
      by rintro c ⟨⟩; rfl, by rintro c ⟨⟩; rfl⟩
  have hlabels : ((plainPipeline.updatePolicies [keywordPolicy 1 "Secret", keywordPolicy 2 "secret"]
      ).keywordAnalyzer.scan (str "top Secret plan")).map (·.label) = [str "secret"] := by
    decide
  refine ⟨hoccurs, hlabels, ?_⟩
  intro hcovered
  obtain ⟨⟨m, hm, hlabel⟩, -⟩ := hcovered
    { type := .keyword, analyzerName := str "keyword", patternLabel := str "Secret" }
    ⟨keywordPolicy 1 "Secret", by simp, rfl, _, List.mem_cons_self, List.mem_cons_self, rfl,
      by decide⟩ _ hoccurs
  have hmem := List.mem_map_of_mem (f := fun m : KeywordMatch => m.label) hm
  rw [hlabels, List.mem_singleton, hlabel] at hmem
  exact absurd hmem (by decide)

end AkesoDlp.Agent
