import AkesoDlp.Agent.PolicyEvaluator
import AkesoDlp.Lib.Lists

/-!
# Soundness of the evidence

`CollectRelevantMatches` is documented to collect the matches of the rules that
triggered, but walks all rules of the policy. This module says when a
violation is nevertheless free of matches that only unmatched rules account
for. The measure is the policy cut down to its matched rules: the evidence and
the count are sound when the unmatched rules could be deleted without changing
them.
-/

namespace AkesoDlp.Agent

/-- A condition of a rule that itself matched accepts `m`. -/
def Policy.Accounts (policy : Policy) (detection : DetectionResult) (m : DetectionMatch) : Prop :=
  ∃ rule ∈ policy.detectionRules, evaluateRule rule detection = true ∧
    ∃ cond ∈ rule.conditions, cond.accepts m = true

/-- `m` was made up for a FileType condition: no match of the detection was
relevant, and the fallback to all matches did not apply. -/
def Policy.Synthesized (policy : Policy) (detection : DetectionResult)
    (m : DetectionMatch) : Prop :=
  relevantMatches policy detection = [] ∧
    (detection.matches = [] ∨ hasUnfiltered policy = false) ∧
    m ∈ synthesizedMatches policy detection

/-- The policy without its unmatched rules. -/
def Policy.matchedOnly (policy : Policy) (detection : DetectionResult) : Policy :=
  { policy with
    detectionRules := policy.detectionRules.filter fun rule => evaluateRule rule detection }

/-- Every match of the violation is synthesized or accounted for by a matched
rule, and neither the matches nor their count owe anything to unmatched rules. -/
def EvidenceSound (ev : PolicyEvaluator) (policy : Policy) (detection : DetectionResult) : Prop :=
  (∀ m ∈ (ev.evaluate policy detection).matches,
    policy.Synthesized detection m ∨ policy.Accounts detection m) ∧
  (ev.evaluate policy detection).matches =
    (ev.evaluate (policy.matchedOnly detection) detection).matches ∧
  (ev.evaluate policy detection).matchCount =
    (ev.evaluate (policy.matchedOnly detection) detection).matchCount

/-- When the evidence is sound. If some condition of the policy accepts some
match: every accepted match that no MCO exception removes is accepted by a
matched rule. Otherwise: the fallback to all matches is out of play, and no
unmatched rule has a FileType condition that names the file's type. -/
def NoStrayEvidence (policy : Policy) (detection : DetectionResult) : Prop :=
  if relevantMatches policy detection ≠ [] then
    ∀ m ∈ relevantMatches policy detection, policy.matchExcepted detection m = false →
      policy.Accounts detection m
  else
    (detection.matches = [] ∨ hasUnfiltered policy = false) ∧
    ∀ rule ∈ policy.detectionRules, evaluateRule rule detection = false →
      ∀ cond ∈ rule.conditions, cond.synthesizes detection = false

instance (policy : Policy) (detection : DetectionResult) (m : DetectionMatch) :
    Decidable (policy.Accounts detection m) := by
  unfold Policy.Accounts
  infer_instance

instance (policy : Policy) (detection : DetectionResult) :
    Decidable (NoStrayEvidence policy detection) := by
  unfold NoStrayEvidence
  infer_instance

/-! ## The policy cut down to its matched rules -/

variable {policy : Policy} {detection : DetectionResult}

theorem matchedOnly_ruleMatches :
    (policy.matchedOnly detection).ruleMatches detection = policy.ruleMatches detection := by
  simp only [Policy.ruleMatches, Policy.matchedOnly, List.any_filter, Bool.and_self]

theorem mem_relevantMatches {m : DetectionMatch} :
    m ∈ relevantMatches policy detection ↔
      m ∈ detection.matches ∧
        ∃ rule ∈ policy.detectionRules, ∃ cond ∈ rule.conditions, cond.accepts m = true := by
  simp [relevantMatches, List.mem_filter]

theorem mem_relevantMatches_matchedOnly {m : DetectionMatch} :
    m ∈ relevantMatches (policy.matchedOnly detection) detection ↔
      m ∈ detection.matches ∧ policy.Accounts detection m := by
  rw [mem_relevantMatches]
  simp [Policy.matchedOnly, Policy.Accounts, and_assoc]

theorem Policy.Accounts.relevant {m : DetectionMatch} (h : policy.Accounts detection m)
    (hm : m ∈ detection.matches) : m ∈ relevantMatches policy detection := by
  obtain ⟨rule, hrule, -, hcond⟩ := h
  exact mem_relevantMatches.mpr ⟨hm, rule, hrule, hcond⟩

/-- With every surviving relevant match accounted for, cutting the policy down
keeps exactly the same survivors. -/
theorem survivors_matchedOnly
    (h : ∀ m ∈ relevantMatches policy detection, policy.matchExcepted detection m = false →
      policy.Accounts detection m) :
    (relevantMatches (policy.matchedOnly detection) detection).filter
        (fun m => !policy.matchExcepted detection m) =
      (relevantMatches policy detection).filter fun m => !policy.matchExcepted detection m := by
  rw [relevantMatches, relevantMatches, List.filter_filter, List.filter_filter]
  apply List.filter_congr
  intro m hm
  -- an excepted match is dropped either way
  cases hexc : policy.matchExcepted detection m with
  | true => simp
  | false =>
      rw [Bool.not_false, Bool.true_and, Bool.true_and, Bool.eq_iff_iff]
      constructor
      · intro hcut
        have : m ∈ relevantMatches (policy.matchedOnly detection) detection :=
          List.mem_filter.mpr ⟨hm, hcut⟩
        have hacc := (mem_relevantMatches_matchedOnly.mp this).2
        exact (List.mem_filter.mp (hacc.relevant hm)).2
      · intro hrel
        have hacc := h m (List.mem_filter.mpr ⟨hm, hrel⟩) hexc
        exact (List.mem_filter.mp (mem_relevantMatches_matchedOnly.mpr ⟨hm, hacc⟩)).2

theorem hasUnfiltered_matchedOnly (h : hasUnfiltered policy = false) :
    hasUnfiltered (policy.matchedOnly detection) = false := by
  simp only [hasUnfiltered, Policy.matchedOnly, List.any_eq_false] at h ⊢
  intro rule hrule
  exact h rule (List.mem_of_mem_filter hrule)

/-! ## The evidence of a triggered violation -/

/-- A triggered violation got past the rules and the entire-message exceptions,
so the evidence is what the MCO exceptions leave of the collected matches; the
policy cut down to its matched rules gets as far. -/
theorem evidence_of_ne_nil (h : evidence policy detection ≠ []) :
    evidence policy detection =
      (collectRelevantMatches policy detection []).filter
        (fun m => !policy.matchExcepted detection m) ∧
    evidence (policy.matchedOnly detection) detection =
      (collectRelevantMatches (policy.matchedOnly detection) detection []).filter
        (fun m => !policy.matchExcepted detection m) := by
  have hguard : (policy.active && policy.ruleMatches detection &&
      !policy.messageExcepted detection) = true := by
    by_contra hg
    exact h (by rw [evidence, if_neg hg])
  have hcut : ((policy.matchedOnly detection).active &&
      (policy.matchedOnly detection).ruleMatches detection &&
      !(policy.matchedOnly detection).messageExcepted detection) = true := by
    rw [matchedOnly_ruleMatches]
    exact hguard
  refine ⟨by rw [evidence, if_pos hguard], ?_⟩
  rw [evidence, if_pos hcut]
  rfl

theorem collectRelevantMatches_of_ne_nil (h : relevantMatches policy detection ≠ [])
    (names : List StdString) :
    collectRelevantMatches policy detection names = relevantMatches policy detection := by
  simp [collectRelevantMatches, h]

theorem collectRelevantMatches_of_nil (h : relevantMatches policy detection = [])
    (hno : detection.matches = [] ∨ hasUnfiltered policy = false) (names : List StdString) :
    collectRelevantMatches policy detection names = synthesizedMatches policy detection := by
  rcases hno with hno | hno <;> simp [collectRelevantMatches, h, hno]

theorem eq_fileTypeMatch_of_mem {m : DetectionMatch}
    (h : m ∈ synthesizedMatches policy detection) : m = fileTypeMatch detection := by
  simp only [synthesizedMatches, List.mem_flatMap, List.mem_map] at h
  obtain ⟨_, _, _, _, rfl⟩ := h
  rfl

/-- All synthesized matches are one record: the MCO exceptions keep all or none. -/
theorem filter_synthesizedMatches
    (h : (synthesizedMatches policy detection).filter
      (fun m => !policy.matchExcepted detection m) ≠ []) (q : Policy) :
    (synthesizedMatches q detection).filter (fun m => !policy.matchExcepted detection m) =
      synthesizedMatches q detection := by
  obtain ⟨m, hm⟩ := List.exists_mem_of_ne_nil _ h
  obtain ⟨hmem, hkeep⟩ := List.mem_filter.mp hm
  rw [eq_fileTypeMatch_of_mem hmem] at hkeep
  rw [List.filter_eq_self]
  intro m' hm'
  rw [eq_fileTypeMatch_of_mem hm']
  exact hkeep

theorem synthesizedMatches_matchedOnly_iff :
    synthesizedMatches (policy.matchedOnly detection) detection =
        synthesizedMatches policy detection ↔
      ∀ rule ∈ policy.detectionRules, evaluateRule rule detection = false →
        ∀ cond ∈ rule.conditions, cond.synthesizes detection = false := by
  unfold synthesizedMatches Policy.matchedOnly
  rw [Lib.flatMap_filter_eq_iff]
  simp

/-- First case: some match is relevant. -/
theorem evidenceSound_iff_of_relevant (ev : PolicyEvaluator) (hev : evidence policy detection ≠ [])
    (hrel : relevantMatches policy detection ≠ []) :
    EvidenceSound ev policy detection ↔
      ∀ m ∈ relevantMatches policy detection, policy.matchExcepted detection m = false →
        policy.Accounts detection m := by
  obtain ⟨hfull, hcut⟩ := evidence_of_ne_nil hev
  rw [collectRelevantMatches_of_ne_nil hrel] at hfull
  simp only [EvidenceSound, evaluate_matches, evaluate_matchCount]
  constructor
  · rintro ⟨hsound, -⟩ m hm hexc
    have hmem : m ∈ evidence policy detection := by
      rw [hfull]
      exact List.mem_filter.mpr ⟨hm, by simp [hexc]⟩
    rcases hsound m hmem with hsyn | hacc
    · exact absurd hsyn.1 hrel
    · exact hacc
  · intro hacc
    have hkept := survivors_matchedOnly hacc
    -- some relevant match survives, so the matched rules collect one too
    have hcutrel : relevantMatches (policy.matchedOnly detection) detection ≠ [] := by
      intro hnil
      rw [hnil, List.filter_nil, ← hfull] at hkept
      exact hev hkept.symm
    rw [collectRelevantMatches_of_ne_nil hcutrel, hkept, ← hfull] at hcut
    refine ⟨?_, hcut.symm, by rw [hcut]⟩
    intro m hm
    rw [hfull] at hm
    obtain ⟨hmem, hkeep⟩ := List.mem_filter.mp hm
    exact Or.inr (hacc m hmem (by simpa using hkeep))

/-- Second case: no match is relevant, and all matches were taken instead. None
of them is accounted for. -/
theorem not_evidenceSound_of_unfiltered (ev : PolicyEvaluator)
    (hev : evidence policy detection ≠ []) (hrel : relevantMatches policy detection = [])
    (hmatches : detection.matches ≠ []) (hunf : hasUnfiltered policy = true) :
    ¬ EvidenceSound ev policy detection := by
  rintro ⟨hsound, -⟩
  obtain ⟨hfull, -⟩ := evidence_of_ne_nil hev
  obtain ⟨m, hm⟩ := List.exists_mem_of_ne_nil _ hev
  have hdet : m ∈ detection.matches := by
    rw [hfull] at hm
    simpa [collectRelevantMatches, hrel, hmatches, hunf] using List.mem_of_mem_filter hm
  rw [evaluate_matches] at hsound
  rcases hsound m hm with ⟨-, hno, -⟩ | hacc
  · rcases hno with hno | hno
    · exact hmatches hno
    · rw [hunf] at hno
      exact Bool.noConfusion hno
  · have := hacc.relevant hdet
    rw [hrel] at this
    exact List.not_mem_nil this

/-- Third case: all evidence is synthesized, and comparing it with that of the
matched rules counts the FileType conditions. -/
theorem evidenceSound_iff_of_synthesized (ev : PolicyEvaluator)
    (hev : evidence policy detection ≠ []) (hrel : relevantMatches policy detection = [])
    (hno : detection.matches = [] ∨ hasUnfiltered policy = false) :
    EvidenceSound ev policy detection ↔
      ∀ rule ∈ policy.detectionRules, evaluateRule rule detection = false →
        ∀ cond ∈ rule.conditions, cond.synthesizes detection = false := by
  obtain ⟨hfull, hcut⟩ := evidence_of_ne_nil hev
  -- a matched rule accepts nothing that the policy does not
  have hcutrel : relevantMatches (policy.matchedOnly detection) detection = [] := by
    apply List.eq_nil_iff_forall_not_mem.mpr
    intro m hm
    obtain ⟨hdet, hacc⟩ := mem_relevantMatches_matchedOnly.mp hm
    have := hacc.relevant hdet
    rw [hrel] at this
    exact List.not_mem_nil this
  rw [collectRelevantMatches_of_nil hrel hno] at hfull
  have hkeep := filter_synthesizedMatches (hfull ▸ hev)
  rw [hkeep] at hfull
  rw [collectRelevantMatches_of_nil hcutrel (hno.imp_right hasUnfiltered_matchedOnly), hkeep]
    at hcut
  -- both evidences are the synthesized matches, one for each condition
  rw [← synthesizedMatches_matchedOnly_iff, ← hfull, ← hcut]
  simp only [EvidenceSound, evaluate_matches, evaluate_matchCount]
  constructor
  · rintro ⟨-, heq, -⟩
    exact heq.symm
  · intro heq
    refine ⟨?_, heq.symm, by rw [heq]⟩
    intro m hm
    exact Or.inl ⟨hrel, hno, hfull ▸ hm⟩

/-- A triggered violation rests on matched rules only exactly when no stray
match or FileType condition is around. -/
theorem evidenceSound_iff (ev : PolicyEvaluator)
    (h : (ev.evaluate policy detection).triggered = true) :
    EvidenceSound ev policy detection ↔ NoStrayEvidence policy detection := by
  have hev : evidence policy detection ≠ [] := by
    simpa using h
  -- the three ways in which matches are collected
  unfold NoStrayEvidence
  by_cases hrel : relevantMatches policy detection ≠ []
  · rw [if_pos hrel]
    exact evidenceSound_iff_of_relevant ev hev hrel
  · rw [if_neg hrel]
    rw [ne_eq, not_not] at hrel
    by_cases hno : detection.matches = [] ∨ hasUnfiltered policy = false
    · rw [evidenceSound_iff_of_synthesized ev hev hrel hno]
      exact ⟨fun hstray => ⟨hno, hstray⟩, fun hstray => hstray.2⟩
    · rw [not_or, Bool.not_eq_false] at hno
      exact iff_of_false (not_evidenceSound_of_unfiltered ev hev hrel hno.1 hno.2)
        fun hstray => (not_or.mpr ⟨hno.1, by simp [hno.2]⟩) hstray.1

/-! ## A stray match

Two rules, of which only the first matches: the keyword match belongs to the
second rule alone, and is reported and counted all the same. -/

def ssnOrInsiderPolicy : Policy where
  id := 1
  name := str "PII"
  detectionRules :=
    [ { name := str "SSN"
        conditions :=
          [{ type := .regex, analyzerName := str "regex", patternLabel := str "US SSN" }] },
      { name := str "Insider"
        conditions :=
          [ { type := .keyword, analyzerName := str "keyword", patternLabel := str "merger" },
            { type := .regex, analyzerName := str "regex", patternLabel := str "Visa CC" } ] } ]
  severityThresholds := [⟨.high, 2⟩, ⟨.low, 1⟩]

def ssnAndKeyword : DetectionResult where
  «matches» :=
    [ { patternId := 1, analyzerName := str "regex", label := str "US SSN"
        matchedText := str "123-45-6789", component := str "body" },
      { patternId := 2, analyzerName := str "keyword", label := str "merger"
        matchedText := str "merger", offset := 20, component := str "body" } ]

def ssnOnly : DetectionResult :=
  { ssnAndKeyword with «matches» := ssnAndKeyword.matches.take 1 }

/-- Without the keyword in the text the evidence is sound. -/
theorem evidenceSound_ssnOnly : EvidenceSound .insertion ssnOrInsiderPolicy ssnOnly :=
  (evidenceSound_iff .insertion (by decide)).mpr (by decide)

/-- The stray keyword match is in the evidence and lifts the severity from low
to high. -/
theorem not_evidenceSound_ssnAndKeyword :
    (PolicyEvaluator.insertion.evaluate ssnOrInsiderPolicy ssnAndKeyword).triggered = true ∧
    (PolicyEvaluator.insertion.evaluate ssnOrInsiderPolicy ssnAndKeyword).severity = .high ∧
    (PolicyEvaluator.insertion.evaluate ssnOrInsiderPolicy ssnOnly).severity = .low ∧
    ¬ EvidenceSound .insertion ssnOrInsiderPolicy ssnAndKeyword := by
  refine ⟨by decide, by decide, by decide, ?_⟩
  rintro ⟨hsound, -⟩
  have hstray := hsound
    { patternId := 2, analyzerName := str "keyword", label := str "merger"
      matchedText := str "merger", offset := 20, component := str "body" } (by decide)
  rcases hstray with hsyn | hacc
  · exact absurd hsyn.1 (by decide)
  · exact absurd hacc (by decide)

end AkesoDlp.Agent
