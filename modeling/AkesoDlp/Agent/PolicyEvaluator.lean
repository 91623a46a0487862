import AkesoDlp.Agent.Policy
import Mathlib.Data.List.Sort

/-!
# The agent's policy evaluator

`policy_evaluator.cpp`, function by function. A policy is violated when one of
its rules matches (all conditions of the rule hold), no entire-message
exception applies, and some collected match survives the matched-component
(MCO) exceptions; the number of survivors selects the severity.

`std::sort` leaves the order of equal elements open, so the evaluator carries
the sort it was linked with: any function that returns a sorted permutation.
-/

namespace AkesoDlp.Agent

/-- The evaluator with its `std::sort` (by `min_matches`, descending). -/
structure PolicyEvaluator where
  sort : List SeverityThreshold → List SeverityThreshold
  sort_perm : ∀ l, (sort l).Perm l
  sort_sorted : ∀ l, (sort l).Pairwise fun a b => b.minMatches ≤ a.minMatches

/-- The evaluator linked with insertion sort. -/
def PolicyEvaluator.insertion : PolicyEvaluator where
  sort := List.insertionSort fun a b => b.minMatches ≤ a.minMatches
  sort_perm := List.perm_insertionSort _
  sort_sorted := by
    have : Std.Total fun a b : SeverityThreshold => b.minMatches ≤ a.minMatches :=
      ⟨fun a b => Int.le_total b.minMatches a.minMatches⟩
    have : IsTrans SeverityThreshold fun a b => b.minMatches ≤ a.minMatches :=
      ⟨fun a b c hab hbc => Int.le_trans hbc hab⟩
    exact List.pairwise_insertionSort _

/-! ## Rule evaluation -/

/-- The analyzer, component and label filters, which `CountMatches` and
`CollectRelevantMatches` test one by one; an empty filter accepts everything. -/
def RuleCondition.accepts (cond : RuleCondition) (m : DetectionMatch) : Bool :=
  (cond.analyzerName.isEmpty || m.analyzerName == cond.analyzerName) &&
  (cond.component.isEmpty || m.component == cond.component) &&
  (cond.patternLabel.isEmpty || m.label == cond.patternLabel)

def countMatches (cond : RuleCondition) (detection : DetectionResult) : Int :=
  let count := detection.matches.countP fun m =>
    cond.accepts m &&
      (cond.type != .fileType || cond.patternLabel.isEmpty ||
        detection.fileType == cond.patternLabel)
  -- a file type known from metadata counts once when no match does
  if cond.type == .fileType && count == 0 && !cond.patternLabel.isEmpty &&
      detection.fileType == cond.patternLabel then 1
  else count

def evaluateCondition (cond : RuleCondition) (detection : DetectionResult) : Bool :=
  let count := countMatches cond detection
  match cond.op with
  | .matches => cond.matchCountMin ≤ count
  | .notMatches => count == 0
  | .countGTE => cond.matchCountMin ≤ count
  | .countLTE => count ≤ cond.matchCountMax

def evaluateRule (rule : DetectionRule) (detection : DetectionResult) : Bool :=
  !rule.conditions.isEmpty && rule.conditions.all fun cond => evaluateCondition cond detection

/-! ## Match collection -/

/-- The match that `CollectRelevantMatches` makes up from the file type. -/
def fileTypeMatch (detection : DetectionResult) : DetectionMatch where
  patternId := 0
  analyzerName := str "file_type"
  label := detection.fileType
  matchedText := detection.filename

/-- The test under which a condition has a match made up for it. -/
def RuleCondition.synthesizes (cond : RuleCondition) (detection : DetectionResult) : Bool :=
  cond.type == .fileType && !detection.fileType.isEmpty &&
    (cond.patternLabel.isEmpty || detection.fileType == cond.patternLabel)

/-- First loop: the matches that some condition of some rule accepts. -/
def relevantMatches (policy : Policy) (detection : DetectionResult) : List DetectionMatch :=
  detection.matches.filter fun m =>
    policy.detectionRules.any fun rule => rule.conditions.any fun cond => cond.accepts m

/-- Second loop: is there a condition with neither analyzer nor label filter? -/
def hasUnfiltered (policy : Policy) : Bool :=
  policy.detectionRules.any fun rule =>
    rule.conditions.any fun cond => cond.analyzerName.isEmpty && cond.patternLabel.isEmpty

/-- Third loop: one made-up match per FileType condition that names the type. -/
def synthesizedMatches (policy : Policy) (detection : DetectionResult) : List DetectionMatch :=
  policy.detectionRules.flatMap fun rule =>
    (rule.conditions.filter fun cond => cond.synthesizes detection).map fun _ =>
      fileTypeMatch detection

/-- The `matched_rules` argument is not used by the source either. -/
def collectRelevantMatches (policy : Policy) (detection : DetectionResult)
    (_matchedRules : List StdString) : List DetectionMatch :=
  let relevant := relevantMatches policy detection
  if relevant.isEmpty && !detection.matches.isEmpty && hasUnfiltered policy then
    detection.matches
  else if relevant.isEmpty then synthesizedMatches policy detection
  else relevant

/-! ## Exceptions -/

/-- Does an entire-message exception apply? -/
def PolicyException.appliesToMessage (exc : PolicyException) (detection : DetectionResult) : Bool :=
  match exc.condition with
  | some condition => condition detection
  | none =>
      if !exc.matchLabel.isEmpty then detection.matches.any fun m => m.label == exc.matchLabel
      else true

/-- Does an MCO exception apply? -/
def PolicyException.appliesToMatches (exc : PolicyException) (detection : DetectionResult) : Bool :=
  match exc.condition with
  | some condition => condition detection
  | none => true

/-- The match criteria of an MCO exception. -/
def PolicyException.covers (exc : PolicyException) (m : DetectionMatch) : Bool :=
  (exc.analyzerName.isEmpty || m.analyzerName == exc.analyzerName) &&
  (exc.component.isEmpty || m.component == exc.component) &&
  (exc.matchLabel.isEmpty || m.label == exc.matchLabel)

def applyMCOExceptions (exceptions : List PolicyException) (found : List DetectionMatch)
    (detection : DetectionResult) : List DetectionMatch :=
  exceptions.foldl (fun filtered exc =>
    if exc.scope == .matchedComponent && exc.appliesToMatches detection then
      filtered.filter fun m => !exc.covers m
    else filtered) found

/-! ## Severity and the whole evaluation -/

def PolicyEvaluator.calculateSeverity (ev : PolicyEvaluator) (policy : Policy)
    (matchCount : Int) : Severity :=
  if policy.severityThresholds.isEmpty then policy.defaultSeverity
  else
    match (ev.sort policy.severityThresholds).find? fun t => t.minMatches ≤ matchCount with
    | some t => t.severity
    | none => policy.defaultSeverity

def PolicyEvaluator.evaluate (ev : PolicyEvaluator) (policy : Policy)
    (detection : DetectionResult) : PolicyViolation :=
  let violation : PolicyViolation := { policyId := policy.id, policyName := policy.name }
  if !policy.active then violation
  else
    let matchedRules :=
      (policy.detectionRules.filter fun rule => evaluateRule rule detection).map (·.name)
    if matchedRules.isEmpty then violation
    else
      let relevant := collectRelevantMatches policy detection matchedRules
      match policy.exceptions.find? fun exc =>
          exc.scope == .entireMessage && exc.appliesToMessage detection with
      | some exc => { violation with exceptionApplied := exc.name }
      | none =>
          let relevant := applyMCOExceptions policy.exceptions relevant detection
          if relevant.isEmpty then violation
          else
            { violation with
              triggered := true
              «matches» := relevant
              matchCount := relevant.length
              matchedRules := matchedRules
              response := policy.response
              severity := ev.calculateSeverity policy relevant.length }

def PolicyEvaluator.evaluateAll (ev : PolicyEvaluator) (policies : List Policy)
    (detection : DetectionResult) : List PolicyViolation :=
  (policies.map fun policy => ev.evaluate policy detection).filter (·.triggered)

/-! ## What an evaluation computes

Everything in a violation follows from its list of matches, the *evidence*. -/

/-- Some rule of the policy matches. -/
def Policy.ruleMatches (policy : Policy) (detection : DetectionResult) : Bool :=
  policy.detectionRules.any fun rule => evaluateRule rule detection

/-- Some entire-message exception of the policy applies. -/
def Policy.messageExcepted (policy : Policy) (detection : DetectionResult) : Bool :=
  policy.exceptions.any fun exc => exc.scope == .entireMessage && exc.appliesToMessage detection

/-- Some MCO exception of the policy applies and covers `m`. -/
def Policy.matchExcepted (policy : Policy) (detection : DetectionResult)
    (m : DetectionMatch) : Bool :=
  policy.exceptions.any fun exc =>
    exc.scope == .matchedComponent && exc.appliesToMatches detection && exc.covers m

def evidence (policy : Policy) (detection : DetectionResult) : List DetectionMatch :=
  if policy.active && policy.ruleMatches detection && !policy.messageExcepted detection then
    (collectRelevantMatches policy detection []).filter fun m =>
      !policy.matchExcepted detection m
  else []

/-- Applying the MCO exceptions one after the other removes what any of them
covers. -/
theorem applyMCOExceptions_eq (exceptions : List PolicyException)
    (found : List DetectionMatch) (detection : DetectionResult) :
    applyMCOExceptions exceptions found detection =
      found.filter fun m => !exceptions.any fun exc =>
        exc.scope == .matchedComponent && exc.appliesToMatches detection && exc.covers m := by
  unfold applyMCOExceptions
  induction exceptions generalizing found with
  | nil => simp
  | cons exc rest ih =>
      rw [List.foldl_cons, ih]
      cases happ : exc.scope == .matchedComponent && exc.appliesToMatches detection with
      | true => simp [happ, List.filter_filter, Bool.and_comm]
      | false => simp [happ]

/-- The evaluation as a function of the evidence. -/
theorem evaluate_eq (ev : PolicyEvaluator) (policy : Policy) (detection : DetectionResult) :
    (ev.evaluate policy detection).matches = evidence policy detection ∧
    (ev.evaluate policy detection).triggered = !(evidence policy detection).isEmpty ∧
    (ev.evaluate policy detection).matchCount = (evidence policy detection).length ∧
    ((ev.evaluate policy detection).triggered = true →
      (ev.evaluate policy detection).severity =
        ev.calculateSeverity policy (evidence policy detection).length ∧
      (ev.evaluate policy detection).response = policy.response ∧
      (ev.evaluate policy detection).matchedRules =
        (policy.detectionRules.filter fun rule => evaluateRule rule detection).map (·.name)) := by
  unfold PolicyEvaluator.evaluate evidence
  cases hact : policy.active with
  | false => simp
  | true =>
      cases hrule : policy.ruleMatches detection with
      | false =>
          have hnone :
              (policy.detectionRules.filter fun rule => evaluateRule rule detection) = [] := by
            simpa [Policy.ruleMatches, List.filter_eq_nil_iff] using hrule
          simp [hnone]
      | true =>
          have hsome :
              (policy.detectionRules.filter fun rule => evaluateRule rule detection) ≠ [] := by
            obtain ⟨rule, hmem, hr⟩ := List.any_eq_true.mp hrule
            exact List.ne_nil_of_mem (List.mem_filter.mpr ⟨hmem, hr⟩)
          cases hexc : policy.exceptions.find? fun exc =>
              exc.scope == .entireMessage && exc.appliesToMessage detection with
          | some exc =>
              have happ := List.find?_some hexc
              have hm : policy.messageExcepted detection = true :=
                List.any_eq_true.mpr ⟨exc, List.mem_of_find?_eq_some hexc, happ⟩
              simp [hsome, hm]
          | none =>
              have hm : policy.messageExcepted detection = false := by
                simpa [Policy.messageExcepted, List.find?_eq_none] using hexc
              have hcollect : applyMCOExceptions policy.exceptions
                  (collectRelevantMatches policy detection
                    ((policy.detectionRules.filter fun rule =>
                      evaluateRule rule detection).map (·.name))) detection =
                  (collectRelevantMatches policy detection []).filter fun m =>
                    !policy.matchExcepted detection m := by
                rw [applyMCOExceptions_eq]
                rfl
              simp only [hcollect]
              cases hev : ((collectRelevantMatches policy detection []).filter fun m =>
                  !policy.matchExcepted detection m) with
              | nil => simp [hsome, hm]
              | cons m ms => simp [hsome, hm]

@[simp] theorem evaluate_matches (ev : PolicyEvaluator) (policy : Policy)
    (detection : DetectionResult) :
    (ev.evaluate policy detection).matches = evidence policy detection :=
  (evaluate_eq ev policy detection).1

@[simp] theorem evaluate_triggered (ev : PolicyEvaluator) (policy : Policy)
    (detection : DetectionResult) :
    (ev.evaluate policy detection).triggered = !(evidence policy detection).isEmpty :=
  (evaluate_eq ev policy detection).2.1

@[simp] theorem evaluate_matchCount (ev : PolicyEvaluator) (policy : Policy)
    (detection : DetectionResult) :
    (ev.evaluate policy detection).matchCount = (evidence policy detection).length :=
  (evaluate_eq ev policy detection).2.2.1

theorem evaluate_severity (ev : PolicyEvaluator) {policy : Policy}
    {detection : DetectionResult} (h : (ev.evaluate policy detection).triggered = true) :
    (ev.evaluate policy detection).severity =
      ev.calculateSeverity policy (evidence policy detection).length :=
  ((evaluate_eq ev policy detection).2.2.2 h).1

@[simp] theorem evaluate_policyId (ev : PolicyEvaluator) (policy : Policy)
    (detection : DetectionResult) : (ev.evaluate policy detection).policyId = policy.id := by
  unfold PolicyEvaluator.evaluate
  dsimp only
  repeat' split
  all_goals rfl

theorem mem_evaluateAll {ev : PolicyEvaluator} {policies : List Policy}
    {detection : DetectionResult} {v : PolicyViolation} :
    v ∈ ev.evaluateAll policies detection ↔
      ∃ policy ∈ policies, ev.evaluate policy detection = v ∧ v.triggered = true := by
  unfold PolicyEvaluator.evaluateAll
  rw [List.mem_filter, List.mem_map]
  constructor
  · rintro ⟨⟨policy, hmem, rfl⟩, ht⟩
    exact ⟨policy, hmem, rfl, ht⟩
  · rintro ⟨policy, hmem, rfl, ht⟩
    exact ⟨⟨policy, hmem, rfl⟩, ht⟩

end AkesoDlp.Agent
