import AkesoDlp.Server.DetectionModels
import Mathlib.Data.List.Sort

/-!
# The server's policy evaluator

`server/detection/policy_evaluator.py`: conditions, rules, exceptions and
`_evaluate_policy`. Sender and recipient groups appear only through
`matches_message`, the one method that the evaluation calls.
-/

namespace AkesoDlp.Server

inductive ConditionOperator
  | «matches»
  | notMatches
  | countGte
  | countLte
deriving DecidableEq, Repr

inductive ExceptionScope
  | entireMessage
  | component
deriving DecidableEq, Repr

structure RuleCondition where
  analyzerName : String
  operator : ConditionOperator := .matches
  threshold : Int := 0
  componentTypes : Option (List ComponentType) := none
deriving DecidableEq, Repr

/-- The filter behind `if self.component_types`: neither `None` nor the empty
list restricts. -/
def inComponentTypes (componentTypes : Option (List ComponentType)) (m : Match) : Bool :=
  match componentTypes with
  | none => true
  | some types => types.isEmpty || types.contains m.component.componentType

def RuleCondition.evaluate (cond : RuleCondition) (detection : DetectionResult) : Bool :=
  let found := (detection.matchesForAnalyzer cond.analyzerName).filter
    (inComponentTypes cond.componentTypes)
  let count : Int := found.length
  match cond.operator with
  | .matches => count > 0
  | .notMatches => count == 0
  | .countGte => count ≥ cond.threshold
  | .countLte => count ≤ cond.threshold

structure DetectionRule where
  name : String
  conditions : List RuleCondition := []
deriving DecidableEq, Repr

def DetectionRule.evaluate (rule : DetectionRule) (detection : DetectionResult) : Bool :=
  if rule.conditions.isEmpty then false
  else rule.conditions.all fun c => c.evaluate detection

/-- The analyzers of the conditions that hold (a set in the source). -/
def DetectionRule.matchedAnalyzers (rule : DetectionRule) (detection : DetectionResult) :
    List String :=
  (rule.conditions.filter fun cond => cond.evaluate detection).map (·.analyzerName)

structure SenderRecipientGroup where
  name : String
  matchesMessage : ParsedMessage → Bool

structure PolicyException where
  name : String
  scope : ExceptionScope := .entireMessage
  groups : List SenderRecipientGroup := []
  analyzerNames : Option (List String) := none
  componentTypes : Option (List ComponentType) := none
  condition : Option (ParsedMessage → DetectionResult → Bool) := none

def PolicyException.applies (exc : PolicyException) (message : ParsedMessage)
    (detection : DetectionResult) : Bool :=
  match exc.condition with
  | some condition => condition message detection
  | none => !exc.groups.isEmpty && exc.groups.any fun g => g.matchesMessage message

/-- Is `m` excluded by the analyzer and component filters of the exception? -/
def PolicyException.excludes (exc : PolicyException) (m : Match) : Bool :=
  (match exc.analyzerNames with
    | none => true
    | some names => names.isEmpty || names.contains m.analyzerName) &&
  inComponentTypes exc.componentTypes m

def PolicyException.filterMatches (exc : PolicyException) (found : List Match) : List Match :=
  if exc.scope == .entireMessage then []
  else found.filter fun m => !exc.excludes m

structure SeverityLevel where
  severity : Severity
  minMatches : Int
deriving DecidableEq, Repr

structure Policy where
  name : String
  description : String := ""
  detectionRules : List DetectionRule := []
  groups : List SenderRecipientGroup := []
  exceptions : List PolicyException := []
  severityLevels : List SeverityLevel := []
  defaultSeverity : Severity := .low
  enabled : Bool := true

structure PolicyViolation where
  policyName : String
  triggered : Bool := false
  severity : Severity := .low
  matchedRules : List String := []
  «matches» : List Match := []
  matchCount : Nat := 0
  exceptionsApplied : List String := []
deriving DecidableEq

/-- `sorted(..., key=min_matches, reverse=True)`, which is stable. -/
def sortedLevels (levels : List SeverityLevel) : List SeverityLevel :=
  levels.insertionSort fun a b => b.minMatches ≤ a.minMatches

theorem sortedLevels_perm (levels : List SeverityLevel) : (sortedLevels levels).Perm levels :=
  List.perm_insertionSort _ levels

theorem sortedLevels_sorted (levels : List SeverityLevel) :
    (sortedLevels levels).Pairwise fun a b => b.minMatches ≤ a.minMatches := by
  have : Std.Total fun a b : SeverityLevel => b.minMatches ≤ a.minMatches :=
    ⟨fun a b => Int.le_total b.minMatches a.minMatches⟩
  have : IsTrans SeverityLevel fun a b => b.minMatches ≤ a.minMatches :=
    ⟨fun a b c hab hbc => Int.le_trans hbc hab⟩
  exact List.pairwise_insertionSort _ levels

def calculateSeverity (policy : Policy) (matchCount : Nat) : Severity :=
  if policy.severityLevels.isEmpty then policy.defaultSeverity
  else
    match (sortedLevels policy.severityLevels).find? fun level =>
        (matchCount : Int) ≥ level.minMatches with
    | some level => level.severity
    | none => policy.defaultSeverity

/-- The second exception loop: each applying MCO exception filters the matches
and is listed when it removed some. -/
def applyComponentExceptions (exceptions : List PolicyException) (message : ParsedMessage)
    (detection : DetectionResult) (found : List Match) (applied : List String) :
    List Match × List String :=
  exceptions.foldl (fun acc exc =>
    if exc.scope == .component && exc.applies message detection then
      let kept := exc.filterMatches acc.1
      (kept, if kept.length < acc.1.length then acc.2 ++ [exc.name] else acc.2)
    else acc) (found, applied)

/-- `_evaluate_policy`. -/
def evaluatePolicy (policy : Policy) (message : ParsedMessage)
    (detection : DetectionResult) : PolicyViolation :=
  let violation : PolicyViolation := { policyName := policy.name }
  let matched := policy.detectionRules.filter fun rule => rule.evaluate detection
  let contributingAnalyzers := matched.flatMap fun rule => rule.matchedAnalyzers detection
  if matched.isEmpty then violation
  else
    let violation := { violation with matchedRules := matched.map (·.name) }
    if !policy.groups.isEmpty && !(policy.groups.any fun g => g.matchesMessage message) then
      violation
    else
      let relevant := detection.matches.filter fun m =>
        contributingAnalyzers.contains m.analyzerName
      match policy.exceptions.find? fun exc =>
          exc.scope == .entireMessage && exc.applies message detection with
      | some exc => { violation with exceptionsApplied := [exc.name] }
      | none =>
          let (relevant, applied) :=
            applyComponentExceptions policy.exceptions message detection relevant []
          let violation := { violation with exceptionsApplied := applied }
          if relevant.isEmpty then violation
          else
            { violation with
              triggered := true
              «matches» := relevant
              matchCount := relevant.length
              severity := calculateSeverity policy relevant.length }

/-! ## What an evaluation computes

As for the agent, everything in a violation follows from its matches. -/

/-- The matches that a condition counts. -/
def RuleCondition.accepts (cond : RuleCondition) (m : Match) : Bool :=
  m.analyzerName == cond.analyzerName && inComponentTypes cond.componentTypes m

theorem RuleCondition.evaluate_eq (cond : RuleCondition) (detection : DetectionResult) :
    cond.evaluate detection =
      let count : Int := detection.matches.countP cond.accepts
      match cond.operator with
      | .matches => decide (count > 0)
      | .notMatches => count == 0
      | .countGte => decide (count ≥ cond.threshold)
      | .countLte => decide (count ≤ cond.threshold) := by
  unfold RuleCondition.evaluate RuleCondition.accepts DetectionResult.matchesForAnalyzer
  simp only [List.filter_filter, List.countP_eq_length_filter, Bool.and_comm]

def Policy.ruleMatches (policy : Policy) (detection : DetectionResult) : Bool :=
  policy.detectionRules.any fun rule => rule.evaluate detection

/-- The group filter: no groups, or one of them matches. -/
def Policy.inScope (policy : Policy) (message : ParsedMessage) : Bool :=
  policy.groups.isEmpty || policy.groups.any fun g => g.matchesMessage message

def Policy.messageExcepted (policy : Policy) (message : ParsedMessage)
    (detection : DetectionResult) : Bool :=
  policy.exceptions.any fun exc => exc.scope == .entireMessage && exc.applies message detection

def Policy.matchExcepted (policy : Policy) (message : ParsedMessage)
    (detection : DetectionResult) (m : Match) : Bool :=
  policy.exceptions.any fun exc =>
    exc.scope == .component && exc.applies message detection && exc.excludes m

/-- The analyzer of the match is a contributing one. -/
def Policy.contributes (policy : Policy) (detection : DetectionResult) (m : Match) : Bool :=
  policy.detectionRules.any fun rule =>
    rule.evaluate detection && rule.conditions.any fun cond =>
      cond.evaluate detection && m.analyzerName == cond.analyzerName

def evidence (policy : Policy) (message : ParsedMessage) (detection : DetectionResult) :
    List Match :=
  if policy.ruleMatches detection && policy.inScope message &&
      !policy.messageExcepted message detection then
    detection.matches.filter fun m =>
      policy.contributes detection m && !policy.matchExcepted message detection m
  else []

theorem applyComponentExceptions_fst (exceptions : List PolicyException)
    (message : ParsedMessage) (detection : DetectionResult) (found : List Match)
    (applied : List String) :
    (applyComponentExceptions exceptions message detection found applied).1 =
      found.filter fun m => !exceptions.any fun exc =>
        exc.scope == .component && exc.applies message detection && exc.excludes m := by
  unfold applyComponentExceptions
  induction exceptions generalizing found applied with
  | nil => simp
  | cons exc rest ih =>
      simp only [List.foldl_cons]
      cases happ : exc.scope == .component && exc.applies message detection with
      | true =>
          have hscope : exc.scope = .component := beq_iff_eq.mp (Bool.and_eq_true_iff.mp happ).1
          have hkept : exc.filterMatches found = found.filter fun m => !exc.excludes m := by
            simp [PolicyException.filterMatches, hscope]
          simp only [if_true, hkept, ih, List.filter_filter, List.any_cons, happ, Bool.true_and,
            Bool.not_or, Bool.and_comm]
      | false => simp only [Bool.false_eq_true, if_false, ih, List.any_cons, happ, Bool.false_and,
          Bool.false_or]

theorem contains_contributingAnalyzers (policy : Policy) (detection : DetectionResult)
    (m : Match) :
    ((policy.detectionRules.filter fun rule => rule.evaluate detection).flatMap
      fun rule => rule.matchedAnalyzers detection).contains m.analyzerName =
      policy.contributes detection m := by
  rw [Bool.eq_iff_iff]
  simp only [Policy.contributes, DetectionRule.matchedAnalyzers, List.contains_iff_mem,
    List.mem_flatMap, List.mem_filter, List.mem_map, List.any_eq_true, Bool.and_eq_true,
    beq_iff_eq]
  constructor
  · rintro ⟨rule, ⟨hrule, heval⟩, cond, ⟨hcond, hc⟩, hname⟩
    exact ⟨rule, hrule, heval, cond, hcond, hc, hname.symm⟩
  · rintro ⟨rule, hrule, heval, cond, hcond, hc, hname⟩
    exact ⟨rule, ⟨hrule, heval⟩, cond, ⟨hcond, hc⟩, hname.symm⟩

/-- The evaluation as a function of the evidence. -/
theorem evaluatePolicy_eq (policy : Policy) (message : ParsedMessage)
    (detection : DetectionResult) :
    (evaluatePolicy policy message detection).matches = evidence policy message detection ∧
    (evaluatePolicy policy message detection).triggered =
      !(evidence policy message detection).isEmpty ∧
    (evaluatePolicy policy message detection).matchCount =
      (evidence policy message detection).length ∧
    ((evaluatePolicy policy message detection).triggered = true →
      (evaluatePolicy policy message detection).severity =
        calculateSeverity policy (evidence policy message detection).length) := by
  unfold evaluatePolicy evidence
  cases hrule : policy.ruleMatches detection with
  | false =>
      have hnone : (policy.detectionRules.filter fun rule => rule.evaluate detection) = [] := by
        simpa [Policy.ruleMatches, List.filter_eq_nil_iff] using hrule
      simp [hnone]
  | true =>
      have hsome : (policy.detectionRules.filter fun rule => rule.evaluate detection) ≠ [] := by
        obtain ⟨rule, hmem, hr⟩ := List.any_eq_true.mp hrule
        exact List.ne_nil_of_mem (List.mem_filter.mpr ⟨hmem, hr⟩)
      cases hscope : policy.inScope message with
      | false =>
          have hgroups : (!policy.groups.isEmpty &&
              !(policy.groups.any fun g => g.matchesMessage message)) = true := by
            rw [← Bool.not_or, ← Policy.inScope, hscope, Bool.not_false]
          simp [hsome, hgroups]
      | true =>
          have hgroups : (!policy.groups.isEmpty &&
              !(policy.groups.any fun g => g.matchesMessage message)) = false := by
            rw [← Bool.not_or, ← Policy.inScope, hscope, Bool.not_true]
          cases hexc : policy.exceptions.find? fun exc =>
              exc.scope == .entireMessage && exc.applies message detection with
          | some exc =>
              have happ := List.find?_some hexc
              have hm : policy.messageExcepted message detection = true :=
                List.any_eq_true.mpr ⟨exc, List.mem_of_find?_eq_some hexc, happ⟩
              simp [hsome, hgroups, hm]
          | none =>
              have hm : policy.messageExcepted message detection = false := by
                simpa [Policy.messageExcepted, List.find?_eq_none] using hexc
              have hfound : (applyComponentExceptions policy.exceptions message detection
                  (detection.matches.filter fun m =>
                    ((policy.detectionRules.filter fun rule => rule.evaluate detection).flatMap
                      fun rule => rule.matchedAnalyzers detection).contains m.analyzerName)
                  []).1 =
                  detection.matches.filter fun m =>
                    policy.contributes detection m &&
                      !policy.matchExcepted message detection m := by
                simp only [applyComponentExceptions_fst, contains_contributingAnalyzers,
                  List.filter_filter, Bool.and_comm]
                rfl
              simp only [hfound]
              cases hev : (detection.matches.filter fun m =>
                  policy.contributes detection m &&
                    !policy.matchExcepted message detection m) with
              | nil => simp [hsome, hgroups, hm]
              | cons m ms => simp [hsome, hgroups, hm]

end AkesoDlp.Server
