import AkesoDlp.Agent.PolicyEvaluator
import AkesoDlp.Lib.Tiers
import AkesoDlp.Server.PolicyEvaluator

/-!
# What an exception can change

An exception that is added to a policy, at any place in its list, takes matches away: an
entire-message exception all of them, any other those that it covers. Fewer matches reach
lower tiers. This is so for both evaluators, which share neither the order of their stages
nor their way to collect matches.
-/

namespace AkesoDlp

open Lib
open Agent (Severity)

/-- What counts of a violation. -/
structure Outcome (μ : Type) where
  triggered : Bool
  «matches» : List μ
  severity : Severity

/-- The second outcome has no trigger, no match and no severity that the first has not. -/
structure OnlyRemoves {μ : Type} (before after : Outcome μ) : Prop where
  triggered : after.triggered = true → before.triggered = true
  «matches» : after.matches.Sublist before.matches
  severity : after.triggered = true → after.severity.toNat ≤ before.severity.toNat

theorem any_insert {α : Type} (p : α → Bool) (front back : List α) (a : α) :
    (front ++ a :: back).any p = (p a || (front ++ back).any p) := by
  simp only [List.any_append, List.any_cons, Bool.or_left_comm]

/-- What passes stricter tests is a part of what passes. -/
theorem guarded_filter_sublist {μ : Type} (found : List μ) {guard guard' : Bool}
    {p p' : μ → Bool} (hguard : guard' = true → guard = true)
    (hp : ∀ m, p' m = true → p m = true) :
    (if guard' then found.filter p' else []).Sublist (if guard then found.filter p else []) := by
  cases hg : guard' with
  | false => exact List.nil_sublist _
  | true =>
      rw [hguard hg]
      exact List.monotone_filter_right found hp

/-! ## The server -/

namespace Server

def PolicyViolation.outcome (v : PolicyViolation) : Outcome Match :=
  ⟨v.triggered, v.matches, v.severity⟩

def Policy.TiersRise (policy : Policy) : Prop :=
  Lib.TiersRise (fun level : SeverityLevel => level.minMatches)
    (fun level => level.severity.toNat) policy.defaultSeverity.toNat policy.severityLevels

theorem calculateSeverity_eq (policy : Policy) (count : Nat) :
    (calculateSeverity policy count).toNat =
      tierValue (fun level : SeverityLevel => level.minMatches) (fun level => level.severity.toNat)
        policy.defaultSeverity.toNat (sortedLevels policy.severityLevels) count := by
  unfold calculateSeverity tierValue
  split
  · next hempty => rw [List.isEmpty_iff.mp hempty]; rfl
  · simp only [ge_iff_le]
    cases (sortedLevels policy.severityLevels).find? fun level =>
      decide (level.minMatches ≤ (count : Int)) <;> rfl

theorem calculateSeverity_mono {policy : Policy} (h : policy.TiersRise) {m n : Nat} (hmn : m ≤ n) :
    (calculateSeverity policy m).toNat ≤ (calculateSeverity policy n).toNat := by
  rw [calculateSeverity_eq, calculateSeverity_eq]
  exact tierValue_mono (sortedLevels_sorted _) (h.perm (sortedLevels_perm _)) (by omega)

variable {policy : Policy} {front back : List PolicyException}

theorem evidence_insert (h : policy.exceptions = front ++ back) (exc : PolicyException)
    (message : ParsedMessage) (detection : DetectionResult) :
    (evidence { policy with exceptions := front ++ exc :: back } message detection).Sublist
      (evidence policy message detection) := by
  unfold evidence Policy.messageExcepted Policy.matchExcepted
  simp only [any_insert, h]
  apply guarded_filter_sublist
  · intro hkept
    simp only [Bool.not_or, Bool.and_eq_true] at hkept ⊢
    exact ⟨hkept.1, hkept.2.2⟩
  · intro m hm
    simp only [Bool.not_or, Bool.and_eq_true] at hm ⊢
    exact ⟨hm.1, hm.2.2⟩

/-- The evaluation with a further exception. -/
theorem onlyRemoves_exception (h : policy.exceptions = front ++ back) (hrise : policy.TiersRise)
    (exc : PolicyException) (message : ParsedMessage) (detection : DetectionResult) :
    OnlyRemoves (evaluatePolicy policy message detection).outcome
      (evaluatePolicy { policy with exceptions := front ++ exc :: back } message
        detection).outcome := by
  have hsub := evidence_insert h exc message detection
  obtain ⟨hmatches, htriggered, -, hseverity⟩ := evaluatePolicy_eq policy message detection
  obtain ⟨hmatches', htriggered', -, hseverity'⟩ := evaluatePolicy_eq
    { policy with exceptions := front ++ exc :: back } message detection
  have hkeeps : (evaluatePolicy { policy with exceptions := front ++ exc :: back } message
        detection).triggered = true →
      (evaluatePolicy policy message detection).triggered = true := by
    rw [htriggered, htriggered', Bool.not_eq_true', Bool.not_eq_true', List.isEmpty_eq_false_iff,
      List.isEmpty_eq_false_iff]
    intro hne hnil
    rw [hnil] at hsub
    exact hne (List.sublist_nil.mp hsub)
  refine ⟨hkeeps, ?_, fun ht => ?_⟩
  · show (evaluatePolicy _ message detection).matches.Sublist (evaluatePolicy _ _ _).matches
    rw [hmatches, hmatches']
    exact hsub
  · show (evaluatePolicy _ message detection).severity.toNat ≤ (evaluatePolicy _ _ _).severity.toNat
    rw [hseverity' ht, hseverity (hkeeps ht)]
    exact calculateSeverity_mono hrise hsub.length_le

end Server

/-! ## The agent -/

namespace Agent

def PolicyViolation.outcome (v : PolicyViolation) : Outcome DetectionMatch :=
  ⟨v.triggered, v.matches, v.severity⟩

def Policy.TiersRise (policy : Policy) : Prop :=
  Lib.TiersRise (fun t : SeverityThreshold => t.minMatches) (fun t => t.severity.toNat)
    policy.defaultSeverity.toNat policy.severityThresholds

variable (ev : PolicyEvaluator)

theorem calculateSeverity_eq (policy : Policy) (count : Int) :
    (ev.calculateSeverity policy count).toNat =
      tierValue (fun t : SeverityThreshold => t.minMatches) (fun t => t.severity.toNat)
        policy.defaultSeverity.toNat (ev.sort policy.severityThresholds) count := by
  unfold PolicyEvaluator.calculateSeverity tierValue
  split
  · next hempty =>
      have hsort : ev.sort policy.severityThresholds = [] := by
        rw [List.isEmpty_iff.mp hempty]
        exact (ev.sort_perm []).eq_nil
      rw [hsort]
      rfl
  · cases (ev.sort policy.severityThresholds).find? fun t =>
      decide (t.minMatches ≤ count) <;> rfl

theorem calculateSeverity_mono {policy : Policy} (h : policy.TiersRise) {m n : Int}
    (hmn : m ≤ n) :
    (ev.calculateSeverity policy m).toNat ≤ (ev.calculateSeverity policy n).toNat := by
  rw [calculateSeverity_eq, calculateSeverity_eq]
  exact tierValue_mono (ev.sort_sorted _) (h.perm (ev.sort_perm _)) hmn

variable {policy : Policy} {front back : List PolicyException}

theorem evidence_insert (h : policy.exceptions = front ++ back) (exc : PolicyException)
    (detection : DetectionResult) :
    (evidence { policy with exceptions := front ++ exc :: back } detection).Sublist
      (evidence policy detection) := by
  unfold evidence Policy.messageExcepted Policy.matchExcepted
  simp only [any_insert, h]
  apply guarded_filter_sublist
  · intro hkept
    simp only [Bool.not_or, Bool.and_eq_true] at hkept ⊢
    exact ⟨hkept.1, hkept.2.2⟩
  · intro m hm
    simp only [Bool.not_or, Bool.and_eq_true] at hm ⊢
    exact hm.2

theorem onlyRemoves_exception (h : policy.exceptions = front ++ back) (hrise : policy.TiersRise)
    (exc : PolicyException) (detection : DetectionResult) :
    OnlyRemoves (ev.evaluate policy detection).outcome
      (ev.evaluate { policy with exceptions := front ++ exc :: back } detection).outcome := by
  have hsub := evidence_insert h exc detection
  have hkeeps : (ev.evaluate { policy with exceptions := front ++ exc :: back }
        detection).triggered = true →
      (ev.evaluate policy detection).triggered = true := by
    simp only [evaluate_triggered, Bool.not_eq_true', List.isEmpty_eq_false_iff]
    intro hne hnil
    rw [hnil] at hsub
    exact hne (List.sublist_nil.mp hsub)
  refine ⟨hkeeps, ?_, fun ht => ?_⟩
  · show (ev.evaluate _ detection).matches.Sublist (ev.evaluate _ detection).matches
    rw [evaluate_matches, evaluate_matches]
    exact hsub
  · show (ev.evaluate _ detection).severity.toNat ≤ (ev.evaluate _ detection).severity.toNat
    rw [evaluate_severity ev ht, evaluate_severity ev (hkeeps ht)]
    exact calculateSeverity_mono ev hrise (Int.ofNat_le.mpr hsub.length_le)

end Agent

/-! ## Both evaluators -/

/-- An exception that is added only removes: it makes no policy trigger, adds no match and
raises no severity, whether the server or the agent evaluates. -/
theorem exceptions_only_remove :
    (∀ (policy : Server.Policy) (front back : List Server.PolicyException)
        (exc : Server.PolicyException) (message : Server.ParsedMessage)
        (detection : Server.DetectionResult),
      policy.exceptions = front ++ back → policy.TiersRise →
        OnlyRemoves (Server.evaluatePolicy policy message detection).outcome
          (Server.evaluatePolicy { policy with exceptions := front ++ exc :: back } message
            detection).outcome) ∧
      ∀ (ev : Agent.PolicyEvaluator) (policy : Agent.Policy)
        (front back : List Agent.PolicyException) (exc : Agent.PolicyException)
        (detection : Agent.DetectionResult),
      policy.exceptions = front ++ back → policy.TiersRise →
        OnlyRemoves (ev.evaluate policy detection).outcome
          (ev.evaluate { policy with exceptions := front ++ exc :: back } detection).outcome :=
  ⟨fun _ _ _ exc message detection h hrise =>
      Server.onlyRemoves_exception h hrise exc message detection,
    fun ev _ _ _ exc detection h hrise => Agent.onlyRemoves_exception ev h hrise exc detection⟩

/-- Two matches of one analyzer, one of them in the subject. -/
def Server.twoMatches : Server.DetectionResult where
  messageId := "m"
  «matches» := [Server.ComponentType.body, .subject].map fun type =>
    { analyzerName := "ssn", ruleName := "r", component := ⟨type, "x", []⟩, matchedText := "x"
      startOffset := 0, endOffset := 1 }

def Server.tieredPolicy : Server.Policy where
  name := "PII"
  detectionRules := [{ name := "any", conditions := [{ analyzerName := "ssn" }] }]
  severityLevels := [⟨.medium, 1⟩, ⟨.critical, 2⟩]

/-- The subject is excepted. -/
def Server.subjectException : Server.PolicyException where
  name := "subject"
  scope := .component
  componentTypes := some [.subject]
  condition := some fun _ _ => true

def Agent.twoMatches : Agent.DetectionResult where
  «matches» := [Agent.str "body", Agent.str "subject"].map fun component =>
    { patternId := 1, analyzerName := Agent.str "regex", label := Agent.str "SSN"
      matchedText := [], component := component }

def Agent.tieredPolicy : Agent.Policy where
  detectionRules := [{ name := [], conditions := [{ type := .regex }] }]
  defaultSeverity := .low
  severityThresholds := [⟨.medium, 1⟩, ⟨.critical, 2⟩]

def Agent.subjectException : Agent.PolicyException where
  name := []
  scope := .matchedComponent
  component := Agent.str "subject"

example :
    (Server.evaluatePolicy Server.tieredPolicy ⟨"m", [], []⟩ Server.twoMatches).severity =
        .critical ∧
      (Server.evaluatePolicy { Server.tieredPolicy with exceptions := [Server.subjectException] }
        ⟨"m", [], []⟩ Server.twoMatches).severity = .medium := by
  decide +kernel

theorem exceptions_only_remove_sample :
    OnlyRemoves
        (Server.evaluatePolicy Server.tieredPolicy ⟨"m", [], []⟩ Server.twoMatches).outcome
        (Server.evaluatePolicy { Server.tieredPolicy with exceptions := [Server.subjectException] }
          ⟨"m", [], []⟩ Server.twoMatches).outcome ∧
      OnlyRemoves
        (Agent.PolicyEvaluator.insertion.evaluate Agent.tieredPolicy Agent.twoMatches).outcome
        (Agent.PolicyEvaluator.insertion.evaluate
          { Agent.tieredPolicy with exceptions := [Agent.subjectException] }
          Agent.twoMatches).outcome :=
  ⟨exceptions_only_remove.1 Server.tieredPolicy [] [] Server.subjectException ⟨"m", [], []⟩
      Server.twoMatches rfl ⟨by decide, by decide⟩,
    exceptions_only_remove.2 .insertion Agent.tieredPolicy [] [] Agent.subjectException
      Agent.twoMatches rfl ⟨by decide, by decide⟩⟩

end AkesoDlp
