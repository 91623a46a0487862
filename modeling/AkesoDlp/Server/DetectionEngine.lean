import AkesoDlp.Lib.Raises
import AkesoDlp.Server.KeywordAnalyzer
import Mathlib.Algebra.BigOperators.Group.List.Basic
import Mathlib.Algebra.GroupWithZero.Nat
import Mathlib.Data.Multiset.Bind

/-!
# The server's detection engine

`server/detection/engine.py`, and of `server/detection/analyzers` the choice of the components
that an analyzer gets. The analyzers of the package look at one component at a time, so the
matches of a message are counted component by component.
-/

namespace AkesoDlp.Server

open Lib (Yields)

/-- `get_components`. -/
def ParsedMessage.getComponents (message : ParsedMessage) (types : List ComponentType)
    (includeGeneric : Bool := true) : List MessageComponent :=
  if types = [] then message.components
  else
    message.components.filter fun component =>
      types.contains component.componentType ||
        (includeGeneric && component.componentType == .generic)

/-- A `BaseAnalyzer`: `analyze` is its scan of the target components, and what it raises. -/
structure Analyzer where
  name : String
  /-- `repr(name)`. -/
  nameRepr : String
  targetComponents : Option (List ComponentType) := none
  analyze : List MessageComponent → Except String (List Match)

def Analyzer.getTargetComponents (analyzer : Analyzer) (message : ParsedMessage) :
    List MessageComponent :=
  match analyzer.targetComponents with
  | none => message.getComponents []
  | some types => message.getComponents types

structure DetectionEngine where
  analyzers : List Analyzer := []

/-- The body of the loop of `detect`. -/
def Analyzer.run (message : ParsedMessage) (result : DetectionResult) (analyzer : Analyzer) :
    DetectionResult :=
  match analyzer.analyze (analyzer.getTargetComponents message) with
  | .ok found => { result with «matches» := result.matches ++ found }
  | .error exc =>
      { result with
        errors := result.errors ++ ["Analyzer " ++ analyzer.nameRepr ++ " failed: " ++ exc] }

def DetectionEngine.detect (engine : DetectionEngine) (message : ParsedMessage) :
    DetectionResult :=
  engine.analyzers.foldl (Analyzer.run message) { messageId := message.messageId }

/-- The matches are those of the analyzers that do not raise. -/
theorem DetectionEngine.matches_detect (engine : DetectionEngine) (message : ParsedMessage) :
    (engine.detect message).matches = engine.analyzers.flatMap fun analyzer =>
      match analyzer.analyze (analyzer.getTargetComponents message) with
      | .ok found => found
      | .error _ => [] := by
  have hfold (analyzers : List Analyzer) (result : DetectionResult) :
      (analyzers.foldl (Analyzer.run message) result).matches = result.matches ++
        analyzers.flatMap fun analyzer =>
          match analyzer.analyze (analyzer.getTargetComponents message) with
          | .ok found => found
          | .error _ => [] := by
    induction analyzers generalizing result with
    | nil => simp
    | cons analyzer analyzers ih =>
        rw [List.foldl_cons, ih, List.flatMap_cons, ← List.append_assoc, Analyzer.run]
        cases analyzer.analyze (analyzer.getTargetComponents message) with
        | error exc => simp
        | ok found => simp
  exact hfold engine.analyzers _

theorem DetectionEngine.mem_matches_detect {engine : DetectionEngine} {message : ParsedMessage}
    {m : Match} :
    m ∈ (engine.detect message).matches ↔ ∃ analyzer ∈ engine.analyzers,
      Yields (analyzer.analyze (analyzer.getTargetComponents message)) m := by
  rw [DetectionEngine.matches_detect, List.mem_flatMap]
  refine exists_congr fun analyzer => and_congr_right fun _ => ?_
  cases analyzer.analyze (analyzer.getTargetComponents message) with
  | error exc => simp
  | ok found => simp

/-! ## One component at a time -/

/-- An analyzer that raises nothing and whose matches are those of the components, in some
order. -/
structure ScanningAnalyzer extends Analyzer where
  scan : MessageComponent → List Match
  analyze_perm : ∀ components, ∃ found, analyze components = .ok found ∧
    found.Perm (components.flatMap scan)

/-- The component is among the targets. -/
def Analyzer.targets (analyzer : Analyzer) (component : MessageComponent) : Bool :=
  analyzer.targetComponents.all fun types =>
    types.isEmpty || types.contains component.componentType ||
      component.componentType == .generic

/-- The matches that the analyzer finds in the component. -/
def ScanningAnalyzer.count (analyzer : ScanningAnalyzer) (component : MessageComponent) : Nat :=
  if analyzer.targets component then (analyzer.scan component).length else 0

def DetectionEngine.ofScanning (analyzers : List ScanningAnalyzer) : DetectionEngine where
  analyzers := analyzers.map (·.toAnalyzer)

/-- The matches that the analyzers find in the component. -/
def countMatches (analyzers : List ScanningAnalyzer) (component : MessageComponent) : Nat :=
  (analyzers.map (·.count component)).sum

/-- The matches that the analyzers find in the components. -/
def countAll (analyzers : List ScanningAnalyzer) (components : List MessageComponent) : Nat :=
  (components.map (countMatches analyzers)).sum

theorem Analyzer.getTargetComponents_eq (analyzer : Analyzer) (message : ParsedMessage) :
    analyzer.getTargetComponents message = message.components.filter analyzer.targets := by
  unfold Analyzer.getTargetComponents Analyzer.targets ParsedMessage.getComponents
  cases analyzer.targetComponents with
  | none => simp
  | some types =>
      cases types with
      | nil => simp
      | cons => simp

theorem length_flatMap_targets (analyzer : ScanningAnalyzer)
    (components : List MessageComponent) :
    ((components.filter analyzer.targets).flatMap analyzer.scan).length =
      (components.map analyzer.count).sum := by
  induction components with
  | nil => rfl
  | cons component components ih =>
      rw [List.map_cons, List.sum_cons, ← ih, List.filter_cons, ScanningAnalyzer.count]
      split
      · rw [List.flatMap_cons, List.length_append]
      · rw [Nat.zero_add]

theorem ScanningAnalyzer.matches_run (analyzer : ScanningAnalyzer) (message : ParsedMessage)
    (result : DetectionResult) :
    (analyzer.toAnalyzer.run message result).matchCount =
      result.matchCount + (message.components.map analyzer.count).sum := by
  obtain ⟨found, hfound, hperm⟩ :=
    analyzer.analyze_perm (analyzer.getTargetComponents message)
  have hlength := hperm.length_eq
  rw [Analyzer.getTargetComponents_eq, length_flatMap_targets] at hlength
  rw [Analyzer.run, hfound, DetectionResult.matchCount, List.length_append, hlength]
  rfl

@[simp] theorem countAll_append (analyzers : List ScanningAnalyzer)
    (front back : List MessageComponent) :
    countAll analyzers (front ++ back) = countAll analyzers front + countAll analyzers back := by
  rw [countAll, List.map_append, List.sum_append]
  rfl

@[simp] theorem countAll_cons (analyzers : List ScanningAnalyzer)
    (component : MessageComponent) (components : List MessageComponent) :
    countAll analyzers (component :: components) =
      countMatches analyzers component + countAll analyzers components :=
  rfl

theorem countAll_of_forall {analyzers : List ScanningAnalyzer}
    {components : List MessageComponent} {n : Nat}
    (h : ∀ component ∈ components, countMatches analyzers component = n) :
    countAll analyzers components = components.length * n := by
  rw [countAll, List.map_congr_left h, List.map_const', List.sum_replicate_nat]

theorem countAll_cons_analyzer (analyzer : ScanningAnalyzer)
    (analyzers : List ScanningAnalyzer) (components : List MessageComponent) :
    countAll (analyzer :: analyzers) components =
      (components.map analyzer.count).sum + countAll analyzers components := by
  rw [countAll, countAll, ← List.sum_map_add]
  rfl

/-- The matches of all the components are pooled. -/
theorem matchCount_detect (analyzers : List ScanningAnalyzer) (message : ParsedMessage) :
    ((DetectionEngine.ofScanning analyzers).detect message).matchCount =
      countAll analyzers message.components := by
  have hfold : ∀ result : DetectionResult,
      ((analyzers.map (·.toAnalyzer)).foldl (Analyzer.run message) result).matchCount =
        result.matchCount + countAll analyzers message.components := by
    induction analyzers with
    | nil =>
        intro result
        have hzero : countAll [] message.components = message.components.length * 0 :=
          countAll_of_forall fun _ _ => rfl
        rw [hzero, Nat.mul_zero]
        rfl
    | cons analyzer analyzers ih =>
        intro result
        rw [List.map_cons, List.foldl_cons, ih, analyzer.matches_run, countAll_cons_analyzer,
          Nat.add_assoc]
  have hstart := hfold { messageId := message.messageId }
  exact hstart.trans (Nat.zero_add _)

/-! ## Two analyzers -/

/-- The loops of an analyzer: over its rules, and for each of them over the components. -/
def scanRules {ρ : Type} (rules : List ρ) (find : ρ → MessageComponent → List Match)
    (components : List MessageComponent) : List Match :=
  rules.flatMap fun rule => components.flatMap (find rule)

theorem scanRules_perm {ρ : Type} (rules : List ρ) (find : ρ → MessageComponent → List Match)
    (components : List MessageComponent) :
    (scanRules rules find components).Perm
      (components.flatMap fun component => rules.flatMap fun rule => find rule component) := by
  have hswap := @Multiset.bind_bind _ _ _ (rules : Multiset ρ)
    (components : Multiset MessageComponent) fun rule component =>
      Multiset.ofList (find rule component)
  simp only [Multiset.coe_bind, Multiset.coe_eq_coe] at hswap
  exact hswap

/-- An analyzer that goes through its rules. -/
def ScanningAnalyzer.ofRules {ρ : Type} (name nameRepr : String)
    (targetComponents : Option (List ComponentType)) (rules : List ρ)
    (find : ρ → MessageComponent → List Match) : ScanningAnalyzer where
  name := name
  nameRepr := nameRepr
  targetComponents := targetComponents
  analyze components := .ok (scanRules rules find components)
  scan component := rules.flatMap fun rule => find rule component
  analyze_perm components := ⟨_, rfl, scanRules_perm rules find components⟩

structure RegexPattern where
  name : String
  pattern : String
  confidence : ℚ := 1
deriving DecidableEq

/-- The body of the loops of `RegexAnalyzer.analyze`; `finditer` gives the spans that the
compiled pattern matches. -/
def RegexPattern.find (finditer : String → String → List (Nat × Nat)) (analyzerName : String)
    (rp : RegexPattern) (component : MessageComponent) : List Match :=
  (finditer rp.pattern component.content).map fun span =>
    { analyzerName := analyzerName
      ruleName := rp.name
      component := component
      matchedText := String.ofList (slice component.content.toList span.1 span.2)
      startOffset := span.1
      endOffset := span.2
      confidence := rp.confidence }

def regexAnalyzer (finditer : String → String → List (Nat × Nat)) (name nameRepr : String)
    (patterns : List RegexPattern) (targetComponents : Option (List ComponentType) := none) :
    ScanningAnalyzer :=
  .ofRules name nameRepr targetComponents patterns (RegexPattern.find finditer name)

/-- The body of the loops of `KeywordAnalyzer.analyze`. -/
def KeywordDictionaryConfig.find (tables : UnicodeTables) (library : AhoCorasick)
    (analyzerName : String) (config : KeywordDictionaryConfig) (component : MessageComponent) :
    List Match :=
  (if (buildAutomaton tables config).all fun word => word.1.isEmpty then []
    else (matchKeywords tables library analyzerName config component).map (·.toMatch)) ++
  (if config.proximityRules.isEmpty then []
    else (matchProximity tables analyzerName config component).map (·.toMatch))

def keywordAnalyzer (tables : UnicodeTables) (library : AhoCorasick) (name nameRepr : String)
    (dictionaries : List KeywordDictionaryConfig)
    (targetComponents : Option (List ComponentType) := none) : ScanningAnalyzer :=
  .ofRules name nameRepr targetComponents dictionaries
    (KeywordDictionaryConfig.find tables library name)

end AkesoDlp.Server
