import AkesoDlp.Agent.PolicyEvaluator
import AkesoDlp.Server.PolicyEvaluator
import AkesoDlp.Lib.Lists

/-!
# Agent and server on the same policy

`policy_evaluator.cpp` says that it mirrors the Python pipeline. Here a policy
in the fragment that both engines can express is translated to each of them,
and both evaluate the same detection. They are compared on what both record of
a match (`MatchView`).

The rules always agree. The evidence agrees except for three differences: the
agent treats an exception without a condition as applying and the server as
not applying; the agent collects the matches that pass the filters of any
condition of the policy, the server those of the analyzers of the rules that
matched; and the server does not apply component filters when it collects.
-/

namespace AkesoDlp.Parity

open Agent (StdString str str_injective Severity)
open Server (ComponentType)

/-- What both engines record of a match. -/
structure MatchView where
  analyzer : StdString
  label : StdString
  text : StdString
  offset : Nat
  component : StdString
deriving DecidableEq, Repr

def viewAgent (m : Agent.DetectionMatch) : MatchView where
  analyzer := m.analyzerName
  label := m.label
  text := m.matchedText
  offset := m.offset
  component := m.component

def viewServer (m : Server.Match) : MatchView where
  analyzer := str m.analyzerName
  label := str m.ruleName
  text := str m.matchedText
  offset := m.startOffset
  component := str m.component.componentType.value

/-- One detection as both engines see it, without file-type metadata. -/
structure SharedDetection where
  agent : Agent.DetectionResult
  server : Server.DetectionResult
  same : agent.matches.map viewAgent = server.matches.map viewServer
  noFileType : agent.fileType = []

def SharedDetection.views (D : SharedDetection) : List MatchView := D.agent.matches.map viewAgent

/-! ## The common fragment -/

inductive SharedOperator
  | «matches»
  | notMatches
  | countAtLeast (n : Int)
  | countAtMost (n : Int)
deriving DecidableEq, Repr

/-- A condition with a non-empty analyzer name, no label filter and at most one
component filter. -/
structure SharedCondition where
  type : Agent.ConditionType
  op : SharedOperator
  analyzer : String
  analyzer_ne : analyzer ≠ ""
  component : Option ComponentType := none

structure SharedRule where
  name : String
  conditions : List SharedCondition

/-- An exception without label filter; an empty analyzer name does not filter.
The condition is the same predicate of the detection in both engines. -/
structure SharedException where
  name : String
  scope : Agent.ExceptionScope
  analyzer : String := ""
  component : Option ComponentType := none
  condition : Option (List MatchView → Bool) := none

structure SharedTier where
  severity : Severity
  minMatches : Int

/-- An active policy without groups whose severity tiers are distinct. -/
structure SharedPolicy where
  id : Nat
  name : String
  response : Agent.ResponseAction := .block
  defaultSeverity : Severity
  rules : List SharedRule
  exceptions : List SharedException := []
  tiers : List SharedTier := []
  tiers_distinct : (tiers.map (·.minMatches)).Nodup

/-! ## Translation to the agent -/

def componentFilter (component : Option ComponentType) : StdString :=
  match component with
  | none => []
  | some c => str c.value

def SharedCondition.toAgent (c : SharedCondition) : Agent.RuleCondition :=
  let base : Agent.RuleCondition :=
    { type := c.type, analyzerName := str c.analyzer, component := componentFilter c.component }
  match c.op with
  | .matches => { base with op := .matches, matchCountMin := 1 }
  | .notMatches => { base with op := .notMatches }
  | .countAtLeast n => { base with op := .countGTE, matchCountMin := n }
  | .countAtMost n => { base with op := .countLTE, matchCountMax := n }

def SharedRule.toAgent (r : SharedRule) : Agent.DetectionRule where
  name := str r.name
  conditions := r.conditions.map (·.toAgent)

def SharedException.toAgent (e : SharedException) : Agent.PolicyException where
  name := str e.name
  scope := e.scope
  analyzerName := str e.analyzer
  component := componentFilter e.component
  condition := e.condition.map fun f detection => f (detection.matches.map viewAgent)

def SharedTier.toAgent (t : SharedTier) : Agent.SeverityThreshold where
  severity := t.severity
  minMatches := t.minMatches

def SharedPolicy.toAgent (p : SharedPolicy) : Agent.Policy where
  id := p.id
  name := str p.name
  active := true
  defaultSeverity := p.defaultSeverity
  response := p.response
  detectionRules := p.rules.map (·.toAgent)
  exceptions := p.exceptions.map (·.toAgent)
  severityThresholds := p.tiers.map (·.toAgent)

/-! ## Translation to the server -/

def SharedCondition.toServer (c : SharedCondition) : Server.RuleCondition :=
  let base : Server.RuleCondition :=
    { analyzerName := c.analyzer, componentTypes := c.component.map fun t => [t] }
  match c.op with
  | .matches => { base with operator := .matches }
  | .notMatches => { base with operator := .notMatches }
  | .countAtLeast n => { base with operator := .countGte, threshold := n }
  | .countAtMost n => { base with operator := .countLte, threshold := n }

def SharedRule.toServer (r : SharedRule) : Server.DetectionRule where
  name := r.name
  conditions := r.conditions.map (·.toServer)

def SharedException.toServer (e : SharedException) : Server.PolicyException where
  name := e.name
  scope := match e.scope with
    | .entireMessage => .entireMessage
    | .matchedComponent => .component
  analyzerNames := if e.analyzer = "" then none else some [e.analyzer]
  componentTypes := e.component.map fun t => [t]
  condition := e.condition.map fun f _ detection => f (detection.matches.map viewServer)

def SharedTier.toServer (t : SharedTier) : Server.SeverityLevel where
  severity := t.severity
  minMatches := t.minMatches

def SharedPolicy.toServer (p : SharedPolicy) : Server.Policy where
  name := p.name
  detectionRules := p.rules.map (·.toServer)
  exceptions := p.exceptions.map (·.toServer)
  severityLevels := p.tiers.map (·.toServer)
  defaultSeverity := p.defaultSeverity

/-! ## Agreement -/

/-- Same triggered flag, same matches as often, same count and, when triggered,
same severity. -/
def Agrees (ev : Agent.PolicyEvaluator) (p : SharedPolicy) (message : Server.ParsedMessage)
    (D : SharedDetection) : Prop :=
  let a := ev.evaluate p.toAgent D.agent
  let s := Server.evaluatePolicy p.toServer message D.server
  a.triggered = s.triggered ∧
  (a.matches.map viewAgent).Perm (s.matches.map viewServer) ∧
  a.matchCount = s.matchCount ∧
  (a.triggered = true → a.severity = s.severity)

/-- The analyzer and component filters of a condition, on a view. -/
def SharedCondition.admits (c : SharedCondition) (v : MatchView) : Bool :=
  v.analyzer == str c.analyzer &&
    ((componentFilter c.component).isEmpty || v.component == componentFilter c.component)

/-- The condition holds of the detection. -/
def SharedCondition.holds (c : SharedCondition) (views : List MatchView) : Bool :=
  let count : Int := views.countP c.admits
  match c.op with
  | .matches => 1 ≤ count
  | .notMatches => count == 0
  | .countAtLeast n => n ≤ count
  | .countAtMost n => count ≤ n

def SharedRule.holds (r : SharedRule) (views : List MatchView) : Bool :=
  !r.conditions.isEmpty && r.conditions.all fun c => c.holds views

/-- The filters of an exception, on a view. -/
def SharedException.covers (e : SharedException) (v : MatchView) : Bool :=
  (e.analyzer == "" || v.analyzer == str e.analyzer) &&
    ((componentFilter e.component).isEmpty || v.component == componentFilter e.component)

/-- The exception has a condition, and it holds. -/
def SharedException.conditionHolds (e : SharedException) (views : List MatchView) : Bool :=
  match e.condition with
  | some f => f views
  | none => false

namespace SharedPolicy

/-- Some rule holds. -/
def fires (p : SharedPolicy) (views : List MatchView) : Bool :=
  p.rules.any fun r => r.holds views

/-- A whole-message exception has a condition, and it holds. -/
def excused (p : SharedPolicy) (views : List MatchView) : Bool :=
  p.exceptions.any fun e => e.scope == .entireMessage && e.conditionHolds views

/-- A whole-message exception has no condition. -/
def blanket (p : SharedPolicy) : Bool :=
  p.exceptions.any fun e => e.scope == .entireMessage && e.condition.isNone

/-- A matched-component exception covers the match, has a condition, and it
holds. -/
def removed (p : SharedPolicy) (views : List MatchView) (v : MatchView) : Bool :=
  p.exceptions.any fun e =>
    e.scope == .matchedComponent && e.conditionHolds views && e.covers v

/-- A matched-component exception covers the match and has no condition. -/
def struck (p : SharedPolicy) (v : MatchView) : Bool :=
  p.exceptions.any fun e => e.scope == .matchedComponent && e.condition.isNone && e.covers v

/-- The match passes the filters of some condition of the policy. -/
def admits (p : SharedPolicy) (v : MatchView) : Bool :=
  p.rules.any fun r => r.conditions.any fun c => c.admits v

/-- The analyzer of the match is named by a rule that holds. -/
def contributes (p : SharedPolicy) (views : List MatchView) (v : MatchView) : Bool :=
  p.rules.any fun r => r.holds views && r.conditions.any fun c => v.analyzer == str c.analyzer

/-- When the engines agree: no rule holds, or a conditional whole-message
exception does, or for every match that no conditional exception removes, its
analyzer is named by a rule that holds exactly when it passes the filters of
some condition and no exception without a condition is in its way. -/
def AgreementCondition (p : SharedPolicy) (views : List MatchView) : Prop :=
  p.fires views = false ∨ p.excused views = true ∨
    ∀ v ∈ views, p.removed views v = false →
      (p.contributes views v = true ↔
        p.admits v = true ∧ p.struck v = false ∧ p.blanket = false)

end SharedPolicy

/-! ## Filters, conditions and rules agree -/

theorem isEmpty_str_analyzer (c : SharedCondition) : (str c.analyzer).isEmpty = false := by
  rw [List.isEmpty_eq_false_iff]
  intro h
  exact c.analyzer_ne (str_injective h)

theorem isEmpty_componentFilter (t : ComponentType) :
    (componentFilter (some t)).isEmpty = false := by
  cases t <;> decide

theorem str_beq (a b : String) : (str a == str b) = (a == b) := by
  rw [Bool.eq_iff_iff, beq_iff_eq, beq_iff_eq]
  exact str_injective.eq_iff

theorem componentType_beq (a b : ComponentType) :
    (str a.value == componentFilter (some b)) = (a == b) := by
  rw [componentFilter, str_beq, Bool.eq_iff_iff, beq_iff_eq, beq_iff_eq]
  exact ComponentType.value_injective.eq_iff

/-- The server's component test of a shared filter, on the view. -/
theorem inComponentTypes_toServer (component : Option ComponentType) (m : Server.Match) :
    Server.inComponentTypes (component.map fun t => [t]) m =
      ((componentFilter component).isEmpty ||
        (viewServer m).component == componentFilter component) := by
  cases component with
  | none => rfl
  | some t =>
      rw [isEmpty_componentFilter, Bool.false_or]
      show [t].contains m.component.componentType =
        (str m.component.componentType.value == componentFilter (some t))
      rw [componentType_beq, List.contains_cons, List.contains_nil, Bool.or_false]

@[simp] theorem toAgent_analyzerName (c : SharedCondition) :
    c.toAgent.analyzerName = str c.analyzer := by
  unfold SharedCondition.toAgent
  cases c.op <;> rfl

@[simp] theorem toAgent_component (c : SharedCondition) :
    c.toAgent.component = componentFilter c.component := by
  unfold SharedCondition.toAgent
  cases c.op <;> rfl

@[simp] theorem toAgent_patternLabel (c : SharedCondition) : c.toAgent.patternLabel = [] := by
  unfold SharedCondition.toAgent
  cases c.op <;> rfl

@[simp] theorem toServer_analyzerName (c : SharedCondition) :
    c.toServer.analyzerName = c.analyzer := by
  unfold SharedCondition.toServer
  cases c.op <;> rfl

@[simp] theorem toServer_componentTypes (c : SharedCondition) :
    c.toServer.componentTypes = c.component.map fun t => [t] := by
  unfold SharedCondition.toServer
  cases c.op <;> rfl

theorem accepts_toAgent (c : SharedCondition) (m : Agent.DetectionMatch) :
    c.toAgent.accepts m = c.admits (viewAgent m) := by
  simp [Agent.RuleCondition.accepts, SharedCondition.admits, viewAgent, isEmpty_str_analyzer]

theorem evaluateCondition_toAgent (c : SharedCondition) (detection : Agent.DetectionResult) :
    Agent.evaluateCondition c.toAgent detection =
      c.holds (detection.matches.map viewAgent) := by
  have hcount : Agent.countMatches c.toAgent detection =
      ((detection.matches.map viewAgent).countP c.admits : Nat) := by
    simp [Agent.countMatches, accepts_toAgent, List.countP_map, Function.comp_def]
  unfold Agent.evaluateCondition SharedCondition.holds
  rw [hcount]
  unfold SharedCondition.toAgent
  cases c.op <;> rfl

theorem accepts_toServer (c : SharedCondition) (m : Server.Match) :
    c.toServer.accepts m = c.admits (viewServer m) := by
  unfold Server.RuleCondition.accepts SharedCondition.admits
  rw [toServer_analyzerName, toServer_componentTypes, inComponentTypes_toServer]
  simp only [viewServer, str_beq]

theorem evaluate_toServer (c : SharedCondition) (detection : Server.DetectionResult) :
    c.toServer.evaluate detection = c.holds (detection.matches.map viewServer) := by
  have hcount : detection.matches.countP c.toServer.accepts =
      (detection.matches.map viewServer).countP c.admits := by
    rw [List.countP_map, Function.comp_def]
    simp only [← accepts_toServer]
  rw [Server.RuleCondition.evaluate_eq]
  simp only [hcount]
  unfold SharedCondition.holds SharedCondition.toServer
  cases c.op <;> rfl

theorem evaluateRule_toAgent (r : SharedRule) (detection : Agent.DetectionResult) :
    Agent.evaluateRule r.toAgent detection = r.holds (detection.matches.map viewAgent) := by
  simp [Agent.evaluateRule, SharedRule.toAgent, SharedRule.holds, Function.comp_def,
    evaluateCondition_toAgent]

theorem evaluateRule_toServer (r : SharedRule) (detection : Server.DetectionResult) :
    r.toServer.evaluate detection = r.holds (detection.matches.map viewServer) := by
  cases hr : r.conditions with
  | nil => simp [Server.DetectionRule.evaluate, SharedRule.toServer, SharedRule.holds, hr]
  | cons c rest =>
      simp [Server.DetectionRule.evaluate, SharedRule.toServer, SharedRule.holds, hr,
        Function.comp_def, evaluate_toServer]

/-! ## Exceptions -/

theorem covers_toAgent (e : SharedException) (m : Agent.DetectionMatch) :
    e.toAgent.covers m = e.covers (viewAgent m) := by
  have hname : (str e.analyzer).isEmpty = (e.analyzer == "") := by
    rw [Bool.eq_iff_iff, List.isEmpty_iff, beq_iff_eq]
    exact str_injective.eq_iff' rfl
  simp [Agent.PolicyException.covers, SharedException.covers, SharedException.toAgent, hname,
    viewAgent]

theorem excludes_toServer (e : SharedException) (m : Server.Match) :
    e.toServer.excludes m = e.covers (viewServer m) := by
  unfold Server.PolicyException.excludes SharedException.covers
  have hcomponent : e.toServer.componentTypes = e.component.map fun t => [t] := rfl
  rw [hcomponent, inComponentTypes_toServer]
  by_cases hname : e.analyzer = ""
  · simp [SharedException.toServer, hname, viewServer]
  · have hne : (e.analyzer == "") = false := beq_eq_false_iff_ne.mpr hname
    simp [SharedException.toServer, hname, hne, viewServer, str_beq]
    rfl

theorem appliesToMatches_toAgent (e : SharedException) (detection : Agent.DetectionResult) :
    e.toAgent.appliesToMatches detection =
      (e.condition.isNone || e.conditionHolds (detection.matches.map viewAgent)) := by
  unfold Agent.PolicyException.appliesToMatches SharedException.conditionHolds
    SharedException.toAgent
  cases e.condition <;> rfl

theorem appliesToMessage_toAgent (e : SharedException) (detection : Agent.DetectionResult) :
    e.toAgent.appliesToMessage detection =
      (e.condition.isNone || e.conditionHolds (detection.matches.map viewAgent)) := by
  unfold Agent.PolicyException.appliesToMessage SharedException.conditionHolds
    SharedException.toAgent
  cases e.condition <;> rfl

theorem applies_toServer (e : SharedException) (message : Server.ParsedMessage)
    (detection : Server.DetectionResult) :
    e.toServer.applies message detection =
      e.conditionHolds (detection.matches.map viewServer) := by
  unfold Server.PolicyException.applies SharedException.conditionHolds SharedException.toServer
  cases e.condition <;> rfl

/-! ## The evidence of both engines -/

theorem beq_toServer_scope (e : SharedException) :
    (e.toServer.scope == .entireMessage) = (e.scope == .entireMessage) ∧
    (e.toServer.scope == .component) = (e.scope == .matchedComponent) := by
  unfold SharedException.toServer
  cases e.scope <;> exact ⟨rfl, rfl⟩

/-- What the agent reports: the admitted matches that no exception is in the
way of. -/
def SharedPolicy.agentEvidence (p : SharedPolicy) (views : List MatchView) : List MatchView :=
  if p.fires views && !(p.excused views || p.blanket) then
    views.filter fun v => p.admits v && !(p.removed views v || p.struck v)
  else []

/-- What the server reports: the contributing matches that no conditional
exception removes. -/
def SharedPolicy.serverEvidence (p : SharedPolicy) (views : List MatchView) : List MatchView :=
  if p.fires views && !p.excused views then
    views.filter fun v => p.contributes views v && !p.removed views v
  else []

variable (p : SharedPolicy) (message : Server.ParsedMessage) (D : SharedDetection)

theorem relevantMatches_toAgent :
    Agent.relevantMatches p.toAgent D.agent =
      D.agent.matches.filter fun m => p.admits (viewAgent m) := by
  simp [Agent.relevantMatches, SharedPolicy.toAgent, SharedPolicy.admits, SharedRule.toAgent,
    Function.comp_def, accepts_toAgent]

/-- Without label filters, file type and unnamed analyzers neither fallback of
the collection is of use. -/
theorem collectRelevantMatches_toAgent (names : List StdString) :
    Agent.collectRelevantMatches p.toAgent D.agent names =
      D.agent.matches.filter fun m => p.admits (viewAgent m) := by
  have hunfiltered : Agent.hasUnfiltered p.toAgent = false := by
    simp only [Agent.hasUnfiltered, SharedPolicy.toAgent, SharedRule.toAgent, List.any_map,
      Function.comp_def, List.any_eq_false, Bool.not_eq_true]
    intro r _ c _
    rw [toAgent_analyzerName, isEmpty_str_analyzer, Bool.false_and]
  have hsynthesized : Agent.synthesizedMatches p.toAgent D.agent = [] := by
    simp [Agent.synthesizedMatches, Agent.RuleCondition.synthesizes, D.noFileType]
  rw [← relevantMatches_toAgent]
  unfold Agent.collectRelevantMatches
  rw [hunfiltered, hsynthesized]
  cases hrel : Agent.relevantMatches p.toAgent D.agent with
  | nil => simp
  | cons m ms => simp

theorem map_evidence_toAgent :
    (Agent.evidence p.toAgent D.agent).map viewAgent = p.agentEvidence D.views := by
  have hfires : p.toAgent.ruleMatches D.agent = p.fires D.views := by
    simp [Agent.Policy.ruleMatches, SharedPolicy.toAgent, SharedPolicy.fires, Function.comp_def,
      evaluateRule_toAgent, SharedDetection.views]
  have hexcepted : p.toAgent.messageExcepted D.agent = (p.blanket || p.excused D.views) := by
    simp only [Agent.Policy.messageExcepted, SharedPolicy.toAgent, List.any_map,
      Function.comp_def, appliesToMessage_toAgent, Bool.and_or_distrib_left, Lib.any_or]
    rfl
  -- an exception without a condition applies to the agent only
  have hstruck (m : Agent.DetectionMatch) : p.toAgent.matchExcepted D.agent m =
      (p.struck (viewAgent m) || p.removed D.views (viewAgent m)) := by
    simp only [Agent.Policy.matchExcepted, SharedPolicy.toAgent, List.any_map,
      Function.comp_def, appliesToMatches_toAgent, covers_toAgent, Bool.and_or_distrib_left,
      Bool.and_or_distrib_right, Lib.any_or]
    rfl
  have hactive : p.toAgent.active = true := rfl
  unfold Agent.evidence SharedPolicy.agentEvidence
  rw [hactive, hfires, hexcepted, collectRelevantMatches_toAgent, Bool.true_and,
    Bool.or_comm p.blanket]
  split
  · simp only [hstruck, List.filter_filter, SharedDetection.views, List.filter_map,
      Function.comp_def, Bool.and_comm, Bool.or_comm]
  · rfl

/-- A condition of a rule that holds, holds: the server's contributing analyzers
are those that the rules that hold name. -/
theorem contributes_toServer {views : List MatchView} (detection : Server.DetectionResult)
    (hviews : views = detection.matches.map viewServer) (m : Server.Match) :
    p.toServer.contributes detection m = p.contributes views (viewServer m) := by
  have hconditions (r : SharedRule) : r.toServer.conditions = r.conditions.map (·.toServer) := rfl
  rw [Bool.eq_iff_iff]
  simp only [Server.Policy.contributes, SharedPolicy.contributes, SharedPolicy.toServer,
    hconditions, List.any_map, Function.comp_def, evaluateRule_toServer, evaluate_toServer,
    ← hviews, List.any_eq_true, Bool.and_eq_true]
  constructor
  · rintro ⟨r, hr, hholds, c, hc, -, hname⟩
    refine ⟨r, hr, hholds, c, hc, ?_⟩
    rw [toServer_analyzerName] at hname
    rwa [viewServer, str_beq]
  · rintro ⟨r, hr, hholds, c, hc, hname⟩
    refine ⟨r, hr, hholds, c, hc, ?_, ?_⟩
    · exact List.all_eq_true.mp (Bool.and_eq_true_iff.mp hholds).2 c hc
    · rw [toServer_analyzerName]
      rwa [viewServer, str_beq] at hname

theorem map_evidence_toServer :
    (Server.evidence p.toServer message D.server).map viewServer = p.serverEvidence D.views := by
  have hviews : D.views = D.server.matches.map viewServer := D.same
  have hfires : p.toServer.ruleMatches D.server = p.fires D.views := by
    simp [Server.Policy.ruleMatches, SharedPolicy.toServer, SharedPolicy.fires,
      Function.comp_def, evaluateRule_toServer, hviews]
  have hscope : p.toServer.inScope message = true := rfl
  have hexcepted : p.toServer.messageExcepted message D.server = p.excused D.views := by
    simp only [Server.Policy.messageExcepted, SharedPolicy.toServer, List.any_map,
      Function.comp_def, applies_toServer, beq_toServer_scope, ← hviews]
    rfl
  have hremoved (m : Server.Match) : p.toServer.matchExcepted message D.server m =
      p.removed D.views (viewServer m) := by
    simp only [Server.Policy.matchExcepted, SharedPolicy.toServer, List.any_map,
      Function.comp_def, applies_toServer, excludes_toServer, beq_toServer_scope, ← hviews]
    rfl
  have hcontributes (m : Server.Match) : p.toServer.contributes D.server m =
      p.contributes D.views (viewServer m) :=
    contributes_toServer p D.server hviews m
  unfold Server.evidence SharedPolicy.serverEvidence
  rw [hfires, hscope, hexcepted, Bool.and_true]
  split
  · simp only [hremoved, hcontributes, hviews, List.filter_map, Function.comp_def]
  · rfl

/-! ## Severity -/

def tierOfAgent (t : Agent.SeverityThreshold) : SharedTier := ⟨t.severity, t.minMatches⟩

def tierOfServer (t : Server.SeverityLevel) : SharedTier := ⟨t.severity, t.minMatches⟩

/-- Distinct tiers have one order by `min_matches`, whichever sort is used. -/
theorem sorted_tiers (ev : Agent.PolicyEvaluator) :
    (ev.sort p.toAgent.severityThresholds).map tierOfAgent =
      (Server.sortedLevels p.toServer.severityLevels).map tierOfServer := by
  have hagent : ((ev.sort p.toAgent.severityThresholds).map tierOfAgent).Perm p.tiers := by
    have h := (ev.sort_perm p.toAgent.severityThresholds).map tierOfAgent
    rwa [SharedPolicy.toAgent, List.map_map, List.map_id''] at h
    exact fun _ => rfl
  have hserver : ((Server.sortedLevels p.toServer.severityLevels).map tierOfServer).Perm
      p.tiers := by
    have h := (Server.sortedLevels_perm p.toServer.severityLevels).map tierOfServer
    rwa [SharedPolicy.toServer, List.map_map, List.map_id''] at h
    exact fun _ => rfl
  have hagentSorted : ((ev.sort p.toAgent.severityThresholds).map tierOfAgent).Pairwise
      fun a b => b.minMatches ≤ a.minMatches :=
    List.pairwise_map.mpr (ev.sort_sorted _)
  have hserverSorted : ((Server.sortedLevels p.toServer.severityLevels).map tierOfServer).Pairwise
      fun a b => b.minMatches ≤ a.minMatches :=
    List.pairwise_map.mpr (Server.sortedLevels_sorted _)
  -- both are the tiers in descending order, and no two tiers tie
  refine List.Perm.eq_of_pairwise ?_ hagentSorted hserverSorted (hagent.trans hserver.symm)
  intro a b ha hb hab hba
  exact List.inj_on_of_nodup_map p.tiers_distinct (hagent.mem_iff.mp ha) (hserver.mem_iff.mp hb)
    (Int.le_antisymm hba hab)

theorem calculateSeverity_eq (ev : Agent.PolicyEvaluator) (count : Nat) :
    ev.calculateSeverity p.toAgent count = Server.calculateSeverity p.toServer count := by
  have hfind : ((ev.sort p.toAgent.severityThresholds).find? fun t =>
        decide (t.minMatches ≤ (count : Int))).map tierOfAgent =
      ((Server.sortedLevels p.toServer.severityLevels).find? fun t =>
        decide ((count : Int) ≥ t.minMatches)).map tierOfServer := by
    have h := congrArg (List.find? fun t => decide (t.minMatches ≤ (count : Int)))
      (sorted_tiers p ev)
    rwa [List.find?_map, List.find?_map] at h
  have hempty : p.toAgent.severityThresholds.isEmpty = p.toServer.severityLevels.isEmpty := by
    simp [SharedPolicy.toAgent, SharedPolicy.toServer]
  unfold Agent.PolicyEvaluator.calculateSeverity Server.calculateSeverity
  rw [hempty]
  -- without tiers both engines take the default
  split
  · rfl
  · cases ha : (ev.sort p.toAgent.severityThresholds).find? fun t =>
        decide (t.minMatches ≤ (count : Int)) with
    | none =>
        rw [ha, Option.map_none, eq_comm, Option.map_eq_none_iff] at hfind
        rw [hfind]
        rfl
    | some t =>
        rw [ha, Option.map_some, eq_comm, Option.map_eq_some_iff] at hfind
        obtain ⟨level, hlevel, htier⟩ := hfind
        rw [hlevel]
        exact congrArg SharedTier.severity htier.symm

/-! ## When the engines agree -/

theorem agentEvidence_perm_iff (views : List MatchView) :
    (p.agentEvidence views).Perm (p.serverEvidence views) ↔ p.AgreementCondition views := by
  unfold SharedPolicy.agentEvidence SharedPolicy.serverEvidence SharedPolicy.AgreementCondition
  cases hfires : p.fires views with
  | false => simp
  | true =>
      cases hexcused : p.excused views with
      | true => simp
      | false =>
          have hblanket : (if (true && !(false || p.blanket)) = true then
              views.filter fun v => p.admits v && !(p.removed views v || p.struck v) else []) =
              views.filter fun v =>
                p.admits v && !(p.removed views v || p.struck v) && !p.blanket := by
            cases p.blanket <;> simp
          -- two filters of one list are permutations when they keep the same elements
          rw [hblanket, Bool.true_and, Bool.not_false, if_pos rfl, Lib.filter_perm_filter_iff]
          simp only [Bool.true_eq_false, Bool.false_eq_true, false_or]
          apply forall₂_congr
          intro v _
          cases p.removed views v <;> cases p.contributes views v <;> cases p.admits v <;>
            cases p.struck v <;> cases p.blanket <;> simp

/-- The engines agree on a policy and a detection exactly under the
condition. -/
theorem agrees_iff (ev : Agent.PolicyEvaluator) :
    Agrees ev p message D ↔ p.AgreementCondition D.views := by
  rw [← agentEvidence_perm_iff, ← map_evidence_toAgent, ← map_evidence_toServer p message]
  obtain ⟨hmatches, htriggered, hcount, hseverity⟩ :=
    Server.evaluatePolicy_eq p.toServer message D.server
  unfold Agrees
  simp only [Agent.evaluate_matches, Agent.evaluate_matchCount, hmatches, hcount]
  constructor
  · rintro ⟨-, hperm, -⟩
    exact hperm
  · intro hperm
    -- the flag, the count and the severity follow from the matches
    have hlength : (Agent.evidence p.toAgent D.agent).length =
        (Server.evidence p.toServer message D.server).length := by
      simpa using hperm.length_eq
    have htrig : (ev.evaluate p.toAgent D.agent).triggered =
        (Server.evaluatePolicy p.toServer message D.server).triggered := by
      rw [Agent.evaluate_triggered, htriggered, Bool.eq_iff_iff]
      simp only [Bool.not_eq_true', List.isEmpty_eq_false_iff, ← List.length_pos_iff, hlength]
    refine ⟨htrig, hperm, by rw [hlength], ?_⟩
    intro h
    rw [Agent.evaluate_severity ev h, hseverity (htrig ▸ h), hlength, calculateSeverity_eq]

/-! ## Two divergences

One keyword hit and one regex hit. With a whole-message exception that has no
condition only the server reports the policy. With a regex rule that does not
hold the agent counts the regex hit for it and picks the higher severity. -/

def condition (type : Agent.ConditionType) (op : SharedOperator) (analyzer : String)
    (h : analyzer ≠ "") : SharedCondition where
  type := type
  op := op
  analyzer := analyzer
  analyzer_ne := h

def exemptPolicy : SharedPolicy where
  id := 1
  name := "Secrets"
  defaultSeverity := .medium
  rules := [{ name := "hit", conditions := [condition .keyword .matches "keyword" (by decide)] }]
  exceptions := [{ name := "exempt", scope := .entireMessage }]
  tiers_distinct := by decide

def strayPolicy : SharedPolicy where
  id := 2
  name := "Secrets or many cards"
  defaultSeverity := .info
  rules :=
    [ { name := "hit", conditions := [condition .keyword .matches "keyword" (by decide)] },
      { name := "cards", conditions := [condition .regex (.countAtLeast 5) "regex" (by decide)] } ]
  tiers := [⟨.high, 2⟩, ⟨.low, 1⟩]
  tiers_distinct := by decide

def twoHits : SharedDetection where
  agent := { «matches» :=
    [ { patternId := 1, analyzerName := str "keyword", label := str "secret"
        matchedText := str "secret", component := str "body" },
      { patternId := 2, analyzerName := str "regex", label := str "card"
        matchedText := str "4111", offset := 7, component := str "body" } ] }
  server := { messageId := "m", «matches» :=
    [ { analyzerName := "keyword", ruleName := "secret"
        component := { componentType := .body, content := "secret 4111" }
        matchedText := "secret", startOffset := 0, endOffset := 6 },
      { analyzerName := "regex", ruleName := "card"
        component := { componentType := .body, content := "secret 4111" }
        matchedText := "4111", startOffset := 7, endOffset := 11 } ] }
  same := by decide
  noFileType := rfl

theorem not_agrees_twoHits :
    ¬ Agrees .insertion exemptPolicy { messageId := "m" } twoHits ∧
    ¬ Agrees .insertion strayPolicy { messageId := "m" } twoHits := by
  constructor
  · rintro ⟨htriggered, -⟩
    exact absurd htriggered (by decide)
  · rintro ⟨-, -, -, hseverity⟩
    exact absurd (hseverity (by decide)) (by decide)

end AkesoDlp.Parity
