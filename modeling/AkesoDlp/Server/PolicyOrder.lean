import AkesoDlp.Lib.Reordered
import AkesoDlp.Server.PolicyEvaluator

/-!
# The order of a policy's parts

Sender and recipient groups by their members, and evaluations of policies that differ in the
order of their parts only. Everything that `_evaluate_policy` asks of rules, conditions,
groups and exceptions is whether one of them, or all of them, do something; the matches are
filtered.
-/

namespace AkesoDlp.Server

open Lib

/-! ## Sender and recipient groups -/

inductive GroupMatchMode
  | exact
  | domain
  | regex
deriving DecidableEq, Repr

/-- `str.lower` and `re.compile` with `IGNORECASE`: `search` on a value, or `none` where it
raises `re.error`. -/
structure GroupLibrary where
  lower : String → String
  compile : String → Option (String → Bool)

/-- The fields of a `SenderRecipientGroup`. -/
structure GroupFields where
  name : String
  members : List String := []
  matchMode : GroupMatchMode := .exact
  field : String := "sender"
deriving DecidableEq, Repr

namespace GroupFields

variable (lib : GroupLibrary)

/-- The body of the loop of `_matches_value`. -/
def matchesMember (group : GroupFields) (value member : String) : Option Bool :=
  let valueLower := lib.lower value
  let memberLower := lib.lower member
  match group.matchMode with
  | .exact => some (valueLower == memberLower)
  | .domain =>
      if valueLower.toList.contains '@' then
        let domain := (valueLower.toList.dropWhile (· != '@')).tail
        some (domain == memberLower.toList || ('.' :: memberLower.toList).isSuffixOf domain)
      else some (valueLower == memberLower)
  | .regex => (lib.compile member).map fun search => search value

/-- `_matches_value`; `none` where an expression raises. -/
def matchesValue (group : GroupFields) (value : String) : Option Bool :=
  group.members.anyM (group.matchesMember lib value)

/-- `matches_message`; a value that is no list is a list of one here. -/
def matchesMessage (group : GroupFields) (message : ParsedMessage) : Option Bool :=
  ((message.metadata.lookup group.field).getD [""]).anyM (group.matchesValue lib)

/-- The expressions of a REGEX group compile. -/
def Valid (group : GroupFields) : Prop :=
  group.matchMode = .regex → ∀ member ∈ group.members, (lib.compile member).isSome = true

end GroupFields

theorem anyM_eq_some {α : Type} {l : List α} {f : α → Option Bool} {p : α → Bool}
    (h : ∀ a ∈ l, f a = some (p a)) : l.anyM f = some (l.any p) := by
  induction l with
  | nil => rfl
  | cons a l ih =>
      rw [List.forall_mem_cons] at h
      rw [List.anyM, h.1, List.any_cons]
      cases p a with
      | true => rfl
      | false => exact ih h.2

/-- A group that never raises. -/
structure ValidGroup (lib : GroupLibrary) extends GroupFields where
  valid : toGroupFields.Valid lib

namespace ValidGroup

variable {lib : GroupLibrary}

/-- Does `member` match? -/
def accepts (group : ValidGroup lib) (value member : String) : Bool :=
  (group.matchesMember lib value member).getD false

theorem matchesMember_eq (group : ValidGroup lib) (value : String) {member : String}
    (hmember : member ∈ group.members) :
    group.matchesMember lib value member = some (group.accepts value member) := by
  have hsome : (group.matchesMember lib value member).isSome = true := by
    unfold GroupFields.matchesMember
    cases hmode : group.matchMode with
    | exact => rfl
    | domain =>
        dsimp only
        split <;> rfl
    | regex => simpa only [Option.isSome_map] using group.valid hmode member hmember
  obtain ⟨verdict, hverdict⟩ := Option.isSome_iff_exists.mp hsome
  rw [accepts, hverdict, Option.getD_some]

theorem matchesMessage_eq (group : ValidGroup lib) (message : ParsedMessage) :
    group.toGroupFields.matchesMessage lib message =
      some (((message.metadata.lookup group.field).getD [""]).any fun value =>
        group.members.any (group.accepts value)) :=
  anyM_eq_some fun value _ => anyM_eq_some fun _ hmember => group.matchesMember_eq value hmember

/-- The group as the evaluation sees it. -/
def toGroup (group : ValidGroup lib) : SenderRecipientGroup where
  name := group.name
  matchesMessage message :=
    (group.toGroupFields.matchesMessage lib message).get
      (by rw [group.matchesMessage_eq message, Option.isSome_some])

theorem toGroup_matchesMessage (group : ValidGroup lib) (message : ParsedMessage) :
    group.toGroup.matchesMessage message =
      ((message.metadata.lookup group.field).getD [""]).any fun value =>
        group.members.any (group.accepts value) :=
  Option.get_of_eq_some _ (group.matchesMessage_eq message)

end ValidGroup

/-! ## Policies and detections up to order -/

/-- The members of a group in another order. -/
def SameGroup (lib : GroupLibrary) (group group' : SenderRecipientGroup) : Prop :=
  ∃ g g' : ValidGroup lib, group = g.toGroup ∧ group' = g'.toGroup ∧
    g.name = g'.name ∧ g.members.Perm g'.members ∧ g.matchMode = g'.matchMode ∧
      g.field = g'.field

/-- The conditions of a rule in another order. -/
def SameRule (rule rule' : DetectionRule) : Prop :=
  rule.name = rule'.name ∧ rule.conditions.Perm rule'.conditions

/-- The matches of a detection in another order. -/
def SameMatches (detection detection' : DetectionResult) : Prop :=
  detection.messageId = detection'.messageId ∧ detection.errors = detection'.errors ∧
    detection.matches.Perm detection'.matches

/-- Custom conditions that do not look at the order of the matches. -/
def OrderFree (condition : ParsedMessage → DetectionResult → Bool) : Prop :=
  ∀ message detection detection', SameMatches detection detection' →
    condition message detection = condition message detection'

structure SameException (lib : GroupLibrary) (exc exc' : PolicyException) : Prop where
  name : exc.name = exc'.name
  scope : exc.scope = exc'.scope
  groups : Reordered (SameGroup lib) exc.groups exc'.groups
  analyzerNames : exc.analyzerNames = exc'.analyzerNames
  componentTypes : exc.componentTypes = exc'.componentTypes
  condition : exc.condition = exc'.condition
  orderFree : ∀ condition, exc.condition = some condition → OrderFree condition

/-- The parts of a policy in another order, at every depth. -/
structure SamePolicy (lib : GroupLibrary) (policy policy' : Policy) : Prop where
  detectionRules : Reordered SameRule policy.detectionRules policy'.detectionRules
  groups : Reordered (SameGroup lib) policy.groups policy'.groups
  exceptions : Reordered (SameException lib) policy.exceptions policy'.exceptions
  severityLevels : policy.severityLevels = policy'.severityLevels
  defaultSeverity : policy.defaultSeverity = policy'.defaultSeverity

section Order

variable {lib : GroupLibrary} {policy policy' : Policy} {message : ParsedMessage}
  {detection detection' : DetectionResult}

theorem SameGroup.matchesMessage_eq {group group' : SenderRecipientGroup}
    (h : SameGroup lib group group') (message : ParsedMessage) :
    group.matchesMessage message = group'.matchesMessage message := by
  obtain ⟨g, g', rfl, rfl, -, hperm, hmode, hfield⟩ := h
  have haccepts : g.accepts = g'.accepts := by
    funext value member
    simp only [ValidGroup.accepts, GroupFields.matchesMember, hmode]
  simp only [ValidGroup.toGroup_matchesMessage, hfield, haccepts, hperm.any_eq]

theorem SameMatches.evaluate_eq (h : SameMatches detection detection') (cond : RuleCondition) :
    cond.evaluate detection = cond.evaluate detection' := by
  rw [RuleCondition.evaluate_eq, RuleCondition.evaluate_eq, h.2.2.countP_eq]

theorem SameRule.evaluate_eq {rule rule' : DetectionRule} (hrule : SameRule rule rule')
    (h : SameMatches detection detection') :
    rule.evaluate detection = rule'.evaluate detection' := by
  have hempty : rule.conditions.isEmpty = rule'.conditions.isEmpty := by
    rw [Bool.eq_iff_iff, List.isEmpty_iff_length_eq_zero, List.isEmpty_iff_length_eq_zero,
      hrule.2.length_eq]
  simp only [DetectionRule.evaluate, hempty, hrule.2.all_eq, h.evaluate_eq]

theorem SameException.applies_eq {exc exc' : PolicyException} (hexc : SameException lib exc exc')
    (h : SameMatches detection detection') :
    exc.applies message detection = exc'.applies message detection' := by
  unfold PolicyException.applies
  rw [← hexc.condition]
  cases hcondition : exc.condition with
  | some condition => exact hexc.orderFree condition hcondition message _ _ h
  | none =>
      simp only [hexc.groups.isEmpty_eq,
        hexc.groups.any_eq fun _ _ hgroup => hgroup.matchesMessage_eq message]

theorem SameException.excludes_eq {exc exc' : PolicyException} (hexc : SameException lib exc exc')
    (m : Match) : exc.excludes m = exc'.excludes m := by
  simp only [PolicyException.excludes, hexc.analyzerNames, hexc.componentTypes]

namespace SamePolicy

theorem ruleMatches_eq (hpolicy : SamePolicy lib policy policy')
    (h : SameMatches detection detection') :
    policy.ruleMatches detection = policy'.ruleMatches detection' :=
  hpolicy.detectionRules.any_eq fun _ _ hrule => hrule.evaluate_eq h

theorem inScope_eq (hpolicy : SamePolicy lib policy policy') (message : ParsedMessage) :
    policy.inScope message = policy'.inScope message := by
  simp only [Policy.inScope, hpolicy.groups.isEmpty_eq,
    hpolicy.groups.any_eq fun _ _ hgroup => hgroup.matchesMessage_eq message]

theorem messageExcepted_eq (hpolicy : SamePolicy lib policy policy')
    (h : SameMatches detection detection') :
    policy.messageExcepted message detection = policy'.messageExcepted message detection' :=
  hpolicy.exceptions.any_eq fun _ _ hexc => by rw [hexc.scope, hexc.applies_eq h]

theorem matchExcepted_eq (hpolicy : SamePolicy lib policy policy')
    (h : SameMatches detection detection') (m : Match) :
    policy.matchExcepted message detection m = policy'.matchExcepted message detection' m :=
  hpolicy.exceptions.any_eq fun _ _ hexc => by
    rw [hexc.scope, hexc.applies_eq h, hexc.excludes_eq]

theorem contributes_eq (hpolicy : SamePolicy lib policy policy')
    (h : SameMatches detection detection') (m : Match) :
    policy.contributes detection m = policy'.contributes detection' m :=
  hpolicy.detectionRules.any_eq fun _ _ hrule => by
    simp only [hrule.evaluate_eq h, hrule.2.any_eq, h.evaluate_eq]

theorem evidence_perm (hpolicy : SamePolicy lib policy policy')
    (h : SameMatches detection detection') :
    (evidence policy message detection).Perm (evidence policy' message detection') := by
  unfold evidence
  rw [hpolicy.ruleMatches_eq h, hpolicy.inScope_eq message, hpolicy.messageExcepted_eq h]
  simp only [hpolicy.contributes_eq h, hpolicy.matchExcepted_eq h]
  split
  · exact h.2.2.filter _
  · exact .nil

theorem calculateSeverity_eq (hpolicy : SamePolicy lib policy policy') (count : Nat) :
    calculateSeverity policy count = calculateSeverity policy' count := by
  simp only [calculateSeverity, hpolicy.severityLevels, hpolicy.defaultSeverity]

end SamePolicy

/-- Without a trigger the severity is that of a fresh violation. -/
theorem triggered_or_low (policy : Policy) (message : ParsedMessage)
    (detection : DetectionResult) :
    (evaluatePolicy policy message detection).triggered = true ∨
      (evaluatePolicy policy message detection).severity = .low := by
  unfold evaluatePolicy
  dsimp only
  split
  · exact .inr rfl
  · split
    · exact .inr rfl
    · split
      · exact .inr rfl
      · split
        · exact .inr rfl
        · exact .inl rfl

/-- The order of the parts of a policy and of the matches is immaterial. -/
theorem evaluatePolicy_order_free (hpolicy : SamePolicy lib policy policy')
    (h : SameMatches detection detection') :
    (evaluatePolicy policy message detection).triggered =
        (evaluatePolicy policy' message detection').triggered ∧
      (evaluatePolicy policy message detection).matches.Perm
        (evaluatePolicy policy' message detection').matches ∧
      (evaluatePolicy policy message detection).matchCount =
        (evaluatePolicy policy' message detection').matchCount ∧
      (evaluatePolicy policy message detection).severity =
        (evaluatePolicy policy' message detection').severity := by
  obtain ⟨hmatches, htriggered, hcount, hseverity⟩ := evaluatePolicy_eq policy message detection
  obtain ⟨hmatches', htriggered', hcount', hseverity'⟩ :=
    evaluatePolicy_eq policy' message detection'
  have hperm : (evidence policy message detection).Perm (evidence policy' message detection') :=
    hpolicy.evidence_perm h
  have hsame : (evaluatePolicy policy message detection).triggered =
      (evaluatePolicy policy' message detection').triggered := by
    rw [htriggered, htriggered', Bool.not_inj_iff, Bool.eq_iff_iff,
      List.isEmpty_iff_length_eq_zero, List.isEmpty_iff_length_eq_zero, hperm.length_eq]
  refine ⟨hsame, ?_, ?_, ?_⟩
  · rw [hmatches, hmatches']
    exact hperm
  · rw [hcount, hcount', hperm.length_eq]
  · rcases triggered_or_low policy message detection with hyes | hlow
    · rw [hseverity hyes, hseverity' (hsame ▸ hyes), hperm.length_eq,
        hpolicy.calculateSeverity_eq]
    · rcases triggered_or_low policy' message detection' with hyes' | hlow'
      · have hyes := hsame.trans hyes'
        rw [hseverity hyes, hseverity' hyes', hperm.length_eq, hpolicy.calculateSeverity_eq]
      · rw [hlow, hlow']

end Order

/-! A policy with two of everything, and its mirror image. -/

/-- Lower case on ASCII text, where no expression compiles. -/
def asciiLibrary : GroupLibrary where
  lower s := String.ofList (s.toList.map Char.toLower)
  compile _ := none

def partners (members : List String) : ValidGroup asciiLibrary where
  name := "partners"
  members := members
  matchMode := .domain
  field := "recipients"
  valid := nofun

def regexFound : RuleCondition := { analyzerName := "regex" }

def keywordFound : RuleCondition :=
  { analyzerName := "keyword", operator := .countGte, threshold := 1 }

def manyMatches : PolicyException where
  name := "many"
  condition := some fun _ detection => detection.matches.length > 5

def inSubject : PolicyException where
  name := "subject"
  scope := .component
  componentTypes := some [.subject]
  condition := some fun _ _ => true

def cardPolicy (rules : List DetectionRule) (members : List String)
    (exceptions : List PolicyException) : Policy where
  name := "cards"
  detectionRules := rules
  groups := [(partners members).toGroup]
  exceptions := exceptions
  severityLevels := [⟨.high, 1⟩]

def cardMatch : Match := ⟨"regex", "card", ⟨.body, "4111", []⟩, "4111", 0, 4, 1⟩

def wordMatch : Match := ⟨"keyword", "word", ⟨.subject, "visa", []⟩, "visa", 0, 4, 1⟩

theorem sameException_of_no_groups {exc : PolicyException} (hgroups : exc.groups = [])
    (hfree : ∀ condition, exc.condition = some condition → OrderFree condition) :
    SameException asciiLibrary exc exc :=
  ⟨rfl, rfl, hgroups ▸ ⟨[], .nil, .nil⟩, rfl, rfl, rfl, hfree⟩

theorem cardPolicy_mirror :
    SamePolicy asciiLibrary
      (cardPolicy [⟨"both", [regexFound, keywordFound]⟩, ⟨"word", [keywordFound]⟩]
        ["a.example", "b.example"] [manyMatches, inSubject])
      (cardPolicy [⟨"word", [keywordFound]⟩, ⟨"both", [keywordFound, regexFound]⟩]
        ["b.example", "a.example"] [inSubject, manyMatches]) where
  detectionRules :=
    ⟨[⟨"both", [keywordFound, regexFound]⟩, ⟨"word", [keywordFound]⟩],
      .cons ⟨rfl, .swap _ _ _⟩ (.cons ⟨rfl, .refl _⟩ .nil), .swap _ _ _⟩
  groups :=
    ⟨[(partners ["b.example", "a.example"]).toGroup],
      .cons ⟨partners ["a.example", "b.example"], partners ["b.example", "a.example"],
        rfl, rfl, rfl, .swap _ _ _, rfl, rfl⟩ .nil, .refl _⟩
  exceptions := by
    refine ⟨[manyMatches, inSubject], .cons (sameException_of_no_groups rfl ?_)
      (.cons (sameException_of_no_groups rfl ?_) .nil), .swap _ _ _⟩
    · rintro _ ⟨⟩ message detection detection' h
      dsimp only
      rw [h.2.2.length_eq]
    · rintro _ ⟨⟩ message detection detection' h
      rfl
  severityLevels := rfl
  defaultSeverity := rfl

theorem evaluatePolicy_order_free_mirror :
    let message : ParsedMessage := ⟨"m", [], [("recipients", ["x@b.example"])]⟩
    let before := evaluatePolicy
      (cardPolicy [⟨"both", [regexFound, keywordFound]⟩, ⟨"word", [keywordFound]⟩]
        ["a.example", "b.example"] [manyMatches, inSubject])
      message { messageId := "m", «matches» := [cardMatch, wordMatch] }
    let after := evaluatePolicy
      (cardPolicy [⟨"word", [keywordFound]⟩, ⟨"both", [keywordFound, regexFound]⟩]
        ["b.example", "a.example"] [inSubject, manyMatches])
      message { messageId := "m", «matches» := [wordMatch, cardMatch] }
    before.triggered = after.triggered ∧ before.matches.Perm after.matches ∧
      before.matchCount = after.matchCount ∧ before.severity = after.severity :=
  evaluatePolicy_order_free cardPolicy_mirror ⟨rfl, rfl, .swap _ _ _⟩

end AkesoDlp.Server
