import AkesoDlp.Lib.Runs
import AkesoDlp.Server.AsciiValidators
import AkesoDlp.Server.DetectionEngine

/-!
# The server's data identifier analyzer

`server/detection/analyzers/data_identifier_analyzer.py`. The validators are run on whatever
the patterns match, and an error of one of them ends `analyze`; the engine then has no match of
the analyzer.
-/

namespace AkesoDlp.Server

open Inspector (PyStr)
open Lib (Raises Yields gather)
open UnicodeValidators (BuiltinValidator CharTables)

structure DataIdentifierConfig where
  name : String
  patterns : List String
  validator : Option BuiltinValidator := none
  confidence : ℚ := 1
deriving DecidableEq

/-- A match with its metadata. -/
structure IdentifierMatch extends Match where
  identifier : String
  validator : Option BuiltinValidator
  validated : Bool
deriving DecidableEq

structure DataIdentifierAnalyzer where
  name : String
  /-- `repr(name)`. -/
  nameRepr : String
  identifiers : List DataIdentifierConfig
  targetComponents : Option (List ComponentType) := none

/-- `m.group(0)` of a match with this span. -/
def MessageComponent.group (component : MessageComponent) (span : Nat × Nat) : PyStr :=
  slice component.content.toList span.1 span.2

namespace DataIdentifierConfig

/-- The match that is appended. -/
def matchAt (config : DataIdentifierConfig) (analyzerName : String)
    (component : MessageComponent) (span : Nat × Nat) : IdentifierMatch where
  analyzerName := analyzerName
  ruleName := config.name
  component := component
  matchedText := String.ofList (component.group span)
  startOffset := span.1
  endOffset := span.2
  confidence := config.confidence
  identifier := config.name
  validator := config.validator
  validated := config.validator.isSome

section

variable (t : CharTables) (finditer : String → String → List (Nat × Nat))
  (config : DataIdentifierConfig)

/-- `validator_fn`, which all texts pass where there is none. -/
def validate (value : PyStr) : Except String Bool :=
  match config.validator with
  | none => .ok true
  | some validator => validator.run t value

/-- The body of the loops of `_match_identifier`. -/
def matchSpan (analyzerName : String) (component : MessageComponent) (span : Nat × Nat) :
    Except String (List IdentifierMatch) := do
  let passed ← config.validate t (component.group span)
  return if passed then [config.matchAt analyzerName component span] else []

/-- `_match_identifier`; `finditer` gives the spans that the compiled pattern matches. -/
def matchIdentifier (analyzerName : String) (component : MessageComponent) :
    Except String (List IdentifierMatch) :=
  gather (fun pattern =>
    gather (config.matchSpan t analyzerName component) (finditer pattern component.content))
    config.patterns

end

end DataIdentifierConfig

namespace DataIdentifierAnalyzer

section

variable (t : CharTables) (finditer : String → String → List (Nat × Nat))
  (analyzer : DataIdentifierAnalyzer)

def analyze (components : List MessageComponent) : Except String (List IdentifierMatch) :=
  gather (fun config => gather (config.matchIdentifier t finditer analyzer.name) components)
    analyzer.identifiers

def toAnalyzer : Analyzer where
  name := analyzer.name
  nameRepr := analyzer.nameRepr
  targetComponents := analyzer.targetComponents
  analyze components := do
    let found ← analyzer.analyze t finditer components
    return found.map (·.toMatch)

/-- A pattern of the identifier matches here in a component that the analyzer targets. -/
structure IsCandidate (message : ParsedMessage) (config : DataIdentifierConfig)
    (component : MessageComponent) (span : Nat × Nat) : Prop where
  configured : config ∈ analyzer.identifiers
  targeted : component ∈ (analyzer.toAnalyzer t finditer).getTargetComponents message
  matched : ∃ pattern ∈ config.patterns, span ∈ finditer pattern component.content

/-- Some candidate of the message is one that its validator stumbles over. -/
def StumblesOn (message : ParsedMessage) : Prop :=
  ∃ config component span validator, analyzer.IsCandidate t finditer message config component span ∧
    config.validator = some validator ∧ validator.Stumbles t (component.group span)

end

end DataIdentifierAnalyzer

variable {t : CharTables} {finditer : String → String → List (Nat × Nat)}

/-! ## When the analyzer raises -/

theorem DataIdentifierConfig.raises_validate {config : DataIdentifierConfig} {value : PyStr} :
    Raises (config.validate t value) ↔
      ∃ validator, config.validator = some validator ∧ validator.Stumbles t value := by
  unfold DataIdentifierConfig.validate
  cases config.validator with
  | none => simp
  | some validator => simp [UnicodeValidators.raises_run]

theorem DataIdentifierConfig.raises_matchIdentifier {config : DataIdentifierConfig}
    {analyzerName : String} {component : MessageComponent} :
    Raises (config.matchIdentifier t finditer analyzerName component) ↔
      ∃ pattern ∈ config.patterns, ∃ span ∈ finditer pattern component.content,
        Raises (config.validate t (component.group span)) := by
  simp only [DataIdentifierConfig.matchIdentifier, Lib.raises_gather,
    DataIdentifierConfig.matchSpan, Lib.raises_map]

theorem DataIdentifierConfig.yields_matchSpan {config : DataIdentifierConfig}
    {analyzerName : String} {component : MessageComponent} {span : Nat × Nat}
    {m : IdentifierMatch} :
    Yields (config.matchSpan t analyzerName component span) m ↔
      config.validate t (component.group span) = .ok true ∧
        m = config.matchAt analyzerName component span := by
  unfold DataIdentifierConfig.matchSpan
  cases config.validate t (component.group span) with
  | error e => exact iff_of_false Lib.not_yields_error fun h => by cases h.1
  | ok passed =>
      change Yields (.ok _) m ↔ _
      cases passed <;> simp

namespace DataIdentifierAnalyzer

variable {analyzer : DataIdentifierAnalyzer} {message : ParsedMessage}

theorem raises_analyze :
    Raises (analyzer.analyze t finditer
      ((analyzer.toAnalyzer t finditer).getTargetComponents message)) ↔
        analyzer.StumblesOn t finditer message := by
  simp only [analyze, Lib.raises_gather, DataIdentifierConfig.raises_matchIdentifier,
    DataIdentifierConfig.raises_validate]
  constructor
  · rintro ⟨config, hconfig, component, hcomponent, pattern, hpattern, span, hspan, validator,
      hvalidator, hstumbles⟩
    exact ⟨config, component, span, validator, ⟨hconfig, hcomponent, pattern, hpattern, hspan⟩,
      hvalidator, hstumbles⟩
  · rintro ⟨config, component, span, validator, ⟨hconfig, hcomponent, pattern, hpattern, hspan⟩,
      hvalidator, hstumbles⟩
    exact ⟨config, hconfig, component, hcomponent, pattern, hpattern, span, hspan, validator,
      hvalidator, hstumbles⟩

/-- No candidate of an ASCII message is stumbled over. -/
theorem not_stumblesOn_of_ascii
    (h : ∀ component ∈ message.components, ∀ c ∈ component.content.toList, c.toNat < 128) :
    ¬ analyzer.StumblesOn t finditer message := by
  rintro ⟨config, component, span, validator, hcandidate, -, hstumbles⟩
  have htargeted := hcandidate.targeted
  rw [Analyzer.getTargetComponents_eq] at htargeted
  refine UnicodeValidators.not_stumbles_of_ascii (fun c hc => ?_) hstumbles
  refine h component (List.mem_of_mem_filter htargeted) c ?_
  exact List.take_subset _ _ (List.drop_subset _ _ hc)

/-- If no candidate is stumbled over, the matches are those of the candidates that pass. -/
theorem yields_analyze {m : IdentifierMatch} :
    Yields (analyzer.analyze t finditer
      ((analyzer.toAnalyzer t finditer).getTargetComponents message)) m ↔
        ¬ analyzer.StumblesOn t finditer message ∧
          ∃ config component span, analyzer.IsCandidate t finditer message config component span ∧
            config.validate t (component.group span) = .ok true ∧
            m = config.matchAt analyzer.name component span := by
  constructor
  · intro h
    refine ⟨fun hstumbles => h.not_raises (raises_analyze.mpr hstumbles), ?_⟩
    obtain ⟨-, config, hconfig, h⟩ := Lib.yields_gather.mp h
    obtain ⟨-, component, hcomponent, h⟩ := Lib.yields_gather.mp h
    obtain ⟨-, pattern, hpattern, h⟩ := Lib.yields_gather.mp h
    obtain ⟨-, span, hspan, h⟩ := Lib.yields_gather.mp h
    obtain ⟨hpass, rfl⟩ := DataIdentifierConfig.yields_matchSpan.mp h
    exact ⟨config, component, span, ⟨hconfig, hcomponent, pattern, hpattern, hspan⟩, hpass, rfl⟩
  · rintro ⟨hnot, config, component, span, ⟨hconfig, hcomponent, pattern, hpattern, hspan⟩, hpass,
      hm⟩
    have hanalyze := fun hraise => hnot (raises_analyze.mp hraise)
    have hidentifier := Lib.not_raises_of_gather hanalyze hconfig
    have hcomponents := Lib.not_raises_of_gather hidentifier hcomponent
    have hpatterns := Lib.not_raises_of_gather hcomponents hpattern
    have hspans := DataIdentifierConfig.yields_matchSpan.mpr ⟨hpass, hm⟩
    exact Lib.yields_gather_of_mem hanalyze hconfig (Lib.yields_gather_of_mem hidentifier hcomponent
      (Lib.yields_gather_of_mem hcomponents hpattern
        (Lib.yields_gather_of_mem hpatterns hspan hspans)))

/-! ## What the engine reports -/

/-- If a candidate is stumbled over, the message is searched as if the analyzer were not
registered. -/
theorem matches_detect_of_stumblesOn (h : analyzer.StumblesOn t finditer message)
    (before after : List Analyzer) :
    (DetectionEngine.detect ⟨before ++ analyzer.toAnalyzer t finditer :: after⟩ message).matches =
      (DetectionEngine.detect ⟨before ++ after⟩ message).matches := by
  obtain ⟨e, he⟩ := raises_analyze.mpr h
  have hraise : (analyzer.toAnalyzer t finditer).analyze
      ((analyzer.toAnalyzer t finditer).getTargetComponents message) = .error e := by
    change (analyzer.analyze t finditer _ >>= fun found => _) = _
    rw [he]
    rfl
  rw [DetectionEngine.matches_detect, DetectionEngine.matches_detect, List.flatMap_append,
    List.flatMap_append, List.flatMap_cons, hraise, List.nil_append]

/-- No validator raises, and every validated match is reported, unless a candidate of the message
is one that its validator stumbles over. -/
theorem validated_matches_reported_iff (analyzer : DataIdentifierAnalyzer)
    (before after : List Analyzer) (message : ParsedMessage) :
    ((∀ config component span, analyzer.IsCandidate t finditer message config component span →
        ¬ Raises (config.validate t (component.group span))) ∧
      ∀ config component span, analyzer.IsCandidate t finditer message config component span →
        config.validate t (component.group span) = .ok true →
        (config.matchAt analyzer.name component span).toMatch ∈ (DetectionEngine.detect
          ⟨before ++ analyzer.toAnalyzer t finditer :: after⟩ message).matches) ↔
      ¬ analyzer.StumblesOn t finditer message := by
  constructor
  · rintro ⟨hraise, -⟩ ⟨config, component, span, validator, hcandidate, hvalidator, hstumbles⟩
    exact hraise config component span hcandidate
      (DataIdentifierConfig.raises_validate.mpr ⟨validator, hvalidator, hstumbles⟩)
  · intro hnot
    constructor
    · intro config component span hcandidate hraise
      obtain ⟨validator, hvalidator, hstumbles⟩ := DataIdentifierConfig.raises_validate.mp hraise
      exact hnot ⟨config, component, span, validator, hcandidate, hvalidator, hstumbles⟩
    · intro config component span hcandidate hpass
      obtain ⟨found, hfound, hmem⟩ :=
        yields_analyze.mpr ⟨hnot, config, component, span, hcandidate, hpass, rfl⟩
      refine DetectionEngine.mem_matches_detect.mpr ⟨analyzer.toAnalyzer t finditer,
        List.mem_append_right _ List.mem_cons_self, found.map (·.toMatch), ?_,
        List.mem_map_of_mem hmem⟩
      change (analyzer.analyze t finditer _ >>= fun found => _) = _
      rw [hfound]
      rfl

end DataIdentifierAnalyzer

/-! ## A lost card number -/

/-- The tables of ASCII and of the superscript two, a digit that is not decimal. -/
def superscriptTables : UnicodeValidators.CharTables where
  isdigit c := c.isDigit || c == '²'
  decimal c := if c.isDigit then some (c.toNat - 48) else none
  isalpha := Char.isAlpha
  isspace c := decide (c.toNat < 128) && isPySpace (UInt8.ofNat c.toNat)
  upper c := [c.toUpper]
  isdigit_of_decimal c h := by
    by_cases hc : c.isDigit = true
    · simp [hc]
    · simp [hc] at h
  not_isspace_of_isdigit c h := by
    rcases Bool.or_eq_true_iff.mp h with hdigit | hsuper
    · have hdigits : ∀ n < 58, 48 ≤ n → isPySpace (UInt8.ofNat n) = false := by decide
      have hrange : 48 ≤ c.toNat ∧ c.toNat ≤ 57 := Char.isDigit_iff_toNat.mp hdigit
      rw [hdigits c.toNat (by omega) hrange.1, Bool.and_false]
    · rw [eq_of_beq hsuper]
      decide
  isdigit_ascii c h := by
    have hne : c ≠ '²' := by
      rintro rfl
      exact absurd h (by decide)
    simp [hne]
  decimal_ascii _ _ := rfl
  isalpha_ascii _ _ := rfl
  isspace_ascii c h := by simp [h]
  upper_ascii _ _ := rfl

/-- `finditer` of the pattern `[^ ]+`. -/
def wordSpans (_pattern text : String) : List (Nat × Nat) := Lib.runs (· != ' ') text.toList

def cardIdentifier : DataIdentifierConfig where
  name := "Credit Card"
  patterns := ["[^ ]+"]
  validator := some .luhn

def cardAnalyzer : DataIdentifierAnalyzer where
  name := "cards"
  nameRepr := "'cards'"
  identifiers := [cardIdentifier]

def cardBody : MessageComponent where
  componentType := .body
  content := "4111111111111111 411111111111111²"

def cardMessage : ParsedMessage where
  messageId := "m1"
  components := [cardBody]

/-- The card number is valid, and the word after it ends the search. -/
theorem not_validated_matches_reported_card :
    cardAnalyzer.IsCandidate superscriptTables wordSpans cardMessage cardIdentifier cardBody
        (0, 16) ∧
      cardIdentifier.validate superscriptTables (cardBody.group (0, 16)) = .ok true ∧
      (DetectionEngine.detect ⟨[cardAnalyzer.toAnalyzer superscriptTables wordSpans]⟩
        cardMessage) =
        { messageId := "m1"
          «matches» := []
          errors :=
            ["Analyzer 'cards' failed: invalid literal for int() with base 10: '²'"] } := by
  refine ⟨⟨List.mem_singleton_self _, List.mem_singleton_self _, "[^ ]+",
    List.mem_singleton_self _, by decide +kernel⟩, by decide +kernel, by decide +kernel⟩

end AkesoDlp.Server
