import AkesoDlp.Agent.Policy
import Mathlib.Data.List.Infix
import Mathlib.Data.Rat.Init

/-!
# Detection data models of the server

`server/detection/models.py`: messages, their components, and the matches that
the analyzers report. The five severities are those of the agent.
-/

namespace AkesoDlp.Server

export Agent (Severity)

inductive ComponentType
  | envelope
  | subject
  | body
  | attachment
  | generic
deriving DecidableEq, Repr

/-- The string value of the enum member. -/
def ComponentType.value : ComponentType → String
  | .envelope => "envelope"
  | .subject => "subject"
  | .body => "body"
  | .attachment => "attachment"
  | .generic => "generic"

theorem ComponentType.value_injective : Function.Injective ComponentType.value := by
  intro a b h
  cases a <;> cases b <;> first | rfl | exact absurd h (by decide)

structure MessageComponent where
  componentType : ComponentType
  content : String
  metadata : List (String × List String) := []
deriving DecidableEq, Repr

namespace MessageComponent

def name (component : MessageComponent) : String :=
  match component.componentType with
  | .attachment =>
      ((component.metadata.find? fun entry => entry.1 == "filename").bind fun entry =>
        entry.2.head?).getD "attachment"
  | _ => component.componentType.value

/-- `text` occurs in the content. -/
def Contains (component : MessageComponent) (text : String) : Prop :=
  text.toList <:+: component.content.toList

instance (component : MessageComponent) (text : String) : Decidable (component.Contains text) :=
  inferInstanceAs (Decidable (text.toList <:+: component.content.toList))

theorem contains_content (component : MessageComponent) :
    component.Contains component.content :=
  List.infix_rfl

end MessageComponent

structure ParsedMessage where
  messageId : String
  components : List MessageComponent := []
  metadata : List (String × List String) := []
deriving DecidableEq, Repr

/-- `text` occurs in a component. -/
def ParsedMessage.Carries (message : ParsedMessage) (text : String) : Prop :=
  ∃ component ∈ message.components, component.Contains text

instance (message : ParsedMessage) (text : String) : Decidable (message.Carries text) :=
  inferInstanceAs (Decidable (∃ component ∈ message.components, component.Contains text))

structure Match where
  analyzerName : String
  ruleName : String
  component : MessageComponent
  matchedText : String
  startOffset : Nat
  endOffset : Nat
  confidence : ℚ := 1
deriving DecidableEq

structure DetectionResult where
  messageId : String
  «matches» : List Match := []
  errors : List String := []
deriving DecidableEq

namespace DetectionResult

def hasMatches (detection : DetectionResult) : Bool := detection.matches.length > 0

def matchCount (detection : DetectionResult) : Nat := detection.matches.length

def matchesForAnalyzer (detection : DetectionResult) (analyzerName : String) : List Match :=
  detection.matches.filter fun m => m.analyzerName == analyzerName

end DetectionResult

end AkesoDlp.Server
