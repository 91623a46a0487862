import AkesoDlp.Lib.Utf8
import AkesoDlp.Network.SmtpMonitor

/-!
# What the SMTP monitor sees of an email

`_parse_email` reads the parts that are attachments by their disposition or file name,
and those of the two text types. A leaf that is neither is passed over, unless the
message has no parts: then it is read whatever its type. So the whole message is seen
exactly when no leaf that is passed over holds a text of its own.
-/

namespace AkesoDlp.Network

open Server (ComponentType MessageComponent DetectionResult)

namespace SmtpMonitor

/-- The part becomes a component. -/
def isRead (part : EmailMessage) : Bool :=
  isAttachment part || (part.getContentType == "text/plain" || part.getContentType == "text/html")

def isContent (component : MessageComponent) : Bool :=
  component.componentType == .body || component.componentType == .attachment

section

variable (env : InspectionEnv) (moment : Moment) (envelope : EmailEnvelope) (msg : EmailMessage)

/-- `text` occurs in a body or in an attachment that the engine sees. -/
def Sees (text : String) : Prop :=
  ∃ component ∈ (parseEmail env moment envelope msg).message.components,
    isContent component = true ∧ component.Contains text

instance (text : String) : Decidable (Sees env moment envelope msg text) :=
  inferInstanceAs (Decidable (∃ component ∈ _, isContent component = true ∧ _))

theorem partComponent_eq_some_iff {env : InspectionEnv} {part : EmailMessage} :
    (∃ component, partComponent env part = some component ∧ isContent component = true ∧
      component.content = env.decodeUtf8 part.payload) ↔ isRead part = true := by
  unfold partComponent isRead
  cases isAttachment part with
  | true => simp [isContent]
  | false =>
      cases part.getContentType == "text/plain" || part.getContentType == "text/html" with
      | true => simp [isContent]
      | false => simp

/-- A component that a part becomes holds the text of its payload. -/
theorem partComponent_some {env : InspectionEnv} {part : EmailMessage}
    {component : MessageComponent} (h : partComponent env part = some component) :
    isRead part = true ∧ isContent component = true ∧
      component.content = env.decodeUtf8 part.payload := by
  unfold partComponent at h
  split at h
  · next hattachment =>
      rw [← Option.some.inj h]
      exact ⟨by simp [isRead, hattachment], rfl, rfl⟩
  · split at h
    · next htext =>
        rw [← Option.some.inj h]
        exact ⟨by rw [isRead, htext, Bool.or_true], rfl, rfl⟩
    · simp at h

/-- Only the components for the parts count: the envelope and the subject are no
content. -/
theorem sees_iff (text : String) :
    Sees env moment envelope msg text ↔
      ∃ component ∈ bodyComponents env msg,
        isContent component = true ∧ component.Contains text := by
  constructor
  · rintro ⟨component, hmem, hcontent, htext⟩
    simp only [parseEmail, List.cons_append, List.mem_cons, List.mem_append] at hmem
    rcases hmem with rfl | hmem | hmem
    · simp [isContent, envelopeComponent] at hcontent
    · split at hmem
      · simp at hmem
      · rw [List.mem_singleton] at hmem
        subst hmem
        simp [isContent] at hcontent
    · exact ⟨component, hmem, hcontent, htext⟩
  · rintro ⟨component, hmem, hcontent, htext⟩
    exact ⟨component, List.mem_cons_of_mem _ (List.mem_append_right _ hmem), hcontent, htext⟩

theorem sees_multipart_iff (hmultipart : msg.isMultipart = true) (text : String) :
    Sees env moment envelope msg text ↔
      ∃ part ∈ msg.walk, isRead part = true ∧
        text.toList <:+: (env.decodeUtf8 part.payload).toList := by
  rw [sees_iff, bodyComponents, if_pos hmultipart]
  constructor
  · rintro ⟨component, hmem, -, htext⟩
    obtain ⟨part, hpart, hcomponent⟩ := List.mem_filterMap.mp hmem
    obtain ⟨hread, -, hcontent⟩ := partComponent_some hcomponent
    exact ⟨part, hpart, hread, hcontent ▸ htext⟩
  · rintro ⟨part, hpart, hread, htext⟩
    obtain ⟨component, hcomponent, hcontent, heq⟩ := partComponent_eq_some_iff.mpr hread
    exact ⟨component, List.mem_filterMap.mpr ⟨part, hpart, hcomponent⟩, hcontent, by
      rw [MessageComponent.Contains, heq]; exact htext⟩

theorem sees_simple (hsimple : msg.isMultipart = false) :
    Sees env moment envelope msg (env.decodeUtf8 msg.payload) := by
  rw [sees_iff, bodyComponents, hsimple]
  exact ⟨_, List.mem_singleton_self _, rfl, MessageComponent.contains_content _⟩

/-- The whole message is seen exactly if it has no parts, or no leaf that is passed
over holds a text that the parts read do not hold. -/
theorem sees_leaves_iff :
    (∀ leaf ∈ msg.leaves, Sees env moment envelope msg (env.decodeUtf8 leaf.payload)) ↔
      msg.isMultipart = false ∨ ∀ leaf ∈ msg.leaves, isRead leaf = false →
        ∃ part ∈ msg.walk, isRead part = true ∧
          (env.decodeUtf8 leaf.payload).toList <:+: (env.decodeUtf8 part.payload).toList := by
  cases hmultipart : msg.isMultipart with
  | false =>
      refine ⟨fun _ => .inl rfl, fun _ leaf hleaf => ?_⟩
      have hself : leaf = msg := by
        cases msg with
        | leaf =>
            simpa [EmailMessage.leaves, EmailMessage.walk, EmailMessage.isMultipart] using hleaf
        | multipart => simp [EmailMessage.isMultipart] at hmultipart
      rw [hself]
      exact sees_simple env moment envelope msg hmultipart
  | true =>
      simp only [sees_multipart_iff env moment envelope msg hmultipart]
      constructor
      · exact fun h => .inr fun leaf hleaf _ => h leaf hleaf
      · rintro (h | h) leaf hleaf
        · simp at h
        · cases hread : isRead leaf with
          | true => exact ⟨leaf, List.mem_of_mem_filter hleaf, hread, List.infix_rfl⟩
          | false => exact h leaf hleaf hread

end

/-- A part of another type, without disposition or file name. -/
def sampleInline : EmailMessage :=
  .leaf [("Content-Type", "application/json")] "application/json" none
    (Lib.Utf8.encode "SSN: 123-45-6789".toList)

def sampleEmail : EmailMessage :=
  .multipart [("Content-Type", "multipart/mixed; boundary=b")] "multipart/mixed" none
    [.leaf [("Content-Type", "text/plain")] "text/plain" none (Lib.Utf8.encode "Hello".toList),
      sampleInline]

def sampleInspection : InspectionEnv where
  messageFromBytes _ := sampleEmail
  decodeUtf8 bytes := String.ofList (Lib.Utf8.decodeReplace bytes)
  detect message := { messageId := message.messageId }

theorem not_sees_inline :
    sampleInline ∈ sampleEmail.leaves ∧
      ¬ Sees sampleInspection {} { mailFrom := "a@x", rcptTos := ["b@y"] } sampleEmail
        (sampleInspection.decodeUtf8 sampleInline.payload) := by
  have hself : sampleInline ∈ sampleInline.leaves := EmailMessage.mem_leaves_self rfl
  have hleaf : sampleInline ∈ sampleEmail.leaves :=
    EmailMessage.mem_leaves_of_mem (List.mem_cons_of_mem _ (List.mem_singleton_self _)) hself
  exact ⟨hleaf, by decide +kernel⟩

end SmtpMonitor

end AkesoDlp.Network
