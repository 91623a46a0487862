import AkesoDlp.Network.EncodedFragments
import AkesoDlp.Network.HttpMonitor
import AkesoDlp.Server.DetectionEngine

/-!
# The matches of decoded variants

`inspect_request` adds the decoded variants of a text to the message as components of their
own, and `should_block` compares the threshold with the matches of all of them. So a text that
is decoded once counts its matches twice.
-/

namespace AkesoDlp.Network

open Server (ComponentType MessageComponent ScanningAnalyzer DetectionEngine RegexPattern
  countMatches countAll regexAnalyzer)

/-- The inspection with an engine that runs these analyzers. -/
def InspectionEnv.withAnalyzers (env : InspectionEnv) (analyzers : List ScanningAnalyzer) :
    InspectionEnv :=
  { env with detect := (DetectionEngine.ofScanning analyzers).detect }

theorem HttpPrevent.shouldBlock_iff (prevent : HttpPrevent) (result : InspectionResult) :
    prevent.shouldBlock result = true ↔
      0 < result.detection.matchCount ∧ prevent.blockThreshold ≤ result.detection.matchCount := by
  have hviolations : result.hasViolations = decide (0 < result.detection.matchCount) := rfl
  rw [shouldBlock, hviolations]
  by_cases hpos : 0 < result.detection.matchCount
  · simp [hpos]
  · simp [hpos]

/-- Two results are decided alike at every threshold only if they have equally many matches. -/
theorem HttpPrevent.shouldBlock_eq_iff (result₁ result₂ : InspectionResult) :
    (∀ prevent : HttpPrevent, prevent.shouldBlock result₁ = prevent.shouldBlock result₂) ↔
      result₁.detection.matchCount = result₂.detection.matchCount := by
  constructor
  · intro h
    have hat := fun threshold : Int =>
      Bool.eq_iff_iff.mp (h { blockThreshold := threshold })
    simp only [shouldBlock_iff] at hat
    have hfirst := hat result₁.detection.matchCount
    have hsecond := hat result₂.detection.matchCount
    omega
  · intro hcount prevent
    rw [Bool.eq_iff_iff, shouldBlock_iff, shouldBlock_iff, hcount]

namespace DLPAddon

open ContentNormalizer

/-- A component and the variants of its text. -/
def scanned (py : PyLibrary) (component : MessageComponent) : List MessageComponent :=
  component :: normalizedComponents py component

/-- The two bodies lead to the same components but for one. -/
def DifferInOne (env : InspectionEnv) (request : HttpRequest) (body₁ body₂ : List UInt8)
    (component₁ component₂ : MessageComponent) : Prop :=
  ∃ front back,
    bodyComponents env { request with body := body₁ } = front ++ component₁ :: back ∧
      bodyComponents env { request with body := body₂ } = front ++ component₂ :: back

section

variable {env : InspectionEnv} {py : PyLibrary} {request : HttpRequest}
variable {analyzers : List ScanningAnalyzer}

/-- Bodies and attachments are normalized. -/
theorem normalized_of_mem_bodyComponents {component : MessageComponent}
    (h : component ∈ bodyComponents env request) :
    component.componentType ∈ [ComponentType.body, .attachment, .subject] := by
  unfold bodyComponents at h
  split at h
  · obtain ⟨part, -, rfl⟩ := List.mem_map.mp h
    unfold formComponent
    split <;> simp
  · rw [List.mem_singleton.mp h]
    simp

theorem length_scanned {component : MessageComponent}
    (h : component ∈ bodyComponents env request) :
    (scanned py component).length = (normalize py component.content.toList).length := by
  rw [scanned, normalizedComponents, if_pos (normalized_of_mem_bodyComponents h),
    List.length_cons, List.length_map, List.length_tail, normalize_eq, List.length_cons,
    Nat.add_sub_cancel]

theorem countAll_flatMap_scanned (components : List MessageComponent) :
    countAll analyzers (components ++ components.flatMap (normalizedComponents py)) =
      countAll analyzers (components.flatMap (scanned py)) := by
  induction components with
  | nil => rfl
  | cons component components ih =>
      rw [Server.countAll_append] at ih
      simp only [List.cons_append, List.flatMap_cons, scanned, Server.countAll_cons,
        Server.countAll_append]
      omega

/-- The matches of the envelope, and of each component with its variants. -/
theorem matchCount_inspectRequest (messageId : String) :
    (inspectRequest (env.withAnalyzers analyzers) py messageId
        request).detection.matchCount =
      countMatches analyzers (envelopeComponent request) +
        countAll analyzers ((bodyComponents env request).flatMap (scanned py)) := by
  have henvelope : normalizedComponents py (envelopeComponent request) = [] := by
    rw [normalizedComponents, if_neg (by simp [envelopeComponent])]
  have hdetect : (inspectRequest (env.withAnalyzers analyzers) py messageId
      request).detection.matchCount =
        countAll analyzers (requestMessage env py messageId request).components :=
    Server.matchCount_detect analyzers _
  rw [hdetect, requestMessage, countAll_flatMap_scanned, List.flatMap_cons, scanned, henvelope,
    List.singleton_append, Server.countAll_cons]

end

section

variable {env : InspectionEnv} {request : HttpRequest} {body₁ body₂ : List UInt8}
variable {component₁ component₂ : MessageComponent}

/-- Two requests that differ in one component differ in its matches and those of its variants. -/
theorem DifferInOne.matchCount (h : DifferInOne env request body₁ body₂ component₁ component₂)
    (py : PyLibrary) (analyzers : List ScanningAnalyzer) (messageId₁ messageId₂ : String) :
    (inspectRequest (env.withAnalyzers analyzers) py messageId₁
        { request with body := body₁ }).detection.matchCount +
        countAll analyzers (scanned py component₂) =
      (inspectRequest (env.withAnalyzers analyzers) py messageId₂
        { request with body := body₂ }).detection.matchCount +
        countAll analyzers (scanned py component₁) := by
  obtain ⟨front, back, hfirst, hsecond⟩ := h
  have henvelope : envelopeComponent { request with body := body₁ } =
      envelopeComponent { request with body := body₂ } := rfl
  rw [matchCount_inspectRequest, matchCount_inspectRequest, hfirst, hsecond, henvelope]
  simp only [List.flatMap_append, List.flatMap_cons, Server.countAll_append]
  omega

theorem DifferInOne.length_scanned
    (h : DifferInOne env request body₁ body₂ component₁ component₂) (py : PyLibrary) :
    (scanned py component₁).length = (normalize py component₁.content.toList).length ∧
      (scanned py component₂).length = (normalize py component₂.content.toList).length := by
  obtain ⟨front, back, hfirst, hsecond⟩ := h
  exact ⟨DLPAddon.length_scanned (hfirst ▸ List.mem_append_right _ List.mem_cons_self),
    DLPAddon.length_scanned (hsecond ▸ List.mem_append_right _ List.mem_cons_self)⟩

end

/-- The variants of a text with one fragment to decode, and of the decoded text. -/
theorem normalize_fragment {py : PyLibrary} {u v encoded decoded : List Char}
    (h : Fragment py u v encoded decoded) (hne : encoded ≠ decoded) (hu : Plain u) (hv : Plain v)
    (hstable : decodePass py (u ++ (decoded ++ v)) = u ++ (decoded ++ v)) :
    normalize py (u ++ (encoded ++ v)) = [u ++ (encoded ++ v), u ++ (decoded ++ v)] ∧
      normalize py (u ++ (decoded ++ v)) = [u ++ (decoded ++ v)] := by
  have hpass := h.decodePass hu hv hstable
  have hchanged : decodePass py (u ++ (encoded ++ v)) ≠ u ++ (encoded ++ v) := by
    rw [hpass]
    intro heq
    exact hne (List.append_cancel_right (List.append_cancel_left heq)).symm
  rw [normalize_eq, normalize_eq, decodings_succ hchanged, hpass, decodings_of_stable hstable,
    decodings_of_stable hstable]
  exact ⟨rfl, rfl⟩

/-- Texts that become the same in one pass, and are not that already. -/
theorem length_normalize_of_decodePass {py : PyLibrary} {s t : List Char}
    (h : decodePass py s = decodePass py t) (hs : decodePass py s ≠ s)
    (ht : decodePass py t ≠ t) : (normalize py s).length = (normalize py t).length := by
  rw [normalize_eq, normalize_eq, decodings_succ hs, decodings_succ ht, h]
  rfl

/-- Every variant of a text is counted again. The two bodies lead to the same components but
for one text, and where each of its variants has `n` matches, the counts are the same if there
are none or equally many variants. A fragment that is all there is to decode adds `n`. -/
theorem inspectRequest_fragment (analyzers : List ScanningAnalyzer) (env : InspectionEnv)
    (py : PyLibrary) (request : HttpRequest) {body₁ body₂ : List UInt8}
    {component₁ component₂ : MessageComponent}
    (h : DifferInOne env request body₁ body₂ component₁ component₂)
    (messageId₁ messageId₂ : String) :
    let result₁ := inspectRequest (env.withAnalyzers analyzers) py messageId₁
      { request with body := body₁ }
    let result₂ := inspectRequest (env.withAnalyzers analyzers) py messageId₂
      { request with body := body₂ }
    let text₁ := component₁.content.toList
    let text₂ := component₂.content.toList
    ((∀ prevent : HttpPrevent, prevent.shouldBlock result₁ = prevent.shouldBlock result₂) ↔
      result₁.detection.matchCount = result₂.detection.matchCount) ∧
    result₁.detection.matchCount + countAll analyzers (scanned py component₂) =
      result₂.detection.matchCount + countAll analyzers (scanned py component₁) ∧
    ∀ n, (∀ component ∈ scanned py component₁ ++ scanned py component₂,
        countMatches analyzers component = n) →
      (result₁.detection.matchCount = result₂.detection.matchCount ↔
        n = 0 ∨ (normalize py text₁).length = (normalize py text₂).length) ∧
      (decodePass py text₁ = decodePass py text₂ → decodePass py text₁ ≠ text₁ →
        decodePass py text₂ ≠ text₂ →
        result₁.detection.matchCount = result₂.detection.matchCount) ∧
      ∀ u v encoded decoded, text₁ = u ++ (encoded ++ v) → text₂ = u ++ (decoded ++ v) →
        Fragment py u v encoded decoded → encoded ≠ decoded → Plain u → Plain v →
        decodePass py text₂ = text₂ →
        result₁.detection.matchCount = result₂.detection.matchCount + n := by
  intro result₁ result₂ text₁ text₂
  have hcount := h.matchCount py analyzers messageId₁ messageId₂
  refine ⟨HttpPrevent.shouldBlock_eq_iff result₁ result₂, hcount, fun n hn => ?_⟩
  rw [List.forall_mem_append] at hn
  obtain ⟨hlength₁, hlength₂⟩ := h.length_scanned py
  -- as many times `n` as there are variants
  rw [Server.countAll_of_forall hn.1, Server.countAll_of_forall hn.2, hlength₁, hlength₂]
    at hcount
  have hiff : result₁.detection.matchCount = result₂.detection.matchCount ↔
      n = 0 ∨ (normalize py text₁).length = (normalize py text₂).length := by
    constructor
    · intro heq
      have hproduct : (normalize py text₂).length * n = (normalize py text₁).length * n :=
        Nat.add_left_cancel (hcount.trans (congrArg (· + _) heq.symm))
      rcases Nat.eq_zero_or_pos n with hzero | hpos
      · exact .inl hzero
      · exact .inr (Nat.eq_of_mul_eq_mul_right hpos hproduct).symm
    · rintro (rfl | heq)
      · exact hcount
      · rw [heq] at hcount
        exact Nat.add_right_cancel hcount
  refine ⟨hiff, fun hpass hs ht => hiff.mpr (.inr (length_normalize_of_decodePass hpass hs ht)), ?_⟩
  intro u v encoded decoded htext₁ htext₂ hfragment hne hu hv hstable
  rw [htext₂] at hstable
  obtain ⟨hnormalize₁, hnormalize₂⟩ := normalize_fragment hfragment hne hu hv hstable
  change _ + (normalize py text₂).length * n = _ + (normalize py text₁).length * n at hcount
  rw [htext₁, htext₂, hnormalize₁, hnormalize₂] at hcount
  simp only [List.length_cons, List.length_nil] at hcount
  change result₁.detection.matchCount + _ = result₂.detection.matchCount + _ at hcount
  omega

/-! ## A number and an escaped blank -/

/-- The search for a pattern without special characters. -/
def literalFinditer (pattern content : String) : List (Nat × Nat) :=
  (List.range content.toList.length).filterMap fun start =>
    if pattern.toList <+: content.toList.drop start then
      some (start, start + pattern.toList.length)
    else none

def ssnAnalyzer : ScanningAnalyzer :=
  regexAnalyzer literalFinditer "ssn" "'ssn'" [{ name := "US SSN", pattern := "123-45-6789" }]

def ssnText : List Char := "SSN: 123-45-6789 a".toList

def plainRequest : HttpRequest := sampleRequest "text/plain" []

def plainEnv : InspectionEnv := (sampleEnv sampleField).withAnalyzers [ssnAnalyzer]

def plainComponent (text : List Char) : MessageComponent where
  componentType := .body
  content := String.ofList text
  metadata := [("content_type", ["text/plain"])]

def escapedText : List Char := ssnText ++ ("%20".toList ++ "b".toList)

def unescapedText : List Char := ssnText ++ (" ".toList ++ "b".toList)

def inspectText (text : List Char) : InspectionResult :=
  inspectRequest plainEnv asciiLibrary "1" { plainRequest with body := Lib.Utf8.encode text }

theorem fragment_blank : Fragment asciiLibrary ssnText "b".toList "%20".toList " ".toList :=
  .percent (Lib.PercentEncoding.encoded_encode _)

theorem inspectRequest_fragment_blank :
    (inspectText escapedText).detection.matchCount =
      (inspectText unescapedText).detection.matchCount + 1 := by
  have hdiffer : DifferInOne (sampleEnv sampleField) plainRequest (Lib.Utf8.encode escapedText)
      (Lib.Utf8.encode unescapedText) (plainComponent escapedText)
      (plainComponent unescapedText) :=
    ⟨[], [], by decide +kernel, by decide +kernel⟩
  exact ((inspectRequest_fragment [ssnAnalyzer] (sampleEnv sampleField) asciiLibrary plainRequest
    hdiffer "1" "1").2.2 1 (by decide +kernel)).2.2 ssnText "b".toList "%20".toList " ".toList
      (by decide +kernel) (by decide +kernel) fragment_blank (by decide) ⟨by decide, by decide⟩
      ⟨by decide, by decide⟩ (by decide +kernel)

/-- The body with the escape has the number twice, and is blocked at two. -/
theorem not_same_matchCount_blank :
    Fragment asciiLibrary ssnText "b".toList "%20".toList " ".toList ∧
      ssnAnalyzer.count (plainComponent "%20".toList) = 0 ∧
      ssnAnalyzer.count (plainComponent " ".toList) = 0 ∧
      (inspectText escapedText).detection.matchCount = 2 ∧
      (inspectText unescapedText).detection.matchCount = 1 ∧
      HttpPrevent.shouldBlock { blockThreshold := 2 } (inspectText escapedText) = true ∧
      HttpPrevent.shouldBlock { blockThreshold := 2 } (inspectText unescapedText) = false :=
  ⟨fragment_blank, by decide +kernel, by decide +kernel, by decide +kernel, by decide +kernel,
    by decide +kernel, by decide +kernel⟩

end DLPAddon

end AkesoDlp.Network
