import AkesoDlp.Agent.HsRegexAnalyzer
import AkesoDlp.Agent.KeywordAnalyzer
import AkesoDlp.Agent.PolicyEvaluator
import Mathlib.Algebra.Group.Int.Defs

/-!
# The detection pipeline

`UpdatePolicies`, `RunDetection` and `OnFileNotification` of `pipeline.cpp`.
File type detection and text extraction, the user's answer to a dialog, the
server's answer to a TTD request and the conversion of paths are parameters;
the work that follows the verdict on a detached thread is left out.
-/

namespace AkesoDlp.Agent

inductive DriverMsgType
  | fileWrite
  | fileCreate
  | verdictAllow
  | verdictBlock
  | verdictScanFull
  | scanResult
  | configUpdate
deriving DecidableEq, Repr

inductive VolumeType
  | fixed
  | removable
  | network
  | unknown
deriving DecidableEq, Repr

structure FileNotification where
  type : DriverMsgType := .fileWrite
  processId : Nat := 0
  volumeType : VolumeType := .fixed
  fileSize : Int := 0
  filePath : List UInt16
  contentPreview : List UInt8
deriving DecidableEq, Repr

structure ExtractionResult where
  success : Bool := false
  text : StdString := []
deriving DecidableEq, Repr

inductive TTDVerdict
  | unspecified
  | allow
  | block
  | log
deriving DecidableEq, Repr

structure PipelineStats where
  filesScanned : Nat := 0
  filesAllowed : Nat := 0
  filesBlocked : Nat := 0
  filesTtd : Nat := 0
  violationsDetected : Nat := 0
  ttdRequestsSent : Nat := 0
  ttdTimeouts : Nat := 0
  errors : Nat := 0
deriving DecidableEq, Repr

/-- What the pipeline is linked with. `extract` yields the type name and the
extractions of a content, or the exception that a stage throws; `detectContent`
is absent without a gRPC client and `none` when the request fails. -/
structure PipelineEnv where
  hs : Hyperscan
  evaluator : PolicyEvaluator
  wideToUtf8 : List UInt16 → StdString
  extract : List UInt8 → StdString → Except StdString (StdString × List ExtractionResult)
  detectContent : Option (FileNotification → Option TTDVerdict)
  showDialog : StdString → StdString → StdString → StdString → DriverMsgType

structure DetectionPipeline (env : PipelineEnv) where
  running : Bool := false
  policies : List Policy := []
  regexAnalyzer : HsRegexAnalyzer env.hs := {}
  keywordAnalyzer : KeywordAnalyzer
  stats : PipelineStats := {}

/-- A started pipeline that has seen no policies. -/
def DetectionPipeline.fresh (env : PipelineEnv) (order : HashMapOrder) : DetectionPipeline env where
  running := true
  keywordAnalyzer := { order := order }

/-! ## Policy updates -/

/-- The labels of the conditions of one type in the active policies, in the
order in which `UpdatePolicies` meets them. -/
def conditionLabels (type : ConditionType) (policies : List Policy) : List StdString :=
  (policies.filter (·.active)).flatMap fun policy =>
    policy.detectionRules.flatMap fun rule =>
      (rule.conditions.filter fun cond =>
        cond.type == type && !cond.patternLabel.isEmpty).map (·.patternLabel)

def regexPatterns (policies : List Policy) : List RegexPattern :=
  (conditionLabels .regex policies).mapIdx fun i label =>
    { id := i + 1, expression := label, flags := 0, label := label }

def keywordEntries (policies : List Policy) : List KeywordEntry :=
  (conditionLabels .keyword policies).mapIdx fun i label =>
    { id := i + 1, keyword := label, caseSensitive := false, wholeWord := true, label := label }

namespace DetectionPipeline

variable {env : PipelineEnv}

/-- The three writes of `UpdatePolicies`, in their order. -/
def assignPolicies (p : DetectionPipeline env) (policies : List Policy) : DetectionPipeline env :=
  { p with policies := policies }

def rebuildRegex (p : DetectionPipeline env) : DetectionPipeline env :=
  let allRegex := regexPatterns p.policies
  if allRegex.isEmpty then p
  else { p with regexAnalyzer := (p.regexAnalyzer.compilePatterns allRegex).2 }

def rebuildKeywords (p : DetectionPipeline env) : DetectionPipeline env :=
  let allKeywords := keywordEntries p.policies
  if allKeywords.isEmpty then p
  else { p with keywordAnalyzer := (p.keywordAnalyzer.buildAutomaton allKeywords).2 }

def updatePolicies (p : DetectionPipeline env) (policies : List Policy) : DetectionPipeline env :=
  (p.assignPolicies policies).rebuildRegex.rebuildKeywords

section rebuild

variable (p : DetectionPipeline env)

@[simp] theorem rebuildRegex_running : p.rebuildRegex.running = p.running := by
  unfold rebuildRegex
  dsimp only
  split <;> rfl

@[simp] theorem rebuildRegex_policies : p.rebuildRegex.policies = p.policies := by
  unfold rebuildRegex
  dsimp only
  split <;> rfl

@[simp] theorem rebuildRegex_keywordAnalyzer :
    p.rebuildRegex.keywordAnalyzer = p.keywordAnalyzer := by
  unfold rebuildRegex
  dsimp only
  split <;> rfl

@[simp] theorem rebuildKeywords_running : p.rebuildKeywords.running = p.running := by
  unfold rebuildKeywords
  dsimp only
  split <;> rfl

@[simp] theorem rebuildKeywords_policies : p.rebuildKeywords.policies = p.policies := by
  unfold rebuildKeywords
  dsimp only
  split <;> rfl

@[simp] theorem rebuildKeywords_regexAnalyzer :
    p.rebuildKeywords.regexAnalyzer = p.regexAnalyzer := by
  unfold rebuildKeywords
  dsimp only
  split <;> rfl

/-- What an analyzer becomes depends on the policies and on what it was. -/
theorem regexAnalyzer_rebuildRegex :
    p.rebuildRegex.regexAnalyzer =
      if regexPatterns p.policies = [] then p.regexAnalyzer
      else (p.regexAnalyzer.compilePatterns (regexPatterns p.policies)).2 := by
  unfold rebuildRegex
  cases regexPatterns p.policies <;> rfl

theorem keywordAnalyzer_rebuildKeywords :
    p.rebuildKeywords.keywordAnalyzer =
      if keywordEntries p.policies = [] then p.keywordAnalyzer
      else (p.keywordAnalyzer.buildAutomaton (keywordEntries p.policies)).2 := by
  unfold rebuildKeywords
  cases keywordEntries p.policies <;> rfl

end rebuild

@[simp] theorem updatePolicies_running (p : DetectionPipeline env) (policies : List Policy) :
    (p.updatePolicies policies).running = p.running := by
  unfold updatePolicies
  rw [rebuildKeywords_running, rebuildRegex_running]
  rfl

@[simp] theorem updatePolicies_policies (p : DetectionPipeline env) (policies : List Policy) :
    (p.updatePolicies policies).policies = policies := by
  unfold updatePolicies
  rw [rebuildKeywords_policies, rebuildRegex_policies]
  rfl

theorem updatePolicies_regexAnalyzer (p : DetectionPipeline env) (policies : List Policy) :
    (p.updatePolicies policies).regexAnalyzer =
      if regexPatterns policies = [] then p.regexAnalyzer
      else (p.regexAnalyzer.compilePatterns (regexPatterns policies)).2 := by
  unfold updatePolicies
  rw [rebuildKeywords_regexAnalyzer, regexAnalyzer_rebuildRegex]
  rfl

theorem updatePolicies_keywordAnalyzer (p : DetectionPipeline env) (policies : List Policy) :
    (p.updatePolicies policies).keywordAnalyzer =
      if keywordEntries policies = [] then p.keywordAnalyzer
      else (p.keywordAnalyzer.buildAutomaton (keywordEntries policies)).2 := by
  unfold updatePolicies
  rw [keywordAnalyzer_rebuildKeywords, rebuildRegex_policies, rebuildRegex_keywordAnalyzer]
  rfl

/-! ## Detection -/

/-- `ext.text.substr(from, to - from)`. -/
def regexMatch (text : StdString) (m : MatchResult) : DetectionMatch where
  patternId := m.patternId
  analyzerName := str "regex"
  label := m.label
  matchedText := (text.drop m.start).take (m.stop - m.start)
  offset := m.start
  component := str "body"

def keywordMatch (m : KeywordMatch) : DetectionMatch where
  patternId := m.patternId
  analyzerName := str "keyword"
  label := m.label
  matchedText := m.keyword
  offset := m.offset
  component := str "body"

/-- The matches of one extracted text. -/
def scanText (p : DetectionPipeline env) (text : StdString) : List DetectionMatch :=
  (p.regexAnalyzer.scan text).map (regexMatch text) ++
    (p.keywordAnalyzer.scan text).map keywordMatch

end DetectionPipeline

/-- The texts that are scanned. -/
def scannedTexts (extractions : List ExtractionResult) : List StdString :=
  (extractions.filter fun ext => ext.success && !ext.text.isEmpty).map (·.text)

/-- The result of `RunDetection` for given matches; the size is cast to
`size_t`. -/
def detectionOf (fileType filename : StdString) (fileSize : Int)
    (found : List DetectionMatch) : DetectionResult where
  «matches» := found
  fileType := fileType
  filename := filename
  fileSize := (fileSize % 2 ^ 64).toNat

namespace DetectionPipeline

variable {env : PipelineEnv}

def runDetection (p : DetectionPipeline env) (content : List UInt8) (filename : StdString)
    (fileSize : Int) : Except StdString DetectionResult := do
  let (fileType, extractions) ← env.extract content filename
  return detectionOf fileType filename fileSize ((scannedTexts extractions).flatMap p.scanText)

end DetectionPipeline

/-! ## The verdict -/

def actionToVerdict : ResponseAction → DriverMsgType
  | .block => .verdictBlock
  | .allow => .verdictAllow
  | .notify => .verdictAllow
  | .userCancel => .verdictBlock
  | .ttd => .verdictAllow

def severityToString : Severity → StdString
  | .info => str "INFO"
  | .low => str "LOW"
  | .medium => str "MEDIUM"
  | .high => str "HIGH"
  | .critical => str "CRITICAL"

/-- Stage 3: the first of the most severe violations. -/
def worstOf (first : PolicyViolation) (rest : List PolicyViolation) : PolicyViolation :=
  rest.foldl (fun worst v => if v.severity.toNat > worst.severity.toNat then v else worst) first

/-- The search for `ttd_fallback` in the policies. -/
def ttdFallback (policies : List Policy) (violation : PolicyViolation) : DriverMsgType :=
  match policies.find? fun p => p.id == violation.policyId with
  | some p => actionToVerdict p.ttdFallback
  | none => .verdictAllow

/-- The server's verdict, when it answers. -/
def ttdVerdict : TTDVerdict → DriverMsgType
  | .block => .verdictBlock
  | .log => .verdictAllow
  | .allow => .verdictAllow
  | .unspecified => .verdictAllow

/-- The answer to a TTD request, if there is a client and it succeeds. -/
def PipelineEnv.askServer (env : PipelineEnv) (notif : FileNotification) : Option TTDVerdict :=
  env.detectContent.bind fun detect => detect notif

namespace DetectionPipeline

variable {env : PipelineEnv}

def count (p : DetectionPipeline env) (f : PipelineStats → PipelineStats) : DetectionPipeline env :=
  { p with stats := f p.stats }

@[simp] theorem count_policies (p : DetectionPipeline env) (f : PipelineStats → PipelineStats) :
    (p.count f).policies = p.policies := rfl

def requestTTD (p : DetectionPipeline env) (notif : FileNotification)
    (violation : PolicyViolation) : DriverMsgType × DetectionPipeline env :=
  match env.detectContent with
  | none =>
      (ttdFallback p.policies violation,
        p.count fun s => { s with ttdTimeouts := s.ttdTimeouts + 1 })
  | some detect =>
      let p := p.count fun s => { s with
        ttdRequestsSent := s.ttdRequestsSent + 1
        filesTtd := s.filesTtd + 1 }
      match detect notif with
      | none =>
          (ttdFallback p.policies violation,
            p.count fun s => { s with ttdTimeouts := s.ttdTimeouts + 1 })
      | some verdict => (ttdVerdict verdict, p)

/-- Stage 4. -/
def determineVerdict (p : DetectionPipeline env) (notif : FileNotification)
    (worst : PolicyViolation) : DriverMsgType × DetectionPipeline env :=
  match worst.response with
  | .ttd => p.requestTTD notif worst
  | .userCancel =>
      (env.showDialog worst.policyName (severityToString worst.severity)
        (env.wideToUtf8 notif.filePath) (str (toString worst.matchCount) ++ str " match(es)"), p)
  | response => (actionToVerdict response, p)

/-- Returns the verdict, the violations that go into incidents, and the pipeline
with its statistics. -/
def onFileNotification (p : DetectionPipeline env) (notif : FileNotification) :
    DriverMsgType × List PolicyViolation × DetectionPipeline env :=
  if !p.running then (.verdictAllow, [], p)
  else
    let allowed := fun s : PipelineStats => { s with filesAllowed := s.filesAllowed + 1 }
    let filepath := env.wideToUtf8 notif.filePath
    let p := p.count fun s => { s with filesScanned := s.filesScanned + 1 }
    if filepath.isEmpty || notif.contentPreview.isEmpty then (.verdictAllow, [], p.count allowed)
    else if p.policies.isEmpty then (.verdictAllow, [], p.count allowed)
    else
      match p.runDetection notif.contentPreview filepath notif.fileSize with
      | .error _ =>
          -- fail-open
          (.verdictAllow, [], (p.count fun s => { s with errors := s.errors + 1 }).count allowed)
      | .ok detection =>
          match env.evaluator.evaluateAll p.policies detection with
          | [] => (.verdictAllow, [], p.count allowed)
          | first :: rest =>
              let worst := worstOf first rest
              let p := p.count fun s => { s with
                violationsDetected := s.violationsDetected + (rest.length + 1) }
              let (verdict, p) := p.determineVerdict notif worst
              (verdict, first :: rest,
                if verdict == .verdictBlock then
                  p.count fun s => { s with filesBlocked := s.filesBlocked + 1 }
                else p.count allowed)

end DetectionPipeline

/-! ## A small pipeline -/

def keywordPolicy (id : Nat) (keyword : String) : Policy where
  id := id
  name := str keyword
  detectionRules := [{ name := str keyword, conditions :=
    [{ type := .keyword, analyzerName := str "keyword", patternLabel := str keyword }] }]

/-- The pipeline of a build without Hyperscan on plain text, without a server;
dialogs time out. -/
def plainEnv : PipelineEnv where
  hs := .absent
  evaluator := .insertion
  wideToUtf8 path := path.map fun ch => if ch < 128 then ch.toUInt8 else 63
  extract content _ := .ok (str "text", [{ success := true, text := content }])
  detectContent := none
  showDialog _ _ _ _ := .verdictBlock

def plainPipeline : DetectionPipeline plainEnv := .fresh plainEnv .insertion

end AkesoDlp.Agent
