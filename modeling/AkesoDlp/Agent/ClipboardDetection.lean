import AkesoDlp.Agent.ContentExtractor
import AkesoDlp.Agent.KeywordCoverage
import AkesoDlp.Agent.MatchedContent

/-!
# Clipboard detection

`OnClipboardContent` passes the text to `RunDetection` under the name "clipboard", which
has no extension. A text without a signature is then extracted as a binary file is: only
its runs of at least six printable ASCII bytes are scanned.
-/

namespace AkesoDlp.Agent

/-! ## The handler -/

structure ClipboardStats where
  clipsScanned : Nat := 0
  clipsViolations : Nat := 0
  clipsBlocked : Nat := 0
  errors : Nat := 0
deriving DecidableEq, Repr

/-- The statistics, the violations with the action taken, and whether the clipboard is to
be cleared. -/
structure ClipboardOutcome where
  stats : ClipboardStats
  violations : List PolicyViolation := []
  actionTaken : StdString := []
  cleared : Bool := false

/-- The incidents that are queued. -/
def ClipboardOutcome.incidents (outcome : ClipboardOutcome) (clip : ClipboardContent) :
    List QueuedIncident :=
  outcome.violations.map fun v => queueClipboardIncident clip v outcome.actionTaken

/-- The options that the pipeline gives its extractor. -/
def pipelineOptions (maxScanSize : Nat) : ExtractionOptions where
  maxTextSize := maxScanSize
  maxZipDepth := 2
  maxZipEntry := 10485760
  maxZipEntries := 100
  minStringRun := 6

/-- The environment with the first two steps of `RunDetection`: the type by content and
name, and the extraction. -/
def PipelineEnv.extracting (env : PipelineEnv) (maxScanSize : Nat) (inflate : Inflate)
    (detector : FileTypeDetector) : PipelineEnv :=
  { env with
    extract := fun content filename =>
      let ft := detector.detect content filename
      .ok (str ft.typeName,
        (Agent.extract (pipelineOptions maxScanSize) inflate detector content ft filename).map
          (·.toExtractionResult)) }

namespace DetectionPipeline

variable {env : PipelineEnv}

/-- `RunDetection` as `OnClipboardContent` calls it. -/
def clipboardDetection (p : DetectionPipeline env) (text : StdString) :
    Except StdString DetectionResult :=
  p.runDetection text (str "clipboard") text.length

/-- The response to the worst violation: the action and whether the clipboard is cleared.
`justification` is what the user enters in the dialog. -/
def clipboardResponse (env : PipelineEnv) (clip : ClipboardContent) (worst : PolicyViolation)
    (justification : StdString) : StdString × Bool :=
  match worst.response with
  | .block => (str "clipboard_block", true)
  | .userCancel =>
      let verdict := env.showDialog worst.policyName (severityToString worst.severity)
        (str "clipboard (from " ++ clip.sourceProcess ++ str ")")
        (str (toString worst.matchCount) ++ str " match(es)")
      if verdict == .verdictBlock then (str "clipboard_user_cancel_block", true)
      else
        (str "clipboard_user_cancel_allow (justification: " ++ justification ++ str ")", false)
  | .notify => (str "clipboard_notify", false)
  | _ => (str "clipboard_allow", false)

def onClipboardContent (p : DetectionPipeline env) (stats : ClipboardStats)
    (clip : ClipboardContent) (justification : StdString) : ClipboardOutcome :=
  if !p.running then { stats := stats }
  else
    let stats := { stats with clipsScanned := stats.clipsScanned + 1 }
    if p.policies.isEmpty then { stats := stats }
    else
      match p.clipboardDetection clip.text with
      | .error _ => { stats := { stats with errors := stats.errors + 1 } }
      | .ok detection =>
          match env.evaluator.evaluateAll p.policies detection with
          | [] => { stats := stats }
          | first :: rest =>
              let (actionTaken, cleared) :=
                clipboardResponse env clip (worstOf first rest) justification
              { stats := { stats with
                  clipsViolations := stats.clipsViolations + (rest.length + 1)
                  clipsBlocked := if cleared then stats.clipsBlocked + 1 else stats.clipsBlocked }
                violations := first :: rest
                actionTaken := actionTaken
                cleared := cleared }

/-- The incidents of a clipboard text are for the violations of its detection. -/
theorem mem_violations_onClipboardContent {p : DetectionPipeline env} {stats : ClipboardStats}
    {clip : ClipboardContent} {justification : StdString} {v : PolicyViolation} :
    v ∈ (p.onClipboardContent stats clip justification).violations ↔
      p.running = true ∧ ∃ detection, p.clipboardDetection clip.text = .ok detection ∧
        v ∈ env.evaluator.evaluateAll p.policies detection := by
  unfold onClipboardContent
  cases hrunning : p.running with
  | false => simp
  | true =>
      cases hpolicies : p.policies with
      | nil => simp [PolicyEvaluator.evaluateAll]
      | cons policy rest =>
          cases p.clipboardDetection clip.text with
          | error message => simp
          | ok detection =>
              simp only [Bool.not_true, Bool.false_eq_true, if_false, List.isEmpty_cons, true_and,
                Except.ok.injEq, exists_eq_left']
              split
              · rename_i hclean
                rw [hclean]
              · rename_i hall
                rw [hall]

end DetectionPipeline

/-! ## What is extracted -/

/-- No signature of the table is in the data. -/
def NoSignature (data : StdString) : Prop := ∀ sig ∈ magicSignatures, sig.isAt data = false

instance (data : StdString) : Decidable (NoSignature data) :=
  inferInstanceAs (Decidable (∀ sig ∈ magicSignatures, _))

/-- The maximal runs of printable bytes; between two other bytes there is an empty one. -/
def printableRuns (data : StdString) : List StdString := data.splitOnP fun b => !isPrintable b

theorem printableRuns_of_printable {b : UInt8} (h : isPrintable b = true) (rest : StdString) :
    printableRuns (b :: rest) = (printableRuns rest).modifyHead (b :: ·) := by
  rw [printableRuns, List.splitOnP_cons_eq_if_modifyHead, if_neg (by simp [h])]
  rfl

theorem printableRuns_of_not_printable {b : UInt8} (h : ¬ isPrintable b = true)
    (rest : StdString) : printableRuns (b :: rest) = [] :: printableRuns rest := by
  rw [printableRuns, List.splitOnP_cons_eq_if_modifyHead, if_pos (by simp [h])]
  rfl

theorem printableRuns_ne_nil (data : StdString) : printableRuns data ≠ [] :=
  List.splitOnP_ne_nil _ data

/-- Nothing is put before the first run. -/
theorem modifyHead_nil_append (runs : List StdString) : runs.modifyHead ([] ++ ·) = runs := by
  cases runs <;> rfl

/-- The runs of the least length, with a newline after each but the last of all runs. -/
def joinRuns (least : Nat) : List StdString → StdString
  | [] => []
  | [last] => if least ≤ last.length then last else []
  | run :: rest => (if least ≤ run.length then run ++ [10] else []) ++ joinRuns least rest

theorem joinRuns_cons {least : Nat} {runs : List StdString} (h : runs ≠ []) (run : StdString) :
    joinRuns least (run :: runs) =
      (if least ≤ run.length then run ++ [10] else []) ++ joinRuns least runs := by
  cases runs with
  | nil => exact absurd rfl h
  | cons next rest => rfl

theorem take_ne_of_noSignature {data : StdString} (h : NoSignature data) {sig : MagicSignature}
    (hsig : sig ∈ magicSignatures) (hoffset : sig.offset = 0) :
    data.take sig.magic.length ≠ sig.magic := by
  intro heq
  have hlength : sig.magic.length ≤ data.length := by
    have := congrArg List.length heq
    rw [List.length_take] at this
    omega
  have hat : sig.isAt data = true := by
    rw [MagicSignature.isAt, hoffset, List.drop_zero, heq, Nat.zero_add, decide_eq_true hlength,
      beq_self_eq_true, Bool.and_self]
  exact Bool.false_ne_true ((h sig hsig).symm.trans hat)

theorem bestSignature_of_noSignature (detector : FileTypeDetector) {data : StdString}
    (h : NoSignature data) : detector.bestSignature data = unknownType := by
  have hall : ∀ sig ∈ detector.signatures, sig.isAt data = false :=
    fun sig hsig => h sig (detector.perm.mem_iff.mp hsig)
  unfold FileTypeDetector.bestSignature
  generalize detector.signatures = signatures at hall
  induction signatures with
  | nil => rfl
  | cons sig rest ih =>
      rw [List.forall_mem_cons] at hall
      rw [List.foldl_cons, hall.1, Bool.false_and, if_neg Bool.false_ne_true]
      exact ih hall.2

theorem checkCompoundFormats_of_noSignature {data : StdString} (h : NoSignature data) :
    checkCompoundFormats data = unknownType := by
  have hzip : data.take 4 ≠ [0x50, 0x4B, 0x03, 0x04] :=
    take_ne_of_noSignature h
      (show ⟨[0x50, 0x4B, 0x03, 0x04], 0, "ZIP", .archive, 70⟩ ∈ magicSignatures by decide) rfl
  have hriff : data.take 4 ≠ [0x52, 0x49, 0x46, 0x46] :=
    take_ne_of_noSignature h
      (show ⟨[0x52, 0x49, 0x46, 0x46], 0, "RIFF", .unknown, 60⟩ ∈ magicSignatures by decide) rfl
  have hmatroska : data.take 4 ≠ [0x1A, 0x45, 0xDF, 0xA3] :=
    take_ne_of_noSignature h
      (show ⟨[0x1A, 0x45, 0xDF, 0xA3], 0, "MKV", .video, 85⟩ ∈ magicSignatures by decide) rfl
  simp [checkCompoundFormats, hzip, hriff, hmatroska]

/-- The type of a clipboard text without a signature. -/
theorem detect_clipboard (detector : FileTypeDetector) {data : StdString} (h : NoSignature data) :
    detector.detect data (str "clipboard") = unknownType := by
  have hcontent : detector.detectFromContent data = unknownType := by
    rw [FileTypeDetector.detectFromContent, bestSignature_of_noSignature detector h,
      checkCompoundFormats_of_noSignature h]
    simp
  have hname : detectFromName (str "clipboard") = unknownType := by decide
  rw [FileTypeDetector.detect, hcontent, hname]
  rfl

section

variable {options : ExtractionOptions}

/-- The loop of `ExtractBinaryStrings` with the flush after it: within the size limit it
never stops early, since a run makes the text no longer than what was read. -/
theorem stringRuns_flush (data text run : StdString)
    (h : text.length + run.length + data.length ≤ options.maxTextSize) :
    (let (text', run') := stringRuns options data text run
      if options.minStringRun ≤ run'.length then text' ++ run' else text') =
    text ++ joinRuns options.minStringRun ((printableRuns data).modifyHead (run ++ ·)) := by
  induction data generalizing text run with
  | nil =>
      rw [stringRuns, printableRuns, List.splitOnP_nil, List.modifyHead_cons, List.append_nil]
      show (if options.minStringRun ≤ run.length then text ++ run else text) =
        text ++ (if options.minStringRun ≤ run.length then run else [])
      split
      · rfl
      · rw [List.append_nil]
  | cons b rest ih =>
      rw [List.length_cons] at h
      rw [stringRuns, if_pos (by omega)]
      by_cases hb : isPrintable b = true
      · rw [if_pos hb, ih text (run ++ [b]) (by rw [List.length_append]; simp; omega),
          printableRuns_of_printable hb, List.modifyHead_modifyHead]
        simp [Function.comp_def]
      · rw [if_neg hb, ih _ [] (by split <;> simp <;> omega), modifyHead_nil_append,
          printableRuns_of_not_printable hb, List.modifyHead_cons, List.append_nil,
          joinRuns_cons (printableRuns_ne_nil rest)]
        split
        · rw [List.append_assoc, List.append_assoc, List.append_assoc]
        · rw [List.nil_append]

/-- `ExtractBinaryStrings` within the size limit. -/
theorem extractBinaryStrings_eq {data : StdString} (hdata : data ≠ [])
    (hsize : data.length ≤ options.maxTextSize) (filename : StdString) :
    extractBinaryStrings options data filename =
      if joinRuns options.minStringRun (printableRuns data) = [] then
        failedResult "No extractable strings" filename .unknown
      else
        extractedResult (joinRuns options.minStringRun (printableRuns data)) filename .unknown := by
  have hlength : ([] : StdString).length + ([] : StdString).length + data.length ≤
      options.maxTextSize := by simpa using hsize
  have hflush := stringRuns_flush data [] [] hlength
  rw [modifyHead_nil_append, List.nil_append] at hflush
  rw [extractBinaryStrings, if_neg hdata]
  dsimp only at hflush ⊢
  rw [hflush]

end

/-- The texts that are scanned for a clipboard text without a signature: at most one. -/
theorem scannedTexts_clipboard {maxScanSize : Nat} {inflate : Inflate}
    {detector : FileTypeDetector} {data : StdString} (hsize : data.length ≤ maxScanSize)
    (filename : StdString) :
    scannedTexts ((extract (pipelineOptions maxScanSize) inflate detector data unknownType
      filename).map (·.toExtractionResult)) =
      if joinRuns 6 (printableRuns data) = [] then [] else [joinRuns 6 (printableRuns data)] := by
  by_cases hdata : data = []
  · subst hdata
    rfl
  · have hextract : extract (pipelineOptions maxScanSize) inflate detector data unknownType
        filename = [extractBinaryStrings (pipelineOptions maxScanSize) data filename] := by
      have htake : data.take (pipelineOptions maxScanSize).maxTextSize = data :=
        List.take_of_length_le hsize
      rw [extract, if_neg hdata, htake]
      rfl
    have hrun : (pipelineOptions maxScanSize).minStringRun = 6 := rfl
    rw [hextract, extractBinaryStrings_eq hdata hsize, hrun]
    generalize joinRuns 6 (printableRuns data) = joined
    cases joined <;> rfl

/-! ## Occurrences in the extracted text -/

theorem toLower_eq_newline {c : UInt8} : toLower c = 10 ↔ c = 10 := by
  unfold toLower
  split
  · grind
  · rfl

theorem newline_mem_of_lower_eq {found keyword : StdString} (h : lower found = lower keyword) :
    10 ∈ found → 10 ∈ keyword := by
  intro hmem
  have hlower : (10 : UInt8) ∈ lower keyword := by
    rw [← h]
    exact List.mem_map.mpr ⟨10, hmem, rfl⟩
  obtain ⟨c, hc, heq⟩ := List.mem_map.mp hlower
  exact toLower_eq_newline.mp heq ▸ hc

theorem not_occursBounded_nil {keyword : StdString} (h : keyword ≠ []) :
    ¬ OccursBounded [] keyword := by
  rintro ⟨before, found, after, htext, hfound, -⟩
  obtain ⟨hfront, -⟩ := List.append_eq_nil_iff.mp htext.symm
  obtain ⟨-, rfl⟩ := List.append_eq_nil_iff.mp hfront
  exact h (List.map_eq_nil_iff.mp hfound.symm)

/-- A newline is no word character, so what is bounded before or after it is bounded. -/
theorem OccursBounded.append_newline {run keyword : StdString} (h : OccursBounded run keyword)
    (rest : StdString) : OccursBounded (run ++ 10 :: rest) keyword := by
  obtain ⟨before, found, after, rfl, hfound, hbefore, hafter⟩ := h
  refine ⟨before, found, after ++ 10 :: rest, by simp, hfound, hbefore, ?_⟩
  cases after with
  | nil =>
      rintro c ⟨⟩
      rfl
  | cons c after => exact hafter

theorem OccursBounded.newline_append {rest keyword : StdString} (h : OccursBounded rest keyword)
    (run : StdString) : OccursBounded (run ++ 10 :: rest) keyword := by
  obtain ⟨before, found, after, rfl, hfound, hbefore, hafter⟩ := h
  refine ⟨run ++ 10 :: before, found, after, by simp, hfound, ?_, hafter⟩
  rcases List.eq_nil_or_concat' before with rfl | ⟨init, c, rfl⟩
  · intro c hc
    rw [List.getLast?_concat] at hc
    cases hc
    rfl
  · intro c' hc'
    rw [← List.cons_append, ← List.append_assoc, List.getLast?_concat] at hc'
    exact hbefore c' (by rw [List.getLast?_concat]; exact hc')

/-- A keyword without a newline occurs on one side of it. -/
theorem occursBounded_newline_cases {run rest keyword : StdString} (hnewline : 10 ∉ keyword)
    (h : OccursBounded (run ++ 10 :: rest) keyword) :
    OccursBounded run keyword ∨ OccursBounded rest keyword := by
  obtain ⟨before, found, after, htext, hfound, hbefore, hafter⟩ := h
  have hnone : (10 : UInt8) ∉ found := fun hmem => hnewline (newline_mem_of_lower_eq hfound hmem)
  rcases List.append_eq_append_iff.mp htext with ⟨mid, hfront, hback⟩ | ⟨mid, hfront, hback⟩
  · cases mid with
    | nil =>
        -- the newline is the first byte after the occurrence
        rw [List.append_nil] at hfront
        exact Or.inl ⟨before, found, [], by rw [List.append_nil, hfront], hfound, hbefore, by simp⟩
    | cons c mid =>
        obtain ⟨rfl, hrest⟩ := List.cons_eq_cons.mp hback
        rcases List.append_eq_append_iff.mp hfront with ⟨front, hrun, hmid⟩ | ⟨front, hrun, hmid⟩
        · exact absurd (by rw [hmid]; simp) hnone
        · cases front with
          | nil =>
              rw [List.nil_append] at hmid
              exact absurd (hmid ▸ List.mem_cons_self) hnone
          | cons c front =>
              obtain ⟨-, rfl⟩ := List.cons_eq_cons.mp hmid
              refine Or.inr ⟨front, found, after, hrest, hfound, ?_, hafter⟩
              intro c hc
              refine hbefore c ?_
              rw [hrun, List.getLast?_append, List.getLast?_cons, hc]
              rfl
  · refine Or.inl ⟨before, found, mid, hfront, hfound, hbefore, ?_⟩
    intro c hc
    refine hafter c ?_
    rw [hback, List.head?_append, hc]
    rfl

/-- The occurrences in the extracted text are those in a long run and, for a keyword with
a newline, those across the newline behind a run. -/
theorem occursBounded_of_mem_runs {least : Nat} {runs : List StdString} {run keyword : StdString}
    (hrun : run ∈ runs) (hlong : least ≤ run.length) (h : OccursBounded run keyword) :
    OccursBounded (joinRuns least runs) keyword := by
  induction runs with
  | nil => cases hrun
  | cons first rest ih =>
      by_cases hrest : rest = []
      · subst hrest
        obtain rfl := List.mem_singleton.mp hrun
        rw [joinRuns, if_pos hlong]
        exact h
      · rw [joinRuns_cons hrest]
        rcases List.mem_cons.mp hrun with rfl | hrun
        · rw [if_pos hlong, List.append_assoc]
          exact h.append_newline _
        · split
          · rw [List.append_assoc]
            exact (ih hrun).newline_append first
          · exact ih hrun

theorem exists_mem_runs {least : Nat} {runs : List StdString} {keyword : StdString}
    (hne : keyword ≠ []) (hnewline : 10 ∉ keyword)
    (h : OccursBounded (joinRuns least runs) keyword) :
    ∃ run ∈ runs, least ≤ run.length ∧ OccursBounded run keyword := by
  induction runs with
  | nil => exact absurd h (not_occursBounded_nil hne)
  | cons first rest ih =>
      by_cases hrest : rest = []
      · subst hrest
        rw [joinRuns] at h
        split at h
        · rename_i hlong
          exact ⟨first, List.mem_cons_self, hlong, h⟩
        · exact absurd h (not_occursBounded_nil hne)
      · rw [joinRuns_cons hrest] at h
        have hcases : (least ≤ first.length ∧ OccursBounded first keyword) ∨
            OccursBounded (joinRuns least rest) keyword := by
          split at h
          · rename_i hlong
            rw [List.append_assoc] at h
            exact (occursBounded_newline_cases hnewline h).imp_left fun hfirst => ⟨hlong, hfirst⟩
          · exact Or.inr h
        rcases hcases with ⟨hlong, hfirst⟩ | hlater
        · exact ⟨first, List.mem_cons_self, hlong, hfirst⟩
        · obtain ⟨run, hrun, hlong, hoccurs⟩ := ih hlater
          exact ⟨run, List.mem_cons_of_mem _ hrun, hlong, hoccurs⟩

/-! ## What is reported -/

/-- The keyword occurs in a run of at least six printable bytes or, if it has a newline,
across the newlines that the extraction puts behind such runs. -/
def InLongRun (text keyword : StdString) : Prop :=
  (∃ run ∈ printableRuns text, 6 ≤ run.length ∧ OccursBounded run keyword) ∨
  (10 ∈ keyword ∧ OccursBounded (joinRuns 6 (printableRuns text)) keyword)

/-- Of the keywords that differ from it in case only, it is the last. -/
def LastSpelling (policies : List Policy) (keyword : StdString) : Prop :=
  ((conditionLabels .keyword policies).reverse.find? fun other => lower other == lower keyword) =
    some keyword

/-- A keyword match with the label. -/
def ReportsKeyword (result : Except StdString DetectionResult) (keyword : StdString) : Prop :=
  ∃ detection, result = .ok detection ∧
    ∃ m ∈ detection.matches, m.analyzerName = str "keyword" ∧ m.label = keyword

/-- Every ASCII keyword of an active policy that occurs in the text is reported. -/
def ClipboardComplete {env : PipelineEnv} (p : DetectionPipeline env) (policies : List Policy)
    (text : StdString) : Prop :=
  ∀ cond, ActiveCondition policies .keyword cond → (∀ b ∈ cond.patternLabel, b < 128) →
    OccursBounded text cond.patternLabel →
    ReportsKeyword ((p.updatePolicies policies).clipboardDetection text) cond.patternLabel

theorem occursBounded_joinRuns_iff {text keyword : StdString} (hne : keyword ≠ []) :
    OccursBounded (joinRuns 6 (printableRuns text)) keyword ↔ InLongRun text keyword := by
  constructor
  · intro h
    by_cases hnewline : 10 ∈ keyword
    · exact Or.inr ⟨hnewline, h⟩
    · exact Or.inl (exists_mem_runs hne hnewline h)
  · rintro (⟨run, hrun, hlong, h⟩ | ⟨-, h⟩)
    · exact occursBounded_of_mem_runs hrun hlong h
    · exact h

/-- A printable text of at least six bytes is one run. -/
theorem inLongRun_of_printable {text keyword : StdString}
    (hprintable : ∀ b ∈ text, isPrintable b = true) (hlong : 6 ≤ text.length)
    (h : OccursBounded text keyword) : InLongRun text keyword := by
  have hruns : printableRuns text = [text] := by
    apply List.splitOnP_eq_singleton
    intro b hb
    rw [hprintable b hb]
    rfl
  exact Or.inl ⟨text, hruns ▸ List.mem_singleton_self text, hlong, h⟩

theorem lastSpelling_iff {policies : List Policy} {keyword : StdString} :
    LastSpelling policies keyword ↔
      ∃ entry, lastEntry (keywordEntries policies) (lower keyword) = some entry ∧
        entry.keyword = keyword := by
  have hpooled : conditionLabels .keyword policies =
      (keywordEntries policies).map (·.keyword) := by
    apply List.ext_getElem?
    intro i
    simp [keywordEntries, Function.comp_def]
  rw [LastSpelling, hpooled, ← List.map_reverse, List.find?_map, Option.map_eq_some_iff]
  rfl

/-- A scan reports the keyword of a condition where it occurs, if it is the last of its
spellings. -/
theorem exists_scan_label_iff {env : PipelineEnv} (p : DetectionPipeline env)
    {policies : List Policy} {keyword : StdString}
    (hkeyword : keyword ∈ conditionLabels .keyword policies) (hne : keyword ≠ [])
    (text : StdString) :
    (∃ m ∈ (p.updatePolicies policies).keywordAnalyzer.scan text, m.label = keyword) ↔
      OccursBounded text keyword ∧ LastSpelling policies keyword := by
  obtain ⟨pooled, hpooled, -⟩ := exists_keywordEntry hkeyword
  have hentries : keywordEntries policies ≠ [] := List.ne_nil_of_mem hpooled
  rw [lastSpelling_iff]
  constructor
  · rintro ⟨m, hm, hlabel⟩
    obtain ⟨entry, before, found, after, htext, -, hlast, hbounded, rfl⟩ :=
      (mem_scan_updatePolicies p hentries).mp hm
    obtain ⟨hmem, hfound⟩ := lastEntry_eq_some hlast
    have hspelled : entry.keyword = keyword := (keywordEntries_spec hmem).2.1.symm.trans hlabel
    rw [hspelled] at hfound
    rw [← hfound] at hlast
    exact ⟨⟨before, found, after, htext, hfound.symm, hbounded⟩, entry, hlast, hspelled⟩
  · rintro ⟨⟨before, found, after, htext, hfound, hbounded⟩, entry, hlast, hspelled⟩
    have hmem := (lastEntry_eq_some hlast).1
    refine ⟨entry.matchAt before.length, (mem_scan_updatePolicies p hentries).mpr
      ⟨entry, before, found, after, htext, ?_, hfound ▸ hlast, hbounded, rfl⟩, ?_⟩
    · rintro rfl
      exact hne (List.map_eq_nil_iff.mp hfound.symm)
    · exact (keywordEntries_spec hmem).2.1.trans hspelled

/-- The keyword matches of a detection are those of the scanned texts. -/
theorem reportsKeyword_runDetection_iff {env : PipelineEnv} {p : DetectionPipeline env}
    {content filename fileType : StdString} {size : Int} {extractions : List ExtractionResult}
    (h : env.extract content filename = .ok (fileType, extractions)) (keyword : StdString) :
    ReportsKeyword (p.runDetection content filename size) keyword ↔
      ∃ text ∈ scannedTexts extractions, ∃ m ∈ p.keywordAnalyzer.scan text, m.label = keyword := by
  have hrun : p.runDetection content filename size =
      .ok (detectionOf fileType filename size
        ((scannedTexts extractions).flatMap p.scanText)) := by
    rw [DetectionPipeline.runDetection, h]
    rfl
  rw [hrun]
  constructor
  · rintro ⟨_, ⟨⟩, m, hm, hanalyzer, hlabel⟩
    obtain ⟨text, htext, hm⟩ := List.mem_flatMap.mp hm
    rcases List.mem_append.mp hm with hm | hm
    · -- a regex match names another analyzer
      obtain ⟨_, -, rfl⟩ := List.mem_map.mp hm
      exact absurd hanalyzer (show str "regex" ≠ str "keyword" by decide)
    · obtain ⟨found, hfound, rfl⟩ := List.mem_map.mp hm
      exact ⟨text, htext, found, hfound, hlabel⟩
  · rintro ⟨text, htext, m, hm, hlabel⟩
    refine ⟨_, rfl, DetectionPipeline.keywordMatch m, ?_, rfl, hlabel⟩
    exact List.mem_flatMap.mpr ⟨text, htext,
      List.mem_append_right _ (List.mem_map.mpr ⟨m, hm, rfl⟩)⟩

section

variable {env : PipelineEnv} {maxScanSize : Nat} {inflate : Inflate} {detector : FileTypeDetector}
  (p : DetectionPipeline (env.extracting maxScanSize inflate detector)) {policies : List Policy}
  {text : StdString}

/-- When a keyword of an active policy is reported for a clipboard text. -/
theorem reportsKeyword_clipboard_iff (hsize : text.length ≤ maxScanSize) (h : NoSignature text)
    {keyword : StdString} (hkeyword : keyword ∈ conditionLabels .keyword policies)
    (hne : keyword ≠ []) :
    ReportsKeyword ((p.updatePolicies policies).clipboardDetection text) keyword ↔
      InLongRun text keyword ∧ LastSpelling policies keyword := by
  have hextract : (env.extracting maxScanSize inflate detector).extract text (str "clipboard") =
      .ok (str unknownType.typeName,
        (extract (pipelineOptions maxScanSize) inflate detector text unknownType
          (str "clipboard")).map (·.toExtractionResult)) := by
    show Except.ok _ = _
    rw [detect_clipboard detector h]
  rw [DetectionPipeline.clipboardDetection, reportsKeyword_runDetection_iff hextract,
    scannedTexts_clipboard hsize, ← occursBounded_joinRuns_iff hne]
  by_cases hempty : joinRuns 6 (printableRuns text) = []
  · rw [if_pos hempty, hempty]
    simp [not_occursBounded_nil hne]
  · rw [if_neg hempty, ← exists_scan_label_iff p hkeyword hne]
    simp

/-- Clipboard detection misses the keywords that occur in short runs only, those with an
unprintable byte, and those with a later spelling. -/
theorem clipboardComplete_iff (hsize : text.length ≤ maxScanSize) (h : NoSignature text) :
    ClipboardComplete p policies text ↔
      ∀ cond, ActiveCondition policies .keyword cond → (∀ b ∈ cond.patternLabel, b < 128) →
        OccursBounded text cond.patternLabel →
        InLongRun text cond.patternLabel ∧ LastSpelling policies cond.patternLabel := by
  have hiff : ∀ cond, ActiveCondition policies .keyword cond →
      (ReportsKeyword ((p.updatePolicies policies).clipboardDetection text) cond.patternLabel ↔
        InLongRun text cond.patternLabel ∧ LastSpelling policies cond.patternLabel) := by
    intro cond hcond
    have hne : cond.patternLabel ≠ [] := by
      obtain ⟨policy, -, -, rule, -, -, -, hne⟩ := hcond
      exact hne
    exact reportsKeyword_clipboard_iff p hsize h (mem_conditionLabels.mpr ⟨cond, hcond, rfl⟩) hne
  constructor
  · intro hcomplete cond hcond hascii hoccurs
    exact (hiff cond hcond).mp (hcomplete cond hcond hascii hoccurs)
  · intro hreports cond hcond hascii hoccurs
    exact (hiff cond hcond).mpr (hreports cond hcond hascii hoccurs)

end

/-- A pipeline with the real extraction of clipboard texts. -/
def clipboardPipeline :
    DetectionPipeline (plainEnv.extracting 52428800 (fun _ _ => none) .stable) :=
  .fresh _ .insertion

/-- The one keyword of a policy with one condition. -/
theorem patternLabel_keywordPolicy {id : Nat} {keyword : String} {cond : RuleCondition}
    (h : ActiveCondition [keywordPolicy id keyword] .keyword cond) :
    cond.patternLabel = str keyword := by
  obtain ⟨policy, hpolicy, -, rule, hrule, hcond, -, -⟩ := h
  obtain rfl := List.mem_singleton.mp hpolicy
  obtain rfl := List.mem_singleton.mp hrule
  obtain rfl := List.mem_singleton.mp hcond
  rfl

theorem clipboardComplete_sample :
    ClipboardComplete clipboardPipeline [keywordPolicy 1 "PIN"] (str "the PIN is 1234") := by
  refine (clipboardComplete_iff clipboardPipeline (by decide +kernel) (by decide +kernel)).mpr ?_
  intro cond hcond _ hoccurs
  rw [patternLabel_keywordPolicy hcond] at hoccurs ⊢
  refine ⟨inLongRun_of_printable ?_ (by decide +kernel) hoccurs, rfl⟩
  show ∀ b ∈ str "the PIN is 1234", isPrintable b = true
  decide +kernel

/-- Between two Cyrillic words the run around the keyword has five bytes. -/
theorem not_clipboardComplete_cyrillic :
    ¬ ∀ (env : PipelineEnv) (maxScanSize : Nat) (inflate : Inflate) (detector : FileTypeDetector)
        (p : DetectionPipeline (env.extracting maxScanSize inflate detector))
        (policies : List Policy) (text : String),
      (str text).length ≤ maxScanSize → NoSignature (str text) →
      ClipboardComplete p policies (str text) := by
  intro hcomplete
  have hoccurs : OccursBounded (str "код PIN да") (str "PIN") :=
    ⟨str "код ", str "PIN", str " да", by decide +kernel, rfl, by rintro c ⟨⟩; rfl,
      by rintro c ⟨⟩; rfl⟩
  have hsignature : NoSignature (str "код PIN да") := by decide +kernel
  obtain ⟨detection, hdetection, m, hm, -⟩ :=
    hcomplete plainEnv 52428800 (fun _ _ => none) .stable clipboardPipeline [keywordPolicy 1 "PIN"]
      "код PIN да" (by decide +kernel) hsignature
      { type := .keyword, analyzerName := str "keyword", patternLabel := str "PIN" }
      ⟨keywordPolicy 1 "PIN", List.mem_singleton_self _, rfl, _, List.mem_cons_self,
        List.mem_cons_self, rfl, by decide +kernel⟩
      (by decide +kernel) hoccurs
  -- nothing is extracted, so nothing is scanned
  have hnone : ∀ detection,
      (clipboardPipeline.updatePolicies [keywordPolicy 1 "PIN"]).clipboardDetection
        (str "код PIN да") = .ok detection → detection.matches = [] := by
    rintro detection ⟨⟩
    decide +kernel
  rw [hnone detection hdetection] at hm
  cases hm

end AkesoDlp.Agent
