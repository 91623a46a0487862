import AkesoDlp.Agent.Pipeline
import Mathlib.Data.List.Induction

/-!
# The verdict for a file

`OnFileNotification` enforces the response of one violation, the first of the
most severe ones. A violated Block policy therefore blocks only if no other
violation is more severe and none as severe comes before it.
-/

namespace AkesoDlp.Agent

/-- `v` is the first of the most severe violations. -/
def IsWorst (violations : List PolicyViolation) (v : PolicyViolation) : Prop :=
  ∃ before after, violations = before ++ v :: after ∧
    (∀ w ∈ before, w.severity.toNat < v.severity.toNat) ∧
    ∀ w ∈ after, w.severity.toNat ≤ v.severity.toNat

theorem worstOf_mem (first : PolicyViolation) (rest : List PolicyViolation) :
    worstOf first rest ∈ first :: rest := by
  unfold worstOf
  induction rest generalizing first with
  | nil => exact List.mem_singleton_self first
  | cons v rest ih =>
      rw [List.foldl_cons]
      rcases List.mem_cons.mp (ih (if v.severity.toNat > first.severity.toNat then v else first))
        with heq | hmem
      · rw [heq]
        split
        · exact List.mem_cons_of_mem _ List.mem_cons_self
        · exact List.mem_cons_self
      · exact List.mem_cons_of_mem _ (List.mem_cons_of_mem _ hmem)

/-- The fold stays at `v` once nothing later is more severe. -/
theorem worstOf_of_le {v : PolicyViolation} {after : List PolicyViolation}
    (h : ∀ w ∈ after, w.severity.toNat ≤ v.severity.toNat) : worstOf v after = v := by
  unfold worstOf
  induction after with
  | nil => rfl
  | cons w after ih =>
      rw [List.forall_mem_cons] at h
      rw [List.foldl_cons, if_neg (Nat.not_lt.mpr h.1), ih h.2]

theorem worstOf_eq {first v : PolicyViolation} {rest : List PolicyViolation}
    (h : IsWorst (first :: rest) v) : worstOf first rest = v := by
  obtain ⟨before, after, hsplit, hbefore, hafter⟩ := h
  cases before with
  | nil =>
      obtain ⟨rfl, rfl⟩ := List.cons.inj hsplit
      exact worstOf_of_le hafter
  | cons w before =>
      obtain ⟨rfl, rfl⟩ := List.cons.inj hsplit
      have hlt := hbefore _ (worstOf_mem first before)
      have hstep : worstOf first (before ++ v :: after) = worstOf v after := by
        unfold worstOf at hlt ⊢
        rw [List.foldl_append, List.foldl_cons, if_pos hlt]
      exact hstep.trans (worstOf_of_le hafter)

/-! ## What is enforced -/

/-- The verdict that the response of a violation leads to. -/
def enforce (env : PipelineEnv) (policies : List Policy) (notif : FileNotification)
    (v : PolicyViolation) : DriverMsgType :=
  match v.response with
  | .ttd =>
      match env.askServer notif with
      | some verdict => ttdVerdict verdict
      | none => ttdFallback policies v
  | .userCancel =>
      env.showDialog v.policyName (severityToString v.severity) (env.wideToUtf8 notif.filePath)
        (str (toString v.matchCount) ++ str " match(es)")
  | response => actionToVerdict response

/-- The verdict for a list of violations. -/
def verdictOf (env : PipelineEnv) (policies : List Policy) (notif : FileNotification) :
    List PolicyViolation → DriverMsgType
  | [] => .verdictAllow
  | first :: rest => enforce env policies notif (worstOf first rest)

namespace DetectionPipeline

variable {env : PipelineEnv}

theorem determineVerdict_fst (p : DetectionPipeline env) (notif : FileNotification)
    (worst : PolicyViolation) :
    (p.determineVerdict notif worst).1 = enforce env p.policies notif worst := by
  unfold determineVerdict enforce requestTTD PipelineEnv.askServer
  cases worst.response <;> try rfl
  cases env.detectContent with
  | none => rfl
  | some detect =>
      dsimp only [Option.bind_some]
      cases detect notif <;> rfl

theorem onFileNotification_of_skipped (p : DetectionPipeline env) {notif : FileNotification}
    (h : ((env.wideToUtf8 notif.filePath).isEmpty || notif.contentPreview.isEmpty) = true) :
    (p.onFileNotification notif).1 = .verdictAllow ∧ (p.onFileNotification notif).2.1 = [] := by
  unfold onFileNotification
  simp only [h, if_true]
  split <;> exact ⟨rfl, rfl⟩

theorem onFileNotification_of_no_policies {p : DetectionPipeline env} (h : p.policies = [])
    (notif : FileNotification) :
    (p.onFileNotification notif).1 = .verdictAllow ∧ (p.onFileNotification notif).2.1 = [] := by
  unfold onFileNotification
  simp only [count_policies, h, List.isEmpty_nil, if_true]
  split <;> [skip; split] <;> exact ⟨rfl, rfl⟩

/-- A file that cannot be extracted is allowed. -/
theorem onFileNotification_of_extract_error (p : DetectionPipeline env) {notif : FileNotification}
    {message : StdString}
    (h : env.extract notif.contentPreview (env.wideToUtf8 notif.filePath) = .error message) :
    (p.onFileNotification notif).1 = .verdictAllow ∧ (p.onFileNotification notif).2.1 = [] := by
  have herror (q : DetectionPipeline env) : q.runDetection notif.contentPreview
      (env.wideToUtf8 notif.filePath) notif.fileSize = .error message := by
    unfold runDetection
    rw [h]
    rfl
  unfold onFileNotification
  simp only [herror]
  split <;> [skip; split <;> [skip; split]] <;> exact ⟨rfl, rfl⟩

/-- The notification is one that detection runs for, with this result. -/
structure Detects (p : DetectionPipeline env) (notif : FileNotification)
    (detection : DetectionResult) : Prop where
  running : p.running = true
  path : env.wideToUtf8 notif.filePath ≠ []
  preview : notif.contentPreview ≠ []
  detection : p.runDetection notif.contentPreview (env.wideToUtf8 notif.filePath)
    notif.fileSize = .ok detection

theorem onFileNotification_of_detects {p : DetectionPipeline env} {notif : FileNotification}
    {detection : DetectionResult} (h : p.Detects notif detection) :
    (p.onFileNotification notif).2.1 = env.evaluator.evaluateAll p.policies detection ∧
    (p.onFileNotification notif).1 =
      verdictOf env p.policies notif (env.evaluator.evaluateAll p.policies detection) := by
  have hpath : (env.wideToUtf8 notif.filePath).isEmpty = false :=
    List.isEmpty_eq_false_iff.mpr h.path
  have hpreview : notif.contentPreview.isEmpty = false := List.isEmpty_eq_false_iff.mpr h.preview
  have hdetection : (p.count fun s => { s with filesScanned := s.filesScanned + 1 }).runDetection
      notif.contentPreview (env.wideToUtf8 notif.filePath) notif.fileSize = .ok detection :=
    h.detection
  unfold onFileNotification
  simp only [h.running, hpath, hpreview, Bool.not_true, Bool.false_eq_true, if_false,
    Bool.or_self, hdetection]
  -- without policies the function returns early, with the same empty result
  cases hpolicies : p.policies with
  | nil =>
      simp only [count_policies, hpolicies, List.isEmpty_nil, if_true]
      exact ⟨rfl, rfl⟩
  | cons policy rest =>
      simp only [count_policies, hpolicies, List.isEmpty_cons, Bool.false_eq_true, if_false]
      cases env.evaluator.evaluateAll (policy :: rest) detection with
      | nil => exact ⟨rfl, rfl⟩
      | cons first others =>
          refine ⟨rfl, ?_⟩
          simp only [determineVerdict_fst, count_policies, hpolicies]
          rfl

end DetectionPipeline

/-! ## Adding a policy -/

theorem exists_isWorst (first : PolicyViolation) (rest : List PolicyViolation) :
    ∃ v, IsWorst (first :: rest) v := by
  -- from the back: a later violation takes over only if it is more severe
  induction rest using List.reverseRecOn with
  | nil => exact ⟨first, [], [], rfl, by simp, by simp⟩
  | append_singleton rest w ih =>
      obtain ⟨v, before, after, hsplit, hbefore, hafter⟩ := ih
      rw [← List.cons_append, hsplit]
      by_cases hw : w.severity.toNat ≤ v.severity.toNat
      · refine ⟨v, before, after ++ [w], by simp, hbefore, ?_⟩
        rintro x hx
        rcases List.mem_append.mp hx with hold | hlast
        · exact hafter x hold
        · rwa [List.mem_singleton.mp hlast]
      · have hlt : v.severity.toNat < w.severity.toNat := Nat.lt_of_not_le hw
        refine ⟨w, before ++ v :: after, [], by simp, ?_, by simp⟩
        intro x hx
        rcases List.mem_append.mp hx with hold | hold
        · exact Nat.lt_trans (hbefore x hold) hlt
        · rcases List.mem_cons.mp hold with rfl | hlater
          · exact hlt
          · exact Nat.lt_of_le_of_lt (hafter x hlater) hlt

theorem IsWorst.mem {violations : List PolicyViolation} {v : PolicyViolation}
    (h : IsWorst violations v) : v ∈ violations := by
  obtain ⟨before, after, rfl, -, -⟩ := h
  exact List.mem_append_right before List.mem_cons_self

/-- A violation that is not the worst one may as well be absent. -/
theorem IsWorst.of_insert {before after : List PolicyViolation} {v w : PolicyViolation}
    (h : IsWorst (before ++ w :: after) v) (hne : v ≠ w) : IsWorst (before ++ after) v := by
  obtain ⟨left, right, hsplit, hleft, hright⟩ := h
  rcases List.append_eq_append_iff.mp hsplit with ⟨mid, rfl, hmid⟩ | ⟨mid, rfl, hmid⟩
  · -- `w` comes before `v`
    cases mid with
    | nil => exact absurd (List.cons.inj hmid).1.symm hne
    | cons x mid =>
        obtain ⟨rfl, rfl⟩ := List.cons.inj hmid
        refine ⟨before ++ mid, right, by simp, ?_, hright⟩
        intro y hy
        apply hleft y
        rcases List.mem_append.mp hy with h | h
        · exact List.mem_append_left _ h
        · exact List.mem_append_right _ (List.mem_cons_of_mem _ h)
  · -- `w` comes after `v`
    cases mid with
    | nil => exact absurd (List.cons.inj hmid).1 hne
    | cons x mid =>
        obtain ⟨rfl, rfl⟩ := List.cons.inj hmid
        refine ⟨left, mid ++ after, by simp, hleft, ?_⟩
        intro y hy
        apply hright y
        rcases List.mem_append.mp hy with h | h
        · exact List.mem_append_left _ h
        · exact List.mem_append_right _ (List.mem_cons_of_mem _ h)

variable {env : PipelineEnv} {detection : DetectionResult}

theorem verdictOf_of_isWorst {policies : List Policy} {notif : FileNotification}
    {violations : List PolicyViolation} {v : PolicyViolation} (h : IsWorst violations v) :
    verdictOf env policies notif violations = enforce env policies notif v := by
  cases violations with
  | nil => exact absurd h.mem List.not_mem_nil
  | cons first rest => exact congrArg (enforce env policies notif) (worstOf_eq h)

/-- A policy with another id is passed over in the search for the fallback. -/
theorem enforce_insert (notif : FileNotification) {before after : List Policy} {q : Policy}
    {v : PolicyViolation} (h : v.policyId ≠ q.id) :
    enforce env (before ++ q :: after) notif v = enforce env (before ++ after) notif v := by
  have hfind : ttdFallback (before ++ q :: after) v = ttdFallback (before ++ after) v := by
    unfold ttdFallback
    rw [List.find?_append, List.find?_append, List.find?_cons_of_neg (by simpa using h.symm)]
  unfold enforce
  rw [hfind]

theorem evaluateAll_insert (ev : PolicyEvaluator) (before after : List Policy) (q : Policy) :
    ev.evaluateAll (before ++ q :: after) detection =
      ev.evaluateAll before detection ++
        ((if (ev.evaluate q detection).triggered then [ev.evaluate q detection] else []) ++
          ev.evaluateAll after detection) := by
  unfold PolicyEvaluator.evaluateAll
  rw [List.map_append, List.filter_append, List.map_cons, List.filter_cons]
  split <;> rfl

theorem evaluateAll_append (ev : PolicyEvaluator) (before after : List Policy) :
    ev.evaluateAll (before ++ after) detection =
      ev.evaluateAll before detection ++ ev.evaluateAll after detection := by
  unfold PolicyEvaluator.evaluateAll
  rw [List.map_append, List.filter_append]

/-- A further policy matters only if it is violated worst of all. -/
theorem verdictOf_insert (notif : FileNotification) {before after : List Policy} {q : Policy}
    (hid : ∀ policy ∈ before ++ after, policy.id ≠ q.id)
    (hq : ¬ IsWorst (env.evaluator.evaluateAll (before ++ q :: after) detection)
      (env.evaluator.evaluate q detection)) :
    verdictOf env (before ++ q :: after) notif
        (env.evaluator.evaluateAll (before ++ q :: after) detection) =
      verdictOf env (before ++ after) notif
        (env.evaluator.evaluateAll (before ++ after) detection) := by
  -- the same violation is the worst with `q` and without
  have hsame : ∀ v, IsWorst (env.evaluator.evaluateAll (before ++ q :: after) detection) v →
      IsWorst (env.evaluator.evaluateAll (before ++ after) detection) v := by
    intro v hv
    have hne : v ≠ env.evaluator.evaluate q detection := fun heq => hq (heq ▸ hv)
    rw [evaluateAll_insert] at hv
    rw [evaluateAll_append]
    split at hv
    · exact hv.of_insert hne
    · exact hv
  -- `worstOf` needs a violation; without one the file is allowed in both cases
  cases hall : env.evaluator.evaluateAll (before ++ q :: after) detection with
  | nil =>
      rw [evaluateAll_insert] at hall
      obtain ⟨hbefore, hrest⟩ := List.append_eq_nil_iff.mp hall
      rw [evaluateAll_append, hbefore, (List.append_eq_nil_iff.mp hrest).2]
      rfl
  | cons first rest =>
      obtain ⟨v, hv⟩ := exists_isWorst first rest
      have hv' := hsame v (hall ▸ hv)
      obtain ⟨policy, hmem, rfl, -⟩ := mem_evaluateAll.mp hv'.mem
      -- the policy of `v` keeps its fallback
      have hother : (env.evaluator.evaluate policy detection).policyId ≠ q.id := by
        rw [evaluate_policyId]
        exact hid policy hmem
      rw [verdictOf_of_isWorst hv, verdictOf_of_isWorst hv', enforce_insert notif hother]

/-- The verdict is that of the first of the most severe violations, so a Block
response there blocks, whatever else is violated. A policy that is added without
changing what is detected changes the verdict only by becoming the worst. -/
theorem onFileNotification_enforces {p : DetectionPipeline env} {notif : FileNotification}
    (h : p.Detects notif detection) :
    (∀ v, IsWorst (env.evaluator.evaluateAll p.policies detection) v →
      (p.onFileNotification notif).1 = enforce env p.policies notif v ∧
      (v.response = .block → (p.onFileNotification notif).1 = .verdictBlock)) ∧
    ∀ (p' : DetectionPipeline env) (before after : List Policy) (q : Policy),
      p'.Detects notif detection → p.policies = before ++ after →
      p'.policies = before ++ q :: after → (∀ policy ∈ p.policies, policy.id ≠ q.id) →
      ¬ IsWorst (env.evaluator.evaluateAll p'.policies detection)
        (env.evaluator.evaluate q detection) →
      (p'.onFileNotification notif).1 = (p.onFileNotification notif).1 := by
  constructor
  · intro v hv
    have hverdict : (p.onFileNotification notif).1 = enforce env p.policies notif v :=
      (DetectionPipeline.onFileNotification_of_detects h).2.trans (verdictOf_of_isWorst hv)
    refine ⟨hverdict, ?_⟩
    intro hblock
    rw [hverdict]
    unfold enforce
    rw [hblock]
    rfl
  · intro p' before after q h' hpolicies hpolicies' hid hq
    rw [(DetectionPipeline.onFileNotification_of_detects h).2,
      (DetectionPipeline.onFileNotification_of_detects h').2]
    rw [hpolicies] at hid ⊢
    rw [hpolicies'] at hq ⊢
    exact verdictOf_insert notif hid hq

/-! ## A Block policy and a more severe Allow policy -/

def mergerPolicy : Policy := keywordPolicy 1 "merger"

def lunchPolicy (severity : Severity) : Policy :=
  { keywordPolicy 2 "lunch" with defaultSeverity := severity, response := .allow }

def mergerNotification : FileNotification where
  filePath := [67, 58, 92, 97]
  contentPreview := str "merger at lunch"

/-- A policy that allows takes the block away when it is the more severe one. -/
theorem allow_overrides_block :
    (((plainPipeline.updatePolicies [mergerPolicy, lunchPolicy .high]).onFileNotification
      mergerNotification).2.1.map (·.response) = [.block, .allow]) ∧
    ((plainPipeline.updatePolicies [mergerPolicy, lunchPolicy .high]).onFileNotification
      mergerNotification).1 = .verdictAllow ∧
    ((plainPipeline.updatePolicies [mergerPolicy]).onFileNotification
      mergerNotification).1 = .verdictBlock := by
  decide

/-- Both keywords of the text. -/
def mergerDetection : DetectionResult :=
  detectionOf (str "text") (plainEnv.wideToUtf8 mergerNotification.filePath) 0
    [{ patternId := 1, analyzerName := str "keyword", label := str "merger",
       matchedText := str "merger", offset := 0, component := str "body" },
     { patternId := 2, analyzerName := str "keyword", label := str "lunch",
       matchedText := str "lunch", offset := 10, component := str "body" }]

def anyKeywordPolicy : Policy :=
  { keywordPolicy 3 "" with response := .notify }

/-- The merger policy comes first, and the others are no more severe. -/
theorem onFileNotification_enforces_merger :
    ((plainPipeline.updatePolicies [mergerPolicy, lunchPolicy .low]).onFileNotification
      mergerNotification).1 = .verdictBlock ∧
    ((plainPipeline.updatePolicies [mergerPolicy, lunchPolicy .low,
      anyKeywordPolicy]).onFileNotification mergerNotification).1 =
      ((plainPipeline.updatePolicies [mergerPolicy, lunchPolicy .low]).onFileNotification
        mergerNotification).1 := by
  have hdetects : (plainPipeline.updatePolicies [mergerPolicy, lunchPolicy .low]).Detects
      mergerNotification mergerDetection := ⟨by decide, by decide, by decide, rfl⟩
  have hdetects' : (plainPipeline.updatePolicies [mergerPolicy, lunchPolicy .low,
      anyKeywordPolicy]).Detects mergerNotification mergerDetection :=
    ⟨by decide, by decide, by decide, rfl⟩
  obtain ⟨hworst, hadd⟩ := onFileNotification_enforces hdetects
  refine ⟨(hworst (plainEnv.evaluator.evaluate mergerPolicy mergerDetection)
    ⟨[], [plainEnv.evaluator.evaluate (lunchPolicy .low) mergerDetection],
      by decide, by decide, by decide⟩).2 (by decide), ?_⟩
  refine hadd _ [mergerPolicy, lunchPolicy .low] [] anyKeywordPolicy hdetects' rfl rfl
    (by decide) ?_
  have hall : plainEnv.evaluator.evaluateAll
      [mergerPolicy, lunchPolicy .low, anyKeywordPolicy] mergerDetection =
      [plainEnv.evaluator.evaluate mergerPolicy mergerDetection,
        plainEnv.evaluator.evaluate (lunchPolicy .low) mergerDetection,
        plainEnv.evaluator.evaluate anyKeywordPolicy mergerDetection] := by
    decide
  rw [DetectionPipeline.updatePolicies_policies, hall]
  intro h
  exact absurd (worstOf_eq h) (by decide)

end AkesoDlp.Agent
