import AkesoDlp.Agent.PolicyHistory
import AkesoDlp.Agent.Verdict
import AkesoDlp.Lib.TSys
import Mathlib.Logic.Function.Basic

/-!
# Updates while files are checked

`UpdatePolicies` holds `policy_mutex_` from its first write to its last.
`OnFileNotification` takes it to see whether there are policies, to evaluate
them and to look up a TTD fallback, but not to scan: a scan takes the mutex of
its analyzer only. A run is a sequence of these critical sections, of updates
that follow one another and of any number of calls. The statistics are left
out.
-/

namespace AkesoDlp.Agent

open DetectionPipeline Lib

/-- Where a call stands between two critical sections. In `scanning` the loop
over the texts has `pending` before it, and `regexDone` tells whether the first
of them has been through the regex scan. -/
inductive Phase
  | entered
  | checked
  | scanning (fileType : StdString) (done pending : List StdString) (regexDone : Bool)
      (found : List DetectionMatch)
  | fallback (violations : List PolicyViolation) (worst : PolicyViolation)
  | returned (stop : Nat) (verdict : DriverMsgType) (violations : List PolicyViolation)
deriving DecidableEq, Repr

/-- A call of `OnFileNotification`. `start`, and `stop` when it has returned,
count the updates that had begun by then. -/
structure Call where
  notif : FileNotification
  start : Nat
  phase : Phase
deriving DecidableEq, Repr

/-- The writes that the `UpdatePolicies` call holding the lock has done. -/
inductive UpdateStage
  | assigned
  | regexBuilt
deriving DecidableEq, Repr

structure AgentState (env : PipelineEnv) where
  pipeline : DetectionPipeline env
  lock : Option UpdateStage
  updates : List (List Policy)
  calls : Nat → Option Call

inductive Action
  /-- An `UpdatePolicies` call takes the lock and writes `policies_`. -/
  | assign (policies : List Policy)
  | rebuildRegex
  /-- The last write of the update, which then lets go of the lock. -/
  | rebuildKeywords
  | enter (c : Nat) (notif : FileNotification)
  /-- Call `c` goes through its next critical section. -/
  | advance (c : Nat)

variable {env : PipelineEnv}

/-- What follows the evaluation, up to the next critical section. -/
def afterEvaluation (env : PipelineEnv) (notif : FileNotification) (now : Nat) :
    List PolicyViolation → Phase
  | [] => .returned now .verdictAllow []
  | first :: rest =>
      let worst := worstOf first rest
      match worst.response with
      | .ttd =>
          match env.askServer notif with
          | some verdict => .returned now (ttdVerdict verdict) (first :: rest)
          | none => .fallback (first :: rest) worst
      | .userCancel =>
          .returned now (env.showDialog worst.policyName (severityToString worst.severity)
            (env.wideToUtf8 notif.filePath) (str (toString worst.matchCount) ++ str " match(es)"))
            (first :: rest)
      | response => .returned now (actionToVerdict response) (first :: rest)

/-- The checks on entry. -/
def enterPhase (p : DetectionPipeline env) (notif : FileNotification) (now : Nat) : Phase :=
  if !p.running then .returned now .verdictAllow []
  else if (env.wideToUtf8 notif.filePath).isEmpty || notif.contentPreview.isEmpty then
    .returned now .verdictAllow []
  else .entered

/-- The next critical section of a call; those under `policy_mutex_` have to
wait while the lock is held. -/
def Call.advance (call : Call) (p : DetectionPipeline env) (locked : Bool) (now : Nat) :
    Option Phase :=
  match call.phase with
  | .entered =>
      if locked then none
      else if p.policies.isEmpty then some (.returned now .verdictAllow [])
      else some .checked
  | .checked =>
      match env.extract call.notif.contentPreview (env.wideToUtf8 call.notif.filePath) with
      | .error _ => some (.returned now .verdictAllow [])
      | .ok (fileType, extractions) =>
          some (.scanning fileType [] (scannedTexts extractions) false [])
  | .scanning fileType done (text :: rest) false found =>
      some (.scanning fileType done (text :: rest) true
        (found ++ (p.regexAnalyzer.scan text).map (regexMatch text)))
  | .scanning fileType done (text :: rest) true found =>
      some (.scanning fileType (done ++ [text]) rest false
        (found ++ (p.keywordAnalyzer.scan text).map keywordMatch))
  | .scanning fileType _ [] _ found =>
      if locked then none
      else some (afterEvaluation env call.notif now (env.evaluator.evaluateAll p.policies
        (detectionOf fileType (env.wideToUtf8 call.notif.filePath) call.notif.fileSize found)))
  | .fallback violations worst =>
      if locked then none
      else some (.returned now (ttdFallback p.policies worst) violations)
  | .returned .. => none

def AgentState.setCall (s : AgentState env) (c : Nat) (call : Call) : AgentState env :=
  { s with calls := Function.update s.calls c (some call) }

/-! ## The window of a call -/

/-- The call has scanned, or evaluated, and will look at the policies again. -/
def Phase.InWindow : Phase → Prop
  | .scanning _ done _ regexDone _ => done ≠ [] ∨ regexDone = true
  | .fallback _ _ => True
  | _ => False

/-- The next section of the call is a scan by the regex analyzer. -/
def Phase.ScansRegex : Phase → Prop
  | .scanning _ _ pending regexDone _ => pending ≠ [] ∧ regexDone = false
  | _ => False

def Phase.ScansKeywords : Phase → Prop
  | .scanning _ _ pending regexDone _ => pending ≠ [] ∧ regexDone = true
  | _ => False

namespace ConcurrentUpdates

def step (s : AgentState env) : Action → Option (AgentState env)
  | .assign policies =>
      if s.lock = none then
        some { s with
          pipeline := s.pipeline.assignPolicies policies
          lock := some .assigned
          updates := s.updates ++ [policies] }
      else none
  | .rebuildRegex =>
      if s.lock = some .assigned then
        some { s with pipeline := s.pipeline.rebuildRegex, lock := some .regexBuilt }
      else none
  | .rebuildKeywords =>
      if s.lock = some .regexBuilt then
        some { s with pipeline := s.pipeline.rebuildKeywords, lock := none }
      else none
  | .enter c notif =>
      if s.calls c = none then
        some (s.setCall c ⟨notif, s.updates.length,
          enterPhase s.pipeline notif s.updates.length⟩)
      else none
  | .advance c =>
      (s.calls c).bind fun call =>
        (call.advance s.pipeline s.lock.isSome s.updates.length).map fun phase =>
          s.setCall c { call with phase := phase }

def agent (env : PipelineEnv) (order : HashMapOrder) : TSys (AgentState env) Action where
  init s := s = ⟨.fresh env order, none, [], fun _ => none⟩
  step := step

/-- The call, if it has returned, did what it would have done alone under one
list of policies that was in force during the call. -/
def AtomicCall (env : PipelineEnv) (order : HashMapOrder) (updates : List (List Policy))
    (call : Call) : Prop :=
  ∀ stop verdict violations, call.phase = .returned stop verdict violations →
    ∃ k, call.start ≤ k ∧ k ≤ stop ∧ stop ≤ updates.length ∧
      ((pipelineAfter env order (updates.take k)).onFileNotification call.notif).1 = verdict ∧
      ((pipelineAfter env order (updates.take k)).onFileNotification call.notif).2.1 = violations

def AtomicUpdates (order : HashMapOrder) (s : AgentState env) : Prop :=
  ∀ c call, s.calls c = some call → AtomicCall env order s.updates call

/-- No update that changes anything begins in the window of a call, and no call
scans with an analyzer that an update in progress has yet to change. -/
def Undisturbed (s : AgentState env) : Action → Prop
  | .assign policies =>
      (∃ c call, s.calls c = some call ∧ call.phase.InWindow) →
        s.pipeline.updatePolicies policies = s.pipeline
  | .advance c =>
      ∀ call, s.calls c = some call →
        (call.phase.ScansRegex → s.lock = some .assigned →
          s.pipeline.rebuildRegex = s.pipeline) ∧
        (call.phase.ScansKeywords → s.lock ≠ none →
          s.pipeline.rebuildKeywords = s.pipeline)
  | _ => True

/-! ## What a call knows -/

/-- The update in progress, carried through. -/
def finishUpdate (s : AgentState env) : DetectionPipeline env :=
  match s.lock with
  | none => s.pipeline
  | some .assigned => s.pipeline.rebuildRegex.rebuildKeywords
  | some .regexBuilt => s.pipeline.rebuildKeywords

theorem finishUpdate_of_unlocked {s : AgentState env} (h : s.lock = none) :
    finishUpdate s = s.pipeline := by
  unfold finishUpdate
  rw [h]

/-- What the call has computed so far is what it would compute with `p`. -/
def Tracks (p : DetectionPipeline env) (call : Call) : Prop :=
  match call.phase with
  | .entered | .checked =>
      env.wideToUtf8 call.notif.filePath ≠ [] ∧ call.notif.contentPreview ≠ []
  | .scanning fileType done pending regexDone found =>
      (env.wideToUtf8 call.notif.filePath ≠ [] ∧ call.notif.contentPreview ≠ []) ∧
      ∃ extractions, env.extract call.notif.contentPreview (env.wideToUtf8 call.notif.filePath) =
          .ok (fileType, extractions) ∧
        scannedTexts extractions = done ++ pending ∧
        found = done.flatMap p.scanText ++
          if regexDone then (pending.head?.map fun text =>
            (p.regexAnalyzer.scan text).map (regexMatch text)).getD [] else []
  | .fallback violations worst =>
      ∃ detection, p.Detects call.notif detection ∧
        violations = env.evaluator.evaluateAll p.policies detection ∧
        verdictOf env p.policies call.notif violations = ttdFallback p.policies worst
  | .returned .. => True

/-- Either the evaluation settles the verdict, or the fallback of the policy
does. -/
theorem afterEvaluation_cases (env : PipelineEnv) (notif : FileNotification) (now : Nat)
    (violations : List PolicyViolation) :
    (∃ verdict, afterEvaluation env notif now violations = .returned now verdict violations ∧
      ∀ policies, verdictOf env policies notif violations = verdict) ∨
    ∃ worst, afterEvaluation env notif now violations = .fallback violations worst ∧
      ∀ policies, verdictOf env policies notif violations = ttdFallback policies worst := by
  cases violations with
  | nil => exact .inl ⟨_, rfl, fun _ => rfl⟩
  | cons first rest =>
      unfold afterEvaluation verdictOf enforce
      dsimp only
      cases (worstOf first rest).response with
      | ttd =>
          cases env.askServer notif with
          | none => exact .inr ⟨_, rfl, fun _ => rfl⟩
          | some verdict => exact .inl ⟨_, rfl, fun _ => rfl⟩
      | allow => exact .inl ⟨_, rfl, fun _ => rfl⟩
      | block => exact .inl ⟨_, rfl, fun _ => rfl⟩
      | notify => exact .inl ⟨_, rfl, fun _ => rfl⟩
      | userCancel => exact .inl ⟨_, rfl, fun _ => rfl⟩

/-- The section that evaluates. -/
theorem evaluated_tracks {target : DetectionPipeline env} {notif : FileNotification}
    {detection : DetectionResult} (start now : Nat) (h : target.Detects notif detection) :
    Tracks target ⟨notif, start, afterEvaluation env notif now
      (env.evaluator.evaluateAll target.policies detection)⟩ ∧
    ∀ stop verdict violations, afterEvaluation env notif now
        (env.evaluator.evaluateAll target.policies detection) = .returned stop verdict violations →
      stop = now ∧ (target.onFileNotification notif).1 = verdict ∧
        (target.onFileNotification notif).2.1 = violations := by
  obtain ⟨hviolations, hverdict⟩ := onFileNotification_of_detects h
  rcases afterEvaluation_cases env notif now (env.evaluator.evaluateAll target.policies detection)
    with ⟨verdict, hphase, hsettled⟩ | ⟨worst, hphase, hfallback⟩
  · rw [hphase]
    refine ⟨trivial, ?_⟩
    rintro _ _ _ ⟨⟩
    exact ⟨rfl, hverdict.trans (hsettled _), hviolations⟩
  · rw [hphase]
    refine ⟨⟨detection, h, rfl, hfallback _⟩, ?_⟩
    rintro _ _ _ ⟨⟩

/-- One section of a call, when the parts of the shared pipeline that it reads
are those of `target`. -/
theorem advance_tracks {call : Call} {p target : DetectionPipeline env} {locked : Bool}
    {now : Nat} {phase : Phase} (hrunning : target.running = true)
    (hfree : locked = false → p = target)
    (hregex : call.phase.ScansRegex → p.regexAnalyzer = target.regexAnalyzer)
    (hkeyword : call.phase.ScansKeywords → p.keywordAnalyzer = target.keywordAnalyzer)
    (htracks : Tracks target call) (hadvance : call.advance p locked now = some phase) :
    Tracks target { call with phase := phase } ∧
    ∀ stop verdict violations, phase = .returned stop verdict violations →
      stop = now ∧ (target.onFileNotification call.notif).1 = verdict ∧
        (target.onFileNotification call.notif).2.1 = violations := by
  obtain ⟨notif, start, before⟩ := call
  cases before with
  -- the test for policies, under the lock
  | entered =>
      simp only [Call.advance, Option.ite_none_left_eq_some, Bool.not_eq_true] at hadvance
      obtain ⟨hlock, hadvance⟩ := hadvance
      obtain rfl := hfree hlock
      split at hadvance
      · obtain rfl := Option.some.inj hadvance
        refine ⟨trivial, ?_⟩
        rintro _ _ _ ⟨⟩
        exact ⟨rfl, onFileNotification_of_no_policies (List.isEmpty_iff.mp ‹_›) notif⟩
      · obtain rfl := Option.some.inj hadvance
        exact ⟨htracks, by rintro _ _ _ ⟨⟩⟩
  -- the extraction reads nothing that is shared
  | checked =>
      simp only [Call.advance] at hadvance
      split at hadvance
      · obtain rfl := Option.some.inj hadvance
        refine ⟨trivial, ?_⟩
        rintro _ _ _ ⟨⟩
        exact ⟨rfl, onFileNotification_of_extract_error target ‹_›⟩
      · obtain rfl := Option.some.inj hadvance
        exact ⟨⟨htracks, _, ‹_›, rfl, rfl⟩, by rintro _ _ _ ⟨⟩⟩
  | scanning fileType done pending regexDone found =>
      obtain ⟨hchecks, extractions, hextract, htexts, hfound⟩ := htracks
      cases pending with
      | nil =>
          simp only [Call.advance, Option.ite_none_left_eq_some, Bool.not_eq_true,
            Option.some.injEq] at hadvance
          obtain ⟨hlock, rfl⟩ := hadvance
          obtain rfl := hfree hlock
          -- all texts are scanned, so what was found is the whole detection
          have hdetects : p.Detects notif
              (detectionOf fileType (env.wideToUtf8 notif.filePath) notif.fileSize found) := by
            refine ⟨hrunning, hchecks.1, hchecks.2, ?_⟩
            unfold runDetection
            rw [hextract, hfound, ← List.append_nil done, ← htexts]
            cases regexDone <;> simp [bind, Except.bind, pure, Except.pure]
          exact evaluated_tracks start now hdetects
      | cons text rest =>
          cases regexDone with
          | false =>
              obtain rfl := Option.some.inj hadvance
              rw [hregex ⟨List.cons_ne_nil _ _, rfl⟩, hfound]
              exact ⟨⟨hchecks, extractions, hextract, htexts, by simp⟩, by rintro _ _ _ ⟨⟩⟩
          | true =>
              obtain rfl := Option.some.inj hadvance
              rw [hkeyword ⟨List.cons_ne_nil _ _, rfl⟩, hfound]
              refine ⟨⟨hchecks, extractions, hextract, ?_, ?_⟩, by rintro _ _ _ ⟨⟩⟩
              · rw [htexts, List.append_assoc, List.singleton_append]
              · simp [scanText]
  -- the search for `ttd_fallback`, in the same policies as the evaluation
  | fallback violations worst =>
      simp only [Call.advance, Option.ite_none_left_eq_some, Bool.not_eq_true,
        Option.some.injEq] at hadvance
      obtain ⟨hlock, rfl⟩ := hadvance
      obtain rfl := hfree hlock
      obtain ⟨detection, hdetects, rfl, hfallback⟩ := htracks
      obtain ⟨hviolations, hverdict⟩ := onFileNotification_of_detects hdetects
      refine ⟨trivial, ?_⟩
      rintro _ _ _ ⟨⟩
      exact ⟨rfl, hverdict.trans hfallback, hviolations⟩
  | returned => exact absurd hadvance (by simp [Call.advance])

/-! ## The invariant -/

theorem step_cases {s s' : AgentState env} {a : Action} (h : step s a = some s') :
    (∃ policies, a = .assign policies ∧ s.lock = none ∧
      s' = { s with
        pipeline := s.pipeline.assignPolicies policies
        lock := some .assigned
        updates := s.updates ++ [policies] }) ∨
    (a = .rebuildRegex ∧ s.lock = some .assigned ∧
      s' = { s with pipeline := s.pipeline.rebuildRegex, lock := some .regexBuilt }) ∨
    (a = .rebuildKeywords ∧ s.lock = some .regexBuilt ∧
      s' = { s with pipeline := s.pipeline.rebuildKeywords, lock := none }) ∨
    (∃ c notif, a = .enter c notif ∧
      s' = s.setCall c ⟨notif, s.updates.length,
        enterPhase s.pipeline notif s.updates.length⟩) ∨
    (∃ c call phase, a = .advance c ∧ s.calls c = some call ∧
      call.advance s.pipeline s.lock.isSome s.updates.length = some phase ∧
      s' = s.setCall c { call with phase := phase }) := by
  cases a with
  | assign policies =>
      obtain ⟨hlock, heq⟩ := Option.ite_none_right_eq_some.mp h
      exact .inl ⟨policies, rfl, hlock, (Option.some.inj heq).symm⟩
  | rebuildRegex =>
      obtain ⟨hlock, heq⟩ := Option.ite_none_right_eq_some.mp h
      exact .inr (.inl ⟨rfl, hlock, (Option.some.inj heq).symm⟩)
  | rebuildKeywords =>
      obtain ⟨hlock, heq⟩ := Option.ite_none_right_eq_some.mp h
      exact .inr (.inr (.inl ⟨rfl, hlock, (Option.some.inj heq).symm⟩))
  | enter c notif =>
      obtain ⟨-, heq⟩ := Option.ite_none_right_eq_some.mp h
      exact .inr (.inr (.inr (.inl ⟨c, notif, rfl, (Option.some.inj heq).symm⟩)))
  | advance c =>
      obtain ⟨call, hcall, hmap⟩ := Option.bind_eq_some_iff.mp h
      obtain ⟨phase, hphase, heq⟩ := Option.map_eq_some_iff.mp hmap
      exact .inr (.inr (.inr (.inr ⟨c, call, phase, rfl, hcall, hphase, heq.symm⟩)))

/-- What holds of every call: it tracks the pipeline that the updates so far
make one after the other. -/
structure CallInv (env : PipelineEnv) (order : HashMapOrder) (updates : List (List Policy))
    (call : Call) : Prop where
  start_le : call.start ≤ updates.length
  tracks : Tracks (pipelineAfter env order updates) call
  atomic : AtomicCall env order updates call

/-- The update in progress leads to that pipeline, too. -/
structure Inv (order : HashMapOrder) (s : AgentState env) : Prop where
  target : finishUpdate s = pipelineAfter env order s.updates
  calls : ∀ c call, s.calls c = some call → CallInv env order s.updates call

variable {order : HashMapOrder} {s : AgentState env}

theorem Inv.setCall {c : Nat} {call : Call} (h : Inv order s)
    (hcall : CallInv env order s.updates call) : Inv order (s.setCall c call) where
  target := h.target
  calls := by
    intro d other hother
    have hupdate : (if d = c then some call else s.calls d) = some other := by
      rw [← hother]
      exact (Function.update_apply ..).symm
    split at hupdate
    · exact Option.some.inj hupdate ▸ hcall
    · exact h.calls d other hupdate

theorem pipelineAfter_append_singleton (env : PipelineEnv) (order : HashMapOrder)
    (updates : List (List Policy)) (policies : List Policy) :
    pipelineAfter env order (updates ++ [policies]) =
      (pipelineAfter env order updates).updatePolicies policies := by
  unfold pipelineAfter
  rw [List.foldl_append, List.foldl_cons, List.foldl_nil]

theorem pipelineAfter_running (env : PipelineEnv) (order : HashMapOrder)
    (updates : List (List Policy)) : (pipelineAfter env order updates).running = true := by
  induction updates using List.reverseRecOn with
  | nil => rfl
  | append_singleton updates policies ih =>
      rw [pipelineAfter_append_singleton, updatePolicies_running, ih]

/-- Outside its window a call has learned nothing from the pipeline. -/
theorem tracks_of_not_inWindow {p q : DetectionPipeline env} {call : Call}
    (hwindow : ¬ call.phase.InWindow) (h : Tracks p call) : Tracks q call := by
  obtain ⟨notif, start, phase⟩ := call
  -- a scan that has found nothing yet has scanned nothing yet
  cases phase with
  | entered => exact h
  | checked => exact h
  | scanning fileType done pending regexDone found =>
      obtain ⟨hdone, hregexDone⟩ := not_or.mp hwindow
      obtain ⟨hchecks, extractions, hextract, htexts, hfound⟩ := h
      refine ⟨hchecks, extractions, hextract, htexts, ?_⟩
      rw [hfound, not_not.mp hdone, if_neg hregexDone, if_neg hregexDone]
      rfl
  | fallback => exact absurd trivial hwindow
  | returned => trivial

theorem CallInv.append {updates : List (List Policy)} {call : Call}
    (h : CallInv env order updates call) {policies : List Policy}
    (hwindow : call.phase.InWindow → pipelineAfter env order (updates ++ [policies]) =
      pipelineAfter env order updates) :
    CallInv env order (updates ++ [policies]) call where
  start_le := by
    rw [List.length_append]
    exact Nat.le_add_right_of_le h.start_le
  tracks := by
    -- a call in its window has read the old analyzers, so they must not change
    by_cases hin : call.phase.InWindow
    · exact hwindow hin ▸ h.tracks
    · exact tracks_of_not_inWindow hin h.tracks
  atomic := by
    intro stop verdict violations hphase
    obtain ⟨k, hstart, hk, hstop, hverdict⟩ := h.atomic stop verdict violations hphase
    refine ⟨k, hstart, hk, ?_, ?_⟩
    · rw [List.length_append]
      exact Nat.le_add_right_of_le hstop
    · rwa [List.take_append_of_le_length (Nat.le_trans hk hstop)]

theorem inv_assign (h : Inv order s) {policies : List Policy} (hlock : s.lock = none)
    (hok : Undisturbed s (.assign policies)) :
    Inv order { s with
      pipeline := s.pipeline.assignPolicies policies
      lock := some .assigned
      updates := s.updates ++ [policies] } := by
  have htarget : s.pipeline = pipelineAfter env order s.updates :=
    (finishUpdate_of_unlocked hlock).symm.trans h.target
  constructor
  · rw [pipelineAfter_append_singleton, ← htarget]
    rfl
  · intro c call hcall
    refine (h.calls c call hcall).append ?_
    intro hwindow
    rw [pipelineAfter_append_singleton, ← htarget]
    exact hok ⟨c, call, hcall, hwindow⟩

theorem finishUpdate_running (s : AgentState env) :
    (finishUpdate s).running = s.pipeline.running := by
  unfold finishUpdate
  split <;> simp

/-- An analyzer that the update in progress will not change is that of the
finished update. -/
theorem regexAnalyzer_finishUpdate
    (h : s.lock = some .assigned → s.pipeline.rebuildRegex = s.pipeline) :
    (finishUpdate s).regexAnalyzer = s.pipeline.regexAnalyzer := by
  unfold finishUpdate
  split
  · rfl
  · rw [rebuildKeywords_regexAnalyzer, h ‹_›]
  · rw [rebuildKeywords_regexAnalyzer]

theorem keywordAnalyzer_finishUpdate
    (h : s.lock ≠ none → s.pipeline.rebuildKeywords = s.pipeline) :
    (finishUpdate s).keywordAnalyzer = s.pipeline.keywordAnalyzer := by
  unfold finishUpdate
  split
  · rfl
  · have hkeep := h (by simp [‹s.lock = _›])
    rw [keywordAnalyzer_rebuildKeywords, rebuildRegex_policies, rebuildRegex_keywordAnalyzer,
      ← keywordAnalyzer_rebuildKeywords, hkeep]
  · rw [h (by simp [‹s.lock = _›])]

theorem inv_enter (h : Inv order s) (c : Nat) (notif : FileNotification) :
    Inv order (s.setCall c ⟨notif, s.updates.length,
      enterPhase s.pipeline notif s.updates.length⟩) := by
  have hrunning : s.pipeline.running = true := by
    rw [← finishUpdate_running, h.target, pipelineAfter_running]
  refine h.setCall ?_
  unfold enterPhase
  rw [hrunning]
  by_cases hskip : ((env.wideToUtf8 notif.filePath).isEmpty || notif.contentPreview.isEmpty) = true
  · rw [if_pos hskip]
    refine ⟨Nat.le_refl _, trivial, ?_⟩
    rintro _ _ _ ⟨⟩
    exact ⟨s.updates.length, Nat.le_refl _, Nat.le_refl _, Nat.le_refl _,
      onFileNotification_of_skipped _ hskip⟩
  · rw [if_neg hskip]
    refine ⟨Nat.le_refl _, ?_, by rintro _ _ _ ⟨⟩⟩
    simp only [Bool.or_eq_true, List.isEmpty_iff, not_or] at hskip
    exact hskip

theorem inv_advance (h : Inv order s) {c : Nat} {call : Call} {phase : Phase}
    (hok : Undisturbed s (.advance c)) (hcall : s.calls c = some call)
    (hadvance : call.advance s.pipeline s.lock.isSome s.updates.length = some phase) :
    Inv order (s.setCall c { call with phase := phase }) := by
  obtain ⟨hregex, hkeyword⟩ := hok call hcall
  have hcallInv := h.calls c call hcall
  -- what the section reads agrees with the finished update
  obtain ⟨htracks, hresult⟩ := advance_tracks (pipelineAfter_running env order s.updates)
    (fun hfree => h.target ▸ (finishUpdate_of_unlocked (by simpa using hfree)).symm)
    (fun hscan => h.target ▸ (regexAnalyzer_finishUpdate (hregex hscan)).symm)
    (fun hscan => h.target ▸ (keywordAnalyzer_finishUpdate (hkeyword hscan)).symm)
    hcallInv.tracks hadvance
  refine h.setCall ⟨hcallInv.start_le, htracks, ?_⟩
  intro stop verdict violations hphase
  obtain ⟨rfl, hverdict⟩ := hresult stop verdict violations hphase
  refine ⟨s.updates.length, hcallInv.start_le, Nat.le_refl _, Nat.le_refl _, ?_⟩
  rwa [List.take_length]

theorem inv_inductive (env : PipelineEnv) (order : HashMapOrder) :
    (agent env order).InductiveBy Undisturbed (Inv order) where
  init := by
    rintro _ rfl
    exact ⟨rfl, fun _ _ hcall => absurd hcall (Option.some_ne_none _).symm⟩
  step := by
    intro s a s' hs hok hstep
    obtain ⟨policies, rfl, hlock, rfl⟩ | ⟨rfl, hlock, rfl⟩ | ⟨rfl, hlock, rfl⟩ |
      ⟨c, notif, rfl, rfl⟩ | ⟨c, call, phase, rfl, hcall, hadvance, rfl⟩ := step_cases hstep
    · exact inv_assign hs hlock hok
    · -- a rebuild is part of the update that is being finished
      refine ⟨?_, hs.calls⟩
      rw [← hs.target]
      simp [finishUpdate, hlock]
    · refine ⟨?_, hs.calls⟩
      rw [← hs.target]
      simp [finishUpdate, hlock]
    · exact inv_enter hs c notif
    · exact inv_advance hs hok hcall hadvance

/-- In every undisturbed run each call has the verdict and the violations that
it would have had alone, under one list of policies that was in force. -/
theorem onFileNotification_atomic {env : PipelineEnv} {order : HashMapOrder} {s : AgentState env}
    (h : (agent env order).ReachableBy Undisturbed s) : AtomicUpdates order s :=
  fun c call hcall => ((inv_inductive env order).invariant s h |>.calls c call hcall).atomic

/-! ## Two policies that both block -/

def mergerPolicies : List Policy := [keywordPolicy 1 "merger"]

def lunchPolicies : List Policy := [keywordPolicy 2 "lunch"]

/-- The call enters while the update is in progress. -/
def quietRun : List Action :=
  [.assign mergerPolicies, .rebuildRegex, .enter 0 mergerNotification, .rebuildKeywords] ++
    List.replicate 5 (.advance 0)

/-- The second update takes place between the scans and the evaluation. -/
def racyRun : List Action :=
  [.assign mergerPolicies, .rebuildRegex, .rebuildKeywords, .enter 0 mergerNotification] ++
    List.replicate 4 (.advance 0) ++
    [.assign lunchPolicies, .rebuildRegex, .rebuildKeywords, .advance 0]

def startState : AgentState plainEnv := ⟨.fresh plainEnv .insertion, none, [], fun _ => none⟩

theorem runOk_advances (order : HashMapOrder) (c n : Nat) (hlock : s.lock = none) :
    (agent env order).RunOk Undisturbed s (List.replicate n (.advance c)) := by
  induction n generalizing s with
  | zero => trivial
  | succ n ih =>
      refine ⟨fun _ _ => ⟨?_, fun _ h => absurd hlock h⟩, fun s' hstep => ih ?_⟩
      · intro _ hassigned
        rw [hlock] at hassigned
        exact absurd hassigned (Option.some_ne_none _).symm
      · obtain ⟨call, -, hmap⟩ := Option.bind_eq_some_iff.mp hstep
        obtain ⟨phase, -, rfl⟩ := Option.map_eq_some_iff.mp hmap
        exact hlock

theorem onFileNotification_atomic_quietRun :
    ∃ s call, (agent plainEnv .insertion).run startState quietRun = some s ∧
      s.calls 0 = some call ∧
      call.phase = .returned 1 .verdictBlock ((pipelineAfter plainEnv .insertion
        [mergerPolicies]).onFileNotification mergerNotification).2.1 ∧
      AtomicUpdates .insertion s := by
  refine ⟨_, _, rfl, rfl, rfl,
    onFileNotification_atomic (TSys.reachableBy_run (.init rfl) quietRun ?_ rfl)⟩
  refine ⟨fun ⟨_, _, hcall, _⟩ => absurd hcall (Option.some_ne_none _).symm,
    fun s₁ h₁ => ⟨trivial, fun s₂ h₂ => ⟨trivial, fun s₃ h₃ => ⟨trivial, fun s₄ h₄ =>
      runOk_advances _ 0 5 ?_⟩⟩⟩⟩
  cases h₁
  cases h₂
  cases h₃
  cases h₄
  rfl

/-- The file has a keyword of the list before the update and one of the list
after it, both lists block, and it is allowed. -/
theorem not_atomicUpdates_racyRun :
    ∃ s call, (agent plainEnv .insertion).Reachable s ∧ s.calls 0 = some call ∧
      call.notif = mergerNotification ∧ call.start = 1 ∧
      call.phase = .returned 2 .verdictAllow [] ∧ s.updates = [mergerPolicies, lunchPolicies] ∧
      ((pipelineAfter plainEnv .insertion [mergerPolicies]).onFileNotification
        mergerNotification).1 = .verdictBlock ∧
      ((pipelineAfter plainEnv .insertion [mergerPolicies, lunchPolicies]).onFileNotification
        mergerNotification).1 = .verdictBlock ∧
      ¬ AtomicUpdates .insertion s := by
  have hbefore : ((pipelineAfter plainEnv .insertion [mergerPolicies]).onFileNotification
      mergerNotification).1 = .verdictBlock := by decide
  have hafter : ((pipelineAfter plainEnv .insertion
      [mergerPolicies, lunchPolicies]).onFileNotification
        mergerNotification).1 = .verdictBlock := by decide
  refine ⟨_, _, TSys.reachable_run (.init rfl) racyRun rfl, rfl, rfl, rfl, rfl, rfl,
    hbefore, hafter, ?_⟩
  intro hatomic
  obtain ⟨k, hstart, hstop, -, hverdict, -⟩ := hatomic 0 _ rfl _ _ _ rfl
  -- one of the two lists would have to allow the file
  rcases Nat.lt_or_ge k 2 with hlt | hge
  · obtain rfl : k = 1 := Nat.le_antisymm (Nat.le_of_lt_succ hlt) hstart
    exact absurd (hbefore.symm.trans hverdict) (by decide)
  · obtain rfl : k = 2 := Nat.le_antisymm hstop hge
    exact absurd (hafter.symm.trans hverdict) (by decide)

end ConcurrentUpdates

end AkesoDlp.Agent
