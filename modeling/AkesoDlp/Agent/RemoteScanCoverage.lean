import AkesoDlp.Agent.RemoteScanRuns

/-!
# Complete remote scans

A call of `RunRemoteScan`, while the scan thread may walk, the scanner may be started and
callbacks may be set; other requests and a stop are left out. Where the scanner runs when
the walk begins, the result is complete exactly if a callback is set whenever a file is to
be handed over and the scan thread counts no file between the reset of the statistics and
their capture. Where it does not run, because it is disabled or was not started, nothing is
walked.
-/

namespace AkesoDlp.Agent

open Lib DiscoverScanner

section

variable (platform : Platform) (fs : FileSystem)

/-! ## The call and what it should do -/

/-- The action is none of another execution, and no stop. -/
def ThreadAction.during (thread : Nat) : ThreadAction → Bool
  | .start _ _ | .stop => false
  | .statement other => other == thread
  | _ => true

/-- Every eligible file is visited, and handed to the callback or skipped as unchanged; and
the result counts the regular files. -/
structure ScanComplete (config : DiscoverConfig) (e : RemoteExecution) : Prop where
  visited : ∀ file ∈ requested fs e.params,
    Eligible platform (remoteConfig config e.params) file → file ∈ e.scan.visited.map Prod.fst
  covered : ∀ visit ∈ e.scan.visited,
    Eligible platform (remoteConfig config e.params) visit.1 → HandedOrUnchanged visit.2
  examined : e.result.filesExamined = (requested fs e.params).length

/-- The statistics of the scanner are those of the execution. -/
def RemoteExecution.collecting (e : RemoteExecution) : Bool :=
  match e.pc with
  | .save | .reset | .restore | .returned => false
  | _ => true

/-- If the walk of the request begins now, the scanner runs. -/
def RemoteExecution.WalkBegins (s : DiscoverScanner) (e : RemoteExecution) : Prop :=
  e.pc = .scan → e.scan.pc = .nextDir → e.scan.dirIndex = 0 → s.running = true

/-- If a file is handed over now, there is a callback. -/
def RemoteExecution.HandsOver (s : DiscoverScanner) (e : RemoteExecution) : Prop :=
  e.pc = .scan → ∀ file, e.scan.pc = .invoke file → s.callback.isSome = true

namespace ScanThreads

/-- The scanner during the call on a thread. -/
def duringCall (thread : Nat) : TSys ScanThreads ThreadAction where
  init := fun s => ∃ params, s.threads thread = some { params := params }
  step := fun s a => if a.during thread then step platform fs s a else none

/-- The condition `ok` holds before every statement of the call. -/
def OfCall (thread : Nat) (ok : DiscoverScanner → RemoteExecution → Prop) (s : ScanThreads)
    (a : ThreadAction) : Prop :=
  a = .statement thread → ∀ e, s.threads thread = some e → ok s.scanner e

/-- The files that the scan thread counts into the statistics of the call. -/
def countedBeside (thread : Nat) (s : ScanThreads) : ThreadAction → Nat
  | .walk =>
      match s.periodic, s.threads thread with
      | some scan, some e => if e.collecting then scan.examines else 0
      | _, _ => 0
  | _ => 0

/-- The same for a run of actions. -/
def countedBesides (thread : Nat) (s : ScanThreads) : List ThreadAction → Nat
  | [] => 0
  | a :: actions =>
      s.countedBeside thread a +
        match (duringCall platform fs thread).step s a with
        | none => 0
        | some s' => countedBesides thread s' actions

/-- The walk of the call begins while the scanner runs, it hands files to a callback, and
nothing else is counted; or it does not begin, there is nothing eligible, and what else is
counted comes to the same number. -/
def CanScan (config : DiscoverConfig) (thread : Nat) (params : RemoteScanParams)
    (s : ScanThreads) (actions : List ThreadAction) : Prop :=
  let begins :=
    (duringCall platform fs thread).RunOk (OfCall thread RemoteExecution.WalkBegins) s actions
  let handsOver :=
    (duringCall platform fs thread).RunOk (OfCall thread RemoteExecution.HandsOver) s actions
  let beside := s.countedBesides platform fs thread actions
  begins ∧ handsOver ∧ beside = 0 ∨
    ¬ begins ∧ beside = (requested fs params).length ∧
      ∀ file ∈ requested fs params, ¬ Eligible platform (remoteConfig config params) file

end ScanThreads

/-! ## The scan -/

/-- No file was found without a callback. -/
def FullScan.Heard (scan : FullScan) : Prop :=
  (∀ visit ∈ scan.visited, visit.2 ≠ .unheard) ∧ ∀ file, scan.pc ≠ .tally file .unheard

theorem heard_advance (s : DiscoverScanner) (scan : FullScan) :
    (scan.advance platform fs s).2.Heard ↔
      scan.Heard ∧ ∀ file, scan.pc = .invoke file → s.callback.isSome = true := by
  obtain ⟨pc, dirIndex, rest, walked, visited⟩ := scan
  cases pc with
  | invoke file =>
      cases hcallback : s.callback with
      | none => simp [FullScan.advance, FullScan.Heard, hcallback]
      | some callback =>
          simp only [FullScan.advance, FullScan.Heard, hcallback]
          split <;> simp
  | tally file d =>
      simp only [FullScan.advance, FullScan.Heard, List.forall_mem_append,
        List.forall_mem_singleton]
      split <;> simp_all
  | _ =>
      simp only [FullScan.advance, FullScan.Heard]
      repeat' split
      all_goals simp

/-! ## The call -/

/-- The call has kept to the files and to the configuration of the request, and the scanner
has counted `n` files beside those of its scan. -/
structure CallUnderWay (config : DiscoverConfig) (s : DiscoverScanner) (e : RemoteExecution)
    (n : Nat) : Prop where
  progress : Progress platform fs config s.config e
  running : e.scan.dirIndex ≠ 0 → s.running = true
  fresh : e.pc = .save ∨ e.pc = .reset → n = 0
  counts : Counts (fun own all => own.filesExamined + n = all.filesExamined) s e

section

variable {config : DiscoverConfig} {s : DiscoverScanner} {e : RemoteExecution} {n : Nat}

theorem CallUnderWay.advance (h : CallUnderWay platform fs config s e n) :
    CallUnderWay platform fs config (e.advance platform fs s).1 (e.advance platform fs s).2 n where
  progress := progress_advance platform fs h.progress h.running
  running := by
    rw [RemoteExecution.running_advance]
    obtain ⟨params, pc, saved, scan, result⟩ := e
    cases pc with
    | scan => exact fun hindex => (scan.running_of_advance platform fs s hindex).elim h.running id
    | _ => exact h.running
  fresh := by
    obtain ⟨params, pc, saved, scan, result⟩ := e
    cases pc with
    | save => exact fun _ => h.fresh (.inl rfl)
    | scan =>
        simp only [RemoteExecution.advance]
        split <;> simp
    | _ => simp [RemoteExecution.advance]
  counts := by
    refine counts_advance platform fs (fun hreset => ?_) (fun count k hk own all heq => ?_)
      h.progress h.counts
    · rw [h.fresh (.inr hreset)]
    · rw [hk, hk, ← heq]
      omega

theorem skipped_iff_of_call (h : CallUnderWay platform fs config s e n) :
    ¬ (e.advance platform fs s).2.scan.Skipped ↔ ¬ e.scan.Skipped ∧ e.WalkBegins s := by
  obtain ⟨params, pc, saved, scan, result⟩ := e
  cases pc with
  | scan =>
      obtain ⟨hconfig, hscanning⟩ := h.progress
      have hskipped := skipped_advance platform fs hscanning hconfig
      simp only [RemoteExecution.advance, RemoteExecution.WalkBegins, hskipped]
      cases s.running <;> simp
  | _ => simp [RemoteExecution.advance, RemoteExecution.WalkBegins]

theorem heard_iff_of_call :
    (e.advance platform fs s).2.scan.Heard ↔ e.scan.Heard ∧ e.HandsOver s := by
  obtain ⟨params, pc, saved, scan, result⟩ := e
  cases pc with
  | scan =>
      simp only [RemoteExecution.advance, RemoteExecution.HandsOver, heard_advance, true_imp_iff]
  | _ => simp [RemoteExecution.advance, RemoteExecution.HandsOver]

/-- What other threads do to a call: they leave the configuration, and may start the scanner
and count. -/
theorem CallUnderWay.frame {s' : DiscoverScanner} {k : Nat}
    (h : CallUnderWay platform fs config s e n) (hconfig : s'.config = s.config)
    (hrunning : s.running = true → s'.running = true)
    (hstats : s'.stats.filesExamined = s.stats.filesExamined + k) :
    CallUnderWay platform fs config s' e (n + if e.collecting then k else 0) where
  progress := hconfig ▸ h.progress
  running hindex := hrunning (h.running hindex)
  fresh := by
    rintro (hpc | hpc)
    · simp [RemoteExecution.collecting, hpc, h.fresh (.inl hpc)]
    · simp [RemoteExecution.collecting, hpc, h.fresh (.inr hpc)]
  counts := by
    have hcounts := h.counts
    unfold Counts at hcounts ⊢
    unfold RemoteExecution.collecting
    cases hpc : e.pc with
    | save | reset => trivial
    | restore | returned => simpa [hpc] using hcounts
    | _ =>
        simp only [hpc] at hcounts
        simp only [if_true]
        omega

/-- A file that the filters let pass lacks nothing but a callback. -/
theorem heard_iff_of_filteredBy {config : DiscoverConfig} {file : FileEntry} {d : Disposition}
    (h : FilteredBy platform config file d) :
    d ≠ .unheard ↔ (Eligible platform config file → HandedOrUnchanged d) := by
  unfold FilteredBy at h
  unfold Eligible HandedOrUnchanged
  repeat' split at h
  case isFalse.isFalse.isFalse.isFalse => obtain rfl | rfl | rfl | rfl := h <;> simp_all
  case isFalse.isFalse.isTrue hlarge => simp [h, Int.not_le.mpr hlarge]
  all_goals simp_all

/-- What a returned call comes to. -/
theorem scanComplete_iff_of_call (h : CallUnderWay platform fs config s e n)
    (hreturned : e.pc = .returned) :
    ScanComplete platform fs config e ↔
      ¬ e.scan.Skipped ∧ e.scan.Heard ∧ n = 0 ∨
        e.scan.Skipped ∧ n = (requested fs e.params).length ∧
          ∀ file ∈ requested fs e.params,
            ¬ Eligible platform (remoteConfig config e.params) file := by
  obtain ⟨params, pc, saved, ⟨scanPc, dirIndex, rest, walked, visited⟩, result⟩ := e
  obtain rfl : pc = .returned := hreturned
  obtain ⟨hscanning, rfl⟩ : _ ∧ scanPc = .done := h.progress
  have hresult : visited.length + n = result.filesExamined := by
    rw [← (counts_statsOf visited).1]
    exact h.counts
  rcases hscanning with hunwalked | hwalking
  · obtain rfl : dirIndex = 0 := hunwalked.dirIndex
    obtain rfl : visited = [] := hunwalked.visited
    have hskipped : FullScan.Skipped ⟨.done, 0, rest, walked, []⟩ := ⟨rfl, by simp⟩
    rw [List.length_nil, Nat.zero_add] at hresult
    simp only [hskipped, not_true, false_and, false_or, true_and]
    constructor
    · intro hcomplete
      refine ⟨hresult.trans hcomplete.examined, fun file hfile heligible => ?_⟩
      exact List.not_mem_nil (hcomplete.visited file hfile heligible)
    · rintro ⟨hcount, hnone⟩
      exact ⟨fun file hfile heligible => absurd heligible (hnone file hfile),
        fun visit hvisit => absurd hvisit List.not_mem_nil, hresult.symm.trans hcount⟩
  · obtain rfl : dirIndex = 1 := hwalking.dirIndex
    have hwalked : ¬ FullScan.Skipped ⟨.done, 1, rest, walked, visited⟩ := by
      simp [FullScan.Skipped]
    have hfiles : visited.map Prod.fst = requested fs params := by
      rw [← hwalking.files, List.append_nil]
    have hheard : FullScan.Heard ⟨.done, 1, rest, walked, visited⟩ ↔
        ∀ visit ∈ visited, Eligible platform (remoteConfig config params) visit.1 →
          HandedOrUnchanged visit.2 := by
      simp only [FullScan.Heard, reduceCtorEq, not_false_eq_true, implies_true, and_true, ne_eq]
      exact forall₂_congr fun visit hvisit =>
        heard_iff_of_filteredBy platform (hwalking.filtered visit hvisit)
    simp only [hwalked, not_false_eq_true, true_and, false_and, or_false, hheard]
    have hlength : (requested fs params).length = visited.length := by
      rw [← hfiles, List.length_map]
    constructor
    · intro hcomplete
      have hexamined : result.filesExamined = (requested fs params).length := hcomplete.examined
      exact ⟨hcomplete.covered, by omega⟩
    · rintro ⟨hcovered, hnone⟩
      refine ⟨fun file hfile _ => hfiles.symm ▸ hfile, hcovered, ?_⟩
      show result.filesExamined = (requested fs params).length
      omega

end

namespace ScanThreads

/-- The call on the thread is under way. -/
def CallInv (config : DiscoverConfig) (thread : Nat) (params : RemoteScanParams) (n : Nat)
    (s : ScanThreads) : Prop :=
  ∃ e, s.threads thread = some e ∧ e.params = params ∧
    CallUnderWay platform fs config s.scanner e n

variable {config : DiscoverConfig} {thread : Nat} {params : RemoteScanParams} {n : Nat}
  {s s' : ScanThreads} {a : ThreadAction} {actions : List ThreadAction}

/-- A step is a statement of the call, or leaves it where it is. -/
theorem duringCall_cases (h : CallInv platform fs config thread params n s)
    (hstep : (duringCall platform fs thread).step s a = some s') :
    (∃ e, a = .statement thread ∧ s.threads thread = some e ∧
      CallUnderWay platform fs config s.scanner e n ∧
      s' = s.set thread (e.advance platform fs s.scanner)) ∨
    (a ≠ .statement thread ∧ s'.threads = s.threads ∧
      CallInv platform fs config thread params (n + s.countedBeside thread a) s') := by
  obtain ⟨e, he, hparams, hcall⟩ := h
  obtain ⟨hduring, hstep⟩ := Option.ite_none_right_eq_some.mp hstep
  obtain ⟨other, params, rfl, -, -⟩ | ⟨other, e', rfl, he', -, rfl⟩ | ⟨scan, rfl, hscan, rfl⟩ |
    ⟨hstatement, hwalk, hthreads, hconfig, hstats, hrunning, -⟩ := step_cases platform fs hstep
  · cases hduring
  · obtain rfl := beq_iff_eq.mp hduring
    obtain rfl := Option.some.inj (he.symm.trans he')
    exact .inl ⟨e, rfl, he, hcall, rfl⟩
  · obtain ⟨count, hall, -, hexamines⟩ := scan.counted_advance platform fs s.scanner
    refine .inr ⟨by simp, rfl, e, he, hparams, ?_⟩
    have hframe := hcall.frame platform fs (scan.config_advance platform fs s.scanner)
      (fun hrunning => (scan.running_advance platform fs s.scanner).trans hrunning)
      (hall ▸ hexamines s.scanner.stats)
    simp only [countedBeside, hscan, he]
    exact hframe
  · refine .inr ⟨hstatement thread, hthreads, e, hthreads ▸ he, hparams, ?_⟩
    have hnone : s.countedBeside thread a = 0 := by
      cases a <;> simp_all [countedBeside]
    have hframe := hcall.frame platform fs hconfig (hrunning (by rintro rfl; cases hduring))
      (k := 0) (by rw [hstats]; rfl)
    rw [ite_self] at hframe
    rwa [hnone]

theorem callInv_step (h : CallInv platform fs config thread params n s)
    (hstep : (duringCall platform fs thread).step s a = some s') :
    CallInv platform fs config thread params (n + s.countedBeside thread a) s' := by
  obtain ⟨e, rfl, he, hcall, rfl⟩ | ⟨-, -, hnext⟩ := duringCall_cases platform fs h hstep
  · obtain ⟨e', he', hparams, -⟩ := h
    obtain rfl := Option.some.inj (he.symm.trans he')
    exact ⟨_, threads_set_self .., (e.params_advance ..).trans hparams, hcall.advance platform fs⟩
  · exact hnext

theorem callInv_run (h : CallInv platform fs config thread params n s)
    (hrun : (duringCall platform fs thread).run s actions = some s') :
    CallInv platform fs config thread params
      (n + s.countedBesides platform fs thread actions) s' := by
  induction actions generalizing s n with
  | nil =>
      obtain rfl := Option.some.inj hrun
      exact h
  | cons a actions ih =>
      obtain ⟨t, ht, hrest⟩ := Option.bind_eq_some_iff.mp hrun
      have hnext := ih (callInv_step platform fs h ht) hrest
      rw [Nat.add_assoc] at hnext
      simp only [countedBesides, ht]
      exact hnext

/-- What each statement of a call keeps exactly if the condition holds, the call keeps exactly
if it holds before all its statements. -/
theorem run_iff_ofCall {ok : DiscoverScanner → RemoteExecution → Prop}
    {R : RemoteExecution → Prop}
    (hR : ∀ {s e n}, CallUnderWay platform fs config s e n →
      (R (e.advance platform fs s).2 ↔ R e ∧ ok s e))
    (h : CallInv platform fs config thread params n s)
    (hrun : (duringCall platform fs thread).run s actions = some s') :
    (∀ e, s'.threads thread = some e → R e) ↔
      (∀ e, s.threads thread = some e → R e) ∧
        (duringCall platform fs thread).RunOk (OfCall thread ok) s actions := by
  refine TSys.run_iff_runOk_of_inv (I := fun s => ∃ n, CallInv platform fs config thread params n s)
    (P := fun s => ∀ e, s.threads thread = some e → R e)
    (fun s a s' ⟨n, h⟩ hstep => ⟨_, callInv_step platform fs h hstep⟩) ?_ ⟨n, h⟩ hrun
  rintro s a s' ⟨n, h⟩ hstep
  obtain ⟨e, rfl, he, hcall, rfl⟩ | ⟨hother, hthreads, -⟩ := duringCall_cases platform fs h hstep
  · simp only [threads_set_self, OfCall, he, Option.some.injEq, forall_eq', true_imp_iff]
    exact hR hcall
  · simp only [hthreads, OfCall, hother, false_imp_iff, and_true]

/-- A call that has returned is complete exactly under the condition. -/
theorem scanComplete_iff {e : RemoteExecution}
    (hstart : s.threads thread = some { params := params })
    (hrun : (duringCall platform fs thread).run s actions = some s')
    (he : s'.threads thread = some e) (hreturned : e.pc = .returned) :
    ScanComplete platform fs s.scanner.config e ↔
      CanScan platform fs s.scanner.config thread params s actions := by
  have hinit : CallInv platform fs s.scanner.config thread params 0 s :=
    ⟨_, hstart, rfl, ⟨⟨rfl, rfl⟩, by simp, fun _ => rfl, trivial⟩⟩
  obtain ⟨e', he', hparams, hcall⟩ := callInv_run platform fs hinit hrun
  obtain rfl := Option.some.inj (he.symm.trans he')
  have hbegins := run_iff_ofCall platform fs (R := fun e => ¬ e.scan.Skipped)
    (skipped_iff_of_call platform fs) hinit hrun
  have hhands := run_iff_ofCall platform fs (R := fun e => e.scan.Heard)
    (fun _ => heard_iff_of_call platform fs) hinit hrun
  simp only [he, hstart, Option.some.injEq, forall_eq'] at hbegins hhands
  have hfirst : ¬ FullScan.Skipped {} := by simp [FullScan.Skipped]
  have hsilent : FullScan.Heard {} := by simp [FullScan.Heard]
  rw [scanComplete_iff_of_call platform fs hcall hreturned, CanScan, hparams, Nat.zero_add, hhands,
    ← not_not (a := e.scan.Skipped), hbegins]
  simp only [hfirst, hsilent, true_and, not_false_eq_true, not_not]

end ScanThreads

end

namespace ScanThreads

/-- A scanner on which `Start` was called, with a request on the first thread. -/
def requestedThreads (config : DiscoverConfig) : ScanThreads where
  scanner := start { config := config, callback := some fun _ => true } (some [])
  threads := fun thread => if thread = 0 then some { params := sampleRequest } else none

/-- The scan thread walks before the call. -/
def callAfterWalk : List ThreadAction :=
  .beginWalk :: List.replicate 3 .walk ++ List.replicate 20 (.statement 0)

theorem run_callAfterWalk :
    ∃ s' e, (duringCall samplePlatform sampleFs 0).run
        (requestedThreads sampleThreads.scanner.config) callAfterWalk = some s' ∧
      s'.threads 0 = some e ∧ e.pc = .returned ∧ e.params = sampleRequest ∧
      e.scan.visited = [(sampleFile, .scanned)] ∧ e.result.filesExamined = 1 :=
  ⟨_, _, rfl, rfl, by decide, by decide, by decide, by decide⟩

/-- With periodic scanning enabled and no walk beside the call the result is complete. -/
theorem scanComplete_callAfterWalk :
    ∃ s' e, (duringCall samplePlatform sampleFs 0).run
        (requestedThreads sampleThreads.scanner.config) callAfterWalk = some s' ∧
      s'.threads 0 = some e ∧
      ScanComplete samplePlatform sampleFs sampleThreads.scanner.config e ∧
      CanScan samplePlatform sampleFs sampleThreads.scanner.config 0 sampleRequest
        (requestedThreads sampleThreads.scanner.config) callAfterWalk := by
  obtain ⟨s', e, hrun, he, hreturned, hparams, hvisited, hexamined⟩ := run_callAfterWalk
  have hcomplete : ScanComplete samplePlatform sampleFs sampleThreads.scanner.config e := by
    refine ⟨fun file hfile _ => ?_, fun visit hvisit _ => ?_, ?_⟩
    · rw [hparams] at hfile
      rw [hvisited]
      exact hfile
    · rw [hvisited, List.mem_singleton] at hvisit
      exact .inl (hvisit ▸ rfl)
    · rw [hexamined, hparams]
      rfl
  exact ⟨s', e, hrun, he, hcomplete,
    (scanComplete_iff samplePlatform sampleFs rfl hrun he hreturned).mp hcomplete⟩

theorem run_disabled :
    ∃ s' e, (duringCall samplePlatform sampleFs 0).run (requestedThreads {})
        (List.replicate 9 (.statement 0)) = some s' ∧
      s'.threads 0 = some e ∧ e.pc = .returned ∧ e.params = sampleRequest ∧
      e.result.filesExamined = 0 :=
  ⟨_, _, rfl, rfl, by decide, by decide, by decide⟩

/-- With periodic scanning disabled a remote scan examines nothing. -/
theorem not_scanComplete_disabled :
    ¬ ∀ (s s' : ScanThreads) (actions : List ThreadAction) (e : RemoteExecution),
      s.threads 0 = some { params := sampleRequest } →
        (duringCall samplePlatform sampleFs 0).run s actions = some s' →
          s'.threads 0 = some e → e.pc = .returned →
            ScanComplete samplePlatform sampleFs s.scanner.config e := by
  intro h
  obtain ⟨s', e, hrun, he, hreturned, hparams, hexamined⟩ := run_disabled
  have hcount := (h _ s' _ e rfl hrun he hreturned).examined
  rw [hexamined, hparams] at hcount
  exact absurd hcount (by decide)

end ScanThreads

end AkesoDlp.Agent
