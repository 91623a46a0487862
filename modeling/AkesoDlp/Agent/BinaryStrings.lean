import AkesoDlp.Agent.ClipboardDetection
import AkesoDlp.Lib.Runs

/-!
# The strings of a binary file

`ContentExtractor::ExtractBinaryStrings` finds the maximal runs of printable bytes that are
long enough. A run is a pair of the places where it starts and ends in the data.
-/

namespace AkesoDlp.Agent.ContentExtractor

open Lib (IsRun runs runsFrom)

/-- The spans are the maximal runs of printable bytes of at least this length, from left to
right. -/
structure LongRuns (least : Nat) (data : StdString) (spans : List (Nat × Nat)) : Prop where
  mem_iff : ∀ span, span ∈ spans ↔ IsRun isPrintable data span ∧ least ≤ span.2 - span.1
  ordered : spans.Pairwise fun a b => a.2 < b.1

/-- A run as it stands in the text: a newline follows unless the data ends with the run. -/
def runLine (data : StdString) (span : Nat × Nat) : StdString :=
  data.extract span.1 span.2 ++ if span.2 = data.length then [] else [10]

/-- The result holds exactly the long runs, and is a failure exactly if there are none. -/
def ExtractsRuns (options : ExtractionOptions) (data : StdString) (result : MemberResult) : Prop :=
  ∃ spans, LongRuns options.minStringRun data spans ∧
    result.text = spans.flatMap (runLine data) ∧ (result.success = false ↔ spans = [])

def isLong (least : Nat) (span : Nat × Nat) : Bool := decide (least ≤ span.2 - span.1)

theorem longRuns_filter (least : Nat) (data : StdString) :
    LongRuns least data ((runs isPrintable data).filter (isLong least)) where
  mem_iff span := by
    rw [List.mem_filter, Lib.mem_runs, isLong, decide_eq_true_iff]
  ordered := (Lib.runs_pairwise isPrintable data).filter _

variable {least : Nat} {data : StdString}

theorem extract_append_length {done rest : StdString} {start : Nat} :
    (done ++ rest).extract start done.length = done.drop start := by
  rw [List.extract_eq_take_drop, ← List.drop_take, List.take_left]

/-- The run that a newline or the end of the data closes. -/
theorem flatMap_closed_run (least : Nat) (done rest : StdString) (start : Nat)
    (spans : List (Nat × Nat)) :
    (((start, done.length) :: spans).filter (isLong least)).flatMap (runLine (done ++ rest)) =
      (if least ≤ (done.drop start).length then
        done.drop start ++ if rest = [] then [] else [10] else []) ++
      (spans.filter (isLong least)).flatMap (runLine (done ++ rest)) := by
  have hline : runLine (done ++ rest) (start, done.length) =
      done.drop start ++ if rest = [] then [] else [10] := by
    simp only [runLine, extract_append_length, List.length_append, left_eq_add,
      List.length_eq_zero_iff]
  rw [List.length_drop, List.filter_cons, isLong]
  by_cases hlong : least ≤ done.length - start
  · rw [if_pos hlong, if_pos (decide_eq_true hlong), List.flatMap_cons, hline]
  · rw [if_neg hlong, if_neg (by simpa using hlong), List.nil_append]

/-- The runs from a place on, the first of which begins with the open one. -/
theorem joinRuns_printableRuns (hleast : 0 < least) (done rest : StdString) (start : Option Nat)
    (hstart : start.getD done.length ≤ done.length) :
    joinRuns least
        ((printableRuns rest).modifyHead (done.drop (start.getD done.length) ++ ·)) =
      ((runsFrom isPrintable done.length start rest).filter (isLong least)).flatMap
        (runLine (done ++ rest)) := by
  induction rest generalizing done start with
  | nil =>
      rw [printableRuns, List.splitOnP_nil, List.modifyHead_cons, List.append_nil, joinRuns]
      cases start with
      | none =>
          rw [Option.getD_none, List.drop_length, List.length_nil, if_neg (by omega)]
          rfl
      | some first =>
          rw [Option.getD_some, runsFrom, flatMap_closed_run]
          simp
  | cons b rest ih =>
      have hnext : ∀ start', start'.getD (done.length + 1) ≤ done.length + 1 →
          joinRuns least ((printableRuns rest).modifyHead
              ((done ++ [b]).drop (start'.getD (done.length + 1)) ++ ·)) =
            ((runsFrom isPrintable (done.length + 1) start' rest).filter (isLong least)).flatMap
              (runLine (done ++ b :: rest)) := by
        intro start' hle
        have hstep := ih (done ++ [b]) start'
        rw [List.length_append, List.length_singleton, List.append_assoc, List.singleton_append]
          at hstep
        exact hstep hle
      by_cases hb : isPrintable b = true
      · -- the run that is open goes on, or one begins here
        have hrun : (done ++ [b]).drop (start.getD done.length) =
            done.drop (start.getD done.length) ++ [b] := List.drop_append_of_le_length hstart
        have hopen := hnext (some (start.getD done.length)) (Nat.le_succ_of_le hstart)
        rw [Option.getD_some, hrun] at hopen
        rw [printableRuns_of_printable hb, List.modifyHead_modifyHead]
        cases start <;> simpa [runsFrom, hb, Function.comp_def] using hopen
      · have hclosed := hnext none (Nat.le_refl _)
        rw [Option.getD_none, List.drop_of_length_le (by simp), modifyHead_nil_append] at hclosed
        rw [printableRuns_of_not_printable hb, List.modifyHead_cons, List.append_nil,
          joinRuns_cons (printableRuns_ne_nil rest), hclosed]
        cases start with
        | none =>
            rw [Option.getD_none, List.drop_length, List.length_nil, if_neg (by omega), runsFrom,
              if_neg hb, List.nil_append]
        | some first =>
            rw [Option.getD_some, runsFrom, if_neg hb, flatMap_closed_run,
              if_neg (List.cons_ne_nil b rest)]

/-- What `ExtractBinaryStrings` joins are the long runs. -/
theorem joinRuns_eq_lines (hleast : 0 < least) (data : StdString) :
    joinRuns least (printableRuns data) =
      ((runs isPrintable data).filter (isLong least)).flatMap (runLine data) := by
  have hruns := joinRuns_printableRuns hleast [] data none (Nat.le_refl _)
  rw [List.drop_nil, modifyHead_nil_append] at hruns
  exact hruns

/-- A run is not empty, and neither is its line. -/
theorem runLine_ne_nil {span : Nat × Nat} (h : IsRun isPrintable data span) :
    runLine data span ≠ [] := by
  obtain ⟨b, hb, -⟩ := h.holds span.1 (Nat.le_refl _) h.nonempty
  have hlt := (List.getElem?_eq_some_iff.mp hb).1
  have hlength : 0 < (data.extract span.1 span.2).length := by
    rw [List.extract_eq_take_drop, List.length_take, List.length_drop]
    have := h.nonempty
    omega
  intro hnil
  rw [runLine, List.append_eq_nil_iff] at hnil
  rw [hnil.1] at hlength
  exact Nat.lt_irrefl 0 hlength

theorem lines_eq_nil_iff {spans : List (Nat × Nat)} (h : LongRuns least data spans) :
    spans.flatMap (runLine data) = [] ↔ spans = [] := by
  rw [List.flatMap_eq_nil_iff, List.eq_nil_iff_forall_not_mem]
  exact forall₂_congr fun span hspan =>
    iff_false_intro (runLine_ne_nil ((h.mem_iff span).mp hspan).1)

variable {options : ExtractionOptions}

/-- Exactly the long runs are extracted, from any data within the size limit. -/
theorem extractBinaryStrings_extractsRuns (hleast : 0 < options.minStringRun)
    (hsize : data.length ≤ options.maxTextSize) (filename : StdString) :
    ExtractsRuns options data (extractBinaryStrings options data filename) := by
  have hlong := longRuns_filter options.minStringRun data
  refine ⟨_, hlong, ?_⟩
  by_cases hdata : data = []
  · subst hdata
    exact ⟨rfl, iff_of_true rfl rfl⟩
  · rw [extractBinaryStrings_eq hdata hsize, joinRuns_eq_lines hleast]
    split
    · next hnil =>
        rw [hnil, ← lines_eq_nil_iff hlong]
        exact ⟨rfl, iff_of_true rfl hnil⟩
    · next hne =>
        rw [← lines_eq_nil_iff hlong]
        exact ⟨rfl, iff_of_false (by simp [extractedResult]) hne⟩

/-- Two runs long enough and one too short, the last of them at the end of the data. -/
theorem extractBinaryStrings_extractsRuns_three :
    ExtractsRuns { minStringRun := 2 } [65, 66, 0, 67, 1, 68, 69, 70]
      (extractBinaryStrings { minStringRun := 2 } [65, 66, 0, 67, 1, 68, 69, 70] []) ∧
    (extractBinaryStrings { minStringRun := 2 } [65, 66, 0, 67, 1, 68, 69, 70] []).text =
      [65, 66, 10, 68, 69, 70] :=
  ⟨extractBinaryStrings_extractsRuns (by decide) (by decide) [], by decide⟩

/-- With a least length of zero every other byte makes a line: there is no run here, and the
extraction succeeds. -/
theorem not_extractsRuns_of_minStringRun_zero :
    [0].length ≤ ({ minStringRun := 0 } : ExtractionOptions).maxTextSize ∧
    ¬ ExtractsRuns { minStringRun := 0 } [0]
      (extractBinaryStrings { minStringRun := 0 } [0] []) := by
  refine ⟨by decide, ?_⟩
  rintro ⟨spans, hlong, -, hsuccess⟩
  have hnil : spans = [] := by
    rw [List.eq_nil_iff_forall_not_mem]
    intro span hspan
    have hrun := ((hlong.mem_iff span).mp hspan).1
    obtain ⟨b, hb, hprintable⟩ := hrun.holds span.1 (Nat.le_refl _) hrun.nonempty
    rw [List.mem_singleton.mp (List.mem_of_getElem? hb)] at hprintable
    exact Bool.false_ne_true hprintable
  exact absurd (hsuccess.mpr hnil) (by decide)

end AkesoDlp.Agent.ContentExtractor
