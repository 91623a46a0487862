import AkesoDlp.Server.PyPath
import Mathlib.Algebra.Order.BigOperators.Group.List
import Mathlib.Algebra.Ring.Nat

/-!
# Summary and trend reports

Summaries count the incidents of a period. The trend report compares a period with the one
that ends a second before it begins, so that there is a gap between the two.
-/

namespace AkesoDlp.Server.Reports

open Inspector (PyStr py)

/-- A `datetime`, in microseconds from the first of January of the year 1. -/
structure Datetime where
  micros : Int
  inRange : 0 ≤ micros ∧ micros < 3652059 * 86400000000
deriving DecidableEq

instance : LE Datetime := ⟨fun t u => t.micros ≤ u.micros⟩

instance (t u : Datetime) : Decidable (t ≤ u) := inferInstanceAs (Decidable (t.micros ≤ u.micros))

theorem Datetime.le_iff {t u : Datetime} : t ≤ u ↔ t.micros ≤ u.micros := Iff.rfl

/-- The difference with a `timedelta`, in microseconds; out of range it raises
`OverflowError`. -/
def Datetime.minus (t : Datetime) (delta : Int) : Option Datetime :=
  if h : 0 ≤ t.micros - delta ∧ t.micros - delta < 3652059 * 86400000000 then some ⟨_, h⟩ else none

structure IncidentRecord where
  id : PyStr
  policyName : PyStr
  severity : PyStr
  status : PyStr
  channel : PyStr
  sourceType : PyStr
  user : Option PyStr := none
  fileName : Option PyStr := none
  actionTaken : PyStr := py "log"
  matchCount : Int := 0
  createdAt : Datetime

structure AggregationBucket where
  key : PyStr
  count : Nat
deriving DecidableEq, Repr

structure SummaryReport where
  startDate : Datetime
  endDate : Datetime
  totalIncidents : Nat
  bySeverity : List AggregationBucket
  byPolicy : List AggregationBucket
  byChannel : List AggregationBucket
  byStatus : List AggregationBucket
  bySourceType : List AggregationBucket
  topUsers : List AggregationBucket

structure TrendDelta where
  metric : PyStr
  currentValue : Nat
  previousValue : Nat
  delta : Int
deriving DecidableEq, Repr

structure TrendReport where
  currentPeriod : SummaryReport
  previousPeriod : SummaryReport
  deltas : List TrendDelta

/-! ## Summaries -/

/-- `key or "unknown"`. -/
def orUnknown (key : Option PyStr) : PyStr :=
  match key with
  | none | some [] => py "unknown"
  | some k => k

/-- `counts[k] = counts.get(k, 0) + 1`, in a dictionary in the order of insertion. -/
def bump (k : PyStr) : List AggregationBucket → List AggregationBucket
  | [] => [⟨k, 1⟩]
  | b :: counts => if b.key = k then ⟨k, b.count + 1⟩ :: counts else b :: bump k counts

def aggregate (incidents : List IncidentRecord) (keyFn : IncidentRecord → Option PyStr) :
    List AggregationBucket :=
  let counts := incidents.foldl (fun counts i => bump (orUnknown (keyFn i)) counts) []
  counts.mergeSort fun a b => b.count ≤ a.count

/-- `start_date <= i.created_at <= end_date`. -/
def Within (startDate endDate : Datetime) (i : IncidentRecord) : Prop :=
  startDate ≤ i.createdAt ∧ i.createdAt ≤ endDate

instance (startDate endDate : Datetime) : DecidablePred (Within startDate endDate) := fun _ =>
  inferInstanceAs (Decidable (_ ∧ _))

def generateSummary (incidents : List IncidentRecord) (startDate endDate : Datetime) :
    SummaryReport :=
  let filtered := incidents.filter (Within startDate endDate)
  { startDate
    endDate
    totalIncidents := filtered.length
    bySeverity := aggregate filtered fun i => some i.severity
    byPolicy := aggregate filtered fun i => some i.policyName
    byChannel := aggregate filtered fun i => some i.channel
    byStatus := aggregate filtered fun i => some i.status
    bySourceType := aggregate filtered fun i => some i.sourceType
    topUsers := aggregate filtered fun i => i.user }

/-! ## The trend -/

def findBucketCount (buckets : List AggregationBucket) (key : PyStr) : Nat :=
  match buckets.find? (·.key = key) with
  | some b => b.count
  | none => 0

def computeDelta (metric : PyStr) (current previous : Nat) : TrendDelta :=
  ⟨metric, current, previous, current - previous⟩

def severityOrder : List PyStr := [py "critical", py "high", py "medium", py "low", py "info"]

/-- The deltas of the severities that occur. -/
def severityDeltas (current previous : SummaryReport) : List TrendDelta :=
  severityOrder.filterMap fun sev =>
    let currCount := findBucketCount current.bySeverity sev
    let prevCount := findBucketCount previous.bySeverity sev
    if currCount > 0 ∨ prevCount > 0 then
      some (computeDelta (py "severity_" ++ sev) currCount prevCount)
    else none

def generateTrend (incidents : List IncidentRecord) (currentStart currentEnd : Datetime) :
    Option TrendReport := do
  let periodLength := currentEnd.micros - currentStart.micros
  let previousEnd ← currentStart.minus 1000000
  let previousStart ← previousEnd.minus periodLength
  let current := generateSummary incidents currentStart currentEnd
  let previous := generateSummary incidents previousStart previousEnd
  let total := computeDelta (py "total_incidents") current.totalIncidents previous.totalIncidents
  return ⟨current, previous, total :: severityDeltas current previous⟩

/-! ## What is counted -/

/-- The incident is one of those that the summary counts. -/
def SummaryReport.Covers (s : SummaryReport) (i : IncidentRecord) : Prop :=
  Within s.startDate s.endDate i

instance (s : SummaryReport) : DecidablePred s.Covers := fun _ =>
  inferInstanceAs (Decidable (_ ∧ _))

def SummaryReport.breakdowns (s : SummaryReport) : List (List AggregationBucket) :=
  [s.bySeverity, s.byPolicy, s.byChannel, s.byStatus, s.bySourceType, s.topUsers]

/-- The total is the number of the incidents of the period, and all breakdowns add up to it. -/
structure SummaryReport.Sound (incidents : List IncidentRecord) (s : SummaryReport) : Prop where
  total : s.totalIncidents = incidents.countP s.Covers
  sums : ∀ buckets ∈ s.breakdowns, (buckets.map AggregationBucket.count).sum = s.totalIncidents

/-- Both summaries are sound, their periods have the same length, and what lies between the
beginning of the first and the end of the second is in one of them only. -/
structure TrendReport.CountsOnce (incidents : List IncidentRecord) (r : TrendReport) : Prop where
  current : r.currentPeriod.Sound incidents
  previous : r.previousPeriod.Sound incidents
  equalLength : r.currentPeriod.endDate.micros - r.currentPeriod.startDate.micros =
    r.previousPeriod.endDate.micros - r.previousPeriod.startDate.micros
  once : ∀ i ∈ incidents, Within r.previousPeriod.startDate r.currentPeriod.endDate i →
    Xor (r.currentPeriod.Covers i) (r.previousPeriod.Covers i)

section

variable (currentStart currentEnd : Datetime)

/-- There is a report, and it counts every incident once. -/
def TrendCountsOnce (incidents : List IncidentRecord) : Prop :=
  ∃ r, generateTrend incidents currentStart currentEnd = some r ∧ r.CountsOnce incidents

/-- The period of the same length that ends a second before the current one. -/
def previousStartMicros : Int :=
  currentStart.micros - 1000000 - (currentEnd.micros - currentStart.micros)

/-- The previous period lies within what a `datetime` can hold. -/
def PreviousInRange : Prop :=
  1000000 ≤ currentStart.micros ∧ 0 ≤ previousStartMicros currentStart currentEnd ∧
    previousStartMicros currentStart currentEnd < 3652059 * 86400000000

/-- The incident lies in the last second before the current period, without its beginning. -/
def InGap (i : IncidentRecord) : Prop :=
  currentStart.micros - 1000000 < i.createdAt.micros ∧ i.createdAt.micros < currentStart.micros ∧
    previousStartMicros currentStart currentEnd ≤ i.createdAt.micros ∧
      i.createdAt.micros ≤ currentEnd.micros

instance : Decidable (PreviousInRange currentStart currentEnd) :=
  inferInstanceAs (Decidable (_ ∧ _ ∧ _))

instance : DecidablePred (InGap currentStart currentEnd) := fun _ =>
  inferInstanceAs (Decidable (_ ∧ _ ∧ _ ∧ _))

end

theorem sum_bump (k : PyStr) (counts : List AggregationBucket) :
    ((bump k counts).map AggregationBucket.count).sum =
      (counts.map AggregationBucket.count).sum + 1 := by
  induction counts with
  | nil => rfl
  | cons b counts ih =>
      rw [bump]
      split
      · rw [List.map_cons, List.map_cons, List.sum_cons, List.sum_cons, Nat.add_right_comm]
      · rw [List.map_cons, List.map_cons, List.sum_cons, List.sum_cons, ih, Nat.add_assoc]

theorem sum_foldl_bump (keyFn : IncidentRecord → PyStr) (incidents : List IncidentRecord)
    (counts : List AggregationBucket) :
    ((incidents.foldl (fun counts i => bump (keyFn i) counts) counts).map
      AggregationBucket.count).sum =
        (counts.map AggregationBucket.count).sum + incidents.length := by
  induction incidents generalizing counts with
  | nil => rfl
  | cons i incidents ih =>
      rw [List.foldl_cons, ih, sum_bump, List.length_cons]
      omega

/-- The counts of a breakdown add up to the number of incidents. -/
theorem sum_aggregate (incidents : List IncidentRecord) (keyFn : IncidentRecord → Option PyStr) :
    ((aggregate incidents keyFn).map AggregationBucket.count).sum = incidents.length := by
  have hperm := (List.mergeSort_perm
    (incidents.foldl (fun counts i => bump (orUnknown (keyFn i)) counts) [])
    fun a b => decide (b.count ≤ a.count)).map AggregationBucket.count
  rw [aggregate, hperm.sum_eq, sum_foldl_bump fun i => orUnknown (keyFn i)]
  exact Nat.zero_add _

theorem generateSummary_sound (incidents : List IncidentRecord) (startDate endDate : Datetime) :
    (generateSummary incidents startDate endDate).Sound incidents where
  total := (List.countP_eq_length_filter).symm
  sums := by
    intro buckets hbuckets
    simp only [SummaryReport.breakdowns, generateSummary, List.mem_cons, List.not_mem_nil,
      or_false] at hbuckets
    rcases hbuckets with rfl | rfl | rfl | rfl | rfl | rfl <;> exact sum_aggregate _ _

theorem Datetime.minus_eq_some {t u : Datetime} {delta : Int} :
    t.minus delta = some u ↔ u.micros = t.micros - delta := by
  unfold Datetime.minus
  split
  · rw [Option.some.injEq, eq_comm, Datetime.mk.injEq]
  · next h =>
      refine iff_of_false nofun fun hu => h ?_
      rw [← hu]
      exact u.inRange

section trend

variable {incidents : List IncidentRecord} {currentStart currentEnd : Datetime}

/-- Two subtractions, and two summaries. -/
theorem generateTrend_eq_some {r : TrendReport}
    (h : generateTrend incidents currentStart currentEnd = some r) :
    ∃ previousStart previousEnd : Datetime,
      previousEnd.micros = currentStart.micros - 1000000 ∧
      previousStart.micros = previousStartMicros currentStart currentEnd ∧
      r.currentPeriod = generateSummary incidents currentStart currentEnd ∧
      r.previousPeriod = generateSummary incidents previousStart previousEnd := by
  obtain ⟨previousEnd, hend, h⟩ := Option.bind_eq_some_iff.mp h
  obtain ⟨previousStart, hstart, h⟩ := Option.bind_eq_some_iff.mp h
  rw [Datetime.minus_eq_some] at hend hstart
  rw [hend] at hstart
  cases h
  exact ⟨previousStart, previousEnd, hend, hstart, rfl, rfl⟩

theorem exists_generateTrend (h : PreviousInRange currentStart currentEnd)
    (incidents : List IncidentRecord) :
    ∃ r, generateTrend incidents currentStart currentEnd = some r := by
  obtain ⟨hsecond, hlow, hhigh⟩ := h
  have hrange := currentStart.inRange
  have hend : currentStart.minus 1000000 =
      some ⟨currentStart.micros - 1000000, by omega, by omega⟩ :=
    Datetime.minus_eq_some.mpr rfl
  have hstart : Datetime.minus ⟨currentStart.micros - 1000000, by omega, by omega⟩
      (currentEnd.micros - currentStart.micros) =
        some ⟨previousStartMicros currentStart currentEnd, hlow, hhigh⟩ :=
    Datetime.minus_eq_some.mpr rfl
  refine ⟨_, Option.bind_eq_some_iff.mpr ⟨_, hend, Option.bind_eq_some_iff.mpr ⟨_, hstart, rfl⟩⟩⟩

theorem previousInRange_of_trend {r : TrendReport}
    (h : generateTrend incidents currentStart currentEnd = some r) :
    PreviousInRange currentStart currentEnd := by
  obtain ⟨previousStart, previousEnd, hend, hstart, -, -⟩ := generateTrend_eq_some h
  have hendRange := previousEnd.inRange
  have hstartRange := previousStart.inRange
  exact ⟨by omega, by omega, by omega⟩

/-- A trend report counts every incident once exactly if its previous period exists and no
incident falls into the second between the two periods. -/
theorem trendCountsOnce_iff (incidents : List IncidentRecord) (currentStart currentEnd : Datetime) :
    TrendCountsOnce currentStart currentEnd incidents ↔
      PreviousInRange currentStart currentEnd ∧
        ∀ i ∈ incidents, ¬ InGap currentStart currentEnd i := by
  constructor
  · rintro ⟨r, hr, honce⟩
    refine ⟨previousInRange_of_trend hr, fun i hi hgap => ?_⟩
    obtain ⟨previousStart, previousEnd, hend, hstart, hcurrent, hprevious⟩ :=
      generateTrend_eq_some hr
    obtain ⟨hafter, hbefore, hlow, hhigh⟩ := hgap
    have hxor := honce.once i hi
    rw [hcurrent, hprevious] at hxor
    simp only [generateSummary, SummaryReport.Covers, Within, Datetime.le_iff] at hxor
    rcases hxor ⟨by omega, hhigh⟩ with ⟨hin, -⟩ | ⟨hin, -⟩ <;> omega
  · rintro ⟨hrange, hgap⟩
    obtain ⟨r, hr⟩ := exists_generateTrend hrange incidents
    obtain ⟨previousStart, previousEnd, hend, hstart, hcurrent, hprevious⟩ :=
      generateTrend_eq_some hr
    refine ⟨r, hr, ?_, ?_, ?_, ?_⟩
    · rw [hcurrent]
      exact generateSummary_sound _ _ _
    · rw [hprevious]
      exact generateSummary_sound _ _ _
    · rw [hcurrent, hprevious]
      change currentEnd.micros - currentStart.micros = previousEnd.micros - previousStart.micros
      rw [hend, hstart, previousStartMicros]
      omega
    · intro i hi hspan
      have hout := hgap i hi
      rw [hcurrent, hprevious] at *
      simp only [generateSummary, SummaryReport.Covers, Within, Datetime.le_iff, InGap, Xor,
        not_and, not_le] at *
      omega

end trend

section examples

/-- The first of March 2026, at midnight. -/
private def marchStart : Datetime := ⟨63907920000000000, by decide, by decide⟩

private def marchEnd : Datetime := ⟨63910512000000000, by decide, by decide⟩

/-- Half a second before March. -/
private def lateIncident : IncidentRecord where
  id := py "inc-0"
  policyName := py "PII Policy"
  severity := py "high"
  status := py "new"
  channel := py "email"
  sourceType := py "endpoint"
  createdAt := ⟨63907919999500000, by decide, by decide⟩

/-- The incident lies after the previous period and before the current one. -/
theorem not_trendCountsOnce_halfSecond :
    ¬ ∀ incidents currentStart currentEnd, PreviousInRange currentStart currentEnd →
      TrendCountsOnce currentStart currentEnd incidents := by
  intro h
  obtain ⟨r, hr, honce⟩ := h [lateIncident] marchStart marchEnd (by decide)
  obtain ⟨previousStart, previousEnd, hend, hstart, hcurrent, hprevious⟩ :=
    generateTrend_eq_some hr
  have hxor := honce.once lateIncident List.mem_cons_self
  rw [hcurrent, hprevious] at hxor
  simp only [generateSummary, SummaryReport.Covers, Within, Datetime.le_iff, hend, hstart] at hxor
  exact absurd (hxor (by decide)) (by decide)

end examples

end AkesoDlp.Server.Reports
