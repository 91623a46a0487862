import AkesoDlp.Lib.Csv
import AkesoDlp.Lib.Utf8
import AkesoDlp.Server.ReportGenerator

/-!
# Detail reports and CSV exports

A detail report lists the incidents of a period, the newest first. The exports write reports
with `csv.writer`, and the responses carry them as UTF-8 behind a byte order mark.
-/

namespace AkesoDlp.Server.Reports

open Lib
open Inspector (PyStr py decimal strInt)

/-! ## The detail report -/

structure DetailReport where
  startDate : Datetime
  endDate : Datetime
  totalIncidents : Nat
  incidents : List IncidentRecord

def generateDetail (incidents : List IncidentRecord) (startDate endDate : Datetime) :
    DetailReport :=
  let filtered := (incidents.filter (Within startDate endDate)).mergeSort
    fun a b => b.createdAt ≤ a.createdAt
  { startDate
    endDate
    totalIncidents := filtered.length
    incidents := filtered }

/-! ## The exports -/

/-- The dialect of `csv.writer`. -/
def excel : Csv Char where
  delimiter := ','
  quote := '"'
  cr := '\r'
  lf := '\n'
  nodup := by decide

/-- How Python writes dates and the rounded percentages. -/
structure Texts where
  isoformat : Datetime → PyStr
  /-- `str(t.date())`. -/
  date : Datetime → PyStr
  /-- `round((count / total) * 100, 1)`, or `0.0` without incidents. -/
  percentage (count total : Nat) : PyStr
  /-- The change between two values, with its sign. -/
  change (current previous : Nat) : PyStr

/-- `"\ufeff"`. -/
def bom : Char := Char.ofNat 0xFEFF

def detailHeader : List PyStr :=
  [py "ID", py "Policy", py "Severity", py "Status", py "Channel", py "Source Type", py "User",
    py "File Name", py "Action Taken", py "Match Count", py "Created At"]

section

variable (texts : Texts)

def detailRow (inc : IncidentRecord) : List PyStr :=
  [inc.id, inc.policyName, inc.severity, inc.status, inc.channel, inc.sourceType,
    inc.user.getD [], inc.fileName.getD [], inc.actionTaken, strInt inc.matchCount,
    texts.isoformat inc.createdAt]

def detailRows (report : DetailReport) : List (List PyStr) :=
  detailHeader :: report.incidents.map (detailRow texts)

def exportDetailCsv (report : DetailReport) : PyStr :=
  bom :: excel.write (detailRows texts report)

/-- The dates of a period. -/
def periodText (report : SummaryReport) : PyStr :=
  texts.date report.startDate ++ py " to " ++ texts.date report.endDate

def sections (report : SummaryReport) : List (PyStr × List AggregationBucket) :=
  [(py "By Severity", report.bySeverity), (py "By Policy", report.byPolicy),
    (py "By Channel", report.byChannel), (py "By Status", report.byStatus),
    (py "By Source Type", report.bySourceType), (py "Top Users", report.topUsers)]

def sectionRows (total : Nat) (title : PyStr) (buckets : List AggregationBucket) :
    List (List PyStr) :=
  [title] :: [py "Category", py "Count", py "Percentage"] ::
    buckets.map (fun b => [b.key, decimal b.count, texts.percentage b.count total ++ py "%"]) ++
      [[]]

def summaryRows (report : SummaryReport) : List (List PyStr) :=
  [[py "Summary Report"], [py "Period", periodText texts report],
    [py "Total Incidents", decimal report.totalIncidents], []] ++
      (sections report).flatMap fun s => sectionRows texts report.totalIncidents s.1 s.2

def exportSummaryCsv (report : SummaryReport) : PyStr :=
  bom :: excel.write (summaryRows texts report)

/-- `str.title` on ASCII; `inWord` tells whether the last character is a letter. -/
def titleFrom (inWord : Bool) : PyStr → PyStr
  | [] => []
  | c :: s =>
      (if c.isAlpha then (if inWord then c.toLower else c.toUpper) else c) ::
        titleFrom c.isAlpha s

def metricTitle (metric : PyStr) : PyStr :=
  titleFrom false (metric.map fun c => if c = '_' then ' ' else c)

def deltaRow (d : TrendDelta) : List PyStr :=
  [metricTitle d.metric, decimal d.currentValue, decimal d.previousValue,
    (if 0 < d.delta then py "+" else []) ++ strInt d.delta,
    texts.change d.currentValue d.previousValue ++ py "%"]

def trendRows (report : TrendReport) : List (List PyStr) :=
  [[py "Trend Report"], [py "Current Period", periodText texts report.currentPeriod],
    [py "Previous Period", periodText texts report.previousPeriod], [],
    [py "Metric", py "Current", py "Previous", py "Delta", py "Change %"]] ++
      report.deltas.map (deltaRow texts)

def exportTrendCsv (report : TrendReport) : PyStr :=
  bom :: excel.write (trendRows texts report)

end

example : metricTitle (py "severity_critical") = py "Severity Critical" := by decide

/-- The body of the response. -/
def csvResponse (content : PyStr) : List UInt8 := Utf8.encode content

/-- What opens the download makes of it. -/
def openCsv (body : List UInt8) : Option (List (List PyStr)) :=
  (Utf8.decodeStrict body).map fun text =>
    excel.read (if text.head? = some bom then text.tail else text)

/-! ## What is downloaded -/

theorem openCsv_csvResponse (rows : List (List PyStr)) :
    openCsv (csvResponse (bom :: excel.write rows)) = some rows := by
  rw [openCsv, csvResponse, Utf8.decodeStrict_encode, Option.map_some, List.head?_cons,
    if_pos rfl, List.tail_cons, Csv.read_write]

/-- The incidents of the period, the newest first, and those of one time as they came. -/
structure DetailReport.Lists (incidents : List IncidentRecord) (r : DetailReport) : Prop where
  total : r.totalIncidents = r.incidents.length
  each : r.incidents.Perm (incidents.filter (Within r.startDate r.endDate))
  newestFirst : r.incidents.Pairwise fun a b => b.createdAt ≤ a.createdAt
  stable : ∀ t, r.incidents.filter (·.createdAt = t) =
    (incidents.filter (Within r.startDate r.endDate)).filter (·.createdAt = t)

theorem generateDetail_lists (incidents : List IncidentRecord) (startDate endDate : Datetime) :
    (generateDetail incidents startDate endDate).Lists incidents := by
  let newer : IncidentRecord → IncidentRecord → Bool := fun a b => b.createdAt ≤ a.createdAt
  have htrans : ∀ a b c, newer a b → newer b c → newer a c := by
    intro a b c hab hbc
    simp only [newer, decide_eq_true_eq, Datetime.le_iff] at *
    omega
  have htotal : ∀ a b, newer a b || newer b a := by
    intro a b
    simp only [newer, Bool.or_eq_true, decide_eq_true_eq, Datetime.le_iff]
    omega
  have hperm := List.mergeSort_perm (incidents.filter (Within startDate endDate)) newer
  refine ⟨rfl, hperm, ?_, fun t => ?_⟩
  · exact (List.pairwise_mergeSort htrans htotal _).imp fun h => of_decide_eq_true h
  · -- those of one time are in order, and so a sublist of the sorted list
    have hsame : ((incidents.filter (Within startDate endDate)).filter
        (·.createdAt = t)).Pairwise fun a b => newer a b := by
      refine List.pairwise_of_forall_mem_list fun a ha b hb => ?_
      have hat := of_decide_eq_true (List.mem_filter.mp ha).2
      have hbt := of_decide_eq_true (List.mem_filter.mp hb).2
      refine decide_eq_true ?_
      rw [hat, hbt]
      exact Int.le_refl _
    have hsub := (List.sublist_mergeSort htrans htotal hsame List.filter_sublist).filter
      (·.createdAt = t)
    rw [List.filter_filter] at hsub
    simp only [Bool.and_self] at hsub
    exact (hsub.eq_of_length (hperm.filter _).length_eq.symm).symm

/-- Whatever characters the values contain, the downloads open as the rows that were written:
the detail report as one row for each incident of the period and no other, the newest first. -/
theorem exports_open (texts : Texts) (incidents : List IncidentRecord)
    (startDate endDate : Datetime) (summary : SummaryReport) (trend : TrendReport) :
    let detail := generateDetail incidents startDate endDate
    openCsv (csvResponse (exportDetailCsv texts detail)) =
        some (detailHeader :: detail.incidents.map (detailRow texts)) ∧
      detail.Lists incidents ∧
      openCsv (csvResponse (exportSummaryCsv texts summary)) = some (summaryRows texts summary) ∧
      openCsv (csvResponse (exportTrendCsv texts trend)) = some (trendRows texts trend) :=
  ⟨openCsv_csvResponse _, generateDetail_lists incidents startDate endDate,
    openCsv_csvResponse _, openCsv_csvResponse _⟩

end AkesoDlp.Server.Reports
