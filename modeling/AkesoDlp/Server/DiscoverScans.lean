import AkesoDlp.Lib.Paging
import AkesoDlp.Server.Discover

/-!
# The scans an agent is told to run

`list_discovers` of `services/discover_service.py` and the gRPC method
`GetDiscoverScans` over it. The method merges two queries for running scans:
one for the agent's own, one meant for those without an agent, which has no
filter on the agent at all. Both return the first page only.
-/

namespace AkesoDlp.Server.DiscoverScans

open Lib Discover

/-- A row of `discover_scans`, as listed. `createdAt` is in microseconds. -/
structure ScanRow extends DiscoverScan where
  name : String
  createdAt : Int
deriving DecidableEq, Repr

/-- The table; `id` is its primary key. -/
structure ScanTable where
  rows : List ScanRow
  nodup : (rows.map fun row => row.id).Nodup

/-- `ORDER BY created_at DESC`. -/
abbrev NewestFirst := OrderBy ScanRow fun x y => y.createdAt < x.createdAt

/-- What the driver does with the values it is given: it turns a string into a
UUID for the column `agent_id`, or raises with a message, and it compares with
`ILIKE`. The empty string is no UUID. -/
structure Driver where
  parseUuid : String → Option Uuid
  parse_empty : parseUuid "" = none
  invalidUuid : String → String
  ilike : String → String → Bool

/-- The arguments of `list_discovers`. Its caller passes the value of a member
of `DiscoverStatus`. -/
structure ListArgs where
  page : Nat := 1
  pageSize : Nat := 25
  statusFilter : Option DiscoverStatus := none
  agentId : Option String := none
  search : Option String := none

/-- An optional string that is tested with `if`. -/
def given : Option String → Option String
  | some "" => none
  | o => o

/-- The condition `agent_id == ...`, with the string as the driver sends it. -/
def agentCondition (driver : Driver) (agentId : Option String) :
    Except String (ScanRow → Bool) :=
  match given agentId with
  | none => .ok fun _ => true
  | some text =>
      match driver.parseUuid text with
      | none => .error (driver.invalidUuid text)
      | some agent => .ok fun row => row.agentId = some agent

/-- `list_discovers`: the rows of one page and the number of all rows. -/
def listDiscovers (driver : Driver) (orderBy : NewestFirst) (table : ScanTable)
    (args : ListArgs) : Except String (List ScanRow × Nat) :=
  match agentCondition driver args.agentId with
  | .error message => .error message
  | .ok ofAgent =>
      let base := table.rows.filter fun row =>
        (args.statusFilter.all fun s => row.status = s) && ofAgent row &&
          ((given args.search).all fun s => driver.ilike ("%" ++ s ++ "%") row.name)
      .ok (page args.page args.pageSize (orderBy.rows base), base.length)

/-- `pb2.DiscoverScanDef`. -/
structure DiscoverScanDef where
  discoverId : String
  name : String
  scanPath : String
  recursive : Bool
  fileExtensions : List String
  pathExclusions : List String
deriving DecidableEq, Repr

def ScanRow.scanDef (row : ScanRow) : DiscoverScanDef where
  discoverId := row.id.toStr
  name := row.name
  scanPath := row.scanPath
  recursive := row.recursive
  fileExtensions := row.fileExtensions.getD []
  pathExclusions := row.pathExclusions.getD []

/-- A response, with the details that are set next to the code `INTERNAL`. -/
structure ScansResponse where
  scans : List DiscoverScanDef
  internal : Option String
deriving DecidableEq, Repr

/-- `GetDiscoverScans`. Each of the two queries is ordered by the database on
its own. -/
def getDiscoverScans (driver : Driver) (order₁ order₂ : NewestFirst) (table : ScanTable)
    (agentId : String) : ScansResponse :=
  match listDiscovers driver order₁ table
      { statusFilter := some .running, agentId := some agentId },
    listDiscovers driver order₂ table { statusFilter := some .running } with
  | .ok (scans, _), .ok (unassigned, _) =>
      ⟨(firstSeen (fun row => row.id.toStr) [] (scans ++ unassigned)).map ScanRow.scanDef, none⟩
  | .error message, _ => ⟨[], some message⟩
  | _, .error message => ⟨[], some message⟩

/-! ## What the two queries return -/

variable (driver : Driver) (order₁ order₂ : NewestFirst) (table : ScanTable) (agentId : String)

/-- The running scans. -/
def ScanTable.running : List ScanRow :=
  table.rows.filter fun row => row.status = .running

/-- The running scans that are assigned to an agent. -/
def ScanTable.runningOf (agent : Uuid) : List ScanRow :=
  table.rows.filter fun row => row.status = .running && row.agentId = some agent

/-- How many of `rows` the database puts before a row. -/
def rank (orderBy : NewestFirst) (rows : List ScanRow) (row : ScanRow) : Nat :=
  (orderBy.rows rows).idxOf row

variable {driver order₁ order₂ table agentId}

theorem mem_running {row : ScanRow} :
    row ∈ table.running ↔ row ∈ table.rows ∧ row.status = .running := by
  simp [ScanTable.running, List.mem_filter]

theorem mem_firstPage_rows {orderBy : NewestFirst} {rows : List ScanRow} {row : ScanRow} :
    row ∈ page 1 25 (orderBy.rows rows) ↔ row ∈ rows ∧ rank orderBy rows row < 25 := by
  rw [mem_firstPage, (orderBy.perm rows).mem_iff, rank]

theorem given_some {text : String} (h : text ≠ "") : given (some text) = some text := by
  unfold given
  split
  · next heq =>
      cases heq
      exact absurd rfl h
  · rfl

theorem agentCondition_agent {agent : Uuid} (h : driver.parseUuid agentId = some agent) :
    agentCondition driver (some agentId) = .ok fun row => row.agentId = some agent := by
  have hne : agentId ≠ "" := by
    rintro rfl
    rw [driver.parse_empty] at h
    cases h
  rw [agentCondition, given_some hne]
  simp only [h]

theorem agentCondition_malformed (hne : agentId ≠ "") (h : driver.parseUuid agentId = none) :
    agentCondition driver (some agentId) = .error (driver.invalidUuid agentId) := by
  rw [agentCondition, given_some hne]
  simp only [h]

/-- The rows that `list_discovers` lists first with a filter on the status. -/
theorem listDiscovers_running {orderBy : NewestFirst} {agent : Option String}
    {ofAgent : ScanRow → Bool} (h : agentCondition driver agent = .ok ofAgent) :
    listDiscovers driver orderBy table { statusFilter := some .running, agentId := agent } =
      .ok (page 1 25 (orderBy.rows (table.running.filter ofAgent)),
        (table.running.filter ofAgent).length) := by
  have hbase : (table.rows.filter fun row =>
      (row.status = .running : Bool) && ofAgent row && true) =
      table.running.filter ofAgent := by
    rw [ScanTable.running, List.filter_filter]
    apply List.filter_congr
    intro row _
    rw [Bool.and_true, Bool.and_comm]
  simp only [listDiscovers, h, Option.all_some, given, Option.all_none, hbase]

/-! ## The agent's scans -/

/-- A running scan that this agent is to run: its own or one without an agent. -/
def Eligible (driver : Driver) (agentId : String) (row : ScanRow) : Prop :=
  row.agentId = none ∨ ∃ agent, driver.parseUuid agentId = some agent ∧ row.agentId = some agent

/-- The response lists the eligible running scans, each once, and no others. -/
structure ListsExactly (driver : Driver) (table : ScanTable) (agentId : String)
    (response : ScansResponse) : Prop where
  once : (response.scans.map fun d => d.discoverId).Nodup
  exact : ∀ d, d ∈ response.scans ↔
    ∃ row ∈ table.running, row.scanDef = d ∧ Eligible driver agentId row

/-- The merge of two first pages. -/
def merged (scans unassigned : List ScanRow) : List ScanRow :=
  firstSeen (fun row => row.id.toStr) [] (scans ++ unassigned)

theorem eq_of_toStr_eq {x y : ScanRow} (hx : x ∈ table.rows) (hy : y ∈ table.rows)
    (h : x.id.toStr = y.id.toStr) : x = y :=
  List.inj_on_of_nodup_map table.nodup hx hy (Uuid.toStr_injective h)

theorem mem_merged {scans unassigned : List ScanRow} (hs : ∀ row ∈ scans, row ∈ table.rows)
    (hu : ∀ row ∈ unassigned, row ∈ table.rows) {row : ScanRow} :
    row ∈ merged scans unassigned ↔ row ∈ scans ∨ row ∈ unassigned := by
  have hrows : ∀ x ∈ scans ++ unassigned, x ∈ table.rows := by
    intro x hx
    exact (List.mem_append.mp hx).elim (hs x) (hu x)
  rw [merged, mem_firstSeen (fun x hx y hy => eq_of_toStr_eq (hrows x hx) (hrows y hy)),
    List.mem_append]
  simp

/-- A merge of running scans lists exactly the eligible ones when each running
scan is in it if and only if it is eligible. -/
theorem listsExactly_merged_iff {scans unassigned : List ScanRow}
    (hs : ∀ row ∈ scans, row ∈ table.running) (hu : ∀ row ∈ unassigned, row ∈ table.running)
    (internal : Option String) :
    ListsExactly driver table agentId ⟨(merged scans unassigned).map ScanRow.scanDef, internal⟩ ↔
      ∀ row ∈ table.running, (row ∈ scans ∨ row ∈ unassigned) ↔ Eligible driver agentId row := by
  have hmerged : ∀ row, row ∈ merged scans unassigned ↔ row ∈ scans ∨ row ∈ unassigned :=
    fun row => mem_merged (fun r hr => (mem_running.mp (hs r hr)).1)
      (fun r hr => (mem_running.mp (hu r hr)).1)
  have hrunning : ∀ row ∈ merged scans unassigned, row ∈ table.running := fun row hrow =>
    ((hmerged row).mp hrow).elim (hs row) (hu row)
  have hinj : ∀ x ∈ table.running, ∀ y ∈ table.running, x.scanDef = y.scanDef → x = y :=
    fun x hx y hy h => eq_of_toStr_eq (mem_running.mp hx).1 (mem_running.mp hy).1
      (congrArg DiscoverScanDef.discoverId h)
  constructor
  · intro h row hrow
    rw [← hmerged]
    constructor
    · intro hin
      obtain ⟨row', hrow', hdef, heligible⟩ := (h.exact _).mp (List.mem_map_of_mem hin)
      exact hinj row' hrow' row hrow hdef ▸ heligible
    · intro heligible
      obtain ⟨row', hin, hdef⟩ := List.mem_map.mp ((h.exact _).mpr ⟨row, hrow, rfl, heligible⟩)
      exact hinj row' (hrunning row' hin) row hrow hdef ▸ hin
  · intro h
    constructor
    case once =>
      rw [List.map_map]
      exact nodup_keys_firstSeen [] (scans ++ unassigned)
    case exact =>
      intro d
      constructor
      · intro hd
        obtain ⟨row, hin, rfl⟩ := List.mem_map.mp hd
        have hrow := hrunning row hin
        exact ⟨row, hrow, rfl, (h row hrow).mp ((hmerged row).mp hin)⟩
      · rintro ⟨row, hrow, rfl, heligible⟩
        exact List.mem_map_of_mem ((hmerged row).mpr ((h row hrow).mpr heligible))

/-- When the two first pages are what the agent is to see, by the kinds of
agent id: a string that the driver refuses, no agent at all, an agent. -/
inductive PagesSuffice (driver : Driver) (order₁ order₂ : NewestFirst) (table : ScanTable)
    (agentId : String) : Prop
  | malformed (hne : agentId ≠ "") (hparse : driver.parseUuid agentId = none)
      (unassigned : ∀ row ∈ table.running, row.agentId ≠ none)
  | empty (hempty : agentId = "")
      (assigned : ∀ row ∈ table.running, row.agentId ≠ none →
        25 ≤ rank order₁ table.running row ∧ 25 ≤ rank order₂ table.running row)
      (unassigned : ∀ row ∈ table.running, row.agentId = none →
        rank order₁ table.running row < 25 ∨ rank order₂ table.running row < 25)
  | agent (agent : Uuid) (hparse : driver.parseUuid agentId = some agent)
      (foreign : ∀ row ∈ table.running, row.agentId ≠ none → row.agentId ≠ some agent →
        25 ≤ rank order₂ table.running row)
      (unassigned : ∀ row ∈ table.running, row.agentId = none →
        rank order₂ table.running row < 25)
      (own : ∀ row ∈ table.running, row.agentId = some agent →
        rank order₁ (table.runningOf agent) row < 25 ∨ rank order₂ table.running row < 25)

theorem getDiscoverScans_malformed (hne : agentId ≠ "") (h : driver.parseUuid agentId = none) :
    getDiscoverScans driver order₁ order₂ table agentId =
      ⟨[], some (driver.invalidUuid agentId)⟩ := by
  simp only [getDiscoverScans, listDiscovers, agentCondition_malformed hne h]

theorem getDiscoverScans_ok {ofAgent : ScanRow → Bool}
    (h : agentCondition driver (some agentId) = .ok ofAgent) :
    getDiscoverScans driver order₁ order₂ table agentId =
      ⟨(merged (page 1 25 (order₁.rows (table.running.filter ofAgent)))
        (page 1 25 (order₂.rows table.running))).map ScanRow.scanDef, none⟩ := by
  have hall : agentCondition driver none = .ok fun _ => true := rfl
  simp only [getDiscoverScans, listDiscovers_running h, listDiscovers_running hall,
    List.filter_true, merged]

/-- The scans that a well-formed request is answered with, by their ranks. -/
theorem listsExactly_iff_rank {ofAgent : ScanRow → Bool}
    (h : agentCondition driver (some agentId) = .ok ofAgent) :
    ListsExactly driver table agentId (getDiscoverScans driver order₁ order₂ table agentId) ↔
      ∀ row ∈ table.running,
        ((ofAgent row = true ∧ rank order₁ (table.running.filter ofAgent) row < 25) ∨
          rank order₂ table.running row < 25) ↔ Eligible driver agentId row := by
  rw [getDiscoverScans_ok h, listsExactly_merged_iff]
  · refine forall₂_congr fun row hrow => ?_
    rw [mem_firstPage_rows, mem_firstPage_rows, List.mem_filter]
    simp only [hrow, true_and]
  · intro row hrow
    exact (List.mem_filter.mp (mem_firstPage_rows.mp hrow).1).1
  · intro row hrow
    exact (mem_firstPage_rows.mp hrow).1

theorem listsExactly_malformed_iff (hne : agentId ≠ "") (h : driver.parseUuid agentId = none) :
    ListsExactly driver table agentId (getDiscoverScans driver order₁ order₂ table agentId) ↔
      ∀ row ∈ table.running, row.agentId ≠ none := by
  rw [getDiscoverScans_malformed hne h]
  constructor
  · intro hlists row hrow hunassigned
    exact absurd ((hlists.exact _).mpr ⟨row, hrow, rfl, .inl hunassigned⟩) List.not_mem_nil
  · intro hnone
    refine ⟨List.nodup_nil, fun d => ⟨fun hd => absurd hd List.not_mem_nil, ?_⟩⟩
    rintro ⟨row, hrow, -, hunassigned | ⟨agent, hagent, -⟩⟩
    · exact absurd hunassigned (hnone row hrow)
    · rw [h] at hagent
      cases hagent

theorem listsExactly_empty_iff :
    ListsExactly driver table "" (getDiscoverScans driver order₁ order₂ table "") ↔
      (∀ row ∈ table.running, row.agentId ≠ none →
        25 ≤ rank order₁ table.running row ∧ 25 ≤ rank order₂ table.running row) ∧
      ∀ row ∈ table.running, row.agentId = none →
        rank order₁ table.running row < 25 ∨ rank order₂ table.running row < 25 := by
  have hall : agentCondition driver (some "") = .ok fun _ => true := rfl
  have heligible : ∀ row, Eligible driver "" row ↔ row.agentId = none := by
    intro row
    simp [Eligible, driver.parse_empty]
  rw [listsExactly_iff_rank hall, ← forall₂_and]
  refine forall₂_congr fun row _ => ?_
  rw [heligible, List.filter_true]
  simp only [true_and]
  by_cases hnone : row.agentId = none
  · simp [hnone]
  · simp only [hnone, iff_false, not_or, Nat.not_lt, ne_eq, not_false_eq_true, true_imp_iff,
      false_imp_iff, and_true]

theorem listsExactly_agent_iff {agent : Uuid} (h : driver.parseUuid agentId = some agent) :
    ListsExactly driver table agentId (getDiscoverScans driver order₁ order₂ table agentId) ↔
      (∀ row ∈ table.running, row.agentId ≠ none → row.agentId ≠ some agent →
        25 ≤ rank order₂ table.running row) ∧
      (∀ row ∈ table.running, row.agentId = none → rank order₂ table.running row < 25) ∧
      ∀ row ∈ table.running, row.agentId = some agent →
        rank order₁ (table.runningOf agent) row < 25 ∨ rank order₂ table.running row < 25 := by
  have hrows : (table.running.filter fun row => row.agentId = some agent) =
      table.runningOf agent := by
    rw [ScanTable.running, ScanTable.runningOf, List.filter_filter]
    exact List.filter_congr fun row _ => Bool.and_comm _ _
  have heligible : ∀ row, Eligible driver agentId row ↔
      row.agentId = none ∨ row.agentId = some agent := by
    intro row
    simp [Eligible, h]
  rw [listsExactly_iff_rank (agentCondition_agent h), hrows, ← forall₂_and, ← forall₂_and]
  refine forall₂_congr fun row _ => ?_
  rw [heligible]
  cases hassigned : row.agentId with
  | none => simp
  | some other =>
      by_cases hother : other = agent
      · simp [hother]
      · simp [hother]

/-- `GetDiscoverScans` answers with the running scans that are the agent's own
or unassigned, each once and no others, if and only if the first pages of its
two queries happen to be these. -/
theorem getDiscoverScans_exact_iff (driver : Driver) (order₁ order₂ : NewestFirst)
    (table : ScanTable) (agentId : String) :
    ListsExactly driver table agentId (getDiscoverScans driver order₁ order₂ table agentId) ↔
      PagesSuffice driver order₁ order₂ table agentId := by
  constructor
  · intro h
    by_cases hempty : agentId = ""
    · subst hempty
      obtain ⟨hassigned, hunassigned⟩ := listsExactly_empty_iff.mp h
      exact .empty rfl hassigned hunassigned
    · cases hparse : driver.parseUuid agentId with
      | none => exact .malformed hempty hparse ((listsExactly_malformed_iff hempty hparse).mp h)
      | some agent =>
          obtain ⟨hforeign, hunassigned, hown⟩ := (listsExactly_agent_iff hparse).mp h
          exact .agent agent hparse hforeign hunassigned hown
  · intro h
    cases h with
    | malformed hne hparse hunassigned =>
        exact (listsExactly_malformed_iff hne hparse).mpr hunassigned
    | empty hempty hassigned hunassigned =>
        subst hempty
        exact listsExactly_empty_iff.mpr ⟨hassigned, hunassigned⟩
    | agent agent hparse hforeign hunassigned hown =>
        exact (listsExactly_agent_iff hparse).mpr ⟨hforeign, hunassigned, hown⟩

/-- A driver that knows one UUID. -/
def driverOfOne : Driver where
  parseUuid := parseTwo
  parse_empty := by decide
  invalidUuid := fun text => "invalid input for query argument $1: '" ++ text ++ "'"
  ilike := fun _ _ => false

/-- Sorting by `created_at`, rows of one time in the order of the table. -/
def sortedByCreation : NewestFirst where
  rows := fun l => l.mergeSort fun x y => y.createdAt ≤ x.createdAt
  perm := fun l => List.mergeSort_perm l _
  sorted := by
    intro l
    have hsorted : (l.mergeSort fun x y => y.createdAt ≤ x.createdAt).Pairwise
        fun x y => decide (y.createdAt ≤ x.createdAt) = true := by
      refine List.pairwise_mergeSort (fun x y z hxy hyz => ?_) (fun x y => ?_) l
      · rw [decide_eq_true_eq] at hxy hyz ⊢
        exact Int.le_trans hyz hxy
      · rw [Bool.or_eq_true, decide_eq_true_eq, decide_eq_true_eq]
        exact Int.le_total _ _
    exact hsorted.imp fun h => Int.not_lt.mpr (of_decide_eq_true h)

/-- A running scan that is assigned to agent 2. -/
def scanOfTwo : ScanRow where
  agentId := some 2
  scanPath := "/srv/finance"
  id := 9
  status := .running
  name := "finance share"
  createdAt := 0

def tableOfTwo : ScanTable where
  rows := [scanOfTwo]
  nodup := by decide

/-- Agent 1 asks for its scans and is told to run that of agent 2. -/
theorem scan_of_other_agent_listed :
    ¬ ∀ driver order₁ order₂ table agentId,
      ListsExactly driver table agentId
        (getDiscoverScans driver order₁ order₂ table agentId) := by
  intro h
  have hparsed : driverOfOne.parseUuid "00000000-0000-0000-0000-000000000001" = some 1 := by decide
  obtain ⟨hforeign, -, -⟩ := (listsExactly_agent_iff hparsed).mp
    (h driverOfOne sortedByCreation sortedByCreation tableOfTwo
      "00000000-0000-0000-0000-000000000001")
  have hrow : scanOfTwo ∈ tableOfTwo.running := mem_running.mpr ⟨List.mem_cons_self, rfl⟩
  have hlast := hforeign scanOfTwo hrow (by decide) (by decide)
  have hrank : rank sortedByCreation tableOfTwo.running scanOfTwo < tableOfTwo.running.length := by
    rw [← (sortedByCreation.perm _).length_eq]
    exact List.idxOf_lt_length_of_mem ((sortedByCreation.perm _).mem_iff.mpr hrow)
  have hlength : tableOfTwo.running.length = 1 := by decide
  omega

end AkesoDlp.Server.DiscoverScans
