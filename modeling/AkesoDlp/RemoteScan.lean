import AkesoDlp.Agent.RemoteScan
import AkesoDlp.Server.Discover

/-!
# A remote scan request over the wire

`trigger_discover` writes the scan into a map of strings, the agent reads it
back. A string map is sent as UTF-8, so the agent sees the bytes of every key
and value.
-/

namespace AkesoDlp

open Agent (StdString RemoteScanParams str str_injective str_append splitExtensions comma
  runDiscoverCommand)
open Server.Discover

/-- The parameters as the agent receives them. -/
def wire (parameters : List (String × String)) : List (StdString × StdString) :=
  parameters.map fun (k, v) => (str k, str v)

/-- What the agent makes of the command for a scan. -/
def receivedScan (scan : DiscoverScan) : Option RemoteScanParams :=
  runDiscoverCommand (str scan.command.commandType) (wire scan.command.parameters)

/-- The scan as it was defined. -/
def definedScan (scan : DiscoverScan) : RemoteScanParams where
  discoverId := str scan.id.toStr
  scanPath := str scan.scanPath
  recursive := scan.recursive
  fileExtensions := (scan.fileExtensions.getD []).map str
  pathExclusions := (scan.pathExclusions.getD []).map str

theorem lookup_wire (parameters : List (String × String)) (key : String) :
    (wire parameters).lookup (str key) = (parameters.lookup key).map str := by
  induction parameters with
  | nil => rfl
  | cons p parameters ih =>
      obtain ⟨k, v⟩ := p
      show List.lookup (str key) ((str k, str v) :: wire parameters) = _
      by_cases hk : key = k
      · subst hk
        rw [List.lookup_cons_self, List.lookup_cons_self]
        rfl
      · have hstr : str key ≠ str k := fun h => hk (str_injective h)
        rw [List.lookup_cons, List.lookup_cons, beq_false_of_ne hk, beq_false_of_ne hstr]
        exact ih

/-- Splitting a joined list splits its members. -/
theorem splitExtensions_joinComma (exts : List String) :
    splitExtensions (str (joinComma exts)) = exts.flatMap fun e => splitExtensions (str e) := by
  induction exts with
  | nil => rfl
  | cons e exts ih =>
      cases exts with
      | nil => simp [joinComma]
      | cons e' exts =>
          have hcomma : str "," = [comma] := by decide
          have hjoin : joinComma (e :: e' :: exts) = e ++ "," ++ joinComma (e' :: exts) := rfl
          rw [hjoin, str_append, str_append, hcomma, List.append_assoc, List.singleton_append,
            Agent.splitExtensions_append, ih]
          rfl

theorem lookup_listParameter (name key : String) (xs : Option (List String)) :
    (listParameter name xs).lookup key =
      if key = name ∧ xs.getD [] ≠ [] then some (joinComma (xs.getD [])) else none := by
  cases xs with
  | none => simp [listParameter]
  | some xs =>
      cases xs with
      | nil => simp [listParameter]
      | cons x xs =>
          by_cases hk : key = name <;> simp [listParameter, List.lookup_cons, hk, beq_false_of_ne]

/-- What the agent receives: the path as it was defined, the pieces of the
extensions, no exclusions, and a recursive scan. -/
theorem receivedScan_eq (scan : DiscoverScan) :
    receivedScan scan = some {
      discoverId := str scan.id.toStr
      scanPath := str scan.scanPath
      recursive := true
      fileExtensions :=
        (scan.fileExtensions.getD []).flatMap fun e => splitExtensions (str e)
      pathExclusions := [] } := by
  have hid : scan.parameters.lookup "discover_id" = some scan.id.toStr := rfl
  have hpath : scan.parameters.lookup "scan_path" = some scan.scanPath := rfl
  have hexts : scan.parameters.lookup "file_extensions" =
      if scan.fileExtensions.getD [] ≠ [] then some (joinComma (scan.fileExtensions.getD []))
      else none := by
    show List.lookup "file_extensions" (listParameter "file_extensions" scan.fileExtensions ++
      listParameter "path_exclusions" scan.pathExclusions) = _
    rw [List.lookup_append, lookup_listParameter, lookup_listParameter]
    simp
  unfold receivedScan runDiscoverCommand
  have htype : str scan.command.commandType = str "run_discover" := rfl
  rw [if_pos htype]
  simp only [DiscoverScan.command, lookup_wire, hid, hpath, hexts, Option.map_some]
  congr 2
  by_cases hne : scan.fileExtensions.getD [] = []
  · simp [hne]
  · rw [if_pos hne, Option.map_some]
    simp only []
    split
    · next hempty =>
        rw [← splitExtensions_joinComma, hempty]
        rfl
    · exact splitExtensions_joinComma _

/-- The pieces of a list of extensions are the list when every extension is a
piece. -/
theorem flatMap_splitExtensions_eq_iff (exts : List String) :
    (exts.flatMap fun e => splitExtensions (str e)) = exts.map str ↔
      ∀ e ∈ exts, e ≠ "" ∧ ',' ∉ e.toList := by
  have hpiece : ∀ e : String, (str e ≠ [] ∧ comma ∉ str e) ↔ (e ≠ "" ∧ ',' ∉ e.toList) := by
    intro e
    rw [Ne, Agent.str_eq_nil, Agent.ascii_mem_str (by decide)]
    refine and_congr_right fun _ => not_congr ⟨?_, fun h => ⟨',', h, rfl⟩⟩
    rintro ⟨c, hc, hval⟩
    have : c = ',' := Char.toNat_inj.mp hval
    exact this ▸ hc
  constructor
  · intro h e he
    rw [← hpiece]
    have hmem : str e ∈ exts.flatMap fun e => splitExtensions (str e) :=
      h ▸ List.mem_map_of_mem he
    obtain ⟨e', -, he'⟩ := List.mem_flatMap.mp hmem
    exact Agent.mem_splitExtensions he'
  · intro h
    rw [List.flatMap_congr (g := fun e => [str e])]
    · induction exts with
      | nil => rfl
      | cons e exts ih =>
          rw [List.forall_mem_cons] at h
          simp [ih h.2]
    · intro e he
      obtain ⟨hne, hcomma⟩ := (hpiece e).mpr (h e he)
      exact Agent.splitExtensions_of_notMem hcomma hne

/-- A scan request survives the wire exactly when the scan is recursive, excludes
no path, and has only non-empty extensions without commas. -/
theorem receivedScan_eq_definedScan_iff (scan : DiscoverScan) :
    receivedScan scan = some (definedScan scan) ↔
      scan.recursive = true ∧ scan.pathExclusions.getD [] = [] ∧
        ∀ e ∈ scan.fileExtensions.getD [], e ≠ "" ∧ ',' ∉ e.toList := by
  rw [receivedScan_eq, definedScan, Option.some.injEq, RemoteScanParams.mk.injEq,
    ← flatMap_splitExtensions_eq_iff, eq_comm (a := true), eq_comm (a := []), List.map_eq_nil_iff]
  simp only [true_and]
  tauto

/-- A scan that must not descend into directories. -/
def flatScan : DiscoverScan where
  agentId := none
  scanPath := "/srv/share"
  recursive := false
  pathExclusions := some ["/srv/share/tmp"]
  id := 9
  status := .pending

/-- The agent scans the whole tree. -/
theorem flatScan_changed : ¬ ∀ scan, receivedScan scan = some (definedScan scan) := by
  intro h
  have hrecursive := congrArg (Option.map RemoteScanParams.recursive) (h flatScan)
  rw [receivedScan_eq] at hrecursive
  cases hrecursive

end AkesoDlp
