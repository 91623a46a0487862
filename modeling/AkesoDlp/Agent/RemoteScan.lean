import AkesoDlp.Agent.StdString
import Mathlib.Data.List.Basic

/-!
# The `run_discover` command on the agent

The command callback of `main.cpp`: it reads the parameters of the command and
splits the extensions at commas with `std::getline`, keeping the pieces that
are not empty.
-/

namespace AkesoDlp.Agent

/-- `DiscoverScanner::RemoteScanParams`, with the defaults of the header. -/
structure RemoteScanParams where
  discoverId : StdString
  scanPath : StdString
  recursive : Bool := true
  fileExtensions : List StdString := []
  pathExclusions : List StdString := []
deriving DecidableEq, Repr

/-- The byte `','`. -/
def comma : UInt8 := 44

/-- The results of `while (std::getline(ss, ext, ','))`; `ext` are the bytes of
the piece being read. At the end of the stream the last piece counts only if it
has a byte. -/
def getlines (ext : StdString) : StdString → List StdString
  | [] => if ext = [] then [] else [ext]
  | b :: rest => if b = comma then ext :: getlines [] rest else getlines (ext ++ [b]) rest

/-- The pieces that are pushed to `rp.file_extensions`. -/
def splitExtensions (s : StdString) : List StdString :=
  (getlines [] s).filter (· ≠ [])

/-- The command callback: `none` where it starts no scan. -/
def runDiscoverCommand (commandType : StdString) (params : List (StdString × StdString)) :
    Option RemoteScanParams :=
  if commandType = str "run_discover" then
    match params.lookup (str "discover_id"), params.lookup (str "scan_path") with
    | some discoverId, some scanPath =>
        some {
          discoverId := discoverId
          scanPath := scanPath
          fileExtensions :=
            match params.lookup (str "file_extensions") with
            | some exts => if exts = [] then [] else splitExtensions exts
            | none => [] }
    | _, _ => none
  else none

theorem filter_getlines_append (ext u v : StdString) :
    (getlines ext (u ++ comma :: v)).filter (· ≠ []) =
      (getlines ext u).filter (· ≠ []) ++ (getlines [] v).filter (· ≠ []) := by
  induction u generalizing ext with
  | nil =>
      simp only [List.nil_append, getlines, if_true, List.filter_cons]
      by_cases hext : ext = [] <;> simp [hext]
  | cons b u ih =>
      rw [List.cons_append]
      simp only [getlines]
      split
      · rw [List.filter_cons, List.filter_cons, ih]
        split <;> simp
      · exact ih _

/-- A comma separates pieces whatever stands around it. -/
theorem splitExtensions_append (u v : StdString) :
    splitExtensions (u ++ comma :: v) = splitExtensions u ++ splitExtensions v :=
  filter_getlines_append [] u v

theorem comma_notMem_getlines {ext s : StdString} (hext : comma ∉ ext) :
    ∀ w ∈ getlines ext s, comma ∉ w := by
  induction s generalizing ext with
  | nil =>
      intro w hw
      rw [getlines] at hw
      split at hw
      · cases hw
      · rw [List.mem_singleton.mp hw]
        exact hext
  | cons b s ih =>
      intro w hw
      rw [getlines] at hw
      split at hw
      · rcases List.mem_cons.mp hw with rfl | hrest
        · exact hext
        · exact ih List.not_mem_nil w hrest
      · next hb =>
          refine ih (fun hmem => ?_) w hw
          rcases List.mem_append.mp hmem with h | h
          · exact hext h
          · exact hb (List.mem_singleton.mp h).symm

/-- Every piece is an extension without a comma, and not empty. -/
theorem mem_splitExtensions {s w : StdString} (h : w ∈ splitExtensions s) :
    w ≠ [] ∧ comma ∉ w := by
  obtain ⟨hmem, hne⟩ := List.mem_filter.mp h
  exact ⟨by simpa using hne, comma_notMem_getlines List.not_mem_nil w hmem⟩

theorem getlines_of_notMem {ext s : StdString} (hs : comma ∉ s) (hne : ext ++ s ≠ []) :
    getlines ext s = [ext ++ s] := by
  induction s generalizing ext with
  | nil =>
      rw [List.append_nil] at hne ⊢
      rw [getlines, if_neg hne]
  | cons b s ih =>
      rw [List.mem_cons, not_or] at hs
      rw [getlines, if_neg (Ne.symm hs.1), ih hs.2 (by simp), List.append_assoc]
      rfl

/-- A piece that is one already stays as it is. -/
theorem splitExtensions_of_notMem {s : StdString} (hs : comma ∉ s) (hne : s ≠ []) :
    splitExtensions s = [s] := by
  have hline : getlines [] s = [s] := getlines_of_notMem hs hne
  rw [splitExtensions, hline]
  simp [hne]

end AkesoDlp.Agent
