import AkesoDlp.Agent.DiscoverScanner
import AkesoDlp.Lib.Components

/-!
# Excluded directories

`IsPathExcluded` asks whether the path begins with the text of an excluded directory. That
text may end in the middle of a component, and a directory may be spelled in other ways.
-/

namespace AkesoDlp.Agent

open Lib

/-- A path as it is compared: on Windows the case does not matter. -/
def foldPath (windows : Bool) (path : StdString) : StdString := if windows then lower path else path

section

variable (windows : Bool) (dir path : StdString)

/-- `path` is the directory `dir` or lies below it. -/
def LiesIn : Prop :=
  Contains (isSeparator windows) (foldPath windows dir) (foldPath windows path)

/-- The text of `path` begins with that of `dir`. -/
def BeginsWith : Prop := foldPath windows dir <+: foldPath windows path

/-- A component of `path`, or its root, ends where the text of `dir` does. -/
def DirEndsAtComponent : Prop :=
  EndsAtComponent (isSeparator windows) (foldPath windows dir)
    ((foldPath windows path).drop (foldPath windows dir).length)

/-- `path` lies in `dir` and begins with it as it is written. -/
def WrittenOut : Prop := BeginsWith windows dir path ∧ DirEndsAtComponent windows dir path

/-- The text of `dir` ends in the middle of a component of `path`. -/
def CutsComponent : Prop := BeginsWith windows dir path ∧ ¬ DirEndsAtComponent windows dir path

/-- `path` lies in `dir` and is written with other separators, or more or fewer of them. -/
def SpelledOtherwise : Prop := LiesIn windows dir path ∧ ¬ BeginsWith windows dir path

instance : Decidable (LiesIn windows dir path) := inferInstanceAs (Decidable (Contains _ _ _))

instance : Decidable (BeginsWith windows dir path) := inferInstanceAs (Decidable (_ <+: _))

instance : Decidable (DirEndsAtComponent windows dir path) :=
  inferInstanceAs (Decidable (EndsAtComponent _ _ _))

instance : Decidable (WrittenOut windows dir path) := inferInstanceAs (Decidable (_ ∧ _))

instance : Decidable (CutsComponent windows dir path) := inferInstanceAs (Decidable (_ ∧ _))

instance : Decidable (SpelledOtherwise windows dir path) := inferInstanceAs (Decidable (_ ∧ _))

end

/-- Whether some excluded directory is in a relation with the path. -/
def DiscoverConfig.SomeExclusion (config : DiscoverConfig) (rel : StdString → StdString → Prop)
    (path : StdString) : Prop :=
  ∃ dir ∈ config.pathExclusions, rel dir path

instance (config : DiscoverConfig) (rel : StdString → StdString → Prop)
    [∀ dir path, Decidable (rel dir path)] (path : StdString) :
    Decidable (config.SomeExclusion rel path) :=
  inferInstanceAs (Decidable (∃ dir ∈ config.pathExclusions, rel dir path))

variable {windows : Bool} {dir path : StdString}

theorem strnicmpEq_iff (hdir : 0 ∉ dir) (hpath : 0 ∉ path) :
    strnicmpEq path dir dir.length = true ↔ lower dir = (lower path).take dir.length := by
  have htake : 0 ∉ path.take dir.length := fun h => hpath (List.mem_of_mem_take h)
  rw [strnicmpEq, beq_iff_eq, List.take_length, cStr_eq_self htake, cStr_eq_self hdir, lower,
    List.map_take, ← lower, eq_comm]

theorem isPathExcluded_iff {platform : Platform} {config : DiscoverConfig}
    (hdirs : ∀ dir ∈ config.pathExclusions, 0 ∉ dir) (hpath : 0 ∉ path) :
    config.isPathExcluded platform path = true ↔
      config.SomeExclusion (BeginsWith platform.windows) path := by
  rw [DiscoverConfig.isPathExcluded, List.any_eq_true]
  refine exists_congr fun dir => and_congr_right fun hmem => ?_
  rw [Bool.and_eq_true, decide_eq_true_eq]
  cases platform.windows with
  | true =>
      rw [if_pos rfl, strnicmpEq_iff (hdirs dir hmem) hpath, BeginsWith, foldPath, foldPath,
        if_pos rfl, if_pos rfl, List.prefix_iff_eq_take, length_lower]
      refine and_iff_right_of_imp fun heq => ?_
      have hlength := congrArg List.length heq
      rw [length_lower, List.length_take, length_lower] at hlength
      omega
  | false =>
      rw [if_neg (by simp), beq_iff_eq, BeginsWith, foldPath, foldPath, if_neg (by simp),
        if_neg (by simp), List.prefix_iff_eq_take, eq_comm (a := dir)]
      refine and_iff_right_of_imp fun heq => ?_
      have hlength := congrArg List.length heq
      rw [List.length_take] at hlength
      omega

theorem liesIn_iff_of_beginsWith (h : BeginsWith windows dir path) :
    LiesIn windows dir path ↔ DirEndsAtComponent windows dir path := by
  obtain ⟨rest, hrest⟩ := h
  rw [LiesIn, DirEndsAtComponent, ← hrest, List.drop_left, contains_append_iff]

/-- The exclusion is component-wise for a list of directories and a path exactly if one of the
directories begins the path as it is written and ends at a component; or else either none cuts
a component and none is spelled otherwise, or both happens. -/
theorem isPathExcluded_componentwise_iff (platform : Platform) (config : DiscoverConfig)
    (path : StdString) (hdirs : ∀ dir ∈ config.pathExclusions, 0 ∉ dir) (hpath : 0 ∉ path) :
    (config.isPathExcluded platform path = true ↔
        config.SomeExclusion (LiesIn platform.windows) path) ↔
      config.SomeExclusion (WrittenOut platform.windows) path ∨
        (config.SomeExclusion (CutsComponent platform.windows) path ↔
          config.SomeExclusion (SpelledOtherwise platform.windows) path) := by
  have hbegins : config.SomeExclusion (BeginsWith platform.windows) path ↔
      config.SomeExclusion (WrittenOut platform.windows) path ∨
        config.SomeExclusion (CutsComponent platform.windows) path := by
    rw [DiscoverConfig.SomeExclusion, DiscoverConfig.SomeExclusion, DiscoverConfig.SomeExclusion,
      ← exists_or]
    refine exists_congr fun dir => ?_
    rw [← and_or_left, WrittenOut, CutsComponent, ← and_or_left]
    exact and_congr_right fun _ => (and_iff_left (em _)).symm
  have hlies : config.SomeExclusion (LiesIn platform.windows) path ↔
      config.SomeExclusion (WrittenOut platform.windows) path ∨
        config.SomeExclusion (SpelledOtherwise platform.windows) path := by
    rw [DiscoverConfig.SomeExclusion, DiscoverConfig.SomeExclusion, DiscoverConfig.SomeExclusion,
      ← exists_or]
    refine exists_congr fun dir => ?_
    rw [← and_or_left, WrittenOut, SpelledOtherwise]
    refine and_congr_right fun _ => ?_
    by_cases hdir : BeginsWith platform.windows dir path
    · simp [hdir, liesIn_iff_of_beginsWith hdir]
    · simp [hdir]
  rw [isPathExcluded_iff hdirs hpath, hbegins, hlies]
  tauto

section examples

/-- A Windows build with one excluded directory. -/
private def windowsBuild : Platform where
  windows := true
  fileOwner _ := []
  formatFileTime _ := []

private def tempExcluded : DiscoverConfig where
  pathExclusions := [str "C:\\Temp"]

theorem isPathExcluded_below :
    tempExcluded.isPathExcluded windowsBuild (str "c:\\TEMP\\plan.txt") = true ↔
      tempExcluded.SomeExclusion (LiesIn true) (str "c:\\TEMP\\plan.txt") :=
  (isPathExcluded_componentwise_iff windowsBuild tempExcluded (str "c:\\TEMP\\plan.txt")
    (by decide) (by decide)).mpr (.inl (by decide))

/-- The files of a sibling directory are excluded with it. -/
theorem not_isPathExcluded_componentwise :
    ¬ ∀ platform config path, (∀ dir ∈ config.pathExclusions, 0 ∉ dir) → 0 ∉ path →
      (DiscoverConfig.isPathExcluded platform config path = true ↔
        config.SomeExclusion (LiesIn platform.windows) path) := by
  intro h
  have hexact := h windowsBuild tempExcluded (str "C:\\Templates\\plan.txt") (by decide) (by decide)
  exact absurd (hexact.mp (by decide)) (by decide)

end examples

end AkesoDlp.Agent
