import AkesoDlp.Agent.StdString

/-!
# `std::filesystem::path` on Windows

Paths as the agent writes them: both slashes separate, and a path may start with
the letter of a drive.
-/

namespace AkesoDlp.Agent

def isSlash (c : UInt8) : Bool := c == 47 || c == 92

def isLetter (c : UInt8) : Bool := 97 ≤ toLower c && toLower c ≤ 122

/-- The length of a root name `X:`. -/
def driveLength : StdString → Nat
  | letter :: 58 :: _ => if isLetter letter then 2 else 0
  | _ => 0

/-- `path::filename`. -/
def filename (path : StdString) : StdString :=
  ((path.drop (driveLength path)).reverse.takeWhile fun c => !isSlash c).reverse

/-- `operator/`, for a right side without a root. -/
def pathAppend (path name : StdString) : StdString :=
  if path.length = driveLength path || (path.getLast?.any isSlash) then path ++ name
  else path ++ 92 :: name

example : filename (str "C:\\Users\\x/report.docx") = str "report.docx" := by decide

example : filename (str "d:report.docx") = str "report.docx" := by decide

theorem isLetter_of_isSlash {c : UInt8} (h : isSlash c = true) : isLetter c = false := by
  rcases Bool.or_eq_true_iff.mp h with hc | hc
  · cases eq_of_beq hc
    decide
  · cases eq_of_beq hc
    decide

theorem driveLength_of_not_isLetter {c : UInt8} (h : isLetter c = false) (path : StdString) :
    driveLength (c :: path) = 0 := by
  unfold driveLength
  split
  · next letter _ heq =>
      cases heq
      simp [h]
  · rfl

theorem driveLength_le_length (path : StdString) : driveLength path ≤ path.length := by
  unfold driveLength
  split
  · split <;> simp
  · exact Nat.zero_le _

/-- A drive is recognised by the first two bytes. -/
theorem driveLength_append {path : StdString} (h : 2 ≤ path.length) (s : StdString) :
    driveLength (path ++ s) = driveLength path := by
  obtain _ | ⟨a, _ | ⟨b, path⟩⟩ := path
  · simp at h
  · simp at h
  · unfold driveLength
    by_cases hb : b = 58
    · subst hb
      rfl
    · simp [hb]

theorem driveLength_append_of_notMem {s : StdString} (h : 58 ∉ s) (path : StdString) :
    driveLength (path ++ s) = driveLength path := by
  obtain _ | ⟨a, _ | ⟨b, path⟩⟩ := path
  · obtain _ | ⟨c, _ | ⟨d, s⟩⟩ := s
    · rfl
    · rfl
    · have hd : d ≠ 58 := by
        rintro rfl
        simp at h
      simp [driveLength, hd]
  · obtain _ | ⟨c, s⟩ := s
    · rfl
    · have hc : c ≠ 58 := by
        rintro rfl
        simp at h
      simp [driveLength, hc]
  · exact driveLength_append (by simp) s

theorem isSlash_of_mem_filename {path : StdString} {c : UInt8} (h : c ∈ filename path) :
    isSlash c = false := by
  simpa using List.mem_takeWhile_imp (List.mem_reverse.mp h)

/-- What is written after a name belongs to it, unless it has a slash or a colon. -/
theorem filename_append {s : StdString} (hslash : ∀ c ∈ s, isSlash c = false) (hcolon : 58 ∉ s)
    (path : StdString) : filename (path ++ s) = filename path ++ s := by
  rw [filename, driveLength_append_of_notMem hcolon,
    List.drop_append_of_le_length (driveLength_le_length path), List.reverse_append,
    List.takeWhile_append_of_pos, List.reverse_append, List.reverse_reverse, filename]
  intro c hc
  simp [hslash c (List.mem_reverse.mp hc)]

theorem filename_eq {path pre name : StdString} (hdrop : path.drop (driveLength path) = pre ++ name)
    (hpre : pre.getLast?.all isSlash = true) (hslash : ∀ c ∈ name, isSlash c = false) :
    filename path = name := by
  rw [filename, hdrop, List.reverse_append, List.takeWhile_append_of_pos]
  · rcases List.eq_nil_or_concat pre with rfl | ⟨front, last, rfl⟩
    · simp
    · have hlast : isSlash last = true := by simpa using hpre
      simp [hlast]
  · intro c hc
    simp [hslash c (List.mem_reverse.mp hc)]

/-- A drive ends before the first slash. -/
theorem driveLength_slash_le {slash : UInt8} (hs : isSlash slash = true) (pre name : StdString) :
    driveLength (pre ++ slash :: name) ≤ pre.length := by
  obtain _ | ⟨a, _ | ⟨b, pre⟩⟩ := pre
  · obtain _ | ⟨b, name⟩ := name
    · exact Nat.le_refl 0
    · exact (driveLength_of_not_isLetter (isLetter_of_isSlash hs) _).le
  · have hne : slash ≠ 58 := by
      rintro rfl
      cases hs
    simp [driveLength, hne]
  · rw [driveLength_append (by simp)]
    exact driveLength_le_length _

theorem filename_slash {slash : UInt8} (hs : isSlash slash = true) {name : StdString}
    (hslash : ∀ c ∈ name, isSlash c = false) (pre : StdString) :
    filename (pre ++ slash :: name) = name := by
  have hdrop : (pre ++ slash :: name).drop (driveLength (pre ++ slash :: name)) =
      (pre.drop (driveLength (pre ++ slash :: name)) ++ [slash]) ++ name := by
    rw [List.drop_append_of_le_length (driveLength_slash_le hs pre name)]
    simp
  exact filename_eq hdrop (by simp [hs]) hslash

/-- A name without a root is the name of the path that it is appended to. -/
theorem filename_pathAppend {path name : StdString} (hslash : ∀ c ∈ name, isSlash c = false)
    (hdrive : driveLength name = 0) : filename (pathAppend path name) = name := by
  rw [pathAppend]
  split
  · next hroot =>
      rw [Bool.or_eq_true, decide_eq_true_eq] at hroot
      rcases hroot with hroot | hlast
      · -- a drive or nothing, which ends where the name starts
        have hlength : driveLength (path ++ name) = path.length := by
          obtain _ | ⟨a, _ | ⟨b, path⟩⟩ := path
          · exact hdrive
          · cases hroot
          · rw [driveLength_append (by simp)]
            exact hroot.symm
        have hdrop : (path ++ name).drop (driveLength (path ++ name)) = [] ++ name := by
          rw [hlength]
          simp
        exact filename_eq hdrop rfl hslash
      · rcases List.eq_nil_or_concat path with rfl | ⟨front, last, rfl⟩
        · cases hlast
        · have hs : isSlash last = true := by simpa using hlast
          simpa using filename_slash hs hslash front
  · exact filename_slash (by decide) hslash path

end AkesoDlp.Agent
