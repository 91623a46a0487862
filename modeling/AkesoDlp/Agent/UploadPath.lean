import AkesoDlp.Agent.DosPath
import AkesoDlp.Lib.Utf16
import AkesoDlp.Lib.Utf8

/-!
# The path of an uploaded file

The browser monitor turns the wide path into UTF-8 for the event. The pipeline makes a wide
path of it again by widening every byte.
-/

namespace AkesoDlp.Agent

open Lib

/-- The path of a file on Windows: well-formed UTF-16 without a NUL, not longer than the
system allows. -/
structure FilePath where
  chars : List Char
  ne_nil : chars ≠ []
  no_nul : Char.ofNat 0 ∉ chars
  length_le : (chars.flatMap Utf16.units).length ≤ 32767

/-- The path as a `std::wstring`. -/
def FilePath.wide (path : FilePath) : WString :=
  (path.chars.flatMap Utf16.units).map UInt16.ofNat

namespace BrowserUploadMonitor

/-- `WideCharToMultiByte` with `CP_UTF8`. -/
def wideToUtf8 (wide : WString) : StdString :=
  Utf8.encode (Utf16.decodeReplace (wide.map UInt16.toNat))

/-- The path of the event that `OnFileRead` passes on, if it does. -/
def eventPath (dosPath : WString) : Option StdString :=
  let utf8Path := wideToUtf8 dosPath
  if utf8Path = [] then none else some utf8Path

end BrowserUploadMonitor

namespace DetectionPipeline

/-- A `char` as a `wchar_t`. Whether `char` is signed is up to the compiler. -/
def charToWide (signed : Bool) (b : UInt8) : UInt16 :=
  if signed = true ∧ 128 ≤ b then 0xFF00 + b.toUInt16 else b.toUInt16

/-- The path that `OnBrowserUpload` gives to `CreateFileW`, up to the first NUL. -/
def openedPath (signed : Bool) (eventPath : StdString) : WString :=
  (eventPath.map (charToWide signed)).takeWhile (· != 0)

/-- What is read of the uploaded file, and scanned unless it is empty. `readFile` is what
`CreateFileW` and `ReadFile` give for a path, nothing if it cannot be read. -/
def uploadContent (signed : Bool) (readFile : WString → List UInt8) (dosPath : WString) :
    List UInt8 :=
  match BrowserUploadMonitor.eventPath dosPath with
  | none => []
  | some eventPath => readFile (openedPath signed eventPath)

end DetectionPipeline

/-- The file that is opened is the one that was uploaded, so that its content is scanned. -/
structure ScansUpload (signed : Bool) (path : FilePath) : Prop where
  opened : (BrowserUploadMonitor.eventPath path.wide).map (DetectionPipeline.openedPath signed) =
    some path.wide
  scanned : ∀ readFile,
    DetectionPipeline.uploadContent signed readFile path.wide = readFile path.wide

def FilePath.IsAscii (path : FilePath) : Prop := ∀ c ∈ path.chars, c.toNat < 128

section

variable {signed : Bool} {path : FilePath}

theorem FilePath.map_toNat_wide (path : FilePath) :
    path.wide.map UInt16.toNat = path.chars.flatMap Utf16.units := by
  rw [FilePath.wide, List.map_map]
  refine (List.map_congr_left fun unit hunit => ?_).trans (List.map_id _)
  obtain ⟨c, -, hc⟩ := List.mem_flatMap.mp hunit
  exact UInt16.toNat_ofNat_of_lt' (Utf16.lt_of_mem_units hc)

theorem wideToUtf8_wide (path : FilePath) :
    BrowserUploadMonitor.wideToUtf8 path.wide = Utf8.encode path.chars := by
  rw [BrowserUploadMonitor.wideToUtf8, path.map_toNat_wide, Utf16.decodeReplace_units]

theorem eventPath_wide (path : FilePath) :
    BrowserUploadMonitor.eventPath path.wide = some (Utf8.encode path.chars) := by
  have hne : Utf8.encode path.chars ≠ [] := by
    intro h
    have hdecode := Utf8.decodeStrict_encode path.chars
    rw [h] at hdecode
    exact path.ne_nil (Option.some.inj hdecode).symm
  rw [BrowserUploadMonitor.eventPath, wideToUtf8_wide]
  exact if_neg hne

/-- A character takes at least as many bytes as units, and more unless it is ASCII. -/
theorem length_units_le (c : Char) :
    (Utf16.units c).length ≤ (String.utf8EncodeChar c).length ∧
      (128 ≤ c.toNat → (Utf16.units c).length < (String.utf8EncodeChar c).length) := by
  have htoNat : c.toNat = c.val.toNat := rfl
  unfold Utf16.units String.utf8EncodeChar
  rw [htoNat]
  simp only []
  split_ifs <;> simp only [List.length_cons, List.length_nil] <;> omega

theorem length_flatMap_units_le (s : List Char) :
    (s.flatMap Utf16.units).length ≤ (Utf8.encode s).length ∧
      ((s.flatMap Utf16.units).length = (Utf8.encode s).length → ∀ c ∈ s, c.toNat < 128) := by
  induction s with
  | nil => exact ⟨Nat.le_refl _, fun _ => List.forall_mem_nil _⟩
  | cons c s ih =>
      obtain ⟨hle, hlt⟩ := length_units_le c
      rw [List.flatMap_cons, Utf8.encode_cons, List.length_append, List.length_append]
      refine ⟨Nat.add_le_add hle ih.1, fun heq => List.forall_mem_cons.mpr ⟨?_, ih.2 ?_⟩⟩
      · by_contra hhigh
        have hstrict := hlt (Nat.le_of_not_lt hhigh)
        omega
      · omega

theorem charToWide_eq_zero {b : UInt8} (h : DetectionPipeline.charToWide signed b = 0) : b = 0 := by
  have hb := b.toNat_lt
  have hnat := congrArg UInt16.toNat h
  unfold DetectionPipeline.charToWide at hnat
  apply UInt8.toNat_inj.mp
  split at hnat
  · rw [UInt16.toNat_add, UInt8.toNat_toUInt16] at hnat
    have hnum : (0xFF00 : UInt16).toNat = 0xFF00 ∧ (0 : UInt16).toNat = 0 := ⟨rfl, rfl⟩
    omega
  · rw [UInt8.toNat_toUInt16] at hnat
    exact hnat

/-- There is no NUL at which the path would end. -/
theorem openedPath_encode (signed : Bool) (path : FilePath) :
    DetectionPipeline.openedPath signed (Utf8.encode path.chars) =
      (Utf8.encode path.chars).map (DetectionPipeline.charToWide signed) := by
  refine List.takeWhile_eq_self_iff.mpr fun unit hunit => ?_
  obtain ⟨b, hb, rfl⟩ := List.mem_map.mp hunit
  obtain ⟨c, hc, hmem⟩ := List.mem_flatMap.mp hb
  rw [bne_iff_ne]
  intro hzero
  rw [charToWide_eq_zero hzero] at hmem
  have hnul := (Utf8.ascii_mem_utf8EncodeChar (by decide)).mp hmem
  have heq : c = Char.ofNat 0 := by
    rw [← Char.ofNat_toNat c, hnul]
    rfl
  exact path.no_nul (heq ▸ hc)

theorem charToWide_ascii {n : Nat} (h : n < 128) :
    DetectionPipeline.charToWide signed (UInt8.ofNat n) = UInt16.ofNat n := by
  have hbyte : (UInt8.ofNat n).toNat = n := UInt8.toNat_ofNat_of_lt' (h.trans (by decide))
  have hlow : ¬ (signed = true ∧ 128 ≤ UInt8.ofNat n) := by
    rintro ⟨-, hle⟩
    rw [UInt8.le_iff_toNat_le, hbyte] at hle
    have hnum : (128 : UInt8).toNat = 128 := rfl
    omega
  rw [DetectionPipeline.charToWide, if_neg hlow]
  apply UInt16.toNat_inj.mp
  rw [UInt8.toNat_toUInt16, hbyte]
  exact (UInt16.toNat_ofNat_of_lt' (h.trans (by decide))).symm

/-- The path comes back exactly if all its characters are ASCII. -/
theorem openedPath_encode_iff (signed : Bool) (path : FilePath) :
    DetectionPipeline.openedPath signed (Utf8.encode path.chars) = path.wide ↔ path.IsAscii := by
  rw [openedPath_encode, FilePath.wide]
  constructor
  · intro h
    have hlength := congrArg List.length h
    rw [List.length_map, List.length_map] at hlength
    exact (length_flatMap_units_le path.chars).2 hlength.symm
  · intro h
    rw [Utf8.encode, List.map_flatMap, List.map_flatMap]
    refine List.flatMap_congr fun c hc => ?_
    have hunits : Utf16.units c = [c.toNat] := if_pos ((h c hc).trans (by decide))
    rw [Utf8.utf8EncodeChar_ascii (h c hc), hunits, List.map_singleton, List.map_singleton,
      charToWide_ascii (h c hc)]

/-- An uploaded file is the one that is opened and scanned exactly if its path is ASCII. -/
theorem scansUpload_iff (signed : Bool) (path : FilePath) :
    ScansUpload signed path ↔ path.IsAscii := by
  rw [← openedPath_encode_iff signed path]
  constructor
  · intro h
    have hopened := h.opened
    rw [eventPath_wide, Option.map_some] at hopened
    exact Option.some.inj hopened
  · intro h
    refine ⟨?_, fun readFile => ?_⟩
    · rw [eventPath_wide, Option.map_some, h]
    · rw [DetectionPipeline.uploadContent, eventPath_wide]
      exact congrArg readFile h

end

section examples

/-- A file with an e acute in its name. -/
private def resume : FilePath where
  chars := "C:\\Users\\me\\Documents\\r\u00e9sum\u00e9.txt".toList
  ne_nil := by decide
  no_nul := by decide
  length_le := by decide

/-- Each e acute becomes two characters, and no file is found under that name. -/
theorem not_scansUpload_resume : ¬ ∀ signed path, ScansUpload signed path := by
  intro h
  have hopened := (h true resume).opened
  exact absurd hopened (by decide)

end examples

end AkesoDlp.Agent
