import AkesoDlp.Agent.StdString
import AkesoDlp.Lib.Loop
import Mathlib.Data.List.Infix

/-!
# The skip lists of the driver

`AkesoShouldSkipFile` compares the extension of a file with a list and slides each path of
another list along the name, two bytes at a time. Offsets and lengths are 16-bit counts of
bytes, so the search is a loop on a `USHORT` whose addition wraps.
-/

namespace AkesoDlp.Agent.DriverFilter

/-! ## Strings of the kernel -/

/-- A `UNICODE_STRING`: its characters, whose bytes a `USHORT` can count. -/
structure UnicodeString where
  units : List UInt16
  fits : 2 * units.length < 65536

/-- The field `Length`, in bytes. -/
def UnicodeString.length (s : UnicodeString) : UInt16 := .ofNat (2 * s.units.length)

/-- The characters of a wide literal in ASCII. -/
def wide (s : String) : List UInt16 := (str s).map UInt8.toUInt16

/-- `RTL_CONSTANT_STRING`. -/
def rtlConstantString (s : String) (fits : 2 * (wide s).length < 65536 := by decide) :
    UnicodeString :=
  ⟨wide s, fits⟩

/-- What is used of the kernel: `RtlUpcaseUnicodeChar`, and `RtlEqualUnicodeString` told to
ignore case, on the characters of two strings. -/
structure Kernel where
  upcase : UInt16 → UInt16
  equal : List UInt16 → List UInt16 → Bool

/-- Strings are equal when they are so in upper case. -/
def Kernel.IgnoresCase (kernel : Kernel) : Prop :=
  ∀ s t, kernel.equal s t = true ↔ s.map kernel.upcase = t.map kernel.upcase

/-- The characters in the bytes from `offset` on, if these are the bytes of characters in the
buffer of the string. -/
def UnicodeString.slice (s : UnicodeString) (offset length : UInt16) : Option (List UInt16) :=
  if offset.toNat % 2 = 0 ∧ offset.toNat + length.toNat ≤ 2 * s.units.length then
    some ((s.units.drop (offset.toNat / 2)).take (length.toNat / 2))
  else none

/-! ## The sliding comparison -/

/-- The loop at an offset, ended, or after a read outside the buffer of the name. -/
inductive SearchState
  | comparing (offset : UInt16)
  | ended (found : Bool)
  | outside
deriving DecidableEq, Repr

section

variable (kernel : Kernel) (name entry : UnicodeString)

/-- `maxOffset`. -/
def maxOffset : UInt16 := name.length - entry.length

/-- A turn of the loop. -/
def next : SearchState → Option SearchState
  | .comparing offset =>
      if offset ≤ maxOffset name entry then
        match name.slice offset entry.length with
        | some slice =>
            if kernel.equal slice entry.units then some (.ended true)
            else some (.comparing (offset + 2))
        | none => some .outside
      else some (.ended false)
  | .ended _ => none
  | .outside => none

/-- Where the loop begins; the test before it lets no shorter name through. -/
def start : SearchState :=
  if entry.length ≤ name.length then .comparing 0 else .ended false

/-- The states of the search for an entry in a name. -/
def search : Lib.TSys SearchState Unit :=
  Lib.Loop.system (next kernel name entry) (start name entry)

/-- Enough turns for every name. -/
def turnLimit : Nat := name.units.length + 2

def searchResult : SearchState :=
  Lib.Loop.turns (next kernel name entry) (turnLimit name) (start name entry)

end

/-! ## The function -/

/-- What is read of `FLT_FILE_NAME_INFORMATION`. -/
structure NameInfo where
  name : UnicodeString
  extension : UnicodeString

/-- `SkippedExtensions`. -/
def skippedExtensions : List UnicodeString := [
  rtlConstantString "evtx",
  rtlConstantString "etl",
  rtlConstantString "LOG1",
  rtlConstantString "LOG2",
  rtlConstantString "regtrans-ms",
  rtlConstantString "blf",
  rtlConstantString "tmp",
  rtlConstantString "TMP",
  rtlConstantString "pf",
  rtlConstantString "db-wal",
  rtlConstantString "db-shm",
  rtlConstantString "db-journal",
  rtlConstantString "automaticDestinations-ms",
  rtlConstantString "log",
  rtlConstantString "lnk",
  rtlConstantString "aodl",
  rtlConstantString "lock",
  rtlConstantString "dat",
  rtlConstantString "jtx",
  rtlConstantString "edb",
  rtlConstantString "srd",
  rtlConstantString "srd-wal",
  rtlConstantString "srd-shm",
  rtlConstantString "jfm",
  rtlConstantString "chk",
  rtlConstantString "tbres"]

/-- `SkippedPaths`. -/
def skippedPaths : List UnicodeString := [
  rtlConstantString "\\Windows\\System32\\winevt\\",
  rtlConstantString "\\Windows\\System32\\LogFiles\\",
  rtlConstantString "\\Windows\\System32\\config\\",
  rtlConstantString "\\Windows\\System32\\sru\\",
  rtlConstantString "\\Windows\\Prefetch\\",
  rtlConstantString "\\Windows\\appcompat\\",
  rtlConstantString "\\Windows\\Temp\\",
  rtlConstantString "\\Windows\\ServiceProfiles\\",
  rtlConstantString "\\$Recycle.Bin\\",
  rtlConstantString "\\System Volume Information\\",
  rtlConstantString "\\ProgramData\\Microsoft\\Windows Defender\\",
  rtlConstantString "\\AppData\\Local\\Microsoft\\Windows\\",
  rtlConstantString "\\AppData\\Local\\ConnectedDevicesPlatform\\",
  rtlConstantString "\\AppData\\Local\\Packages\\",
  rtlConstantString "\\AppData\\Roaming\\Microsoft\\Windows\\Recent\\",
  rtlConstantString "\\AppData\\Roaming\\Microsoft\\Windows\\PowerShell\\",
  rtlConstantString "\\AppData\\Local\\Microsoft\\OneDrive\\",
  rtlConstantString "\\AppData\\Local\\Temp\\",
  rtlConstantString "\\ProgramData\\Microsoft\\Search\\",
  rtlConstantString "\\AkesoDLP\\logs\\",
  rtlConstantString "\\AkesoDLP\\queue\\",
  rtlConstantString "\\AkesoDLP\\cache\\",
  rtlConstantString "\\AkesoDLP\\Recovery\\",
  rtlConstantString "\\AppData\\Local\\Comms\\",
  rtlConstantString "\\AppData\\Local\\Microsoft\\VSApplicationInsights\\",
  rtlConstantString "\\ProgramData\\Microsoft\\Windows\\AppRepository\\",
  rtlConstantString "\\ProgramData\\Microsoft\\Windows\\DeviceMetadataCache\\",
  rtlConstantString "\\ProgramData\\Microsoft\\Network\\Downloader\\",
  rtlConstantString "\\AppData\\Roaming\\Microsoft\\Windows\\Themes\\",
  rtlConstantString "\\Windows\\System32\\Tasks\\",
  rtlConstantString "\\AppData\\Local\\Microsoft\\TokenBroker\\",
  rtlConstantString "\\AppData\\Local\\Microsoft\\Edge\\User Data",
  rtlConstantString "\\AppData\\Local\\Google\\Chrome\\User Data",
  rtlConstantString "\\AppData\\Local\\Mozilla\\Firefox\\Profiles",
  rtlConstantString "\\AppData\\Local\\BraveSoftware\\Brave-Browser\\User Data",
  rtlConstantString "\\AppData\\Local\\D3DSCache",
  rtlConstantString "\\ProgramData\\Microsoft\\Windows\\WER\\",
  rtlConstantString "\\AppData\\LocalLow\\Microsoft\\CryptnetUrlCache\\",
  rtlConstantString "\\AkesoEDR\\",
  rtlConstantString "\\.git\\"]

section

variable (kernel : Kernel)

/-- The loop over the paths; nothing is returned after a read outside the name. -/
def pathFound (name : UnicodeString) : List UnicodeString → Option Bool
  | [] => some false
  | entry :: rest =>
      match searchResult kernel name entry with
      | .ended true => some true
      | .ended false => pathFound name rest
      | _ => none

/-- `AkesoShouldSkipFile`. -/
def akesoShouldSkipFile (nameInfo : NameInfo) : Option Bool :=
  if 0 < nameInfo.extension.length ∧
      skippedExtensions.any fun entry => kernel.equal nameInfo.extension.units entry.units then
    some true
  else if 0 < nameInfo.name.length then pathFound kernel nameInfo.name skippedPaths
  else some false

end

/-! ## Lengths -/

@[simp] theorem UnicodeString.toNat_length (s : UnicodeString) :
    s.length.toNat = 2 * s.units.length := by
  rw [UnicodeString.length, UInt16.toNat_ofNat']
  exact Nat.mod_eq_of_lt s.fits

theorem UnicodeString.length_le_iff {s t : UnicodeString} :
    s.length ≤ t.length ↔ s.units.length ≤ t.units.length := by
  rw [UInt16.le_iff_toNat_le, toNat_length, toNat_length]
  omega

theorem UnicodeString.length_pos_iff {s : UnicodeString} : 0 < s.length ↔ s.units ≠ [] := by
  rw [UInt16.lt_iff_toNat_lt, toNat_length, ← List.length_pos_iff]
  show 0 < 2 * s.units.length ↔ 0 < s.units.length
  omega

variable {kernel : Kernel} {name entry : UnicodeString}

theorem toNat_maxOffset (h : entry.units.length ≤ name.units.length) :
    (maxOffset name entry).toNat = 2 * (name.units.length - entry.units.length) := by
  rw [maxOffset, UInt16.toNat_sub_of_le _ _ (UnicodeString.length_le_iff.mpr h),
    UnicodeString.toNat_length, UnicodeString.toNat_length]
  omega

/-- The offsets of the loop are those of the places with room for the entry. -/
theorem le_maxOffset_iff {offset : UInt16} {place : Nat} (hoffset : offset.toNat = 2 * place)
    (h : entry.units.length ≤ name.units.length) :
    offset ≤ maxOffset name entry ↔ place + entry.units.length ≤ name.units.length := by
  rw [UInt16.le_iff_toNat_le, toNat_maxOffset h, hoffset]
  omega

/-- What is compared at a place with room for the entry. -/
theorem slice_of_le {offset : UInt16} {place : Nat} (hoffset : offset.toNat = 2 * place)
    (hroom : place + entry.units.length ≤ name.units.length) :
    name.slice offset entry.length =
      some ((name.units.drop place).take entry.units.length) := by
  have hinside : offset.toNat % 2 = 0 ∧
      offset.toNat + entry.length.toNat ≤ 2 * name.units.length := by
    rw [UnicodeString.toNat_length]
    omega
  rw [UnicodeString.slice, if_pos hinside, hoffset, UnicodeString.toNat_length,
    Nat.mul_div_cancel_left _ Nat.two_pos, Nat.mul_div_cancel_left _ Nat.two_pos]

/-- A nonempty entry leaves room in the `USHORT` for the next offset. -/
theorem toNat_offset_add {offset : UInt16} {place : Nat} (hoffset : offset.toNat = 2 * place)
    (hroom : place + entry.units.length ≤ name.units.length) (hentry : entry.units ≠ []) :
    (offset + 2).toNat = 2 * (place + 1) := by
  have hpos := List.length_pos_iff.mpr hentry
  have hfits := name.fits
  rw [UInt16.toNat_add, hoffset]
  show (2 * place + 2) % 2 ^ 16 = 2 * (place + 1)
  omega

/-- What a turn does at the offset of a place. -/
theorem next_comparing {offset : UInt16} {place : Nat} (hoffset : offset.toNat = 2 * place)
    (h : entry.units.length ≤ name.units.length) :
    next kernel name entry (.comparing offset) =
      some (if place + entry.units.length ≤ name.units.length then
        if kernel.equal ((name.units.drop place).take entry.units.length) entry.units then
          .ended true
        else .comparing (offset + 2)
      else .ended false) := by
  rw [next]
  by_cases hin : offset ≤ maxOffset name entry
  · have hroom := (le_maxOffset_iff hoffset h).mp hin
    rw [if_pos hin, slice_of_le hoffset hroom, if_pos hroom]
    exact (apply_ite some _ _ _).symm
  · rw [if_neg hin, if_neg fun hroom => hin ((le_maxOffset_iff hoffset h).mpr hroom)]

/-! ## The search -/

section

variable (kernel name entry)

/-- The entry stands at this place of the name, but for case. -/
def OccursAt (place : Nat) : Prop :=
  place + entry.units.length ≤ name.units.length ∧
    ((name.units.drop place).take entry.units.length).map kernel.upcase =
      entry.units.map kernel.upcase

/-- The places before the offset have been tried; the end tells whether there is one. -/
def Progress : SearchState → Prop
  | .comparing offset => ∃ place, offset.toNat = 2 * place ∧
      entry.units.length ≤ name.units.length ∧
      place ≤ name.units.length - entry.units.length + 1 ∧
      ∀ earlier < place, ¬ OccursAt kernel name entry earlier
  | .ended found => found = true ↔ ∃ place, OccursAt kernel name entry place
  | .outside => False

/-- The turns that are left at most. -/
def turnsLeft : SearchState → Nat
  | .comparing offset => turnLimit name - offset.toNat / 2
  | _ => 0

end

/-- A place of the name with the entry makes it an infix, and an infix has a place. -/
theorem exists_occursAt_iff :
    (∃ place, OccursAt kernel name entry place) ↔
      entry.units.map kernel.upcase <:+: name.units.map kernel.upcase := by
  constructor
  · rintro ⟨place, -, heq⟩
    rw [← heq]
    exact (((List.take_prefix _ _).isInfix).trans (List.drop_suffix _ _).isInfix).map _
  · rintro ⟨before, after, heq⟩
    have hlength := congrArg List.length heq
    simp only [List.length_append, List.length_map] at hlength
    refine ⟨before.length, by omega, ?_⟩
    rw [List.map_take, List.map_drop, ← heq, List.append_assoc, List.drop_left,
      List.take_left' (List.length_map _)]

theorem progress_start : Progress kernel name entry (start name entry) := by
  rw [start]
  split
  · next hle =>
      exact ⟨0, rfl, UnicodeString.length_le_iff.mp hle, Nat.zero_le _,
        fun _ h => absurd h (Nat.not_lt_zero _)⟩
  · next hle =>
      rw [UnicodeString.length_le_iff] at hle
      refine iff_of_false Bool.false_ne_true ?_
      rintro ⟨place, hroom, -⟩
      omega

/-- A turn tries one more place, or ends with the answer. -/
theorem progress_next (hequal : kernel.IgnoresCase) (hentry : entry.units ≠ [])
    {s s' : SearchState} (hs : Progress kernel name entry s)
    (hnext : next kernel name entry s = some s') :
    Progress kernel name entry s' ∧ turnsLeft name s' < turnsLeft name s := by
  cases s with
  | comparing offset =>
      obtain ⟨place, hoffset, hle, hplace, htried⟩ := hs
      have hpos := List.length_pos_iff.mpr hentry
      have hleft : 0 < turnsLeft name (.comparing offset) := by
        rw [turnsLeft, turnLimit]
        omega
      rw [next_comparing hoffset hle, Option.some.injEq] at hnext
      subst hnext
      split
      · next hroom =>
          have hcompare := hequal ((name.units.drop place).take entry.units.length) entry.units
          split
          · next hfound => exact ⟨iff_of_true rfl ⟨place, hroom, hcompare.mp hfound⟩, hleft⟩
          · next hnot =>
              have hadd := toNat_offset_add hoffset hroom hentry
              refine ⟨⟨place + 1, hadd, hle, by omega, fun earlier hearlier hoccurs => ?_⟩, ?_⟩
              · rcases Nat.lt_succ_iff_lt_or_eq.mp hearlier with hlt | rfl
                · exact htried earlier hlt hoccurs
                · exact hnot (hcompare.mpr hoccurs.2)
              · rw [turnsLeft, turnsLeft, turnLimit, hadd, hoffset]
                omega
      · next hroom =>
          refine ⟨iff_of_false Bool.false_ne_true ?_, hleft⟩
          rintro ⟨found, hfits, heq⟩
          exact htried found (by omega) ⟨hfits, heq⟩
  | ended found => cases hnext
  | outside => cases hnext

theorem progress_of_reachable (hequal : kernel.IgnoresCase) (hentry : entry.units ≠ [])
    {s : SearchState} (h : (search kernel name entry).Reachable s) :
    Progress kernel name entry s :=
  Lib.Loop.invariant progress_start
    (fun _ _ hs hnext => (progress_next hequal hentry hs hnext).1) h

/-- The search ends with the answer, after no more turns than the name has places. -/
theorem turns_search (hequal : kernel.IgnoresCase) (hentry : entry.units ≠ []) {fuel : Nat}
    (hfuel : turnLimit name ≤ fuel) :
    ∃ found, Lib.Loop.turns (next kernel name entry) fuel (start name entry) = .ended found ∧
      (search kernel name entry).Reachable (.ended found) := by
  have hreach : (search kernel name entry).Reachable
      (Lib.Loop.turns (next kernel name entry) fuel (start name entry)) :=
    Lib.Loop.reachable_turns fuel (.init rfl)
  have hleft : turnsLeft name (start name entry) ≤ fuel := by
    refine Nat.le_trans ?_ hfuel
    rw [start]
    split
    · exact Nat.sub_le _ _
    · exact Nat.zero_le _
  have hfinal := Lib.Loop.next_turns (turnsLeft name)
    (fun _ _ hs hnext => progress_next hequal hentry hs hnext) progress_start hleft
  have hprogress := progress_of_reachable hequal hentry hreach
  cases hs : Lib.Loop.turns (next kernel name entry) fuel (start name entry) with
  | comparing offset =>
      rw [hs] at hprogress hfinal
      obtain ⟨place, hoffset, hle, -, -⟩ := hprogress
      rw [next_comparing hoffset hle] at hfinal
      cases hfinal
  | ended found =>
      rw [hs] at hreach
      exact ⟨found, rfl, hreach⟩
  | outside =>
      rw [hs] at hprogress
      exact hprogress.elim

/-- The search compares only what is in the name, its offset never wraps, and it ends and
tells whether the entry is in the name. -/
structure ExactSearch (kernel : Kernel) (name entry : UnicodeString) : Prop where
  inside : ∀ offset, (search kernel name entry).Reachable (.comparing offset) →
    offset ≤ maxOffset name entry →
      offset.toNat % 2 = 0 ∧ offset.toNat + entry.length.toNat ≤ name.length.toNat
  noWrap : ∀ offset, (search kernel name entry).Reachable (.comparing offset) →
    offset ≤ maxOffset name entry → (offset + 2).toNat = offset.toNat + 2
  notOutside : ¬ (search kernel name entry).Reachable .outside
  exact : ∀ found, (search kernel name entry).Reachable (.ended found) →
    (found = true ↔ entry.units.map kernel.upcase <:+: name.units.map kernel.upcase)
  ends : ∀ fuel, turnLimit name ≤ fuel → ∃ found,
    Lib.Loop.turns (next kernel name entry) fuel (start name entry) = .ended found ∧
      (search kernel name entry).Reachable (.ended found)

theorem exactSearch (hequal : kernel.IgnoresCase) (hentry : entry.units ≠ []) :
    ExactSearch kernel name entry where
  inside offset hreach hin := by
    obtain ⟨place, hoffset, hle, -, -⟩ := progress_of_reachable hequal hentry hreach
    have hroom := (le_maxOffset_iff hoffset hle).mp hin
    rw [UnicodeString.toNat_length, UnicodeString.toNat_length]
    omega
  noWrap offset hreach hin := by
    obtain ⟨place, hoffset, hle, -, -⟩ := progress_of_reachable hequal hentry hreach
    have hroom := (le_maxOffset_iff hoffset hle).mp hin
    rw [toNat_offset_add hoffset hroom hentry, hoffset, Nat.mul_add_one]
  notOutside hreach := progress_of_reachable hequal hentry hreach
  exact found hreach :=
    (progress_of_reachable hequal hentry hreach).trans exists_occursAt_iff
  ends _ hfuel := turns_search hequal hentry hfuel

def upcaseAscii (c : UInt16) : UInt16 := if 97 ≤ c ∧ c ≤ 122 then c - 32 else c

/-- The kernel on ASCII names. -/
def asciiKernel : Kernel where
  upcase := upcaseAscii
  equal s t := decide (s.map upcaseAscii = t.map upcaseAscii)

/-- A name with the entry in it, and one that is shorter than the entry. -/
theorem exactSearch_git :
    ExactSearch asciiKernel (rtlConstantString "C:\\src\\.GIT\\config")
        (rtlConstantString "\\.git\\") ∧
      ExactSearch asciiKernel (rtlConstantString ".git") (rtlConstantString "\\.git\\") :=
  ⟨exactSearch (fun _ _ => decide_eq_true_iff) (by decide),
    exactSearch (fun _ _ => decide_eq_true_iff) (by decide)⟩

/-! ## The lists -/

theorem units_ne_nil_of_mem :
    (∀ entry ∈ skippedExtensions, entry.units ≠ []) ∧ ∀ entry ∈ skippedPaths, entry.units ≠ [] := by
  decide

theorem searchResult_eq (hequal : kernel.IgnoresCase) (hentry : entry.units ≠ []) :
    searchResult kernel name entry =
      .ended (decide (entry.units.map kernel.upcase <:+: name.units.map kernel.upcase)) := by
  obtain ⟨found, hturns, hreach⟩ :=
    turns_search hequal hentry (Nat.le_refl (turnLimit name))
  have hfound := (progress_of_reachable hequal hentry hreach).trans exists_occursAt_iff
  rw [searchResult, hturns, SearchState.ended.injEq, Bool.eq_iff_iff, hfound, decide_eq_true_iff]

theorem pathFound_eq (hequal : kernel.IgnoresCase) {entries : List UnicodeString}
    (h : ∀ entry ∈ entries, entry.units ≠ []) :
    pathFound kernel name entries = some (entries.any fun entry =>
      decide (entry.units.map kernel.upcase <:+: name.units.map kernel.upcase)) := by
  induction entries with
  | nil => rfl
  | cons entry entries ih =>
      rw [List.forall_mem_cons] at h
      rw [pathFound, searchResult_eq hequal h.1, List.any_cons]
      cases decide (entry.units.map kernel.upcase <:+: name.units.map kernel.upcase) with
      | true => rfl
      | false => exact ih h.2

/-- A file is skipped exactly for its extension or for a path that is in its name, both but
for case, and a verdict is always reached. -/
theorem akesoShouldSkipFile_iff (hequal : kernel.IgnoresCase) (nameInfo : NameInfo) :
    ∃ skip, akesoShouldSkipFile kernel nameInfo = some skip ∧
      (skip = true ↔
        (∃ entry ∈ skippedExtensions,
          nameInfo.extension.units.map kernel.upcase = entry.units.map kernel.upcase) ∨
        ∃ entry ∈ skippedPaths,
          entry.units.map kernel.upcase <:+: nameInfo.name.units.map kernel.upcase) := by
  have hextension : (0 < nameInfo.extension.length ∧ (skippedExtensions.any fun entry =>
        kernel.equal nameInfo.extension.units entry.units) = true) ↔
      ∃ entry ∈ skippedExtensions,
        nameInfo.extension.units.map kernel.upcase = entry.units.map kernel.upcase := by
    rw [List.any_eq_true, UnicodeString.length_pos_iff]
    simp only [hequal _ _]
    refine and_iff_right_of_imp ?_
    rintro ⟨entry, hmem, heq⟩ hnil
    rw [hnil, List.map_nil] at heq
    exact units_ne_nil_of_mem.1 entry hmem (List.map_eq_nil_iff.mp heq.symm)
  rw [akesoShouldSkipFile, ← hextension]
  split
  · next hskip => exact ⟨true, rfl, iff_of_true rfl (.inl hskip)⟩
  · next hnot =>
      rw [or_iff_right hnot, pathFound_eq hequal units_ne_nil_of_mem.2]
      split
      · refine ⟨_, rfl, ?_⟩
        simp only [List.any_eq_true, decide_eq_true_iff]
      · next hempty =>
          rw [UnicodeString.length_pos_iff, not_not] at hempty
          refine ⟨false, rfl, iff_of_false Bool.false_ne_true ?_⟩
          rintro ⟨entry, hmem, hinfix⟩
          rw [hempty, List.map_nil, List.infix_nil, List.map_eq_nil_iff] at hinfix
          exact units_ne_nil_of_mem.2 entry hmem hinfix

end AkesoDlp.Agent.DriverFilter
