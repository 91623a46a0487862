import AkesoDlp.Agent.StdString
import Mathlib.Data.Finset.Card
import Mathlib.Order.Interval.Finset.Nat

/-!
# From NT paths to drive letters

`BlockAction::NtPathToDosPath` and the function of that name in the browser monitor.
Both go through the drives and compare the path with the name of each device; the
monitor asks for a separator after the name, the block action does not.
-/

namespace AkesoDlp.Agent

/-- A `std::wstring`. -/
abbrev WString := List UInt16

/-- An ASCII string in wide characters. -/
def widen (s : StdString) : WString := s.map (·.toUInt16)

def IsAscii (s : StdString) : Prop := ∀ b ∈ s, b < 128

instance (s : StdString) : Decidable (IsAscii s) :=
  decidable_of_iff (s.all (· < 128) = true) (by simp [IsAscii])

/-! ## The drives -/

structure Drive where
  letter : UInt8
  device : StdString
deriving DecidableEq, Repr

/-- The drives in the order in which Windows lists them. -/
structure DriveTable where
  drives : List Drive
  letters : ∀ d ∈ drives, 65 ≤ d.letter ∧ d.letter ≤ 90
  distinct : (drives.map Drive.letter).Nodup
  ascii : ∀ d ∈ drives, IsAscii d.device ∧ 0 ∉ d.device

/-- What `GetLogicalDriveStrings` returns: the length of `X:\` and a NUL for each drive. -/
def DriveTable.stringsLength (table : DriveTable) : Nat := 4 * table.drives.length

/-- `QueryDosDevice` with a buffer of that many characters; there are two NULs after the
name. -/
def queryDosDevice (size : Nat) (d : Drive) : Option StdString :=
  if d.device.length + 2 ≤ size then some d.device else none

/-! ## The two functions -/

/-- `towlower` on ASCII. -/
def towlower (c : UInt16) : UInt16 := if 65 ≤ c ∧ c ≤ 90 then c + 32 else c

/-- `_wcsnicmp(a, b, n) == 0`: the comparison ends at a NUL. -/
def wcsnicmpEq (a b : WString) (n : Nat) : Bool :=
  ((a.take n).takeWhile (· != 0)).map towlower == ((b.take n).takeWhile (· != 0)).map towlower

namespace BlockAction

/-- The body of the loop. -/
def onDrive (ntPath : StdString) (d : Drive) : Option StdString :=
  (queryDosDevice 256 d).bind fun devicePrefix =>
    if ntPath.length > devicePrefix.length ∧
        ntPath.take devicePrefix.length = devicePrefix then
      some (d.letter :: 58 :: ntPath.drop devicePrefix.length)
    else none

def ntPathToDosPath (table : DriveTable) (ntPath : StdString) : StdString :=
  if table.stringsLength = 0 ∨ table.stringsLength > 512 then []
  else (table.drives.findSome? (onDrive ntPath)).getD []

end BlockAction

namespace BrowserUploadMonitor

/-- The body of the loop. -/
def onDrive (ntPath : WString) (d : Drive) : Option WString :=
  (queryDosDevice 260 d).bind fun deviceName =>
    let devLen := deviceName.length
    if wcsnicmpEq ntPath (widen deviceName) devLen = true ∧
        (ntPath.length = devLen ∨ ntPath[devLen]? = some 92) then
      some (d.letter.toUInt16 :: 58 :: ntPath.drop devLen)
    else none

def ntPathToDosPath (table : DriveTable) (ntPath : WString) : WString :=
  if ¬ widen (str "\\Device\\") <+: ntPath then ntPath
  else if table.stringsLength = 0 then ntPath
  else (table.drives.findSome? (onDrive ntPath)).getD (widen (str "\\\\?\\") ++ ntPath)

end BrowserUploadMonitor

/-! ## What a path begins with -/

/-- A separator follows the name of the device. -/
def EndsAtSeparator (d : Drive) (path : StdString) : Prop :=
  ∃ below, path = d.device ++ 92 :: below

/-- A path on a drive. -/
def OnDrive (path : WString) : Prop :=
  ∃ letter rest, 65 ≤ letter ∧ letter ≤ 90 ∧ path = letter :: 58 :: rest

/-- The path spells the devices as the table does. -/
def SameCase (table : DriveTable) (path : StdString) : Prop :=
  ∀ d ∈ table.drives, lower d.device <+: lower path → d.device <+: path

instance (table : DriveTable) (path : StdString) : Decidable (SameCase table path) :=
  inferInstanceAs (Decidable (∀ d ∈ table.drives, lower d.device <+: lower path → _ <+: path))

/-- A drive is only chosen for the part of the path that names its device, and it is the
one that the browser monitor chooses. -/
structure MapsRight (table : DriveTable) (path : StdString) : Prop where
  sound : ∀ d ∈ table.drives, ∀ rest,
    BlockAction.ntPathToDosPath table path = d.letter :: 58 :: rest → EndsAtSeparator d path
  agrees : OnDrive (widen (BlockAction.ntPathToDosPath table path)) ∨
      OnDrive (BrowserUploadMonitor.ntPathToDosPath table (widen path)) →
    widen (BlockAction.ntPathToDosPath table path) =
      BrowserUploadMonitor.ntPathToDosPath table (widen path)

/-- One of the two loops would end at the drive. -/
def Stops (path : StdString) (d : Drive) : Bool :=
  (BlockAction.onDrive path d).isSome || (BrowserUploadMonitor.onDrive (widen path) d).isSome

/-- The first drive that a loop may end at has a name that fits the shorter buffer and is
followed by a separator in the path. -/
def FirstEndsAtSeparator (table : DriveTable) (path : StdString) : Prop :=
  ∀ d, table.drives.find? (Stops path) = some d →
    d.device.length + 2 ≤ 256 ∧ EndsAtSeparator d path

/-! ## The loops -/

theorem toUInt16_injective : Function.Injective UInt8.toUInt16 := fun a b h => by
  have hnat := congrArg UInt16.toNat h
  rwa [UInt8.toNat_toUInt16, UInt8.toNat_toUInt16, UInt8.toNat_inj] at hnat

theorem widen_injective : Function.Injective widen := toUInt16_injective.list_map

@[simp] theorem length_widen (s : StdString) : (widen s).length = s.length := List.length_map _

@[simp] theorem widen_append (s t : StdString) : widen (s ++ t) = widen s ++ widen t :=
  List.map_append

theorem towlower_toUInt16 {b : UInt8} (h : b < 128) :
    towlower b.toUInt16 = (toLower b).toUInt16 := by
  rw [UInt8.lt_iff_toNat_lt] at h
  have hnum : (128 : UInt8).toNat = 128 := rfl
  unfold towlower toLower
  simp only [UInt16.le_iff_toNat_le, UInt8.le_iff_toNat_le, UInt8.toNat_toUInt16]
  by_cases hupper : 65 ≤ b.toNat ∧ b.toNat ≤ 90
  · rw [if_pos (by simpa using hupper), if_pos (by simpa using hupper)]
    apply UInt16.toNat_inj.mp
    rw [UInt16.toNat_add, UInt8.toNat_toUInt16, UInt8.toNat_toUInt16, UInt8.toNat_add]
    have h32 : (32 : UInt16).toNat = 32 ∧ (32 : UInt8).toNat = 32 := ⟨rfl, rfl⟩
    omega
  · rw [if_neg (by simpa using hupper), if_neg (by simpa using hupper)]

theorem map_towlower_widen {s : StdString} (h : IsAscii s) :
    (widen s).map towlower = widen (lower s) := by
  rw [widen, widen, lower, List.map_map, List.map_map]
  exact List.map_congr_left fun b hb => towlower_toUInt16 (h b hb)

theorem takeWhile_widen {s : StdString} :
    (widen s).takeWhile (· != 0) = widen (s.takeWhile (· != 0)) := by
  rw [widen, widen, List.takeWhile_map]
  congr 2
  funext b
  have h0 : (0 : UInt16) = (0 : UInt8).toUInt16 := rfl
  rw [Function.comp_apply, h0, Bool.eq_iff_iff, bne_iff_ne, bne_iff_ne, ne_eq, ne_eq,
    toUInt16_injective.eq_iff]

theorem zero_mem_lower {s : StdString} : 0 ∈ lower s ↔ 0 ∈ s := by
  have hzero {b : UInt8} : toLower b = 0 ↔ b = 0 := by
    constructor
    · intro h
      unfold toLower at h
      split at h
      · next hupper =>
          have hnat := congrArg UInt8.toNat h
          simp only [UInt8.le_iff_toNat_le] at hupper
          rw [UInt8.toNat_add] at hnat
          have hnum : (65 : UInt8).toNat = 65 ∧ (90 : UInt8).toNat = 90 ∧
              (32 : UInt8).toNat = 32 ∧ (0 : UInt8).toNat = 0 := ⟨rfl, rfl, rfl, rfl⟩
          omega
      · exact h
    · rintro rfl
      rfl
  simp [lower, hzero]

/-- The comparison finds the name of a device at the beginning, in any case. -/
theorem wcsnicmpEq_widen {path device : StdString} (hpath : IsAscii path)
    (hdevice : IsAscii device) (hzero : 0 ∉ device) :
    wcsnicmpEq (widen path) (widen device) device.length = true ↔ lower device <+: lower path := by
  have hascii : IsAscii (cStr (path.take device.length)) := fun b hb =>
    hpath b (List.mem_of_mem_take (List.takeWhile_subset _ hb))
  have hpathTake : (widen path).take device.length = widen (path.take device.length) := by
    rw [widen, widen, List.map_take]
  have hdeviceTake : (widen device).take device.length = widen device :=
    List.take_of_length_le (by rw [length_widen])
  have heq : wcsnicmpEq (widen path) (widen device) device.length = true ↔
      lower (cStr (path.take device.length)) = lower device := by
    rw [wcsnicmpEq, beq_iff_eq, hpathTake, hdeviceTake, takeWhile_widen, takeWhile_widen,
      ← cStr, ← cStr, cStr_eq_self hzero, map_towlower_widen hascii, map_towlower_widen hdevice,
      widen_injective.eq_iff]
  rw [heq, List.prefix_iff_eq_take, length_lower]
  have htake : (lower path).take device.length = lower (path.take device.length) := by
    rw [lower, lower, List.map_take]
  rw [htake]
  constructor
  · intro h
    -- as long as the name, so no NUL has cut it
    have hlength : (cStr (path.take device.length)).length = device.length := by
      simpa using congrArg List.length h
    have hcut : cStr (path.take device.length) = path.take device.length := by
      refine (List.takeWhile_prefix _).eq_of_length_le ?_
      rw [← cStr, hlength, List.length_take]
      exact Nat.min_le_left _ _
    rw [← h, hcut]
  · intro h
    have hnone : 0 ∉ path.take device.length := by
      rw [← zero_mem_lower, ← h, zero_mem_lower]
      exact hzero
    rw [cStr_eq_self hnone, h]

theorem BlockAction.onDrive_eq_some {path result : StdString} {d : Drive} :
    BlockAction.onDrive path d = some result ↔
      d.device.length + 2 ≤ 256 ∧
        ∃ rest, path = d.device ++ rest ∧ rest ≠ [] ∧ result = d.letter :: 58 :: rest := by
  unfold BlockAction.onDrive queryDosDevice
  by_cases hfits : d.device.length + 2 ≤ 256
  · rw [if_pos hfits, Option.bind_some, Option.ite_none_right_eq_some, Option.some.injEq]
    rw [and_iff_right hfits]
    constructor
    · rintro ⟨⟨hlonger, htake⟩, rfl⟩
      obtain ⟨rest, rfl⟩ : d.device <+: path := List.prefix_iff_eq_take.mpr htake.symm
      refine ⟨rest, rfl, ?_, by rw [List.drop_left]⟩
      rintro rfl
      simp at hlonger
    · rintro ⟨rest, rfl, hrest, rfl⟩
      have hpos := List.length_pos_iff.mpr hrest
      simp only [List.length_append, List.take_left', List.drop_left', and_true]
      omega
  · rw [if_neg hfits, Option.bind_none]
    simp [hfits]

theorem BrowserUploadMonitor.onDrive_eq_some {path : StdString} {result : WString} {d : Drive}
    (hpath : IsAscii path) (hd : IsAscii d.device ∧ 0 ∉ d.device)
    (hcase : lower d.device <+: lower path → d.device <+: path) :
    BrowserUploadMonitor.onDrive (widen path) d = some result ↔
      d.device.length + 2 ≤ 260 ∧
        ∃ rest, path = d.device ++ rest ∧ (rest = [] ∨ ∃ below, rest = 92 :: below) ∧
          result = widen (d.letter :: 58 :: rest) := by
  unfold BrowserUploadMonitor.onDrive queryDosDevice
  by_cases hfits : d.device.length + 2 ≤ 260
  · rw [if_pos hfits, Option.bind_some, Option.ite_none_right_eq_some, Option.some.injEq]
    rw [and_iff_right hfits, wcsnicmpEq_widen hpath hd.1 hd.2]
    have hboundary (rest : StdString) : ((widen (d.device ++ rest)).length = d.device.length ∨
        (widen (d.device ++ rest))[d.device.length]? = some 92) ↔
        (rest = [] ∨ ∃ below, rest = 92 :: below) := by
      rw [length_widen, List.length_append, Nat.add_eq_left, List.length_eq_zero_iff]
      refine or_congr_right ?_
      rw [widen, List.getElem?_map, List.getElem?_append_right (Nat.le_refl _), Nat.sub_self]
      cases rest with
      | nil => simp
      | cons b rest =>
          have h92 : (some 92 : Option UInt16) = some (92 : UInt8).toUInt16 := rfl
          rw [List.getElem?_cons_zero, Option.map_some, h92, Option.some.injEq,
            toUInt16_injective.eq_iff]
          simp
    have hdrop (rest : StdString) :
        (widen (d.device ++ rest)).drop d.device.length = widen rest := by
      rw [widen_append, List.drop_left' (length_widen _)]
    constructor
    · rintro ⟨⟨hlower, hends⟩, rfl⟩
      obtain ⟨rest, rfl⟩ := hcase hlower
      refine ⟨rest, rfl, (hboundary rest).mp hends, ?_⟩
      rw [hdrop]
      rfl
    · rintro ⟨rest, rfl, hends, rfl⟩
      refine ⟨⟨?_, (hboundary rest).mpr hends⟩, ?_⟩
      · rw [lower_append]
        exact List.prefix_append _ _
      · rw [hdrop]
        rfl
  · rw [if_neg hfits, Option.bind_none]
    simp [hfits]

/-- There are at most as many drives as letters. -/
theorem DriveTable.length_le (table : DriveTable) : table.drives.length ≤ 26 := by
  have hnodup : ((table.drives.map Drive.letter).map UInt8.toNat).Nodup :=
    table.distinct.map fun _ _ => UInt8.toNat_inj.mp
  have hsub : ((table.drives.map Drive.letter).map UInt8.toNat).toFinset ⊆
      Finset.Icc 65 90 := by
    intro n hn
    simp only [List.map_map, List.mem_toFinset, List.mem_map, Function.comp_apply] at hn
    obtain ⟨d, hd, rfl⟩ := hn
    obtain ⟨hlow, hhigh⟩ := table.letters d hd
    exact Finset.mem_Icc.mpr ⟨UInt8.le_iff_toNat_le.mp hlow, UInt8.le_iff_toNat_le.mp hhigh⟩
  have hcard := Finset.card_le_card hsub
  rw [List.toFinset_card_of_nodup hnodup, Nat.card_Icc] at hcard
  simpa using hcard

/-- A letter belongs to one drive. -/
theorem DriveTable.eq_of_letter (table : DriveTable) {d e : Drive} (hd : d ∈ table.drives)
    (he : e ∈ table.drives) (h : d.letter = e.letter) : d = e :=
  List.inj_on_of_nodup_map table.distinct hd he h

section loops

variable {table : DriveTable} {path : StdString} {before after : List Drive} {d : Drive}

theorem BlockAction.ntPathToDosPath_of_first {result : StdString}
    (hsplit : table.drives = before ++ d :: after)
    (hbefore : ∀ e ∈ before, BlockAction.onDrive path e = none)
    (hd : BlockAction.onDrive path d = some result) :
    BlockAction.ntPathToDosPath table path = result := by
  have hfits : ¬ (table.stringsLength = 0 ∨ table.stringsLength > 512) := by
    have hle := table.length_le
    have hpos : 0 < table.drives.length := List.length_pos_of_mem (a := d) (by simp [hsplit])
    unfold DriveTable.stringsLength
    omega
  have hfound : table.drives.findSome? (BlockAction.onDrive path) = some result :=
    List.findSome?_eq_some_iff.mpr ⟨before, d, after, hsplit, hd, hbefore⟩
  rw [BlockAction.ntPathToDosPath, if_neg hfits, hfound, Option.getD_some]

theorem BlockAction.ntPathToDosPath_of_none
    (h : ∀ e ∈ table.drives, BlockAction.onDrive path e = none) :
    BlockAction.ntPathToDosPath table path = [] := by
  unfold BlockAction.ntPathToDosPath
  split
  · rfl
  · rw [List.findSome?_eq_none_iff.mpr h, Option.getD_none]

/-- What the block action returns is a path on one of the drives, or nothing. -/
theorem BlockAction.ntPathToDosPath_cases (table : DriveTable) (path : StdString) :
    BlockAction.ntPathToDosPath table path = [] ∨
      ∃ e ∈ table.drives, BlockAction.onDrive path e =
        some (BlockAction.ntPathToDosPath table path) := by
  unfold BlockAction.ntPathToDosPath
  split
  · exact .inl rfl
  · cases hfound : table.drives.findSome? (BlockAction.onDrive path) with
    | none => exact .inl rfl
    | some result =>
        obtain ⟨before, e, after, hsplit, he, -⟩ := List.findSome?_eq_some_iff.mp hfound
        exact .inr ⟨e, by simp [hsplit], he⟩

theorem BrowserUploadMonitor.ntPathToDosPath_of_first {result : WString}
    (hdevice : str "\\Device\\" <+: path) (hsplit : table.drives = before ++ d :: after)
    (hbefore : ∀ e ∈ before, BrowserUploadMonitor.onDrive (widen path) e = none)
    (hd : BrowserUploadMonitor.onDrive (widen path) d = some result) :
    BrowserUploadMonitor.ntPathToDosPath table (widen path) = result := by
  have hprefix : widen (str "\\Device\\") <+: widen path := hdevice.map _
  have hdrives : table.stringsLength ≠ 0 := by
    have hpos : 0 < table.drives.length := List.length_pos_of_mem (a := d) (by simp [hsplit])
    unfold DriveTable.stringsLength
    omega
  have hfound : table.drives.findSome? (BrowserUploadMonitor.onDrive (widen path)) =
      some result :=
    List.findSome?_eq_some_iff.mpr ⟨before, d, after, hsplit, hd, hbefore⟩
  rw [BrowserUploadMonitor.ntPathToDosPath, if_neg (not_not_intro hprefix), if_neg hdrives,
    hfound, Option.getD_some]

theorem not_onDrive_of_backslash (rest : WString) : ¬ OnDrive (92 :: rest) := by
  rintro ⟨letter, rest', -, hhigh, heq⟩
  obtain ⟨rfl, -⟩ := List.cons.inj heq
  exact absurd hhigh (by decide)

/-- A path that is on none of the drives stays an NT path. -/
theorem BrowserUploadMonitor.not_onDrive_of_none (hdevice : str "\\Device\\" <+: path)
    (h : ∀ e ∈ table.drives, BrowserUploadMonitor.onDrive (widen path) e = none) :
    ¬ OnDrive (BrowserUploadMonitor.ntPathToDosPath table (widen path)) := by
  have hpath : ∃ rest, widen path = 92 :: rest := by
    obtain ⟨rest, rfl⟩ := hdevice
    exact ⟨_, rfl⟩
  obtain ⟨rest, hrest⟩ := hpath
  unfold BrowserUploadMonitor.ntPathToDosPath
  split
  · rw [hrest]
    exact not_onDrive_of_backslash rest
  · split
    · rw [hrest]
      exact not_onDrive_of_backslash rest
    · rw [List.findSome?_eq_none_iff.mpr h, Option.getD_none]
      exact not_onDrive_of_backslash _

theorem onDrive_widen {letter : UInt8} (h : 65 ≤ letter ∧ letter ≤ 90) (rest : StdString) :
    OnDrive (widen (letter :: 58 :: rest)) := by
  refine ⟨letter.toUInt16, widen rest, ?_, ?_, rfl⟩
  · rw [UInt16.le_iff_toNat_le, UInt8.toNat_toUInt16]
    exact UInt8.le_iff_toNat_le.mp h.1
  · rw [UInt16.le_iff_toNat_le, UInt8.toNat_toUInt16]
    exact UInt8.le_iff_toNat_le.mp h.2

end loops

/-! ## When a path is mapped right -/

/-- The mapping is right exactly if the first drive that one of the loops ends at is one that
both end at. -/
theorem mapsRight_iff {table : DriveTable} {path : StdString} (hpath : IsAscii path)
    (hdevice : str "\\Device\\" <+: path) (hcase : SameCase table path) :
    MapsRight table path ↔ FirstEndsAtSeparator table path := by
  have hmonitor {e : Drive} {result : WString} (he : e ∈ table.drives) :=
    @BrowserUploadMonitor.onDrive_eq_some path result e hpath (table.ascii e he) (hcase e he)
  cases hfind : table.drives.find? (Stops path) with
  | none =>
      -- both loops go through all drives
      have hnone := List.find?_eq_none.mp hfind
      simp only [Stops, Bool.or_eq_true, not_or, Bool.not_eq_true, Option.isSome_eq_false_iff,
        Option.isNone_iff_eq_none] at hnone
      have hblock := BlockAction.ntPathToDosPath_of_none fun e he => (hnone e he).1
      refine iff_of_true ⟨fun d _ rest hmaps => ?_, fun hon => ?_⟩ fun d hd => ?_
      · rw [hblock] at hmaps
        cases hmaps
      · rw [hblock] at hon
        rcases hon with ⟨letter, rest, -, -, hnil⟩ | hon
        · cases hnil
        · exact absurd hon
            (BrowserUploadMonitor.not_onDrive_of_none hdevice fun e he => (hnone e he).2)
      · rw [hfind] at hd
        cases hd
  | some d =>
      obtain ⟨hstops, before, after, hsplit, hbefore⟩ := List.find?_eq_some_iff_append.mp hfind
      have hmem : d ∈ table.drives := by simp [hsplit]
      simp only [Stops, Bool.not_eq_eq_eq_not, Bool.not_true, Bool.or_eq_false_iff,
        Option.isSome_eq_false_iff, Option.isNone_iff_eq_none] at hbefore
      have hfirst : FirstEndsAtSeparator table path ↔
          d.device.length + 2 ≤ 256 ∧ EndsAtSeparator d path := by
        constructor
        · exact fun h => h d hfind
        · intro h e he
          rw [hfind, Option.some.injEq] at he
          exact he ▸ h
      rw [hfirst]
      constructor
      · intro hright
        rw [Stops, Bool.or_eq_true, Option.isSome_iff_exists, Option.isSome_iff_exists] at hstops
        by_cases hblock : ∃ result, BlockAction.onDrive path d = some result
        · obtain ⟨result, hresult⟩ := hblock
          obtain ⟨hfits, rest, -, -, rfl⟩ := BlockAction.onDrive_eq_some.mp hresult
          exact ⟨hfits, hright.sound d hmem rest
            (BlockAction.ntPathToDosPath_of_first hsplit (fun e he => (hbefore e he).1) hresult)⟩
        · -- only the monitor ends here, and no other drive has the letter
          exfalso
          obtain ⟨result, hresult⟩ := hstops.resolve_left hblock
          have hmaps := BrowserUploadMonitor.ntPathToDosPath_of_first hdevice hsplit
            (fun e he => (hbefore e he).2) hresult
          obtain ⟨-, rest, -, -, rfl⟩ := (hmonitor hmem).mp hresult
          have hagrees := hright.agrees (.inr (hmaps ▸ onDrive_widen (table.letters d hmem) rest))
          rw [hmaps, widen_injective.eq_iff] at hagrees
          rcases BlockAction.ntPathToDosPath_cases table path with hnil | ⟨e, he, hresult'⟩
          · rw [hnil] at hagrees
            cases hagrees
          · rw [hagrees] at hresult'
            obtain ⟨-, rest', -, -, heq⟩ := BlockAction.onDrive_eq_some.mp hresult'
            obtain rfl := table.eq_of_letter he hmem (List.cons.inj heq).1.symm
            exact hblock ⟨_, hresult'⟩
      · rintro ⟨hfits, below, hbelow⟩
        have hblock := BlockAction.ntPathToDosPath_of_first hsplit (fun e he => (hbefore e he).1)
          (BlockAction.onDrive_eq_some.mpr ⟨hfits, 92 :: below, hbelow, by simp, rfl⟩)
        have hmaps := BrowserUploadMonitor.ntPathToDosPath_of_first hdevice hsplit
          (fun e he => (hbefore e he).2) ((hmonitor hmem).mpr
            ⟨Nat.le_trans hfits (by decide), 92 :: below, hbelow, .inr ⟨below, rfl⟩, rfl⟩)
        refine ⟨fun e he rest hrest => ?_, fun _ => by rw [hblock, hmaps]⟩
        rw [hblock] at hrest
        obtain rfl := table.eq_of_letter hmem he (List.cons.inj hrest).1
        exact ⟨below, hbelow⟩

/-! ## A device whose name begins another one's -/

/-- The first volume is drive C, the tenth one drive D. -/
def twoVolumes : DriveTable where
  drives := [⟨67, str "\\Device\\HarddiskVolume1"⟩, ⟨68, str "\\Device\\HarddiskVolume10"⟩]
  letters d hd := by
    rw [List.mem_pair] at hd
    rcases hd with rfl | rfl <;> decide
  distinct := by decide
  ascii d hd := by
    rw [List.mem_pair] at hd
    rcases hd with rfl | rfl <;> exact ⟨by decide, by decide⟩

/-- A file on drive C. -/
theorem mapsRight_volume1 :
    MapsRight twoVolumes (str "\\Device\\HarddiskVolume1\\plan.txt") := by
  refine (mapsRight_iff (by decide) (by decide) (by decide)).mpr ?_
  intro d hd
  have hfirst : twoVolumes.drives.find?
      (Stops (str "\\Device\\HarddiskVolume1\\plan.txt")) =
        some ⟨67, str "\\Device\\HarddiskVolume1"⟩ := by
    decide
  rw [hfirst, Option.some.injEq] at hd
  subst hd
  exact ⟨by decide, str "plan.txt", by decide⟩

/-- A file on drive D: the block action moves `C:0\plan.txt`. -/
theorem not_mapsRight_volume10 :
    ¬ ∀ table path, IsAscii path → str "\\Device\\" <+: path → SameCase table path →
      MapsRight table path := by
  intro h
  have hright := h twoVolumes (str "\\Device\\HarddiskVolume10\\plan.txt") (by decide)
    (by decide) (by decide)
  have hmaps : BlockAction.ntPathToDosPath twoVolumes
      (str "\\Device\\HarddiskVolume10\\plan.txt") = 67 :: 58 :: str "0\\plan.txt" := by
    decide
  obtain ⟨below, hbelow⟩ := hright.sound _ List.mem_cons_self _ hmaps
  have hnext := congrArg (fun s => (s.drop 23).head?) hbelow
  dsimp only at hnext
  rw [List.drop_left' (by decide), List.head?_cons] at hnext
  exact absurd hnext (by decide)

end AkesoDlp.Agent
