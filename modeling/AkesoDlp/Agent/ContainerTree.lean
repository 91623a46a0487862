import AkesoDlp.Agent.ZipFormat
import AkesoDlp.Lib.Lists

/-!
# Nested ZIP containers

Trees of ZIP containers and their bytes: a local record for every member, then whatever
follows them. Extraction finds the text of every printable leaf if it opens the containers
around it and does not take it for one. It opens what it recognises as ZIP or JAR; nested
APK, Office and ODF packages, which it opens at the top, it does not.
-/

namespace AkesoDlp.Agent

open Lib

/-- What a local record says of its member; the fields that nothing reads are the
version and flags and the time, date and checksum. -/
structure MemberHeader where
  name : StdString
  extra : StdString := []
  versionFlags : Vector UInt8 4 := Vector.replicate 4 0
  timeChecksum : Vector UInt8 8 := Vector.replicate 8 0
  /-- The deflated stream, unless the member is stored. -/
  deflated : Option StdString := none

inductive ContainerTree
  | leaf (text : StdString)
  | directory
  | container (members : List (MemberHeader × ContainerTree)) (tail : StdString)

namespace MemberHeader

variable (header : MemberHeader) (data : StdString)

def method : Nat := if header.deflated.isSome then 8 else 0

/-- The bytes after the header. -/
def compressed : StdString := header.deflated.getD data

def record : StdString :=
  [0x50, 0x4B, 0x03, 0x04] ++ header.versionFlags.toList ++
    LittleEndian.encode 2 header.method ++ header.timeChecksum.toList ++
      LittleEndian.encode 4 (header.compressed data).length ++
        LittleEndian.encode 4 data.length ++
          LittleEndian.encode 2 header.name.length ++
            LittleEndian.encode 2 header.extra.length ++ header.name ++ header.extra ++
              header.compressed data

end MemberHeader

namespace ContainerTree

mutual

def bytes : ContainerTree → StdString
  | leaf text => text
  | directory => []
  | container members tail => records members ++ tail

def records : List (MemberHeader × ContainerTree) → StdString
  | [] => []
  | (header, tree) :: rest => header.record tree.bytes ++ records rest

end

mutual

/-- The texts of the leaves. -/
def leaves : ContainerTree → List StdString
  | leaf text => [text]
  | directory => []
  | container members _ => leavesOf members

def leavesOf : List (MemberHeader × ContainerTree) → List StdString
  | [] => []
  | (_, tree) :: rest => tree.leaves ++ leavesOf rest

end

mutual

/-- The containers around the innermost leaf. -/
def depth : ContainerTree → Nat
  | leaf _ => 0
  | directory => 0
  | container members _ => depthOf members + 1

def depthOf : List (MemberHeader × ContainerTree) → Nat
  | [] => 0
  | (_, tree) :: rest => max tree.depth (depthOf rest)

end

def IsDirectory : ContainerTree → Bool
  | directory => true
  | _ => false

end ContainerTree

/-! ## Within the options -/

section

variable (options : ExtractionOptions) (inflate : Inflate)

/-- The header carries the sizes, and zlib restores the data. -/
structure MemberHeader.Fits (header : MemberHeader) (data : StdString) : Prop where
  name : header.name.length < 256 ^ 2
  extra : header.extra.length < 256 ^ 2
  size : data.length < 256 ^ 4
  compressed : (header.compressed data).length < 256 ^ 4
  inflates : ∀ stream, header.deflated = some stream →
    stream ≠ [] ∧ data.length ≤ options.maxZipEntry ∧ inflate stream data.length = some data

/-- The names of directories, and only these, end with a slash. -/
def MemberHeader.Names (header : MemberHeader) : ContainerTree → Prop
  | .directory => header.name.getLast? = some 47
  | _ => header.name ≠ [] ∧ header.name.getLast? ≠ some 47

/-- Printable ASCII, as long as a run of characters has to be. -/
structure PrintableLeaf (text : StdString) : Prop where
  run : options.minStringRun ≤ text.length
  size : text.length ≤ options.maxTextSize
  printable : ∀ b ∈ text, 0x20 ≤ b ∧ b ≤ 0x7E

namespace ContainerTree

mutual

/-- The sizes and counts are within the options. -/
def WellFormed : ContainerTree → Prop
  | leaf _ => True
  | directory => True
  | container members tail =>
      (members.countP fun member => !member.2.IsDirectory) ≤ options.entryLimit ∧
        tail.take 4 ≠ [0x50, 0x4B, 0x03, 0x04] ∧ AllWellFormed members

def AllWellFormed : List (MemberHeader × ContainerTree) → Prop
  | [] => True
  | (header, tree) :: rest =>
      (header.Fits options inflate tree.bytes ∧ header.Names tree ∧ tree.WellFormed) ∧
        AllWellFormed rest

end

theorem allWellFormed_iff (members : List (MemberHeader × ContainerTree)) :
    AllWellFormed options inflate members ↔
      ∀ member ∈ members, member.1.Fits options inflate member.2.bytes ∧
        member.1.Names member.2 ∧ member.2.WellFormed options inflate := by
  induction members with
  | nil => simp [AllWellFormed]
  | cons member rest ih =>
      obtain ⟨header, tree⟩ := member
      rw [AllWellFormed, ih, List.forall_mem_cons]

theorem mem_leavesOf {members : List (MemberHeader × ContainerTree)} {text : StdString} :
    text ∈ leavesOf members ↔ ∃ member ∈ members, text ∈ member.2.leaves := by
  induction members with
  | nil => simp [leavesOf]
  | cons member rest ih =>
      obtain ⟨header, tree⟩ := member
      simp [leavesOf, ih, or_and_right, exists_or]

theorem depth_le_depthOf {members : List (MemberHeader × ContainerTree)}
    {member : MemberHeader × ContainerTree} (h : member ∈ members) :
    member.2.depth ≤ depthOf members := by
  induction members with
  | nil => simp at h
  | cons first rest ih =>
      obtain ⟨header, tree⟩ := first
      rw [depthOf]
      obtain rfl | h := List.mem_cons.mp h
      · exact Nat.le_max_left ..
      · exact (ih h).trans (Nat.le_max_right ..)

end ContainerTree

/-! ## Reading a record -/

namespace MemberHeader

variable {options inflate} {header : MemberHeader} {content : StdString}

/-- The header of a record, with both sizes. -/
def localHeader (header : MemberHeader) (content : StdString) : LocalHeader where
  name := header.name
  extra := header.extra
  method := header.method
  compSize := (header.compressed content).length
  uncompSize := content.length
  versionFlags := header.versionFlags
  timeChecksum := header.timeChecksum

theorem record_eq :
    header.record content = (header.localHeader content).bytes ++ header.compressed content := rfl

theorem length_record :
    (header.record content).length =
      30 + header.name.length + header.extra.length + (header.compressed content).length := by
  rw [record_eq, List.length_append, LocalHeader.length_bytes]
  rfl

theorem Fits.localHeader (h : header.Fits options inflate content) :
    (header.localHeader content).Fits where
  name := h.name
  extra := h.extra
  method := by
    simp only [MemberHeader.localHeader, method]
    split <;> decide
  compSize := h.compressed
  uncompSize := h.size

/-- The entry that the record at a position gives, if it gives one. -/
def entries (header : MemberHeader) (pos : Nat) (content : StdString) : List ZipEntry :=
  if header.name ≠ [] ∧ header.name.getLast? ≠ some 47 ∧ 0 < (header.compressed content).length then
    [⟨header.name, (header.compressed content).length, content.length, header.method,
      pos + 30 + header.name.length + header.extra.length⟩]
  else []

theorem length_entries_le (pos : Nat) : (header.entries pos content).length ≤ 1 := by
  unfold entries
  split
  · exact Nat.le_refl 1
  · exact Nat.zero_le 1

/-- One round over a record. -/
theorem parseHeaders_record (h : header.Fits options inflate content) (front rest : StdString)
    {found : List ZipEntry} (hlimit : found.length < options.entryLimit) (rounds : Nat) :
    parseHeaders options (front ++ (header.record content ++ rest)) (rounds + 1) front.length
        found =
      parseHeaders options (front ++ (header.record content ++ rest)) rounds
        (front ++ header.record content).length (found ++ header.entries front.length content) := by
  have hend : (front ++ (header.localHeader content).bytes).length =
      front.length + 30 + header.name.length + header.extra.length := by
    rw [List.length_append, LocalHeader.length_bytes]
    simp only [localHeader]
    omega
  have hnext : (front ++ (header.localHeader content).bytes).length +
      (header.localHeader content).compSize = (front ++ header.record content).length := by
    rw [record_eq, ← List.append_assoc, @List.length_append _ (front ++ _)]
    rfl
  have hentries : (header.localHeader content).entries
      (front ++ (header.localHeader content).bytes).length
      (front ++ ((header.localHeader content).bytes ++
        (header.compressed content ++ rest))).length = header.entries front.length content := by
    have hinside : front.length + 30 + header.name.length + header.extra.length +
        (header.compressed content).length ≤
          (front ++ ((header.localHeader content).bytes ++
            (header.compressed content ++ rest))).length := by
      rw [← List.append_assoc, List.length_append, hend, List.length_append]
      omega
    rw [LocalHeader.entries, hend]
    simp only [localHeader] at hinside ⊢
    simp only [hinside, and_true, entries]
  have hround := LocalHeader.parseHeaders_bytes options h.localHeader front
    (header.compressed content ++ rest) hlimit rounds
  rw [hnext, hentries, ← List.append_assoc (LocalHeader.bytes _), ← record_eq] at hround
  exact hround

/-- What the entry of a record is decompressed to. -/
theorem decompressEntry_record (h : header.Fits options inflate content) (front rest : StdString)
    {entry : ZipEntry} (hentry : entry ∈ header.entries front.length content) :
    entry.filename = header.name ∧
      decompressEntry options inflate (front ++ (header.record content ++ rest)) entry =
        content := by
  obtain ⟨-, -, -, -, -, -, -, hdata⟩ := LocalHeader.fields_bytes h.localHeader front
    (header.compressed content ++ rest)
  rw [← List.append_assoc (LocalHeader.bytes _), ← record_eq] at hdata
  simp only [localHeader] at hdata
  unfold entries at hentry
  split at hentry
  · rw [List.mem_singleton.mp hentry]
    refine ⟨rfl, ?_⟩
    have hlength : ¬ (front ++ (header.record content ++ rest)).length < front.length + 30 +
        header.name.length + header.extra.length + (header.compressed content).length := by
      simp only [List.length_append, length_record]
      omega
    rw [decompressEntry, if_neg hlength]
    simp only [hdata, List.take_left]
    cases hdeflated : header.deflated with
    | none =>
        have hmethod : header.method = 0 := by rw [method, hdeflated]; rfl
        rw [if_pos hmethod, compressed, hdeflated, Option.getD_none]
    | some stream =>
        obtain ⟨-, hmax, hinflate⟩ := h.inflates stream hdeflated
        have hmethod : header.method = 8 := by rw [method, hdeflated]; rfl
        rw [if_neg (by rw [hmethod]; decide), if_pos hmethod, compressed, hdeflated,
          Option.getD_some, Nat.min_eq_left hmax, hinflate, Option.getD_some]
  · cases hentry

theorem names_of_not_directory {tree : ContainerTree} (h : header.Names tree)
    (hkind : tree.IsDirectory = false) : header.name ≠ [] ∧ header.name.getLast? ≠ some 47 := by
  cases tree with
  | directory => cases hkind
  | leaf text => exact h
  | container members tail => exact h

/-- A member with a name and data has an entry. -/
theorem exists_mem_entries (h : header.Fits options inflate content) (pos : Nat)
    (hname : header.name ≠ [] ∧ header.name.getLast? ≠ some 47) (hdata : content ≠ []) :
    ∃ entry, entry ∈ header.entries pos content := by
  have hcompressed : header.compressed content ≠ [] := by
    cases hdeflated : header.deflated with
    | none => rwa [compressed, hdeflated, Option.getD_none]
    | some stream =>
        rw [compressed, hdeflated, Option.getD_some]
        exact (h.inflates stream hdeflated).1
  rw [entries, if_pos ⟨hname.1, hname.2, List.length_pos_iff.mpr hcompressed⟩]
  exact ⟨_, List.mem_singleton_self _⟩

end MemberHeader

namespace ContainerTree

variable {options inflate}

/-- The entries of the records from a position on. -/
def entriesAt : Nat → List (MemberHeader × ContainerTree) → List ZipEntry
  | _, [] => []
  | pos, (header, tree) :: rest =>
      header.entries pos tree.bytes ++
        entriesAt (pos + (header.record tree.bytes).length) rest

/-- The rounds over the records find their entries. -/
theorem parseHeaders_records {members : List (MemberHeader × ContainerTree)} {tail : StdString}
    (htail : tail.take 4 ≠ [0x50, 0x4B, 0x03, 0x04])
    (h : AllWellFormed options inflate members) (front : StdString) (found : List ZipEntry)
    {rounds : Nat} (hrounds : (records members ++ tail).length ≤ rounds)
    (hlimit : found.length + (entriesAt front.length members).length ≤ options.entryLimit) :
    parseHeaders options (front ++ (records members ++ tail)) rounds front.length found =
      found ++ entriesAt front.length members := by
  induction members generalizing front found rounds with
  | nil =>
      rw [entriesAt, List.append_nil, records, List.nil_append]
      cases rounds with
      | zero => rfl
      | succ rounds =>
          rw [parseHeaders, List.drop_left, if_neg htail]
          exact ite_self _
  | cons member rest ih =>
      obtain ⟨header, tree⟩ := member
      rw [AllWellFormed] at h
      obtain ⟨⟨hfits, -, -⟩, hrest⟩ := h
      rw [entriesAt, List.length_append] at hlimit
      rw [records, List.append_assoc] at hrounds
      rw [entriesAt, records, List.append_assoc]
      cases rounds with
      | zero =>
          rw [List.length_append, MemberHeader.length_record] at hrounds
          omega
      | succ rounds =>
          by_cases hroom : found.length < options.entryLimit
          · have hassoc : front ++ (header.record tree.bytes ++ (records rest ++ tail)) =
                front ++ header.record tree.bytes ++ (records rest ++ tail) :=
              (List.append_assoc ..).symm
            have hlength : (front ++ header.record tree.bytes).length =
                front.length + (header.record tree.bytes).length := List.length_append
            rw [List.length_append, MemberHeader.length_record] at hrounds
            rw [MemberHeader.parseHeaders_record hfits front _ hroom, hassoc,
              ih hrest _ _ (by omega) (by rw [hlength, List.length_append]; omega), hlength,
              List.append_assoc]
          · -- no room is left, and no entry to come
            have hnone : (header.entries front.length tree.bytes).length +
                (entriesAt (front.length + (header.record tree.bytes).length) rest).length = 0 := by
              omega
            rw [List.eq_nil_of_length_eq_zero (Nat.eq_zero_of_add_eq_zero_right hnone),
              List.eq_nil_of_length_eq_zero (Nat.eq_zero_of_add_eq_zero_left hnone),
              List.append_nil, List.append_nil, parseHeaders,
              if_neg fun hboth => hroom hboth.2]

/-- Every member with data that is no directory has its entry. -/
theorem exists_entry {members : List (MemberHeader × ContainerTree)}
    (h : AllWellFormed options inflate members) (front tail : StdString)
    {member : MemberHeader × ContainerTree} (hmem : member ∈ members)
    (hdata : member.2.bytes ≠ []) (hkind : member.2.IsDirectory = false) :
    ∃ entry ∈ entriesAt front.length members, entry.filename = member.1.name ∧
      decompressEntry options inflate (front ++ (records members ++ tail)) entry =
        member.2.bytes := by
  induction members generalizing front with
  | nil => simp at hmem
  | cons first rest ih =>
      obtain ⟨header, tree⟩ := first
      rw [AllWellFormed] at h
      obtain ⟨⟨hfits, hnames, -⟩, hrest⟩ := h
      rw [entriesAt, records, List.append_assoc]
      obtain rfl | hmem := List.mem_cons.mp hmem
      · obtain ⟨entry, hentry⟩ := MemberHeader.exists_mem_entries hfits front.length
          (MemberHeader.names_of_not_directory hnames hkind) hdata
        exact ⟨entry, List.mem_append_left _ hentry,
          MemberHeader.decompressEntry_record hfits front _ hentry⟩
      · have hassoc : front ++ (header.record tree.bytes ++ (records rest ++ tail)) =
            front ++ header.record tree.bytes ++ (records rest ++ tail) :=
          (List.append_assoc ..).symm
        rw [hassoc, ← List.length_append]
        obtain ⟨entry, hentry, hfound⟩ := ih hrest (front ++ header.record tree.bytes) hmem
        exact ⟨entry, List.mem_append_right _ hentry, hfound⟩

/-- Directories have no entries. -/
theorem length_entriesAt_le {members : List (MemberHeader × ContainerTree)}
    (h : AllWellFormed options inflate members) (pos : Nat) :
    (entriesAt pos members).length ≤ members.countP fun member => !member.2.IsDirectory := by
  induction members generalizing pos with
  | nil => exact Nat.le_refl 0
  | cons first rest ih =>
      obtain ⟨header, tree⟩ := first
      rw [AllWellFormed] at h
      obtain ⟨⟨-, hnames, -⟩, hrest⟩ := h
      have hentries : (header.entries pos tree.bytes).length ≤
          if (!(header, tree).2.IsDirectory) = true then 1 else 0 := by
        cases tree with
        | directory =>
            have hslash : header.name.getLast? = some 47 := hnames
            simp [MemberHeader.entries, hslash]
        | leaf text => exact MemberHeader.length_entries_le ..
        | container members tail => exact MemberHeader.length_entries_le ..
      have hothers := ih hrest (pos + (header.record tree.bytes).length)
      rw [entriesAt, List.length_append, List.countP_cons]
      omega

/-- The entries of a container. -/
theorem parseZipDirectory_container {members : List (MemberHeader × ContainerTree)}
    {tail : StdString} (h : (container members tail).WellFormed options inflate) :
    parseZipDirectory options (container members tail).bytes = entriesAt 0 members := by
  rw [WellFormed] at h
  obtain ⟨hcount, htail, hmembers⟩ := h
  have hlimit := (length_entriesAt_le hmembers 0).trans hcount
  rw [parseZipDirectory, bytes]
  exact parseHeaders_records htail hmembers [] [] (Nat.le_refl _) (by simpa using hlimit)

end ContainerTree

end

end AkesoDlp.Agent
