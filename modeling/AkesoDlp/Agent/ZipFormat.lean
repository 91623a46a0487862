import AkesoDlp.Agent.ContentExtractor

/-!
# ZIP archives

Archives as sequences of members: a local header, the data and, for members that are written
as a stream, a data descriptor. The sizes are in the header, in the descriptor or in a ZIP64
extra field. What follows the members is the central directory, which does not start like a
local header.
-/

namespace AkesoDlp.Agent

open Lib

def localSignature : StdString := [0x50, 0x4B, 0x03, 0x04]

/-- A local header; the two size fields are what it says of the sizes. -/
structure LocalHeader where
  name : StdString
  extra : StdString := []
  method : Nat := 0
  compSize : Nat
  uncompSize : Nat
  versionFlags : Vector UInt8 4 := Vector.replicate 4 0
  timeChecksum : Vector UInt8 8 := Vector.replicate 8 0

namespace LocalHeader

/-- The numbers fit their fields. -/
structure Fits (header : LocalHeader) : Prop where
  name : header.name.length < 256 ^ 2
  extra : header.extra.length < 256 ^ 2
  method : header.method < 256 ^ 2
  compSize : header.compSize < 256 ^ 4
  uncompSize : header.uncompSize < 256 ^ 4

variable (header : LocalHeader)

def bytes : StdString :=
  localSignature ++ header.versionFlags.toList ++ LittleEndian.encode 2 header.method ++
    header.timeChecksum.toList ++ LittleEndian.encode 4 header.compSize ++
      LittleEndian.encode 4 header.uncompSize ++ LittleEndian.encode 2 header.name.length ++
        LittleEndian.encode 2 header.extra.length ++ header.name ++ header.extra

variable {header}

theorem length_bytes : header.bytes.length = 30 + header.name.length + header.extra.length := by
  simp [bytes, localSignature]
  omega

/-- The fields, read where the header stands. -/
theorem fields_bytes (h : header.Fits) (front rest : StdString) :
    let data := front ++ (header.bytes ++ rest)
    (data.drop front.length).take 4 = localSignature ∧
      LittleEndian.field data (front.length + 8) 2 = header.method ∧
      LittleEndian.field data (front.length + 18) 4 = header.compSize ∧
      LittleEndian.field data (front.length + 22) 4 = header.uncompSize ∧
      LittleEndian.field data (front.length + 26) 2 = header.name.length ∧
      LittleEndian.field data (front.length + 28) 2 = header.extra.length ∧
      (data.drop (front.length + 30)).take header.name.length = header.name ∧
      data.drop (front.length + 30 + header.name.length + header.extra.length) = rest := by
  have hdrop : ∀ n, n ≤ 30 → (front ++ (header.bytes ++ rest)).drop (front.length + n) =
      header.bytes.drop n ++ rest := by
    intro n hn
    rw [List.drop_append, List.drop_of_length_le (by omega), List.nil_append,
      Nat.add_sub_cancel_left, List.drop_append_of_le_length (by rw [length_bytes]; omega)]
  have hflags : ∀ n, 4 ≤ n → header.versionFlags.toList.drop n = [] := fun n hn =>
    List.drop_of_length_le (by rw [Vector.length_toList]; exact hn)
  have htime : ∀ n, 8 ≤ n → header.timeChecksum.toList.drop n = [] := fun n hn =>
    List.drop_of_length_le (by rw [Vector.length_toList]; exact hn)
  have hencode : ∀ width number n, width ≤ n →
      (LittleEndian.encode width number).drop n = [] := fun width number n hn =>
    List.drop_of_length_le (by rw [LittleEndian.length_encode]; exact hn)
  dsimp only
  refine ⟨?_, ?_, ?_, ?_, ?_, ?_, ?_, ?_⟩
  · rw [← Nat.add_zero front.length, hdrop 0 (by decide)]
    simp [bytes, localSignature]
  · rw [LittleEndian.field, hdrop 8 (by decide)]
    simp [bytes, localSignature, LittleEndian.decode_encode h.method]
  · rw [LittleEndian.field, hdrop 18 (by decide)]
    simp [bytes, localSignature, List.drop_append, hflags, hencode,
      LittleEndian.decode_encode h.compSize]
  · rw [LittleEndian.field, hdrop 22 (by decide)]
    simp [bytes, localSignature, List.drop_append, hflags, htime, hencode,
      LittleEndian.decode_encode h.uncompSize]
  · rw [LittleEndian.field, hdrop 26 (by decide)]
    simp [bytes, localSignature, List.drop_append, hflags, htime, hencode,
      LittleEndian.decode_encode h.name]
  · rw [LittleEndian.field, hdrop 28 (by decide)]
    simp [bytes, localSignature, List.drop_append, hflags, htime, hencode,
      LittleEndian.decode_encode h.extra]
  · rw [hdrop 30 (by decide)]
    simp [bytes, localSignature, List.drop_append, hflags, htime, hencode]
  · rw [Nat.add_assoc, Nat.add_assoc, ← Nat.add_assoc 30, ← length_bytes, ← List.drop_drop,
      List.drop_left, List.drop_left]

/-- The entry that a header in front of the position `end` gives. -/
def entries (header : LocalHeader) (dataOffset length : Nat) : List ZipEntry :=
  if header.name ≠ [] ∧ header.name.getLast? ≠ some 47 ∧ 0 < header.compSize ∧
      dataOffset + header.compSize ≤ length then
    [⟨header.name, header.compSize, header.uncompSize, header.method, dataOffset⟩]
  else []

/-- One round over a header. -/
theorem parseHeaders_bytes (options : ExtractionOptions) (h : header.Fits)
    (front rest : StdString) {found : List ZipEntry}
    (hroom : found.length < options.entryLimit) (rounds : Nat) :
    parseHeaders options (front ++ (header.bytes ++ rest)) (rounds + 1) front.length found =
      parseHeaders options (front ++ (header.bytes ++ rest)) rounds
        ((front ++ header.bytes).length + header.compSize)
        (found ++ header.entries (front ++ header.bytes).length
          (front ++ (header.bytes ++ rest)).length) := by
  obtain ⟨hsignature, hmethod, hcomp, huncomp, hname, hextra, hnames, -⟩ :=
    fields_bytes h front rest
  have hlength : (front ++ (header.bytes ++ rest)).length =
      front.length + 30 + header.name.length + header.extra.length + rest.length := by
    simp only [List.length_append, length_bytes]
    omega
  have hend : (front ++ header.bytes).length =
      front.length + 30 + header.name.length + header.extra.length := by
    simp only [List.length_append, length_bytes]
    omega
  rw [localSignature] at hsignature
  rw [parseHeaders, if_pos ⟨by omega, hroom⟩, if_pos hsignature]
  simp only [hmethod, hcomp, huncomp, hname, hextra, hnames, hend, entries]
  rw [if_neg (by omega)]
  congr 1
  split
  · rfl
  · rw [List.append_nil]

/-- The entries of a header are at its data. -/
theorem mem_entries {dataOffset length : Nat} {entry : ZipEntry}
    (h : entry ∈ header.entries dataOffset length) :
    entry = ⟨header.name, header.compSize, header.uncompSize, header.method, dataOffset⟩ ∧
      header.name ≠ [] ∧ 0 < header.compSize := by
  unfold entries at h
  split at h
  · next hlisted => exact ⟨List.mem_singleton.mp h, hlisted.1, hlisted.2.2.1⟩
  · cases h

theorem length_entries_le (header : LocalHeader) (dataOffset length : Nat) :
    (header.entries dataOffset length).length ≤ 1 := by
  unfold entries
  split
  · exact Nat.le_refl 1
  · exact Nat.zero_le 1

end LocalHeader

/-- The listing ends where no local header starts. -/
theorem parseHeaders_stop (options : ExtractionOptions) {data : StdString} {pos : Nat}
    (h : (data.drop pos).take 4 ≠ localSignature) (rounds : Nat) (found : List ZipEntry) :
    parseHeaders options data rounds pos found = found := by
  rw [localSignature] at h
  cases rounds with
  | zero => rfl
  | succ rounds =>
      rw [parseHeaders, if_neg h]
      exact ite_self _

/-- The rounds from a position on only add entries, and these have their data behind it. -/
theorem exists_parseHeaders (options : ExtractionOptions) (data : StdString) (rounds pos : Nat)
    (found : List ZipEntry) :
    ∃ more, parseHeaders options data rounds pos found = found ++ more ∧
      ∀ entry ∈ more, pos + 30 ≤ entry.dataOffset := by
  induction rounds generalizing pos found with
  | zero => exact ⟨[], (List.append_nil found).symm, fun _ h => absurd h List.not_mem_nil⟩
  | succ rounds ih =>
      have hnone : ∃ more, found = found ++ more ∧
          ∀ entry ∈ more, pos + 30 ≤ entry.dataOffset :=
        ⟨[], (List.append_nil found).symm, fun _ h => absurd h List.not_mem_nil⟩
      rw [parseHeaders]
      dsimp only
      split
      · split
        · split
          · exact hnone
          · split
            · obtain ⟨more, hmore, hbehind⟩ := ih _ (found ++ [_])
              refine ⟨_ :: more, hmore.trans (List.append_assoc _ [_] more), ?_⟩
              rw [List.forall_mem_cons]
              refine ⟨by dsimp only; omega, fun entry hentry => ?_⟩
              have := hbehind entry hentry
              omega
            · obtain ⟨more, hmore, hbehind⟩ := ih _ found
              refine ⟨more, hmore, fun entry hentry => ?_⟩
              have := hbehind entry hentry
              omega
        · exact hnone
      · exact hnone

/-! ## Members -/

inductive SizePlace
  | header
  | descriptor (signed wide : Bool)
  | extra
deriving DecidableEq, Repr

/-- A member: its data as the archive has it, and the size of its content. -/
structure ZipMember where
  name : StdString
  extra : StdString := []
  deflated : Bool := false
  data : StdString
  size : Nat
  checksum : Vector UInt8 4 := Vector.replicate 4 0
  place : SizePlace := .header
  versionFlags : Vector UInt8 4 := Vector.replicate 4 0
  timeDate : Vector UInt8 4 := Vector.replicate 4 0

/-- The first block of a deflate stream: one that is stored has its length and the complement
of this. -/
def DeflateStart : StdString → Prop
  | [] => False
  | b :: rest => b &&& 6 = 0 →
      ∃ low high tail, rest = low :: high :: ~~~low :: ~~~high :: tail

namespace ZipMember

/-- A member in a stream has zeros in its header, and one with a ZIP64 field has the largest
numbers. -/
def header (m : ZipMember) : LocalHeader where
  name := m.name
  extra := m.extra
  method := if m.deflated then 8 else 0
  compSize :=
    match m.place with
    | .header => m.data.length
    | .descriptor _ _ => 0
    | .extra => 0xFFFFFFFF
  uncompSize :=
    match m.place with
    | .header => m.size
    | .descriptor _ _ => 0
    | .extra => 0xFFFFFFFF
  versionFlags := m.versionFlags
  timeChecksum :=
    match m.place with
    | .descriptor _ _ => m.timeDate ++ (Vector.replicate 4 0 : Vector UInt8 4)
    | _ => m.timeDate ++ m.checksum

/-- The data descriptor, with or without its signature, and with sizes of four bytes or eight. -/
def descriptor (m : ZipMember) : StdString :=
  match m.place with
  | .descriptor signed wide =>
      let width := if wide then 8 else 4
      (if signed then [0x50, 0x4B, 0x07, 0x08] else []) ++ m.checksum.toList ++
        LittleEndian.encode width m.data.length ++ LittleEndian.encode width m.size
  | _ => []

def bytes (m : ZipMember) : StdString := m.header.bytes ++ (m.data ++ m.descriptor)

/-- The field of the extra data that holds the sizes. -/
def zip64Field (m : ZipMember) : StdString :=
  [0x01, 0x00, 0x10, 0x00] ++ LittleEndian.encode 8 m.size ++ LittleEndian.encode 8 m.data.length

structure WellFormed (m : ZipMember) : Prop where
  name : m.name.length < 256 ^ 2
  extra : m.extra.length < 256 ^ 2
  stored : m.deflated = false → m.data.length = m.size
  stream : m.deflated = true → DeflateStart m.data
  directory : m.name.getLast? = some 47 → m.size = 0
  checksum : m.size = 0 → m.checksum = Vector.replicate 4 0
  sizes : m.place = .header → m.data.length < 256 ^ 4 ∧ m.size < 256 ^ 4
  zip64 : m.place = .extra → 0 < m.size ∧ m.zip64Field <:+: m.extra

/-- Non-empty and no directory. -/
def listed (m : ZipMember) : Bool := 0 < m.size && m.name.getLast? != some 47

/-- What the listing says of the member, whose record starts at `pos`. -/
def entry (m : ZipMember) (pos : Nat) : ZipEntry :=
  ⟨m.name, m.data.length, m.size, if m.deflated then 8 else 0,
    pos + 30 + m.name.length + m.extra.length⟩

/-- The header says where the next one is. -/
structure SizesInHeader (m : ZipMember) : Prop where
  compSize : m.header.compSize = m.data.length
  uncompSize : m.header.uncompSize = m.size
  descriptor : m.descriptor = []

end ZipMember

/-- An archive: the members, and the central directory after them. -/
def archive (members : List ZipMember) (directory : StdString) : StdString :=
  members.flatMap ZipMember.bytes ++ directory

/-- The entries of the members to be listed, from a position on. -/
def listedEntries : Nat → List ZipMember → List ZipEntry
  | _, [] => []
  | pos, m :: rest =>
      (if m.listed then [m.entry pos] else []) ++ listedEntries (pos + m.bytes.length) rest

end AkesoDlp.Agent
