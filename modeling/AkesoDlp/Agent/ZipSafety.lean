import AkesoDlp.Agent.ContentExtractor
import AkesoDlp.Lib.TSys

/-!
# Memory safety of the ZIP parser

`ParseZipDirectory`, `DecompressEntry` and `ExtractZip` once more, with the arithmetic of a
64-bit `size_t` and with every access to a buffer checked: `none` stands for an access
outside, and for a loop or a recursion that does not end. Neither happens, and the results are
those of the functions on lists.
-/

namespace AkesoDlp.Agent

open Lib

/-- A buffer. Like every object it has at most `PTRDIFF_MAX` bytes. -/
structure Buffer where
  data : StdString
  fits : data.length < 2 ^ 63

/-- A sum in `size_t`. -/
def sizeT (n : Nat) : Nat := n % 2 ^ 64

theorem sizeT_of_lt {n : Nat} (h : n < 2 ^ 64) : sizeT n = n := Nat.mod_eq_of_lt h

/-- `data[offset]` and so on, so many bytes. -/
def Buffer.load (buf : Buffer) (offset : Nat) : Nat → Option StdString
  | 0 => some []
  | width + 1 => do
      let b ← buf.data[sizeT offset]?
      let rest ← buf.load (offset + 1) width
      some (b :: rest)

theorem Buffer.load_eq (buf : Buffer) (offset width : Nat)
    (h : offset + width ≤ buf.data.length) :
    buf.load offset width = some ((buf.data.drop offset).take width) := by
  have hfits := buf.fits
  induction width generalizing offset with
  | zero => rfl
  | succ width ih =>
      have hlt : offset < buf.data.length := by omega
      rw [load, sizeT_of_lt (by omega), List.getElem?_eq_getElem hlt, ih _ (by omega),
        List.drop_eq_getElem_cons hlt, List.take_succ_cons]
      rfl

/-- A number of this width, read byte by byte. -/
def Buffer.number (buf : Buffer) (offset width : Nat) : Option Nat :=
  (buf.load offset width).map LittleEndian.decode

theorem Buffer.number_eq (buf : Buffer) (offset width : Nat)
    (h : offset + width ≤ buf.data.length) :
    buf.number offset width = some (LittleEndian.field buf.data offset width) := by
  rw [number, buf.load_eq _ _ h]
  rfl

/-- zlib's raw inflate, which writes into the space that it is given. -/
structure Zlib where
  inflate : Inflate
  within : ∀ stream space written, inflate stream space = some written → written.length ≤ space

section

variable (options : ExtractionOptions)

/-! ## The loop over the headers -/

structure ParseState where
  pos : Nat := 0
  entries : List ZipEntry := []
deriving DecidableEq, Repr

inductive ParseRound
  | stop
  | next (s : ParseState)
deriving DecidableEq, Repr

/-- One round of the loop of `ParseZipDirectory`. -/
def parseRound (buf : Buffer) (s : ParseState) : Option ParseRound := do
  if sizeT (s.pos + 30) ≤ buf.data.length ∧ s.entries.length < options.entryLimit then
    let signature ← buf.load s.pos 4
    if signature = [0x50, 0x4B, 0x03, 0x04] then
      let compression ← buf.number (s.pos + 8) 2
      let compSize ← buf.number (s.pos + 18) 4
      let uncompSize ← buf.number (s.pos + 22) 4
      let nameLen ← buf.number (s.pos + 26) 2
      let extraLen ← buf.number (s.pos + 28) 2
      let headerEnd := sizeT (s.pos + 30 + nameLen + extraLen)
      if buf.data.length < headerEnd then some .stop
      else
        let name ← buf.load (s.pos + 30) nameLen
        let entries :=
          if name ≠ [] ∧ name.getLast? ≠ some 47 ∧ 0 < compSize ∧
              sizeT (headerEnd + compSize) ≤ buf.data.length then
            s.entries ++ [⟨name, compSize, uncompSize, compression, headerEnd⟩]
          else s.entries
        some (.next ⟨sizeT (headerEnd + compSize), entries⟩)
    else some .stop
  else some .stop

/-- `ParseZipDirectory`, given so many rounds. -/
def parseChecked (buf : Buffer) : (rounds : Nat) → ParseState → Option (List ZipEntry)
  | 0, _ => none
  | rounds + 1, s =>
      match parseRound options buf s with
      | none => none
      | some .stop => some s.entries
      | some (.next s') => parseChecked buf rounds s'

/-- The loop as a system. -/
def parseSystem (buf : Buffer) : TSys ParseState Unit where
  init s := s = {}
  step s _ :=
    match parseRound options buf s with
    | some (.next s') => some s'
    | _ => none

/-- The data of the entry is in the buffer, and its sizes are numbers of 32 bits. -/
structure ZipEntry.Within (entry : ZipEntry) (data : StdString) : Prop where
  range : entry.dataOffset + entry.compressedSize ≤ data.length
  compressed : entry.compressedSize < 2 ^ 32
  uncompressed : entry.uncompressedSize < 2 ^ 32

/-- What holds before every round. -/
structure ParseState.Sound (s : ParseState) (buf : Buffer) : Prop where
  pos : s.pos ≤ buf.data.length + 2 ^ 32
  count : s.entries.length ≤ options.entryLimit
  within : ∀ entry ∈ s.entries, entry.Within buf.data

variable {options} {buf : Buffer} {s : ParseState}

/-- A round reads inside the buffer and does what the loop over lists does. -/
theorem parseRound_spec (h : s.Sound options buf) :
    (parseRound options buf s = some .stop ∧
      ∀ rounds, parseHeaders options buf.data (rounds + 1) s.pos s.entries = s.entries) ∨
    ∃ s', parseRound options buf s = some (.next s') ∧ s.pos + 30 ≤ buf.data.length ∧
      s.pos < s'.pos ∧ s'.Sound options buf ∧
      ∀ rounds, parseHeaders options buf.data (rounds + 1) s.pos s.entries =
        parseHeaders options buf.data rounds s'.pos s'.entries := by
  have hfits := buf.fits
  have hpos := h.pos
  have hcomp : LittleEndian.field buf.data (s.pos + 18) 4 < 2 ^ 32 := LittleEndian.field_lt _ _ 4
  have huncomp : LittleEndian.field buf.data (s.pos + 22) 4 < 2 ^ 32 := LittleEndian.field_lt _ _ 4
  have hname : LittleEndian.field buf.data (s.pos + 26) 2 < 2 ^ 16 := LittleEndian.field_lt _ _ 2
  have hextra : LittleEndian.field buf.data (s.pos + 28) 2 < 2 ^ 16 := LittleEndian.field_lt _ _ 2
  have hstart : sizeT (s.pos + 30) = s.pos + 30 := sizeT_of_lt (by omega)
  simp only [parseHeaders, parseRound, hstart]
  by_cases hroom : s.pos + 30 ≤ buf.data.length ∧ s.entries.length < options.entryLimit
  · have hlength := hroom.1
    simp only [if_pos hroom, buf.load_eq s.pos 4 (by omega),
      Option.bind_eq_bind, Option.bind_some]
    by_cases hsignature : (buf.data.drop s.pos).take 4 = [0x50, 0x4B, 0x03, 0x04]
    · simp only [if_pos hsignature, buf.number_eq (s.pos + 8) 2 (by omega),
        buf.number_eq (s.pos + 18) 4 (by omega),
        buf.number_eq (s.pos + 22) 4 (by omega),
        buf.number_eq (s.pos + 26) 2 (by omega),
        buf.number_eq (s.pos + 28) 2 (by omega), Option.bind_some]
      generalize LittleEndian.field buf.data (s.pos + 8) 2 = compression
      generalize LittleEndian.field buf.data (s.pos + 18) 4 = compSize at hcomp
      generalize LittleEndian.field buf.data (s.pos + 22) 4 = uncompSize at huncomp
      generalize LittleEndian.field buf.data (s.pos + 26) 2 = nameLen at hname
      generalize LittleEndian.field buf.data (s.pos + 28) 2 = extraLen at hextra
      have hheader : sizeT (s.pos + 30 + nameLen + extraLen) = s.pos + 30 + nameLen + extraLen :=
        sizeT_of_lt (by omega)
      simp only [hheader]
      by_cases hend : buf.data.length < s.pos + 30 + nameLen + extraLen
      · exact .inl ⟨if_pos hend, fun _ => if_pos hend⟩
      · have hnext : sizeT (s.pos + 30 + nameLen + extraLen + compSize) =
            s.pos + 30 + nameLen + extraLen + compSize := sizeT_of_lt (by omega)
        simp only [if_neg hend, buf.load_eq (s.pos + 30) nameLen (by omega),
          Option.bind_some, hnext]
        refine .inr ⟨_, rfl, hlength, ?_, ⟨?_, ?_, ?_⟩, fun _ => rfl⟩
        · dsimp only
          omega
        · dsimp only
          omega
        · dsimp only
          split
          · rw [List.length_append]
            exact hroom.2
          · exact h.count
        · dsimp only
          split
          · next hlisted =>
              intro entry hentry
              rcases List.mem_append.mp hentry with hold | hnew
              · exact h.within entry hold
              · rw [List.mem_singleton.mp hnew]
                exact ⟨hlisted.2.2.2, hcomp, huncomp⟩
          · exact h.within
    · exact .inl ⟨if_neg hsignature, fun _ => if_neg hsignature⟩
  · exact .inl ⟨if_neg hroom, fun _ => if_neg hroom⟩

theorem sound_start (options : ExtractionOptions) (buf : Buffer) :
    ParseState.Sound options {} buf :=
  ⟨Nat.zero_le _, Nat.zero_le _, fun _ h => absurd h List.not_mem_nil⟩

theorem parseSystem_invariant (buf : Buffer) :
    (parseSystem options buf).InvariantBy (fun _ _ => True) fun s => s.Sound options buf :=
  TSys.InductiveBy.invariant
    { init := fun s hs => hs ▸ sound_start options buf
      step := fun s _ s' hs _ hstep => by
        rcases parseRound_spec hs with ⟨hround, -⟩ | ⟨next, hround, -, -, hnext, -⟩ <;>
          simp only [parseSystem, hround, reduceCtorEq, Option.some.injEq] at hstep
        exact hstep ▸ hnext }

/-- Every round passes a byte at least, so the loop ends. -/
theorem parseChecked_spec (rounds : Nat) (h : s.Sound options buf) (hsome : 0 < rounds)
    (hrounds : buf.data.length < s.pos + rounds) :
    ∃ last : ParseState, last.Sound options buf ∧
      parseChecked options buf rounds s = some last.entries ∧
      parseHeaders options buf.data rounds s.pos s.entries = last.entries := by
  induction rounds generalizing s with
  | zero => exact absurd hsome (Nat.lt_irrefl 0)
  | succ rounds ih =>
      rcases parseRound_spec h with ⟨hround, hstop⟩ | ⟨s', hround, hroom, hpos, hsound, hnext⟩
      · refine ⟨s, h, ?_, hstop rounds⟩
        rw [parseChecked, hround]
      · rw [parseChecked, hround, hnext]
        exact ih hsound (by omega) (by omega)

/-- `ParseZipDirectory` with its rounds. -/
def parseZipChecked (options : ExtractionOptions) (buf : Buffer) : Option (List ZipEntry) :=
  parseChecked options buf (buf.data.length + 1) {}

theorem parseZipChecked_spec (options : ExtractionOptions) (buf : Buffer) :
    parseZipChecked options buf = some (parseZipDirectory options buf.data) ∧
      (parseZipDirectory options buf.data).length ≤ options.entryLimit ∧
      ∀ entry ∈ parseZipDirectory options buf.data, entry.Within buf.data := by
  obtain ⟨last, hsound, hchecked, hheaders⟩ :=
    parseChecked_spec (buf.data.length + 1) (sound_start options buf)
      (Nat.succ_pos _) (by simp only [Nat.zero_add]; omega)
  have hparse : parseZipDirectory options buf.data = last.entries := by
    rw [← hheaders, parseZipDirectory, parseHeaders_succ]
    exact Nat.le_add_left _ _
  rw [hparse]
  exact ⟨hchecked, hsound.count, hsound.within⟩

theorem entryLimit_le (h : 0 ≤ options.maxZipEntries) :
    (options.entryLimit : Int) ≤ options.maxZipEntries := by
  unfold ExtractionOptions.entryLimit
  omega

end

/-! ## The members -/

section

variable (options : ExtractionOptions) (zlib : Zlib) (detector : FileTypeDetector)

/-- `DecompressEntry`. zlib may read `avail_in` bytes, and write `avail_out`. -/
def decompressChecked (buf : Buffer) (entry : ZipEntry) : Option StdString :=
  if buf.data.length < sizeT (entry.dataOffset + entry.compressedSize) then some []
  else if entry.compressionMethod = 0 then buf.load entry.dataOffset entry.compressedSize
  else if entry.compressionMethod = 8 then do
    let outSize := min entry.uncompressedSize options.maxZipEntry
    let compData ← buf.load entry.dataOffset entry.compressedSize
    match zlib.inflate compData (outSize % 2 ^ 32) with
    | none => some []
    | some written => if written.length ≤ outSize then some written else none
  else some []

/-- The body of the loop of `ExtractZip`. -/
def extractEntryChecked (nested : Buffer → StdString → Option (List MemberResult))
    (buf : Buffer) (filename : StdString) (entry : ZipEntry) : Option (List MemberResult) := do
  let decompressed ← decompressChecked options zlib buf entry
  let type := memberType detector decompressed entry.filename
  let memberName :=
    if filename = [] then entry.filename else filename ++ [47] ++ entry.filename
  if decompressed = [] then some []
  else if reopens type then
    if h : decompressed.length < 2 ^ 63 then nested ⟨decompressed, h⟩ memberName else none
  else some (extractMember options type decompressed entry.filename memberName)

/-- `ExtractZip` at a depth, with at most so many activations within one another. -/
def extractZipChecked :
    (activations : Nat) → (depth : Int) → Buffer → StdString → Option (List MemberResult)
  | 0, _, _, _ => none
  | activations + 1, depth, buf, filename =>
      if buf.data = [] then some [failedResult "Empty input" filename .archive]
      else if options.maxZipDepth ≤ depth then
        some [failedResult "Max ZIP nesting depth reached" filename .archive]
      else do
        let entries ← parseZipChecked options buf
        if entries = [] then
          some [failedResult "No extractable entries in ZIP" filename .archive]
        else
          let results ← entries.mapM
            (extractEntryChecked options zlib detector (extractZipChecked activations (depth + 1))
              buf filename)
          some results.flatten

variable {options zlib detector} {buf : Buffer}

/-- An entry that the parser returns is read and written within the buffers, and its data is
again as long as 32 bits say. -/
theorem decompressChecked_eq (options : ExtractionOptions) (zlib : Zlib) {entry : ZipEntry}
    (h : entry.Within buf.data) :
    decompressChecked options zlib buf entry =
        some (decompressEntry options zlib.inflate buf.data entry) ∧
      (decompressEntry options zlib.inflate buf.data entry).length < 2 ^ 63 := by
  have hfits := buf.fits
  have hrange := h.range
  have hspace : min entry.uncompressedSize options.maxZipEntry < 2 ^ 32 :=
    Nat.lt_of_le_of_lt (Nat.min_le_left _ _) h.uncompressed
  have hinside : ¬ buf.data.length < entry.dataOffset + entry.compressedSize :=
    Nat.not_lt.mpr hrange
  have hsum : sizeT (entry.dataOffset + entry.compressedSize) =
      entry.dataOffset + entry.compressedSize := sizeT_of_lt (by omega)
  simp only [decompressChecked, decompressEntry, hsum, if_neg hinside, buf.load_eq _ _ hrange,
    Nat.mod_eq_of_lt hspace, Option.bind_eq_bind, Option.bind_some]
  by_cases hstored : entry.compressionMethod = 0
  · simp only [if_pos hstored, true_and]
    refine Nat.lt_of_le_of_lt (List.length_take_le _ _) ?_
    exact Nat.lt_trans h.compressed (by decide)
  · by_cases hdeflated : entry.compressionMethod = 8
    · simp only [if_neg hstored, if_pos hdeflated]
      cases hinflate : zlib.inflate ((buf.data.drop entry.dataOffset).take entry.compressedSize)
          (min entry.uncompressedSize options.maxZipEntry) with
      | none => exact ⟨rfl, by decide⟩
      | some written =>
          have hwithin := zlib.within _ _ _ hinflate
          refine ⟨if_pos hwithin, ?_⟩
          exact Nat.lt_trans (Nat.lt_of_le_of_lt hwithin hspace) (by decide)
    · simp only [if_neg hstored, if_neg hdeflated, true_and]
      decide

theorem mapM_eq_some {α β : Type} {f : α → Option β} {g : α → β} {l : List α}
    (h : ∀ a ∈ l, f a = some (g a)) : l.mapM f = some (l.map g) := by
  induction l with
  | nil => rfl
  | cons a l ih =>
      rw [List.forall_mem_cons] at h
      rw [List.mapM_cons, h.1, ih h.2]
      rfl

/-- Every nested archive is one level deeper, and below `max_zip_depth` none is opened. -/
theorem extractZipChecked_eq {activations : Nat} {depth : Int}
    (hdepth : options.maxZipDepth - depth < activations) (hsome : 0 < activations) (buf : Buffer)
    (filename : StdString) :
    extractZipChecked options zlib detector activations depth buf filename =
      some (extractZip options zlib.inflate detector (options.maxZipDepth - depth).toNat buf.data
        filename) := by
  induction activations generalizing depth buf filename with
  | zero => exact absurd hsome (Nat.lt_irrefl 0)
  | succ activations ih =>
      rw [extractZipChecked, extractZip.eq_def]
      dsimp only
      by_cases hempty : buf.data = []
      · rw [if_pos hempty, if_pos hempty]
      · rw [if_neg hempty, if_neg hempty]
        by_cases hdeep : options.maxZipDepth ≤ depth
        · rw [if_pos hdeep, Int.toNat_of_nonpos (by omega)]
        · obtain ⟨hparse, -, hwithin⟩ := parseZipChecked_spec options buf
          obtain ⟨levels, hlevels⟩ : ∃ levels, (options.maxZipDepth - depth).toNat = levels + 1 :=
            ⟨(options.maxZipDepth - depth).toNat - 1, by omega⟩
          have hlevels' : (options.maxZipDepth - (depth + 1)).toNat = levels := by omega
          rw [if_neg hdeep, hlevels, hparse]
          simp only [Option.bind_eq_bind, Option.bind_some]
          split
          · rfl
          · rw [mapM_eq_some (g := extractEntry options zlib.inflate detector
              (extractZip options zlib.inflate detector levels) buf.data filename)]
            · rw [Option.bind_some, List.flatMap_def]
            · intro entry hentry
              obtain ⟨hdecompress, hsmall⟩ :=
                decompressChecked_eq options zlib (hwithin entry hentry)
              simp only [extractEntryChecked, extractEntry, hdecompress, Option.bind_eq_bind,
                Option.bind_some]
              split
              · rfl
              · split
                · rw [ih (by omega) (by omega), hlevels']
                · rfl

/-- In a state of the loop the next round reads inside the buffer and moves on. -/
structure ParseState.Safe (options : ExtractionOptions) (buf : Buffer) (s : ParseState) : Prop where
  inside : (parseRound options buf s).isSome = true
  progress : ∀ s', parseRound options buf s = some (.next s') → s.pos < s'.pos
  count : s.entries.length ≤ options.entryLimit

theorem ParseState.Sound.safe {s : ParseState} (h : s.Sound options buf) : s.Safe options buf := by
  rcases parseRound_spec h with ⟨hround, -⟩ | ⟨next, hround, -, hpos, -, -⟩
  · exact ⟨by rw [hround]; rfl, by rw [hround]; rintro s' ⟨⟩, h.count⟩
  · exact ⟨by rw [hround]; rfl, by rw [hround]; rintro s' ⟨⟩; exact hpos, h.count⟩

/-- No function of the three accesses a byte outside a buffer, the loop and the recursion end,
and the entries are few enough and within the data. -/
theorem zip_safe (options : ExtractionOptions) (zlib : Zlib) (detector : FileTypeDetector)
    (buf : Buffer) :
    (parseSystem options buf).InvariantBy (fun _ _ => True) (fun s => s.Safe options buf) ∧
    parseZipChecked options buf = some (parseZipDirectory options buf.data) ∧
    (0 ≤ options.maxZipEntries →
      ((parseZipDirectory options buf.data).length : Int) ≤ options.maxZipEntries) ∧
    (∀ entry ∈ parseZipDirectory options buf.data,
      entry.dataOffset + entry.compressedSize ≤ buf.data.length ∧
        decompressChecked options zlib buf entry =
          some (decompressEntry options zlib.inflate buf.data entry)) ∧
    ∀ (depth : Int) (filename : StdString),
      extractZipChecked options zlib detector ((options.maxZipDepth - depth).toNat + 1) depth buf
          filename =
        some (extractZip options zlib.inflate detector (options.maxZipDepth - depth).toNat buf.data
          filename) := by
  obtain ⟨hparse, hcount, hwithin⟩ := parseZipChecked_spec options buf
  refine ⟨fun s hs => (parseSystem_invariant buf s hs).safe, hparse, fun hlimit => ?_,
    fun entry hentry =>
      ⟨(hwithin entry hentry).range, (decompressChecked_eq options zlib (hwithin entry hentry)).1⟩,
    fun depth filename => extractZipChecked_eq (by omega) (Nat.succ_pos _) buf filename⟩
  exact Int.le_trans (Int.ofNat_le.mpr hcount) (entryLimit_le hlimit)

end

/-- A zlib that refuses every stream. -/
def refusingZlib : Zlib where
  inflate _ _ := none
  within := nofun

/-- One stored member of one byte. -/
def oneMember : Buffer where
  data :=
    [0x50, 0x4B, 0x03, 0x04, 20, 0, 0, 0, 0, 0, 0, 0, 0, 0, 0, 0, 0, 0, 1, 0, 0, 0, 1, 0, 0, 0, 1,
      0, 0, 0, 97, 98]
  fits := by decide

theorem zip_safe_one_member :
    parseZipDirectory {} oneMember.data = [⟨[97], 1, 1, 0, 31⟩] ∧
      ((parseZipDirectory {} oneMember.data).length : Int) ≤ 100 :=
  ⟨by decide, (zip_safe {} refusingZlib .stable oneMember).2.2.1 (by decide)⟩

end AkesoDlp.Agent
