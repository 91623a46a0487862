import AkesoDlp.Agent.ContainerCoverage

/-!
# Inflating the members of an archive

`DecompressEntry` takes the room for a deflated member from the size that its local header
declares, and has zlib finish within it. zlib is taken as documented: with `Z_FINISH` it
decompresses all of an intact stream, or fills the room and returns `Z_BUF_ERROR`. The code
takes that for a failure, so what was written is dropped.
-/

namespace AkesoDlp.Agent

open Lib

inductive ZlibReturn
  | ok
  | streamEnd
  | needDict
  | streamError
  | dataError
  | memError
  | bufError
deriving DecidableEq, Repr

/-- Raw inflate in one call with `Z_FINISH`: the code it returns and what it has written. -/
structure RawInflate where
  finish : StdString → Nat → ZlibReturn × StdString
  /-- What an intact stream decompresses to. -/
  content : StdString → Option StdString
  within : ∀ stream room, (finish stream room).2.length ≤ room
  ends : ∀ {stream text room}, content stream = some text → 0 < room → text.length ≤ room →
    finish stream room = (.streamEnd, text)
  fills : ∀ {stream text room}, content stream = some text → 0 < room → room < text.length →
    finish stream room = (.bufError, text.take room)

namespace RawInflate

variable (zlib : RawInflate)

/-- What `DecompressEntry` makes of the call: the test of `ret` and `output.resize`. -/
def inflate : Inflate := fun stream room =>
  let (ret, output) := zlib.finish stream room
  if ret ≠ .streamEnd ∧ ret ≠ .ok then none else some output

theorem length_inflate_le {stream written : StdString} {room : Nat}
    (h : zlib.inflate stream room = some written) : written.length ≤ room := by
  have hwithin := zlib.within stream room
  simp only [inflate] at h
  split at h
  · cases h
  · rw [Option.some.injEq] at h
    rwa [h] at hwithin

variable {zlib} {stream text : StdString}

/-- Without room for all of the content nothing is left of it, with room for no byte
whatever the code is. -/
theorem inflate_getD (h : zlib.content stream = some text) (room : Nat) :
    (zlib.inflate stream room).getD [] = if text.length ≤ room then text else [] := by
  by_cases hroom : 0 < room
  · by_cases hlength : text.length ≤ room
    · rw [if_pos hlength, inflate, zlib.ends h hroom hlength]
      rfl
    · rw [if_neg hlength, inflate, zlib.fills h hroom (Nat.not_le.mp hlength)]
      rfl
  · have hzero : room = 0 := Nat.eq_zero_of_not_pos hroom
    have hempty : (zlib.inflate stream 0).getD [] = [] := by
      cases hinflate : zlib.inflate stream 0 with
      | none => rfl
      | some written =>
          exact List.length_eq_zero_iff.mp (Nat.le_zero.mp (zlib.length_inflate_le hinflate))
    rw [hzero, hempty]
    split
    · rename_i hlength
      exact (List.length_eq_zero_iff.mp (Nat.le_zero.mp hlength)).symm
    · rfl

end RawInflate

/-- The compressed bytes of a member. -/
def ZipEntry.stream (entry : ZipEntry) (data : StdString) : StdString :=
  (data.drop entry.dataOffset).take entry.compressedSize

/-- A deflated member whose data is intact and decompresses to `text`. -/
structure ZipEntry.Deflates (entry : ZipEntry) (zlib : RawInflate) (data text : StdString) :
    Prop where
  inRange : entry.dataOffset + entry.compressedSize ≤ data.length
  method : entry.compressionMethod = 8
  intact : zlib.content (entry.stream data) = some text

section

variable (options : ExtractionOptions) {zlib : RawInflate} {data text : StdString}
  {entry : ZipEntry}

/-- The whole content where the declared size and the limit leave room for it, or else
nothing. -/
theorem decompressEntry_deflated (h : entry.Deflates zlib data text) :
    decompressEntry options zlib.inflate data entry =
      if text.length ≤ min entry.uncompressedSize options.maxZipEntry then text else [] := by
  have hmethod : ¬ entry.compressionMethod = 0 := by
    rw [h.method]
    decide
  rw [decompressEntry, if_neg (Nat.not_lt.mpr h.inRange)]
  dsimp only
  rw [if_neg hmethod, if_pos h.method]
  exact zlib.inflate_getD h.intact _

/-- A deflated member is inspected up to the limit exactly when it declares at least its
size and is within the limit. -/
theorem decompressEntry_upToLimit_iff (h : entry.Deflates zlib data text) :
    decompressEntry options zlib.inflate data entry = text.take options.maxZipEntry ↔
      (text.length ≤ entry.uncompressedSize ∧ text.length ≤ options.maxZipEntry) ∨
        options.maxZipEntry = 0 := by
  rw [decompressEntry_deflated options h, ← Nat.le_min]
  by_cases hroom : text.length ≤ min entry.uncompressedSize options.maxZipEntry
  · have hlimit : text.length ≤ options.maxZipEntry := Nat.le_trans hroom (Nat.min_le_right _ _)
    rw [if_pos hroom, List.take_of_length_le hlimit]
    exact iff_of_true rfl (Or.inl hroom)
  · rw [if_neg hroom, or_iff_right hroom, eq_comm, List.take_eq_nil_iff, or_iff_left]
    rintro rfl
    exact hroom (Nat.zero_le _)

end

/-! ## A mislabelled member -/

/-- The stream of `secret`. -/
def inflatesSecret : RawInflate where
  finish stream room :=
    if stream = deflatedSecret ∧ 0 < room then
      if room < (str "secret").length then (.bufError, (str "secret").take room)
      else (.streamEnd, str "secret")
    else (.dataError, [])
  content stream := if stream = deflatedSecret then some (str "secret") else none
  within stream room := by
    split
    · split
      · exact List.length_take_le _ _
      · rename_i hroom
        exact Nat.not_lt.mp hroom
    · exact Nat.zero_le _
  ends := by
    intro stream text room hcontent hroom hlength
    split at hcontent
    · rename_i hstream
      cases hcontent
      rw [if_pos ⟨hstream, hroom⟩, if_neg (Nat.not_lt.mpr hlength)]
    · cases hcontent
  fills := by
    intro stream text room hcontent hroom hlength
    split at hcontent
    · rename_i hstream
      cases hcontent
      rw [if_pos ⟨hstream, hroom⟩, if_pos hlength]
    · cases hcontent

/-- An archive with one member, `secret` under a header that declares `size` bytes. -/
def secretArchive (size : UInt8) : StdString :=
  [0x50, 0x4B, 0x03, 0x04, 20, 0, 0, 0, 8, 0, 0, 0, 0, 0, 0, 0, 0, 0, 8, 0, 0, 0, size, 0, 0, 0,
    5, 0, 0, 0] ++ str "a.txt" ++ deflatedSecret ++ [0x50, 0x4B, 0x01, 0x02]

def secretEntry (size : Nat) : ZipEntry := ⟨str "a.txt", 8, size, 8, 35⟩

theorem deflates_secretEntry (size : UInt8) :
    (secretEntry size.toNat).Deflates inflatesSecret (secretArchive size) (str "secret") := by
  have hlength : (secretArchive size).length = 47 := rfl
  have hend : 35 + 8 ≤ 47 := by decide
  exact ⟨hlength ▸ hend, rfl, rfl⟩

theorem decompressEntry_upToLimit_secret :
    decompressEntry {} inflatesSecret.inflate (secretArchive 6) (secretEntry 6) =
      (str "secret").take 10485760 :=
  (decompressEntry_upToLimit_iff {} (deflates_secretEntry 6)).mpr (by decide)

/-- The header declares one byte less than there is. -/
theorem decompressEntry_drops_mislabelled :
    parseZipDirectory {} (secretArchive 5) = [secretEntry 5] ∧
    ¬ ∀ (zlib : RawInflate) (data text : StdString) (entry : ZipEntry),
      entry.Deflates zlib data text →
        decompressEntry {} zlib.inflate data entry = text.take 10485760 := by
  refine ⟨by decide, fun h => ?_⟩
  have hdropped : decompressEntry {} inflatesSecret.inflate (secretArchive 5) (secretEntry 5) =
      [] := by decide
  have hkept := h inflatesSecret (secretArchive 5) (str "secret") (secretEntry 5)
    (deflates_secretEntry 5)
  rw [hdropped] at hkept
  exact absurd hkept (by decide)

end AkesoDlp.Agent
