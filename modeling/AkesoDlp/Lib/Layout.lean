import AkesoDlp.Lib.LittleEndian

/-!
# Packed records

A layout writes the values of a type as byte strings of one size and reads every
byte string of that size back, each way without loss. Numbers are little-endian,
and records and arrays are the strings of their parts one after the other, without
padding.
-/

namespace Lib

/-- A type whose values are the byte strings of a fixed size. -/
structure Layout (α : Type) where
  size : Nat
  encode : α → List UInt8
  decode : List UInt8 → α
  length_encode : ∀ a, (encode a).length = size
  decode_encode : ∀ a, decode (encode a) = a
  encode_decode : ∀ bytes, bytes.length = size → encode (decode bytes) = bytes

namespace Layout

variable {α β : Type}

attribute [simp] length_encode decode_encode

/-- One value after the other. -/
def pair (A : Layout α) (B : Layout β) : Layout (α × β) where
  size := A.size + B.size
  encode p := A.encode p.1 ++ B.encode p.2
  decode bytes := (A.decode (bytes.take A.size), B.decode (bytes.drop A.size))
  length_encode p := by simp
  decode_encode p := by
    rw [List.take_left' (A.length_encode p.1), List.drop_left' (A.length_encode p.1)]
    simp
  encode_decode bytes h := by
    rw [A.encode_decode, B.encode_decode, List.take_append_drop]
    · simp [h]
    · simp [h]

/-- The same bytes as another type. -/
def iso (A : Layout α) (pack : α → β) (unpack : β → α) (pack_unpack : ∀ b, pack (unpack b) = b)
    (unpack_pack : ∀ a, unpack (pack a) = a) : Layout β where
  size := A.size
  encode b := A.encode (unpack b)
  decode bytes := pack (A.decode bytes)
  length_encode b := A.length_encode _
  decode_encode b := by rw [A.decode_encode, pack_unpack]
  encode_decode bytes h := by rw [unpack_pack, A.encode_decode bytes h]

/-! ## Numbers -/

theorem encode_decode_littleEndian (bytes : List UInt8) :
    LittleEndian.encode bytes.length (LittleEndian.decode bytes) = bytes := by
  induction bytes with
  | nil => rfl
  | cons b bytes ih =>
      have hb : b.toNat < 256 := b.toNat_lt
      rw [List.length_cons, LittleEndian.decode, LittleEndian.encode]
      congr 1
      · apply UInt8.toNat_inj.mp
        rw [UInt8.toNat_ofNat']
        omega
      · rw [show (b.toNat + 256 * LittleEndian.decode bytes) / 256 = LittleEndian.decode bytes by
          omega, ih]

/-- The numbers below `256 ^ width`. -/
def number (width : Nat) : Layout (Fin (256 ^ width)) where
  size := width
  encode n := LittleEndian.encode width n
  decode bytes := ⟨LittleEndian.decode (bytes.take width),
    Nat.lt_of_lt_of_le (LittleEndian.decode_lt _)
      (Nat.pow_le_pow_right (by decide) (List.length_take_le _ _))⟩
  length_encode n := LittleEndian.length_encode width n
  decode_encode n := by
    apply Fin.ext
    show LittleEndian.decode ((LittleEndian.encode width n).take width) = n
    rw [List.take_of_length_le (by simp)]
    exact LittleEndian.decode_encode n.isLt
  encode_decode bytes h := by
    show LittleEndian.encode width (LittleEndian.decode (bytes.take width)) = bytes
    rw [List.take_of_length_le (Nat.le_of_eq h)]
    exact h ▸ encode_decode_littleEndian bytes

def u8 : Layout UInt8 :=
  (number 1).iso (fun n => .ofNat n) (fun x => ⟨x.toNat, x.toNat_lt⟩) (fun x => by simp)
    fun n => Fin.ext (UInt8.toNat_ofNat_of_lt' n.isLt)

def u16 : Layout UInt16 :=
  (number 2).iso (fun n => .ofNat n) (fun x => ⟨x.toNat, x.toNat_lt⟩) (fun x => by simp)
    fun n => Fin.ext (UInt16.toNat_ofNat_of_lt' n.isLt)

def u32 : Layout UInt32 :=
  (number 4).iso (fun n => .ofNat n) (fun x => ⟨x.toNat, x.toNat_lt⟩) (fun x => by simp)
    fun n => Fin.ext (UInt32.toNat_ofNat_of_lt' n.isLt)

def u64 : Layout UInt64 :=
  (number 8).iso (fun n => .ofNat n) (fun x => ⟨x.toNat, x.toNat_lt⟩) (fun x => by simp)
    fun n => Fin.ext (UInt64.toNat_ofNat_of_lt' n.isLt)

/-- A signed number has the bytes of the unsigned one of its bits. -/
def i64 : Layout Int64 :=
  u64.iso (fun n => n.toInt64) (fun x => x.toUInt64) (fun _ => rfl) fun _ => rfl

/-! ## Arrays -/

/-- The values of `n` strings one after the other. -/
def decodeMany (A : Layout α) : Nat → List UInt8 → List α
  | 0, _ => []
  | n + 1, bytes => A.decode (bytes.take A.size) :: A.decodeMany n (bytes.drop A.size)

theorem length_decodeMany (A : Layout α) (n : Nat) (bytes : List UInt8) :
    (A.decodeMany n bytes).length = n := by
  induction n generalizing bytes with
  | zero => rfl
  | succ n ih => rw [decodeMany, List.length_cons, ih]

theorem length_flatMap_encode (A : Layout α) (l : List α) :
    (l.flatMap A.encode).length = l.length * A.size := by
  induction l with
  | nil => simp
  | cons a l ih => simp [ih, Nat.succ_mul, Nat.add_comm]

theorem decodeMany_flatMap (A : Layout α) (l : List α) :
    A.decodeMany l.length (l.flatMap A.encode) = l := by
  induction l with
  | nil => rfl
  | cons a l ih =>
      rw [List.length_cons, decodeMany, List.flatMap_cons,
        List.take_left' (A.length_encode a), List.drop_left' (A.length_encode a), ih,
        A.decode_encode]

theorem flatMap_decodeMany (A : Layout α) (n : Nat) (bytes : List UInt8)
    (h : bytes.length = n * A.size) : (A.decodeMany n bytes).flatMap A.encode = bytes := by
  induction n generalizing bytes with
  | zero =>
      rw [Nat.zero_mul] at h
      rw [List.length_eq_zero_iff.mp h]
      rfl
  | succ n ih =>
      rw [Nat.succ_mul] at h
      rw [decodeMany, List.flatMap_cons, ih _ (by simp [h]), A.encode_decode _ (by simp [h]),
        List.take_append_drop]

/-- `n` values in a row. -/
def array (A : Layout α) (n : Nat) : Layout { l : List α // l.length = n } where
  size := n * A.size
  encode a := a.val.flatMap A.encode
  decode bytes := ⟨A.decodeMany n bytes, A.length_decodeMany n bytes⟩
  length_encode a := by rw [A.length_flatMap_encode, a.property]
  decode_encode a := by
    apply Subtype.ext
    have := A.decodeMany_flatMap a.val
    rwa [a.property] at this
  encode_decode bytes h := A.flatMap_decodeMany n bytes h

end Layout

end Lib
