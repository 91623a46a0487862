import AkesoDlp.Lib.LittleEndian

/-!
# UTF-16 and UTF-32

The units of the two encodings, in either byte order, and the way back from UTF-16.
-/

namespace Lib

/-- A number of this width with its bytes in the given order. -/
def orderedBytes (bigEndian : Bool) (width n : Nat) : List UInt8 :=
  if bigEndian then (LittleEndian.encode width n).reverse else LittleEndian.encode width n

namespace Utf16

/-- A character outside the basic multilingual plane is a pair of surrogates. -/
def units (c : Char) : List Nat :=
  if c.toNat < 0x10000 then [c.toNat]
  else [0xD800 + (c.toNat - 0x10000) / 1024, 0xDC00 + (c.toNat - 0x10000) % 1024]

def encode (bigEndian : Bool) (s : List Char) : List UInt8 :=
  s.flatMap fun c => (units c).flatMap (orderedBytes bigEndian 2)

theorem toNat_lt (c : Char) : c.toNat < 0x110000 := by
  have hvalid : c.toNat < 0xD800 ∨ 0xDFFF < c.toNat ∧ c.toNat < 0x110000 := c.valid
  omega

theorem lt_of_mem_units {c : Char} {unit : Nat} (h : unit ∈ units c) : unit < 0x10000 := by
  have hlt := toNat_lt c
  unfold units at h
  split at h
  · next hplane => rwa [List.mem_singleton.mp h]
  · simp only [List.mem_cons, List.not_mem_nil, or_false] at h
    omega

/-- A unit that stands for itself. Half a pair of surrogates becomes a replacement character. -/
def scalar (u : Nat) : Char :=
  if 0xD800 ≤ u ∧ u < 0xE000 then Char.ofNat 0xFFFD else Char.ofNat u

/-- The first half of a pair, and the second one. -/
def IsPair (u v : Nat) : Prop := (0xD800 ≤ u ∧ u < 0xDC00) ∧ 0xDC00 ≤ v ∧ v < 0xE000

instance (u v : Nat) : Decidable (IsPair u v) := inferInstanceAs (Decidable (_ ∧ _ ∧ _))

def decodeReplace : List Nat → List Char
  | [] => []
  | [u] => [scalar u]
  | u :: v :: rest =>
      if IsPair u v then
        Char.ofNat (0x10000 + (u - 0xD800) * 1024 + (v - 0xDC00)) :: decodeReplace rest
      else scalar u :: decodeReplace (v :: rest)

theorem decodeReplace_cons {u : Nat} (h : u < 0xD800 ∨ 0xE000 ≤ u) (rest : List Nat) :
    decodeReplace (u :: rest) = Char.ofNat u :: decodeReplace rest := by
  have hscalar : scalar u = Char.ofNat u := if_neg (by omega)
  cases rest with
  | nil => exact congrArg (fun c => [c]) hscalar
  | cons v rest =>
      have hpair : ¬ IsPair u v := by
        unfold IsPair
        omega
      rw [decodeReplace, if_neg hpair, hscalar]

theorem decodeReplace_units_append (c : Char) (rest : List Nat) :
    decodeReplace (units c ++ rest) = c :: decodeReplace rest := by
  have hvalid : c.toNat < 0xD800 ∨ 0xDFFF < c.toNat ∧ c.toNat < 0x110000 := c.valid
  unfold units
  split
  · rw [List.singleton_append, decodeReplace_cons (by omega), Char.ofNat_toNat]
  · have hpair : IsPair (0xD800 + (c.toNat - 0x10000) / 1024)
        (0xDC00 + (c.toNat - 0x10000) % 1024) := by
      unfold IsPair
      omega
    have hsum : 0x10000 + (0xD800 + (c.toNat - 0x10000) / 1024 - 0xD800) * 1024 +
        (0xDC00 + (c.toNat - 0x10000) % 1024 - 0xDC00) = c.toNat := by
      omega
    rw [List.cons_append, List.singleton_append, decodeReplace, if_pos hpair, hsum,
      Char.ofNat_toNat]

@[simp] theorem decodeReplace_units (s : List Char) : decodeReplace (s.flatMap units) = s := by
  induction s with
  | nil => rfl
  | cons c s ih => rw [List.flatMap_cons, decodeReplace_units_append, ih]

end Utf16

namespace Utf32

def encode (bigEndian : Bool) (s : List Char) : List UInt8 :=
  s.flatMap fun c => orderedBytes bigEndian 4 c.toNat

end Utf32

end Lib
