import Mathlib.Data.List.Basic

/-!
# Base64

The standard alphabet with padding. Decoding is strict: digits, then padding that
fills the last group of four. What was encoded decodes to itself.
-/

namespace Lib.Base64

/-- The digit of a six-bit value. -/
def digit (v : Nat) : Char :=
  if v < 26 then Char.ofNat (65 + v)
  else if v < 52 then Char.ofNat (71 + v)
  else if v < 62 then Char.ofNat (v - 4)
  else if v = 62 then '+'
  else '/'

def value (c : Char) : Option Nat :=
  let n := c.toNat
  if 65 ≤ n ∧ n ≤ 90 then some (n - 65)
  else if 97 ≤ n ∧ n ≤ 122 then some (n - 71)
  else if 48 ≤ n ∧ n ≤ 57 then some (n + 4)
  else if c = '+' then some 62
  else if c = '/' then some 63
  else none

def isDigit (c : Char) : Bool := (value c).isSome

/-- The bytes in groups of six bits; the last group is filled up with zeros. -/
def sextets : List UInt8 → List Nat
  | [] => []
  | [a] => [a.toNat / 4, a.toNat % 4 * 16]
  | [a, b] => [a.toNat / 4, a.toNat % 4 * 16 + b.toNat / 16, b.toNat % 16 * 4]
  | a :: b :: c :: rest =>
      (a.toNat / 4) :: (a.toNat % 4 * 16 + b.toNat / 16) :: (b.toNat % 16 * 4 + c.toNat / 64) ::
        (c.toNat % 64) :: sextets rest

def ofSextets : List Nat → List UInt8
  | a :: b :: c :: d :: rest =>
      UInt8.ofNat (a * 4 + b / 16) :: UInt8.ofNat (b % 16 * 16 + c / 4) ::
        UInt8.ofNat (c % 4 * 64 + d) :: ofSextets rest
  | [a, b, c] => [UInt8.ofNat (a * 4 + b / 16), UInt8.ofNat (b % 16 * 16 + c / 4)]
  | [a, b] => [UInt8.ofNat (a * 4 + b / 16)]
  | _ => []

/-- The number of `=` after the digits of `n` bytes. -/
def padding (n : Nat) : Nat := (3 - n % 3) % 3

def digits (bytes : List UInt8) : List Char := (sextets bytes).map digit

def encode (bytes : List UInt8) : List Char :=
  digits bytes ++ List.replicate (padding bytes.length) '='

/-- Whether `pads` times `=` may follow `n` digits. Decoders differ in whether they
pass padding after full groups: `excess` says that this one does. -/
def padsOk (excess : Bool) (n pads : Nat) : Bool :=
  match n % 4 with
  | 0 => pads == 0 || (excess && n != 0)
  | 1 => false
  | 2 => pads == 2
  | _ => pads == 1

def decode (excess : Bool) (s : List Char) : Option (List UInt8) :=
  let data := s.takeWhile isDigit
  let pads := s.drop data.length
  if pads.all (· == '=') && padsOk excess data.length pads.length then
    some (ofSextets (data.filterMap value))
  else none

/-! ## Round trip -/

theorem value_digit {v : Nat} (h : v < 64) : value (digit v) = some v := by
  have hall : ∀ v : Fin 64, value (digit v) = some v.1 := by decide
  exact hall ⟨v, h⟩

theorem sextets_lt (bytes : List UInt8) : ∀ v ∈ sextets bytes, v < 64 := by
  have hbyte : ∀ b : UInt8, b.toNat < 256 := UInt8.toNat_lt_size
  induction bytes using sextets.induct with
  | case1 => simp [sextets]
  | case2 a =>
      have ha := hbyte a
      simp only [sextets, List.forall_mem_cons]
      exact ⟨by omega, by omega, by simp⟩
  | case3 a b =>
      have ha := hbyte a
      have hb := hbyte b
      simp only [sextets, List.forall_mem_cons]
      exact ⟨by omega, by omega, by omega, by simp⟩
  | case4 a b c rest ih =>
      have ha := hbyte a
      have hb := hbyte b
      have hc := hbyte c
      simp only [sextets, List.forall_mem_cons]
      exact ⟨by omega, by omega, by omega, by omega, ih⟩

theorem ofSextets_sextets (bytes : List UInt8) : ofSextets (sextets bytes) = bytes := by
  have hbyte : ∀ b : UInt8, b.toNat < 256 := UInt8.toNat_lt_size
  have heq : ∀ (b : UInt8) (n : Nat), n = b.toNat → UInt8.ofNat n = b := by
    rintro b n rfl
    exact UInt8.ofNat_toNat
  induction bytes using sextets.induct with
  | case1 => rfl
  | case2 a =>
      have ha := hbyte a
      rw [sextets, ofSextets, heq a _ (by omega)]
  | case3 a b =>
      have ha := hbyte a
      have hb := hbyte b
      rw [sextets, ofSextets, heq a _ (by omega), heq b _ (by omega)]
  | case4 a b c rest ih =>
      have ha := hbyte a
      have hb := hbyte b
      have hc := hbyte c
      rw [sextets, ofSextets, heq a _ (by omega), heq b _ (by omega), heq c _ (by omega), ih]

theorem length_sextets (bytes : List UInt8) :
    3 * (sextets bytes).length = 4 * bytes.length + padding bytes.length % 3 := by
  induction bytes using sextets.induct with
  | case1 => rfl
  | case2 a => rfl
  | case3 a b => rfl
  | case4 a b c rest ih =>
      have hpad : padding (rest.length + 3) = padding rest.length := by simp [padding]
      simp only [sextets, List.length_cons, hpad]
      omega

theorem length_ofSextets_le (vs : List Nat) : 4 * (ofSextets vs).length ≤ 3 * vs.length := by
  induction vs using ofSextets.induct with
  | case1 a b c d rest ih =>
      simp only [ofSextets, List.length_cons]
      omega
  | case2 => simp [ofSextets]
  | case3 => simp [ofSextets]
  | case4 => simp [ofSextets]

theorem isDigit_of_mem_digits {bytes : List UInt8} {c : Char} (h : c ∈ digits bytes) :
    isDigit c = true := by
  obtain ⟨v, hv, rfl⟩ := List.mem_map.mp h
  rw [isDigit, value_digit (sextets_lt bytes v hv)]
  rfl

theorem filterMap_value_digits (bytes : List UInt8) :
    (digits bytes).filterMap value = sextets bytes := by
  rw [digits, List.filterMap_map]
  have hsome : ∀ v ∈ sextets bytes, (value ∘ digit) v = some v :=
    fun v hv => value_digit (sextets_lt bytes v hv)
  rw [List.filterMap_congr hsome, List.filterMap_some]

theorem padsOk_encode (excess : Bool) (bytes : List UInt8) :
    padsOk excess (digits bytes).length (padding bytes.length) = true := by
  have hlength := length_sextets bytes
  rw [digits, List.length_map]
  -- the bytes of the last group
  have hmod : bytes.length % 3 = 0 ∨ bytes.length % 3 = 1 ∨ bytes.length % 3 = 2 := by omega
  rcases hmod with hmod | hmod | hmod
  · have hp : padding bytes.length = 0 := by rw [padding, hmod]
    have hn : (sextets bytes).length % 4 = 0 := by omega
    simp [padsOk, hn, hp]
  · have hp : padding bytes.length = 2 := by rw [padding, hmod]
    have hn : (sextets bytes).length % 4 = 2 := by omega
    simp [padsOk, hn, hp]
  · have hp : padding bytes.length = 1 := by rw [padding, hmod]
    have hn : (sextets bytes).length % 4 = 3 := by omega
    simp [padsOk, hn, hp]

theorem decode_encode (excess : Bool) (bytes : List UInt8) :
    decode excess (encode bytes) = some bytes := by
  have hdata : (encode bytes).takeWhile isDigit = digits bytes := by
    rw [encode, List.takeWhile_append_of_pos fun c hc => isDigit_of_mem_digits hc]
    cases padding bytes.length with
    | zero => simp
    | succ n => simp [List.replicate_succ, isDigit, value]
  simp only [decode]
  rw [hdata, encode, List.drop_left, List.length_replicate, if_pos]
  · rw [filterMap_value_digits, ofSextets_sextets]
  · simp [padsOk_encode]

theorem length_decode_le {excess : Bool} {s : List Char} {bytes : List UInt8}
    (h : decode excess s = some bytes) :
    4 * bytes.length ≤ 3 * (s.takeWhile isDigit).length := by
  simp only [decode, Option.ite_none_right_eq_some, Option.some.injEq] at h
  rw [← h.2]
  have hfilter : ((s.takeWhile isDigit).filterMap value).length ≤ (s.takeWhile isDigit).length :=
    List.length_filterMap_le ..
  have hle := length_ofSextets_le ((s.takeWhile isDigit).filterMap value)
  omega

example : encode [77, 97] = "TWE=".toList ∧ decode false "TWE=".toList = some [77, 97] := by decide

end Lib.Base64
