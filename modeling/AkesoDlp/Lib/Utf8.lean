import Mathlib.Data.List.Basic

/-!
# UTF-8 with error handling

Decoding goes from one character, or one ill-formed sequence, to the next. An
ill-formed sequence is as long as it is the beginning of some character, and one
byte at least; what becomes of it is up to the error handler. Encoded text decodes
to itself.
-/

namespace Lib.Utf8

def encode (s : List Char) : List UInt8 := s.flatMap String.utf8EncodeChar

/-- What a first byte announces: how many bytes follow, the bounds for the first of
them, and the bits of the character that it holds. -/
def lead (b : Nat) : Option (Nat × Nat × Nat × Nat) :=
  if b < 0x80 then some (0, 0, 0, b)
  else if b < 0xC2 then none
  else if b ≤ 0xDF then some (1, 0x80, 0xBF, b % 32)
  else if b = 0xE0 then some (2, 0xA0, 0xBF, b % 16)
  else if b = 0xED then some (2, 0x80, 0x9F, b % 16)
  else if b ≤ 0xEF then some (2, 0x80, 0xBF, b % 16)
  else if b = 0xF0 then some (3, 0x90, 0xBF, b % 8)
  else if b ≤ 0xF3 then some (3, 0x80, 0xBF, b % 8)
  else if b = 0xF4 then some (3, 0x80, 0x8F, b % 8)
  else none

/-- Read the `n` bytes that follow, the first of them between `low` and `high`. The
byte that does not fit is not consumed. -/
def tails : (n low high bits : Nat) → List UInt8 → Option Char × List UInt8
  | 0, _, _, bits, rest => (some (Char.ofNat bits), rest)
  | _ + 1, _, _, _, [] => (none, [])
  | n + 1, low, high, bits, b :: rest =>
      if low ≤ b.toNat ∧ b.toNat ≤ high then
        tails n 0x80 0xBF (bits * 64 + b.toNat % 64) rest
      else (none, b :: rest)

/-- The first character, or `none` for an ill-formed sequence, and what is left. -/
def next (b : UInt8) (rest : List UInt8) : Option Char × List UInt8 :=
  match lead b.toNat with
  | none => (none, rest)
  | some (n, low, high, bits) => tails n low high bits rest

/-- At most `fuel` characters and ill-formed sequences. -/
def scanFuel : (fuel : Nat) → List UInt8 → List (Option Char)
  | 0, _ => []
  | _ + 1, [] => []
  | fuel + 1, b :: rest => (next b rest).1 :: scanFuel fuel (next b rest).2

def scan (bytes : List UInt8) : List (Option Char) := scanFuel bytes.length bytes

/-- Every ill-formed sequence becomes U+FFFD. -/
def decodeReplace (bytes : List UInt8) : List Char :=
  (scan bytes).map fun c => c.getD (Char.ofNat 0xFFFD)

/-- Ill-formed sequences are refused. -/
def decodeStrict (bytes : List UInt8) : Option (List Char) :=
  let chars := scan bytes
  if chars.all Option.isSome then some (chars.filterMap id) else none

/-! ## Lengths -/

theorem length_tails_le (n low high bits : Nat) (rest : List UInt8) :
    (tails n low high bits rest).2.length ≤ rest.length := by
  induction rest generalizing n low high bits with
  | nil => cases n <;> simp [tails]
  | cons b rest ih =>
      cases n with
      | zero => simp [tails]
      | succ n =>
          rw [tails]
          split
          · exact Nat.le_succ_of_le (ih ..)
          · exact Nat.le_refl _

theorem length_next_le (b : UInt8) (rest : List UInt8) : (next b rest).2.length ≤ rest.length := by
  unfold next
  split
  · exact Nat.le_refl _
  · exact length_tails_le ..

theorem length_scanFuel_le (fuel : Nat) (bytes : List UInt8) :
    (scanFuel fuel bytes).length ≤ bytes.length := by
  induction fuel generalizing bytes with
  | zero => simp [scanFuel]
  | succ fuel ih =>
      cases bytes with
      | nil => simp [scanFuel]
      | cons b rest =>
          rw [scanFuel, List.length_cons, List.length_cons]
          exact Nat.succ_le_succ (Nat.le_trans (ih _) (length_next_le b rest))

theorem length_decodeReplace_le (bytes : List UInt8) :
    (decodeReplace bytes).length ≤ bytes.length := by
  rw [decodeReplace, List.length_map]
  exact length_scanFuel_le ..

theorem length_decodeStrict_le {bytes : List UInt8} {s : List Char}
    (h : decodeStrict bytes = some s) : s.length ≤ bytes.length := by
  simp only [decodeStrict, Option.ite_none_right_eq_some, Option.some.injEq] at h
  rw [← h.2]
  exact Nat.le_trans (List.length_filterMap_le ..) (length_scanFuel_le ..)

/-! ## Encoded text -/

theorem lead_two {b : Nat} (hb : 0xC2 ≤ b ∧ b ≤ 0xDF) :
    lead b = some (1, 0x80, 0xBF, b % 32) := by
  unfold lead
  rw [if_neg (by omega), if_neg (by omega), if_pos (by omega)]

/-- The bounds on the second byte leave out overlong forms and surrogates. -/
theorem lead_three {b c : Nat} (hb : 0xE0 ≤ b ∧ b ≤ 0xEF) (hc : 0x80 ≤ c ∧ c ≤ 0xBF)
    (hlong : b = 0xE0 → 0xA0 ≤ c) (hsurrogate : b = 0xED → c ≤ 0x9F) :
    ∃ low high, lead b = some (2, low, high, b % 16) ∧ low ≤ c ∧ c ≤ high := by
  unfold lead
  rw [if_neg (by omega), if_neg (by omega), if_neg (by omega)]
  split
  · next h => exact ⟨_, _, rfl, hlong h, hc.2⟩
  · split
    · next h => exact ⟨_, _, rfl, hc.1, hsurrogate h⟩
    · rw [if_pos hb.2]
      exact ⟨_, _, rfl, hc.1, hc.2⟩

theorem lead_four {b c : Nat} (hb : 0xF0 ≤ b ∧ b ≤ 0xF4) (hc : 0x80 ≤ c ∧ c ≤ 0xBF)
    (hlong : b = 0xF0 → 0x90 ≤ c) (hhigh : b = 0xF4 → c ≤ 0x8F) :
    ∃ low high, lead b = some (3, low, high, b % 8) ∧ low ≤ c ∧ c ≤ high := by
  unfold lead
  rw [if_neg (by omega), if_neg (by omega), if_neg (by omega), if_neg (by omega),
    if_neg (by omega), if_neg (by omega)]
  split
  · next h => exact ⟨_, _, rfl, hlong h, hc.2⟩
  · split
    · exact ⟨_, _, rfl, hc.1, hc.2⟩
    · have h : b = 0xF4 := by omega
      rw [if_pos h]
      exact ⟨_, _, rfl, hc.1, hhigh h⟩

theorem tails_cons {n low high bits : Nat} {b : UInt8} {rest : List UInt8}
    (h : low ≤ b.toNat ∧ b.toNat ≤ high) :
    tails (n + 1) low high bits (b :: rest) =
      tails n 0x80 0xBF (bits * 64 + b.toNat % 64) rest := by
  rw [tails, if_pos h]

/-- An encoded character is read as itself. -/
theorem next_utf8EncodeChar (c : Char) (rest : List UInt8) :
    ∃ b bytes, String.utf8EncodeChar c = b :: bytes ∧ next b (bytes ++ rest) = (some c, rest) := by
  have hchar : Char.ofNat c.val.toNat = c := Char.ofNat_toNat c
  have hvalid : c.val.toNat < 0xD800 ∨ 0xDFFF < c.val.toNat ∧ c.val.toNat < 0x110000 := c.valid
  unfold String.utf8EncodeChar
  generalize c.val.toNat = n at hchar hvalid
  have hbyte : ∀ m, m < 256 → (UInt8.ofNat m).toNat = m := fun m hm => UInt8.toNat_ofNat_of_lt' hm
  have htail : (UInt8.ofNat (n % 64 + 0x80)).toNat = n % 64 + 0x80 := hbyte _ (by omega)
  have htail' : (UInt8.ofNat (n / 64 % 64 + 0x80)).toNat = n / 64 % 64 + 0x80 := hbyte _ (by omega)
  simp only []
  split
  · next h1 =>
      refine ⟨_, _, rfl, ?_⟩
      rw [next, hbyte _ (by omega), lead, if_pos (by omega)]
      simp [tails, hchar]
  · split
    · next h1 h2 =>
        refine ⟨_, _, rfl, ?_⟩
        rw [next, hbyte _ (by omega), lead_two (by omega)]
        simp only [List.cons_append, List.nil_append]
        rw [tails_cons (by omega), tails, htail]
        have hbits : (n / 64 % 32 + 0xC0) % 32 * 64 + (n % 64 + 0x80) % 64 = n := by omega
        rw [hbits, hchar]
    · split
      · next h1 h2 h3 =>
          refine ⟨_, _, rfl, ?_⟩
          obtain ⟨low, high, hlead, hlow⟩ := lead_three (b := n / 4096 % 16 + 0xE0)
            (c := n / 64 % 64 + 0x80) (by omega) (by omega) (by omega) (by omega)
          rw [next, hbyte _ (by omega), hlead]
          simp only [List.cons_append, List.nil_append]
          rw [tails_cons (by omega), tails_cons (by omega), tails, htail, htail']
          have hbits : ((n / 4096 % 16 + 0xE0) % 16 * 64 + (n / 64 % 64 + 0x80) % 64) * 64 +
              (n % 64 + 0x80) % 64 = n := by omega
          rw [hbits, hchar]
      · next h1 h2 h3 =>
          refine ⟨_, _, rfl, ?_⟩
          have htail'' : (UInt8.ofNat (n / 4096 % 64 + 0x80)).toNat = n / 4096 % 64 + 0x80 :=
            hbyte _ (by omega)
          obtain ⟨low, high, hlead, hlow⟩ := lead_four (b := n / 262144 % 8 + 0xF0)
            (c := n / 4096 % 64 + 0x80) (by omega) (by omega) (by omega) (by omega)
          rw [next, hbyte _ (by omega), hlead]
          simp only [List.cons_append, List.nil_append]
          rw [tails_cons (by omega), tails_cons (by omega), tails_cons (by omega), tails, htail,
            htail', htail'']
          have hbits : (((n / 262144 % 8 + 0xF0) % 8 * 64 + (n / 4096 % 64 + 0x80) % 64) * 64 +
              (n / 64 % 64 + 0x80) % 64) * 64 + (n % 64 + 0x80) % 64 = n := by omega
          rw [hbits, hchar]

@[simp] theorem encode_cons (c : Char) (s : List Char) :
    encode (c :: s) = String.utf8EncodeChar c ++ encode s := rfl

theorem scanFuel_encode {fuel : Nat} {s : List Char} (h : (encode s).length ≤ fuel) :
    scanFuel fuel (encode s) = s.map some := by
  induction s generalizing fuel with
  | nil => cases fuel <;> rfl
  | cons c s ih =>
      obtain ⟨b, bytes, hchar, hnext⟩ := next_utf8EncodeChar c (encode s)
      rw [encode_cons, hchar, List.cons_append] at h ⊢
      rw [List.length_cons, List.length_append] at h
      obtain ⟨fuel, rfl⟩ : ∃ f, fuel = f + 1 := ⟨fuel - 1, by omega⟩
      rw [scanFuel, hnext, ih (by omega)]
      rfl

theorem scan_encode (s : List Char) : scan (encode s) = s.map some :=
  scanFuel_encode (Nat.le_refl _)

@[simp] theorem decodeReplace_encode (s : List Char) : decodeReplace (encode s) = s := by
  rw [decodeReplace, scan_encode, List.map_map]
  exact List.map_id s

@[simp] theorem decodeStrict_encode (s : List Char) : decodeStrict (encode s) = some s := by
  simp [decodeStrict, scan_encode, List.filterMap_map]

/-- The bytes of a multi-byte character are all above 127. -/
theorem ascii_mem_utf8EncodeChar {b : UInt8} (hb : b.toNat < 128) {c : Char} :
    b ∈ String.utf8EncodeChar c ↔ c.toNat = b.toNat := by
  have hbyte : ∀ n, n < 256 → (b = UInt8.ofNat n ↔ b.toNat = n) := by
    intro n hn
    rw [← UInt8.toNat_inj, UInt8.toNat_ofNat_of_lt' hn]
  have hc : c.toNat = c.val.toNat := rfl
  unfold String.utf8EncodeChar
  rw [hc]
  simp only []
  split
  · next hlow =>
      rw [List.mem_singleton, hbyte _ (by omega), eq_comm]
  · split
    · simp only [List.mem_cons, List.not_mem_nil, or_false]
      rw [hbyte _ (by omega), hbyte _ (by omega)]
      omega
    · split
      · simp only [List.mem_cons, List.not_mem_nil, or_false]
        rw [hbyte _ (by omega), hbyte _ (by omega), hbyte _ (by omega)]
        omega
      · simp only [List.mem_cons, List.not_mem_nil, or_false]
        rw [hbyte _ (by omega), hbyte _ (by omega), hbyte _ (by omega), hbyte _ (by omega)]
        omega

/-- A character of ASCII is one byte. -/
theorem utf8EncodeChar_ascii {c : Char} (h : c.toNat < 128) :
    String.utf8EncodeChar c = [UInt8.ofNat c.toNat] := by
  have hc : c.toNat = c.val.toNat := rfl
  unfold String.utf8EncodeChar
  rw [if_pos (by omega)]
  rfl

end Lib.Utf8
