import AkesoDlp.Lib.Utf8

/-!
# JSON

A reader of JSON texts (RFC 8259) over bytes, with escapes and surrogate pairs; a
string has to be UTF-8. The fuel bounds the nesting and the number of elements.
-/

namespace Lib

/-- A number is its text; the members of an object stand in the order of the text. -/
inductive Json
  | null
  | bool (b : Bool)
  | num (lexeme : List UInt8)
  | str (s : List UInt8)
  | arr (elements : List Json)
  | obj (members : List (List UInt8 × Json))

namespace Json

/-! ## Reading -/

def isWs (b : UInt8) : Bool := b == 32 || b == 9 || b == 10 || b == 13

def skipWs (bytes : List UInt8) : List UInt8 := bytes.dropWhile isWs

/-- The byte `b` after white space. -/
def token (b : UInt8) (bytes : List UInt8) : Option (List UInt8) :=
  match skipWs bytes with
  | [] => none
  | c :: rest => if c = b then some rest else none

def hexValue (b : UInt8) : Option Nat :=
  if 48 ≤ b ∧ b ≤ 57 then some (b.toNat - 48)
  else if 65 ≤ b ∧ b ≤ 70 then some (b.toNat - 55)
  else if 97 ≤ b ∧ b ≤ 102 then some (b.toNat - 87)
  else none

def hex4 : List UInt8 → Option (Nat × List UInt8)
  | a :: b :: c :: d :: rest => do
      let a ← hexValue a
      let b ← hexValue b
      let c ← hexValue c
      let d ← hexValue d
      some (((a * 16 + b) * 16 + c) * 16 + d, rest)
  | _ => none

/-- The second half of a surrogate pair. -/
def lowSurrogate : List UInt8 → Option (Nat × List UInt8)
  | a :: b :: rest =>
      if a = 92 ∧ b = 117 then do
        let (low, rest) ← hex4 rest
        if 0xDC00 ≤ low ∧ low ≤ 0xDFFF then some (low - 0xDC00, rest) else none
      else none
  | _ => none

/-- The code point after `\u`. -/
def codePoint (bytes : List UInt8) : Option (Nat × List UInt8) := do
  let (high, rest) ← hex4 bytes
  if 0xD800 ≤ high ∧ high ≤ 0xDBFF then do
    let (low, rest) ← lowSurrogate rest
    some (0x10000 + (high - 0xD800) * 0x400 + low, rest)
  else if 0xDC00 ≤ high ∧ high ≤ 0xDFFF then none
  else some (high, rest)

/-- The character that a letter after the backslash stands for. -/
def shortEscape (b : UInt8) : Option UInt8 :=
  if b = 34 ∨ b = 92 ∨ b = 47 then some b
  else if b = 98 then some 8
  else if b = 102 then some 12
  else if b = 110 then some 10
  else if b = 114 then some 13
  else if b = 116 then some 9
  else none

/-- What follows a backslash. -/
def escape : List UInt8 → Option (List UInt8 × List UInt8)
  | [] => none
  | b :: rest =>
      if b = 117 then do
        let (c, rest) ← codePoint rest
        some (String.utf8EncodeChar (Char.ofNat c), rest)
      else do
        let c ← shortEscape b
        some ([c], rest)

/-- The characters up to the closing quotation mark. -/
def chars : (fuel : Nat) → List UInt8 → Option (List UInt8 × List UInt8)
  | 0, _ => none
  | _ + 1, [] => none
  | n + 1, b :: rest =>
      if b = 34 then some ([], rest)
      else if b = 92 then do
        let (c, rest) ← escape rest
        let (s, rest) ← chars n rest
        some (c ++ s, rest)
      else if b < 32 then none
      else do
        let (s, rest) ← chars n rest
        some (b :: s, rest)

/-- A string, after the opening quotation mark. -/
def string (bytes : List UInt8) : Option (List UInt8 × List UInt8) := do
  let (s, rest) ← chars bytes.length bytes
  if (Utf8.decodeStrict s).isSome then some (s, rest) else none

def isDigit (b : UInt8) : Bool := 48 ≤ b && b ≤ 57

def digits (bytes : List UInt8) : Option (List UInt8 × List UInt8) :=
  if bytes.takeWhile isDigit = [] then none
  else some (bytes.takeWhile isDigit, bytes.dropWhile isDigit)

def minus : List UInt8 → List UInt8 × List UInt8
  | [] => ([], [])
  | b :: rest => if b = 45 then ([b], rest) else ([], b :: rest)

/-- No leading zeros. -/
def intPart : List UInt8 → Option (List UInt8 × List UInt8)
  | [] => none
  | b :: rest => if b = 48 then some ([b], rest) else digits (b :: rest)

def fracPart : List UInt8 → Option (List UInt8 × List UInt8)
  | [] => some ([], [])
  | b :: rest =>
      if b = 46 then do
        let (ds, rest) ← digits rest
        some (b :: ds, rest)
      else some ([], b :: rest)

def sign : List UInt8 → List UInt8 × List UInt8
  | [] => ([], [])
  | b :: rest => if b = 43 ∨ b = 45 then ([b], rest) else ([], b :: rest)

def expPart : List UInt8 → Option (List UInt8 × List UInt8)
  | [] => some ([], [])
  | b :: rest =>
      if b = 69 ∨ b = 101 then do
        let (ds, rest') ← digits (sign rest).2
        some (b :: (sign rest).1 ++ ds, rest')
      else some ([], b :: rest)

def number (bytes : List UInt8) : Option (List UInt8 × List UInt8) := do
  let (whole, rest) ← intPart (minus bytes).2
  let (frac, rest) ← fracPart rest
  let (exp, rest) ← expPart rest
  some ((minus bytes).1 ++ whole ++ frac ++ exp, rest)

/-- `true`, `false`, `null` or a number. -/
def scalar (bytes : List UInt8) : Option (Json × List UInt8) :=
  if [116, 114, 117, 101].isPrefixOf bytes then some (.bool true, bytes.drop 4)
  else if [102, 97, 108, 115, 101].isPrefixOf bytes then some (.bool false, bytes.drop 5)
  else if [110, 117, 108, 108].isPrefixOf bytes then some (.null, bytes.drop 4)
  else do
    let (lexeme, rest) ← number bytes
    some (.num lexeme, rest)

mutual

def value : (fuel : Nat) → List UInt8 → Option (Json × List UInt8)
  | 0, _ => none
  | n + 1, bytes =>
      match skipWs bytes with
      | [] => none
      | b :: rest =>
          if b = 123 then
            match token 125 rest with
            | some rest => some (.obj [], rest)
            | none => do
                let (ms, rest) ← members n rest
                some (.obj ms, rest)
          else if b = 91 then
            match token 93 rest with
            | some rest => some (.arr [], rest)
            | none => do
                let (vs, rest) ← elements n rest
                some (.arr vs, rest)
          else if b = 34 then do
            let (s, rest) ← string rest
            some (.str s, rest)
          else scalar (b :: rest)

/-- The members of an object that has some, and its closing brace. -/
def members : (fuel : Nat) → List UInt8 → Option (List (List UInt8 × Json) × List UInt8)
  | 0, _ => none
  | n + 1, bytes => do
      let rest ← token 34 bytes
      let (key, rest) ← string rest
      let rest ← token 58 rest
      let (v, rest) ← value n rest
      match token 44 rest with
      | some rest =>
          let (ms, rest) ← members n rest
          some ((key, v) :: ms, rest)
      | none =>
          let rest ← token 125 rest
          some ([(key, v)], rest)

/-- The elements of an array that has some, and its closing bracket. -/
def elements : (fuel : Nat) → List UInt8 → Option (List Json × List UInt8)
  | 0, _ => none
  | n + 1, bytes => do
      let (v, rest) ← value n bytes
      match token 44 rest with
      | some rest =>
          let (vs, rest) ← elements n rest
          some (v :: vs, rest)
      | none =>
          let rest ← token 93 rest
          some ([v], rest)

end

/-- A whole text. Each level and each element takes two bytes, so the fuel is enough. -/
def parse (bytes : List UInt8) : Option Json := do
  let (v, rest) ← value (bytes.length + 1) bytes
  if skipWs rest = [] then some v else none

/-! ## Strings -/

/-- The bytes that may not stand in a string as they are. -/
def needsEscape (b : UInt8) : Bool := b == 34 || b == 92 || b < 32

/-- A string that stands for itself between quotation marks. -/
def PlainStr (s : List UInt8) : Prop :=
  (∀ b ∈ s, needsEscape b = false) ∧ (Utf8.decodeStrict s).isSome

instance (s : List UInt8) : Decidable (PlainStr s) :=
  inferInstanceAs (Decidable (_ ∧ _))

/-! ## Looking at a value -/

/-- The value of a key; the last one counts. -/
def lookup (key : List UInt8) : List (List UInt8 × Json) → Option Json
  | [] => none
  | (k, v) :: ms => (lookup key ms).orElse fun _ => if k = key then some v else none

def get (key : List UInt8) : Json → Option Json
  | .obj ms => lookup key ms
  | _ => none

def asStr : Json → Option (List UInt8)
  | .str s => some s
  | _ => none

def asArr : Json → Option (List Json)
  | .arr vs => some vs
  | _ => none

theorem lookup_eq_none {key : List UInt8} {ms : List (List UInt8 × Json)}
    (h : key ∉ ms.map Prod.fst) : lookup key ms = none := by
  induction ms with
  | nil => rfl
  | cons m ms ih =>
      obtain ⟨k, v⟩ := m
      rw [List.map_cons, List.mem_cons, not_or] at h
      rw [lookup, ih h.2]
      exact if_neg (Ne.symm h.1)

theorem lookup_of_mem {key : List UInt8} {v : Json} {ms : List (List UInt8 × Json)}
    (hnodup : (ms.map Prod.fst).Nodup) (h : (key, v) ∈ ms) : lookup key ms = some v := by
  induction ms with
  | nil => cases h
  | cons m ms ih =>
      rw [List.map_cons, List.nodup_cons] at hnodup
      rcases List.mem_cons.mp h with rfl | hmem
      · rw [lookup, lookup_eq_none hnodup.1]
        exact if_pos rfl
      · obtain ⟨k, w⟩ := m
        rw [lookup, ih hnodup.2 hmem]
        rfl

theorem eq_obj_of_get {key : List UInt8} {v w : Json} (h : v.get key = some w) :
    ∃ ms, v = .obj ms ∧ lookup key ms = some w := by
  cases v with
  | obj ms => exact ⟨ms, rfl, h⟩
  | null | bool | num | str | arr => cases h

theorem asStr_eq_some {v : Json} {s : List UInt8} : v.asStr = some s ↔ v = .str s := by
  cases v <;> simp [asStr]

theorem asArr_eq_some {v : Json} {vs : List Json} : v.asArr = some vs ↔ v = .arr vs := by
  cases v <;> simp [asArr]

end Json

end Lib
