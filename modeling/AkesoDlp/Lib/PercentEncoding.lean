import AkesoDlp.Lib.Shortening
import AkesoDlp.Lib.Utf8

/-!
# Percent encoding

`unquote` replaces escapes in the runs of ASCII characters of a text; what the
bytes of a run stand for is read as UTF-8 with replacement. Undoing an escape
shortens the text, and an encoding of every byte is undone.
-/

namespace Lib.PercentEncoding

def isAscii (c : Char) : Bool := decide (c.toNat < 128)

def hexValue (c : Char) : Option Nat :=
  let n := c.toNat
  if 48 ≤ n ∧ n ≤ 57 then some (n - 48)
  else if 65 ≤ n ∧ n ≤ 70 then some (n - 55)
  else if 97 ≤ n ∧ n ≤ 102 then some (n - 87)
  else none

def hexByte (a b : Char) : Option UInt8 :=
  match hexValue a, hexValue b with
  | some x, some y => some (UInt8.ofNat (x * 16 + y))
  | _, _ => none

/-- The byte escaped at `c`, with `s` after it. -/
def escapeAt (c : Char) (s : List Char) : Option UInt8 :=
  match s with
  | a :: b :: _ => if c = '%' then hexByte a b else none
  | _ => none

def hasEscape : List Char → Bool
  | [] => false
  | c :: s => (escapeAt c s).isSome || hasEscape s

/-- The first `skip` characters belong to an escape that is already undone. -/
def toBytesFrom : (skip : Nat) → List Char → List UInt8
  | _, [] => []
  | skip + 1, _ :: s => toBytesFrom skip s
  | 0, c :: s =>
      match escapeAt c s with
      | some byte => byte :: toBytesFrom 2 s
      | none => String.utf8EncodeChar c ++ toBytesFrom 0 s

/-- `unquote_to_bytes`. -/
def unquoteToBytes (s : List Char) : List UInt8 := toBytesFrom 0 s

def unquoteRun (run : List Char) : List Char := Utf8.decodeReplace (unquoteToBytes run)

/-- `run` holds the ASCII characters read since the last character that is not. -/
def unquoteFrom (run : List Char) : List Char → List Char
  | [] => unquoteRun run
  | c :: s =>
      if isAscii c then unquoteFrom (run ++ [c]) s
      else unquoteRun run ++ c :: unquoteFrom [] s

def unquote (s : List Char) : List Char := if '%' ∈ s then unquoteFrom [] s else s

/-- Every byte is written as `%` and two hexadecimal digits, of either case. -/
inductive Encoded : List UInt8 → List Char → Prop
  | nil : Encoded [] []
  | cons {byte : UInt8} {a b : Char} {bytes : List UInt8} {s : List Char}
      (hbyte : hexByte a b = some byte) (hrest : Encoded bytes s) :
      Encoded (byte :: bytes) ('%' :: a :: b :: s)

def hexDigit (v : Nat) : Char := if v < 10 then Char.ofNat (48 + v) else Char.ofNat (55 + v)

/-- The encoding with capital digits. -/
def encode (bytes : List UInt8) : List Char :=
  bytes.flatMap fun b => ['%', hexDigit (b.toNat / 16), hexDigit (b.toNat % 16)]

/-! ## ASCII -/

theorem length_utf8EncodeChar {c : Char} (h : isAscii c = true) :
    (String.utf8EncodeChar c).length = 1 := by
  have hc : c.toNat ≤ 127 := Nat.le_of_lt_succ (of_decide_eq_true h)
  simp [String.utf8EncodeChar, hc]

theorem hexValue_isAscii {c : Char} (h : (hexValue c).isSome) : isAscii c = true := by
  rw [isAscii, decide_eq_true_iff]
  simp only [hexValue] at h
  split at h
  · omega
  · split at h
    · omega
    · split at h
      · omega
      · simp at h

theorem hexByte_isSome {a b : Char} {byte : UInt8} (h : hexByte a b = some byte) :
    (hexValue a).isSome ∧ (hexValue b).isSome := by
  unfold hexByte at h
  split at h
  · next hx hy => simp [hx, hy]
  · simp at h

/-! ## Escapes shorten -/

theorem length_escapeAt {c : Char} {s : List Char} {byte : UInt8}
    (h : escapeAt c s = some byte) : 2 ≤ s.length := by
  unfold escapeAt at h
  split at h
  · simp
  · simp at h

theorem length_toBytesFrom_le {skip : Nat} {s : List Char} (h : ∀ c ∈ s, isAscii c = true) :
    (toBytesFrom skip s).length ≤ (s.drop skip).length := by
  induction s generalizing skip with
  | nil => cases skip <;> simp [toBytesFrom]
  | cons c s ih =>
      rw [List.forall_mem_cons] at h
      cases skip with
      | succ skip => exact ih h.2
      | zero =>
          rw [toBytesFrom, List.drop_zero, List.length_cons]
          split
          · have hle : (toBytesFrom 2 s).length ≤ (s.drop 2).length := ih h.2
            rw [List.length_drop] at hle
            rw [List.length_cons]
            omega
          · have hle : (toBytesFrom 0 s).length ≤ (s.drop 0).length := ih h.2
            rw [List.length_append, length_utf8EncodeChar h.1]
            rw [List.drop_zero] at hle
            omega

theorem length_toBytesFrom_lt {s : List Char} (h : ∀ c ∈ s, isAscii c = true)
    (hescape : hasEscape s = true) : (toBytesFrom 0 s).length < s.length := by
  induction s with
  | nil => simp [hasEscape] at hescape
  | cons c s ih =>
      rw [List.forall_mem_cons] at h
      rw [toBytesFrom, List.length_cons]
      split
      · next byte hbyte =>
          have hle : (toBytesFrom 2 s).length ≤ (s.drop 2).length := length_toBytesFrom_le h.2
          have htwo := length_escapeAt hbyte
          rw [List.length_drop] at hle
          rw [List.length_cons]
          omega
      · next hnone =>
          rw [hasEscape, hnone, Option.isSome_none, Bool.false_or] at hescape
          have hlt := ih h.2 hescape
          rw [List.length_append, length_utf8EncodeChar h.1]
          omega

theorem toBytesFrom_of_not_hasEscape {s : List Char} (h : hasEscape s = false) :
    toBytesFrom 0 s = Utf8.encode s := by
  induction s with
  | nil => rfl
  | cons c s ih =>
      rw [hasEscape, Bool.or_eq_false_iff, Option.isSome_eq_false_iff, Option.isNone_iff_eq_none]
        at h
      rw [toBytesFrom, h.1, ih h.2]
      rfl

theorem unquoteRun_of_not_hasEscape {run : List Char} (h : hasEscape run = false) :
    unquoteRun run = run := by
  rw [unquoteRun, unquoteToBytes, toBytesFrom_of_not_hasEscape h, Utf8.decodeReplace_encode]

theorem length_unquoteRun_lt {run : List Char} (h : ∀ c ∈ run, isAscii c = true)
    (hescape : hasEscape run = true) : (unquoteRun run).length < run.length :=
  Nat.lt_of_le_of_lt (Utf8.length_decodeReplace_le _) (length_toBytesFrom_lt h hescape)

theorem shortens_unquoteRun {run : List Char} (h : ∀ c ∈ run, isAscii c = true) :
    Shortens run (unquoteRun run) := by
  cases hescape : hasEscape run with
  | false => exact .inl (unquoteRun_of_not_hasEscape hescape)
  | true => exact .inr (length_unquoteRun_lt h hescape)

theorem unquoteRun_eq_iff {run : List Char} (h : ∀ c ∈ run, isAscii c = true) :
    unquoteRun run = run ↔ hasEscape run = false := by
  refine ⟨fun heq => ?_, unquoteRun_of_not_hasEscape⟩
  by_contra hescape
  have hlt := length_unquoteRun_lt h (Bool.not_eq_false _ ▸ hescape)
  rw [heq] at hlt
  exact Nat.lt_irrefl _ hlt

theorem forall_isAscii_concat {run : List Char} {c : Char} (h : ∀ d ∈ run, isAscii d = true)
    (hc : isAscii c = true) : ∀ d ∈ run ++ [c], isAscii d = true := by
  simpa [or_imp, forall_and] using And.intro h hc

theorem shortens_unquoteFrom {run s : List Char} (h : ∀ c ∈ run, isAscii c = true) :
    Shortens (run ++ s) (unquoteFrom run s) := by
  induction s generalizing run with
  | nil =>
      rw [List.append_nil]
      exact shortens_unquoteRun h
  | cons c s ih =>
      rw [unquoteFrom]
      split
      · next hc =>
          rw [List.append_cons]
          exact ih (forall_isAscii_concat h hc)
      · exact (shortens_unquoteRun h).append ((ih (List.forall_mem_nil _)).cons c)

theorem shortens_unquote (s : List Char) : Shortens s (unquote s) := by
  unfold unquote
  split
  · exact shortens_unquoteFrom (List.forall_mem_nil _)
  · exact .refl s

/-! ## Runs -/

theorem unquoteFrom_append {run d s : List Char} (h : ∀ c ∈ d, isAscii c = true) :
    unquoteFrom run (d ++ s) = unquoteFrom (run ++ d) s := by
  induction d generalizing run with
  | nil => simp
  | cons c d ih =>
      rw [List.forall_mem_cons] at h
      rw [List.cons_append, unquoteFrom, if_pos h.1, ih h.2, ← List.append_cons]

theorem unquoteFrom_of_isAscii {run s : List Char} (h : ∀ c ∈ s, isAscii c = true) :
    unquoteFrom run s = unquoteRun (run ++ s) := by
  rw [← List.append_nil s, unquoteFrom_append h, List.append_nil]
  rfl

theorem escapeAt_eq_none {c : Char} (h : c ≠ '%') (s : List Char) : escapeAt c s = none := by
  unfold escapeAt
  split
  · exact if_neg h
  · rfl

theorem hasEscape_of_not_mem {s : List Char} (h : '%' ∉ s) : hasEscape s = false := by
  induction s with
  | nil => rfl
  | cons c s ih =>
      rw [List.mem_cons, not_or] at h
      rw [hasEscape, ih h.2, escapeAt_eq_none (Ne.symm h.1)]
      rfl

theorem unquoteRun_of_not_mem {run : List Char} (h : '%' ∉ run) : unquoteRun run = run :=
  unquoteRun_of_not_hasEscape (hasEscape_of_not_mem h)

/-! ## Encoded text -/

theorem hexValue_hexDigit {v : Nat} (h : v < 16) : hexValue (hexDigit v) = some v := by
  have hall : ∀ v : Fin 16, hexValue (hexDigit v) = some v.1 := by decide
  exact hall ⟨v, h⟩

theorem encoded_encode (bytes : List UInt8) : Encoded bytes (encode bytes) := by
  induction bytes with
  | nil => exact .nil
  | cons b bytes ih =>
      have hb : b.toNat < 256 := b.toNat_lt_size
      refine .cons ?_ ih
      rw [hexByte, hexValue_hexDigit (by omega), hexValue_hexDigit (by omega)]
      simp only [Nat.div_add_mod', UInt8.ofNat_toNat]

theorem Encoded.isAscii {bytes : List UInt8} {s : List Char} (h : Encoded bytes s) :
    ∀ c ∈ s, isAscii c = true := by
  induction h with
  | nil => simp
  | cons hbyte _ ih =>
      have hhex := hexByte_isSome hbyte
      simp only [List.forall_mem_cons]
      exact ⟨rfl, hexValue_isAscii hhex.1, hexValue_isAscii hhex.2, ih⟩

theorem toBytesFrom_append {run : List Char} (h : '%' ∉ run) (s : List Char) :
    toBytesFrom 0 (run ++ s) = Utf8.encode run ++ toBytesFrom 0 s := by
  induction run with
  | nil => rfl
  | cons c run ih =>
      rw [List.mem_cons, not_or] at h
      rw [List.cons_append, toBytesFrom, escapeAt_eq_none (Ne.symm h.1), ih h.2,
        Utf8.encode_cons, List.append_assoc]

theorem Encoded.toBytesFrom_append {bytes : List UInt8} {w : List Char} (h : Encoded bytes w)
    (s : List Char) : toBytesFrom 0 (w ++ s) = bytes ++ toBytesFrom 0 s := by
  induction h with
  | nil => rfl
  | @cons byte a b bytes w hbyte _ ih =>
      have hescape : escapeAt '%' (a :: b :: (w ++ s)) = some byte := by
        rw [escapeAt, if_pos rfl, hbyte]
      rw [List.cons_append, List.cons_append, List.cons_append, toBytesFrom, hescape]
      simp only [toBytesFrom]
      rw [ih, List.cons_append]

theorem Encoded.unquoteToBytes {bytes : List UInt8} {s : List Char} (h : Encoded bytes s) :
    unquoteToBytes s = bytes := by
  have hbytes := h.toBytesFrom_append []
  rwa [List.append_nil, toBytesFrom, List.append_nil] at hbytes

/-- The round trip. -/
theorem Encoded.unquote {s w : List Char} (h : Encoded (Utf8.encode s) w) : unquote w = s := by
  unfold PercentEncoding.unquote
  split
  · rw [unquoteFrom_of_isAscii h.isAscii, List.nil_append, unquoteRun, h.unquoteToBytes,
      Utf8.decodeReplace_encode]
  · next hmem =>
      have hescape := hasEscape_of_not_mem hmem
      rw [← Utf8.decodeReplace_encode s, ← h.unquoteToBytes, PercentEncoding.unquoteToBytes,
        toBytesFrom_of_not_hasEscape hescape, Utf8.decodeReplace_encode]

/-! ## Encoded text between other text -/

theorem unquoteFrom_of_not_mem {run s : List Char} (hrun : '%' ∉ run) (hs : '%' ∉ s) :
    unquoteFrom run s = run ++ s := by
  induction s generalizing run with
  | nil => rw [unquoteFrom, unquoteRun_of_not_mem hrun, List.append_nil]
  | cons c s ih =>
      rw [List.mem_cons, not_or] at hs
      rw [unquoteFrom]
      split
      · rw [ih (by simp [hrun, hs.1]) hs.2, ← List.append_cons]
      · rw [unquoteRun_of_not_mem hrun, ih List.not_mem_nil hs.2, List.nil_append]

theorem Encoded.unquoteRun_between {s w front back : List Char} (h : Encoded (Utf8.encode s) w)
    (hfront : '%' ∉ front) (hback : '%' ∉ back) :
    unquoteRun (front ++ (w ++ back)) = front ++ (s ++ back) := by
  have hbytes : PercentEncoding.unquoteToBytes (front ++ (w ++ back)) =
      Utf8.encode (front ++ (s ++ back)) := by
    rw [PercentEncoding.unquoteToBytes, PercentEncoding.toBytesFrom_append hfront,
      h.toBytesFrom_append, toBytesFrom_of_not_hasEscape (hasEscape_of_not_mem hback)]
    simp [Utf8.encode]
  rw [unquoteRun, hbytes, Utf8.decodeReplace_encode]

/-- The run that holds the end of the encoded text. -/
theorem Encoded.unquoteFrom_between {s w front mid back : List Char}
    (h : Encoded (Utf8.encode s) w) (hfront : '%' ∉ front) (hmid : '%' ∉ mid)
    (hback : '%' ∉ back) :
    unquoteFrom (front ++ (w ++ mid)) back = front ++ (s ++ (mid ++ back)) := by
  induction back generalizing mid with
  | nil => rw [unquoteFrom, h.unquoteRun_between hfront hmid, List.append_nil]
  | cons c back ih =>
      rw [List.mem_cons, not_or] at hback
      rw [unquoteFrom]
      split
      · have hstep := @ih (mid ++ [c]) (by simp [hmid, hback.1]) hback.2
        simpa using hstep
      · rw [h.unquoteRun_between hfront hmid, unquoteFrom_of_not_mem List.not_mem_nil hback.2]
        simp

/-- Nothing but the encoded text is escaped. -/
theorem Encoded.unquote_between {s w front back : List Char} (h : Encoded (Utf8.encode s) w)
    (hfront : '%' ∉ front) (hback : '%' ∉ back) :
    PercentEncoding.unquote (front ++ (w ++ back)) = front ++ (s ++ back) := by
  have hfrom : ∀ run, '%' ∉ run →
      unquoteFrom run (front ++ (w ++ back)) = run ++ (front ++ (s ++ back)) := by
    induction front with
    | nil =>
        intro run hrun
        have hlast := h.unquoteFrom_between hrun List.not_mem_nil hback
        rwa [List.append_nil, List.nil_append, ← unquoteFrom_append h.isAscii] at hlast
    | cons c front ih =>
        intro run hrun
        rw [List.mem_cons, not_or] at hfront
        rw [List.cons_append, unquoteFrom]
        split
        · rw [ih hfront.2 _ (by simp [hrun, hfront.1]), ← List.append_cons]
          rfl
        · rw [unquoteRun_of_not_mem hrun, ih hfront.2 _ List.not_mem_nil]
          rfl
  unfold PercentEncoding.unquote
  split
  · exact hfrom [] List.not_mem_nil
  · next hmem =>
      have hw : '%' ∉ w := fun hw =>
        hmem (List.mem_append_right _ (List.mem_append_left _ hw))
      have hself : w = s := by
        rw [← h.unquote, PercentEncoding.unquote, if_neg hw]
      rw [hself]

end Lib.PercentEncoding
