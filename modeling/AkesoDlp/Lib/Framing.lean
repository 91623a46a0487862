import AkesoDlp.Lib.Utf8
import Mathlib.Data.List.TakeWhile

/-!
# Messages behind their lengths

Messages are sent one after the other, each behind its length. Whoever reads the stream gets
the messages back, and what is left when no whole message comes next.
-/

namespace Lib

/-- How a length is written. It is read back whatever follows. -/
structure LengthPrefix (α : Type*) where
  write : Nat → List α
  read : List α → Option (Nat × List α)
  read_write : ∀ n rest, read (write n ++ rest) = some (n, rest)
  write_ne_nil : ∀ n, write n ≠ []

namespace LengthPrefix

variable {α : Type*} (p : LengthPrefix α)

def frame (message : List α) : List α := p.write message.length ++ message

def stream (messages : List (List α)) : List α := messages.flatMap p.frame

/-- The next message and what follows it, if all of it is there. -/
def next (s : List α) : Option (List α × List α) :=
  (p.read s).bind fun r => if r.1 ≤ r.2.length then some (r.2.take r.1, r.2.drop r.1) else none

def receiveFuel : Nat → List α → List (List α) × List α
  | 0, s => ([], s)
  | fuel + 1, s =>
      match p.next s with
      | none => ([], s)
      | some (message, rest) =>
          let r := receiveFuel fuel rest
          (message :: r.1, r.2)

/-- The messages of a stream, and what is left of it. -/
def receive (s : List α) : List (List α) × List α := p.receiveFuel s.length s

theorem next_frame_append (message rest : List α) :
    p.next (p.frame message ++ rest) = some (message, rest) := by
  rw [next, frame, List.append_assoc, p.read_write, Option.bind_some, if_pos (by simp),
    List.take_left, List.drop_left]

theorem length_lt_length_frame (message : List α) : message.length < (p.frame message).length := by
  have hpos := List.length_pos_iff.mpr (p.write_ne_nil message.length)
  rw [frame, List.length_append]
  omega

theorem receiveFuel_stream_append {rest : List α} (h : p.next rest = none) (fuel : Nat)
    (messages : List (List α)) (hfuel : messages.length ≤ fuel) :
    p.receiveFuel fuel (p.stream messages ++ rest) = (messages, rest) := by
  induction messages generalizing fuel with
  | nil =>
      cases fuel with
      | zero => rfl
      | succ fuel =>
          have hrest : p.stream [] ++ rest = rest := rfl
          rw [receiveFuel, hrest, h]
  | cons message messages ih =>
      cases fuel with
      | zero => exact absurd hfuel (Nat.not_succ_le_zero _)
      | succ fuel =>
          have hsplit : p.stream (message :: messages) ++ rest =
              p.frame message ++ (p.stream messages ++ rest) := by
            rw [stream, List.flatMap_cons, List.append_assoc, ← stream]
          rw [receiveFuel, hsplit, p.next_frame_append]
          simp only [ih fuel (Nat.le_of_succ_le_succ hfuel)]

theorem length_le_length_stream (messages : List (List α)) :
    messages.length ≤ (p.stream messages).length := by
  induction messages with
  | nil => exact Nat.zero_le _
  | cons message messages ih =>
      have hframe := p.length_lt_length_frame message
      rw [stream, List.flatMap_cons, List.length_append, ← stream, List.length_cons]
      omega

/-- Whatever was sent is received, also when the stream ends within a message. -/
theorem receive_stream_append {rest : List α} (h : p.next rest = none)
    (messages : List (List α)) : p.receive (p.stream messages ++ rest) = (messages, rest) := by
  refine p.receiveFuel_stream_append h _ messages ?_
  rw [List.length_append]
  exact Nat.le_add_right_of_le (p.length_le_length_stream messages)

theorem stream_append (messages messages' : List (List α)) :
    p.stream (messages ++ messages') = p.stream messages ++ p.stream messages' :=
  List.flatMap_append

theorem receiveFuel_stream (messages : List (List α)) (rest : List α) (fuel : Nat) :
    p.receiveFuel (messages.length + fuel) (p.stream messages ++ rest) =
      (messages ++ (p.receiveFuel fuel rest).1, (p.receiveFuel fuel rest).2) := by
  induction messages with
  | nil => rw [List.length_nil, Nat.zero_add]; rfl
  | cons message messages ih =>
      have hsplit : p.stream (message :: messages) ++ rest =
          p.frame message ++ (p.stream messages ++ rest) := List.append_assoc ..
      rw [List.length_cons, Nat.add_right_comm, receiveFuel, hsplit, p.next_frame_append]
      dsimp only
      rw [ih, List.cons_append]

/-- What was sent whole is received, whatever follows. -/
theorem prefix_receive_stream_append (messages : List (List α)) (rest : List α) :
    messages <+: (p.receive (p.stream messages ++ rest)).1 := by
  have hle : messages.length ≤ (p.stream messages ++ rest).length := by
    rw [List.length_append]
    exact Nat.le_add_right_of_le (p.length_le_length_stream messages)
  obtain ⟨fuel, hfuel⟩ := Nat.exists_eq_add_of_le hle
  rw [receive, hfuel, p.receiveFuel_stream]
  exact List.prefix_append _ _

/-! ## Streams that are cut off -/

/-- A length of which something is missing is not read. -/
def NeedsAll : Prop := ∀ n part, part <+: p.write n → part ≠ p.write n → p.read part = none

variable {p}

theorem NeedsAll.next_nil (hp : p.NeedsAll) : p.next [] = none := by
  rw [next, hp 0 [] List.nil_prefix (p.write_ne_nil 0).symm, Option.bind_none]

theorem NeedsAll.next_eq_none (hp : p.NeedsAll) {message part : List α}
    (hpart : part <+: p.frame message) (hne : part ≠ p.frame message) : p.next part = none := by
  rcases List.prefix_or_prefix_of_prefix hpart (List.prefix_append _ message) with hw | ⟨t, rfl⟩
  · by_cases heq : part = p.write message.length
    · -- the length is there, and nothing of the message
      have hread := p.read_write message.length []
      rw [List.append_nil] at hread
      rw [next, heq, hread, Option.bind_some, if_neg]
      intro hle
      obtain rfl := List.eq_nil_of_length_eq_zero (Nat.le_zero.mp hle)
      exact hne (heq.trans (List.append_nil _).symm)
    · rw [next, hp _ part hw heq, Option.bind_none]
  · rw [frame, List.prefix_append_right_inj] at hpart
    have hlt : t.length < message.length := by
      refine Nat.lt_of_le_of_ne hpart.length_le fun heq => hne ?_
      rw [frame, hpart.eq_of_length heq]
    rw [next, p.read_write, Option.bind_some, if_neg (by simpa using hlt)]

/-- What has arrived is the frames of the first messages, and a part of the next. -/
theorem NeedsAll.split_prefix (hp : p.NeedsAll) {messages : List (List α)} {part : List α}
    (h : part <+: p.stream messages) :
    ∃ k rest, part = p.stream (messages.take k) ++ rest ∧ p.next rest = none := by
  induction messages generalizing part with
  | nil => exact ⟨0, [], List.eq_nil_of_prefix_nil h, hp.next_nil⟩
  | cons message messages ih =>
      rw [stream, List.flatMap_cons, ← stream] at h
      rcases List.prefix_or_prefix_of_prefix h (List.prefix_append _ _) with hpart | ⟨t, rfl⟩
      · by_cases heq : part = p.frame message
        · refine ⟨1, [], ?_, hp.next_nil⟩
          rw [heq, List.take_succ_cons, List.take_zero, stream, List.flatMap_singleton,
            List.append_nil]
        · exact ⟨0, part, rfl, hp.next_eq_none hpart heq⟩
      · obtain ⟨k, rest, rfl, hrest⟩ := ih ((List.prefix_append_right_inj _).mp h)
        have hframes : p.stream (message :: messages.take k) =
            p.frame message ++ p.stream (messages.take k) := List.flatMap_cons
        exact ⟨k + 1, rest, by rw [List.take_succ_cons, hframes, List.append_assoc], hrest⟩

/-- Wherever a stream is cut off, the messages received are the first of those sent. -/
theorem NeedsAll.receive_prefix (hp : p.NeedsAll) {messages : List (List α)} {part : List α}
    (h : part <+: p.stream messages) : (p.receive part).1 <+: messages := by
  obtain ⟨k, rest, rfl, hrest⟩ := hp.split_prefix h
  rw [p.receive_stream_append hrest]
  exact List.take_prefix k messages

end LengthPrefix

/-! ## Decimal lengths -/

/-- Digits up to a space. -/
def readDecimal (bytes : List UInt8) : Option (Nat × List UInt8) :=
  (Utf8.decodeStrict (bytes.takeWhile (· ≠ 32))).bind fun digits =>
    match bytes.dropWhile (· ≠ 32) with
    | [] => none
    | _ :: rest =>
        if digits ≠ [] ∧ digits.all Char.isDigit = true then
          some (Nat.ofDigitChars 10 digits 0, rest)
        else none

theorem ne_space_of_mem_digits {n : Nat} {b : UInt8} (h : b ∈ Utf8.encode (Nat.toDigits 10 n)) :
    b ≠ 32 := by
  rintro rfl
  obtain ⟨c, hc, hmem⟩ := List.mem_flatMap.mp h
  have hspace : c = ' ' := by
    rw [← Char.ofNat_toNat c, (Utf8.ascii_mem_utf8EncodeChar (by decide)).mp hmem]
    rfl
  have hdigit := Nat.isDigit_of_mem_toDigits (by decide) (by decide) hc
  rw [hspace] at hdigit
  exact absurd hdigit (by decide)

theorem readDecimal_write (n : Nat) (rest : List UInt8) :
    readDecimal (Utf8.encode (Nat.toDigits 10 n ++ [' ']) ++ rest) = some (n, rest) := by
  have hbytes : ∀ b ∈ Utf8.encode (Nat.toDigits 10 n), decide (b ≠ 32) = true :=
    fun b hb => decide_eq_true (ne_space_of_mem_digits hb)
  have hsplit : Utf8.encode (Nat.toDigits 10 n ++ [' ']) ++ rest =
      Utf8.encode (Nat.toDigits 10 n) ++ 32 :: rest := by
    have hspace : Utf8.encode [' '] = [32] := by decide
    rw [Utf8.encode, List.flatMap_append, ← Utf8.encode, ← Utf8.encode, hspace, List.append_assoc,
      List.singleton_append]
  have hdigits : (Nat.toDigits 10 n).all Char.isDigit = true :=
    List.all_eq_true.mpr fun c hc => Nat.isDigit_of_mem_toDigits (by decide) (by decide) hc
  rw [readDecimal, hsplit, List.takeWhile_append_of_pos hbytes, List.dropWhile_append_of_pos hbytes,
    List.takeWhile_cons_of_neg (by simp), List.dropWhile_cons_of_neg (by simp), List.append_nil,
    Utf8.decodeStrict_encode, Option.bind_some]
  simp only [hdigits, Nat.toDigits_ne_nil, Nat.ofDigitChars_ten_toDigits, ne_eq, not_false_eq_true,
    and_self, if_true]

/-- A length in decimal digits, and a space. -/
def decimalPrefix : LengthPrefix UInt8 where
  write n := Utf8.encode (Nat.toDigits 10 n ++ [' '])
  read := readDecimal
  read_write := readDecimal_write
  write_ne_nil n h := by
    have hread := readDecimal_write n []
    rw [h] at hread
    cases hread

/-- Without the space at its end no length is read. -/
theorem decimalPrefix_needsAll : decimalPrefix.NeedsAll := by
  intro n part hpart hne
  have hspace : Utf8.encode [' '] = [32] := by decide
  have hwrite : decimalPrefix.write n = Utf8.encode (Nat.toDigits 10 n) ++ [32] := by
    show Utf8.encode (Nat.toDigits 10 n ++ [' ']) = _
    rw [Utf8.encode, List.flatMap_append, ← Utf8.encode, ← Utf8.encode, hspace]
  rw [hwrite] at hpart hne
  have hdigits := (List.prefix_concat_iff.mp hpart).resolve_left hne
  have hdrop : part.dropWhile (· ≠ 32) = [] := by
    refine List.dropWhile_eq_nil_iff.mpr fun b hb => decide_eq_true ?_
    exact ne_space_of_mem_digits (hdigits.subset hb)
  show readDecimal part = none
  rw [readDecimal, hdrop]
  cases Utf8.decodeStrict (part.takeWhile (· ≠ 32)) <;> rfl

end Lib
