import AkesoDlp.Lib.Json
import Mathlib.Data.List.TakeWhile

/-!
# Writing JSON in a layout

A writer that puts white space between the tokens and escapes in the strings, as a layout
tells it to. Whatever the white space, what is written is read back if the escaped strings
are.
-/

namespace Lib

namespace Json

/-- The white space in front of what stands at a level, and after a colon; and what is written
for a string between its quotation marks. -/
structure Layout where
  newline : Nat → List UInt8
  colon : List UInt8
  quote : List UInt8 → List UInt8
  newline_ws : ∀ level, ∀ b ∈ newline level, isWs b = true
  colon_ws : ∀ b ∈ colon, isWs b = true

section

variable (layout : Layout)

mutual

/-- The text of a value at a level. -/
def write (level : Nat) : Json → List UInt8
  | .null => [110, 117, 108, 108]
  | .bool true => [116, 114, 117, 101]
  | .bool false => [102, 97, 108, 115, 101]
  | .num lexeme => lexeme
  | .str s => 34 :: layout.quote s ++ [34]
  | .arr vs => 91 :: writeElements level vs ++ [93]
  | .obj ms => 123 :: writeMembers level ms ++ [125]

def writeElements (level : Nat) : List Json → List UInt8
  | [] => []
  | [v] => layout.newline (level + 1) ++ write (level + 1) v ++ layout.newline level
  | v :: w :: vs =>
      layout.newline (level + 1) ++ write (level + 1) v ++ 44 :: writeElements level (w :: vs)

def writeMembers (level : Nat) : List (List UInt8 × Json) → List UInt8
  | [] => []
  | [(key, v)] =>
      layout.newline (level + 1) ++ 34 :: layout.quote key ++ 34 :: 58 :: layout.colon ++
        write (level + 1) v ++ layout.newline level
  | (key, v) :: m :: ms =>
      layout.newline (level + 1) ++ 34 :: layout.quote key ++ 34 :: 58 :: layout.colon ++
        write (level + 1) v ++ 44 :: writeMembers level (m :: ms)

end

end

/-! ## Numbers -/

/-- What cannot go on a number. -/
def NumberEnds (rest : List UInt8) : Prop :=
  ∀ b ∈ rest.head?, isDigit b = false ∧ b ≠ 46 ∧ b ≠ 69 ∧ b ≠ 101

/-- Digits without a leading zero. -/
structure IsNatural (lexeme : List UInt8) : Prop where
  ne_nil : lexeme ≠ []
  digits : ∀ b ∈ lexeme, isDigit b = true
  zero : ∀ bytes, lexeme = 48 :: bytes → bytes = []

/-- A number and nothing else. -/
def IsNumeral (lexeme : List UInt8) : Prop := number lexeme = some (lexeme, [])

theorem IsNatural.intPart_eq {lexeme : List UInt8} (h : IsNatural lexeme) :
    intPart lexeme = some (lexeme, []) := by
  obtain ⟨b, bytes, rfl⟩ := List.exists_cons_of_ne_nil h.ne_nil
  rw [intPart]
  by_cases hb : b = 48
  · subst hb
    rw [if_pos rfl, h.zero bytes rfl]
  · have htake : (b :: bytes).takeWhile isDigit = b :: bytes :=
      List.takeWhile_eq_self_iff.mpr h.digits
    have hdrop : (b :: bytes).dropWhile isDigit = [] :=
      List.dropWhile_eq_nil_iff.mpr h.digits
    rw [if_neg hb, Json.digits, htake, hdrop]
    rfl

theorem IsNatural.minus_eq {lexeme : List UInt8} (h : IsNatural lexeme) :
    minus lexeme = ([], lexeme) := by
  obtain ⟨b, bytes, rfl⟩ := List.exists_cons_of_ne_nil h.ne_nil
  have hne : b ≠ 45 := by
    rintro rfl
    exact absurd (h.digits 45 List.mem_cons_self) (by decide)
  rw [minus, if_neg hne]

theorem isNumeral_natural {lexeme : List UInt8} (h : IsNatural lexeme) : IsNumeral lexeme := by
  rw [IsNumeral, number, h.minus_eq]
  simp [h.intPart_eq, fracPart, expPart]

theorem isNumeral_negative {lexeme : List UInt8} (h : IsNatural lexeme) :
    IsNumeral (45 :: lexeme) := by
  have hminus : minus (45 :: lexeme) = ([45], lexeme) := rfl
  rw [IsNumeral, number, hminus]
  simp [h.intPart_eq, fracPart, expPart]

section

variable {bytes rest ds r : List UInt8} (hrest : NumberEnds rest)
include hrest

theorem digits_append (h : digits bytes = some (ds, r)) :
    digits (bytes ++ rest) = some (ds, r ++ rest) := by
  have hstop : rest.takeWhile isDigit = [] ∧ rest.dropWhile isDigit = rest := by
    cases rest with
    | nil => exact ⟨rfl, rfl⟩
    | cons b rest => simp [(hrest b rfl).1]
  have htake : (bytes ++ rest).takeWhile isDigit = bytes.takeWhile isDigit := by
    rw [List.takeWhile_append, hstop.1, List.append_nil]
    split
    · next hall => exact ((List.takeWhile_prefix isDigit).eq_of_length hall).symm
    · rfl
  have hdrop : (bytes ++ rest).dropWhile isDigit = bytes.dropWhile isDigit ++ rest := by
    rw [List.dropWhile_append, hstop.2]
    split
    · next hempty => rw [List.isEmpty_iff.mp hempty, List.nil_append]
    · rfl
  unfold digits at h ⊢
  rw [htake, hdrop]
  split at h
  · cases h
  · next hsome =>
      cases h
      rw [if_neg hsome]

theorem intPart_append (h : intPart bytes = some (ds, r)) :
    intPart (bytes ++ rest) = some (ds, r ++ rest) := by
  cases bytes with
  | nil => cases h
  | cons b bytes =>
      rw [intPart] at h
      rw [List.cons_append, intPart]
      split at h
      · next hzero =>
          cases h
          rw [if_pos hzero]
      · next hzero =>
          rw [if_neg hzero]
          exact digits_append hrest h

theorem fracPart_append (h : fracPart bytes = some (ds, r)) :
    fracPart (bytes ++ rest) = some (ds, r ++ rest) := by
  cases bytes with
  | nil =>
      cases h
      cases rest with
      | nil => rfl
      | cons c rest => simp [fracPart, (hrest c rfl).2.1]
  | cons b bytes =>
      rw [fracPart] at h
      rw [List.cons_append, fracPart]
      split at h
      · next hdot =>
          obtain ⟨⟨ds', r'⟩, hdigits, heq⟩ := Option.bind_eq_some_iff.mp h
          cases heq
          rw [if_pos hdot, digits_append hrest hdigits]
          rfl
      · next hdot =>
          cases h
          rw [if_neg hdot, List.cons_append]

theorem expPart_append (h : expPart bytes = some (ds, r)) :
    expPart (bytes ++ rest) = some (ds, r ++ rest) := by
  cases bytes with
  | nil =>
      cases h
      cases rest with
      | nil => rfl
      | cons c rest => simp [expPart, (hrest c rfl).2.2]
  | cons b bytes =>
      rw [expPart] at h
      rw [List.cons_append, expPart]
      split at h
      · next hexp =>
          obtain ⟨⟨ds', r'⟩, hdigits, heq⟩ := Option.bind_eq_some_iff.mp h
          have hsign : sign (bytes ++ rest) = ((sign bytes).1, (sign bytes).2 ++ rest) := by
            cases bytes with
            | nil => cases hdigits
            | cons c bytes =>
                rw [List.cons_append, sign, sign]
                split
                · rfl
                · rfl
          cases heq
          rw [if_pos hexp, hsign, digits_append hrest hdigits]
          rfl
      · next hexp =>
          cases h
          rw [if_neg hexp, List.cons_append]

/-- A number is read up to what cannot go on it. -/
theorem number_append (h : number bytes = some (ds, r)) :
    number (bytes ++ rest) = some (ds, r ++ rest) := by
  obtain ⟨⟨whole, r₁⟩, hint, h⟩ := Option.bind_eq_some_iff.mp h
  obtain ⟨⟨frac, r₂⟩, hfrac, h⟩ := Option.bind_eq_some_iff.mp h
  obtain ⟨⟨exp, r₃⟩, hexp, h⟩ := Option.bind_eq_some_iff.mp h
  cases h
  have hminus : minus (bytes ++ rest) = ((minus bytes).1, (minus bytes).2 ++ rest) := by
    cases bytes with
    | nil => cases hint
    | cons b bytes =>
        rw [List.cons_append, minus, minus]
        split
        · rfl
        · rfl
  unfold number
  rw [hminus, intPart_append hrest hint]
  change (fracPart (r₁ ++ rest) >>= _) = _
  rw [fracPart_append hrest hfrac]
  change (expPart (r₂ ++ rest) >>= _) = _
  rw [expPart_append hrest hexp]
  rfl

end

theorem IsNumeral.head {lexeme : List UInt8} (h : IsNumeral lexeme) :
    ∃ b bytes, lexeme = b :: bytes ∧ (b = 45 ∨ isDigit b = true) := by
  obtain ⟨⟨whole, rest⟩, hint, -⟩ := Option.bind_eq_some_iff.mp h
  cases lexeme with
  | nil => cases hint
  | cons b bytes =>
      refine ⟨b, bytes, rfl, or_iff_not_imp_left.mpr fun hminus => ?_⟩
      rw [minus, if_neg hminus, intPart] at hint
      split at hint
      · next hzero =>
          rw [hzero]
          decide
      · rw [digits, List.takeWhile_cons] at hint
        by_contra hdigit
        rw [if_neg hdigit, if_pos rfl] at hint
        cases hint

theorem IsNumeral.scalar {lexeme rest : List UInt8} (h : IsNumeral lexeme)
    (hrest : NumberEnds rest) : Json.scalar (lexeme ++ rest) = some (.num lexeme, rest) := by
  have hread := number_append hrest h
  obtain ⟨b, bytes, rfl, hb⟩ := h.head
  have hletter : b ≠ 116 ∧ b ≠ 102 ∧ b ≠ 110 := by
    rcases hb with rfl | hb
    · decide
    · refine ⟨?_, ?_, ?_⟩ <;> rintro rfl <;> exact absurd hb (by decide)
  rw [List.cons_append] at hread ⊢
  simp [Json.scalar, List.isPrefixOf, hletter.1.symm, hletter.2.1.symm, hletter.2.2.symm, hread]

/-! ## Reading back -/

section

variable (layout : Layout)

/-- The escaped string is read back. -/
structure Reads (s : List UInt8) : Prop where
  chars : ∀ n rest, (layout.quote s).length < n →
    Json.chars n (layout.quote s ++ 34 :: rest) = some (s, rest)
  utf8 : (Utf8.decodeStrict s).isSome = true

mutual

/-- A value whose numbers are numerals and whose strings are read back. -/
def Readable : Json → Prop
  | .null | .bool _ => True
  | .num lexeme => IsNumeral lexeme
  | .str s => Reads layout s
  | .arr vs => ReadableElements vs
  | .obj ms => ReadableMembers ms

def ReadableElements : List Json → Prop
  | [] => True
  | v :: vs => Readable v ∧ ReadableElements vs

def ReadableMembers : List (List UInt8 × Json) → Prop
  | [] => True
  | (key, v) :: ms => Reads layout key ∧ Readable v ∧ ReadableMembers ms

end

/-- With fuel `n`, the texts of readable values are read back, after any white space. -/
structure ReadsBack (n : Nat) : Prop where
  value : ∀ {v ws rest} level, Readable layout v → (∀ b ∈ ws, isWs b = true) → NumberEnds rest →
    (write layout level v).length ≤ n →
      Json.value n (ws ++ (write layout level v ++ rest)) = some (v, rest)
  members : ∀ {m ms} level rest, ReadableMembers layout (m :: ms) →
    (writeMembers layout level (m :: ms)).length < n →
      Json.members n (writeMembers layout level (m :: ms) ++ 125 :: rest) = some (m :: ms, rest)
  elements : ∀ {v vs} level rest, ReadableElements layout (v :: vs) →
    (writeElements layout level (v :: vs)).length < n →
      Json.elements n (writeElements layout level (v :: vs) ++ 93 :: rest) = some (v :: vs, rest)

end

variable {layout : Layout}

theorem skipWs_append {ws rest : List UInt8} {b : UInt8} (hws : ∀ b ∈ ws, isWs b = true)
    (hb : isWs b = false) : skipWs (ws ++ b :: rest) = b :: rest := by
  rw [skipWs, List.dropWhile_append_of_pos hws, List.dropWhile_cons_of_neg (by simp [hb])]

theorem token_append {ws rest : List UInt8} {b c : UInt8} (hws : ∀ b ∈ ws, isWs b = true)
    (hc : isWs c = false) : token b (ws ++ c :: rest) = if c = b then some rest else none := by
  rw [token, skipWs_append hws hc]

theorem token_cons {rest : List UInt8} {b c : UInt8} (hc : isWs c = false) :
    token b (c :: rest) = if c = b then some rest else none := by
  rw [← token_append (List.forall_mem_nil fun b => isWs b = true) hc, List.nil_append]

theorem numberEnds_append {ws rest : List UInt8} {b : UInt8} (hws : ∀ b ∈ ws, isWs b = true)
    (hb : b = 44 ∨ b = 93 ∨ b = 125) : NumberEnds (ws ++ b :: rest) := by
  intro c hc
  cases ws with
  | nil =>
      cases hc
      rcases hb with rfl | rfl | rfl <;> decide
  | cons d ws =>
      obtain rfl : d = c := Option.some.inj hc
      have hd := hws d List.mem_cons_self
      simp only [isWs, Bool.or_eq_true, beq_iff_eq] at hd
      rcases hd with ((rfl | rfl) | rfl) | rfl <;> decide

theorem string_reads {s : List UInt8} (h : Reads layout s) (rest : List UInt8) :
    string (layout.quote s ++ 34 :: rest) = some (s, rest) := by
  have hlength : (layout.quote s).length < (layout.quote s ++ 34 :: rest).length := by simp
  rw [string, h.chars _ rest hlength]
  exact if_pos h.utf8

/-- No value begins with white space or a closing bracket. -/
theorem write_head {v : Json} (h : Readable layout v) (level : Nat) :
    ∃ b bytes, write layout level v = b :: bytes ∧ isWs b = false ∧ b ≠ 93 := by
  cases v with
  | null => exact ⟨_, _, by rw [write], by decide, by decide⟩
  | bool b => cases b <;> exact ⟨_, _, by rw [write], by decide, by decide⟩
  | num lexeme =>
      rw [Readable] at h
      obtain ⟨b, bytes, rfl, rfl | hb⟩ := h.head
      · exact ⟨45, bytes, by rw [write], by decide, by decide⟩
      · refine ⟨b, bytes, by rw [write], ?_, ?_⟩
        · rw [← Bool.not_eq_true]
          intro hws
          simp only [isWs, Bool.or_eq_true, beq_iff_eq] at hws
          rcases hws with ((rfl | rfl) | rfl) | rfl <;> exact absurd hb (by decide)
        · rintro rfl
          exact absurd hb (by decide)
  | str s => exact ⟨_, _, by rw [write]; rfl, by decide, by decide⟩
  | arr vs => exact ⟨_, _, by rw [write]; rfl, by decide, by decide⟩
  | obj ms => exact ⟨_, _, by rw [write]; rfl, by decide, by decide⟩

theorem writeElements_head {v : Json} (h : Readable layout v) (vs : List Json) (level : Nat) :
    ∃ ws b bytes, writeElements layout level (v :: vs) = ws ++ b :: bytes ∧
      (∀ b ∈ ws, isWs b = true) ∧ isWs b = false ∧ b ≠ 93 := by
  obtain ⟨b, bytes, hwrite, hb⟩ := write_head h (level + 1)
  cases vs with
  | nil =>
      exact ⟨_, b, bytes ++ layout.newline level,
        by rw [writeElements, hwrite, List.append_assoc, List.cons_append],
        layout.newline_ws _, hb⟩
  | cons w vs =>
      exact ⟨_, b, bytes ++ 44 :: writeElements layout level (w :: vs),
        by rw [writeElements, hwrite, List.append_assoc, List.cons_append],
        layout.newline_ws _, hb⟩

theorem writeMembers_head (layout : Layout) (m : List UInt8 × Json)
    (ms : List (List UInt8 × Json)) (level : Nat) :
    ∃ bytes, writeMembers layout level (m :: ms) =
      layout.newline (level + 1) ++ 34 :: bytes := by
  obtain ⟨key, v⟩ := m
  cases ms with
  | nil =>
      exact ⟨layout.quote key ++ 34 :: 58 :: layout.colon ++ write layout (level + 1) v ++
        layout.newline level, by simp [writeMembers]⟩
  | cons m' ms =>
      exact ⟨layout.quote key ++ 34 :: 58 :: layout.colon ++ write layout (level + 1) v ++
        44 :: writeMembers layout level (m' :: ms), by simp [writeMembers]⟩

namespace ReadsBack

variable {n : Nat}

theorem value_succ (ih : ReadsBack layout n) {v : Json} {ws rest : List UInt8} (level : Nat)
    (h : Readable layout v) (hws : ∀ b ∈ ws, isWs b = true) (hrest : NumberEnds rest)
    (hn : (write layout level v).length ≤ n + 1) :
    Json.value (n + 1) (ws ++ (write layout level v ++ rest)) = some (v, rest) := by
  obtain ⟨b, bytes, hwrite, hb, -⟩ := write_head h level
  have hskip : skipWs (ws ++ (write layout level v ++ rest)) = write layout level v ++ rest := by
    rw [hwrite, List.cons_append, skipWs_append hws hb]
  rw [Json.value, hskip]
  cases v with
  | null => simp [write, Json.scalar, List.isPrefixOf]
  | bool b => cases b <;> simp [write, Json.scalar, List.isPrefixOf]
  | num lexeme =>
      rw [Readable] at h
      rw [write] at hwrite ⊢
      have hscalar := h.scalar hrest
      have hne : b ≠ 123 ∧ b ≠ 91 ∧ b ≠ 34 := by
        obtain ⟨b', bytes', hlexeme, hb⟩ := h.head
        obtain ⟨rfl, -⟩ := List.cons.inj (hwrite.symm.trans hlexeme)
        rcases hb with rfl | hb
        · decide
        · refine ⟨?_, ?_, ?_⟩ <;> rintro rfl <;> exact absurd hb (by decide)
      rw [hwrite, List.cons_append] at hscalar ⊢
      simp only [hne, if_false, hscalar]
  | str s =>
      rw [Readable] at h
      have hread := string_reads h rest
      simp only [write, List.cons_append, List.append_assoc, List.nil_append]
      rw [if_neg (by decide), if_neg (by decide), if_pos trivial, hread]
      rfl
  | arr vs =>
      rw [Readable] at h
      cases vs with
      | nil => simp [write, writeElements, token, skipWs, isWs]
      | cons w ws =>
          simp only [write, List.length_append, List.length_cons, List.length_nil] at hn
          have hw : Readable layout w := by
            rw [ReadableElements] at h
            exact h.1
          obtain ⟨ws', c, cs, helements, hws', hc, hne⟩ := writeElements_head hw ws level
          have hread := ih.elements level rest h (by omega)
          have hopen : token 93 (writeElements layout level (w :: ws) ++ 93 :: rest) = none := by
            rw [helements, List.append_assoc, List.cons_append, token_append hws' hc, if_neg hne]
          simp only [write, List.cons_append, List.append_assoc, List.nil_append]
          rw [if_neg (by decide), if_pos trivial, hopen, hread]
          rfl
  | obj ms =>
      rw [Readable] at h
      cases ms with
      | nil => simp [write, writeMembers, token, skipWs, isWs]
      | cons m ms =>
          simp only [write, List.length_append, List.length_cons, List.length_nil] at hn
          obtain ⟨cs, hmembers⟩ := writeMembers_head layout m ms level
          have hread := ih.members level rest h (by omega)
          have hopen : token 125 (writeMembers layout level (m :: ms) ++ 125 :: rest) = none := by
            rw [hmembers, List.append_assoc, List.cons_append,
              token_append (layout.newline_ws _) (by decide), if_neg (by decide)]
          simp only [write, List.cons_append, List.append_assoc, List.nil_append]
          rw [if_pos trivial, hopen, hread]
          rfl

/-- The value is followed by a comma at once, or by its closing bracket after white space. -/
theorem value_then (ih : ReadsBack layout n) {v : Json} {before : List UInt8} (after : List UInt8)
    {b : UInt8} (level : Nat) (h : Readable layout v) (hbefore : ∀ b ∈ before, isWs b = true)
    (hafter : ∀ b ∈ after, isWs b = true) (hb : b = 44 ∨ b = 93 ∨ b = 125)
    (hn : (write layout level v).length ≤ n) (rest : List UInt8) :
    Json.value n (before ++ (write layout level v ++ (after ++ b :: rest))) =
      some (v, after ++ b :: rest) :=
  ih.value level h hbefore (numberEnds_append hafter hb) hn

theorem elements_succ (ih : ReadsBack layout n) {v : Json} {vs : List Json} (level : Nat)
    (rest : List UInt8) (h : ReadableElements layout (v :: vs))
    (hn : (writeElements layout level (v :: vs)).length < n + 1) :
    Json.elements (n + 1) (writeElements layout level (v :: vs) ++ 93 :: rest) =
      some (v :: vs, rest) := by
  rw [ReadableElements] at h
  cases vs with
  | nil =>
      rw [writeElements, List.length_append, List.length_append] at hn
      have hread := ih.value_then (layout.newline level) (level + 1) h.1
        (layout.newline_ws (level + 1)) (layout.newline_ws level) (.inr (.inl rfl)) (by omega) rest
      have hcomma : token 44 (layout.newline level ++ 93 :: rest) = none :=
        token_append (layout.newline_ws level) (by decide)
      have hclose : token 93 (layout.newline level ++ 93 :: rest) = some rest :=
        token_append (layout.newline_ws level) (by decide)
      rw [writeElements, List.append_assoc, List.append_assoc, Json.elements, hread]
      simp [hcomma, hclose]
  | cons w ws =>
      rw [writeElements, List.length_append, List.length_append, List.length_cons] at hn
      have hread := ih.value_then [] (level + 1) h.1
        (layout.newline_ws (level + 1)) (by simp) (.inl rfl) (by omega)
        (writeElements layout level (w :: ws) ++ 93 :: rest)
      have hmore := ih.elements level rest h.2 (by omega)
      have hcomma : token 44 (44 :: (writeElements layout level (w :: ws) ++ 93 :: rest)) =
          some (writeElements layout level (w :: ws) ++ 93 :: rest) :=
        token_cons (by decide)
      rw [List.nil_append] at hread
      rw [writeElements, List.append_assoc, List.append_assoc, List.cons_append, Json.elements,
        hread]
      simp [hcomma, hmore]

theorem members_succ (ih : ReadsBack layout n) {m : List UInt8 × Json}
    {ms : List (List UInt8 × Json)} (level : Nat) (rest : List UInt8)
    (h : ReadableMembers layout (m :: ms))
    (hn : (writeMembers layout level (m :: ms)).length < n + 1) :
    Json.members (n + 1) (writeMembers layout level (m :: ms) ++ 125 :: rest) =
      some (m :: ms, rest) := by
  obtain ⟨key, v⟩ := m
  rw [ReadableMembers] at h
  obtain ⟨hkey, hv, hms⟩ := h
  have hopen : ∀ bytes, token 34 (layout.newline (level + 1) ++ 34 :: bytes) = some bytes :=
    fun bytes => token_append (layout.newline_ws (level + 1)) (by decide)
  have hcolon : ∀ bytes, token 58 (58 :: bytes) = some bytes :=
    fun bytes => token_cons (by decide)
  cases ms with
  | nil =>
      rw [writeMembers] at hn
      simp only [List.length_append, List.length_cons] at hn
      have hread := ih.value_then (layout.newline level) (level + 1) hv layout.colon_ws
        (layout.newline_ws level) (.inr (.inr rfl)) (by omega) rest
      have hcomma : token 44 (layout.newline level ++ 125 :: rest) = none :=
        token_append (layout.newline_ws level) (by decide)
      have hclose : token 125 (layout.newline level ++ 125 :: rest) = some rest :=
        token_append (layout.newline_ws level) (by decide)
      rw [writeMembers, Json.members]
      simp [hopen, string_reads hkey, hcolon, hread, hcomma, hclose]
  | cons m' ms =>
      rw [writeMembers] at hn
      simp only [List.length_append, List.length_cons] at hn
      have hread := ih.value_then [] (level + 1) hv layout.colon_ws (by simp)
        (.inl rfl) (by omega) (writeMembers layout level (m' :: ms) ++ 125 :: rest)
      have hmore := ih.members level rest hms (by omega)
      have hcomma : token 44 (44 :: (writeMembers layout level (m' :: ms) ++ 125 :: rest)) =
          some (writeMembers layout level (m' :: ms) ++ 125 :: rest) :=
        token_cons (by decide)
      rw [List.nil_append] at hread
      rw [writeMembers, Json.members]
      simp [hopen, string_reads hkey, hcolon, hread, hcomma, hmore]

end ReadsBack

theorem readsBack (layout : Layout) (n : Nat) : ReadsBack layout n := by
  induction n with
  | zero =>
      refine ⟨fun _ h _ _ hn => ?_, fun _ _ _ hn => absurd hn (Nat.not_lt_zero _),
        fun _ _ _ hn => absurd hn (Nat.not_lt_zero _)⟩
      obtain ⟨b, bytes, hwrite, -⟩ := write_head h _
      rw [hwrite, List.length_cons] at hn
      omega
  | succ n ih => exact ⟨ih.value_succ, ih.members_succ, ih.elements_succ⟩

/-- The text of a readable value is read back. -/
theorem parse_write {v : Json} (h : Readable layout v) (level : Nat) :
    parse (write layout level v) = some v := by
  have hend : NumberEnds [] := by simp [NumberEnds]
  have hread := (readsBack layout ((write layout level v).length + 1)).value level h
    (List.forall_mem_nil fun b => isWs b = true) hend (Nat.le_succ _)
  rw [List.nil_append, List.append_nil] at hread
  rw [parse, hread]
  rfl

/-! ## Strings in ASCII -/

def hexDigit (v : Nat) : UInt8 := UInt8.ofNat (if v < 10 then 48 + v else 87 + v)

/-- A UTF-16 unit after a backslash. -/
def hexEscape (n : Nat) : List UInt8 :=
  92 :: 117 :: [hexDigit (n / 4096), hexDigit (n / 256 % 16), hexDigit (n / 16 % 16),
    hexDigit (n % 16)]

/-- The letter of a short escape. -/
def shortLetter : Nat → Option UInt8
  | 92 => some 92
  | 34 => some 34
  | 10 => some 110
  | 13 => some 114
  | 9 => some 116
  | 12 => some 102
  | 8 => some 98
  | _ => none

/-- A character of a string, with a short escape if it has one, and one or two long ones if it
is not printable ASCII. -/
def asciiChar (c : Char) : List UInt8 :=
  match shortLetter c.toNat with
  | some letter => [92, letter]
  | none =>
      if 32 ≤ c.toNat ∧ c.toNat ≤ 126 then [UInt8.ofNat c.toNat]
      else if c.toNat < 0x10000 then hexEscape c.toNat
      else hexEscape (0xD800 + (c.toNat - 0x10000) / 0x400) ++
        hexEscape (0xDC00 + (c.toNat - 0x10000) % 0x400)

theorem shortLetter_eq_some {n : Nat} {letter : UInt8} (h : shortLetter n = some letter) :
    n < 128 ∧ letter < 128 ∧ letter ≠ 117 ∧ shortEscape letter = some (UInt8.ofNat n) := by
  unfold shortLetter at h
  split at h <;> cases h <;> decide

/-- The forms that a character can take. -/
theorem asciiChar_cases (c : Char) :
    (∃ letter, shortLetter c.toNat = some letter ∧ asciiChar c = [92, letter]) ∨
    (32 ≤ c.toNat ∧ c.toNat ≤ 126 ∧ c.toNat ≠ 34 ∧ c.toNat ≠ 92 ∧
      asciiChar c = [UInt8.ofNat c.toNat]) ∨
    (c.toNat < 0x10000 ∧ asciiChar c = hexEscape c.toNat) ∨
    (0x10000 ≤ c.toNat ∧ asciiChar c = hexEscape (0xD800 + (c.toNat - 0x10000) / 0x400) ++
      hexEscape (0xDC00 + (c.toNat - 0x10000) % 0x400)) := by
  unfold asciiChar
  cases hshort : shortLetter c.toNat with
  | some letter => exact .inl ⟨letter, rfl, rfl⟩
  | none =>
      refine .inr ?_
      by_cases hprintable : 32 ≤ c.toNat ∧ c.toNat ≤ 126
      · refine .inl ⟨hprintable.1, hprintable.2, ?_, ?_, if_pos hprintable⟩
        · intro heq
          rw [heq] at hshort
          cases hshort
        · intro heq
          rw [heq] at hshort
          cases hshort
      · refine .inr ?_
        by_cases hunit : c.toNat < 0x10000
        · exact .inl ⟨hunit, (if_neg hprintable).trans (if_pos hunit)⟩
        · exact .inr ⟨Nat.le_of_not_lt hunit, (if_neg hprintable).trans (if_neg hunit)⟩

theorem hex4_hexEscape {n : Nat} (h : n < 0x10000) (rest : List UInt8) :
    hex4 ([hexDigit (n / 4096), hexDigit (n / 256 % 16), hexDigit (n / 16 % 16),
      hexDigit (n % 16)] ++ rest) = some (n, rest) := by
  have hdigit : ∀ v < 16, hexValue (hexDigit v) = some v := by decide
  simp only [List.cons_append, List.nil_append, hex4, hdigit (n / 4096) (by omega),
    hdigit (n / 256 % 16) (by omega), hdigit (n / 16 % 16) (by omega),
    hdigit (n % 16) (by omega), Option.bind_eq_bind, Option.bind_some]
  congr 2
  omega

theorem toNat_cases (c : Char) : c.toNat < 0xD800 ∨ (0xDFFF < c.toNat ∧ c.toNat < 0x110000) :=
  c.valid

/-- A unit that stands for itself. -/
theorem escape_unit {n : Nat} (h : n < 0xD800 ∨ 0xDFFF < n ∧ n < 0x10000) (rest : List UInt8) :
    escape ((hexEscape n).tail ++ rest) = some (String.utf8EncodeChar (Char.ofNat n), rest) := by
  have hhex := hex4_hexEscape (n := n) (by omega) rest
  have hhigh : ¬ (0xD800 ≤ n ∧ n ≤ 0xDBFF) := by omega
  have hlow : ¬ (0xDC00 ≤ n ∧ n ≤ 0xDFFF) := by omega
  simp only [hexEscape, List.tail_cons, List.cons_append, List.nil_append] at hhex ⊢
  simp [escape, codePoint, hhex, hhigh, hlow]

/-- Two units for one character. -/
theorem escape_pair {n : Nat} (h : 0x10000 ≤ n ∧ n < 0x110000) (rest : List UInt8) :
    escape ((hexEscape (0xD800 + (n - 0x10000) / 0x400) ++
        hexEscape (0xDC00 + (n - 0x10000) % 0x400)).tail ++ rest) =
      some (String.utf8EncodeChar (Char.ofNat n), rest) := by
  obtain ⟨high, hhigh⟩ : ∃ high, high = 0xD800 + (n - 0x10000) / 0x400 := ⟨_, rfl⟩
  obtain ⟨low, hlow⟩ : ∃ low, low = 0xDC00 + (n - 0x10000) % 0x400 := ⟨_, rfl⟩
  have hhexLow := hex4_hexEscape (n := low) (by omega) rest
  have hhexHigh := hex4_hexEscape (n := high) (by omega) (hexEscape low ++ rest)
  have hhighRange : 0xD800 ≤ high ∧ high ≤ 0xDBFF := by omega
  have hlowRange : 0xDC00 ≤ low ∧ low ≤ 0xDFFF := by omega
  have hsum : 0x10000 + (high - 0xD800) * 0x400 + (low - 0xDC00) = n := by omega
  rw [← hhigh, ← hlow]
  simp only [hexEscape, List.tail_cons, List.cons_append, List.nil_append] at hhexLow hhexHigh ⊢
  simp [escape, codePoint, lowSurrogate, hhexLow, hhexHigh, hhighRange, hlowRange, hsum]

/-- One character is read back. -/
theorem chars_asciiChar (c : Char) (n : Nat) (rest : List UInt8) :
    chars (n + 1) (asciiChar c ++ rest) =
      (chars n rest).map fun p => (String.utf8EncodeChar c ++ p.1, p.2) := by
  have hescape : ∀ bytes, escape (bytes ++ rest) = some (String.utf8EncodeChar c, rest) →
      chars (n + 1) (92 :: bytes ++ rest) =
        (chars n rest).map fun p => (String.utf8EncodeChar c ++ p.1, p.2) := by
    intro bytes h
    rw [List.cons_append, chars, if_neg (by decide), if_pos rfl, h]
    simp only [Option.bind_eq_bind, Option.bind_some]
    cases chars n rest <;> rfl
  obtain ⟨letter, hshort, heq⟩ | ⟨hlow, hhigh, hquote, hslash, heq⟩ | ⟨hunit, heq⟩ |
    ⟨hlarge, heq⟩ := asciiChar_cases c
  · obtain ⟨hascii, -, hne, hletter⟩ := shortLetter_eq_some hshort
    rw [heq]
    refine hescape [letter] ?_
    rw [List.singleton_append, escape, if_neg hne, hletter, Utf8.utf8EncodeChar_ascii hascii]
    rfl
  · have htoNat : (UInt8.ofNat c.toNat).toNat = c.toNat := by
      rw [UInt8.toNat_ofNat', Nat.mod_eq_of_lt (by omega)]
    have hne : ∀ b : UInt8, c.toNat ≠ b.toNat → UInt8.ofNat c.toNat ≠ b := by
      rintro b hc rfl
      exact hc htoNat.symm
    have hbyte : UInt8.ofNat c.toNat ≠ 34 ∧ UInt8.ofNat c.toNat ≠ 92 ∧
        ¬ UInt8.ofNat c.toNat < 32 := by
      refine ⟨hne 34 hquote, hne 92 hslash, ?_⟩
      rw [UInt8.lt_iff_toNat_lt, htoNat]
      exact Nat.not_lt.mpr hlow
    rw [heq, Utf8.utf8EncodeChar_ascii (by omega), List.singleton_append, chars, if_neg hbyte.1,
      if_neg hbyte.2.1, if_neg hbyte.2.2]
    cases chars n rest <;> rfl
  · have hescaped := escape_unit (n := c.toNat) (by have := toNat_cases c; omega) rest
    rw [Char.ofNat_toNat] at hescaped
    rw [heq]
    exact hescape _ hescaped
  · have hescaped := escape_pair (n := c.toNat) (by have := toNat_cases c; omega) rest
    rw [Char.ofNat_toNat] at hescaped
    rw [heq]
    exact hescape _ hescaped

theorem length_asciiChar_pos (c : Char) : 0 < (asciiChar c).length := by
  obtain ⟨letter, -, heq⟩ | ⟨-, -, -, -, heq⟩ | ⟨-, heq⟩ | ⟨-, heq⟩ := asciiChar_cases c
  all_goals simp [heq, hexEscape]

/-- The UTF-8 of a text as it is escaped. -/
def asciiQuote (s : List UInt8) : List UInt8 := (Utf8.decodeReplace s).flatMap asciiChar

theorem chars_asciiQuote (s : List Char) {n : Nat} (rest : List UInt8)
    (hn : (s.flatMap asciiChar).length < n) :
    chars n (s.flatMap asciiChar ++ 34 :: rest) = some (Utf8.encode s, rest) := by
  induction s generalizing n with
  | nil =>
      obtain ⟨m, rfl⟩ : ∃ m, n = m + 1 := ⟨n - 1, by rw [List.flatMap_nil] at hn; simp at hn; omega⟩
      simp [chars, Utf8.encode]
  | cons c s ih =>
      rw [List.flatMap_cons, List.length_append] at hn
      have hpos : 0 < (asciiChar c).length := length_asciiChar_pos c
      obtain ⟨m, rfl⟩ : ∃ m, n = m + 1 := ⟨n - 1, by omega⟩
      rw [List.flatMap_cons, List.append_assoc, chars_asciiChar, ih (by omega), Utf8.encode_cons]
      rfl

/-- Text is read back from its escapes. -/
theorem reads_encode {layout : Layout} (hquote : layout.quote = asciiQuote) (s : List Char) :
    Reads layout (Utf8.encode s) where
  chars n rest hn := by
    rw [hquote, asciiQuote, Utf8.decodeReplace_encode] at hn ⊢
    exact chars_asciiQuote s rest hn
  utf8 := by rw [Utf8.decodeStrict_encode, Option.isSome_some]

/-! ## Texts in ASCII -/

/-- What the layout writes by itself is ASCII. -/
structure Layout.Ascii (layout : Layout) : Prop where
  newline : ∀ level, ∀ b ∈ layout.newline level, b < 128
  colon : ∀ b ∈ layout.colon, b < 128
  quote : ∀ s, ∀ b ∈ layout.quote s, b < 128

theorem digits_ascii {bytes ds r : List UInt8} (h : digits bytes = some (ds, r)) :
    ∀ b ∈ ds, b < 128 := by
  unfold digits at h
  split at h
  · cases h
  · cases h
    intro b hb
    have hdigit := List.mem_takeWhile_imp hb
    simp only [isDigit, Bool.and_eq_true, decide_eq_true_eq] at hdigit
    exact UInt8.lt_of_le_of_lt hdigit.2 (by decide)

theorem minus_ascii (bytes : List UInt8) : ∀ b ∈ (minus bytes).1, b < 128 := by
  cases bytes with
  | nil => simp [minus]
  | cons b bytes =>
      by_cases hb : b = 45
      · simp [minus, hb]
      · simp [minus, hb]

theorem intPart_ascii {bytes ds r : List UInt8} (h : intPart bytes = some (ds, r)) :
    ∀ b ∈ ds, b < 128 := by
  cases bytes with
  | nil => cases h
  | cons b bytes =>
      rw [intPart] at h
      split at h
      · next hzero =>
          cases h
          simp [hzero]
      · exact digits_ascii h

theorem fracPart_ascii {bytes ds r : List UInt8} (h : fracPart bytes = some (ds, r)) :
    ∀ b ∈ ds, b < 128 := by
  cases bytes with
  | nil =>
      cases h
      exact fun b hb => absurd hb List.not_mem_nil
  | cons b bytes =>
      rw [fracPart] at h
      split at h
      · next hdot =>
          obtain ⟨⟨ds', r'⟩, hdigits, heq⟩ := Option.bind_eq_some_iff.mp h
          cases heq
          exact List.forall_mem_cons.mpr ⟨hdot ▸ by decide, digits_ascii hdigits⟩
      · cases h
        exact fun b hb => absurd hb List.not_mem_nil

theorem sign_ascii (bytes : List UInt8) : ∀ b ∈ (sign bytes).1, b < 128 := by
  cases bytes with
  | nil => simp [sign]
  | cons b bytes =>
      by_cases hb : b = 43 ∨ b = 45
      · rcases hb with rfl | rfl <;> simp [sign]
      · simp [sign, hb]

theorem expPart_ascii {bytes ds r : List UInt8} (h : expPart bytes = some (ds, r)) :
    ∀ b ∈ ds, b < 128 := by
  cases bytes with
  | nil =>
      cases h
      exact fun b hb => absurd hb List.not_mem_nil
  | cons b bytes =>
      rw [expPart] at h
      split at h
      · next hexp =>
          obtain ⟨⟨ds', r'⟩, hdigits, heq⟩ := Option.bind_eq_some_iff.mp h
          cases heq
          rw [List.cons_append, List.forall_mem_cons, List.forall_mem_append]
          refine ⟨?_, sign_ascii bytes, digits_ascii hdigits⟩
          rcases hexp with rfl | rfl <;> decide
      · cases h
        exact fun b hb => absurd hb List.not_mem_nil

/-- No number has a byte beyond ASCII. -/
theorem number_ascii {bytes lexeme r : List UInt8} (h : number bytes = some (lexeme, r)) :
    ∀ b ∈ lexeme, b < 128 := by
  obtain ⟨⟨whole, r₁⟩, hint, h⟩ := Option.bind_eq_some_iff.mp h
  obtain ⟨⟨frac, r₂⟩, hfrac, h⟩ := Option.bind_eq_some_iff.mp h
  obtain ⟨⟨exp, r₃⟩, hexp, h⟩ := Option.bind_eq_some_iff.mp h
  cases h
  simp only [List.forall_mem_append]
  exact ⟨⟨⟨minus_ascii bytes, intPart_ascii hint⟩, fracPart_ascii hfrac⟩, expPart_ascii hexp⟩

mutual

theorem write_ascii (h : layout.Ascii) (level : Nat) :
    ∀ v, Readable layout v → ∀ b ∈ write layout level v, b < 128
  | .null, _ => by simp [write]
  | .bool true, _ => by simp [write]
  | .bool false, _ => by simp [write]
  | .num lexeme, hv => by
      rw [Readable] at hv
      rw [write]
      exact number_ascii hv
  | .str s, _ => by
      rw [write, List.cons_append, List.forall_mem_cons, List.forall_mem_append]
      exact ⟨by decide, h.quote s, by simp⟩
  | .arr vs, hv => by
      rw [Readable] at hv
      rw [write, List.cons_append, List.forall_mem_cons, List.forall_mem_append]
      exact ⟨by decide, writeElements_ascii h level vs hv, by simp⟩
  | .obj ms, hv => by
      rw [Readable] at hv
      rw [write, List.cons_append, List.forall_mem_cons, List.forall_mem_append]
      exact ⟨by decide, writeMembers_ascii h level ms hv, by simp⟩

theorem writeElements_ascii (h : layout.Ascii) (level : Nat) :
    ∀ vs, ReadableElements layout vs → ∀ b ∈ writeElements layout level vs, b < 128
  | [], _ => by
      rw [writeElements]
      exact fun b hb => absurd hb List.not_mem_nil
  | [v], hv => by
      rw [ReadableElements] at hv
      rw [writeElements, List.forall_mem_append, List.forall_mem_append]
      exact ⟨⟨h.newline _, write_ascii h _ v hv.1⟩, h.newline _⟩
  | v :: w :: vs, hv => by
      rw [ReadableElements] at hv
      rw [writeElements, List.forall_mem_append, List.forall_mem_append, List.forall_mem_cons]
      exact ⟨⟨h.newline _, write_ascii h _ v hv.1⟩, by decide,
        writeElements_ascii h level (w :: vs) hv.2⟩

theorem writeMembers_ascii (h : layout.Ascii) (level : Nat) :
    ∀ ms, ReadableMembers layout ms → ∀ b ∈ writeMembers layout level ms, b < 128
  | [], _ => by
      rw [writeMembers]
      exact fun b hb => absurd hb List.not_mem_nil
  | [(key, v)], hm => by
      rw [ReadableMembers] at hm
      rw [writeMembers]
      simp only [List.append_assoc, List.cons_append, List.forall_mem_append,
        List.forall_mem_cons]
      exact ⟨h.newline _, by decide, h.quote key, by decide, by decide, h.colon,
        write_ascii h _ v hm.2.1, h.newline _⟩
  | (key, v) :: m :: ms, hm => by
      rw [ReadableMembers] at hm
      rw [writeMembers]
      simp only [List.append_assoc, List.cons_append, List.forall_mem_append,
        List.forall_mem_cons]
      exact ⟨h.newline _, by decide, h.quote key, by decide, by decide, h.colon,
        write_ascii h _ v hm.2.1, by decide, writeMembers_ascii h level (m :: ms) hm.2.2⟩

end

theorem hexEscape_ascii {n : Nat} (hn : n < 0x10000) : ∀ b ∈ hexEscape n, b < 128 := by
  have hdigit : ∀ v < 16, hexDigit v < 128 := by decide
  simp only [hexEscape, List.forall_mem_cons]
  exact ⟨by decide, by decide, hdigit _ (by omega), hdigit _ (by omega), hdigit _ (by omega),
    hdigit _ (by omega), fun b hb => absurd hb List.not_mem_nil⟩

theorem asciiChar_ascii (c : Char) : ∀ b ∈ asciiChar c, b < 128 := by
  have hrange := toNat_cases c
  obtain ⟨letter, hshort, heq⟩ | ⟨-, hhigh, -, -, heq⟩ | ⟨hunit, heq⟩ | ⟨hlarge, heq⟩ :=
    asciiChar_cases c
  · rw [heq, List.forall_mem_cons, List.forall_mem_singleton]
    exact ⟨by decide, (shortLetter_eq_some hshort).2.1⟩
  · rw [heq, List.forall_mem_singleton, UInt8.lt_iff_toNat_lt, UInt8.toNat_ofNat',
      Nat.mod_eq_of_lt (by omega)]
    exact Nat.lt_of_le_of_lt hhigh (by decide)
  · rw [heq]
    exact hexEscape_ascii hunit
  · rw [heq, List.forall_mem_append]
    exact ⟨hexEscape_ascii (by omega), hexEscape_ascii (by omega)⟩

theorem asciiQuote_ascii (s : List UInt8) : ∀ b ∈ asciiQuote s, b < 128 := by
  intro b hb
  obtain ⟨c, -, hc⟩ := List.mem_flatMap.mp hb
  exact asciiChar_ascii c b hc

/-- ASCII is UTF-8. -/
theorem decodeStrict_ascii {bytes : List UInt8} (h : ∀ b ∈ bytes, b < 128) :
    (Utf8.decodeStrict bytes).isSome = true := by
  have hencode : Utf8.encode (bytes.map fun b => Char.ofNat b.toNat) = bytes := by
    induction bytes with
    | nil => rfl
    | cons b bytes ih =>
        rw [List.forall_mem_cons] at h
        have hall : ∀ n < 128, (Char.ofNat n).toNat = n := by decide
        have hlt : b.toNat < 128 := UInt8.lt_iff_toNat_lt.mp h.1
        have hchar := hall b.toNat hlt
        rw [List.map_cons, Utf8.encode_cons, ih h.2, Utf8.utf8EncodeChar_ascii (by omega), hchar,
          UInt8.ofNat_toNat, List.singleton_append]
  rw [← hencode, Utf8.decodeStrict_encode, Option.isSome_some]

end Json

end Lib
