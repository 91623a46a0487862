import AkesoDlp.Lib.JsonLayout
import AkesoDlp.Lib.JsonWeight

/-!
# Writing JSON without escapes

A writer that puts strings between quotation marks as they are, and nothing else.
What it writes is read back if no string needs an escape.
-/

namespace Lib

namespace Json

/-! ## Writing without escapes -/

mutual

/-- The text of a value, with its strings as they are and no white space. -/
def render : Json → List UInt8
  | .null => [110, 117, 108, 108]
  | .bool true => [116, 114, 117, 101]
  | .bool false => [102, 97, 108, 115, 101]
  | .num lexeme => lexeme
  | .str s => 34 :: s ++ [34]
  | .arr vs => 91 :: renderElements vs ++ [93]
  | .obj ms => 123 :: renderMembers ms ++ [125]

def renderElements : List Json → List UInt8
  | [] => []
  | [v] => render v
  | v :: w :: vs => render v ++ 44 :: renderElements (w :: vs)

def renderMembers : List (List UInt8 × Json) → List UInt8
  | [] => []
  | [(key, v)] => 34 :: key ++ 34 :: 58 :: render v
  | (key, v) :: m :: ms => 34 :: key ++ 34 :: 58 :: render v ++ 44 :: renderMembers (m :: ms)

end

theorem renderElements_cons (v : Json) (vs : List Json) :
    renderElements (v :: vs) = render v ++ vs.flatMap fun w => 44 :: render w := by
  induction vs generalizing v with
  | nil => simp [renderElements]
  | cons w vs ih => rw [renderElements, ih, List.flatMap_cons, List.cons_append]

theorem renderMembers_cons (key : List UInt8) (v : Json) (ms : List (List UInt8 × Json)) :
    renderMembers ((key, v) :: ms) =
      34 :: key ++ 34 :: 58 :: render v ++
        ms.flatMap fun m => 44 :: 34 :: m.1 ++ 34 :: 58 :: render m.2 := by
  induction ms generalizing key v with
  | nil => simp [renderMembers]
  | cons m ms ih =>
      rw [renderMembers, ih, List.flatMap_cons]
      simp

theorem weight_render_str (s : List UInt8) : weight (render (.str s)) = weight s := by
  simp [render, byteWeight]

theorem weight_render_arr (vs : List Json) :
    weight (render (.arr vs)) = (vs.map fun v => weight (render v)).sum := by
  cases vs with
  | nil => simp [render, renderElements, byteWeight]
  | cons v vs => simp [render, renderElements_cons, weight_flatMap, byteWeight]

theorem weight_render_obj (ms : List (List UInt8 × Json)) :
    weight (render (.obj ms)) = (ms.map fun m => weight m.1 + weight (render m.2)).sum := by
  cases ms with
  | nil => simp [render, renderMembers, byteWeight]
  | cons m ms =>
      obtain ⟨key, v⟩ := m
      simp [render, renderMembers_cons, weight_flatMap, byteWeight, Nat.add_assoc]

/-- What may follow a value inside another one, or at the end. -/
def Delimited (rest : List UInt8) : Prop := ∀ b ∈ rest.head?, b = 44 ∨ b = 93 ∨ b = 125

structure IsNumber (lexeme : List UInt8) : Prop where
  head : ∃ b bytes, lexeme = b :: bytes ∧ (b = 45 ∨ isDigit b = true)
  read : ∀ rest, Delimited rest → number (lexeme ++ rest) = some (lexeme, rest)

mutual

/-- A value whose strings need no escape. -/
def Plain : Json → Prop
  | .null | .bool _ => True
  | .num lexeme => IsNumber lexeme
  | .str s => PlainStr s
  | .arr vs => PlainElements vs
  | .obj ms => PlainMembers ms

def PlainElements : List Json → Prop
  | [] => True
  | v :: vs => Plain v ∧ PlainElements vs

def PlainMembers : List (List UInt8 × Json) → Prop
  | [] => True
  | (key, v) :: ms => PlainStr key ∧ Plain v ∧ PlainMembers ms

end

theorem Delimited.numberEnds {rest : List UInt8} (h : Delimited rest) : NumberEnds rest := by
  intro b hb
  rcases h b hb with rfl | rfl | rfl <;> decide

theorem isNumber_of_digits {b : UInt8} {bytes : List UInt8} (h : ∀ c ∈ b :: bytes, isDigit c = true)
    (hb : b ≠ 48) : IsNumber (b :: bytes) where
  head := ⟨b, bytes, rfl, .inr (h b List.mem_cons_self)⟩
  read _ hrest := number_append hrest.numberEnds
    (isNumeral_natural ⟨List.cons_ne_nil _ _, h, fun _ heq => absurd (List.cons.inj heq).1 hb⟩)

theorem IsNumber.isNumeral {lexeme : List UInt8} (h : IsNumber lexeme) : IsNumeral lexeme := by
  have hread := h.read [] (by simp [Delimited])
  rwa [List.append_nil] at hread

theorem chars_plain {s : List UInt8} (h : ∀ b ∈ s, needsEscape b = false) {n : Nat}
    (hn : s.length < n) (rest : List UInt8) : chars n (s ++ 34 :: rest) = some (s, rest) := by
  induction s generalizing n with
  | nil =>
      obtain ⟨n, rfl⟩ : ∃ m, n = m + 1 := ⟨n - 1, by rw [List.length_nil] at hn; omega⟩
      simp [chars]
  | cons b s ih =>
      rw [List.forall_mem_cons] at h
      rw [List.length_cons] at hn
      obtain ⟨n, rfl⟩ : ∃ m, n = m + 1 := ⟨n - 1, by omega⟩
      have hb : b ≠ 34 ∧ b ≠ 92 ∧ ¬ b < 32 := by
        simpa [needsEscape, and_assoc] using h.1
      simp [chars, hb, ih h.2 (Nat.lt_of_succ_lt_succ hn)]

/-! ## The layout of the writer -/

/-- No white space, and strings as they are. -/
def plainLayout : Layout where
  newline _ := []
  colon := []
  quote s := s
  newline_ws _ := List.forall_mem_nil _
  colon_ws := List.forall_mem_nil _

@[simp] theorem plainLayout_newline (level : Nat) : plainLayout.newline level = [] := rfl

@[simp] theorem plainLayout_colon : plainLayout.colon = [] := rfl

@[simp] theorem plainLayout_quote (s : List UInt8) : plainLayout.quote s = s := rfl

mutual

theorem write_plainLayout (level : Nat) : ∀ v, write plainLayout level v = render v
  | .null => by rw [write, render]
  | .bool true => by rw [write, render]
  | .bool false => by rw [write, render]
  | .num lexeme => by rw [write, render]
  | .str s => by rw [write, render, plainLayout_quote]
  | .arr vs => by rw [write, render, writeElements_plainLayout level vs]
  | .obj ms => by rw [write, render, writeMembers_plainLayout level ms]

theorem writeElements_plainLayout (level : Nat) :
    ∀ vs, writeElements plainLayout level vs = renderElements vs
  | [] => by rw [writeElements, renderElements]
  | [v] => by simp [writeElements, renderElements, write_plainLayout _ v]
  | v :: w :: vs => by
      simp [writeElements, renderElements, write_plainLayout _ v,
        writeElements_plainLayout level (w :: vs)]

theorem writeMembers_plainLayout (level : Nat) :
    ∀ ms, writeMembers plainLayout level ms = renderMembers ms
  | [] => by rw [writeMembers, renderMembers]
  | [(key, v)] => by simp [writeMembers, renderMembers, write_plainLayout _ v]
  | (key, v) :: m :: ms => by
      simp [writeMembers, renderMembers, write_plainLayout _ v,
        writeMembers_plainLayout level (m :: ms)]

end

theorem PlainStr.reads {s : List UInt8} (h : PlainStr s) : Reads plainLayout s where
  chars _ rest hn := chars_plain h.1 hn rest
  utf8 := h.2

mutual

theorem readable_of_plain : ∀ v, Plain v → Readable plainLayout v
  | .null, _ | .bool _, _ => by rw [Readable]; trivial
  | .num lexeme, h => by
      rw [Plain] at h
      rw [Readable]
      exact h.isNumeral
  | .str s, h => by
      rw [Plain] at h
      rw [Readable]
      exact h.reads
  | .arr vs, h => by
      rw [Plain] at h
      rw [Readable]
      exact readableElements_of_plain vs h
  | .obj ms, h => by
      rw [Plain] at h
      rw [Readable]
      exact readableMembers_of_plain ms h

theorem readableElements_of_plain : ∀ vs, PlainElements vs → ReadableElements plainLayout vs
  | [], _ => by rw [ReadableElements]; trivial
  | v :: vs, h => by
      rw [PlainElements] at h
      rw [ReadableElements]
      exact ⟨readable_of_plain v h.1, readableElements_of_plain vs h.2⟩

theorem readableMembers_of_plain : ∀ ms, PlainMembers ms → ReadableMembers plainLayout ms
  | [], _ => by rw [ReadableMembers]; trivial
  | (key, v) :: ms, h => by
      rw [PlainMembers] at h
      rw [ReadableMembers]
      exact ⟨h.1.reads, readable_of_plain v h.2.1, readableMembers_of_plain ms h.2.2⟩

end

/-- The text of a plain value is read back. -/
theorem parse_render {v : Json} (h : Plain v) : parse (render v) = some v := by
  rw [← write_plainLayout 0]
  exact parse_write (readable_of_plain v h) 0

end Json

end Lib
