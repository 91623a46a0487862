import AkesoDlp.Lib.PercentEncoding

/-!
# Character references

`escape` and `unescape` of Python's `html`. Undoing a character reference shortens
the text, and an escaped text is undone. The table of the named references is a
parameter.
-/

namespace Lib.HtmlEntities

/-- `html.entities.html5`: the names stand without `&`, most of them with their
semicolon. No name is shorter than what it stands for. -/
structure Html5 where
  lookup : List Char → Option (List Char)
  lookup_amp : lookup ['a', 'm', 'p', ';'] = some ['&']
  lookup_lt : lookup ['l', 't', ';'] = some ['<']
  lookup_gt : lookup ['g', 't', ';'] = some ['>']
  lookup_quot : lookup ['q', 'u', 'o', 't', ';'] = some ['"']
  length_le : ∀ {name value : List Char}, lookup name = some value → value.length ≤ name.length

def escapeChar (c : Char) : List Char :=
  if c = '&' then ['&', 'a', 'm', 'p', ';']
  else if c = '<' then ['&', 'l', 't', ';']
  else if c = '>' then ['&', 'g', 't', ';']
  else if c = '"' then ['&', 'q', 'u', 'o', 't', ';']
  else if c = '\'' then ['&', '#', 'x', '2', '7', ';']
  else [c]

def escape (s : List Char) : List Char := s.flatMap escapeChar

/-! ## Numeric references -/

/-- `_invalid_charrefs`. -/
def invalidCharrefs : List (Nat × Nat) :=
  [(0x00, 0xFFFD), (0x0D, 0x0D), (0x80, 0x20AC), (0x81, 0x81), (0x82, 0x201A), (0x83, 0x0192),
    (0x84, 0x201E), (0x85, 0x2026), (0x86, 0x2020), (0x87, 0x2021), (0x88, 0x02C6),
    (0x89, 0x2030), (0x8A, 0x0160), (0x8B, 0x2039), (0x8C, 0x0152), (0x8D, 0x8D),
    (0x8E, 0x017D), (0x8F, 0x8F), (0x90, 0x90), (0x91, 0x2018), (0x92, 0x2019), (0x93, 0x201C),
    (0x94, 0x201D), (0x95, 0x2022), (0x96, 0x2013), (0x97, 0x2014), (0x98, 0x02DC),
    (0x99, 0x2122), (0x9A, 0x0161), (0x9B, 0x203A), (0x9C, 0x0153), (0x9D, 0x9D),
    (0x9E, 0x017E), (0x9F, 0x0178)]

/-- `_invalid_codepoints`. -/
def invalidCodepoint (num : Nat) : Bool :=
  decide (1 ≤ num ∧ num ≤ 8 ∨ num = 0xB ∨ 0xE ≤ num ∧ num ≤ 0x1F ∨ 0x7F ≤ num ∧ num ≤ 0x9F ∨
    0xFDD0 ≤ num ∧ num ≤ 0xFDEF ∨ 0xFFFE ≤ num % 0x10000)

def numericCharref (num : Nat) : List Char :=
  match invalidCharrefs.lookup num with
  | some code => [Char.ofNat code]
  | none =>
      if 0xD800 ≤ num ∧ num ≤ 0xDFFF ∨ 0x10FFFF < num then [Char.ofNat 0xFFFD]
      else if invalidCodepoint num then []
      else [Char.ofNat num]

/-- `sys.get_int_max_str_digits()`: `int` refuses longer decimal strings. -/
def intMaxStrDigits : Nat := 4300

def ofDigits (base : Nat) (digits : List Char) : Nat :=
  digits.foldl (fun n c => n * base + (PercentEncoding.hexValue c).getD 0) 0

def rstripSemicolon (s : List Char) : List Char := (s.reverse.dropWhile (· == ';')).reverse

/-- The text after `&#`; `none` where `int` raises. -/
def numericBody : List Char → Option (List Char)
  | [] => none
  | c :: s =>
      if c = 'x' ∨ c = 'X' then some (numericCharref (ofDigits 16 (rstripSemicolon s)))
      else if (rstripSemicolon (c :: s)).length ≤ intMaxStrDigits then
        some (numericCharref (ofDigits 10 (rstripSemicolon (c :: s))))
      else none

/-! ## Named references -/

/-- The longest name that `s` begins with, of two characters at least. -/
def longestName (html5 : Html5) (s : List Char) : Option (List Char) :=
  (List.range' 2 (s.length - 2)).reverse.findSome? fun x =>
    (html5.lookup (s.take x)).map fun value => value ++ s.drop x

def namedCharref (html5 : Html5) (s : List Char) : List Char :=
  match html5.lookup s with
  | some value => value
  | none => (longestName html5 s).getD ('&' :: s)

/-- `_replace_charref`. -/
def replaceCharref (html5 : Html5) : List Char → Option (List Char)
  | [] => none
  | c :: s => if c = '#' then numericBody s else some (namedCharref html5 (c :: s))

/-! ## The expression `_charref` -/

def isDecimal (c : Char) : Bool := decide (48 ≤ c.toNat ∧ c.toNat ≤ 57)

def isHex (c : Char) : Bool := (PercentEncoding.hexValue c).isSome

/-- The class `[^\t\n\f <&#;]`. -/
def isNameChar (c : Char) : Bool :=
  !(['\t', '\n', Char.ofNat 0xC, ' ', '<', '&', '#', ';'].contains c)

/-- A match up to its optional semicolon. -/
def closed (run s : List Char) : List Char :=
  if s[run.length]? = some ';' then run ++ [';'] else run

def nameMax : Nat := 32

/-- The group of the expression, matched on the text after `&`. -/
def charrefBody : List Char → Option (List Char)
  | [] => none
  | c :: s =>
      if c = '#' then
        if s.takeWhile isDecimal ≠ [] then some (c :: closed (s.takeWhile isDecimal) s)
        else
          match s with
          | [] => none
          | x :: s =>
              if (x = 'x' ∨ x = 'X') ∧ s.takeWhile isHex ≠ [] then
                some (c :: x :: closed (s.takeWhile isHex) s)
              else none
      else if ((c :: s).takeWhile isNameChar).take nameMax ≠ [] then
        some (closed (((c :: s).takeWhile isNameChar).take nameMax) (c :: s))
      else none

/-- `_charref.sub`, with `skip` characters of a reference already replaced. -/
def subFrom (html5 : Html5) : (skip : Nat) → List Char → Option (List Char)
  | _, [] => some []
  | skip + 1, _ :: s => subFrom html5 skip s
  | 0, c :: s =>
      match if c = '&' then charrefBody s else none with
      | some body =>
          (replaceCharref html5 body).bind fun value =>
            (subFrom html5 body.length s).map fun rest => value ++ rest
      | none => (subFrom html5 0 s).map fun rest => c :: rest

/-- `none` is the `ValueError` of `int`. -/
def unescape (html5 : Html5) (s : List Char) : Option (List Char) := subFrom html5 0 s

/-! ## References shorten -/

section

variable (html5 : Html5)

theorem length_numericCharref_le (num : Nat) : (numericCharref num).length ≤ 1 := by
  unfold numericCharref
  split
  · simp
  · split
    · simp
    · split <;> simp

theorem shortens_numericBody {body value : List Char} (h : numericBody body = some value) :
    Shortens ('&' :: '#' :: body) value := by
  have hone : ∃ num, value = numericCharref num := by
    unfold numericBody at h
    split at h
    · simp at h
    · split at h
      · exact ⟨_, (Option.some.inj h).symm⟩
      · split at h
        · exact ⟨_, (Option.some.inj h).symm⟩
        · simp at h
  obtain ⟨num, rfl⟩ := hone
  have hle := length_numericCharref_le num
  exact .of_lt (by simp only [List.length_cons]; omega)

theorem length_longestName_le {s value : List Char} (h : longestName html5 s = some value) :
    value.length ≤ s.length := by
  obtain ⟨x, -, hx⟩ := List.exists_of_findSome?_eq_some h
  obtain ⟨v, hv, rfl⟩ := Option.map_eq_some_iff.mp hx
  have hle := html5.length_le hv
  rw [List.length_take] at hle
  rw [List.length_append, List.length_drop]
  omega

theorem shortens_namedCharref (s : List Char) : Shortens ('&' :: s) (namedCharref html5 s) := by
  unfold namedCharref
  split
  · next value hvalue =>
      exact .of_lt (Nat.lt_succ_of_le (html5.length_le hvalue))
  · cases hname : longestName html5 s with
    | none => exact .refl _
    | some value => exact .of_lt (Nat.lt_succ_of_le (length_longestName_le html5 hname))

theorem shortens_replaceCharref {body value : List Char}
    (h : replaceCharref html5 body = some value) : Shortens ('&' :: body) value := by
  unfold replaceCharref at h
  split at h
  · simp at h
  · split at h
    · next hc =>
        subst hc
        exact shortens_numericBody h
    · rw [← Option.some.inj h]
      exact shortens_namedCharref html5 _

theorem closed_prefix {run s : List Char} (h : run <+: s) : closed run s <+: s := by
  unfold closed
  split
  · next hsemi =>
      obtain ⟨rest, rfl⟩ := h
      rw [List.getElem?_append_right (Nat.le_refl _), Nat.sub_self] at hsemi
      cases rest with
      | nil => simp at hsemi
      | cons d rest =>
          obtain rfl : d = ';' := by simpa using hsemi
          exact ⟨rest, by simp⟩
  · exact h

theorem charrefBody_prefix {s body : List Char} (h : charrefBody s = some body) : body <+: s := by
  unfold charrefBody at h
  split at h
  · simp at h
  · next c s =>
      split at h
      · split at h
        · rw [← Option.some.inj h]
          exact List.cons_prefix_cons.mpr ⟨rfl, closed_prefix (List.takeWhile_prefix _)⟩
        · split at h
          · simp at h
          · split at h
            · rw [← Option.some.inj h]
              exact List.cons_prefix_cons.mpr ⟨rfl, List.cons_prefix_cons.mpr
                ⟨rfl, closed_prefix (List.takeWhile_prefix _)⟩⟩
            · simp at h
      · split at h
        · rw [← Option.some.inj h]
          exact closed_prefix ((List.take_prefix _ _).trans (List.takeWhile_prefix _))
        · simp at h

theorem shortens_subFrom {skip : Nat} {s r : List Char} (h : subFrom html5 skip s = some r) :
    Shortens (s.drop skip) r := by
  induction s generalizing skip r with
  | nil =>
      rw [subFrom, Option.some.injEq] at h
      rw [← h, List.drop_nil]
      exact .refl []
  | cons c s ih =>
      cases skip with
      | succ skip => exact ih h
      | zero =>
          rw [subFrom] at h
          rw [List.drop_zero]
          split at h
          · next body hbody =>
              rw [Option.ite_none_right_eq_some] at hbody
              obtain ⟨rfl, hbody⟩ := hbody
              obtain ⟨value, hvalue, h⟩ := Option.bind_eq_some_iff.mp h
              obtain ⟨rest, hrest, rfl⟩ := Option.map_eq_some_iff.mp h
              obtain ⟨tail, rfl⟩ := charrefBody_prefix hbody
              have htail := ih hrest
              rw [List.drop_left] at htail
              exact (shortens_replaceCharref html5 hvalue).append htail
          · obtain ⟨rest, hrest, rfl⟩ := Option.map_eq_some_iff.mp h
            exact (ih hrest).cons c

theorem shortens_unescape (s : List Char) : Shortens s ((unescape html5 s).getD s) := by
  cases h : unescape html5 s with
  | none => exact .refl s
  | some r => exact shortens_subFrom html5 h

/-! ## The round trip -/

theorem subFrom_cons {c : Char} (h : c ≠ '&') (s : List Char) :
    subFrom html5 0 (c :: s) = (subFrom html5 0 s).map fun rest => c :: rest := by
  rw [subFrom, if_neg h]

theorem subFrom_charref (body s value : List Char) (hbody : charrefBody (body ++ s) = some body)
    (hvalue : replaceCharref html5 body = some value) :
    subFrom html5 0 ('&' :: (body ++ s)) = (subFrom html5 0 s).map fun rest => value ++ rest := by
  have hskip : ∀ d : List Char, subFrom html5 d.length (d ++ s) = subFrom html5 0 s := by
    intro d
    induction d with
    | nil => rfl
    | cons _ d ih => exact ih
  rw [subFrom, if_pos rfl, hbody]
  simp only [hvalue, Option.bind_some, hskip]

theorem subFrom_escapeChar (c : Char) (s : List Char) :
    subFrom html5 0 (escapeChar c ++ s) = (subFrom html5 0 s).map fun rest => c :: rest := by
  unfold escapeChar
  split
  · next hc =>
      subst hc
      refine subFrom_charref html5 ['a', 'm', 'p', ';'] s ['&'] rfl ?_
      simp [replaceCharref, namedCharref, html5.lookup_amp]
  · next hamp =>
      split
      · next hc =>
          subst hc
          refine subFrom_charref html5 ['l', 't', ';'] s ['<'] rfl ?_
          simp [replaceCharref, namedCharref, html5.lookup_lt]
      · split
        · next hc =>
            subst hc
            refine subFrom_charref html5 ['g', 't', ';'] s ['>'] rfl ?_
            simp [replaceCharref, namedCharref, html5.lookup_gt]
        · split
          · next hc =>
              subst hc
              refine subFrom_charref html5 ['q', 'u', 'o', 't', ';'] s ['"'] rfl ?_
              simp [replaceCharref, namedCharref, html5.lookup_quot]
          · split
            · next hc =>
                subst hc
                exact subFrom_charref html5 ['#', 'x', '2', '7', ';'] s ['\''] rfl rfl
            · exact subFrom_cons html5 hamp s

theorem unescape_escape (s : List Char) : unescape html5 (escape s) = some s := by
  unfold unescape
  induction s with
  | nil => rfl
  | cons c s ih =>
      rw [escape, List.flatMap_cons, subFrom_escapeChar]
      rw [escape] at ih
      rw [ih]
      rfl

theorem unescape_of_not_mem {s : List Char} (h : '&' ∉ s) : unescape html5 s = some s := by
  unfold unescape
  induction s with
  | nil => rfl
  | cons c s ih =>
      rw [List.mem_cons, not_or] at h
      rw [subFrom_cons html5 (Ne.symm h.1), ih h.2]
      rfl

end

@[simp] theorem escape_nil : escape [] = [] := rfl

@[simp] theorem escape_cons (c : Char) (s : List Char) :
    escape (c :: s) = escapeChar c ++ escape s := rfl

@[simp] theorem escape_append (s r : List Char) : escape (s ++ r) = escape s ++ escape r :=
  List.flatMap_append

/-- The characters that have a reference of their own. -/
def isSpecial (c : Char) : Bool := ['&', '<', '>', '"', '\''].contains c

theorem escapeChar_of_not_isSpecial {c : Char} (h : isSpecial c = false) : escapeChar c = [c] := by
  simp only [isSpecial, List.contains_cons, List.contains_nil, Bool.or_false,
    Bool.or_eq_false_iff, beq_eq_false_iff_ne] at h
  simp [escapeChar, h]

/-- A text without such characters is its own escape. -/
theorem escape_eq_self {s : List Char} (h : ∀ c ∈ s, isSpecial c = false) : escape s = s := by
  induction s with
  | nil => rfl
  | cons c s ih =>
      rw [List.forall_mem_cons] at h
      rw [escape_cons, escapeChar_of_not_isSpecial h.1, ih h.2]
      rfl

end Lib.HtmlEntities
