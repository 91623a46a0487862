import AkesoDlp.Network.ContentNormalizer

/-!
# Stacks of encodings

What the decoders do to a text wrapped in layers of percent encoding, HTML escaping
and base64. A decoder undoes its own layer, and no decoder takes apart the layer of
another: references and escapes are too short for embedded base64, and there is no
`&` or `%` in the digits. So every pass takes off a layer, and the passes reach the
text inside.
-/

namespace AkesoDlp.Network

open Lib (Shortens)
open Lib.HtmlEntities (escape escapeChar isSpecial)

namespace ContentNormalizer

variable (py : PyLibrary)

/-- `text` under `k` layers. `long` says which base64 output is long enough. -/
inductive Wrapped (long : List Char → Prop) (text : List Char) : Nat → List Char → Prop
  | bare : Wrapped long text 0 text
  | percent {k : Nat} {u w : List Char} (hu : Wrapped long text k u)
      (hw : Lib.PercentEncoding.Encoded (Lib.Utf8.encode u) w) : Wrapped long text (k + 1) w
  | html {k : Nat} {u : List Char} (hu : Wrapped long text k u) :
      Wrapped long text (k + 1) (escape u)
  | base64 {k : Nat} {u : List Char} (hu : Wrapped long text k u)
      (hlong : long (Lib.Base64.encode (Lib.Utf8.encode u)))
      (hprintable : mostlyPrintable py u = true) :
      Wrapped long text (k + 1) (Lib.Base64.encode (Lib.Utf8.encode u))

/-- At least `_MIN_B64_LENGTH` characters, padding included. -/
def LongOutput (output : List Char) : Prop := minB64Length ≤ output.length

/-- At least `_MIN_B64_LENGTH` characters before the padding. -/
def LongRun (output : List Char) : Prop :=
  minB64Length ≤ (output.takeWhile Lib.Base64.isDigit).length

/-! ## A layer under its own decoder -/

theorem urlDecode_encoded {u w : List Char}
    (h : Lib.PercentEncoding.Encoded (Lib.Utf8.encode u) w) : urlDecode w = u := by
  rw [urlDecode_eq, h.unquote]

theorem htmlEntityDecode_escape (u : List Char) : htmlEntityDecode py (escape u) = u := by
  rw [htmlEntityDecode_eq, Lib.HtmlEntities.unescape_escape, Option.getD_some]

theorem subFrom_digits {run d s : List Char} (hd : ∀ c ∈ d, Lib.Base64.isDigit c = true) :
    subFrom py run 0 (d ++ s) = subFrom py (run ++ d) 0 s := by
  induction d generalizing run with
  | nil => rw [List.nil_append, List.append_nil]
  | cons c d ih =>
      rw [List.forall_mem_cons] at hd
      rw [List.cons_append, subFrom, if_pos ⟨hd.1, rfl⟩, ih hd.2, ← List.append_cons]

theorem subFrom_pads {run : List Char} (pads n : Nat) (hlong : minB64Length ≤ run.length)
    (hpads : pads + n ≤ 2) :
    subFrom py run pads (List.replicate n '=') = flush py run (pads + n) := by
  induction n generalizing pads with
  | zero => rfl
  | succ n ih =>
      have heq : Lib.Base64.isDigit '=' = false := by decide
      rw [List.replicate_succ, subFrom, if_neg (by simp [heq]),
        if_pos ⟨rfl, hlong, by omega⟩, ih (pads + 1) (by omega), Nat.add_right_comm, Nat.add_assoc]

theorem takeWhile_encode (bytes : List UInt8) :
    (Lib.Base64.encode bytes).takeWhile Lib.Base64.isDigit = Lib.Base64.digits bytes := by
  rw [Lib.Base64.encode,
    List.takeWhile_append_of_pos fun c hc => Lib.Base64.isDigit_of_mem_digits hc]
  cases Lib.Base64.padding bytes.length with
  | zero => simp
  | succ n => rw [List.replicate_succ, List.takeWhile_cons, if_neg (by decide), List.append_nil]

theorem length_encode_mod (bytes : List UInt8) : (Lib.Base64.encode bytes).length % 4 = 0 := by
  have hlength := Lib.Base64.length_sextets bytes
  rw [Lib.Base64.encode, List.length_append, List.length_replicate, Lib.Base64.digits,
    List.length_map]
  unfold Lib.Base64.padding at *
  omega

theorem base64DecodeEmbedded_encode {u : List Char}
    (hlong : LongRun (Lib.Base64.encode (Lib.Utf8.encode u)))
    (hprintable : mostlyPrintable py u = true) :
    base64DecodeEmbedded py (Lib.Base64.encode (Lib.Utf8.encode u)) = u := by
  rw [LongRun, takeWhile_encode] at hlong
  have hpad : Lib.Base64.padding (Lib.Utf8.encode u).length ≤ 2 := by
    unfold Lib.Base64.padding
    omega
  rw [base64DecodeEmbedded, Lib.Base64.encode,
    subFrom_digits py fun c hc => Lib.Base64.isDigit_of_mem_digits hc, List.nil_append,
    subFrom_pads py 0 _ hlong (by omega), Nat.zero_add]
  simp only [flush]
  rw [if_pos hlong, ← Lib.Base64.encode]
  simp only [tryDecode]
  rw [length_encode_mod, Nat.sub_zero, Nat.mod_self, List.replicate_zero, List.append_nil,
    Lib.Base64.decode_encode, Option.bind_some, Lib.Utf8.decodeStrict_encode]
  simp only [hprintable, if_true]

/-! ## A layer under the other decoders -/

theorem percentEncoded_hex {bytes : List UInt8} {w : List Char}
    (h : Lib.PercentEncoding.Encoded bytes w) :
    ∀ c ∈ w, c = '%' ∨ (Lib.PercentEncoding.hexValue c).isSome := by
  induction h with
  | nil => simp
  | cons hbyte _ ih =>
      have hhex := Lib.PercentEncoding.hexByte_isSome hbyte
      rw [List.forall_mem_cons, List.forall_mem_cons, List.forall_mem_cons]
      exact ⟨.inl rfl, .inr hhex.1, .inr hhex.2, ih⟩

theorem not_isSpecial_of_percentEncoded {bytes : List UInt8} {w : List Char}
    (h : Lib.PercentEncoding.Encoded bytes w) : ∀ c ∈ w, isSpecial c = false := by
  intro c hc
  by_contra hspecial
  rw [Bool.not_eq_false, isSpecial, List.contains_iff_mem] at hspecial
  have hmem := percentEncoded_hex h c hc
  simp only [List.mem_cons, List.not_mem_nil, or_false] at hspecial
  rcases hspecial with rfl | rfl | rfl | rfl | rfl <;> exact absurd hmem (by decide)

theorem mem_encode {bytes : List UInt8} {c : Char} (h : c ∈ Lib.Base64.encode bytes) :
    Lib.Base64.isDigit c = true ∨ c = '=' := by
  rw [Lib.Base64.encode, List.mem_append] at h
  obtain h | h := h
  · exact .inl (Lib.Base64.isDigit_of_mem_digits h)
  · exact .inr (List.eq_of_mem_replicate h)

theorem not_isSpecial_of_mem_encode {bytes : List UInt8} :
    ∀ c ∈ Lib.Base64.encode bytes, isSpecial c = false := by
  intro c hc
  by_contra hspecial
  rw [Bool.not_eq_false, isSpecial, List.contains_iff_mem] at hspecial
  have hmem := mem_encode hc
  simp only [List.mem_cons, List.not_mem_nil, or_false] at hspecial
  rcases hspecial with rfl | rfl | rfl | rfl | rfl <;> exact absurd hmem (by decide)

theorem urlDecode_encode (bytes : List UInt8) :
    urlDecode (Lib.Base64.encode bytes) = Lib.Base64.encode bytes := by
  refine if_neg fun hmem => ?_
  have hdigit := mem_encode hmem
  exact absurd hdigit (by decide)

theorem htmlEntityDecode_eq_self {w : List Char} (h : ∀ c ∈ w, isSpecial c = false) :
    htmlEntityDecode py w = w := by
  refine if_neg fun hmem => ?_
  have hspecial := h '&' hmem
  exact absurd hspecial (by decide)

/-- A run ends at every `%`, after two digits. -/
theorem subFrom_percentEncoded {bytes : List UInt8} {w run : List Char}
    (h : Lib.PercentEncoding.Encoded bytes w) (hrun : run.length ≤ 2) :
    subFrom py run 0 w = run ++ w := by
  have hdigit : ∀ c, (Lib.PercentEncoding.hexValue c).isSome → Lib.Base64.isDigit c = true := by
    intro c hc
    simp only [Lib.PercentEncoding.hexValue] at hc
    have hn : 48 ≤ c.toNat ∧ c.toNat ≤ 57 ∨ 65 ≤ c.toNat ∧ c.toNat ≤ 70 ∨
        97 ≤ c.toNat ∧ c.toNat ≤ 102 := by
      by_contra hout
      rw [if_neg (by omega), if_neg (by omega), if_neg (by omega)] at hc
      simp at hc
    simp only [Lib.Base64.isDigit, Lib.Base64.value]
    rcases hn with hn | hn | hn
    · rw [if_neg (by omega), if_neg (by omega), if_pos hn]
      rfl
    · rw [if_pos (by omega)]
      rfl
    · rw [if_neg (by omega), if_pos (by omega)]
      rfl
  have hshort : ∀ r : List Char, r.length ≤ 2 → flush py r 0 = r := by
    intro r hr
    simp only [flush]
    rw [if_neg (by unfold minB64Length; omega), List.replicate_zero, List.append_nil]
  induction h generalizing run with
  | nil => rw [subFrom, hshort run hrun, List.append_nil]
  | @cons byte a b bytes w hbyte _ ih =>
      have hhex := Lib.PercentEncoding.hexByte_isSome hbyte
      have hdigits : ∀ c ∈ [a, b], Lib.Base64.isDigit c = true := by
        simpa using ⟨hdigit a hhex.1, hdigit b hhex.2⟩
      have hstep : subFrom py [] 0 (a :: b :: w) = subFrom py [a, b] 0 w :=
        subFrom_digits py hdigits
      have htail : subFrom py [a, b] 0 w = [a, b] ++ w := ih (Nat.le_refl 2)
      have hpercent : Lib.Base64.isDigit '%' = false := by decide
      rw [subFrom, if_neg (by simp [hpercent]), if_neg (by simp), hpercent,
        if_neg Bool.false_ne_true, hstep, htail, hshort run hrun]
      rfl

/-! ## Escaped text under the other decoders

Escaping puts in no `%` and no long run of digits, and takes none away. -/

theorem escapeChar_of_isSpecial {c : Char} (h : isSpecial c = true) :
    c = '&' ∧ escapeChar c = ['&', 'a', 'm', 'p', ';'] ∨
      c = '<' ∧ escapeChar c = ['&', 'l', 't', ';'] ∨
      c = '>' ∧ escapeChar c = ['&', 'g', 't', ';'] ∨
      c = '"' ∧ escapeChar c = ['&', 'q', 'u', 'o', 't', ';'] ∨
      c = '\'' ∧ escapeChar c = ['&', '#', 'x', '2', '7', ';'] := by
  rw [isSpecial, List.contains_iff_mem] at h
  simp only [List.mem_cons, List.not_mem_nil, or_false] at h
  rcases h with rfl | rfl | rfl | rfl | rfl <;> simp [escapeChar]

theorem isAscii_of_mem_escapeChar {c d : Char} (hc : isSpecial c = true)
    (hd : d ∈ escapeChar c) : Lib.PercentEncoding.isAscii d = true ∧ d ≠ '%' := by
  have hall : ∀ s : List Char, (s.all fun d => Lib.PercentEncoding.isAscii d && d != '%') = true →
      d ∈ s → Lib.PercentEncoding.isAscii d = true ∧ d ≠ '%' := by
    intro s hs hd
    have := List.all_eq_true.mp hs d hd
    simpa using this
  rcases escapeChar_of_isSpecial hc with ⟨-, h⟩ | ⟨-, h⟩ | ⟨-, h⟩ | ⟨-, h⟩ | ⟨-, h⟩ <;>
    exact hall _ (by decide) (h ▸ hd)

theorem isSpecial_isAscii {c : Char} (hc : isSpecial c = true) :
    Lib.PercentEncoding.isAscii c = true ∧ c ≠ '%' := by
  rcases escapeChar_of_isSpecial hc with ⟨rfl, -⟩ | ⟨rfl, -⟩ | ⟨rfl, -⟩ | ⟨rfl, -⟩ | ⟨rfl, -⟩ <;>
    decide

theorem hasEscape_append {d : List Char} (hd : ∀ c ∈ d, c ≠ '%') (s : List Char) :
    Lib.PercentEncoding.hasEscape (d ++ s) = Lib.PercentEncoding.hasEscape s := by
  induction d with
  | nil => rfl
  | cons c d ih =>
      rw [List.forall_mem_cons] at hd
      rw [List.cons_append, Lib.PercentEncoding.hasEscape,
        Lib.PercentEncoding.escapeAt_eq_none hd.1, ih hd.2]
      rfl

/-- The two characters after a `%` are digits, which are not escaped, or they are no
digits before and after. -/
theorem escapeAt_escape (c : Char) (s : List Char) :
    Lib.PercentEncoding.escapeAt c (escape s) = Lib.PercentEncoding.escapeAt c s := by
  have hhead : ∀ a, isSpecial a = true → (∃ d, escapeChar a = '&' :: d ∧ d ≠ []) ∧
      Lib.PercentEncoding.hexValue a = none := by
    intro a ha
    rcases escapeChar_of_isSpecial ha with ⟨rfl, h⟩ | ⟨rfl, h⟩ | ⟨rfl, h⟩ | ⟨rfl, h⟩ | ⟨rfl, h⟩ <;>
      exact ⟨⟨_, h, by simp⟩, by decide⟩
  have hamp : Lib.PercentEncoding.hexValue '&' = none := by decide
  have hleft : ∀ a b, Lib.PercentEncoding.hexValue a = none →
      Lib.PercentEncoding.hexByte a b = none := by
    intro a b ha
    simp [Lib.PercentEncoding.hexByte, ha]
  have hright : ∀ a b, Lib.PercentEncoding.hexValue b = none →
      Lib.PercentEncoding.hexByte a b = none := by
    intro a b hb
    simp [Lib.PercentEncoding.hexByte, hb]
  cases s with
  | nil => rfl
  | cons a s =>
      rw [Lib.HtmlEntities.escape_cons]
      cases ha : isSpecial a with
      | true =>
          obtain ⟨⟨d, hd, hne⟩, hhex⟩ := hhead a ha
          obtain ⟨e, d, rfl⟩ := List.exists_cons_of_ne_nil hne
          rw [hd]
          cases s with
          | nil => simp [Lib.PercentEncoding.escapeAt, hleft _ _ hamp]
          | cons b s =>
              simp [Lib.PercentEncoding.escapeAt, hleft _ _ hamp, hleft _ _ hhex]
      | false =>
          rw [Lib.HtmlEntities.escapeChar_of_not_isSpecial ha]
          cases s with
          | nil => rfl
          | cons b s =>
              rw [Lib.HtmlEntities.escape_cons]
              cases hb : isSpecial b with
              | true =>
                  obtain ⟨⟨d, hd, -⟩, hhex⟩ := hhead b hb
                  simp [hd, Lib.PercentEncoding.escapeAt, hright _ _ hamp, hright _ _ hhex]
              | false =>
                  rw [Lib.HtmlEntities.escapeChar_of_not_isSpecial hb]
                  rfl

theorem hasEscape_escape (s : List Char) :
    Lib.PercentEncoding.hasEscape (escape s) = Lib.PercentEncoding.hasEscape s := by
  induction s with
  | nil => rfl
  | cons c s ih =>
      rw [Lib.HtmlEntities.escape_cons]
      cases hc : isSpecial c with
      | true =>
          rw [hasEscape_append (fun d hd => (isAscii_of_mem_escapeChar hc hd).2), ih,
            Lib.PercentEncoding.hasEscape,
            Lib.PercentEncoding.escapeAt_eq_none (isSpecial_isAscii hc).2]
          rfl
      | false =>
          rw [Lib.HtmlEntities.escapeChar_of_not_isSpecial hc, List.singleton_append,
            Lib.PercentEncoding.hasEscape, escapeAt_escape, ih]
          rfl

theorem isAscii_of_mem_escape {s : List Char}
    (h : ∀ c ∈ s, Lib.PercentEncoding.isAscii c = true) :
    ∀ c ∈ escape s, Lib.PercentEncoding.isAscii c = true := by
  intro d hd
  obtain ⟨c, hc, hd⟩ := List.mem_flatMap.mp hd
  cases hspecial : isSpecial c with
  | true => exact (isAscii_of_mem_escapeChar hspecial hd).1
  | false =>
      rw [Lib.HtmlEntities.escapeChar_of_not_isSpecial hspecial, List.mem_singleton] at hd
      exact hd ▸ h c hc

theorem unquoteRun_escape {run : List Char}
    (h : ∀ c ∈ run, Lib.PercentEncoding.isAscii c = true)
    (hrun : Lib.PercentEncoding.unquoteRun run = run) :
    Lib.PercentEncoding.unquoteRun (escape run) = escape run := by
  rw [Lib.PercentEncoding.unquoteRun_eq_iff h] at hrun
  rw [Lib.PercentEncoding.unquoteRun_eq_iff (isAscii_of_mem_escape h), hasEscape_escape, hrun]

theorem unquoteFrom_escape {run s : List Char}
    (h : ∀ c ∈ run, Lib.PercentEncoding.isAscii c = true)
    (heq : Lib.PercentEncoding.unquoteFrom run s = run ++ s) :
    Lib.PercentEncoding.unquoteFrom (escape run) (escape s) = escape run ++ escape s := by
  induction s generalizing run with
  | nil =>
      rw [Lib.PercentEncoding.unquoteFrom, List.append_nil] at heq
      rw [Lib.HtmlEntities.escape_nil, Lib.PercentEncoding.unquoteFrom, unquoteRun_escape h heq,
        List.append_nil]
  | cons c s ih =>
      rw [Lib.PercentEncoding.unquoteFrom] at heq
      split at heq
      · next hc =>
          have hconcat := Lib.PercentEncoding.forall_isAscii_concat h hc
          have hone : ∀ d ∈ escapeChar c, Lib.PercentEncoding.isAscii d = true := by
            have hmem := isAscii_of_mem_escape (s := [c]) (by simpa using hc)
            simpa using hmem
          have hs := ih hconcat (by rw [heq, List.append_cons])
          rw [Lib.HtmlEntities.escape_cons, Lib.PercentEncoding.unquoteFrom_append hone]
          simpa using hs
      · next hc =>
          obtain ⟨hrun, hs⟩ := (Lib.PercentEncoding.shortens_unquoteRun h).eq_of_append_cons
            (Lib.PercentEncoding.shortens_unquoteFrom (List.forall_mem_nil _)) heq
          have hspecial : isSpecial c = false := by
            by_contra hspecial
            exact hc (isSpecial_isAscii (Bool.not_eq_false _ ▸ hspecial)).1
          rw [Lib.HtmlEntities.escape_cons,
            Lib.HtmlEntities.escapeChar_of_not_isSpecial hspecial, List.singleton_append,
            Lib.PercentEncoding.unquoteFrom, if_neg hc, unquoteRun_escape h hrun]
          have htail := ih (List.forall_mem_nil _) hs
          rw [Lib.HtmlEntities.escape_nil, List.nil_append] at htail
          rw [htail]

theorem percent_mem_escape {s : List Char} (h : '%' ∈ escape s) : '%' ∈ s := by
  obtain ⟨c, hc, hd⟩ := List.mem_flatMap.mp h
  cases hspecial : isSpecial c with
  | true => exact absurd rfl (isAscii_of_mem_escapeChar hspecial hd).2
  | false =>
      rw [Lib.HtmlEntities.escapeChar_of_not_isSpecial hspecial, List.mem_singleton] at hd
      exact hd ▸ hc

theorem urlDecode_escape {s : List Char} (h : urlDecode s = s) :
    urlDecode (escape s) = escape s := by
  by_cases hmem : '%' ∈ escape s
  · have hs := percent_mem_escape hmem
    rw [urlDecode, if_pos hs, Lib.PercentEncoding.unquote, if_pos hs] at h
    rw [urlDecode, if_pos hmem, Lib.PercentEncoding.unquote, if_pos hmem]
    exact unquoteFrom_escape (List.forall_mem_nil _) h
  · exact if_neg hmem

theorem flush_short {run : List Char} (h : run.length < minB64Length) : flush py run 0 = run := by
  simp only [flush]
  rw [if_neg (by omega), List.replicate_zero, List.append_nil]

/-- A short word between two characters that are no digits stays as it is. -/
theorem subFrom_word (word s : List Char) (hword : word.all Lib.Base64.isDigit = true)
    (hshort : word.length < minB64Length) :
    subFrom py [] 0 (word ++ ';' :: s) = word ++ ';' :: subFrom py [] 0 s := by
  have hsemi : Lib.Base64.isDigit ';' = false := by decide
  rw [subFrom_digits py (List.all_eq_true.mp hword), List.nil_append, subFrom,
    if_neg (by simp [hsemi]), if_neg (by simp), hsemi, if_neg Bool.false_ne_true,
    flush_short py hshort]

theorem subFrom_other {run s : List Char} {pads : Nat} {c : Char}
    (hc : Lib.Base64.isDigit c = false) (hpad : c ≠ '=') :
    subFrom py run pads (c :: s) = flush py run pads ++ c :: subFrom py [] 0 s := by
  rw [subFrom, if_neg (by simp [hc]), if_neg (by simp [hpad]), hc, if_neg Bool.false_ne_true]

theorem subFrom_named {run s : List Char} {pads : Nat} (word : List Char)
    (hword : word.all Lib.Base64.isDigit = true) (hshort : word.length < minB64Length) :
    subFrom py run pads ('&' :: (word ++ ';' :: s)) =
      flush py run pads ++ '&' :: (word ++ ';' :: subFrom py [] 0 s) := by
  have hamp : Lib.Base64.isDigit '&' = false := by decide
  rw [subFrom_other py hamp (by decide), subFrom_word py word s hword hshort]

theorem subFrom_reference {run s : List Char} {pads : Nat} {c : Char} (hc : isSpecial c = true) :
    subFrom py run pads (escapeChar c ++ s) =
      flush py run pads ++ (escapeChar c ++ subFrom py [] 0 s) := by
  rcases escapeChar_of_isSpecial hc with ⟨-, h⟩ | ⟨-, h⟩ | ⟨-, h⟩ | ⟨-, h⟩ | ⟨-, h⟩ <;> rw [h]
  · exact subFrom_named py ['a', 'm', 'p'] (by decide) (by decide)
  · exact subFrom_named py ['l', 't'] (by decide) (by decide)
  · exact subFrom_named py ['g', 't'] (by decide) (by decide)
  · exact subFrom_named py ['q', 'u', 'o', 't'] (by decide) (by decide)
  · -- the `#` of the numeric reference ends an empty run
    have hamp : Lib.Base64.isDigit '&' = false := by decide
    have hhash : Lib.Base64.isDigit '#' = false := by decide
    have hword := subFrom_word py ['x', '2', '7'] s (by decide) (by decide)
    rw [List.cons_append, subFrom_other py hamp (by decide), List.cons_append,
      subFrom_other py hhash (by decide), flush_short py (by decide), List.nil_append]
    exact congrArg (fun r => flush py run pads ++ '&' :: '#' :: r) hword

theorem isDigit_of_isSpecial {c : Char} (h : isSpecial c = true) :
    Lib.Base64.isDigit c = false ∧ c ≠ '=' := by
  rcases escapeChar_of_isSpecial h with ⟨rfl, -⟩ | ⟨rfl, -⟩ | ⟨rfl, -⟩ | ⟨rfl, -⟩ | ⟨rfl, -⟩ <;>
    decide

theorem subFrom_escape {run s : List Char} {pads : Nat}
    (hrun : ∀ c ∈ run, Lib.Base64.isDigit c = true)
    (heq : subFrom py run pads s = run ++ List.replicate pads '=' ++ s) :
    subFrom py run pads (escape s) = run ++ List.replicate pads '=' ++ escape s := by
  induction s generalizing run pads with
  | nil => exact heq
  | cons c s ih =>
      rw [Lib.HtmlEntities.escape_cons]
      cases hspecial : isSpecial c with
      | true =>
          obtain ⟨hdigit, hpad⟩ := isDigit_of_isSpecial hspecial
          rw [subFrom_other py hdigit hpad] at heq
          obtain ⟨hflush, hs⟩ := (shortens_flush py pads hrun).eq_of_append_cons
            (shortens_subFrom py 0 s (List.forall_mem_nil _)) heq
          rw [subFrom_reference py hspecial, hflush]
          exact congrArg (fun r => run ++ List.replicate pads '=' ++ (escapeChar c ++ r))
            (ih (List.forall_mem_nil _) hs)
      | false =>
          rw [Lib.HtmlEntities.escapeChar_of_not_isSpecial hspecial, List.singleton_append]
          rw [subFrom] at heq ⊢
          split
          · next hc =>
              obtain ⟨hc, rfl⟩ := hc
              rw [if_pos ⟨hc, rfl⟩] at heq
              have hs : subFrom py (run ++ [c]) 0 (escape s) =
                  run ++ [c] ++ List.replicate 0 '=' ++ escape s :=
                ih (forall_isDigit_concat hrun hc) (by simpa using heq)
              simpa using hs
          · next hc =>
              rw [if_neg hc] at heq
              split
              · next hpad =>
                  rw [if_pos hpad] at heq
                  obtain ⟨rfl, -, -⟩ := hpad
                  rw [← append_replicate_succ] at heq ⊢
                  exact ih hrun heq
              · next hpad =>
                  rw [if_neg hpad] at heq
                  split
                  · next hdigit =>
                      rw [if_pos hdigit] at heq
                      have hone : ∀ d ∈ [c], Lib.Base64.isDigit d = true := by simpa using hdigit
                      obtain ⟨hflush, hs⟩ := (shortens_flush py pads hrun).eq_of_append
                        (shortens_subFrom py 0 s hone) heq
                      rw [hflush, ih hone hs]
                      rfl
                  · next hdigit =>
                      rw [if_neg hdigit] at heq
                      obtain ⟨hflush, hs⟩ := (shortens_flush py pads hrun).eq_of_append_cons
                        (shortens_subFrom py 0 s (List.forall_mem_nil _)) heq
                      rw [hflush, ih (List.forall_mem_nil _) hs]
                      rfl

theorem base64DecodeEmbedded_escape {s : List Char} (h : base64DecodeEmbedded py s = s) :
    base64DecodeEmbedded py (escape s) = escape s :=
  subFrom_escape py (List.forall_mem_nil _) h

/-! ## The normal form of a stack

Escaping changes nothing over the other two kinds of layer, so what counts are the
escapes next to the text. -/

inductive Escaped (text : List Char) : Nat → List Char → Prop
  | bare : Escaped text 0 text
  | escape {k : Nat} {u : List Char} (hu : Escaped text k u) : Escaped text (k + 1) (escape u)

inductive Core (text : List Char) : Nat → List Char → Prop
  | escaped {k : Nat} {w : List Char} (hw : Escaped text k w) : Core text k w
  | percent {k : Nat} {u w : List Char} (hu : Core text k u)
      (hw : Lib.PercentEncoding.Encoded (Lib.Utf8.encode u) w) : Core text (k + 1) w
  | base64 {k : Nat} {u : List Char} (hu : Core text k u)
      (hlong : LongRun (Lib.Base64.encode (Lib.Utf8.encode u)))
      (hprintable : mostlyPrintable py u = true) :
      Core text (k + 1) (Lib.Base64.encode (Lib.Utf8.encode u))

variable {py} {text w : List Char} {k : Nat}

theorem core_of_wrapped (h : Wrapped py LongRun text k w) : ∃ j ≤ k, Core py text j w := by
  induction h with
  | bare => exact ⟨0, Nat.le_refl 0, .escaped .bare⟩
  | percent _ hw ih =>
      obtain ⟨j, hj, hu⟩ := ih
      exact ⟨j + 1, Nat.succ_le_succ hj, .percent hu hw⟩
  | base64 _ hlong hprintable ih =>
      obtain ⟨j, hj, hu⟩ := ih
      exact ⟨j + 1, Nat.succ_le_succ hj, .base64 hu hlong hprintable⟩
  | html _ ih =>
      obtain ⟨j, hj, hu⟩ := ih
      cases hu with
      | escaped hu => exact ⟨j + 1, Nat.succ_le_succ hj, .escaped hu.escape⟩
      | percent hu hw =>
          rw [Lib.HtmlEntities.escape_eq_self (not_isSpecial_of_percentEncoded hw)]
          exact ⟨_, Nat.le_succ_of_le hj, .percent hu hw⟩
      | base64 hu hlong hprintable =>
          rw [Lib.HtmlEntities.escape_eq_self not_isSpecial_of_mem_encode]
          exact ⟨_, Nat.le_succ_of_le hj, .base64 hu hlong hprintable⟩

theorem Escaped.urlDecode_eq (h : Escaped text k w) (hurl : urlDecode text = text) :
    urlDecode w = w := by
  induction h with
  | bare => exact hurl
  | escape _ ih => exact urlDecode_escape ih

theorem Escaped.base64DecodeEmbedded_eq (h : Escaped text k w)
    (hbase64 : base64DecodeEmbedded py text = text) : base64DecodeEmbedded py w = w := by
  induction h with
  | bare => exact hbase64
  | escape _ ih => exact base64DecodeEmbedded_escape py ih

theorem Escaped.htmlEntityDecode (h : Escaped text k w) (hhtml : htmlEntityDecode py text = text) :
    Escaped text (k - 1) (htmlEntityDecode py w) := by
  cases h with
  | bare => exact hhtml.symm ▸ .bare
  | escape hu => exact (htmlEntityDecode_escape py _).symm ▸ hu

/-- The last two decoders put no layer on. -/
theorem Core.decode_rest (h : Core py text k w) (hhtml : htmlEntityDecode py text = text)
    (hbase64 : base64DecodeEmbedded py text = text) :
    ∃ j ≤ k,
      Core py text j (base64DecodeEmbedded py (ContentNormalizer.htmlEntityDecode py w)) := by
  cases h with
  | escaped hw =>
      have hnext := hw.htmlEntityDecode hhtml
      rw [hnext.base64DecodeEmbedded_eq hbase64]
      exact ⟨_, Nat.sub_le _ _, .escaped hnext⟩
  | @percent k u _ hu hw =>
      have hrun : subFrom py [] 0 w = w := subFrom_percentEncoded py hw (Nat.zero_le _)
      rw [htmlEntityDecode_eq_self py (not_isSpecial_of_percentEncoded hw), base64DecodeEmbedded,
        hrun]
      exact ⟨k + 1, Nat.le_refl _, .percent hu hw⟩
  | @base64 k u hu hlong hprintable =>
      rw [htmlEntityDecode_eq_self py not_isSpecial_of_mem_encode,
        base64DecodeEmbedded_encode py hlong hprintable]
      exact ⟨k, Nat.le_succ k, hu⟩

/-- A pass takes off a layer at least. -/
theorem Core.decodePass (h : Core py text k w) (hfix : decodePass py text = text) :
    w = text ∨ ∃ j < k, Core py text j (decodePass py w) := by
  obtain ⟨hurl, hhtml, hbase64⟩ := decodePass_eq_self py hfix
  unfold ContentNormalizer.decodePass
  cases h with
  | escaped hw =>
      cases hw with
      | bare => exact .inl rfl
      | @escape k u hu =>
          have hnext := hu.escape.htmlEntityDecode hhtml
          rw [hu.escape.urlDecode_eq hurl, hnext.base64DecodeEmbedded_eq hbase64]
          exact .inr ⟨k, Nat.lt_succ_self k, .escaped hnext⟩
  | percent hu hw =>
      rw [urlDecode_encoded hw]
      obtain ⟨j, hj, hcore⟩ := hu.decode_rest hhtml hbase64
      exact .inr ⟨j, Nat.lt_succ_of_le hj, hcore⟩
  | @base64 k u hu hlong hprintable =>
      rw [urlDecode_encode, htmlEntityDecode_eq_self py not_isSpecial_of_mem_encode,
        base64DecodeEmbedded_encode py hlong hprintable]
      exact .inr ⟨k, Nat.lt_succ_self k, hu⟩

/-! ## The passes -/

theorem subset_normalizeLoop (py : PyLibrary) (passes : Nat) (variants : List (List Char))
    (current : List Char) : variants ⊆ normalizeLoop py passes variants current := by
  induction passes generalizing variants current with
  | zero => exact List.Subset.refl _
  | succ passes ih =>
      simp only [normalizeLoop]
      split
      · exact List.Subset.refl _
      · refine List.Subset.trans ?_ (ih ..)
        split
        · exact List.Subset.refl _
        · exact List.subset_append_left ..

theorem mem_normalizeLoop {passes : Nat} {variants : List (List Char)}
    (hfix : decodePass py text = text) (hcore : Core py text k w) (hk : k ≤ passes)
    (hmem : w ∈ variants) : text ∈ normalizeLoop py passes variants w := by
  induction k using Nat.strongRecOn generalizing passes variants w with
  | ind k ih =>
      obtain rfl | ⟨j, hj, hnext⟩ := hcore.decodePass hfix
      · exact subset_normalizeLoop py passes variants w hmem
      · obtain ⟨passes, rfl⟩ : ∃ p, passes = p + 1 := ⟨passes - 1, by omega⟩
        by_cases hstable : decodePass py w = w
        · rw [hstable] at hnext
          exact ih j hj hnext (by omega) hmem
        · simp only [normalizeLoop]
          rw [if_neg hstable]
          refine ih j hj hnext (by omega) ?_
          split
          · assumption
          · exact List.mem_append_right _ (List.mem_singleton_self _)

/-- A text that a pass leaves unchanged is found under as many layers as there are
passes, every base64 output being long enough before its padding. -/
theorem mem_normalize_of_wrapped (py : PyLibrary) {text w : List Char} {k maxDepth : Nat}
    (hfix : decodePass py text = text) (hw : Wrapped py LongRun text k w) (hk : k ≤ maxDepth) :
    text ∈ normalize py w maxDepth := by
  obtain ⟨j, hj, hcore⟩ := core_of_wrapped hw
  exact mem_normalizeLoop hfix hcore (Nat.le_trans hj hk) (List.mem_singleton_self w)

/-- A library for ASCII text. -/
def asciiLibrary : PyLibrary where
  isPrintable c := decide (32 ≤ c.toNat ∧ c.toNat ≤ 126)
  html5 :=
    { lookup := fun name =>
        if name = "amp;".toList then some ['&']
        else if name = "lt;".toList then some ['<']
        else if name = "gt;".toList then some ['>']
        else if name = "quot;".toList then some ['"']
        else none
      lookup_amp := by decide
      lookup_lt := by decide
      lookup_gt := by decide
      lookup_quot := by decide
      length_le := by
        intro name value h
        split at h
        · next hname => simp [hname, ← Option.some.inj h]
        · split at h
          · next hname => simp [hname, ← Option.some.inj h]
          · split at h
            · next hname => simp [hname, ← Option.some.inj h]
            · split at h
              · next hname => simp [hname, ← Option.some.inj h]
              · simp at h }
  excessPadding := false

def samplePlain : List Char := "Tom & Ann: SSN 123-45-6789".toList

def sampleEncoded : List Char :=
  Lib.PercentEncoding.encode (Lib.Utf8.encode
    (Lib.Base64.encode (Lib.Utf8.encode (escape samplePlain))))

theorem mem_normalize_sample :
    Wrapped asciiLibrary LongRun samplePlain 3 sampleEncoded ∧
      samplePlain ∈ normalize asciiLibrary sampleEncoded 3 := by
  have hwrapped : Wrapped asciiLibrary LongRun samplePlain 3 sampleEncoded :=
    .percent (.base64 (.html .bare) (by unfold LongRun; decide +kernel) (by decide +kernel))
      (Lib.PercentEncoding.encoded_encode _)
  exact ⟨hwrapped, mem_normalize_of_wrapped asciiLibrary (by decide +kernel) hwrapped
    (Nat.le_refl 3)⟩

/-- With the padding counted in, thirty digits and `==` are long enough for
`_MIN_B64_LENGTH` and not for the pattern. -/
theorem not_mem_normalize_of_longOutput :
    ¬ ∀ (py : PyLibrary) (text w : List Char) (k maxDepth : Nat), decodePass py text = text →
      Wrapped py LongOutput text k w → k ≤ maxDepth → text ∈ normalize py w maxDepth := by
  intro h
  have hmem := h asciiLibrary "SSN 123-45-6789 of Bob".toList
    (Lib.Base64.encode (Lib.Utf8.encode "SSN 123-45-6789 of Bob".toList)) 1 5 (by decide +kernel)
    (.base64 .bare (by unfold LongOutput; decide +kernel) (by decide +kernel)) (by decide)
  exact absurd hmem (by decide +kernel)

end ContentNormalizer

end AkesoDlp.Network
