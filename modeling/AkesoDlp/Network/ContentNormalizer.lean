import AkesoDlp.Lib.Base64
import AkesoDlp.Lib.HtmlEntities

/-!
# The content normalizer

`content_normalizer.py`: a pass undoes percent escapes, character references and
embedded base64, and the passes go on until the text stays as it is or the limit is
reached. Each decoder leaves the text alone or makes it shorter.
-/

namespace AkesoDlp.Network

open Lib (Shortens)

/-- What the decoders use of the standard library: `str.isprintable` of one
character, the table of named references, and whether `b64decode` passes padding
after full groups. -/
structure PyLibrary where
  isPrintable : Char → Bool
  html5 : Lib.HtmlEntities.Html5
  excessPadding : Bool

namespace ContentNormalizer

/-- `_MIN_B64_LENGTH`. -/
def minB64Length : Nat := 32

variable (py : PyLibrary)

/-- `_url_decode`. -/
def urlDecode (text : List Char) : List Char :=
  if '%' ∈ text then Lib.PercentEncoding.unquote text else text

/-- `_html_entity_decode`; what `unescape` raises is caught. -/
def htmlEntityDecode (text : List Char) : List Char :=
  if '&' ∈ text then (Lib.HtmlEntities.unescape py.html5 text).getD text else text

def countsAsPrintable (c : Char) : Bool :=
  py.isPrintable c || ['\n', '\r', '\t'].contains c

/-- `printable_ratio >= 0.8`. -/
def mostlyPrintable (text : List Char) : Bool :=
  decide (4 * max text.length 1 ≤ 5 * text.countP (countsAsPrintable py))

/-- `_try_decode`, on the text of a match. -/
def tryDecode (b64Str : List Char) : List Char :=
  let padded := b64Str ++ List.replicate ((4 - b64Str.length % 4) % 4) '='
  match (Lib.Base64.decode py.excessPadding padded).bind Lib.Utf8.decodeStrict with
  | some decodedText => if mostlyPrintable py decodedText then decodedText else b64Str
  | none => b64Str

/-- The match that ends here, or what turned out to be none. -/
def flush (run : List Char) (pads : Nat) : List Char :=
  let found := run ++ List.replicate pads '='
  if minB64Length ≤ run.length then tryDecode py found else found

/-- `_B64_PATTERN.sub`: `run` is the longest run of digits that ends here, with
`pads` times `=` after it. -/
def subFrom (run : List Char) (pads : Nat) : List Char → List Char
  | [] => flush py run pads
  | c :: s =>
      if Lib.Base64.isDigit c = true ∧ pads = 0 then subFrom (run ++ [c]) 0 s
      else if c = '=' ∧ minB64Length ≤ run.length ∧ pads < 2 then subFrom run (pads + 1) s
      else
        flush py run pads ++ if Lib.Base64.isDigit c then subFrom [c] 0 s else c :: subFrom [] 0 s

/-- `_base64_decode_embedded`. -/
def base64DecodeEmbedded (text : List Char) : List Char := subFrom py [] 0 text

/-- `_decode_pass`. -/
def decodePass (text : List Char) : List Char :=
  base64DecodeEmbedded py (htmlEntityDecode py (urlDecode text))

/-- The loop of `normalize`; `seen` holds the variants. -/
def normalizeLoop : (passes : Nat) → (variants : List (List Char)) → (current : List Char) →
    List (List Char)
  | 0, variants, _ => variants
  | passes + 1, variants, current =>
      let decoded := decodePass py current
      if decoded = current then variants
      else normalizeLoop passes
        (if decoded ∈ variants then variants else variants ++ [decoded]) decoded

/-- `normalize`. -/
def normalize (text : List Char) (maxDepth : Nat := 5) : List (List Char) :=
  normalizeLoop py maxDepth [text] text

/-! ## The decoders shorten -/

theorem shortens_urlDecode (text : List Char) : Shortens text (urlDecode text) := by
  unfold urlDecode
  split
  · exact Lib.PercentEncoding.shortens_unquote text
  · exact .refl text

theorem shortens_htmlEntityDecode (text : List Char) :
    Shortens text (htmlEntityDecode py text) := by
  unfold htmlEntityDecode
  split
  · exact Lib.HtmlEntities.shortens_unescape py.html5 text
  · exact .refl text

/-- Without the test for `%` nothing would change. -/
theorem urlDecode_eq (text : List Char) : urlDecode text = Lib.PercentEncoding.unquote text := by
  unfold urlDecode
  split
  · rfl
  · next hmem => rw [Lib.PercentEncoding.unquote, if_neg hmem]

/-- Without the test for `&` nothing would change. -/
theorem htmlEntityDecode_eq (text : List Char) :
    htmlEntityDecode py text = (Lib.HtmlEntities.unescape py.html5 text).getD text := by
  unfold htmlEntityDecode
  split
  · rfl
  · next hmem => rw [Lib.HtmlEntities.unescape_of_not_mem py.html5 hmem, Option.getD_some]

/-- Four digits hold three bytes, and a byte is at most one character. -/
theorem shortens_tryDecode {run : List Char} {pads : Nat} (hlong : minB64Length ≤ run.length)
    (hrun : ∀ c ∈ run, Lib.Base64.isDigit c = true) :
    Shortens (run ++ List.replicate pads '=') (tryDecode py (run ++ List.replicate pads '=')) := by
  simp only [tryDecode]
  split
  · next text htext =>
      split
      · obtain ⟨bytes, hbytes, hstrict⟩ := Option.bind_eq_some_iff.mp htext
        have hdata : ((run ++ List.replicate pads '=') ++ List.replicate
            ((4 - (run ++ List.replicate pads '=').length % 4) % 4) '=').takeWhile
              Lib.Base64.isDigit = run := by
          rw [List.append_assoc, ← List.replicate_add, List.takeWhile_append_of_pos hrun]
          cases pads + (4 - (run ++ List.replicate pads '=').length % 4) % 4 with
          | zero => simp
          | succ n =>
              rw [List.replicate_succ, List.takeWhile_cons, if_neg (by decide), List.append_nil]
        have hbound := Lib.Base64.length_decode_le hbytes
        rw [hdata] at hbound
        have htext := Lib.Utf8.length_decodeStrict_le hstrict
        refine .of_lt ?_
        rw [List.length_append]
        unfold minB64Length at hlong
        omega
      · exact .refl _
  · exact .refl _

theorem shortens_flush {run : List Char} (pads : Nat)
    (hrun : ∀ c ∈ run, Lib.Base64.isDigit c = true) :
    Shortens (run ++ List.replicate pads '=') (flush py run pads) := by
  simp only [flush]
  split
  · next hlong => exact shortens_tryDecode py hlong hrun
  · exact .refl _

theorem forall_isDigit_concat {run : List Char} {c : Char}
    (h : ∀ d ∈ run, Lib.Base64.isDigit d = true) (hc : Lib.Base64.isDigit c = true) :
    ∀ d ∈ run ++ [c], Lib.Base64.isDigit d = true := by
  simpa [or_imp, forall_and] using And.intro h hc

theorem append_replicate_succ (run s : List Char) (pads : Nat) :
    run ++ List.replicate (pads + 1) '=' ++ s = run ++ List.replicate pads '=' ++ '=' :: s := by
  rw [List.replicate_succ']
  simp

theorem shortens_subFrom {run : List Char} (pads : Nat) (s : List Char)
    (hrun : ∀ c ∈ run, Lib.Base64.isDigit c = true) :
    Shortens (run ++ List.replicate pads '=' ++ s) (subFrom py run pads s) := by
  induction s generalizing run pads with
  | nil =>
      rw [List.append_nil]
      exact shortens_flush py pads hrun
  | cons c s ih =>
      rw [subFrom]
      split
      · next hc =>
          obtain ⟨hc, rfl⟩ := hc
          have hs := ih 0 (forall_isDigit_concat hrun hc)
          simpa using hs
      · split
        · next hc =>
            obtain ⟨rfl, -, -⟩ := hc
            rw [← append_replicate_succ]
            exact ih (pads + 1) hrun
        · refine (shortens_flush py pads hrun).append ?_
          split
          · next hc => exact ih 0 (List.forall_mem_singleton.mpr hc)
          · exact (ih 0 (List.forall_mem_nil _)).cons c

theorem shortens_base64DecodeEmbedded (text : List Char) :
    Shortens text (base64DecodeEmbedded py text) :=
  shortens_subFrom py 0 text (List.forall_mem_nil _)

/-- What a pass leaves unchanged, every decoder leaves unchanged. -/
theorem decodePass_eq_self {text : List Char} (h : decodePass py text = text) :
    urlDecode text = text ∧ htmlEntityDecode py text = text ∧
      base64DecodeEmbedded py text = text := by
  have hurl : urlDecode text = text :=
    (shortens_urlDecode text).eq_of_trans
      ((shortens_htmlEntityDecode py _).trans (shortens_base64DecodeEmbedded py _)) h
  rw [decodePass, hurl] at h
  have hhtml := (shortens_htmlEntityDecode py text).eq_of_trans
    (shortens_base64DecodeEmbedded py _) h
  rw [hhtml] at h
  exact ⟨hurl, hhtml, h⟩

end ContentNormalizer

end AkesoDlp.Network
