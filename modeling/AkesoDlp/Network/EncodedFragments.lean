import AkesoDlp.Network.EncodingLayers

/-!
# One encoded fragment in a text

A text that holds one percent escape, character reference or base64 run, and is plain around
it. A pass undoes the fragment and leaves the rest alone. The variants that `normalize` adds
to a text are what the passes make of it one after the other.
-/

namespace AkesoDlp.Network.ContentNormalizer

open Lib (Shortens)

variable (py : PyLibrary)

/-- No escape and no reference begins here. -/
structure Plain (text : List Char) : Prop where
  percent : '%' ∉ text
  amp : '&' ∉ text

/-- The character is no part of a base64 run. -/
def endsRun (c : Char) : Bool := !Lib.Base64.isDigit c && c != '='

/-- `encoded` is one fragment that stands for `decoded`, with `u` before it and `v` after it. A
reference ends where it ends whatever follows, and a base64 run does not go on into the text
around it. -/
inductive Fragment (u v : List Char) : (encoded decoded : List Char) → Prop
  | percent {encoded decoded : List Char}
      (hencoded : Lib.PercentEncoding.Encoded (Lib.Utf8.encode decoded) encoded) :
      Fragment u v encoded decoded
  | reference {body decoded : List Char}
      (hbody : ∀ rest, Lib.HtmlEntities.charrefBody (body ++ rest) = some body)
      (hvalue : Lib.HtmlEntities.replaceCharref py.html5 body = some decoded)
      (hpercent : '%' ∉ body) : Fragment u v ('&' :: body) decoded
  | base64 {decoded : List Char}
      (hlong : LongRun (Lib.Base64.encode (Lib.Utf8.encode decoded)))
      (hprintable : mostlyPrintable py decoded = true)
      (hleft : u.getLast?.all endsRun = true) (hright : v.head?.all endsRun = true) :
      Fragment u v (Lib.Base64.encode (Lib.Utf8.encode decoded)) decoded

variable {py}

/-! ## References -/

theorem urlDecode_of_not_mem {text : List Char} (h : '%' ∉ text) : urlDecode text = text :=
  if_neg h

theorem htmlEntityDecode_of_not_mem {text : List Char} (h : '&' ∉ text) :
    htmlEntityDecode py text = text :=
  if_neg h

theorem unescape_append {front s r : List Char} (hfront : '&' ∉ front)
    (hs : Lib.HtmlEntities.unescape py.html5 s = some r) :
    Lib.HtmlEntities.unescape py.html5 (front ++ s) = some (front ++ r) := by
  induction front with
  | nil => exact hs
  | cons c front ih =>
      rw [List.mem_cons, not_or] at hfront
      rw [Lib.HtmlEntities.unescape] at ih ⊢
      rw [List.cons_append, Lib.HtmlEntities.subFrom_cons py.html5 (Ne.symm hfront.1),
        ih hfront.2]
      rfl

theorem htmlEntityDecode_between {u v body decoded : List Char}
    (hbody : ∀ rest, Lib.HtmlEntities.charrefBody (body ++ rest) = some body)
    (hvalue : Lib.HtmlEntities.replaceCharref py.html5 body = some decoded)
    (hu : '&' ∉ u) (hv : '&' ∉ v) :
    htmlEntityDecode py (u ++ ('&' :: body ++ v)) = u ++ (decoded ++ v) := by
  have hreference : Lib.HtmlEntities.unescape py.html5 ('&' :: body ++ v) =
      some (decoded ++ v) := by
    have hrest := Lib.HtmlEntities.unescape_of_not_mem py.html5 hv
    rw [Lib.HtmlEntities.unescape] at hrest ⊢
    rw [List.cons_append,
      Lib.HtmlEntities.subFrom_charref py.html5 body v decoded (hbody v) hvalue, hrest]
    rfl
  rw [htmlEntityDecode_eq, unescape_append hu hreference, Option.getD_some]

/-! ## Base64 -/

/-- A character outside the runs ends what comes before it. -/
theorem subFrom_append_cons {c : Char} (hc : endsRun c = true) {run : List Char} {pads : Nat}
    (s r : List Char) :
    subFrom py run pads (s ++ c :: r) = subFrom py run pads s ++ c :: subFrom py [] 0 r := by
  rw [endsRun, Bool.and_eq_true, Bool.not_eq_true', bne_iff_ne] at hc
  induction s generalizing run pads with
  | nil => exact subFrom_other py hc.1 hc.2
  | cons d s ih =>
      rw [List.cons_append, subFrom, subFrom]
      split
      · exact ih
      · split
        · exact ih
        · rw [List.append_assoc]
          split
          · rw [ih]
          · rw [ih, List.cons_append]

theorem base64DecodeEmbedded_append_left {u s : List Char} (hu : u.getLast?.all endsRun = true) :
    base64DecodeEmbedded py (u ++ s) = base64DecodeEmbedded py u ++ base64DecodeEmbedded py s := by
  rcases List.eq_nil_or_concat u with rfl | ⟨u, c, rfl⟩
  · rfl
  · rw [List.concat_eq_append] at hu ⊢
    rw [List.getLast?_concat, Option.all_some] at hu
    unfold base64DecodeEmbedded
    rw [List.append_assoc, List.singleton_append, subFrom_append_cons hu, subFrom_append_cons hu,
      List.append_assoc]
    rfl

theorem base64DecodeEmbedded_append_right {s v : List Char} (hv : v.head?.all endsRun = true) :
    base64DecodeEmbedded py (s ++ v) = base64DecodeEmbedded py s ++ base64DecodeEmbedded py v := by
  cases v with
  | nil =>
      rw [List.append_nil]
      exact (List.append_nil _).symm
  | cons c v =>
      rw [List.head?_cons, Option.all_some] at hv
      have hempty : base64DecodeEmbedded py (c :: v) = c :: base64DecodeEmbedded py v :=
        subFrom_append_cons hv [] v
      rw [hempty]
      exact subFrom_append_cons hv s v

/-- Nothing but the run is decoded. -/
theorem base64DecodeEmbedded_between {u v encoded decoded : List Char}
    (hleft : u.getLast?.all endsRun = true) (hright : v.head?.all endsRun = true)
    (hencoded : base64DecodeEmbedded py encoded = decoded)
    (hstable : base64DecodeEmbedded py (u ++ (decoded ++ v)) = u ++ (decoded ++ v)) :
    base64DecodeEmbedded py (u ++ (encoded ++ v)) = u ++ (decoded ++ v) := by
  rw [base64DecodeEmbedded_append_left hleft, base64DecodeEmbedded_append_right hright] at hstable
  have hshort := fun text => shortens_base64DecodeEmbedded py text
  obtain ⟨hu, hrest⟩ := (hshort u).eq_of_append ((hshort decoded).append (hshort v)) hstable
  obtain ⟨-, hv⟩ := (hshort decoded).eq_of_append (hshort v) hrest
  rw [base64DecodeEmbedded_append_left hleft, base64DecodeEmbedded_append_right hright, hu, hv,
    hencoded]

/-! ## A pass -/

/-- A pass makes the decoded text of the encoded one if nothing is left to decode then. -/
theorem Fragment.decodePass {u v encoded decoded : List Char}
    (h : Fragment py u v encoded decoded) (hu : Plain u) (hv : Plain v)
    (hstable : decodePass py (u ++ (decoded ++ v)) = u ++ (decoded ++ v)) :
    decodePass py (u ++ (encoded ++ v)) = u ++ (decoded ++ v) := by
  obtain ⟨-, hhtml, hbase64⟩ := decodePass_eq_self py hstable
  rw [ContentNormalizer.decodePass]
  cases h with
  | percent hencoded =>
      rw [urlDecode_eq, hencoded.unquote_between hu.percent hv.percent, hhtml, hbase64]
  | @reference body _ hbody hvalue hpercent =>
      have hplain : '%' ∉ u ++ ('&' :: body ++ v) := by
        simp [hu.percent, hv.percent, hpercent]
      rw [urlDecode_of_not_mem hplain, htmlEntityDecode_between hbody hvalue hu.amp hv.amp, hbase64]
  | base64 hlong hprintable hleft hright =>
      have hnot : ∀ c, Lib.Base64.isDigit c = false → c ≠ '=' →
          c ∉ Lib.Base64.encode (Lib.Utf8.encode decoded) := by
        intro c hdigit hpad hmem
        rcases mem_encode hmem with hc | hc
        · rw [hdigit] at hc
          exact Bool.false_ne_true hc
        · exact hpad hc
      have hpercent := hnot '%' (by decide) (by decide)
      have hamp := hnot '&' (by decide) (by decide)
      rw [urlDecode_of_not_mem (by simp [hu.percent, hv.percent, hpercent]),
        htmlEntityDecode_of_not_mem (by simp [hu.amp, hv.amp, hamp])]
      exact base64DecodeEmbedded_between hleft hright
        (base64DecodeEmbedded_encode py hlong hprintable) hbase64

/-! ## The variants -/

variable (py)

/-- What the passes make of the text one after the other, until it stays as it is. -/
def decodings : (passes : Nat) → List Char → List (List Char)
  | 0, _ => []
  | passes + 1, text =>
      if decodePass py text = text then []
      else decodePass py text :: decodings passes (decodePass py text)

theorem shortens_decodePass (text : List Char) : Shortens text (decodePass py text) :=
  (shortens_urlDecode text).trans
    ((shortens_htmlEntityDecode py _).trans (shortens_base64DecodeEmbedded py _))

/-- Every pass that changes the text makes it shorter, so no variant comes twice. -/
theorem normalizeLoop_eq (passes : Nat) (variants : List (List Char)) (current : List Char)
    (h : ∀ variant ∈ variants, current.length ≤ variant.length) :
    normalizeLoop py passes variants current = variants ++ decodings py passes current := by
  induction passes generalizing variants current with
  | zero => exact (List.append_nil _).symm
  | succ passes ih =>
      rw [normalizeLoop, decodings]
      split
      · exact (List.append_nil _).symm
      · next hchanged =>
          have hlt : (decodePass py current).length < current.length :=
            (shortens_decodePass py current).resolve_left hchanged
          have hnew : decodePass py current ∉ variants := by
            intro hmem
            have hle := h _ hmem
            omega
          rw [if_neg hnew, ih, List.append_assoc, List.singleton_append]
          intro variant hvariant
          rcases List.mem_append.mp hvariant with hold | hlast
          · have hle := h variant hold
            omega
          · exact Nat.le_of_eq (congrArg List.length (List.mem_singleton.mp hlast).symm)

theorem normalize_eq (text : List Char) (maxDepth : Nat) :
    normalize py text maxDepth = text :: decodings py maxDepth text := by
  rw [normalize, normalizeLoop_eq]
  · rfl
  · intro variant hvariant
    exact Nat.le_of_eq (congrArg List.length (List.mem_singleton.mp hvariant).symm)

variable {py}

theorem decodings_of_stable {text : List Char} (h : decodePass py text = text) (passes : Nat) :
    decodings py passes text = [] := by
  cases passes with
  | zero => rfl
  | succ passes => rw [decodings, if_pos h]

theorem decodings_succ {text : List Char} (h : decodePass py text ≠ text) (passes : Nat) :
    decodings py (passes + 1) text =
      decodePass py text :: decodings py passes (decodePass py text) :=
  if_neg h

end AkesoDlp.Network.ContentNormalizer
