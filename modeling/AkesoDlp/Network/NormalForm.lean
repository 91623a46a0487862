import AkesoDlp.Network.EncodedFragments

/-!
# The normal form that decoding ends in

The variants of a text are the stages of `_decode_pass` on it: shorter and shorter, and the
last of them is left alone by a pass unless the limit was used up. As every pass that changes
a text takes a character from it, a limit above the length of the text is never used up.
-/

namespace AkesoDlp.Network.ContentNormalizer

open Lib (changes stages)

variable (py : PyLibrary)

/-- The variants begin with the text and go on pass by pass, each shorter than those before;
if a pass of the first `maxDepth` changed nothing, none changes the last of them. -/
structure DecodedNormalForm (text : List Char) (maxDepth : Nat) (variants : List (List Char)) :
    Prop where
  head : variants.head? = some text
  bounded : variants.length ≤ maxDepth + 1
  distinct : variants.Nodup
  shorter : variants.Pairwise fun before after => after.length < before.length
  pass : variants.IsChain fun before after => after = decodePass py before
  stable : changes (decodePass py) maxDepth text < maxDepth →
    ∀ last ∈ variants.getLast?, decodePass py last = last

theorem decodings_eq_stages (passes : Nat) (text : List Char) :
    decodings py passes text = stages (decodePass py) passes text := by
  induction passes generalizing text with
  | zero => rfl
  | succ passes ih => rw [decodings, stages, ih]

theorem normalize_eq_stages (text : List Char) (maxDepth : Nat) :
    normalize py text maxDepth = text :: stages (decodePass py) maxDepth text := by
  rw [normalize_eq, decodings_eq_stages]

/-- Each pass that changes the text adds a variant. -/
theorem length_normalize (text : List Char) (maxDepth : Nat) :
    (normalize py text maxDepth).length = changes (decodePass py) maxDepth text + 1 := by
  rw [normalize_eq_stages, List.length_cons, Lib.length_stages]

/-- Whether or not the loop stops early, the last variant is the text after all the passes. -/
theorem getLast?_normalize (text : List Char) (maxDepth : Nat) :
    (normalize py text maxDepth).getLast? = some ((decodePass py)^[maxDepth] text) := by
  rw [normalize_eq_stages, List.getLast?_eq_getLast_of_ne_nil (List.cons_ne_nil _ _),
    Lib.getLast_stages]

theorem normalize_normalForm (text : List Char) (maxDepth : Nat) :
    DecodedNormalForm py text maxDepth (normalize py text maxDepth) := by
  have hshorter : (normalize py text maxDepth).Pairwise
      fun before after => after.length < before.length := by
    rw [normalize_eq_stages]
    exact Lib.pairwise_stages (shortens_decodePass py) maxDepth text
  constructor
  case head => rw [normalize_eq_stages, List.head?_cons]
  case bounded =>
    rw [length_normalize]
    exact Nat.succ_le_succ (Lib.changes_le _ maxDepth text)
  case distinct =>
    refine hshorter.imp fun hlt heq => ?_
    rw [heq] at hlt
    exact Nat.lt_irrefl _ hlt
  case shorter => exact hshorter
  case pass =>
    rw [normalize_eq_stages]
    exact (Lib.isChain_stages _ maxDepth text).imp fun _ _ h => h.1
  case stable =>
    intro hchanges last hlast
    rw [getLast?_normalize, Option.mem_some_iff] at hlast
    rw [← hlast]
    exact Lib.iterate_fixed_of_changes_lt _ hchanges

/-- A limit above the length of the text is as good as none. -/
theorem normalize_stable_of_length_lt {text : List Char} {maxDepth : Nat}
    (h : text.length < maxDepth) :
    ∀ last ∈ (normalize py text maxDepth).getLast?, decodePass py last = last := by
  have hchanges := Lib.changes_add_length_le (shortens_decodePass py) maxDepth text
  exact (normalize_normalForm py text maxDepth).stable (by omega)

/-- What decoding ended in is its own only variant. -/
theorem normalize_of_stable {text : List Char} (h : decodePass py text = text) (maxDepth : Nat) :
    normalize py text maxDepth = [text] := by
  rw [normalize_eq, decodings_of_stable h]

end AkesoDlp.Network.ContentNormalizer
