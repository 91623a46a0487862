import Mathlib.Algebra.Order.BigOperators.Group.List
import Mathlib.Algebra.GroupWithZero.Nat
import Mathlib.Algebra.Order.Group.Nat
import AkesoDlp.Lib.Json

/-!
# What a JSON text weighs

Every byte of a text has a weight, and a backslash and a zero are the only ones
that weigh anything. The weights are such that an escape weighs more than what it
stands for: the strings that are read from a text weigh no more than the text, even
if each byte in them that needs an escape counts one more.
-/

namespace Lib

namespace Json

/-! ## What a reader leaves is a suffix -/

theorem skipWs_suffix (bytes : List UInt8) : skipWs bytes <:+ bytes :=
  List.dropWhile_suffix _

theorem token_suffix {b : UInt8} {bytes rest : List UInt8} (h : token b bytes = some rest) :
    rest <:+ bytes := by
  unfold token at h
  split at h
  · cases h
  · next c tail hskip =>
      obtain ⟨-, rfl⟩ := Option.ite_none_right_eq_some.mp h |>.imp_right Option.some.inj
      exact (List.suffix_cons c tail).trans (hskip ▸ skipWs_suffix bytes)

theorem digits_suffix {bytes ds rest : List UInt8} (h : digits bytes = some (ds, rest)) :
    rest <:+ bytes := by
  simp only [digits, Option.ite_none_left_eq_some, Option.some.injEq, Prod.mk.injEq] at h
  exact h.2.2 ▸ List.dropWhile_suffix _

theorem minus_suffix (bytes : List UInt8) : (minus bytes).2 <:+ bytes := by
  unfold minus
  split
  · exact List.suffix_rfl
  · split
    · exact List.suffix_cons _ _
    · exact List.suffix_rfl

theorem sign_suffix (bytes : List UInt8) : (sign bytes).2 <:+ bytes := by
  unfold sign
  split
  · exact List.suffix_rfl
  · split
    · exact List.suffix_cons _ _
    · exact List.suffix_rfl

theorem intPart_suffix {bytes ds rest : List UInt8} (h : intPart bytes = some (ds, rest)) :
    rest <:+ bytes := by
  unfold intPart at h
  split at h
  · cases h
  · split at h
    · obtain ⟨-, rfl⟩ := Prod.mk.inj (Option.some.inj h)
      exact List.suffix_cons _ _
    · exact digits_suffix h

theorem fracPart_suffix {bytes ds rest : List UInt8} (h : fracPart bytes = some (ds, rest)) :
    rest <:+ bytes := by
  unfold fracPart at h
  split at h
  · obtain ⟨-, rfl⟩ := Prod.mk.inj (Option.some.inj h)
    exact List.suffix_rfl
  · next b tail =>
      split at h
      · obtain ⟨⟨ds', rest'⟩, hdigits, heq⟩ := Option.bind_eq_some_iff.mp h
        obtain ⟨-, rfl⟩ := Prod.mk.inj (Option.some.inj heq)
        exact (digits_suffix hdigits).trans (List.suffix_cons b tail)
      · obtain ⟨-, rfl⟩ := Prod.mk.inj (Option.some.inj h)
        exact List.suffix_rfl

theorem expPart_suffix {bytes ds rest : List UInt8} (h : expPart bytes = some (ds, rest)) :
    rest <:+ bytes := by
  unfold expPart at h
  split at h
  · obtain ⟨-, rfl⟩ := Prod.mk.inj (Option.some.inj h)
    exact List.suffix_rfl
  · next b tail =>
      split at h
      · obtain ⟨⟨ds', rest'⟩, hdigits, heq⟩ := Option.bind_eq_some_iff.mp h
        obtain ⟨-, rfl⟩ := Prod.mk.inj (Option.some.inj heq)
        exact ((digits_suffix hdigits).trans (sign_suffix tail)).trans (List.suffix_cons b tail)
      · obtain ⟨-, rfl⟩ := Prod.mk.inj (Option.some.inj h)
        exact List.suffix_rfl

theorem number_suffix {bytes lexeme rest : List UInt8} (h : number bytes = some (lexeme, rest)) :
    rest <:+ bytes := by
  obtain ⟨⟨whole, rest₁⟩, hint, h⟩ := Option.bind_eq_some_iff.mp h
  obtain ⟨⟨frac, rest₂⟩, hfrac, h⟩ := Option.bind_eq_some_iff.mp h
  obtain ⟨⟨exp, rest₃⟩, hexp, h⟩ := Option.bind_eq_some_iff.mp h
  obtain ⟨-, rfl⟩ := Prod.mk.inj (Option.some.inj h)
  exact (expPart_suffix hexp).trans ((fracPart_suffix hfrac).trans
    ((intPart_suffix hint).trans (minus_suffix bytes)))

/-! ## What a text weighs

A backslash weighs two and a zero one. An escape is at least a backslash, and one
for a backslash is two of them or `005c` after one. -/

def byteWeight (b : UInt8) : Nat := if b = 92 then 2 else if b = 48 then 1 else 0

def weight (s : List UInt8) : Nat := (s.map byteWeight).sum

def cost (s : List UInt8) : Nat := weight s + s.countP needsEscape

@[simp] theorem weight_nil : weight [] = 0 := rfl

@[simp] theorem weight_cons (b : UInt8) (s : List UInt8) :
    weight (b :: s) = byteWeight b + weight s := by
  simp [weight]

@[simp] theorem weight_append (s t : List UInt8) : weight (s ++ t) = weight s + weight t := by
  simp [weight]

theorem weight_flatMap {α : Type*} (l : List α) (f : α → List UInt8) :
    weight (l.flatMap f) = (l.map fun a => weight (f a)).sum := by
  induction l with
  | nil => rfl
  | cons a l ih => rw [List.flatMap_cons, weight_append, ih, List.map_cons, List.sum_cons]

theorem weight_le_of_suffix {s t : List UInt8} (h : s <:+ t) : weight s ≤ weight t := by
  obtain ⟨r, rfl⟩ := h
  simp

@[simp] theorem cost_nil : cost [] = 0 := rfl

theorem cost_cons (b : UInt8) (s : List UInt8) :
    cost (b :: s) = byteWeight b + (if needsEscape b then 1 else 0) + cost s := by
  rw [cost, cost, weight_cons, List.countP_cons]
  omega

@[simp] theorem cost_append (s t : List UInt8) : cost (s ++ t) = cost s + cost t := by
  simp only [cost, weight_append, List.countP_append]
  omega

theorem weight_le_cost (s : List UInt8) : weight s ≤ cost s := Nat.le_add_right _ _

theorem cost_eq_weight_iff {s : List UInt8} :
    cost s = weight s ↔ ∀ b ∈ s, needsEscape b = false := by
  simp [cost, List.countP_eq_zero]

theorem cost_eq_zero_of_high {s : List UInt8} (h : ∀ b ∈ s, 128 ≤ b.toNat) : cost s = 0 := by
  induction s with
  | nil => rfl
  | cons b s ih =>
      rw [List.forall_mem_cons] at h
      have hne : ∀ c : UInt8, c.toNat < 128 → b ≠ c := by
        rintro c hc rfl
        omega
      have hlow : ¬ b < 32 := by
        rw [UInt8.lt_iff_toNat_lt]
        have h32 : (32 : UInt8).toNat = 32 := rfl
        omega
      simp [cost_cons, ih h.2, byteWeight, needsEscape, hne 92 (by decide), hne 48 (by decide),
        hne 34 (by decide), hlow]

theorem cost_byte_le (b : UInt8) : cost [b] ≤ 3 := by
  simp only [cost_cons, cost_nil, byteWeight]
  split_ifs <;> omega

/-- The encoding of a character is one byte, or needs no escape. -/
theorem cost_utf8EncodeChar_le (c : Char) :
    cost (String.utf8EncodeChar c) ≤ 3 ∧
      (128 ≤ c.toNat → cost (String.utf8EncodeChar c) = 0) := by
  have hhigh : 128 ≤ c.toNat → cost (String.utf8EncodeChar c) = 0 := by
    intro hc
    refine cost_eq_zero_of_high fun b hb => ?_
    by_contra hlow
    have heq := (Utf8.ascii_mem_utf8EncodeChar (by omega)).mp hb
    omega
  refine ⟨?_, hhigh⟩
  by_cases hc : 128 ≤ c.toNat
  · rw [hhigh hc]
    omega
  · have hc' : c.val.toNat ≤ 127 := by
      have : c.toNat = c.val.toNat := rfl
      omega
    rw [String.utf8EncodeChar, if_pos hc']
    exact cost_byte_le _

/-- A code point that is not a character stands for the character 0. -/
theorem cost_ofNat_le {n : Nat} (h : 256 ≤ n) :
    cost (String.utf8EncodeChar (Char.ofNat n)) ≤ 1 := by
  by_cases hvalid : n.isValidChar
  · have hn : (Char.ofNat n).toNat = n := by
      rw [Char.ofNat, dif_pos hvalid]
      rfl
    rw [(cost_utf8EncodeChar_le _).2 (by omega)]
    omega
  · rw [Char.ofNat, dif_neg hvalid]
    decide

/-! ## The weight of what is read -/

theorem hexValue_cases {b : UInt8} {n : Nat} (h : hexValue b = some n) :
    n < 16 ∧ (n = 0 → b = 48) := by
  unfold hexValue at h
  have hnat : ∀ c : UInt8, (c ≤ b ↔ c.toNat ≤ b.toNat) ∧ (b ≤ c ↔ b.toNat ≤ c.toNat) := by
    intro c
    exact ⟨UInt8.le_iff_toNat_le, UInt8.le_iff_toNat_le⟩
  simp only [(hnat _).1, (hnat _).2] at h
  have hval : (48 : UInt8).toNat = 48 ∧ (57 : UInt8).toNat = 57 ∧ (65 : UInt8).toNat = 65 ∧
      (70 : UInt8).toNat = 70 ∧ (97 : UInt8).toNat = 97 ∧ (102 : UInt8).toNat = 102 := by decide
  simp only [hval] at h
  split_ifs at h <;> simp only [Option.some.injEq] at h
  · refine ⟨by omega, fun hn => UInt8.toNat_inj.mp ?_⟩
    rw [hval.1]
    omega
  · omega
  · omega

theorem hex4_cases {bytes rest : List UInt8} {n : Nat} (h : hex4 bytes = some (n, rest)) :
    rest <:+ bytes ∧ (n < 256 → 2 + weight rest ≤ weight bytes) := by
  unfold hex4 at h
  split at h
  case h_2 => cases h
  case h_1 a b c d tail =>
    obtain ⟨a', ha, h⟩ := Option.bind_eq_some_iff.mp h
    obtain ⟨b', hb, h⟩ := Option.bind_eq_some_iff.mp h
    obtain ⟨c', hc, h⟩ := Option.bind_eq_some_iff.mp h
    obtain ⟨d', hd, h⟩ := Option.bind_eq_some_iff.mp h
    obtain ⟨rfl, rfl⟩ := Prod.mk.inj (Option.some.inj h)
    refine ⟨⟨[a, b, c, d], rfl⟩, fun hn => ?_⟩
    -- the first two digits are zeros
    have ha0 := (hexValue_cases ha).2 (by omega)
    have hb0 := (hexValue_cases hb).2 (by omega)
    have hzero : byteWeight 48 = 1 := rfl
    simp only [ha0, hb0, weight_cons, hzero]
    omega

theorem lowSurrogate_suffix {bytes rest : List UInt8} {n : Nat}
    (h : lowSurrogate bytes = some (n, rest)) : rest <:+ bytes := by
  unfold lowSurrogate at h
  split at h
  case h_2 => cases h
  case h_1 a b tail =>
    split at h
    · obtain ⟨⟨low, rest'⟩, hlow, h⟩ := Option.bind_eq_some_iff.mp h
      obtain ⟨-, h⟩ := Option.ite_none_right_eq_some.mp h
      obtain ⟨-, rfl⟩ := Prod.mk.inj (Option.some.inj h)
      exact (hex4_cases hlow).1.trans ⟨[a, b], rfl⟩
    · cases h

theorem cost_codePoint {bytes rest : List UInt8} {n : Nat} (h : codePoint bytes = some (n, rest)) :
    cost (String.utf8EncodeChar (Char.ofNat n)) + weight rest ≤ 2 + weight bytes := by
  obtain ⟨⟨high, rest₁⟩, hhigh, h⟩ := Option.bind_eq_some_iff.mp h
  obtain ⟨hsuffix, hsmall⟩ := hex4_cases hhigh
  have hle := weight_le_of_suffix hsuffix
  simp only [] at h
  split at h
  · obtain ⟨⟨low, rest₂⟩, hlow, h⟩ := Option.bind_eq_some_iff.mp h
    obtain ⟨rfl, rfl⟩ := Prod.mk.inj (Option.some.inj h)
    have hle' := weight_le_of_suffix (lowSurrogate_suffix hlow)
    have hcost := @cost_ofNat_le (0x10000 + (high - 0xD800) * 0x400 + low) (by omega)
    simp only []
    omega
  · split at h
    · cases h
    · obtain ⟨rfl, rfl⟩ := Prod.mk.inj (Option.some.inj h)
      by_cases hn : high < 256
      · have hcost := (cost_utf8EncodeChar_le (Char.ofNat high)).1
        have hzeros := hsmall hn
        omega
      · have hcost := @cost_ofNat_le high (by omega)
        omega

/-- The backslash before the escape weighs two. -/
theorem cost_escape {bytes c rest : List UInt8} (h : escape bytes = some (c, rest)) :
    cost c + weight rest ≤ 2 + weight bytes := by
  unfold escape at h
  split at h
  · cases h
  · next b tail =>
      split at h
      · next hb =>
          obtain ⟨⟨n, rest'⟩, hn, h⟩ := Option.bind_eq_some_iff.mp h
          obtain ⟨rfl, rfl⟩ := Prod.mk.inj (Option.some.inj h)
          have hcode := cost_codePoint hn
          rw [weight_cons]
          omega
      · obtain ⟨c', hc, h⟩ := Option.bind_eq_some_iff.mp h
        obtain ⟨rfl, rfl⟩ := Prod.mk.inj (Option.some.inj h)
        have hcost : cost [c'] ≤ 2 + byteWeight b := by
          unfold shortEscape at hc
          split_ifs at hc with hself <;> cases hc
          · rcases hself with rfl | rfl | rfl <;> decide
          all_goals exact Nat.le_trans (by decide) (Nat.le_add_right 2 _)
        rw [weight_cons]
        omega

theorem cost_chars {n : Nat} {bytes s rest : List UInt8} (h : chars n bytes = some (s, rest)) :
    cost s + weight rest ≤ weight bytes := by
  induction n generalizing bytes s with
  | zero => cases h
  | succ n ih =>
      cases bytes with
      | nil => cases h
      | cons b tail =>
          rw [chars] at h
          rw [weight_cons]
          split_ifs at h with hquote hslash hctrl
          · obtain ⟨rfl, rfl⟩ := Prod.mk.inj (Option.some.inj h)
            simp
          · obtain ⟨⟨c, rest₁⟩, hescape, h⟩ := Option.bind_eq_some_iff.mp h
            obtain ⟨⟨s', rest₂⟩, hchars, h⟩ := Option.bind_eq_some_iff.mp h
            obtain ⟨rfl, rfl⟩ := Prod.mk.inj (Option.some.inj h)
            have hone := cost_escape hescape
            have hmore := ih hchars
            have hweight : byteWeight b = 2 := by rw [hslash]; rfl
            rw [cost_append, hweight]
            omega
          · obtain ⟨⟨s', rest₁⟩, hchars, h⟩ := Option.bind_eq_some_iff.mp h
            obtain ⟨rfl, rfl⟩ := Prod.mk.inj (Option.some.inj h)
            have hmore := ih hchars
            have hplain : needsEscape b = false := by simp [needsEscape, hquote, hslash, hctrl]
            rw [cost_cons, hplain, if_neg Bool.false_ne_true]
            omega

theorem string_cases {bytes s rest : List UInt8} (h : string bytes = some (s, rest)) :
    cost s + weight rest ≤ weight bytes ∧ (Utf8.decodeStrict s).isSome := by
  obtain ⟨⟨s', rest'⟩, hchars, h⟩ := Option.bind_eq_some_iff.mp h
  obtain ⟨hutf8, h⟩ := Option.ite_none_right_eq_some.mp h
  obtain ⟨rfl, rfl⟩ := Prod.mk.inj (Option.some.inj h)
  exact ⟨cost_chars hchars, hutf8⟩

mutual

/-- What the strings of a value weigh, the bytes that need an escape counting one more. -/
def strCost : Json → Nat
  | .null | .bool _ | .num _ => 0
  | .str s => cost s
  | .arr vs => strCostElements vs
  | .obj ms => strCostMembers ms

def strCostElements : List Json → Nat
  | [] => 0
  | v :: vs => strCost v + strCostElements vs

def strCostMembers : List (List UInt8 × Json) → Nat
  | [] => 0
  | (key, v) :: ms => cost key + strCost v + strCostMembers ms

end

mutual

/-- The strings of a value are UTF-8. -/
def IsUtf8 : Json → Prop
  | .null | .bool _ | .num _ => True
  | .str s => (Utf8.decodeStrict s).isSome
  | .arr vs => IsUtf8Elements vs
  | .obj ms => IsUtf8Members ms

def IsUtf8Elements : List Json → Prop
  | [] => True
  | v :: vs => IsUtf8 v ∧ IsUtf8Elements vs

def IsUtf8Members : List (List UInt8 × Json) → Prop
  | [] => True
  | (_, v) :: ms => IsUtf8 v ∧ IsUtf8Members ms

end

theorem scalar_cases {bytes rest : List UInt8} {v : Json} (h : scalar bytes = some (v, rest)) :
    rest <:+ bytes ∧ strCost v = 0 ∧ IsUtf8 v := by
  unfold scalar at h
  split_ifs at h
  · obtain ⟨rfl, rfl⟩ := Prod.mk.inj (Option.some.inj h)
    exact ⟨List.drop_suffix _ _, by simp [strCost], by simp [IsUtf8]⟩
  · obtain ⟨rfl, rfl⟩ := Prod.mk.inj (Option.some.inj h)
    exact ⟨List.drop_suffix _ _, by simp [strCost], by simp [IsUtf8]⟩
  · obtain ⟨rfl, rfl⟩ := Prod.mk.inj (Option.some.inj h)
    exact ⟨List.drop_suffix _ _, by simp [strCost], by simp [IsUtf8]⟩
  · obtain ⟨⟨lexeme, rest'⟩, hnumber, h⟩ := Option.bind_eq_some_iff.mp h
    obtain ⟨rfl, rfl⟩ := Prod.mk.inj (Option.some.inj h)
    exact ⟨number_suffix hnumber, by simp [strCost], by simp [IsUtf8]⟩

theorem token_weight {b : UInt8} {bytes rest : List UInt8} (h : token b bytes = some rest) :
    weight rest ≤ weight bytes :=
  weight_le_of_suffix (token_suffix h)

/-- With fuel `n`, what is read and what is left weigh no more than the text. -/
structure Weighed (n : Nat) : Prop where
  value : ∀ {bytes v rest}, Json.value n bytes = some (v, rest) →
    strCost v + weight rest ≤ weight bytes ∧ IsUtf8 v
  members : ∀ {bytes ms rest}, Json.members n bytes = some (ms, rest) →
    strCostMembers ms + weight rest ≤ weight bytes ∧ IsUtf8Members ms
  elements : ∀ {bytes vs rest}, Json.elements n bytes = some (vs, rest) →
    strCostElements vs + weight rest ≤ weight bytes ∧ IsUtf8Elements vs

namespace Weighed

variable {n : Nat} {bytes rest : List UInt8}

theorem value_succ (ih : Weighed n) {v : Json} (h : Json.value (n + 1) bytes = some (v, rest)) :
    strCost v + weight rest ≤ weight bytes ∧ IsUtf8 v := by
  rw [Json.value] at h
  split at h
  · cases h
  · next b tail hskip =>
      have htail : weight tail ≤ weight bytes :=
        weight_le_of_suffix ((List.suffix_cons b tail).trans (hskip ▸ skipWs_suffix bytes))
      split_ifs at h
      -- an object
      · split at h
        · next rest' hclose =>
            obtain ⟨rfl, rfl⟩ := Prod.mk.inj (Option.some.inj h)
            have hrest := token_weight hclose
            simp only [strCost, strCostMembers, IsUtf8, IsUtf8Members, and_true]
            omega
        · obtain ⟨⟨ms, rest'⟩, hms, h⟩ := Option.bind_eq_some_iff.mp h
          obtain ⟨rfl, rfl⟩ := Prod.mk.inj (Option.some.inj h)
          obtain ⟨hcost, hutf8⟩ := ih.members hms
          simp only [strCost, IsUtf8]
          exact ⟨Nat.le_trans hcost htail, hutf8⟩
      -- an array
      · split at h
        · next rest' hclose =>
            obtain ⟨rfl, rfl⟩ := Prod.mk.inj (Option.some.inj h)
            have hrest := token_weight hclose
            simp only [strCost, strCostElements, IsUtf8, IsUtf8Elements, and_true]
            omega
        · obtain ⟨⟨vs, rest'⟩, hvs, h⟩ := Option.bind_eq_some_iff.mp h
          obtain ⟨rfl, rfl⟩ := Prod.mk.inj (Option.some.inj h)
          obtain ⟨hcost, hutf8⟩ := ih.elements hvs
          simp only [strCost, IsUtf8]
          exact ⟨Nat.le_trans hcost htail, hutf8⟩
      -- a string
      · obtain ⟨⟨s, rest'⟩, hs, h⟩ := Option.bind_eq_some_iff.mp h
        obtain ⟨rfl, rfl⟩ := Prod.mk.inj (Option.some.inj h)
        obtain ⟨hcost, hutf8⟩ := string_cases hs
        simp only [strCost, IsUtf8]
        exact ⟨Nat.le_trans hcost htail, hutf8⟩
      · obtain ⟨hsuffix, hcost, hutf8⟩ := scalar_cases h
        have hrest := weight_le_of_suffix (hsuffix.trans (hskip ▸ skipWs_suffix bytes))
        exact ⟨by omega, hutf8⟩

theorem members_succ (ih : Weighed n) {ms : List (List UInt8 × Json)}
    (h : Json.members (n + 1) bytes = some (ms, rest)) :
    strCostMembers ms + weight rest ≤ weight bytes ∧ IsUtf8Members ms := by
  rw [Json.members] at h
  obtain ⟨rest₁, hopen, h⟩ := Option.bind_eq_some_iff.mp h
  obtain ⟨⟨key, rest₂⟩, hkey, h⟩ := Option.bind_eq_some_iff.mp h
  obtain ⟨rest₃, hcolon, h⟩ := Option.bind_eq_some_iff.mp h
  obtain ⟨⟨v, rest₄⟩, hv, h⟩ := Option.bind_eq_some_iff.mp h
  have h₁ := token_weight hopen
  have h₂ := (string_cases hkey).1
  have h₃ := token_weight hcolon
  obtain ⟨h₄, hutf8⟩ := ih.value hv
  simp only [] at h₂ h₃ h
  split at h
  · next rest₅ hcomma =>
      obtain ⟨⟨ms', rest₆⟩, hms, h⟩ := Option.bind_eq_some_iff.mp h
      obtain ⟨rfl, rfl⟩ := Prod.mk.inj (Option.some.inj h)
      have h₅ := token_weight hcomma
      obtain ⟨h₆, hmore⟩ := ih.members hms
      simp only [strCostMembers, IsUtf8Members]
      exact ⟨by omega, hutf8, hmore⟩
  · obtain ⟨rest₅, hclose, h⟩ := Option.bind_eq_some_iff.mp h
    obtain ⟨rfl, rfl⟩ := Prod.mk.inj (Option.some.inj h)
    have h₅ := token_weight hclose
    simp only [strCostMembers, IsUtf8Members]
    exact ⟨by omega, hutf8, trivial⟩

theorem elements_succ (ih : Weighed n) {vs : List Json}
    (h : Json.elements (n + 1) bytes = some (vs, rest)) :
    strCostElements vs + weight rest ≤ weight bytes ∧ IsUtf8Elements vs := by
  rw [Json.elements] at h
  obtain ⟨⟨v, rest₁⟩, hv, h⟩ := Option.bind_eq_some_iff.mp h
  obtain ⟨h₁, hutf8⟩ := ih.value hv
  simp only [] at h
  split at h
  · next rest₂ hcomma =>
      obtain ⟨⟨vs', rest₃⟩, hvs, h⟩ := Option.bind_eq_some_iff.mp h
      obtain ⟨rfl, rfl⟩ := Prod.mk.inj (Option.some.inj h)
      have h₂ := token_weight hcomma
      obtain ⟨h₃, hmore⟩ := ih.elements hvs
      simp only [strCostElements, IsUtf8Elements]
      exact ⟨by omega, hutf8, hmore⟩
  · obtain ⟨rest₂, hclose, h⟩ := Option.bind_eq_some_iff.mp h
    obtain ⟨rfl, rfl⟩ := Prod.mk.inj (Option.some.inj h)
    have h₂ := token_weight hclose
    simp only [strCostElements, IsUtf8Elements]
    exact ⟨by omega, hutf8, trivial⟩

end Weighed

theorem weighed (n : Nat) : Weighed n := by
  induction n with
  | zero =>
      refine ⟨fun h => ?_, fun h => ?_, fun h => ?_⟩
      · simp [Json.value] at h
      · simp [Json.members] at h
      · simp [Json.elements] at h
  | succ n ih => exact ⟨ih.value_succ, ih.members_succ, ih.elements_succ⟩

/-- A text weighs enough for its strings and what in them needs an escape. -/
theorem strCost_parse_le {bytes : List UInt8} {v : Json} (h : parse bytes = some v) :
    strCost v ≤ weight bytes ∧ IsUtf8 v := by
  obtain ⟨⟨v', rest⟩, hvalue, h⟩ := Option.bind_eq_some_iff.mp h
  obtain ⟨-, h⟩ := Option.ite_none_right_eq_some.mp h
  cases h
  obtain ⟨hcost, hutf8⟩ := (weighed _).value hvalue
  exact ⟨Nat.le_of_add_right_le hcost, hutf8⟩

/-- What the value of a key costs; nothing without one. -/
def costAt (key : List UInt8) (ms : List (List UInt8 × Json)) : Nat :=
  ((lookup key ms).map strCost).getD 0

theorem costAt_cons_le (key k : List UInt8) (v : Json) (ms : List (List UInt8 × Json)) :
    costAt key ((k, v) :: ms) ≤ costAt key ms + if k = key then strCost v else 0 := by
  rw [costAt, costAt, lookup]
  cases lookup key ms with
  | some w => exact Nat.le_add_right _ _
  | none => by_cases hkey : k = key <;> simp [hkey]

theorem sum_ite_eq_le {keys : List (List UInt8)} (h : keys.Nodup) (k : List UInt8) (c : Nat) :
    (keys.map fun key => if k = key then c else 0).sum ≤ c := by
  induction keys with
  | nil => exact Nat.zero_le c
  | cons key keys ih =>
      rw [List.nodup_cons] at h
      rw [List.map_cons, List.sum_cons]
      by_cases hkey : k = key
      · have hzero : (keys.map fun key => if k = key then c else 0).sum = 0 := by
          rw [List.sum_eq_zero_iff_forall_eq_nat]
          intro n hn
          obtain ⟨key', hmem, rfl⟩ := List.mem_map.mp hn
          refine if_neg fun heq => h.1 ?_
          rwa [← hkey, heq]
        rw [if_pos hkey, hzero, Nat.add_zero]
      · rw [if_neg hkey, Nat.zero_add]
        exact ih h.2

/-- Different keys have different members. -/
theorem sum_costAt_le {keys : List (List UInt8)} (h : keys.Nodup)
    (ms : List (List UInt8 × Json)) :
    (keys.map fun key => costAt key ms).sum ≤ strCostMembers ms := by
  induction ms with
  | nil =>
      rw [strCostMembers, Nat.le_zero, List.sum_eq_zero_iff_forall_eq_nat]
      intro n hn
      obtain ⟨key, -, rfl⟩ := List.mem_map.mp hn
      rfl
  | cons m ms ih =>
      obtain ⟨k, v⟩ := m
      have hstep : (keys.map fun key => costAt key ((k, v) :: ms)).sum ≤
          (keys.map fun key => costAt key ms + if k = key then strCost v else 0).sum :=
        List.sum_le_sum fun key _ => costAt_cons_le key k v ms
      have hone := sum_ite_eq_le h k (strCost v)
      rw [List.sum_map_add] at hstep
      rw [strCostMembers]
      omega

theorem isUtf8_lookup {key : List UInt8} {ms : List (List UInt8 × Json)} {v : Json}
    (h : lookup key ms = some v) (hutf8 : IsUtf8Members ms) : IsUtf8 v := by
  induction ms with
  | nil => cases h
  | cons m ms ih =>
      obtain ⟨k, w⟩ := m
      rw [IsUtf8Members] at hutf8
      rw [lookup] at h
      cases hmore : lookup key ms with
      | some u =>
          rw [hmore] at h
          cases h
          exact ih hmore hutf8.2
      | none =>
          rw [hmore] at h
          obtain ⟨-, h⟩ := Option.ite_none_right_eq_some.mp h
          cases h
          exact hutf8.1

/-- Strings that cost no more together than they weigh need no escapes. -/
theorem forall_plain_of_sum_le {l : List (List UInt8)} (h : (l.map cost).sum ≤ (l.map weight).sum) :
    ∀ s ∈ l, ∀ b ∈ s, needsEscape b = false := by
  induction l with
  | nil => exact fun s hs => absurd hs List.not_mem_nil
  | cons s l ih =>
      simp only [List.map_cons, List.sum_cons] at h
      have hone := weight_le_cost s
      have hmore : (l.map weight).sum ≤ (l.map cost).sum :=
        List.sum_le_sum fun t _ => weight_le_cost t
      refine List.forall_mem_cons.mpr ⟨cost_eq_weight_iff.mp (by omega), ih (by omega)⟩

end Json

end Lib
