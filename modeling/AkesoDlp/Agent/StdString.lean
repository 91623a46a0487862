import AkesoDlp.Lib.Utf8
import Mathlib.Data.List.TakeWhile

/-!
# `std::string` and the C locale

The agent's strings are byte strings. `tolower` and `isalnum` are those of the
"C" locale, which the agent never leaves: they act on ASCII only, so the bytes
of a multi-byte UTF-8 character are neither lowered nor word characters.
-/

namespace AkesoDlp.Agent

abbrev StdString := List UInt8

/-- The bytes of a literal (UTF-8). -/
def str (s : String) : StdString := s.toByteArray.data.toList

theorem str_injective : Function.Injective str := by
  intro a b h
  apply String.toByteArray_inj.mp
  exact ByteArray.ext (Array.toList_inj.mp h)

theorem str_eq_flatMap (s : String) : str s = s.toList.flatMap String.utf8EncodeChar := by
  rw [str, ← String.utf8Encode_toList, List.utf8Encode, List.data_toByteArray]

theorem str_append (s t : String) : str (s ++ t) = str s ++ str t := by
  simp [str_eq_flatMap]

/-- An ASCII byte occurs in a string's bytes exactly when its character does. -/
theorem ascii_mem_str {b : UInt8} (hb : b.toNat < 128) {s : String} :
    b ∈ str s ↔ ∃ c ∈ s.toList, c.toNat = b.toNat := by
  rw [str_eq_flatMap, List.mem_flatMap]
  exact exists_congr fun c => and_congr_right fun _ => Lib.Utf8.ascii_mem_utf8EncodeChar hb

@[simp] theorem str_eq_nil {s : String} : str s = [] ↔ s = "" := by
  rw [← str_injective.eq_iff]
  rfl

/-- What a callee sees that takes `s.c_str()` without a length: the bytes before
the first NUL. -/
def cStr (s : StdString) : StdString := s.takeWhile (· != 0)

theorem cStr_eq_self {s : StdString} (h : 0 ∉ s) : cStr s = s := by
  rw [cStr, List.takeWhile_eq_self_iff]
  intro b hb
  simp only [bne_iff_ne, ne_eq]
  rintro rfl
  exact h hb

theorem zero_notMem_cStr (s : StdString) : 0 ∉ cStr s := by
  intro h
  simpa using List.mem_takeWhile_imp h

theorem cStr_eq_self_iff {s : StdString} : cStr s = s ↔ 0 ∉ s :=
  ⟨fun h => h ▸ zero_notMem_cStr s, cStr_eq_self⟩

@[simp] theorem cStr_cStr (s : StdString) : cStr (cStr s) = cStr s :=
  cStr_eq_self (zero_notMem_cStr s)

/-- `std::tolower` on an `unsigned char`. -/
def toLower (c : UInt8) : UInt8 :=
  if 65 ≤ c ∧ c ≤ 90 then c + 32 else c

/-- `std::isalnum` on an `unsigned char`. -/
def isAlnum (c : UInt8) : Bool :=
  (48 ≤ c && c ≤ 57) || (65 ≤ c && c ≤ 90) || (97 ≤ c && c ≤ 122)

/-- A string lowered byte by byte. -/
def lower (s : StdString) : StdString := s.map toLower

@[simp] theorem length_lower (s : StdString) : (lower s).length = s.length := by
  simp [lower]

@[simp] theorem lower_append (s t : StdString) : lower (s ++ t) = lower s ++ lower t := by
  simp [lower]

end AkesoDlp.Agent
