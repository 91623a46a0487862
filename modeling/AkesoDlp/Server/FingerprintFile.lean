import AkesoDlp.Agent.StdInt
import AkesoDlp.Lib.JsonLayout
import AkesoDlp.Server.FingerprintIndex

/-!
# The text of the fingerprint index

`_save` writes the records with `json.dumps(data, indent=2)`, and `_load` reads them with
`json.loads`. The records of an index are read back as they were.
-/

namespace AkesoDlp.Server.FingerprintIndex

open Lib
open Agent (decimal digitsValue toStdString)

/-! ## Writing -/

/-- `json.dumps` with `indent=2` and `ensure_ascii`. -/
def pythonLayout : Json.Layout where
  newline level := 10 :: List.replicate (2 * level) 32
  colon := [32]
  quote := Json.asciiQuote
  newline_ws := by
    intro level b hb
    rcases List.mem_cons.mp hb with rfl | hb
    · rfl
    · rw [(List.mem_replicate.mp hb).2]
      rfl
  colon_ws := by simp [Json.isWs]

/-- A string literal of the source. -/
def key (s : String) : List UInt8 := Utf8.encode s.toList

def jsonStr (s : String) : Json := .str (Utf8.encode s.toList)

def jsonInt (n : Int) : Json := .num (toStdString n)

/-- `asdict`, in the order of the fields. -/
def asdict (r : FingerprintRecord) : List (List UInt8 × Json) :=
  [(key "id", jsonStr r.id), (key "name", jsonStr r.name),
    (key "description", jsonStr r.description), (key "simhash", jsonInt r.simhash),
    (key "text_length", jsonInt r.textLength), (key "shingle_count", jsonInt r.shingleCount),
    (key "shingle_size", jsonInt r.shingleSize),
    (key "content_preview", jsonStr r.contentPreview)]

/-- What `_save` writes. -/
def saveText (rs : Records) : List UInt8 :=
  Json.write pythonLayout 0
    (.obj [(key "fingerprints", .arr (rs.list.map fun r => .obj (asdict r)))])

/-! ## Reading -/

def fieldNames : List (List UInt8) :=
  [key "id", key "name", key "description", key "simhash", key "text_length",
    key "shingle_count", key "shingle_size", key "content_preview"]

/-- A field that holds a string, with its default. -/
def strField (members : List (List UInt8 × Json)) (name default : String) : Option String :=
  match Json.lookup (key name) members with
  | none => some default
  | some (.str s) => (Utf8.decodeStrict s).map String.ofList
  | some _ => none

/-- The number that a lexeme stands for, if it has neither a fraction nor an exponent. -/
def intValue (lexeme : List UInt8) : Option Int :=
  let (sign, digits) := Json.minus lexeme
  if digits.all Json.isDigit then
    some (if sign = [] then digitsValue digits else -digitsValue digits)
  else none

/-- A field that holds an integer, with its default. -/
def intField (members : List (List UInt8 × Json)) (name : String) (default : Int) : Option Int :=
  match Json.lookup (key name) members with
  | none => some default
  | some (.num lexeme) => intValue lexeme
  | some _ => none

/-- `FingerprintRecord(**item)`, which checks the names of the fields only. `none` for values
of other types than the fields are declared with. -/
def itemOf : Json → Option Item
  | .obj members =>
      if members.all fun m => fieldNames.contains m.1 then do
        let id ← strField members "id" ""
        let name ← strField members "name" ""
        let description ← strField members "description" ""
        let simhash ← intField members "simhash" 0
        let textLength ← intField members "text_length" 0
        let shingleCount ← intField members "shingle_count" 0
        let shingleSize ← intField members "shingle_size" 4
        let contentPreview ← strField members "content_preview" ""
        let record : FingerprintRecord :=
          ⟨id, name, description, simhash, textLength, shingleCount, shingleSize, contentPreview⟩
        some (if (Json.lookup (key "id") members).isSome then .record record else .unnamed record)
      else some .malformed
  | _ => some .malformed

/-- What `_load` finds in a file with these bytes. An iteration over something that is no list
stops at its first element, if it has one. -/
def parseFile (bytes : List UInt8) : Option IndexFile :=
  if (Utf8.decodeStrict bytes).isNone then some (.rejected .empty)
  else
    match Json.parse bytes with
    | none => some (.notJson .empty)
    | some (.obj members) =>
        match (Json.lookup (key "fingerprints") members).getD (.arr []) with
        | .arr elements => (elements.mapM itemOf).map .document
        | .str [] | .obj [] => some (.document [])
        | _ => some (.document [.malformed])
    | some _ => some (.rejected .empty)

/-- `_load` on a file with these bytes. -/
def loadText (newIds : Nat → String) (bytes : List UInt8) : Option (Records × Bool) :=
  (parseFile bytes).bind (load false newIds)

/-! ## Reading what was written -/

theorem pythonLayout_ascii : pythonLayout.Ascii where
  newline level := by
    intro b hb
    rcases List.mem_cons.mp hb with rfl | hb
    · decide
    · rw [(List.mem_replicate.mp hb).2]
      decide
  colon := by simp [pythonLayout]
  quote := Json.asciiQuote_ascii

/-- No leading zeros. -/
theorem head_toDigits {n : Nat} (hn : 0 < n) : (Nat.toDigits 10 n).head? ≠ some '0' := by
  induction n using Nat.strongRecOn with
  | ind n ih =>
      by_cases hlt : n < 10
      · rw [Nat.toDigits_of_lt_base hlt]
        have hall : ∀ m < 10, 0 < m → [m.digitChar].head? ≠ some '0' := by decide
        exact hall n hlt hn
      · rw [Nat.toDigits_of_base_le (by decide) (Nat.le_of_not_lt hlt),
          List.head?_append_of_ne_nil _ Nat.toDigits_ne_nil]
        exact ih (n / 10) (by omega) (by omega)

theorem isNatural_decimal (n : Nat) : Json.IsNatural (decimal n) where
  ne_nil := Agent.decimal_ne_nil n
  digits := Agent.isDigit_of_mem_decimal
  zero bytes h := by
    obtain ⟨c, cs, hdigits, hc, rfl⟩ := List.map_eq_cons_iff.mp h
    have hdigit := Nat.isDigit_of_mem_toDigits (b := 10) (n := n) (by decide) (by decide)
      (hdigits ▸ List.mem_cons_self)
    have hzero : c = '0' := by
      refine Char.toNat_inj.mp ?_
      rw [← (Agent.toNat_ofNat_digit hdigit).1, hc]
      rfl
    obtain rfl : n = 0 := by
      refine Nat.eq_zero_of_not_pos fun hn => head_toDigits hn ?_
      rw [hdigits, hzero]
      rfl
    rw [Nat.toDigits_zero] at hdigits
    rw [← (List.cons.inj hdigits).2]
    rfl

theorem readable_jsonStr (s : String) : Json.Readable pythonLayout (jsonStr s) := by
  rw [jsonStr, Json.Readable]
  exact Json.reads_encode rfl s.toList

theorem readable_jsonInt (n : Int) : Json.Readable pythonLayout (jsonInt n) := by
  rw [jsonInt, Json.Readable, toStdString]
  split
  · exact Json.isNumeral_negative (isNatural_decimal n.natAbs)
  · exact Json.isNumeral_natural (isNatural_decimal n.natAbs)

/-- A number is read back. -/
theorem intValue_toStdString (n : Int) : intValue (toStdString n) = some n := by
  have hdigits : (decimal n.natAbs).all Json.isDigit = true :=
    List.all_eq_true.mpr (isNatural_decimal n.natAbs).digits
  rw [toStdString]
  split
  · next hneg =>
      have hminus : Json.minus (45 :: decimal n.natAbs) = ([45], decimal n.natAbs) := rfl
      rw [intValue, hminus]
      dsimp only
      rw [if_pos hdigits, if_neg (List.cons_ne_nil _ _), Agent.digitsValue_decimal]
      congr 1
      omega
  · next hnonneg =>
      rw [intValue, (isNatural_decimal n.natAbs).minus_eq]
      dsimp only
      rw [if_pos hdigits, if_pos rfl, Agent.digitsValue_decimal]
      congr 1
      omega

theorem reads_key (s : String) : Json.Reads pythonLayout (key s) := Json.reads_encode rfl s.toList

theorem readable_records (rs : List FingerprintRecord) :
    Json.ReadableElements pythonLayout (rs.map fun r => .obj (asdict r)) := by
  induction rs with
  | nil => rw [List.map_nil, Json.ReadableElements]; trivial
  | cons r rs ih =>
      rw [List.map_cons, Json.ReadableElements, Json.Readable, asdict]
      refine ⟨?_, ih⟩
      simp only [Json.ReadableMembers, reads_key, readable_jsonStr, readable_jsonInt, and_self]

theorem readable_index (rs : Records) :
    Json.Readable pythonLayout
      (.obj [(key "fingerprints", .arr (rs.list.map fun r => .obj (asdict r)))]) := by
  rw [Json.Readable, Json.ReadableMembers, Json.Readable, Json.ReadableMembers]
  exact ⟨reads_key _, readable_records rs.list, trivial⟩

theorem nodup_fieldNames : fieldNames.Nodup := by decide

theorem lookup_asdict {r : FingerprintRecord} {name : List UInt8} {v : Json}
    (h : (name, v) ∈ asdict r) : Json.lookup name (asdict r) = some v :=
  Json.lookup_of_mem nodup_fieldNames h

theorem strField_asdict {r : FingerprintRecord} {name s : String}
    (h : (key name, jsonStr s) ∈ asdict r) (default : String) :
    strField (asdict r) name default = some s := by
  rw [strField, lookup_asdict h]
  simp [jsonStr]

theorem intField_asdict {r : FingerprintRecord} {name : String} {n : Int}
    (h : (key name, jsonInt n) ∈ asdict r) (default : Int) :
    intField (asdict r) name default = some n := by
  rw [intField, lookup_asdict h]
  exact intValue_toStdString n

/-- A record as it was. -/
theorem itemOf_asdict (r : FingerprintRecord) : itemOf (.obj (asdict r)) = some (.record r) := by
  have hnames : ((asdict r).all fun m => fieldNames.contains m.1) = true := by
    rw [List.all_eq_true]
    intro m hm
    exact List.contains_iff_mem.mpr (List.mem_map_of_mem (f := Prod.fst) hm)
  have hid : (key "id", jsonStr r.id) ∈ asdict r := List.mem_cons_self
  rw [itemOf, if_pos hnames, lookup_asdict hid, strField_asdict hid,
    strField_asdict (s := r.name) (by simp [asdict]),
    strField_asdict (s := r.description) (by simp [asdict]),
    intField_asdict (n := r.simhash) (by simp [asdict]),
    intField_asdict (n := r.textLength) (by simp [asdict]),
    intField_asdict (n := r.shingleCount) (by simp [asdict]),
    intField_asdict (n := r.shingleSize) (by simp [asdict]),
    strField_asdict (s := r.contentPreview) (by simp [asdict])]
  rfl

theorem mapM_itemOf (rs : List FingerprintRecord) :
    (rs.map fun r => Json.obj (asdict r)).mapM itemOf = some (rs.map Item.record) := by
  induction rs with
  | nil => rfl
  | cons r rs ih => rw [List.map_cons, List.mapM_cons, itemOf_asdict, ih, List.map_cons]; rfl

/-- The file of an index holds its records. -/
theorem parseFile_saveText (rs : Records) :
    parseFile (saveText rs) = some (.document (rs.list.map .record)) := by
  have hutf8 : (Utf8.decodeStrict (saveText rs)).isSome = true :=
    Json.decodeStrict_ascii (Json.write_ascii pythonLayout_ascii 0 _ (readable_index rs))
  have hnot : ¬ (Utf8.decodeStrict (saveText rs)).isNone = true := by
    rw [Option.isNone_iff_eq_none]
    exact Option.isSome_iff_ne_none.mp hutf8
  have hlookup : ∀ v, Json.lookup (key "fingerprints") [(key "fingerprints", v)] = some v :=
    fun v => Json.lookup_of_mem (List.nodup_singleton _) List.mem_cons_self
  rw [parseFile, if_neg hnot, saveText, Json.parse_write (readable_index rs)]
  simp only [hlookup, Option.getD_some, mapM_itemOf, Option.map_some]

theorem loadItems_records (newIds : Nat → String) (n : Nat) (rs : Records)
    (more : List FingerprintRecord) :
    loadItems newIds n rs (more.map .record) = ((more.map .record).foldl storeItem rs, false) := by
  induction more generalizing rs with
  | nil => rfl
  | cons r more ih => exact ih (rs.put r)

/-- And an index that is loaded from it has the same ones. -/
theorem loadText_saveText (newIds : Nat → String) (rs : Records) :
    loadText newIds (saveText rs) = some (rs, false) := by
  rw [loadText, parseFile_saveText, Option.bind_some, load, if_neg Bool.false_ne_true,
    loadItems_records]
  exact congrArg (fun stored => some (stored, false)) (stored_document rs)

end AkesoDlp.Server.FingerprintIndex
