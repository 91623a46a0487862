import Mathlib.Data.List.Nodup

/-!
# Comma-separated values

Rows of fields as a text, a field in quotes where it contains one of the signs that the text is
laid out with, and the automaton that reads such a text. What is written is read back, whatever
the fields contain.
-/

namespace Lib

/-- The signs that a text is laid out with. -/
structure Csv (α : Type*) where
  delimiter : α
  quote : α
  cr : α
  lf : α
  nodup : [delimiter, quote, cr, lf].Nodup

namespace Csv

variable {α : Type*} [DecidableEq α] (d : Csv α)

/-! ## Writing -/

def isSign (c : α) : Bool := c = d.delimiter ∨ c = d.quote ∨ c = d.cr ∨ c = d.lf

/-- A quote within quotes is written twice. -/
def quoted (field : List α) : List α :=
  d.quote :: (field.flatMap fun c => if c = d.quote then [c, c] else [c]) ++ [d.quote]

/-- A field that is alone in its row is quoted when it is empty: a row without fields is an
empty line. -/
def writeField (alone : Bool) (field : List α) : List α :=
  if field.any d.isSign || (alone && field.isEmpty) then d.quoted field else field

def writeFields (alone : Bool) : List (List α) → List α
  | [] => []
  | [field] => d.writeField alone field
  | field :: fields => d.writeField alone field ++ d.delimiter :: writeFields alone fields

def writeRow (row : List (List α)) : List α :=
  d.writeFields (row.length == 1) row ++ [d.cr, d.lf]

def write (rows : List (List (List α))) : List α := rows.flatMap d.writeRow

/-! ## Reading -/

inductive State
  | startRecord
  | startField
  | inField
  | inQuotes
  /-- A quote within quotes: the end of the field, or the first of two. -/
  | quoteInQuotes
  | afterCr
deriving DecidableEq, Repr

structure Reader (α : Type*) where
  state : State
  field : List α
  row : List (List α)
  rows : List (List (List α))

def Reader.start : Reader α := ⟨.startRecord, [], [], []⟩

def Reader.push (r : Reader α) (c : α) (state : State) : Reader α :=
  { r with state := state, field := r.field ++ [c] }

def Reader.endField (r : Reader α) : Reader α :=
  { r with state := .startField, field := [], row := r.row ++ [r.field] }

def Reader.endRow (r : Reader α) (state : State) : Reader α :=
  { r with state := state, row := [], rows := r.rows ++ [r.row] }

/-- A field that is not in quotes ends at a sign, and so does one whose quotes are closed. -/
def Reader.next (r : Reader α) (c : α) (state : State) : Reader α :=
  if c = d.delimiter then r.endField
  else if c = d.cr then r.endField.endRow .afterCr
  else if c = d.lf then r.endField.endRow .startRecord
  else r.push c state

def Reader.beginField (r : Reader α) (c : α) : Reader α :=
  if c = d.quote then { r with state := .inQuotes } else r.next d c .inField

def Reader.beginRecord (r : Reader α) (c : α) : Reader α :=
  if c = d.cr then r.endRow .afterCr
  else if c = d.lf then r.endRow .startRecord
  else r.beginField d c

def process (r : Reader α) (c : α) : Reader α :=
  match r.state with
  | .startRecord => r.beginRecord d c
  | .afterCr => if c = d.lf then { r with state := .startRecord } else r.beginRecord d c
  | .startField => r.beginField d c
  | .inField => r.next d c .inField
  | .inQuotes => if c = d.quote then { r with state := .quoteInQuotes } else r.push c .inQuotes
  | .quoteInQuotes => if c = d.quote then r.push c .inQuotes else r.next d c .inField

/-- A last row without a line end counts. -/
def Reader.finish (r : Reader α) : List (List (List α)) :=
  match r.state with
  | .startRecord | .afterCr => r.rows
  | _ => r.rows ++ [r.row ++ [r.field]]

def read (text : List α) : List (List (List α)) :=
  (text.foldl d.process Reader.start).finish

/-! ## What is written is read -/

omit [DecidableEq α] in
theorem signs_ne : d.delimiter ≠ d.quote ∧ d.delimiter ≠ d.cr ∧ d.delimiter ≠ d.lf ∧
    d.quote ≠ d.cr ∧ d.quote ≠ d.lf := by
  have h := d.nodup
  simp only [List.nodup_cons, List.mem_cons, List.not_mem_nil, not_or] at h
  exact ⟨h.1.1, h.1.2.1, h.1.2.2.1, h.2.1.1, h.2.1.2.1⟩

theorem isSign_eq_false {c : α} (h : d.isSign c = false) :
    c ≠ d.delimiter ∧ c ≠ d.quote ∧ c ≠ d.cr ∧ c ≠ d.lf := by
  simpa [isSign] using h

theorem next_plain {c : α} (h : d.isSign c = false) (r : Reader α) (state : State) :
    r.next d c state = r.push c state := by
  obtain ⟨hdelimiter, -, hcr, hlf⟩ := d.isSign_eq_false h
  rw [Reader.next, if_neg hdelimiter, if_neg hcr, if_neg hlf]

/-- The characters of a field that is not quoted. -/
theorem foldl_plain {field : List α} (h : ∀ c ∈ field, d.isSign c = false) (r : Reader α)
    (hr : r.state = .inField) :
    field.foldl d.process r = { r with field := r.field ++ field } := by
  induction field generalizing r with
  | nil => simp
  | cons c field ih =>
      rw [List.forall_mem_cons] at h
      have hstep : d.process r c = r.push c .inField := by
        rw [process, hr]
        exact d.next_plain h.1 r _
      rw [List.foldl_cons, hstep, ih h.2 _ rfl]
      simp [Reader.push, hr]

/-- What is between the quotes. -/
theorem foldl_quoted (field : List α) (r : Reader α) (hr : r.state = .inQuotes) :
    (field.flatMap fun c => if c = d.quote then [c, c] else [c]).foldl d.process r =
      { r with field := r.field ++ field } := by
  induction field generalizing r with
  | nil => simp
  | cons c field ih =>
      have hstep : (if c = d.quote then [c, c] else [c]).foldl d.process r =
          r.push c .inQuotes := by
        split
        · next hc => simp [process, hr, hc, Reader.push]
        · next hc => simp [process, hr, hc]
      rw [List.flatMap_cons, List.foldl_append, hstep, ih _ rfl]
      simp [Reader.push, hr]

/-- A new field begins. -/
def Reader.Begins (r : Reader α) : Prop :=
  (r.state = .startField ∨ r.state = .startRecord) ∧ r.field = []

theorem process_begins {r : Reader α} (hr : r.Begins) {c : α} (hcr : c ≠ d.cr) (hlf : c ≠ d.lf) :
    d.process r c = r.beginField d c := by
  rcases hr.1 with hs | hs
  · rw [process, hs]
  · rw [process, hs]
    show r.beginRecord d c = _
    rw [Reader.beginRecord, if_neg hcr, if_neg hlf]

/-- After the quotes of a field. -/
theorem foldl_quoted_field {r : Reader α} (hr : r.Begins) (field : List α) :
    (d.quoted field).foldl d.process r = { r with state := .quoteInQuotes, field := field } := by
  obtain ⟨-, -, -, hcr, hlf⟩ := d.signs_ne
  rw [quoted, List.cons_append, List.foldl_cons, d.process_begins hr hcr hlf, Reader.beginField,
    if_pos rfl, List.foldl_append, d.foldl_quoted field _ rfl, hr.2, List.nil_append,
    List.foldl_cons, List.foldl_nil, process]
  exact if_pos rfl

/-- What the reader has made of a field before the sign that ends it. -/
inductive Reader.Holds (r : Reader α) (alone : Bool) : List α → Reader α → Prop
  | ended {field} (state : State) : state = .inField ∨ state = .quoteInQuotes →
      Holds r alone field { r with state := state, field := field }
  | empty : alone = false → Holds r alone [] r

theorem foldl_writeField {r : Reader α} (hr : r.Begins) (alone : Bool) (field : List α) :
    r.Holds alone field ((d.writeField alone field).foldl d.process r) := by
  rw [writeField]
  split
  · rw [d.foldl_quoted_field hr field]
    exact .ended .quoteInQuotes (.inr rfl)
  · next hplain =>
    rw [Bool.or_eq_true, not_or, List.any_eq_true] at hplain
    cases field with
    | nil => exact .empty (by simpa using hplain.2)
    | cons c field =>
        have hsigns : ∀ a ∈ c :: field, d.isSign a = false := fun a ha =>
          Bool.eq_false_iff.mpr fun hsign => hplain.1 ⟨a, ha, hsign⟩
        rw [List.forall_mem_cons] at hsigns
        obtain ⟨-, hquote, hcr, hlf⟩ := d.isSign_eq_false hsigns.1
        have hfirst : d.process r c = { r with state := .inField, field := [c] } := by
          rw [d.process_begins hr hcr hlf, Reader.beginField, if_neg hquote,
            d.next_plain hsigns.1, Reader.push, hr.2, List.nil_append]
        rw [List.foldl_cons, hfirst, d.foldl_plain hsigns.2 _ rfl]
        exact .ended .inField (.inl rfl)

/-- A field and the delimiter after it. -/
theorem process_delimiter {r r' : Reader α} (hr : r.Begins) {alone : Bool} {field : List α}
    (h : r.Holds alone field r') :
    d.process r' d.delimiter = ⟨.startField, [], r.row ++ [field], r.rows⟩ := by
  obtain ⟨hquote, hcr, hlf, -, -⟩ := d.signs_ne
  cases h with
  | ended state hstate =>
      rcases hstate with rfl | rfl
      · simp [process, Reader.next, Reader.endField]
      · simp [process, Reader.next, Reader.endField, hquote]
  | empty _ =>
      rw [d.process_begins hr hcr hlf, Reader.beginField, if_neg hquote, Reader.next, if_pos rfl,
        Reader.endField, hr.2]

/-- The last field of a row and the sign after it. -/
theorem process_cr {r r' : Reader α} (hr : r.Begins) {alone : Bool} {field : List α}
    (h : r.Holds alone field r') (halone : alone = false → r.state = .startField) :
    d.process r' d.cr = ⟨.afterCr, [], [], r.rows ++ [r.row ++ [field]]⟩ := by
  obtain ⟨-, hdelimiter, -, hquote, -⟩ := d.signs_ne
  cases h with
  | ended state hstate =>
      rcases hstate with rfl | rfl
      · simp [process, Reader.next, Reader.endField, Reader.endRow, hdelimiter.symm]
      · simp [process, Reader.next, Reader.endField, Reader.endRow, hdelimiter.symm, hquote.symm]
  | empty hfalse =>
      simp [process, halone hfalse, Reader.beginField, Reader.next, Reader.endField,
        Reader.endRow, hdelimiter.symm, hquote.symm, hr.2]

/-- The fields of a row, and the sign after them. -/
theorem foldl_writeFields {alone : Bool} {field : List α} (fields : List (List α)) {r : Reader α}
    (hr : r.Begins) (halone : alone = false → fields = [] → r.state = .startField) :
    (d.writeFields alone (field :: fields) ++ [d.cr]).foldl d.process r =
      ⟨.afterCr, [], [], r.rows ++ [r.row ++ field :: fields]⟩ := by
  induction fields generalizing field r with
  | nil =>
      rw [writeFields, List.foldl_append, List.foldl_cons, List.foldl_nil]
      exact d.process_cr hr (d.foldl_writeField hr alone field) fun h => halone h rfl
  | cons field' fields ih =>
      rw [writeFields, List.append_assoc, List.foldl_append, List.cons_append, List.foldl_cons,
        d.process_delimiter hr (d.foldl_writeField hr alone field),
        ih ⟨.inl rfl, rfl⟩ fun _ _ => rfl]
      · rw [List.append_assoc, List.singleton_append]
      · exact nofun

/-- Between two rows. -/
def between (rows : List (List (List α))) : Reader α := ⟨.startRecord, [], [], rows⟩

theorem foldl_writeRow (row : List (List α)) (rows : List (List (List α))) :
    (d.writeRow row).foldl d.process (between rows) = between (rows ++ [row]) := by
  have hlf (rows : List (List (List α))) :
      d.process ⟨.afterCr, [], [], rows⟩ d.lf = between rows := if_pos rfl
  have hsplit : d.writeRow row = d.writeFields (row.length == 1) row ++ [d.cr] ++ [d.lf] := by
    rw [writeRow, List.append_assoc]
    rfl
  rw [hsplit, List.foldl_append, List.foldl_cons, List.foldl_nil]
  cases row with
  | nil =>
      have hempty : d.process (between rows) d.cr = ⟨.afterCr, [], [], rows ++ [[]]⟩ := if_pos rfl
      rw [writeFields, List.nil_append, List.foldl_cons, List.foldl_nil, hempty, hlf]
  | cons field fields =>
      rw [d.foldl_writeFields fields ⟨.inr rfl, rfl⟩, hlf]
      · rfl
      · rintro halone rfl
        cases halone

theorem foldl_write (rows done : List (List (List α))) :
    (d.write rows).foldl d.process (between done) = between (done ++ rows) := by
  induction rows generalizing done with
  | nil => rw [List.append_nil]; rfl
  | cons row rows ih =>
      rw [write, List.flatMap_cons, List.foldl_append, d.foldl_writeRow, ← write, ih,
        List.append_assoc, List.singleton_append]

/-- Whatever the fields contain, the rows are read as they were written. -/
theorem read_write (rows : List (List (List α))) : d.read (d.write rows) = rows := by
  have h := d.foldl_write rows []
  rw [List.nil_append] at h
  rw [read]
  exact congrArg Reader.finish h

end Csv

end Lib
