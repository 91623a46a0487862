import AkesoDlp.Lib.Keyed
import AkesoDlp.Lib.TSys
import AkesoDlp.Lib.Utf8
import Mathlib.Algebra.GroupWithZero.Nat
import Mathlib.Logic.Function.Basic

/-!
# The fingerprint index and its file

`FingerprintIndex` keeps its records in a dictionary and writes all of them to
one JSON file after every change. Instances on the same path share the file.
Loading swallows some errors, and saving empties the file before it writes, so
a run records for every call what the instance and the file held before and
after it.
-/

namespace AkesoDlp.Server.FingerprintIndex

open Lib

/-! ## Fingerprints -/

structure FingerprintRecord where
  id : String
  name : String
  description : String
  simhash : Int
  textLength : Int
  shingleCount : Int
  shingleSize : Int
  contentPreview : String
deriving DecidableEq, Repr

/-- `_normalize_text` and `str.strip`, which use Python's tables of characters. -/
structure TextEnv where
  normalizeText : String → String
  strip : String → String

def minTextLength : Nat := 50

/-- A place in a text of `n` characters, counted from its end if negative. -/
def place (n : Nat) (i : Int) : Nat := if i < 0 then (i + n).toNat else i.toNat

@[simp] theorem place_natCast (n i : Nat) : place n i = i := by
  rw [place, if_neg (Int.not_lt.mpr (Int.natCast_nonneg i)), Int.toNat_natCast]

/-- `_generate_shingles`. -/
def generateShingles (text : List Char) (k : Int) : List (List Char) :=
  if (text.length : Int) < k then if text.isEmpty then [] else [text]
  else (List.range (text.length - k + 1).toNat).map fun (i : Nat) =>
    (text.take (place text.length (i + k))).drop (place text.length i)

/-- `_fnv1a_64`. -/
def fnv1a64 (data : List UInt8) : UInt64 :=
  data.foldl (fun h b => (h ^^^ b.toUInt64) * 0x100000001B3) 0xCBF29CE484222325

/-- One more shingle hash in the weights of the bits. -/
def weigh (weights : List Int) (h : Nat) : List Int :=
  weights.mapIdx fun i w => if h.testBit i then w + 1 else w - 1

/-- The fingerprint of these weights. -/
def buildHash (weights : List Int) : Nat :=
  (List.range 64).foldl
    (fun fingerprint i =>
      if 0 < weights.getD i 0 then fingerprint ||| 1 <<< i else fingerprint) 0

def shingleHash (shingle : List Char) : Nat := (fnv1a64 (Utf8.encode shingle)).toNat

/-- `compute_simhash` on normalized text. -/
def computeSimhash (normalized : List Char) (shingleSize : Int) : Nat :=
  let shingles := generateShingles normalized shingleSize
  if shingles.isEmpty then 0
  else buildHash ((shingles.map shingleHash).foldl weigh (List.replicate 64 0))

structure AddRequest where
  text : String
  name : String
  description : String := ""
  shingleSize : Int := 4
deriving DecidableEq, Repr

/-- The record that `add` makes, or the text of its `ValueError`. -/
def makeRecord (env : TextEnv) (newId : String) (req : AddRequest) :
    Except String FingerprintRecord :=
  let normalized := env.normalizeText req.text
  if normalized.length < minTextLength then
    .error ("Text too short to fingerprint (" ++ toString normalized.length ++ " chars, minimum " ++
      toString minTextLength ++ ")")
  else .ok {
    id := newId
    name := req.name
    description := req.description
    simhash := computeSimhash normalized.toList req.shingleSize
    textLength := normalized.length
    shingleCount := (generateShingles normalized.toList req.shingleSize).length
    shingleSize := req.shingleSize
    contentPreview := env.strip (String.ofList (req.text.toList.take 200)) }

/-! ## The dictionary and the file -/

/-- `dict[str, FingerprintRecord]`, in its order. -/
@[ext] structure Records where
  list : List FingerprintRecord
  nodup : (list.map fun r => r.id).Nodup

namespace Records

def empty : Records := ⟨[], List.nodup_nil⟩

def put (rs : Records) (r : FingerprintRecord) : Records :=
  ⟨putKey (fun r => r.id) rs.list r, nodup_putKey rs.nodup r⟩

def delete (rs : Records) (recordId : String) : Records :=
  ⟨rs.list.filter fun r => r.id ≠ recordId, rs.nodup.sublist (List.filter_sublist.map _)⟩

def take (rs : Records) (n : Nat) : Records :=
  ⟨rs.list.take n, rs.nodup.sublist ((List.take_sublist n _).map _)⟩

def contains (rs : Records) (recordId : String) : Bool :=
  rs.list.any fun r => r.id = recordId

end Records

/-- An element of `data["fingerprints"]`. -/
inductive Item
  | record (r : FingerprintRecord)
  /-- Without an `id`: loading gives it a new one. -/
  | unnamed (r : FingerprintRecord)
  /-- What `FingerprintRecord(**item)` raises a `TypeError` for. -/
  | malformed
deriving DecidableEq, Repr

/-- The file, with the records that it still holds where it cannot be loaded. -/
inductive IndexFile
  | absent
  /-- Not UTF-8, or JSON but no object: an exception that `_load` lets through. -/
  | rejected (holds : Records)
  /-- A `JSONDecodeError`, which `_load` swallows. -/
  | notJson (holds : Records)
  | document (items : List Item)

def storeItem (rs : Records) : Item → Records
  | .record r => rs.put r
  | _ => rs

/-- The records in a file. -/
def IndexFile.stored : IndexFile → Records
  | .absent => .empty
  | .rejected holds => holds
  | .notJson holds => holds
  | .document items => items.foldl storeItem .empty

/-- The loop of `_load`, with whether an item made it stop. `newIds` are the ids
that `uuid4` would give. -/
def loadItems (newIds : Nat → String) : Nat → Records → List Item → Records × Bool
  | _, rs, [] => (rs, false)
  | n, rs, .record r :: items => loadItems newIds n (rs.put r) items
  | n, rs, .unnamed r :: items => loadItems newIds (n + 1) (rs.put { r with id := newIds n }) items
  | _, rs, .malformed :: _ => (rs, true)

/-- `_load`: the records with whether an error was swallowed; `none` where it raises. -/
def load (readFails : Bool) (newIds : Nat → String) : IndexFile → Option (Records × Bool)
  | .absent => some (.empty, false)
  | .rejected _ => none
  | .notJson _ => if readFails then none else some (.empty, true)
  | .document items => if readFails then none else some (loadItems newIds 0 .empty items)

/-- How a save ends. After the file has been emptied, a part of the text may have
been written. -/
inductive SaveOutcome
  | written
  | failsBefore
  | failsAfter (kept : Nat)
deriving DecidableEq, Repr

/-- `_save`: the file afterwards, and whether it raises. -/
def save (rs : Records) (file : IndexFile) : SaveOutcome → IndexFile × Bool
  | .written => (.document (rs.list.map .record), false)
  | .failsBefore => (file, true)
  | .failsAfter kept => (.notJson (rs.take kept), true)

/-! ## Calls -/

/-- An instance, with whether its load swallowed an error. -/
structure IndexInstance where
  records : Records
  loadFailed : Bool

inductive IndexCall
  | construct (self : Nat) (readFails : Bool) (newIds : Nat → String)
  | add (self : Nat) (newId : String) (req : AddRequest) (outcome : SaveOutcome)
  | remove (self : Nat) (recordId : String) (outcome : SaveOutcome)

/-- A call with the instance and the file before and after it. -/
structure CallRecord where
  adds : Bool
  before : Option IndexInstance
  after : Option IndexInstance
  fileBefore : IndexFile
  fileAfter : IndexFile
  raised : Bool

structure IndexState where
  file : IndexFile
  instances : Nat → Option IndexInstance
  calls : List CallRecord

/-- Enter a call and its effect. -/
def IndexState.finish (s : IndexState) (self : Nat) (adds : Bool) (after : Option IndexInstance)
    (fileAfter : IndexFile) (raised : Bool) : IndexState where
  file := fileAfter
  instances := Function.update s.instances self after
  calls := s.calls ++ [⟨adds, s.instances self, after, s.file, fileAfter, raised⟩]

/-- The end of `add` and `remove`: the dictionary is changed already. -/
def IndexState.change (s : IndexState) (self : Nat) (adds : Bool) (index : IndexInstance)
    (records : Records) (outcome : SaveOutcome) : IndexState :=
  let (file, raised) := save records s.file outcome
  s.finish self adds (some { index with records := records }) file raised

/-- One call. An instance is constructed once, and `uuid4` gives no id that an
instance has. -/
def indexStep (env : TextEnv) (s : IndexState) : IndexCall → Option IndexState
  | .construct self readFails newIds =>
      match s.instances self with
      | some _ => none
      | none =>
          match load readFails newIds s.file with
          | none => some (s.finish self false none s.file true)
          | some (records, failed) =>
              some (s.finish self false (some ⟨records, failed⟩) s.file false)
  | .add self newId req outcome =>
      (s.instances self).bind fun index =>
        match makeRecord env newId req with
        | .error _ => some (s.finish self true (some index) s.file true)
        | .ok record =>
            if index.records.contains newId then none
            else some (s.change self true index (index.records.put record) outcome)
  | .remove self recordId outcome =>
      (s.instances self).bind fun index =>
        if index.records.contains recordId then
          some (s.change self false index (index.records.delete recordId) outcome)
        else some (s.finish self false (some index) s.file false)

/-- Every sequence of calls on one path, whatever the file holds at first. -/
def index (env : TextEnv) : TSys IndexState IndexCall where
  init s := s.instances = (fun _ => none) ∧ s.calls = []
  step := indexStep env

/-- What a call has to keep. -/
structure CallKept (c : CallRecord) : Prop where
  agrees : c.raised = false → ∀ index ∈ c.after, index.records = c.fileAfter.stored
  unchanged : c.raised = true → c.after = c.before ∧ c.fileAfter = c.fileBefore
  preserved : c.adds = true → ∀ index ∈ c.before, index.loadFailed = true →
    ∀ r ∈ c.fileBefore.stored.list, r ∈ c.fileAfter.stored.list

/-- Loading the items stops only before items that hold no record, and makes up
no id. -/
def Loadable : List Item → Prop
  | [] => True
  | .record _ :: items => Loadable items
  | .unnamed _ :: _ => False
  | .malformed :: items => ∀ r, Item.record r ∉ items

/-- Loading the file leaves none of its records out. -/
def IndexFile.Whole : IndexFile → Prop
  | .absent => True
  | .rejected _ => True
  | .notJson holds => holds = .empty
  | .document items => Loadable items

/-- The condition on a call: an instance is constructed on a whole file or not
at all, no save fails, and an instance that does not save, or whose load has
failed, has the records of the file. -/
def IndexOk (env : TextEnv) (s : IndexState) : IndexCall → Prop
  | .construct _ readFails _ => readFails = true ∨ s.file.Whole
  | .add self newId req outcome => ∀ index ∈ s.instances self,
      (∃ message, makeRecord env newId req = .error message) ∨
        outcome = .written ∧ (index.loadFailed = true → index.records = s.file.stored)
  | .remove self recordId outcome => ∀ index ∈ s.instances self,
      if index.records.contains recordId then outcome = .written
      else index.records = s.file.stored

/-! ## One call -/

/-- What is saved is what is stored. -/
theorem foldl_storeItem (rs acc : List FingerprintRecord) (hacc : (acc.map fun r => r.id).Nodup)
    (hnd : ((acc ++ rs).map fun r => r.id).Nodup) :
    ((rs.map Item.record).foldl storeItem ⟨acc, hacc⟩).list = acc ++ rs := by
  have hput : ((rs.map Item.record).foldl storeItem ⟨acc, hacc⟩).list =
      rs.foldl (putKey fun r => r.id) acc := by
    clear hnd
    induction rs generalizing acc with
    | nil => rfl
    | cons r rs ih => exact ih _ (nodup_putKey hacc r)
  rw [hput, foldl_putKey hnd]

theorem stored_document (rs : Records) :
    (IndexFile.document (rs.list.map .record)).stored = rs := by
  apply Records.ext
  exact foldl_storeItem rs.list [] List.nodup_nil rs.nodup

theorem foldl_storeItem_of_notMem {items : List Item} (h : ∀ r, Item.record r ∉ items)
    (rs : Records) : items.foldl storeItem rs = rs := by
  induction items with
  | nil => rfl
  | cons item items ih =>
      have hrest : ∀ r, Item.record r ∉ items := fun r hr => h r (List.mem_cons_of_mem _ hr)
      cases item with
      | record r => exact absurd List.mem_cons_self (h r)
      | unnamed r => exact ih hrest
      | malformed => exact ih hrest

theorem loadItems_of_loadable {items : List Item} (h : Loadable items) (newIds : Nat → String)
    (n : Nat) (rs : Records) : (loadItems newIds n rs items).1 = items.foldl storeItem rs := by
  induction items generalizing rs with
  | nil => rfl
  | cons item items ih =>
      cases item with
      | record r => exact ih h (rs.put r)
      | unnamed r => exact absurd h id
      | malformed => exact (foldl_storeItem_of_notMem h rs).symm

/-- A load of a whole file that does not raise gives the records of the file. -/
theorem load_whole {file : IndexFile} {readFails : Bool} {newIds : Nat → String}
    {result : Records × Bool} (hok : readFails = true ∨ file.Whole)
    (h : load readFails newIds file = some result) : result.1 = file.stored := by
  cases file with
  | absent => rw [← Option.some.inj h, IndexFile.stored]
  | rejected holds => cases h
  | notJson holds =>
      cases readFails with
      | true => cases h
      | false =>
          have hempty : holds = .empty := hok.resolve_left Bool.false_ne_true
          rw [← Option.some.inj h, IndexFile.stored, hempty]
  | document items =>
      cases readFails with
      | true => cases h
      | false =>
          rw [← Option.some.inj h]
          exact loadItems_of_loadable (hok.resolve_left Bool.false_ne_true) newIds 0 .empty

theorem mem_put {rs : Records} {record r : FingerprintRecord}
    (hnew : rs.contains record.id = false) (h : r ∈ rs.list) : r ∈ (rs.put record).list := by
  have hkey : record.id ∉ rs.list.map fun r => r.id := by
    intro hmem
    obtain ⟨other, hother, hid⟩ := List.mem_map.mp hmem
    simp only [Records.contains, List.any_eq_false, decide_eq_true_eq] at hnew
    exact hnew other hother hid
  show r ∈ putKey (fun r => r.id) rs.list record
  rw [putKey_of_notMem hkey]
  exact List.mem_append_left _ h

theorem makeRecord_id {env : TextEnv} {newId : String} {req : AddRequest}
    {record : FingerprintRecord} (h : makeRecord env newId req = .ok record) :
    record.id = newId := by
  unfold makeRecord at h
  simp only at h
  split at h
  · cases h
  · cases h
    rfl

variable {env : TextEnv} {s s' : IndexState} {a : IndexCall}

/-- A call that changes nothing and raises is kept. -/
theorem callKept_raise (adds : Bool) (before : Option IndexInstance) (file : IndexFile) :
    CallKept ⟨adds, before, before, file, file, true⟩ where
  agrees h := Bool.noConfusion h
  unchanged _ := ⟨rfl, rfl⟩
  preserved _ _ _ _ _ hr := hr

/-- A save that succeeds makes the file agree with the dictionary. -/
theorem callKept_written {adds : Bool} {before : Option IndexInstance} {index : IndexInstance}
    {file : IndexFile}
    (hpreserved : adds = true → ∀ old ∈ before, old.loadFailed = true →
      ∀ r ∈ file.stored.list, r ∈ index.records.list) :
    CallKept
      ⟨adds, before, some index, file, .document (index.records.list.map .record), false⟩ where
  agrees _ := by
    intro after hafter
    rw [← Option.mem_some_iff.mp hafter]
    exact (stored_document index.records).symm
  unchanged h := Bool.noConfusion h
  preserved hadds old hold hfailed := by
    rw [stored_document]
    exact hpreserved hadds old hold hfailed

/-- A call that returns without a save is kept when the records are those of the file. -/
theorem callKept_agrees {before : Option IndexInstance} {index : IndexInstance} {file : IndexFile}
    (h : index.records = file.stored) :
    CallKept ⟨false, before, some index, file, file, false⟩ where
  agrees _ := by
    intro after hafter
    rw [← Option.mem_some_iff.mp hafter]
    exact h
  unchanged h := Bool.noConfusion h
  preserved h := Bool.noConfusion h

theorem calls_construct {self : Nat} {readFails : Bool} {newIds : Nat → String}
    (hok : IndexOk env s (.construct self readFails newIds))
    (h : indexStep env s (.construct self readFails newIds) = some s') :
    ∃ c, s'.calls = s.calls ++ [c] ∧ CallKept c := by
  simp only [indexStep] at h
  split at h
  · cases h
  · next hnone =>
      split at h
      · cases h
        refine ⟨_, rfl, ?_⟩
        rw [hnone]
        exact callKept_raise false none s.file
      · next records failed hload =>
          cases h
          exact ⟨_, rfl, callKept_agrees (load_whole hok hload)⟩

theorem calls_add {self : Nat} {newId : String} {req : AddRequest} {outcome : SaveOutcome}
    (hok : IndexOk env s (.add self newId req outcome))
    (h : indexStep env s (.add self newId req outcome) = some s') :
    ∃ c, s'.calls = s.calls ++ [c] ∧ CallKept c := by
  obtain ⟨index, hindex, h⟩ := Option.bind_eq_some_iff.mp h
  cases hrecord : makeRecord env newId req with
  | error message =>
      simp only [hrecord, Option.some.injEq] at h
      subst h
      refine ⟨_, rfl, ?_⟩
      rw [hindex]
      exact callKept_raise true (some index) s.file
  | ok record =>
      simp only [hrecord, Option.ite_none_left_eq_some, Option.some.injEq] at h
      obtain ⟨hnew, rfl⟩ := h
      obtain ⟨message, hmessage⟩ | ⟨rfl, hcurrent⟩ := hok index hindex
      · rw [hrecord] at hmessage
        cases hmessage
      · refine ⟨_, rfl, callKept_written ?_⟩
        intro _ old hold hfailed r hr
        rw [hindex, Option.mem_some_iff] at hold
        subst hold
        rw [← hcurrent hfailed] at hr
        refine mem_put ?_ hr
        rw [makeRecord_id hrecord]
        simpa using hnew

theorem calls_remove {self : Nat} {recordId : String} {outcome : SaveOutcome}
    (hok : IndexOk env s (.remove self recordId outcome))
    (h : indexStep env s (.remove self recordId outcome) = some s') :
    ∃ c, s'.calls = s.calls ++ [c] ∧ CallKept c := by
  obtain ⟨index, hindex, h⟩ := Option.bind_eq_some_iff.mp h
  have hok := hok index hindex
  split at h
  · next hcontains =>
      rw [if_pos hcontains] at hok
      subst hok
      cases h
      exact ⟨_, rfl, callKept_written fun hadds => Bool.noConfusion hadds⟩
  · next hunknown =>
      rw [if_neg hunknown] at hok
      cases h
      exact ⟨_, rfl, callKept_agrees hok⟩

theorem calls_inductive (env : TextEnv) :
    (index env).InductiveBy (IndexOk env) (fun s => ∀ c ∈ s.calls, CallKept c) where
  init := by
    rintro s ⟨-, hcalls⟩ c hc
    rw [hcalls] at hc
    cases hc
  step := by
    intro s a s' hs hok hstep
    obtain ⟨c, hcalls, hc⟩ : ∃ c, s'.calls = s.calls ++ [c] ∧ CallKept c := by
      cases a with
      | construct self readFails newIds => exact calls_construct hok hstep
      | add self newId req outcome => exact calls_add hok hstep
      | remove self recordId outcome => exact calls_remove hok hstep
    rw [hcalls, List.forall_mem_append, List.forall_mem_singleton]
    exact ⟨hs, hc⟩

/-- In every run whose calls meet the condition, every call keeps the dictionary
and the file together. -/
theorem calls_kept_of_indexOk {env : TextEnv} {s : IndexState}
    (h : (index env).ReachableBy (IndexOk env) s) : ∀ c ∈ s.calls, CallKept c :=
  (calls_inductive env).invariant s h

/-- Text functions that leave text as it is. -/
def plainText : TextEnv := ⟨id, id⟩

def sixtyLetters : AddRequest where
  text := "aaaaaaaaaabbbbbbbbbbccccccccccddddddddddeeeeeeeeeeffffffffff"
  name := "letters"

def noNewIds : Nat → String := fun _ => ""

def recordOf (id : String) : FingerprintRecord := ⟨id, id, "", 0, 60, 57, 4, ""⟩

/-- A file is created, read by a second instance, and its record removed. -/
theorem calls_kept_add_remove :
    ∃ s, (index plainText).run ⟨.absent, fun _ => none, []⟩
        [.construct 0 false noNewIds, .add 0 "a" sixtyLetters .written,
          .construct 1 false noNewIds, .remove 1 "a" .written] = some s ∧
      ∀ c ∈ s.calls, CallKept c := by
  have h : (index plainText).ReachableBy (IndexOk plainText) ⟨.absent, fun _ => none, []⟩ :=
    .init ⟨rfl, rfl⟩
  have h := h.step (a := IndexCall.construct 0 false noNewIds) (.inr trivial) rfl
  have h := h.step (a := IndexCall.add 0 "a" sixtyLetters .written)
    (fun _ hindex => .inr ⟨rfl, fun hfailed => by
      cases hindex
      cases hfailed⟩) rfl
  have h := h.step (a := IndexCall.construct 1 false noNewIds) (.inr trivial) rfl
  have h := h.step (a := IndexCall.remove 1 "a" .written)
    (fun _ hindex => by
      cases hindex
      rfl) rfl
  exact ⟨_, rfl, calls_kept_of_indexOk h⟩

/-- The load stops at the second of three items, and the next add overwrites the
third. -/
theorem third_record_overwritten :
    ¬ ∀ env s, (index env).Reachable s → ∀ c ∈ s.calls, CallKept c := by
  intro h
  let file : IndexFile := .document [.record (recordOf "r1"), .malformed, .record (recordOf "r2")]
  have hrun : ∃ s, (index plainText).run ⟨file, fun _ => none, []⟩
        [.construct 0 false noNewIds, .add 0 "a" sixtyLetters .written] = some s ∧
      ∃ c ∈ s.calls, c.adds = true ∧ (∃ old, c.before = some old ∧ old.loadFailed = true) ∧
        c.fileBefore = file ∧ c.fileAfter.stored.list.map (fun r => r.id) = ["r1", "a"] :=
    ⟨_, rfl, _, List.mem_cons_of_mem _ List.mem_cons_self, rfl, ⟨_, rfl, rfl⟩, rfl, rfl⟩
  obtain ⟨s, hs, c, hc, hadds, ⟨old, hold, hfailed⟩, hbefore, hafter⟩ := hrun
  have hkept := h plainText s (TSys.reachable_run (.init ⟨rfl, rfl⟩) _ hs) c hc
  have hlost := hkept.preserved hadds old hold hfailed (recordOf "r2") (by
    rw [hbefore]
    decide)
  have hid := List.mem_map_of_mem (f := fun r => r.id) hlost
  rw [hafter] at hid
  exact absurd hid (by decide)

end AkesoDlp.Server.FingerprintIndex
