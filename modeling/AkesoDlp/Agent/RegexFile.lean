import AkesoDlp.Agent.HsRegexAnalyzer
import Mathlib.Logic.Function.Basic

/-!
# Compiled databases in files

`SaveToFile` and `LoadFromFile`. The file holds what Hyperscan makes of its
database; the pattern table, which has the labels, stays behind, and a load
clears the one of the loading analyzer.
-/

namespace AkesoDlp.Agent

/-- Files by their path. -/
abbrev Files := StdString → Option (List UInt8)

/-- How a stream fares: whether it opens and whether the transfer succeeds.
A write that fails leaves `left` in the file. -/
structure StreamOutcome where
  opens : Bool := true
  transfers : Bool := true
  left : List UInt8 := []
deriving DecidableEq, Repr

/-- `hs_serialize_database` and `hs_deserialize_database`. -/
structure HsSerialization (hs : Hyperscan) where
  serialize : hs.Database → Option (List UInt8)
  deserialize : List UInt8 → Option hs.Database

/-- A database that was serialized matches as before. -/
def HsSerialization.Faithful {hs : Hyperscan} (ser : HsSerialization hs) : Prop :=
  ∀ database bytes database', ser.serialize database = some bytes →
    ser.deserialize bytes = some database' →
    ∀ text, hs.scan database' text = hs.scan database text

/-- The label that `id_to_index_` leads to. -/
def labelOf (patterns : List RegexPattern) (id : Nat) : StdString :=
  ((patterns.reverse.find? fun p => p.id == id).map (·.label)).getD []

namespace HsRegexAnalyzer

variable {hs : Hyperscan} (ser : HsSerialization hs)

def serializeDatabase (ra : HsRegexAnalyzer hs) : Option (List UInt8) :=
  ra.database.bind ser.serialize

def deserializeDatabase (ra : HsRegexAnalyzer hs) (data : List UInt8) :
    Bool × HsRegexAnalyzer hs :=
  let ra := ra.freeDatabase
  match ser.deserialize data with
  | none => (false, ra)
  | some database =>
      if hs.allocScratch database then (true, { ra with database := some database })
      else (false, ra)

def saveToFile (ra : HsRegexAnalyzer hs) (outcome : StreamOutcome) (files : Files)
    (path : StdString) : Bool × Files :=
  match ra.serializeDatabase ser with
  | none => (false, files)
  | some buf =>
      if !outcome.opens then (false, files)
      else if !outcome.transfers then (false, Function.update files path (some outcome.left))
      else (true, Function.update files path (some buf))

def loadFromFile (ra : HsRegexAnalyzer hs) (outcome : StreamOutcome) (files : Files)
    (path : StdString) : Bool × HsRegexAnalyzer hs :=
  match files path with
  | none => (false, ra)
  | some buf =>
      if !outcome.opens || buf.isEmpty || !outcome.transfers then (false, ra)
      else ra.deserializeDatabase ser buf

/-! ## What a round trip keeps -/

theorem onMatch_label (patterns : List RegexPattern) (m : HsMatch) :
    (onMatch patterns m).label = labelOf patterns m.id := rfl

/-- A successful save puts the serialized database into the file. -/
theorem saveToFile_true {ra : HsRegexAnalyzer hs} {outcome : StreamOutcome} {files files' : Files}
    {path : StdString} (h : ra.saveToFile ser outcome files path = (true, files')) :
    ∃ database buf, ra.database = some database ∧ ser.serialize database = some buf ∧
      files' path = some buf := by
  unfold saveToFile at h
  cases hbuf : ra.serializeDatabase ser with
  | none => simp [hbuf] at h
  | some buf =>
      obtain ⟨database, hdatabase, hserialize⟩ := Option.bind_eq_some_iff.mp hbuf
      refine ⟨database, buf, hdatabase, hserialize, ?_⟩
      cases hopens : outcome.opens <;> cases htransfers : outcome.transfers <;>
        simp only [hbuf, hopens, htransfers, Bool.not_true, Bool.not_false, if_true, if_false,
          Bool.false_eq_true, Prod.mk.injEq, false_and, true_and] at h
      rw [← h, Function.update_self]

/-- After a successful load there is a database and no pattern table. -/
theorem loadFromFile_true {ra ra' : HsRegexAnalyzer hs} {outcome : StreamOutcome} {files : Files}
    {path : StdString} (h : ra.loadFromFile ser outcome files path = (true, ra')) :
    ∃ buf database, files path = some buf ∧ ser.deserialize buf = some database ∧
      ra' = { database := some database, patterns := [] } := by
  unfold loadFromFile at h
  cases hbuf : files path with
  | none => simp [hbuf] at h
  | some buf =>
      rw [hbuf] at h
      dsimp only at h
      split at h
      · cases h
      · unfold deserializeDatabase at h
        cases hdatabase : ser.deserialize buf with
        | none => simp [hdatabase] at h
        | some database =>
            simp only [hdatabase] at h
            split at h
            · exact ⟨buf, database, rfl, hdatabase, (Prod.mk.inj h).2.symm⟩
            · cases h

/-- The loaded analyzer reports the same matches, without their labels. -/
theorem scan_loaded (hser : ser.Faithful) {saver loader loaded : HsRegexAnalyzer hs}
    {saving loading : StreamOutcome} {files files' : Files} {path : StdString}
    (hsave : saver.saveToFile ser saving files path = (true, files'))
    (hload : loader.loadFromFile ser loading files' path = (true, loaded)) (text : StdString) :
    loaded.scan text = (saver.scan text).map fun m => { m with label := [] } := by
  obtain ⟨database, buf, hdatabase, hserialize, hfile⟩ := saveToFile_true ser hsave
  obtain ⟨buf', database', hfile', hdeserialize, rfl⟩ := loadFromFile_true ser hload
  obtain rfl : buf = buf' := Option.some.inj (hfile.symm.trans hfile')
  unfold scan
  rw [hdatabase]
  split
  · rfl
  · dsimp only
    rw [hser database buf database' hserialize hdeserialize text, List.map_map]
    rfl

theorem compilePatterns_true {ra : HsRegexAnalyzer hs} {patterns : List RegexPattern}
    (h : (ra.compilePatterns patterns).1 = true) :
    ∃ database, hs.compileMulti (patterns.map RegexPattern.source) = some database ∧
      (ra.compilePatterns patterns).2 = { database := some database, patterns := patterns } := by
  obtain ⟨-, heq⟩ | ⟨database, -, hcompile, -, heq⟩ | ⟨-, -, heq⟩ :=
    ra.compilePatterns_cases patterns
  · exact absurd h (by simp [heq])
  · exact ⟨database, hcompile, by rw [heq]⟩
  · exact absurd h (by simp [heq])

/-- Exactly when a database survives its file: where the library reports a
pattern of the list in some text, that pattern has no label. -/
theorem reload_faithful_iff (hser : ser.Faithful) {ra loader loaded : HsRegexAnalyzer hs}
    {patterns : List RegexPattern} {saving loading : StreamOutcome} {files files' : Files}
    {path : StdString} (hcompile : (ra.compilePatterns patterns).1 = true)
    (hsave : (ra.compilePatterns patterns).2.saveToFile ser saving files path = (true, files'))
    (hload : loader.loadFromFile ser loading files' path = (true, loaded)) :
    (∀ text, loaded.scan text = (ra.compilePatterns patterns).2.scan text) ↔
      ∀ database, hs.compileMulti (patterns.map RegexPattern.source) = some database →
        ∀ text, text ≠ [] → ∀ m ∈ hs.scan database text, labelOf patterns m.id = [] := by
  obtain ⟨database, hdatabase, hsaver⟩ := compilePatterns_true hcompile
  have hscan : ∀ text, text ≠ [] → (ra.compilePatterns patterns).2.scan text =
      (hs.scan database text).map (onMatch patterns) := by
    intro text htext
    rw [hsaver, scan, if_neg (by simpa using htext)]
  rw [hdatabase]
  simp only [scan_loaded ser hser hsave hload, Option.some.injEq, forall_eq']
  refine forall_congr' fun text => ?_
  by_cases htext : text = []
  · exact iff_of_true (by simp [htext, scan]) (fun h => absurd htext h)
  · -- one match is the same after the trip exactly if it had no label before
    rw [hscan text htext, List.map_map, List.map_inj_left]
    simp only [ne_eq, htext, not_false_eq_true, forall_const]
    refine forall₂_congr fun m _ => ?_
    rw [← onMatch_label]
    constructor
    · intro h
      exact (congrArg MatchResult.label h).symm
    · intro h
      rw [Function.comp_apply, ← h]

end HsRegexAnalyzer

/-! ## One word in a file -/

/-- Each word after its length and its id. -/
def wordBytes (database : List (StdString × Nat)) : List UInt8 :=
  database.flatMap fun word => word.1.length.toUInt8 :: word.2.toUInt8 :: word.1

def readWords : (fuel : Nat) → List UInt8 → Option (List (StdString × Nat))
  | _, [] => some []
  | 0, _ => none
  | fuel + 1, length :: rest =>
      match rest with
      | [] => none
      | id :: rest =>
          (readWords fuel (rest.drop length.toNat)).map fun words =>
            (rest.take length.toNat, id.toNat) :: words

/-- Only what can be read back is written. -/
def writeWords (database : List (StdString × Nat)) : Option (List UInt8) :=
  if readWords (wordBytes database).length (wordBytes database) = some database then
    some (wordBytes database)
  else none

def literalSerialization : HsSerialization .literal where
  serialize := writeWords
  deserialize bytes := readWords bytes.length bytes

theorem literalSerialization_faithful : literalSerialization.Faithful := by
  intro database bytes database' hserialize hdeserialize text
  obtain ⟨hread, hbytes⟩ := Option.ite_none_right_eq_some.mp hserialize
  obtain rfl := Option.some.inj hbytes
  rw [Option.some.inj (hread.symm.trans hdeserialize)]

/-- A pattern as it comes from a caller that gives no labels. -/
def unlabelled : RegexPattern := { mergerPattern with label := [] }

/-- The files after an analyzer with one pattern was saved, and the analyzer
that a fresh one becomes by loading. -/
def savedWord (pattern : RegexPattern) : Files :=
  ((({} : HsRegexAnalyzer .literal).compilePatterns [pattern]).2.saveToFile literalSerialization {}
    (fun _ => none) (str "regex.db")).2

def loadedWord (pattern : RegexPattern) : HsRegexAnalyzer .literal :=
  (({} : HsRegexAnalyzer .literal).loadFromFile literalSerialization {} (savedWord pattern)
    (str "regex.db")).2

namespace HsRegexAnalyzer

theorem reload_faithful_unlabelled :
    (loadedWord unlabelled).scan (str "a merger") =
      (({} : HsRegexAnalyzer .literal).compilePatterns [unlabelled]).2.scan (str "a merger") := by
  have hcompile : (({} : HsRegexAnalyzer .literal).compilePatterns [unlabelled]).1 = true := rfl
  have hsave : (({} : HsRegexAnalyzer .literal).compilePatterns [unlabelled]).2.saveToFile
      literalSerialization {} (fun _ => none) (str "regex.db") = (true, savedWord unlabelled) := rfl
  have hload : ({} : HsRegexAnalyzer .literal).loadFromFile literalSerialization {}
      (savedWord unlabelled) (str "regex.db") = (true, loadedWord unlabelled) := rfl
  refine (reload_faithful_iff literalSerialization literalSerialization_faithful hcompile hsave
    hload).mpr ?_ (str "a merger")
  intro _ _ text _ m _
  unfold labelOf
  cases h : [unlabelled].reverse.find? fun p => p.id == m.id with
  | none => rfl
  | some p =>
      obtain rfl : p = unlabelled := List.mem_singleton.mp (List.mem_of_find?_eq_some h)
      rfl

/-- The match is found again, but nothing tells which policy it belongs to. -/
theorem not_reload_faithful_merger :
    (({} : HsRegexAnalyzer .literal).compilePatterns [mergerPattern]).1 = true ∧
    (({} : HsRegexAnalyzer .literal).loadFromFile literalSerialization {}
      (savedWord mergerPattern) (str "regex.db")).1 = true ∧
    (({} : HsRegexAnalyzer .literal).compilePatterns [mergerPattern]).2.scan (str "a merger") =
      [⟨1, str "merger", 0, 8⟩] ∧
    (loadedWord mergerPattern).scan (str "a merger") = [⟨1, [], 0, 8⟩] ∧
    ¬ ∀ text, (loadedWord mergerPattern).scan text =
      (({} : HsRegexAnalyzer .literal).compilePatterns [mergerPattern]).2.scan text := by
  refine ⟨by decide, by decide, by decide, by decide, ?_⟩
  intro hsame
  exact absurd (hsame (str "a merger")) (by decide)

end HsRegexAnalyzer

end AkesoDlp.Agent
