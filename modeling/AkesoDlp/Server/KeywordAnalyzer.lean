import AkesoDlp.Lib.LowerCase
import AkesoDlp.Lib.Runs
import AkesoDlp.Server.DetectionModels
import AkesoDlp.Server.PyPath
import Mathlib.Data.List.Dedup

/-!
# The server's keyword analyzer

`server/detection/analyzers/keyword_analyzer.py`. The Unicode tables are a parameter, and so
is the Aho-Corasick library, which reports the occurrences of the words in the string that it
is given.
-/

namespace AkesoDlp.Server

open Lib
open Inspector (PyStr)

inductive CaseMode
  | sensitive
  | insensitive
deriving DecidableEq, Repr

structure ProximityRule where
  keywordA : PyStr
  keywordB : PyStr
  maxDistance : Int
  caseMode : CaseMode := .insensitive
deriving DecidableEq, Repr

structure KeywordDictionaryConfig where
  name : String
  keywords : List PyStr
  caseMode : CaseMode := .insensitive
  wholeWord : Bool := true
  proximityRules : List ProximityRule := []
  confidence : ℚ := 1
deriving DecidableEq

/-- The tables behind `str.lower` and `\w`. -/
structure UnicodeTables extends CaseTables where
  wordChar : Char → Bool

/-- `text[start:stop]`. -/
def slice (text : PyStr) (start stop : Nat) : PyStr := (text.take stop).drop start

/-- The value that an automaton stores: a keyword and the length of its key. -/
abbrev StoredKeyword := PyStr × Nat

/-- `add_word` and `iter` of the library. A word added twice has its last value, and the empty
word is not added. -/
structure AhoCorasick where
  iter : List (PyStr × StoredKeyword) → PyStr → List (Nat × StoredKeyword)
  mem_iter : ∀ words text endIdx stored, (endIdx, stored) ∈ iter words text ↔
    ∃ key before after, key ≠ [] ∧ words.reverse.lookup key = some stored ∧
      text = before ++ key ++ after ∧ endIdx + 1 = before.length + key.length

/-- A match with its metadata. -/
structure KeywordMatch extends Match where
  dictionary : String
  keyword : PyStr
  caseMode : CaseMode
  wholeWord : Bool
deriving DecidableEq

/-- A match of a proximity rule with its metadata. -/
structure ProximityMatch extends Match where
  dictionary : String
  keywordA : PyStr
  keywordB : PyStr
  distance : Int
  maxDistance : Int
deriving DecidableEq

section

variable (tables : UnicodeTables) (library : AhoCorasick)

/-- The conversion of texts and keywords before they are compared. -/
def CaseMode.fold : CaseMode → PyStr → PyStr
  | .insensitive, s => tables.lowerText s
  | .sensitive, s => s

/-- `_is_word_boundary`. -/
def isWordBoundary (text : PyStr) (pos : Int) : Bool :=
  if pos < 0 then true
  else (text[pos.toNat]?).all fun c => !tables.wordChar c

/-- The words that `_build_automaton` adds. -/
def buildAutomaton (config : KeywordDictionaryConfig) : List (PyStr × StoredKeyword) :=
  config.keywords.map fun keyword =>
    let key := config.caseMode.fold tables keyword
    (key, keyword, key.length)

/-- `_match_keywords`. -/
def matchKeywords (analyzerName : String) (config : KeywordDictionaryConfig)
    (component : MessageComponent) : List KeywordMatch :=
  let text := component.content.toList
  let searchText := config.caseMode.fold tables text
  (library.iter (buildAutomaton tables config) searchText).filterMap fun hit =>
    let (endIdx, originalKeyword, length) := hit
    let startIdx : Nat := endIdx + 1 - length
    if config.wholeWord &&
        !(isWordBoundary tables searchText ((startIdx : Int) - 1) &&
          isWordBoundary tables searchText ((endIdx : Int) + 1)) then none
    else
      some
        { analyzerName := analyzerName
          ruleName := config.name ++ ":" ++ String.ofList originalKeyword
          component := component
          matchedText := String.ofList (slice text startIdx (endIdx + 1))
          startOffset := startIdx
          endOffset := endIdx + 1
          confidence := config.confidence
          dictionary := config.name
          keyword := originalKeyword
          caseMode := config.caseMode
          wholeWord := config.wholeWord }

/-! ## Proximity -/

/-- `_word_positions`: the matches of `\w+`. -/
def wordPositions (text : PyStr) : List (Nat × Nat) := runs tables.wordChar text

/-- The indices of the words that are `keyword`. -/
def indicesOf (words : List PyStr) (keyword : PyStr) : List Nat :=
  (List.range words.length).filter fun i => words[i]? == some keyword

/-- The words between two indices. -/
def wordDistance (ai bi : Nat) : Int := ((ai : Int) - bi).natAbs - 1

/-- The match that spans the words at these two indices. -/
def proximityMatch (analyzerName : String) (config : KeywordDictionaryConfig)
    (component : MessageComponent) (rule : ProximityRule) (ai bi : Nat) : ProximityMatch :=
  let text := component.content.toList
  let wordSpans := wordPositions tables text
  let startOffset := (wordSpans.getD (min ai bi) (0, 0)).1
  let endOffset := (wordSpans.getD (max ai bi) (0, 0)).2
  { analyzerName := analyzerName
    ruleName := config.name ++ ":proximity(" ++ String.ofList rule.keywordA ++ "~" ++
      String.ofList rule.keywordB ++ ")"
    component := component
    matchedText := String.ofList (slice text startOffset endOffset)
    startOffset := startOffset
    endOffset := endOffset
    confidence := config.confidence
    dictionary := config.name
    keywordA := rule.keywordA
    keywordB := rule.keywordB
    distance := wordDistance ai bi
    maxDistance := rule.maxDistance }

/-- The body of the loop of `_match_proximity` over the rules. -/
def matchRule (analyzerName : String) (config : KeywordDictionaryConfig)
    (component : MessageComponent) (rule : ProximityRule) : List ProximityMatch :=
  let text := component.content.toList
  let wordsLower := (wordPositions tables text).map fun span =>
    tables.lowerText (slice text span.1 span.2)
  let aIndices := indicesOf wordsLower (rule.caseMode.fold tables rule.keywordA)
  let bIndices := indicesOf wordsLower (rule.caseMode.fold tables rule.keywordB)
  aIndices.flatMap fun ai => bIndices.filterMap fun bi =>
    if ai ≠ bi ∧ wordDistance ai bi ≤ rule.maxDistance then
      some (proximityMatch tables analyzerName config component rule ai bi)
    else none

/-- `_match_proximity`. -/
def matchProximity (analyzerName : String) (config : KeywordDictionaryConfig)
    (component : MessageComponent) : List ProximityMatch :=
  if (wordPositions tables component.content.toList).isEmpty then []
  else config.proximityRules.flatMap (matchRule tables analyzerName config component)

end

/-! ## Samples

The letters of ASCII and the characters whose lower case is special; a search of every place. -/

def sampleLower (c : Char) : Char :=
  if 65 ≤ c.toNat ∧ c.toNat ≤ 90 then Char.ofNat (c.toNat + 32)
  else if c = dottedI then 'i'
  else if c = capitalSigma then smallSigma
  else c

theorem sampleLower_sampleLower (c : Char) : sampleLower (sampleLower c) = sampleLower c := by
  have hletter : ∀ n, 65 ≤ n → n ≤ 90 →
      sampleLower (Char.ofNat (n + 32)) = Char.ofNat (n + 32) := by decide
  by_cases hupper : 65 ≤ c.toNat ∧ c.toNat ≤ 90
  · rw [sampleLower.eq_def c, if_pos hupper]
    exact hletter c.toNat hupper.1 hupper.2
  · by_cases hdotted : c = dottedI
    · subst hdotted
      decide
    · by_cases hsigma : c = capitalSigma
      · subst hsigma
        decide
      · have hself : sampleLower c = c := by
          rw [sampleLower, if_neg hupper, if_neg hdotted, if_neg hsigma]
        rw [hself, hself]

def sampleTables : UnicodeTables where
  lower := sampleLower
  cased c := c.isAlpha || [dottedI, capitalSigma, smallSigma, finalSigma].contains c
  ignorable c := c == combiningDot
  lower_lower := sampleLower_sampleLower
  lower_dottedI := by decide
  lower_combiningDot := by decide
  lower_capitalSigma := by decide
  lower_finalSigma := by decide
  wordChar c :=
    c.isAlphanum || c == '_' || [dottedI, capitalSigma, smallSigma, finalSigma].contains c

def everyPlace : AhoCorasick where
  iter words text :=
    (List.range text.length).flatMap fun endIdx =>
      (words.map (·.1)).dedup.filterMap fun key =>
        if key ≠ [] ∧ key <:+ text.take (endIdx + 1) then
          (words.reverse.lookup key).map fun stored => (endIdx, stored)
        else none
  mem_iter words text endIdx stored := by
    simp only [List.mem_flatMap, List.mem_range, List.mem_filterMap, List.mem_dedup,
      Option.ite_none_right_eq_some, Option.map_eq_some_iff, Prod.mk.injEq]
    constructor
    · rintro ⟨last, hend, key, -, ⟨hkey, before, hbefore⟩, _, hlookup, hlast, rfl⟩
      subst hlast
      refine ⟨key, before, text.drop (last + 1), hkey, hlookup, ?_, ?_⟩
      · rw [hbefore, List.take_append_drop]
      · rw [← List.length_append, hbefore, List.length_take, Nat.min_eq_left hend]
    · rintro ⟨key, before, after, hkey, hlookup, rfl, hend⟩
      have hpos := List.length_pos_iff.mpr hkey
      obtain ⟨front, back, hwords, -⟩ := List.lookup_eq_some_iff.mp hlookup
      refine ⟨endIdx, ?_, key, ?_, ⟨hkey, before, ?_⟩, stored, hlookup, rfl, rfl⟩
      · simp only [List.length_append]
        omega
      · refine List.mem_map.mpr ⟨(key, stored), ?_, rfl⟩
        rw [← List.mem_reverse, hwords]
        exact List.mem_append_right _ List.mem_cons_self
      · rw [hend, ← List.length_append, List.take_left]

end AkesoDlp.Server
