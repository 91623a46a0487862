import AkesoDlp.Agent.StdString

/-!
# The Hyperscan regex analyzer

`hs_regex_analyzer.cpp` over a Hyperscan library that is a parameter. A build
without Hyperscan is one in which no pattern list compiles.
-/

namespace AkesoDlp.Agent

structure RegexPattern where
  id : Nat
  expression : StdString
  flags : Nat := 0
  label : StdString
deriving DecidableEq, Repr

/-- What `hs_compile_multi` is given for a pattern. -/
def RegexPattern.source (p : RegexPattern) : StdString × Nat × Nat :=
  (cStr p.expression, p.flags, p.id)

/-- What the match callback of `hs_scan` is called with. -/
structure HsMatch where
  id : Nat
  start : Nat
  stop : Nat
deriving DecidableEq, Repr

/-- The library. `compileMulti` takes the expressions with their flags and ids;
`scan` is the sequence of callbacks, whose offsets lie in the text. -/
structure Hyperscan where
  Database : Type
  compileMulti : List (StdString × Nat × Nat) → Option Database
  allocScratch : Database → Bool
  scan : Database → StdString → List HsMatch
  start_le : ∀ database text, ∀ m ∈ scan database text, m.start ≤ text.length

/-- No Hyperscan in the build. -/
def Hyperscan.absent : Hyperscan where
  Database := Unit
  compileMulti _ := none
  allocScratch _ := false
  scan _ _ := []
  start_le _ _ _ hm := absurd hm List.not_mem_nil

/-- A word that is its own regex. -/
def isLiteral (expression : StdString) : Bool :=
  !expression.isEmpty && expression.all isAlnum

/-- A library that refuses everything but words. It reports each end of an
occurrence, with a start of 0 as without `HS_FLAG_SOM_LEFTMOST`. -/
def Hyperscan.literal : Hyperscan where
  Database := List (StdString × Nat)
  compileMulti sources :=
    if sources.all fun source => isLiteral source.1 then
      some (sources.map fun source => (source.1, source.2.2))
    else none
  allocScratch _ := true
  scan database text :=
    (List.range text.length).flatMap fun i =>
      (database.filter fun word => (text.take (i + 1)).drop (i + 1 - word.1.length) == word.1).map
        fun word => ⟨word.2, 0, i + 1⟩
  start_le := by
    intro database text m hm
    obtain ⟨i, -, hm⟩ := List.mem_flatMap.mp hm
    obtain ⟨word, -, rfl⟩ := List.mem_map.mp hm
    exact Nat.zero_le _

def mergerPattern : RegexPattern := ⟨1, str "merger", 0, str "merger"⟩

structure MatchResult where
  patternId : Nat
  label : StdString := []
  start : Nat
  stop : Nat
deriving DecidableEq, Repr

/-- The database is there together with its scratch space or not at all. -/
structure HsRegexAnalyzer (hs : Hyperscan) where
  database : Option hs.Database := none
  patterns : List RegexPattern := []

namespace HsRegexAnalyzer

variable {hs : Hyperscan}

/-- `FreeDatabase`. -/
def freeDatabase (_ : HsRegexAnalyzer hs) : HsRegexAnalyzer hs := {}

/-- An empty list leaves the analyzer as it was; otherwise the old database is
gone even when the new one does not compile. -/
def compilePatterns (ra : HsRegexAnalyzer hs) (patterns : List RegexPattern) :
    Bool × HsRegexAnalyzer hs :=
  if patterns.isEmpty then (false, ra)
  else
    let ra := ra.freeDatabase
    match hs.compileMulti (patterns.map fun p => (cStr p.expression, p.flags, p.id)) with
    | none => (false, ra)
    | some database =>
        if hs.allocScratch database then (true, { database := some database, patterns := patterns })
        else (false, ra)

/-- `OnMatch`: the label of the pattern with that id (the last one in
`id_to_index_`). -/
def onMatch (patterns : List RegexPattern) (m : HsMatch) : MatchResult where
  patternId := m.id
  label := ((patterns.reverse.find? fun p => p.id == m.id).map (·.label)).getD []
  start := m.start
  stop := m.stop

def scan (ra : HsRegexAnalyzer hs) (data : StdString) : List MatchResult :=
  if data.isEmpty then []
  else
    match ra.database with
    | none => []
    | some database => (hs.scan database data).map (onMatch ra.patterns)

@[simp] theorem scan_freed (text : StdString) : ({} : HsRegexAnalyzer hs).scan text = [] := by
  unfold scan
  split <;> rfl

/-- The three ends of `CompilePatterns`. -/
theorem compilePatterns_cases (ra : HsRegexAnalyzer hs) (patterns : List RegexPattern) :
    (patterns = [] ∧ ra.compilePatterns patterns = (false, ra)) ∨
    (∃ database, patterns ≠ [] ∧
      hs.compileMulti (patterns.map RegexPattern.source) = some database ∧
      hs.allocScratch database = true ∧
      ra.compilePatterns patterns =
        (true, { database := some database, patterns := patterns })) ∨
    (patterns ≠ [] ∧
      (∀ database, hs.compileMulti (patterns.map RegexPattern.source) = some database →
        hs.allocScratch database = false) ∧
      ra.compilePatterns patterns = (false, {})) := by
  unfold compilePatterns freeDatabase
  have hsources : (patterns.map fun p => (cStr p.expression, p.flags, p.id)) =
      patterns.map RegexPattern.source := rfl
  rw [hsources]
  by_cases hnil : patterns = []
  · exact .inl ⟨hnil, by simp [hnil]⟩
  · simp only [List.isEmpty_iff, hnil, if_false]
    cases hcompile : hs.compileMulti (patterns.map RegexPattern.source) with
    | none => exact .inr (.inr ⟨hnil, fun _ h => absurd h.symm (Option.some_ne_none _), rfl⟩)
    | some database =>
        cases halloc : hs.allocScratch database with
        | true => exact .inr (.inl ⟨database, hnil, rfl, halloc, by simp [halloc]⟩)
        | false =>
            refine .inr (.inr ⟨hnil, ?_, by simp [halloc]⟩)
            rintro _ ⟨⟩
            exact halloc

end HsRegexAnalyzer

end AkesoDlp.Agent
