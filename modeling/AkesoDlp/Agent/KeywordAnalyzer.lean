import AkesoDlp.Agent.StdString
import Mathlib.Data.List.Perm.Basic

/-!
# The Aho–Corasick keyword analyzer

`keyword_analyzer.cpp`. The `-1` of the integer links is `none` here, and a
`while` loop carries a bound on its iterations, the number of nodes; the links
always lead to shorter words, so no loop gets that far.

A child table is the list of its entries in the order of their insertion. The
order in which a `for` loop visits an `std::unordered_map` is left open: the
analyzer carries it.
-/

namespace AkesoDlp.Agent

structure KeywordEntry where
  id : Nat
  keyword : StdString
  caseSensitive : Bool := false
  wholeWord : Bool := false
  label : StdString
deriving DecidableEq, Repr

structure KeywordMatch where
  patternId : Nat
  label : StdString
  keyword : StdString
  offset : Nat
deriving DecidableEq, Repr

structure AcNode where
  children : List (UInt8 × Nat) := []
  fail : Nat := 0
  dictSuffix : Option Nat := none
  keywordIndex : Option Nat := none
deriving DecidableEq, Repr

/-- The iteration order of the child tables. -/
structure HashMapOrder where
  iterate : List (UInt8 × Nat) → List (UInt8 × Nat)
  iterate_perm : ∀ l, (iterate l).Perm l

def HashMapOrder.insertion : HashMapOrder where
  iterate := id
  iterate_perm := List.Perm.refl

/-- `nodes_[i]`. -/
def nodeAt (nodes : List AcNode) (i : Nat) : AcNode := nodes.getD i {}

/-- `nodes_[i].children.find(ch)`. -/
def findChild (nodes : List AcNode) (i : Nat) (ch : UInt8) : Option Nat :=
  (nodeAt nodes i).children.lookup ch

/-! ## Building the automaton -/

/-- `nodes_[cur].children[ch] = nodes_.size(); nodes_.emplace_back();` -/
def addChild (nodes : List AcNode) (cur : Nat) (ch : UInt8) : List AcNode :=
  nodes.modify cur (fun n => { n with children := n.children ++ [(ch, nodes.length)] }) ++
    [({} : AcNode)]

/-- One round of the loop of `InsertKeyword`: the nodes and `cur`. -/
def insertChar (st : List AcNode × Nat) (ch : UInt8) : List AcNode × Nat :=
  let (nodes, cur) := st
  match findChild nodes cur ch with
  | some next => (nodes, next)
  | none => (addChild nodes cur ch, nodes.length)

def insertKeyword (nodes : List AcNode) (keywordIdx : Nat) (entry : KeywordEntry) : List AcNode :=
  let (nodes, cur) := (lower entry.keyword).foldl insertChar (nodes, 0)
  nodes.modify cur fun n => { n with keywordIndex := some keywordIdx }

/-- Insert all keywords, the first under index `start`. -/
def insertKeywords (nodes : List AcNode) (start : Nat) : List KeywordEntry → List AcNode
  | [] => nodes
  | entry :: rest => insertKeywords (insertKeyword nodes start entry) (start + 1) rest

/-- `while (f != 0 && no child of f under ch) f = nodes_[f].fail`. -/
def followFail (nodes : List AcNode) : Nat → Nat → UInt8 → Nat
  | 0, f, _ => f
  | fuel + 1, f, ch =>
      if f ≠ 0 ∧ findChild nodes f ch = none then followFail nodes fuel (nodeAt nodes f).fail ch
      else f

/-- `(it != end && it->second != v) ? it->second : 0`. -/
def failTarget (nodes : List AcNode) (f : Nat) (ch : UInt8) (v : Nat) : Nat :=
  match findChild nodes f ch with
  | some next => if next ≠ v then next else 0
  | none => 0

/-- The body of the inner loop of `BuildFailureLinks`: the links of `v`, the
child of `u` under `ch`. -/
def linkChild (u : Nat) (nodes : List AcNode) (edge : UInt8 × Nat) : List AcNode :=
  let (ch, v) := edge
  let f := followFail nodes nodes.length (nodeAt nodes u).fail ch
  let fail := failTarget nodes f ch v
  let dictSuffix :=
    if (nodeAt nodes fail).keywordIndex.isSome then some fail else (nodeAt nodes fail).dictSuffix
  nodes.modify v fun n => { n with fail := fail, dictSuffix := dictSuffix }

/-- The breadth-first loop, for at most `fuel` nodes. -/
def linkLoop (order : HashMapOrder) : Nat → List AcNode → List Nat → List AcNode
  | 0, nodes, _ => nodes
  | _ + 1, nodes, [] => nodes
  | fuel + 1, nodes, u :: bfs =>
      let edges := order.iterate (nodeAt nodes u).children
      linkLoop order fuel (edges.foldl (linkChild u) nodes) (bfs ++ edges.map (·.2))

/-- The first loop: the links of a child of the root. -/
def linkRootChild (nodes : List AcNode) (edge : UInt8 × Nat) : List AcNode :=
  nodes.modify edge.2 fun n => { n with
    fail := 0
    dictSuffix := if (nodeAt nodes 0).keywordIndex.isSome then some 0 else none }

def buildFailureLinks (order : HashMapOrder) (nodes : List AcNode) : List AcNode :=
  let edges := order.iterate (nodeAt nodes 0).children
  linkLoop order nodes.length (edges.foldl linkRootChild nodes) (edges.map (·.2))

structure KeywordAnalyzer where
  order : HashMapOrder
  nodes : List AcNode := []
  keywords : List KeywordEntry := []
  built : Bool := false

namespace KeywordAnalyzer

/-- An empty list leaves the analyzer as it was. -/
def buildAutomaton (ka : KeywordAnalyzer) (keywords : List KeywordEntry) :
    Bool × KeywordAnalyzer :=
  if keywords.isEmpty then (false, ka)
  else
    (true, { ka with
      nodes := buildFailureLinks ka.order (insertKeywords [{}] 0 keywords)
      keywords := keywords
      built := true })

end KeywordAnalyzer

/-! ## Scanning -/

def isWordChar (c : UInt8) : Bool := isAlnum c || c == 95

def isWordBoundary (data : StdString) (matchStart matchLen : Nat) : Bool :=
  !(matchStart > 0 && isWordChar (data.getD (matchStart - 1) 0)) &&
  !(matchStart + matchLen < data.length && isWordChar (data.getD (matchStart + matchLen) 0))

/-- The next state of the automaton. -/
def nextState (nodes : List AcNode) (cur : Nat) (ch : UInt8) : Nat :=
  (findChild nodes (followFail nodes nodes.length cur ch) ch).getD 0

/-- The match that a keyword ending before `stop` yields, when the checks of
the entry hold. -/
def validate (data : StdString) (stop : Nat) (entry : KeywordEntry) : Option KeywordMatch :=
  let kwLen := entry.keyword.length
  let matchStart := stop - kwLen
  if (!entry.caseSensitive || (data.drop matchStart).take kwLen == entry.keyword) &&
      (!entry.wholeWord || isWordBoundary data matchStart kwLen) then
    some { patternId := entry.id, label := entry.label, keyword := entry.keyword
           offset := matchStart }
  else none

/-- The output loop: `check` and the nodes behind its dictionary suffix links. -/
def collect (nodes : List AcNode) (keywords : List KeywordEntry) (data : StdString) (stop : Nat) :
    Nat → Option Nat → List KeywordMatch
  | 0, _ => []
  | _ + 1, none => []
  | fuel + 1, some check =>
      if check = 0 then []
      else
        ((nodeAt nodes check).keywordIndex.bind fun idx =>
          keywords[idx]?.bind (validate data stop)).toList ++
        collect nodes keywords data stop fuel (nodeAt nodes check).dictSuffix

/-- The scan from state `cur` over the bytes after the first `i`. -/
def scanFrom (nodes : List AcNode) (keywords : List KeywordEntry) (data : StdString) :
    Nat → Nat → List UInt8 → List KeywordMatch
  | _, _, [] => []
  | i, cur, ch :: rest =>
      let cur := nextState nodes cur (toLower ch)
      collect nodes keywords data (i + 1) nodes.length (some cur) ++
        scanFrom nodes keywords data (i + 1) cur rest

def KeywordAnalyzer.scan (ka : KeywordAnalyzer) (data : StdString) : List KeywordMatch :=
  if !ka.built || ka.nodes.isEmpty then []
  else scanFrom ka.nodes ka.keywords data 0 0 data

end AkesoDlp.Agent
