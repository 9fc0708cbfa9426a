import ContractAnalysis.FactRule
import ContractAnalysis.Graph.Basic

/-!
# Extraction of facts

The rules of a table are run over each clause in table order. Every match becomes a node, and an
edge ties the node to the clause it was found in. The facts of a category are numbered from 1 on,
through all clauses.

* `hitsIn`: the matches of rules in clauses, in order
* `Hit.locate`: the line on which a phrase of a match stands
* `extract`: the nodes and edges for all matches
* `assemble`: the graph of clauses, facts and citations
-/

namespace ContractAnalysis

/-- A match of a rule in a clause. -/
structure Hit where
  clause : Clause
  /-- The lines of the scanned text in lower case. -/
  lines : List (List Char)
  rule : FactRule
  phrases : FactMatch

/-- The two captured phrases of a match, if both captures took part in it. -/
def FactMatch.ofMatch? (m : Match) : Option FactMatch := do
  let first ← m.group? 1
  let second ← m.group? 2
  some ⟨String.ofList first, String.ofList second⟩

/-- The lines of the scanned text of a clause in lower case. -/
def scanLines (clause : Clause) : List (List Char) :=
  (Text.lines clause.scanText.toList).map Text.lowercaseChars

/-- The matches of a rule in a clause with its lines in lower case. -/
def hitsOf (clause : Clause) (lines : List (List Char)) (rule : FactRule) : List Hit :=
  (rule.expression.findAll clause.scanText.toList).filterMap fun m =>
    (FactMatch.ofMatch? m).map fun phrases => ⟨clause, lines, rule, phrases⟩

/-- The matches of rules in clauses: clause by clause, rule by rule, from left to right. -/
def hitsIn (rules : List FactRule) (clauses : List Clause) : List Hit :=
  clauses.flatMap fun clause =>
    let lines := scanLines clause
    rules.flatMap (hitsOf clause lines)

/-- How many facts of each category there are. -/
structure FactCount where
  obligations : Nat := 0
  rights : Nat := 0
  conditions : Nat := 0
  deriving DecidableEq

namespace FactCount

def get (count : FactCount) : FactCategory → Nat
  | .obligation => count.obligations
  | .right => count.rights
  | .condition => count.conditions

def add (count : FactCount) : FactCategory → FactCount
  | .obligation => { count with obligations := count.obligations + 1 }
  | .right => { count with rights := count.rights + 1 }
  | .condition => { count with conditions := count.conditions + 1 }

end FactCount

/-- Matches with their numbers within their categories, after the facts already counted. -/
def numberHits (count : FactCount) : List Hit → List (Hit × Nat)
  | [] => []
  | hit :: rest =>
    let count := count.add hit.rule.category
    (hit, count.get hit.rule.category) :: numberHits count rest

/-- How many characters of a phrase are used to find its line. -/
def locatingLength : Nat := 30

/-- The first of some lines in lower case that holds the start of a phrase in lower case, or else
the first line of all. -/
def lineOf (lines : List (List Char)) (phrase : String) : Nat :=
  let needle := Text.lowercaseChars (phrase.toList.take locatingLength)
  (lines.findIdx? (Text.occursIn needle)).getD 0

/-- The line on which a phrase of a match stands. Nothing is known where the clause has no line. -/
def Hit.locate (hit : Hit) (phrase : String) : Option Nat :=
  hit.clause.line.map fun first => first + lineOf hit.lines phrase

def Hit.factId (hit : Hit) (n : Nat) : String := hit.rule.category.factId n

def Hit.node (hit : Hit) (n : Nat) : Node :=
  hit.rule.build (hit.factId n) hit.phrases
    (hit.locate (hit.phrases.anchored hit.rule.anchor))

/-- The edge from the clause of a numbered match to its node. -/
def Hit.edge (hit : Hit) (n : Nat) : Edge := ⟨hit.clause.id, hit.factId n, .derivedFrom⟩

def extract (rules : List FactRule) (clauses : List Clause) : Projection :=
  let numbered := numberHits {} (hitsIn rules clauses)
  ⟨numbered.map fun (hit, n) => hit.node n, numbered.map fun (hit, n) => hit.edge n⟩

/-- The calls that build the graph of clauses and facts: nodes for the clauses and then the facts,
the facts' edges, and an edge for each citation. -/
def assemblyCalls (clauses : List Clause) (facts : Projection) : List Call :=
  clauses.map (fun clause => .addNode (.clause clause)) ++ facts.nodes.map .addNode ++
    facts.edges.map .insertEdge ++
    (citations clauses).map fun (source, target) => .addEdge source target .references

def assemble (clauses : List Clause) (facts : Projection) : Except Failure Graph :=
  Graph.empty.performAll (assemblyCalls clauses facts)

end ContractAnalysis
