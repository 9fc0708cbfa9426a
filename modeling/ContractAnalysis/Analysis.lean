import ContractAnalysis.Detection
import ContractAnalysis.Document
import ContractAnalysis.Extraction
import ContractAnalysis.Outline
import ContractAnalysis.Report

/-!
# Analysis of a contract

A document is compiled into clauses, parties, a graph and the findings of the structural checks. A
reviewer, if there is one, is shown the outcome and may add findings; one that fails adds none.

To ask a reviewer is an action of some monad. Reviewers that are functions are those of `Id`.

* `compile`: the compiled contract of a document under a table of rules
* `ReviewRequest`, `ReviewerIn`, `Reviewer`: what a reviewer is shown, and what it is
* `AnalystIn.run`, `Analyst.run`: the report on a document, and what the reviewer was shown
-/

namespace ContractAnalysis

/-- What a document says, before any review. -/
structure CompiledContract where
  clauses : List Clause
  parties : List String
  graph : Graph
  findings : List Finding

def compile (rules : List FactRule) (document : Document) : Except Failure CompiledContract := do
  let clauses := clausesOf document.content
  let graph ← assemble clauses (extract rules clauses)
  return { clauses, graph, parties := partiesIn document.content, findings := findingsOf graph }

/-- What a reviewer is shown. -/
structure ReviewRequest where
  graph : Projection
  text : String
  /-- The findings of the structural checks. -/
  findings : List Finding
  deriving DecidableEq

/-- Someone who looks for more findings, and may fail to. -/
abbrev ReviewerIn (m : Type → Type) := ReviewRequest → m (Except Failure (List Finding))

abbrev Reviewer := ReviewRequest → Except Failure (List Finding)

/-- A table of rules, and perhaps a reviewer. -/
structure AnalystIn (m : Type → Type) where
  rules : List FactRule := FactRule.standard
  reviewer : Option (ReviewerIn m) := none

abbrev Analyst := AnalystIn Id

/-- A report, and what the reviewer was shown, if there was one to show it to. -/
structure Outcome where
  report : Report
  shown : Option ReviewRequest
  deriving DecidableEq

/-- The findings that an answer of a reviewer adds; none if the review failed. -/
def additions : Except Failure (List Finding) → List Finding
  | .ok findings => findings
  | .error _ => []

namespace AnalystIn

variable {m : Type → Type}

/-- The same rules without a reviewer. -/
def alone (analyst : AnalystIn m) : AnalystIn m := { analyst with reviewer := none }

variable [Monad m]

/-- The findings that the reviewer adds, if there is one. -/
def added (analyst : AnalystIn m) (request : ReviewRequest) : m (List Finding) :=
  match analyst.reviewer with
  | some reviewer => additions <$> reviewer request
  | none => pure []

/-- The report on a compiled contract, and what the reviewer was shown. -/
def report (analyst : AnalystIn m) (stamp : Stamp) (document : Document)
    (contract : CompiledContract) : m Outcome := do
  let request : ReviewRequest :=
    { graph := contract.graph.projection, text := document.content, findings := contract.findings }
  let added ← analyst.added request
  return {
    report := Report.ofFindings stamp
      ⟨document.source, contract.clauses.length, contract.parties.length⟩
      contract.parties contract.graph.projection (contract.findings ++ added)
    shown := analyst.reviewer.map fun _ => request }

/-- The report on a document, and what the reviewer was shown. -/
def run (analyst : AnalystIn m) (stamp : Stamp) (document : Document) :
    m (Except Failure Outcome) :=
  match compile analyst.rules document with
  | .ok contract => Except.ok <$> analyst.report stamp document contract
  | .error failure => pure (.error failure)

end AnalystIn

/-- The report on a document, and what the reviewer was shown. -/
def Analyst.run (analyst : Analyst) (stamp : Stamp) (document : Document) :
    Except Failure Outcome :=
  (AnalystIn.run analyst stamp document).run

end ContractAnalysis
