import ContractAnalysis.Finding
import ContractAnalysis.Graph.Basic
import ContractAnalysis.RunId
import ContractAnalysis.Timestamp

/-!
# Reports

A report is what an analysis of a contract says: where the contract comes from, its parties, its
graph, and the findings with a summary of their grades. As text, findings are listed by grade, from
critical to low, and numbered within their grade. Each starts with its places in the document, so
that editors can jump to them.

* `Report`: reports
* `Report.ofFindings`: a report with the summary of its findings
* `Report.text`: a report as text
-/

namespace ContractAnalysis

/-- Which run a report is of, and when it was made. -/
structure Stamp where
  runId : RunId
  generatedAt : Timestamp
  deriving DecidableEq

def Stamp.zero : Stamp := ⟨.zero, .epoch⟩

/-- Where a contract comes from and how large it is. -/
structure Metadata where
  source : String
  clauseCount : Nat
  partyCount : Nat
  deriving DecidableEq

/-- What an analysis of a contract says. -/
structure Report where
  stamp : Stamp
  metadata : Metadata
  parties : List String
  graph : Projection
  findings : List Finding
  summary : SeveritySummary
  deriving DecidableEq

def Report.ofFindings (stamp : Stamp) (metadata : Metadata) (parties : List String)
    (graph : Projection) (findings : List Finding) : Report :=
  { stamp, metadata, parties, graph, findings
    summary := SeveritySummary.ofSeverities (findings.map (·.severity)) }

/-! ## Reports as text -/

def Severity.heading : Severity → String
  | .low => "LOW"
  | .medium => "MEDIUM"
  | .high => "HIGH"
  | .critical => "CRITICAL"

def Severity.letter : Severity → String
  | .low => "L"
  | .medium => "M"
  | .high => "H"
  | .critical => "C"

/-- The places of a finding: one for each of its lines, or the document alone. -/
def Finding.places (source : String) (finding : Finding) : String :=
  if finding.lines.isEmpty then source ++ ":"
  else " ".intercalate (finding.lines.map fun line => source ++ ":" ++ toString line ++ ":")

def Finding.textLines (source : String) (n : Nat) (finding : Finding) : List String :=
  ("  " ++ finding.places source ++ " [" ++ finding.severity.letter ++ toString n ++ "] " ++
      finding.description) ::
    finding.recommendation.toList.map fun text => "       Recommendation: " ++ text

namespace Report

/-- The findings of a grade, in order. -/
def findingsOf (report : Report) (severity : Severity) : List Finding :=
  report.findings.filter fun finding => finding.severity == severity

/-- The lines for the findings of a grade; none where there are none. -/
def sectionLines (report : Report) (severity : Severity) : List String :=
  let findings := report.findingsOf severity
  if findings.isEmpty then []
  else
    (severity.heading ++ " (" ++ toString findings.length ++ ")") ::
      (findings.zipIdx.flatMap fun (finding, i) =>
        finding.textLines report.metadata.source (i + 1)) ++ [""]

def headLines (report : Report) : List String :=
  ["Contract Analysis Report",
   String.ofList (List.replicate 60 '='),
   "Source: " ++ report.metadata.source ++ " (" ++ toString report.metadata.clauseCount ++
     " clauses, " ++ toString report.metadata.partyCount ++ " parties)",
   ""]

def summaryLine (report : Report) : String :=
  "Summary: " ++ toString (report.summary.count .critical + report.summary.count .high) ++
    " critical/high, " ++ toString (report.summary.count .medium) ++ " medium, " ++
    toString (report.summary.count .low) ++ " low anomalies found."

/-- A report as text; the last line is not ended. -/
def text (report : Report) : String :=
  "\n".intercalate
    (report.headLines ++ Severity.descending.flatMap report.sectionLines ++ [report.summaryLine])

end Report

end ContractAnalysis
