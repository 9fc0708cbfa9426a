import ContractAnalysis.Analysis
import ContractAnalysis.Codec.Node
import ContractAnalysis.Json.Value

/-!
# Findings and reports in JSON

* `Finding.toJson`, `Finding.decoder`, and the same for the other types of this module
* `Report.toJson`, `Report.decoder`: reports
* `Report.json`: a report as indented JSON text
-/

namespace ContractAnalysis

open Json

def Severity.decoder : Decoder Severity := .named Severity.ofLabel?

def Origin.decoder : Decoder Origin := .named Origin.ofLabel?

/-- A finding in JSON; without the field of a recommendation where there is none. -/
def Finding.toJson (f : Finding) : Value :=
  .object (
    [("type", .string f.defect.label), ("severity", .string f.severity.label),
     ("description", .string f.description), ("involved_nodes", .strings f.involved),
     ("lines", .array (f.lines.map .natural))] ++
    (f.recommendation.toList.map fun text => ("recommendation", .string text)) ++
    [("source", .string f.origin.label)])

def Finding.decoder : Decoder Finding :=
  .record ["type", "severity", "description", "involved_nodes", "lines", "recommendation",
      "source"] 7 fun fields => do
    let defect ← fields.required "type" .string
    let severity ← fields.required "severity" Severity.decoder
    let description ← fields.required "description" .string
    let involved ← fields.required "involved_nodes" (.list .string)
    let lines ← fields.withDefault "lines" (.list .natural32) []
    let recommendation ← fields.optional "recommendation" .string
    let origin ← fields.required "source" Origin.decoder
    return {
      defect := Defect.ofLabel defect
      severity, description, involved, lines, recommendation, origin }

def Metadata.toJson (m : Metadata) : Value :=
  .object [("source_file", .string m.source), ("clause_count", .natural m.clauseCount),
    ("party_count", .natural m.partyCount)]

def Metadata.decoder : Decoder Metadata :=
  .record ["source_file", "clause_count", "party_count"] 3 fun fields => do
    let source ← fields.required "source_file" .string
    let clauseCount ← fields.required "clause_count" .natural64
    let partyCount ← fields.required "party_count" .natural64
    return { source, clauseCount, partyCount }

/-- The numbers of grades in JSON, from low to critical. -/
def SeverityCounts.toJson (counts : SeverityCounts) : Value :=
  .object (counts.toList.map fun (severity, n) => (severity.label, .natural n))

/-- Reads the numbers of grades; of a grade given twice the last number counts. -/
def SeverityCounts.decoder : Decoder SeverityCounts
  | depth + 1, .object fields true =>
    fields.foldlM (fun counts field => do
      let severity ← field.1.bind Severity.ofLabel?
      let n ← Decoder.natural64 depth field.2
      return counts.set severity n) {}
  | _, _ => none

def SeveritySummary.toJson (s : SeveritySummary) : Value :=
  .object [("total", .natural s.total), ("by_severity", s.bySeverity.toJson)]

def SeveritySummary.decoder : Decoder SeveritySummary :=
  .record ["total", "by_severity"] 2 fun fields => do
    let total ← fields.required "total" .natural64
    let bySeverity ← fields.required "by_severity" SeverityCounts.decoder
    return { total, bySeverity }

def RunId.decoder : Decoder RunId := .mapOption .string RunId.ofText?

def Timestamp.decoder : Decoder Timestamp := .mapOption .string Timestamp.ofText?

/-- The fields of a report but for its stamp. -/
def Report.content (r : Report) : List (String × Value) :=
  [("metadata", r.metadata.toJson), ("parties", .strings r.parties), ("graph", r.graph.toJson),
   ("anomalies", .array (r.findings.map Finding.toJson)), ("summary", r.summary.toJson)]

def Stamp.fields (s : Stamp) : List (String × Value) :=
  [("run_id", .string s.runId.render), ("generated_at", .string s.generatedAt.render)]

def Report.toJson (r : Report) : Value := .object (r.stamp.fields ++ r.content)

def Report.decoder : Decoder Report :=
  .record ["run_id", "generated_at", "metadata", "parties", "graph", "anomalies", "summary"] 7
    fun fields => do
      let runId ← fields.required "run_id" RunId.decoder
      let generatedAt ← fields.required "generated_at" Timestamp.decoder
      let metadata ← fields.required "metadata" Metadata.decoder
      let parties ← fields.required "parties" (.list .string)
      let graph ← fields.required "graph" Projection.decoder
      let findings ← fields.required "anomalies" (.list Finding.decoder)
      let summary ← fields.required "summary" SeveritySummary.decoder
      return { stamp := ⟨runId, generatedAt⟩, metadata, parties, graph, findings, summary }

def Report.json (r : Report) : String := r.toJson.pretty

/-- What a reviewer is shown, in JSON. -/
def ReviewRequest.toJson (r : ReviewRequest) : Value :=
  .object [("graph", r.graph.toJson), ("original_text", .string r.text),
    ("symbolic_anomalies", .array (r.findings.map Finding.toJson))]

def ReviewRequest.decoder : Decoder ReviewRequest :=
  .record ["graph", "original_text", "symbolic_anomalies"] 3 fun fields => do
    let graph ← fields.required "graph" Projection.decoder
    let text ← fields.required "original_text" .string
    let findings ← fields.required "symbolic_anomalies" (.list Finding.decoder)
    return { graph, text, findings }

end ContractAnalysis
