import ContractAnalysis.Proofs.Codec.Report
import ContractAnalysis.Proofs.Detection.Kinds
import ContractAnalysis.Proofs.Division
import ContractAnalysis.Proofs.Location

/-!
# The range of the numbers in a report

A text has at most one line more than it has characters, so it has no more clauses than that, and
none of a higher level. The lines of nodes and findings are its own. So what a text is compiled to
fits into the fields of a report (`CompiledContract.portable`), and the report is read back from
JSON (`portable_report`), as long as the text and its findings are counted in 32 and 64 bits.
-/

namespace ContractAnalysis

open Text

theorem length_paragraphs_le (ls : List NumberedLine) : (paragraphs ls).length ≤ ls.length + 1 :=
  calc (paragraphs ls).length
    _ ≤ (ls.splitOnP NumberedLine.isBlank).length := List.length_filter_le _ _
    _ = ls.countP NumberedLine.isBlank + 1 := length_splitOnP _ ls
    _ ≤ ls.length + 1 := Nat.succ_le_succ List.countP_le_length

theorem length_clausesOf_le (text : String) : (clausesOf text).length ≤ text.length + 2 := by
  have hlines : (lines text.toList).length ≤ text.length + 1 := by
    rw [← String.length_toList]
    exact length_lines_le text.toList
  by_cases hheading : HasHeading text
  · have hlength : (clausesOf text).length = (headingsOf text).length := by
      simpa using congrArg List.length (map_heading_clausesOf hheading)
    have hheadings : (headingsOf text).length ≤ (lines text.toList).length :=
      List.length_filterMap_le _ _
    omega
  · have hlength : (NumberedLine.ofText text.toList).length = (lines text.toList).length := by
      simp [NumberedLine.ofText]
    have hparagraphs := length_paragraphs_le (NumberedLine.ofText text.toList)
    rw [clausesOf_of_not_hasHeading hheading, List.length_map, List.length_zipIdx]
    omega

theorem level_le_of_mem_clausesOf {text : String} {clause : Clause} (h : clause ∈ clausesOf text) :
    clause.level ≤ text.length + 1 := by
  by_cases hheading : HasHeading text
  · obtain ⟨line, hline, heading, hof, -, -, hlevel⟩ :=
      exists_heading_of_mem_clausesOf hheading h
    have hlength := length_le_of_mem_lines hline
    rw [String.length_toList] at hlength
    rw [hlevel]
    exact (Heading.level_le hof).trans (Nat.succ_le_succ hlength)
  · rw [clausesOf_of_not_hasHeading hheading] at h
    obtain ⟨⟨p, i⟩, -, rfl⟩ := List.mem_map.mp h
    exact Nat.le_add_left 1 _

theorem Document.HasLine.lt {document : Document} {n : Nat} (h : document.HasLine n)
    (htext : document.content.length + 1 < Nat.pow 2 32) : n < Nat.pow 2 32 := by
  have hlines := length_lines_le document.content.toList
  rw [String.length_toList] at hlines
  exact (h.2.trans hlines).trans_lt htext

/-! ## What is compiled -/

/-- The numbers in what a document is compiled to have the bits of their fields. -/
structure CompiledContract.Portable (contract : CompiledContract) : Prop where
  clauses : contract.clauses.length < Nat.pow 2 64
  parties : contract.parties.length < Nat.pow 2 64
  graph : contract.graph.projection.Portable
  findings : ∀ f ∈ contract.findings, f.Portable

section

variable {document : Document}

theorem Document.HasLine.lineFits (htext : document.content.length + 1 < Nat.pow 2 32)
    {line : Option Nat} (h : ∃ n, line = some n ∧ document.HasLine n) : LineFits line := by
  obtain ⟨n, rfl, hline⟩ := h
  intro m hm
  exact Option.mem_some.mp hm ▸ hline.lt htext

theorem FactRule.portable_build {rule : FactRule} (h : rule ∈ FactRule.standard) (id : String)
    (phrases : FactMatch) {line : Option Nat} (hline : LineFits line) :
    (rule.build id phrases line).Portable := by
  rcases mem_standard.mp h with rfl | rfl | rfl
  · exact hline
  · exact hline
  · exact hline

theorem portable_of_fact (htext : document.content.length + 1 < Nat.pow 2 32) {fact : Node}
    (h : fact ∈ (extract FactRule.standard (clausesOf document.content)).nodes) :
    fact.Portable := by
  have hline : LineFits fact.line := Document.HasLine.lineFits htext (hasLine_of_fact h)
  obtain ⟨s, hs, n, rfl⟩ := exists_sighting_of_mem_nodes h
  have hrule : s.hit.rule ∈ FactRule.standard := (mem_of_mem_sightingsIn hs).2.1
  rw [Hit.node, FactRule.line_build hrule] at hline
  exact FactRule.portable_build hrule _ _ hline

theorem portable_of_clause (htext : document.content.length + 1 < Nat.pow 2 32) {clause : Clause}
    (h : clause ∈ clausesOf document.content) : clause.Portable := by
  obtain ⟨first, hline, hin, -⟩ := (lines_in_document document).1 clause h
  exact ⟨(level_le_of_mem_clausesOf h).trans_lt htext,
    Document.HasLine.lineFits htext ⟨first, hline, hin⟩⟩

/-- What a document of fewer than four billion characters is compiled to keeps to the range of
the fields. -/
theorem CompiledContract.portable (htext : document.content.length + 1 < Nat.pow 2 32)
    {contract : CompiledContract} (hcompile : compile FactRule.standard document = .ok contract) :
    contract.Portable := by
  obtain ⟨contract', hcompile', -, hlines⟩ := (lines_in_document document).2
  obtain rfl := Except.ok.inj (hcompile'.symm.trans hcompile)
  obtain ⟨g, hg⟩ := exists_assemble_iff.mpr
    (fits_extract (fun _ => FactRule.keepsId_of_mem_standard) document.content)
  obtain rfl := Except.ok.inj ((compile_of_assemble hg).symm.trans hcompile)
  refine ⟨?_, ?_, fun node hnode => ?_, fun finding hfinding => ?_⟩
  · refine (length_clausesOf_le document.content).trans_lt ?_
    have hpow : Nat.pow 2 32 < Nat.pow 2 64 := by decide
    omega
  · exact (List.length_filter_le _ _).trans_lt (by decide)
  · replace hnode : node ∈ (clausesOf document.content).map Node.clause ++
        (extract FactRule.standard (clausesOf document.content)).nodes :=
      (assemble_eq_ok_iff.mp hg).2.1 ▸ hnode
    rcases List.mem_append.mp hnode with hclause | hfact
    · obtain ⟨clause, hmem, rfl⟩ := List.mem_map.mp hclause
      exact portable_of_clause htext hmem
    · exact portable_of_fact htext hfact
  · have hknown : ∃ kind, finding.defect = .known kind := by
      obtain ⟨check, hcheck, hmem⟩ := List.mem_flatMap.mp (findingsOf_eq g ▸ hfinding)
      exact ⟨check.1, defect_of_mem_checks hcheck hmem⟩
    obtain ⟨kind, hkind⟩ := hknown
    refine ⟨fun label hlabel => ?_, fun n hn => (hlines finding hfinding n hn).lt htext⟩
    exact Defect.noConfusion (hkind.symm.trans hlabel)

end

/-! ## Reports -/

theorem SeveritySummary.portable_ofSeverities {severities : List Severity}
    (h : severities.length < Nat.pow 2 64) : (ofSeverities severities).Portable := by
  refine ⟨h, fun severity n hn => ?_⟩
  have hcount : n = severities.count severity := by
    rw [← count_ofSeverities, count, Option.mem_def.mp hn]
    rfl
  rw [hcount]
  exact List.count_le_length.trans_lt h

/-- The report on a contract, with what a reviewer adds, is read back from JSON. -/
theorem portable_report {contract : CompiledContract} (h : contract.Portable) {stamp : Stamp}
    (hstamp : stamp.generatedAt.Exact) (source : String) {added : List Finding}
    (hadded : ∀ f ∈ added, f.Portable)
    (hcount : (contract.findings ++ added).length < Nat.pow 2 64) :
    (Report.ofFindings stamp ⟨source, contract.clauses.length, contract.parties.length⟩
      contract.parties contract.graph.projection (contract.findings ++ added)).Portable where
  generatedAt := hstamp
  metadata := ⟨h.clauses, h.parties⟩
  graph := h.graph
  findings := List.forall_mem_append.mpr ⟨h.findings, hadded⟩
  summary := SeveritySummary.portable_ofSeverities (by rwa [List.length_map])

end ContractAnalysis
