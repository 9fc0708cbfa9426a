import ContractAnalysis.Proofs.Keys
import ContractAnalysis.Proofs.Severity
import ContractAnalysis.Report

/-!
# The sections of a text report

A text report is read as sections of entries (`ReportSection`, `ReportEntry`). The sections of a
report show all of its findings, each once, under their grades and with numbers that agree with the
summary (`Report.Shows`, `Report.shows_sections`): the findings of the grades divide all findings
among them, and a grade without findings has neither a section nor a number in the summary.
-/

namespace ContractAnalysis

/-! ## Sections -/

/-- The label of a grade in capitals: the heading of its section, whose first letter stands before
the numbers of its findings. -/
def Severity.capitals (severity : Severity) : List Char := severity.label.toList.map Char.toUpper

theorem Severity.heading_eq (severity : Severity) :
    severity.heading = String.ofList severity.capitals := by
  cases severity <;> decide

theorem Severity.letter_eq (severity : Severity) :
    severity.letter = String.ofList (severity.capitals.take 1) := by
  cases severity <;> decide

/-- A finding as it is listed: with its number in its section and its places in the document. -/
structure ReportEntry where
  number : Nat
  places : List String
  finding : Finding

/-- What is listed under a grade. -/
structure ReportSection where
  severity : Severity
  entries : List ReportEntry

/-- The lines of an entry: the finding, and what is recommended, if anything is. -/
def ReportEntry.textLines (severity : Severity) (entry : ReportEntry) : List String :=
  ("  " ++ " ".intercalate entry.places ++ " [" ++ String.ofList (severity.capitals.take 1) ++
      toString entry.number ++ "] " ++ entry.finding.description) ::
    entry.finding.recommendation.toList.map fun text => "       Recommendation: " ++ text

namespace ReportSection

def findings (s : ReportSection) : List Finding := s.entries.map (·.finding)

def size (s : ReportSection) : Nat := s.entries.length

/-- The lines of a section: the grade and the number of entries, the entries, and an empty line. -/
def textLines (s : ReportSection) : List String :=
  (String.ofList s.severity.capitals ++ " (" ++ toString s.size ++ ")") ::
    s.entries.flatMap (ReportEntry.textLines s.severity) ++ [""]

end ReportSection

/-- How many entries there are under a grade. -/
def sizeUnder (sections : List ReportSection) (severity : Severity) : Nat :=
  ((sections.filter fun s => s.severity == severity).map ReportSection.size).sum

/-- The last line of a report, by the sizes of its sections. -/
def summaryOf (sections : List ReportSection) : String :=
  "Summary: " ++ toString (sizeUnder sections .critical + sizeUnder sections .high) ++
    " critical/high, " ++ toString (sizeUnder sections .medium) ++ " medium, " ++
    toString (sizeUnder sections .low) ++ " low anomalies found."

theorem sum_size_of_perm {sections : List ReportSection} {findings : List Finding}
    (h : (sections.flatMap ReportSection.findings).Perm findings) :
    (sections.map ReportSection.size).sum = findings.length := by
  rw [← h.length_eq, List.length_flatMap]
  simp only [ReportSection.findings, List.length_map]
  rfl

namespace Report

/-- The grades that occur, from critical to low. -/
def severities (report : Report) : List Severity :=
  Severity.descending.filter fun severity => severity ∈ report.findings.map (·.severity)

/-- The places of a finding: one for each of its lines, or the document alone. -/
def placesOf (report : Report) (finding : Finding) : List String :=
  if finding.lines = [] then [report.metadata.source ++ ":"]
  else finding.lines.map fun line => report.metadata.source ++ ":" ++ toString line ++ ":"

/-- The text of a report shows its findings in these sections. -/
structure Shows (report : Report) (sections : List ReportSection) : Prop where
  /-- There is a section for each grade that occurs, from critical to low. -/
  severities : sections.map (·.severity) = report.severities
  /-- A section lists the findings of its grade in the order of the report, and no others. -/
  findings : ∀ s ∈ sections,
    s.findings = report.findings.filter fun finding => finding.severity == s.severity
  /-- All findings are listed, each once. -/
  once : (sections.flatMap ReportSection.findings).Perm report.findings
  numbers : ∀ s ∈ sections, s.entries.map (·.number) = List.range' 1 s.size
  places : ∀ s ∈ sections, ∀ entry ∈ s.entries, entry.places = report.placesOf entry.finding
  counts : ∀ severity, report.summary.count severity = sizeUnder sections severity
  /-- The numbers of the summary line add up to the number of all findings. -/
  total : (Severity.descending.map (sizeUnder sections)).sum = report.summary.total
  /-- So do the numbers of the headings. -/
  sizes : (sections.map ReportSection.size).sum = report.summary.total
  text : report.text = "\n".intercalate
    (report.headLines ++ sections.flatMap ReportSection.textLines ++ [summaryOf sections])

/-! ## The sections of a report -/

def sectionOf (report : Report) (severity : Severity) : ReportSection where
  severity
  entries := (report.findingsOf severity).zipIdx.map fun (finding, i) =>
    ⟨i + 1, report.placesOf finding, finding⟩

def sections (report : Report) : List ReportSection := report.severities.map report.sectionOf

variable (report : Report)

theorem findings_sectionOf (severity : Severity) :
    (report.sectionOf severity).findings = report.findingsOf severity := by
  rw [ReportSection.findings, sectionOf, List.map_map]
  exact List.zipIdx_map_fst 0 _

theorem size_sectionOf (severity : Severity) :
    (report.sectionOf severity).size = (report.findingsOf severity).length := by
  rw [ReportSection.size, sectionOf, List.length_map, List.length_zipIdx]

theorem numbers_sectionOf (severity : Severity) :
    (report.sectionOf severity).entries.map (·.number) =
      List.range' 1 (report.sectionOf severity).size := by
  rw [size_sectionOf, sectionOf, List.map_map, ← List.zipIdx_map_snd 1, List.zipIdx_succ,
    List.map_map]
  rfl

theorem places_sectionOf {severity : Severity} {entry : ReportEntry}
    (h : entry ∈ (report.sectionOf severity).entries) :
    entry.places = report.placesOf entry.finding := by
  obtain ⟨⟨finding, i⟩, -, rfl⟩ := List.mem_map.mp h
  rfl

theorem places_eq (finding : Finding) :
    finding.places report.metadata.source = " ".intercalate (report.placesOf finding) := by
  rw [Finding.places, placesOf]
  simp only [List.isEmpty_iff]
  split_ifs <;> simp

theorem findingsOf_eq_nil_iff {severity : Severity} :
    report.findingsOf severity = [] ↔ severity ∉ report.findings.map (·.severity) := by
  simp only [findingsOf, List.filter_eq_nil_iff, beq_iff_eq, List.mem_map, not_exists, not_and]

theorem forall_mem_sections {p : ReportSection → Prop}
    (h : ∀ severity, p (report.sectionOf severity)) : ∀ s ∈ report.sections, p s :=
  List.forall_mem_map.mpr fun severity _ => h severity

theorem sectionLines_eq (severity : Severity) :
    report.sectionLines severity =
      if severity ∈ report.findings.map (·.severity) then (report.sectionOf severity).textLines
      else [] := by
  unfold sectionLines
  simp only [List.isEmpty_iff, findingsOf_eq_nil_iff, ite_not]
  refine if_congr Iff.rfl ?_ rfl
  have hentries : (report.sectionOf severity).entries.flatMap (ReportEntry.textLines severity) =
      (report.findingsOf severity).zipIdx.flatMap fun (finding, i) =>
        finding.textLines report.metadata.source (i + 1) := by
    rw [sectionOf, List.flatMap_map]
    refine List.flatMap_congr fun ⟨finding, i⟩ hmem => ?_
    have hfinding : finding ∈ report.findingsOf severity := List.fst_mem_of_mem_zipIdx hmem
    have hseverity : finding.severity = severity := beq_iff_eq.mp (List.mem_filter.mp hfinding).2
    simp only [ReportEntry.textLines, Finding.textLines, places_eq, hseverity, Severity.letter_eq]
  rw [ReportSection.textLines, size_sectionOf, severity.heading_eq]
  exact congrArg (fun lines => _ :: lines ++ [""]) hentries.symm

theorem flatMap_sectionLines :
    Severity.descending.flatMap report.sectionLines =
      report.sections.flatMap ReportSection.textLines := by
  rw [sections, List.flatMap_map]
  refine flatMap_filter_of_skips (fun severity _ hoccurs => ?_) fun severity _ hoccurs => ?_
  · rw [sectionLines_eq, if_pos (of_decide_eq_true hoccurs)]
  · rw [sectionLines_eq, if_neg (of_decide_eq_false hoccurs)]

theorem perm_flatMap_sections :
    (report.sections.flatMap ReportSection.findings).Perm report.findings := by
  have hgrades : Severity.descending.Nodup := by decide
  have hsections : report.sections.flatMap ReportSection.findings =
      Severity.descending.flatMap report.findingsOf := by
    rw [sections, List.flatMap_map]
    refine (flatMap_filter_of_skips (fun severity _ _ => ?_) fun severity _ hoccurs => ?_).symm
    · exact (report.findings_sectionOf severity).symm
    · exact report.findingsOf_eq_nil_iff.mpr (of_decide_eq_false hoccurs)
  rw [hsections]
  exact (perm_flatMap_filter Finding.severity hgrades fun finding _ =>
    Severity.mem_descending finding.severity).symm

theorem sizeUnder_sections (severity : Severity) :
    sizeUnder report.sections severity = (report.findingsOf severity).length := by
  have hgrades : report.severities.Nodup := List.Nodup.filter _ (by decide)
  have hsame : (fun s : ReportSection => s.severity == severity) ∘ report.sectionOf =
      (· == severity) := rfl
  rw [sizeUnder, sections, List.filter_map, hsame, List.filter_beq, hgrades.count]
  split_ifs with hoccurs
  · rw [List.replicate_one, List.map_singleton, List.map_singleton, List.sum_singleton,
      size_sectionOf]
  · have hnone : severity ∉ report.findings.map (·.severity) := fun hmem =>
      hoccurs (List.mem_filter.mpr ⟨Severity.mem_descending severity, decide_eq_true hmem⟩)
    rw [report.findingsOf_eq_nil_iff.mpr hnone]
    rfl

/-- A report with the summary of its findings is shown in its sections. -/
theorem shows_sections
    (hsummary : report.summary = SeveritySummary.ofSeverities (report.findings.map (·.severity))) :
    report.Shows report.sections := by
  have hcounts : ∀ severity, report.summary.count severity =
      sizeUnder report.sections severity := by
    intro severity
    rw [hsummary, SeveritySummary.count_ofSeverities, sizeUnder_sections, findingsOf, List.count,
      List.countP_map, List.countP_eq_length_filter]
    rfl
  have htotal : report.summary.total = report.findings.length := by
    rw [hsummary]
    exact List.length_map _
  refine
    { severities := ?grades
      findings := report.forall_mem_sections report.findings_sectionOf
      once := report.perm_flatMap_sections
      numbers := report.forall_mem_sections report.numbers_sectionOf
      places := report.forall_mem_sections fun _ _ => report.places_sectionOf
      counts := hcounts
      total := ?total
      sizes := (sum_size_of_perm report.perm_flatMap_sections).trans htotal.symm
      text := ?text }
  case grades =>
    rw [sections, List.map_map]
    exact List.map_id _
  case total =>
    have hsum := SeveritySummary.sum_count_ofSeverities (report.findings.map (·.severity))
    rw [← hsummary, funext hcounts] at hsum
    have horder : Severity.descending.Perm Severity.ascending := by decide
    rw [(horder.map _).sum_nat, hsum, List.length_map, htotal]
  case text =>
    rw [Report.text, flatMap_sectionLines, summaryLine, summaryOf]
    simp only [hcounts]

end Report

end ContractAnalysis
