import ContractAnalysis.Proofs.Detection.Descriptions
import ContractAnalysis.Proofs.Report.Sections

/-!
# The lines of a text report

Without a reviewer nothing is recommended, and no description has a line feed of its own. So in the
report on a document every finding is one line, if the name of the document is on one line
(`exists_run_alone`, `Report.exists_line_of_entry`), and the lines of the report are known from the
number of its sections and of its findings (`findings_shown`).
-/

namespace ContractAnalysis

open Text

/-- Every entry of a section is written on one line. -/
def ReportSection.LinePerEntry (s : ReportSection) : Prop :=
  ∀ entry ∈ s.entries, ∃ line, entry.textLines s.severity = [line] ∧ IsOneLine line

/-! ## What is written -/

namespace Report

variable {report : Report}

theorem isOneLine_placesOf (hsource : IsOneLine report.metadata.source) (finding : Finding) :
    ∀ place ∈ report.placesOf finding, IsOneLine place := by
  have hcolon : IsOneLine ":" := by decide
  unfold placesOf
  split_ifs
  · simp [hsource, hcolon]
  · simp [hsource, hcolon]

theorem exists_line_of_entry (hsource : IsOneLine report.metadata.source) {entry : ReportEntry}
    (hplaces : entry.places = report.placesOf entry.finding)
    (hrecommendation : entry.finding.recommendation = none)
    (hdescription : IsOneLine entry.finding.description) (severity : Severity) :
    ∃ line, entry.textLines severity = [line] ∧ IsOneLine line := by
  have hletter : IsOneLine (String.ofList (severity.capitals.take 1)) := by
    cases severity <;> decide
  have hjoined : IsOneLine (" ".intercalate entry.places) :=
    IsOneLine.intercalate (by decide) (hplaces ▸ isOneLine_placesOf hsource entry.finding)
  refine ⟨_, by rw [ReportEntry.textLines, hrecommendation]; rfl, ?_⟩
  simp only [isOneLine_append, hjoined, hletter, hdescription, Nat.toString_eq_repr,
    isOneLine_repr, and_true]
  decide

theorem isOneLine_heading (s : ReportSection) :
    IsOneLine (String.ofList s.severity.capitals ++ " (" ++ toString s.size ++ ")") := by
  have hheading : IsOneLine (String.ofList s.severity.capitals) := by
    cases s.severity <;> decide
  simp only [isOneLine_append, hheading, Nat.toString_eq_repr, isOneLine_repr, true_and, and_true]
  decide

theorem isOneLine_of_mem_headLines (hsource : IsOneLine report.metadata.source) :
    ∀ line ∈ report.headLines, IsOneLine line := by
  have hrule : IsOneLine (String.ofList (List.replicate 60 '=')) := by decide
  simp only [headLines, List.forall_mem_cons, List.not_mem_nil, false_implies, implies_true,
    isOneLine_append, hsource, hrule, Nat.toString_eq_repr, isOneLine_repr, and_true]
  decide

theorem isOneLine_summaryOf (sections : List ReportSection) : IsOneLine (summaryOf sections) := by
  simp only [summaryOf, isOneLine_append, Nat.toString_eq_repr, isOneLine_repr, and_true]
  decide

theorem lines_of_textLines {s : ReportSection} (h : s.LinePerEntry) :
    s.textLines.length = s.size + 2 ∧ ∀ line ∈ s.textLines, IsOneLine line := by
  have hlengths : s.entries.map (fun entry => (entry.textLines s.severity).length) =
      s.entries.map fun _ => 1 := by
    refine List.map_congr_left fun entry hentry => ?_
    obtain ⟨line, hline, -⟩ := h entry hentry
    rw [hline, List.length_singleton]
  constructor
  · rw [ReportSection.textLines, List.length_append, List.length_cons, List.length_flatMap,
      hlengths, List.map_const', List.sum_replicate_nat, Nat.mul_one]
    rfl
  · intro line hline
    rw [ReportSection.textLines, List.mem_append, List.mem_cons, List.mem_flatMap,
      List.mem_singleton] at hline
    rcases hline with (rfl | ⟨entry, hentry, hmem⟩) | rfl
    · exact isOneLine_heading s
    · obtain ⟨only, honly, hone⟩ := h entry hentry
      rw [honly, List.mem_singleton] at hmem
      exact hmem ▸ hone
    · decide

theorem length_flatMap_textLines {sections : List ReportSection}
    (h : ∀ s ∈ sections, s.textLines.length = s.size + 2) :
    (sections.flatMap ReportSection.textLines).length =
      (sections.map ReportSection.size).sum + 2 * sections.length := by
  induction sections with
  | nil => rfl
  | cons s sections ih =>
    obtain ⟨hfirst, hrest⟩ := List.forall_mem_cons.mp h
    rw [List.flatMap_cons, List.length_append, hfirst, ih hrest, List.map_cons, List.sum_cons,
      List.length_cons]
    omega

/-- Where every entry is one line, a report has two more lines for each section, four at its start
and one at its end. -/
theorem length_lines_text {sections : List ReportSection} (h : report.Shows sections)
    (hsource : IsOneLine report.metadata.source) (hentries : ∀ s ∈ sections, s.LinePerEntry) :
    (lines report.text.toList).length =
      5 + 2 * report.severities.length + report.findings.length := by
  have hlength := length_flatMap_textLines fun s hs => (lines_of_textLines (hentries s hs)).1
  have hlines : ∀ line ∈ report.headLines ++ sections.flatMap ReportSection.textLines ++
      [summaryOf sections], IsOneLine line := by
    rw [List.forall_mem_append, List.forall_mem_append, List.forall_mem_flatMap,
      List.forall_mem_singleton]
    exact ⟨⟨isOneLine_of_mem_headLines hsource, fun s hs => (lines_of_textLines (hentries s hs)).2⟩,
      isOneLine_summaryOf sections⟩
  have hsummary : summaryOf sections ≠ "" := by simp [summaryOf]
  rw [h.text, length_lines_joined hlines List.getLast?_concat hsummary, List.length_append,
    List.length_append, hlength, sum_size_of_perm h.once, ← h.severities, List.length_map,
    List.length_singleton]
  have hhead : report.headLines.length = 4 := rfl
  omega

end Report

/-! ## Reports on documents -/

theorem exists_run_alone (stamp : Stamp) (document : Document) :
    ∃ outcome, Analyst.run ⟨FactRule.standard, none⟩ stamp document = .ok outcome ∧
      outcome.report.metadata.source = document.source ∧
      outcome.report.summary =
        SeveritySummary.ofSeverities (outcome.report.findings.map (·.severity)) ∧
      ∀ finding ∈ outcome.report.findings,
        finding.recommendation = none ∧ IsOneLine finding.description := by
  obtain ⟨contract, hcompile, hfindings⟩ := oneLine_of_compile document
  refine ⟨_, Analyst.run_of_compile hcompile, rfl, rfl, fun finding hmem => hfindings finding ?_⟩
  rcases List.mem_append.mp hmem with hmem | hadded
  · exact hmem
  · exact absurd hadded List.not_mem_nil

/-- **A text report shows every finding once**, under its grade and numbered within it, and says how
many there are. Without a reviewer each finding is one line, so that the lines of the report on a
document whose name is on one line are counted by its sections and findings. -/
theorem findings_shown :
    (∀ stamp metadata parties graph findings, ∃ sections,
      (Report.ofFindings stamp metadata parties graph findings).Shows sections) ∧
    ∀ stamp document, IsOneLine document.source → ∃ outcome sections,
      Analyst.run ⟨FactRule.standard, none⟩ stamp document = .ok outcome ∧
      outcome.report.Shows sections ∧ (∀ s ∈ sections, s.LinePerEntry) ∧
      (lines outcome.report.text.toList).length =
        5 + 2 * outcome.report.severities.length + outcome.report.findings.length := by
  refine ⟨fun stamp metadata parties graph findings => ⟨_, Report.shows_sections _ rfl⟩,
    fun stamp document hsource => ?_⟩
  obtain ⟨outcome, hrun, hdocument, hsummary, hfindings⟩ := exists_run_alone stamp document
  have hshows := outcome.report.shows_sections hsummary
  rw [← hdocument] at hsource
  have hentries : ∀ s ∈ outcome.report.sections, s.LinePerEntry := by
    intro s hs entry hentry
    have hmem : entry.finding ∈ outcome.report.findings :=
      hshows.once.subset (List.mem_flatMap.mpr ⟨s, hs, List.mem_map_of_mem hentry⟩)
    obtain ⟨hrecommendation, hdescription⟩ := hfindings _ hmem
    exact Report.exists_line_of_entry hsource (hshows.places s hs entry hentry) hrecommendation
      hdescription s.severity
  exact ⟨outcome, _, hrun, hshows, hentries, Report.length_lines_text hshows hsource hentries⟩

/-- A condition that is not used and cites a clause that is not there. -/
theorem findings_shown_lease :
    let document : Document := ⟨"lease.txt", "If clause 9 ends, rent is due."⟩
    IsOneLine document.source ∧ ∃ outcome,
      Analyst.run ⟨FactRule.standard, none⟩ .zero document = .ok outcome ∧
      outcome.report.severities = [.high, .medium] ∧
      (lines outcome.report.text.toList).length = 11 := by
  intro document
  have hsource : IsOneLine document.source := by decide
  obtain ⟨outcome, sections, hrun, -, -, hlines⟩ := findings_shown.2 .zero document hsource
  obtain ⟨outcome', hrun', hgrades, hlength⟩ : ∃ outcome,
      Analyst.run ⟨FactRule.standard, none⟩ .zero document = .ok outcome ∧
      outcome.report.severities = [.high, .medium] ∧ outcome.report.findings.length = 2 :=
    exists_ok_of_any (by decide +kernel)
  obtain rfl := Except.ok.inj (hrun.symm.trans hrun')
  exact ⟨hsource, outcome, hrun, hgrades, by rw [hlines, hgrades, hlength]; rfl⟩

end ContractAnalysis
