import ContractAnalysis.Proofs.Compilation
import ContractAnalysis.Proofs.Detection.Lines
import ContractAnalysis.Proofs.Outline
import ContractAnalysis.Proofs.Sighting

/-!
# Lines of clauses, facts and findings

A fact is looked for on the lines of its clause, and these are lines of the document. So whatever
line a node records is a line of the document, and since findings take their lines from nodes, so
are the lines of findings (`lines_in_document`).
-/

namespace ContractAnalysis

open Text

def Document.HasLine (document : Document) (n : Nat) : Prop := 1 ≤ n ∧ n ≤ document.lineCount

theorem Document.hasLine_of_mem {document : Document} {n : Nat} {line : List Char}
    (h : ⟨n, line⟩ ∈ NumberedLine.ofText document.content.toList) : document.HasLine n :=
  NumberedLine.number_of_mem_ofText h

namespace Clause.IsPlaced

variable {clause : Clause} {text : String} {first : Nat}

theorem exists_line_of_piece (h : clause.IsPlaced text first) {k : Nat} {piece : List Char}
    (hpiece : (pieces clause.scanText.toList)[k]? = some piece) :
    ∃ line, ⟨first + k, line⟩ ∈ NumberedLine.ofText text.toList ∧ piece <:+: line := by
  by_cases hbody : clause.body = ""
  · obtain ⟨hscan, line, hline, hsuffix⟩ := h.title hbody
    have htitle : clause.title.toList <:+: line := hsuffix.isInfix.trans (pads_trimEnd line).isInfix
    -- A title is a part of a line, and so is a single piece.
    have hfeed : '\n' ∉ clause.title.toList := fun hmem =>
      NumberedLine.feed_notMem_of_mem_ofText hline (htitle.subset hmem)
    rw [hscan, pieces_of_feed_notMem hfeed, List.getElem?_singleton,
      Option.ite_none_right_eq_some] at hpiece
    obtain ⟨rfl, heq⟩ := hpiece
    exact ⟨line, hline, Option.some.inj heq ▸ htitle⟩
  · obtain ⟨line, hline, hpads⟩ := h.body hbody k piece hpiece
    exact ⟨line, hline, hpads.isInfix⟩

theorem exists_line_of_scanned (h : clause.IsPlaced text first) (hbody : clause.body ≠ "") {k : Nat}
    {scanned : List Char} (hscanned : (lines clause.scanText.toList)[k]? = some scanned) :
    ∃ line, ⟨first + k, line⟩ ∈ NumberedLine.ofText text.toList ∧
      trimChars scanned = trimChars line := by
  obtain ⟨piece, hpiece, hcut⟩ := getElem?_lines hscanned
  obtain ⟨line, hline, hpads⟩ := h.body hbody k piece hpiece
  refine ⟨line, hline, ?_⟩
  rcases hcut with rfl | rfl
  · exact hpads.trimChars_eq
  · exact ((pads_dropReturn piece).trans hpads).trimChars_eq

theorem hasLine {document : Document} (h : clause.IsPlaced document.content first) :
    document.HasLine first := by
  obtain ⟨piece, rest, hpieces⟩ := List.exists_cons_of_ne_nil
    (pieces_ne_nil clause.scanText.toList)
  obtain ⟨line, hline, -⟩ := h.exists_line_of_piece (k := 0) (by rw [hpieces]; rfl)
  exact Document.hasLine_of_mem hline

theorem hasLine_lineOf {document : Document} (h : clause.IsPlaced document.content first)
    (phrase : String) : document.HasLine (first + lineOf (scanLines clause) phrase) := by
  rw [lineOf]
  cases hshown : (scanLines clause).findIdx?
      (occursIn (lowercaseChars (phrase.toList.take locatingLength))) with
  | none => exact h.hasLine
  | some k =>
    obtain ⟨hlt, -⟩ := List.findIdx?_eq_some_iff_getElem.mp hshown
    rw [scanLines, List.length_map] at hlt
    obtain ⟨piece, hpiece, -⟩ := getElem?_lines (List.getElem?_eq_getElem hlt)
    obtain ⟨line, hline, -⟩ := h.exists_line_of_piece hpiece
    exact Document.hasLine_of_mem hline

end Clause.IsPlaced

/-! ## Facts -/

theorem FactRule.line_build {rule : FactRule} (h : rule ∈ FactRule.standard) :
    ∀ (id : String) (phrases : FactMatch) (line : Option Nat),
      (rule.build id phrases line).line = line := by
  rcases mem_standard.mp h with rfl | rfl | rfl
  · exact fun _ _ _ => rfl
  · exact fun _ _ _ => rfl
  · exact fun _ _ _ => rfl

theorem line_of_sighting {clauses : List Clause} {s : Sighting}
    (hs : s ∈ sightingsIn FactRule.standard clauses) {first : Nat}
    (hline : s.clause.line = some first) (n : Nat) :
    (s.hit.node n).line =
      some (first + lineOf (scanLines s.clause) (s.phrases.anchored s.rule.anchor)) := by
  refine (FactRule.line_build (mem_of_mem_sightingsIn hs).2.1 _ _ _).trans ?_
  rw [Hit.locate, Sighting.hit, hline, Option.map_some]

theorem hasLine_of_fact {document : Document} {fact : Node}
    (h : fact ∈ (extract FactRule.standard (clausesOf document.content)).nodes) :
    ∃ n, fact.line = some n ∧ document.HasLine n := by
  obtain ⟨s, hs, n, rfl⟩ := exists_sighting_of_mem_nodes h
  obtain ⟨first, hplaced⟩ := exists_isPlaced (mem_of_mem_sightingsIn hs).1
  exact ⟨_, line_of_sighting hs hplaced.line_eq n, hplaced.hasLine_lineOf _⟩

/-- **Clauses, facts and findings record lines of the document.** -/
theorem lines_in_document (document : Document) :
    (∀ clause ∈ clausesOf document.content, ∃ first, clause.line = some first ∧
      document.HasLine first ∧
      (clause.body ≠ "" → ∀ k scanned, (lines clause.scanText.toList)[k]? = some scanned →
        ∃ line, ⟨first + k, line⟩ ∈ NumberedLine.ofText document.content.toList ∧
          trimChars scanned = trimChars line) ∧
      (clause.body = "" → ∃ line, ⟨first, line⟩ ∈ NumberedLine.ofText document.content.toList ∧
        clause.title.toList <:+ trimEnd line)) ∧
    ∃ contract, compile FactRule.standard document = .ok contract ∧
      (∀ node ∈ contract.graph.nodes, ∃ n, node.line = some n ∧ document.HasLine n) ∧
      ∀ finding ∈ contract.findings, ∀ n ∈ finding.lines, document.HasLine n := by
  have hplaced : ∀ clause ∈ clausesOf document.content,
      ∃ first, clause.IsPlaced document.content first := fun _ => exists_isPlaced
  obtain ⟨contract, hcompile, hclauses, hnodes, -, hfindings⟩ :=
    compile_eq_ok (fun _ => FactRule.keepsId_of_mem_standard) document
  rw [hclauses] at hnodes
  have hlines : ∀ node ∈ contract.graph.nodes, ∃ n, node.line = some n ∧ document.HasLine n := by
    intro node hnode
    rw [hnodes] at hnode
    rcases List.mem_append.mp hnode with hclause | hfact
    · obtain ⟨clause, hmem, rfl⟩ := List.mem_map.mp hclause
      obtain ⟨first, h⟩ := hplaced clause hmem
      exact ⟨first, h.line_eq, h.hasLine⟩
    · exact hasLine_of_fact hfact
  refine ⟨fun clause hclause => ?_, contract, hcompile, hlines, fun finding hfinding n hn => ?_⟩
  · obtain ⟨first, h⟩ := hplaced clause hclause
    exact ⟨first, h.line_eq, h.hasLine, fun hbody k _ => h.exists_line_of_scanned hbody,
      fun hbody => (h.title hbody).2⟩
  · rw [hfindings] at hfinding
    obtain ⟨node, hnode, -, hline⟩ :=
      ((Graph.hasLinesOf_of_mem_findingsOf hfinding).mem_iff n).mp hn
    obtain ⟨m, hm, hin⟩ := hlines node hnode
    exact Option.some.inj (hm.symm.trans hline) ▸ hin

end ContractAnalysis
