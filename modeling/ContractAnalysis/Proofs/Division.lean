import ContractAnalysis.Proofs.Nesting
import Mathlib.Data.List.Chain

/-!
# How a text is divided among its clauses

No text gets lost, and none is taken twice: what the clauses say, line by line and one after the
other, is what the lines of the document say that are not headings and stand behind the first one,
or all its lines where it has no heading (`content_clausesOf`). Each line goes to the clause of the
nearest heading above it (`SplitAtHeadings`, `Clause.IsUnder`), and without headings two lines next
to each other are in one clause just if no blank line stands between them (`SplitAtBlanks`).

The body of a clause is a run of lines, joined and trimmed, and what is trimmed away is white space.
So the body still says the same as the lines it is made of (`content_joined`).
-/

namespace ContractAnalysis

open Text

/-! ## What lines say -/

namespace Text

/-- What lines say: those that are not blank, each trimmed. -/
def content (ls : List (List Char)) : List (List Char) :=
  (ls.map trimChars).filter fun line => !line.isEmpty

theorem content_append (ls ms : List (List Char)) :
    content (ls ++ ms) = content ls ++ content ms := by
  rw [content, List.map_append, List.filter_append]
  rfl

theorem content_cons (line : List Char) (ls : List (List Char)) :
    content (line :: ls) = content [line] ++ content ls :=
  content_append [line] ls

theorem content_pads {line padded : List Char} (h : Pads line padded) :
    content [padded] = content [line] := by
  rw [content, content, List.map_singleton, List.map_singleton, h.trimChars_eq]

theorem content_of_isBlankText {ls : List (List Char)} (h : ∀ line ∈ ls, IsBlankText line) :
    content ls = [] := by
  refine List.filter_eq_nil_iff.mpr (List.forall_mem_map.mpr fun line hline => ?_)
  have htrim : trimChars line = [] := by
    rw [trimChars, trimStart_of_isBlankText (h line hline)]
    rfl
  simp [htrim]

theorem content_lines (cs : List Char) : content (lines cs) = content (pieces cs) := by
  rw [lines, ← pieces]
  induction pieces cs with
  | nil => rfl
  | cons piece ps ih =>
    cases ps with
    | nil => cases piece <;> rfl
    | cons next ps =>
      rw [linesOfPieces, content_cons, content_cons piece, ih, content_pads (pads_dropReturn piece)]
      exact List.cons_ne_nil next ps

theorem content_pieces_append_left {before : List Char} (h : IsBlankText before) (cs : List Char) :
    content (pieces (before ++ cs)) = content (pieces cs) := by
  obtain ⟨init, last, first, rest, -, hbefore, hcs, hall⟩ := pieces_append before cs
  have hblank : ∀ piece ∈ init ++ [last], IsBlankText piece := by
    intro piece hpiece c hc
    exact h c (mem_of_mem_pieces (hbefore ▸ hpiece) hc)
  obtain ⟨hinit, hlast⟩ := List.forall_mem_append.mp hblank
  have hpads : Pads first (last ++ first) :=
    ⟨last, [], by simp, hlast last List.mem_cons_self, by simp [IsBlankText]⟩
  rw [hall, hcs, content_append, content_of_isBlankText hinit, List.nil_append, content_cons,
    content_pads hpads, ← content_cons]

theorem content_pieces_append_right {after : List Char} (h : IsBlankText after) (cs : List Char) :
    content (pieces (cs ++ after)) = content (pieces cs) := by
  obtain ⟨init, last, first, rest, -, hcs, hafter, hall⟩ := pieces_append cs after
  have hblank : ∀ piece ∈ first :: rest, IsBlankText piece := by
    intro piece hpiece c hc
    exact h c (mem_of_mem_pieces (hafter ▸ hpiece) hc)
  obtain ⟨hfirst, hrest⟩ := List.forall_mem_cons.mp hblank
  have hpads : Pads last (last ++ first) := ⟨[], first, rfl, by simp [IsBlankText], hfirst⟩
  rw [hall, hcs, content_append, content_cons, content_pads hpads, content_of_isBlankText hrest,
    List.append_nil, ← content_append]

theorem content_pieces_pads {cs padded : List Char} (h : Pads cs padded) :
    content (pieces padded) = content (pieces cs) := by
  obtain ⟨before, after, rfl, hbefore, hafter⟩ := h
  rw [content_pieces_append_right hafter, content_pieces_append_left hbefore]

end Text

namespace NumberedLine

/-- What lines of a document say. -/
def content (ls : List NumberedLine) : List (List Char) := Text.content (ls.map (·.text))

def isHeading (line : NumberedLine) : Bool := (Heading.ofLine? line.text).isSome

theorem content_append (ls ms : List NumberedLine) :
    content (ls ++ ms) = content ls ++ content ms := by
  rw [content, List.map_append, Text.content_append]
  rfl

theorem content_flatMap {α : Type} (f : α → List NumberedLine) (xs : List α) :
    content (xs.flatMap f) = xs.flatMap fun x => content (f x) := by
  induction xs with
  | nil => rfl
  | cons x xs ih => rw [List.flatMap_cons, content_append, ih, List.flatMap_cons]

theorem content_of_isBlank {ls : List NumberedLine} (h : ∀ line ∈ ls, line.isBlank = true) :
    content ls = [] :=
  content_of_isBlankText (List.forall_mem_map.mpr fun line hline =>
    List.all_eq_true.mp (h line hline))

theorem content_joined {text : List Char} {run : List NumberedLine} (h : run <:+: ofText text) :
    Text.content (lines (joined run)) = content run := by
  by_cases hne : run = []
  · rw [hne]
    rfl
  · rw [content_lines, joined, ← content_pieces_pads (pads_trimChars _),
      pieces_joinLines_texts h hne]
    rfl

end NumberedLine

/-- What a clause says, line by line. -/
def Clause.content (clause : Clause) : List (List Char) :=
  Text.content (lines clause.body.toList)

/-! ## Headings -/

/-- The line of a heading, and the lines up to the next one. -/
structure HeadedLines where
  heading : NumberedLine
  below : List NumberedLine

/-- Lines cut at the headings: those before the first heading, and each heading with the lines up
to the next one. -/
structure SplitAtHeadings (ls lead : List NumberedLine) (blocks : List HeadedLines) : Prop where
  lines_eq : ls = lead ++ blocks.flatMap fun block => block.heading :: block.below
  lead : ∀ line ∈ lead, line.isHeading = false
  heading : ∀ block ∈ blocks, block.heading.isHeading = true
  below : ∀ block ∈ blocks, ∀ line ∈ block.below, line.isHeading = false

/-- A clause takes number and title from a heading, and says what the lines under it say. -/
def Clause.IsUnder (clause : Clause) (block : HeadedLines) : Prop :=
  ∃ heading, Heading.ofLine? block.heading.text = some heading ∧
    clause.number = some heading.number ∧ clause.title = heading.title ∧
    clause.content = NumberedLine.content block.below

theorem SplitAtHeadings.below_eq {ls lead : List NumberedLine} {blocks : List HeadedLines}
    (h : SplitAtHeadings ls lead blocks) :
    (ls.dropWhile fun line => !line.isHeading).filter (fun line => !line.isHeading) =
      blocks.flatMap HeadedLines.below := by
  have hlead : ∀ line ∈ lead, (!line.isHeading) = true := by
    intro line hline
    rw [h.lead line hline]
    rfl
  have hdrop : ls.dropWhile (fun line => !line.isHeading) =
      blocks.flatMap fun block => block.heading :: block.below := by
    rw [h.lines_eq, List.dropWhile_append_of_pos hlead]
    cases hblocks : blocks with
    | nil => rfl
    | cons block rest =>
      have hheading := h.heading block (hblocks ▸ List.mem_cons_self)
      rw [List.flatMap_cons, List.cons_append, List.dropWhile_cons_of_neg (by simp [hheading])]
  rw [hdrop, List.filter_flatMap]
  refine List.flatMap_congr fun block hblock => ?_
  rw [List.filter_cons_of_neg (by simp [h.heading block hblock]), List.filter_eq_self]
  intro line hline
  rw [h.below block hblock line hline]
  rfl

/-- A section has its heading from the first line of a block, and its body says what the rest of the
block says. -/
def Section.Covers (s : Section) (block : HeadedLines) : Prop :=
  Heading.ofLine? block.heading.text = some s.heading ∧
    Text.content (lines (NumberedLine.joined s.body)) = NumberedLine.content block.below

theorem exists_blocks_of_divide {text : List Char} {ls : List NumberedLine}
    (h : ls <:+: NumberedLine.ofText text) :
    ∃ blocks, SplitAtHeadings ls (divide ls).1 blocks ∧
      List.Forall₂ Section.Covers (divide ls).2 blocks := by
  induction ls with
  | nil => exact ⟨[], ⟨rfl, by simp [divide], by simp, by simp⟩, .nil⟩
  | cons line rest ih =>
    have hrest : rest <:+: NumberedLine.ofText text := (List.suffix_cons line rest).isInfix.trans h
    obtain ⟨blocks, ⟨heq, hlead, hheading, hbelow⟩, hcovers⟩ := ih hrest
    simp only [divide]
    cases hline : Heading.ofLine? line.text with
    | some heading =>
      refine ⟨⟨line, (divide rest).1⟩ :: blocks, ⟨?_, by simp, ?_, ?_⟩, .cons ⟨hline, ?_⟩ hcovers⟩
      · rw [List.flatMap_cons, List.nil_append, List.cons_append, ← heq]
      · exact List.forall_mem_cons.mpr ⟨by simp [NumberedLine.isHeading, hline], hheading⟩
      · exact List.forall_mem_cons.mpr ⟨hlead, hbelow⟩
      · have hlead := divide_lead_prefix rest
        exact NumberedLine.content_joined (hlead.isInfix.trans hrest)
    | none =>
      refine ⟨blocks, ⟨?_, ?_, hheading, hbelow⟩, hcovers⟩
      · rw [List.cons_append, ← heq]
      · exact List.forall_mem_cons.mpr ⟨by simp [NumberedLine.isHeading, hline], hlead⟩

theorem isUnder_of_covers {sections : List Section} {blocks : List HeadedLines}
    (h : List.Forall₂ Section.Covers sections blocks) (n : Nat) (open' : List Ancestor) :
    List.Forall₂ Clause.IsUnder (clausesOfSections n open' sections) blocks := by
  induction h generalizing n open' with
  | nil => exact .nil
  | @cons s block _ _ hcovers _ ih =>
    obtain ⟨hheading, hcontent⟩ := hcovers
    refine .cons ⟨s.heading, hheading, rfl, rfl, ?_⟩ (ih _ _)
    show Text.content (lines (String.ofList (NumberedLine.joined s.body)).toList) = _
    rw [String.toList_ofList, hcontent]

theorem flatMap_content_of_isUnder {clauses : List Clause} {blocks : List HeadedLines}
    (h : List.Forall₂ Clause.IsUnder clauses blocks) :
    clauses.flatMap Clause.content = NumberedLine.content (blocks.flatMap HeadedLines.below) := by
  induction h with
  | nil => rfl
  | cons hunder _ ih =>
    obtain ⟨heading, -, -, -, hcontent⟩ := hunder
    rw [List.flatMap_cons, List.flatMap_cons, NumberedLine.content_append, hcontent, ih]

/-! ## Blank lines -/

/-- Lines that are not blank, and the blank lines behind them. -/
structure SpacedLines where
  run : List NumberedLine
  gap : List NumberedLine

/-- Lines cut at the blank ones: the blank lines before the first run, and each run of lines that
are not blank with the blank lines behind it, of which there are some between two runs. -/
structure SplitAtBlanks (ls lead : List NumberedLine) (blocks : List SpacedLines) : Prop where
  lines_eq : ls = lead ++ blocks.flatMap fun block => block.run ++ block.gap
  lead : ∀ line ∈ lead, line.isBlank = true
  run : ∀ block ∈ blocks, block.run ≠ [] ∧ ∀ line ∈ block.run, line.isBlank = false
  gap : ∀ block ∈ blocks, ∀ line ∈ block.gap, line.isBlank = true
  apart : blocks.IsChain fun block _ => block.gap ≠ []

theorem exists_runs_of_notBlank {ls : List NumberedLine} (h : ∀ line ∈ ls, line.isBlank = false) :
    ∃ lead blocks, SplitAtBlanks ls lead blocks ∧ paragraphs ls = blocks.map SpacedLines.run := by
  have hparagraphs : paragraphs ls = [ls].filter fun p => !p.isEmpty := by
    rw [paragraphs, List.splitOnP_eq_singleton h]
  cases ls with
  | nil => exact ⟨[], [], ⟨rfl, by simp, by simp, by simp, .nil⟩, hparagraphs⟩
  | cons line rest =>
    refine ⟨[], [⟨line :: rest, []⟩], ⟨by simp, by simp, ?_, by simp, .singleton _⟩, hparagraphs⟩
    exact List.forall_mem_singleton.mpr ⟨List.cons_ne_nil line rest, h⟩

theorem exists_runs_append_blank {run rest : List NumberedLine} {line : NumberedLine}
    (hrun : ∀ line ∈ run, line.isBlank = false) (hline : line.isBlank = true)
    (h : ∃ lead blocks, SplitAtBlanks rest lead blocks ∧
      paragraphs rest = blocks.map SpacedLines.run) :
    ∃ lead blocks, SplitAtBlanks (run ++ line :: rest) lead blocks ∧
      paragraphs (run ++ line :: rest) = blocks.map SpacedLines.run := by
  obtain ⟨lead, blocks, ⟨heq, hlead, hruns, hgaps, hapart⟩, hparagraphs⟩ := h
  have hblank : ∀ l ∈ line :: lead, l.isBlank = true := List.forall_mem_cons.mpr ⟨hline, hlead⟩
  have hsplit : paragraphs (run ++ line :: rest) =
      ([run].filter fun p => !p.isEmpty) ++ paragraphs rest := by
    rw [paragraphs, List.splitOnP_append_cons run rest hline, List.splitOnP_eq_singleton hrun,
      List.filter_append, paragraphs]
  cases run with
  | nil =>
    refine ⟨line :: lead, blocks, ⟨?_, hblank, hruns, hgaps, hapart⟩, hsplit.trans hparagraphs⟩
    rw [List.nil_append, List.cons_append, ← heq]
  | cons first run =>
    refine ⟨[], ⟨first :: run, line :: lead⟩ :: blocks, ⟨?_, by simp, ?_, ?_, ?_⟩, ?_⟩
    · simp only [heq, List.flatMap_cons, List.nil_append, List.cons_append, List.append_assoc]
    · exact List.forall_mem_cons.mpr ⟨⟨List.cons_ne_nil first run, hrun⟩, hruns⟩
    · exact List.forall_mem_cons.mpr ⟨hblank, hgaps⟩
    · exact List.isChain_cons.mpr ⟨fun _ _ => List.cons_ne_nil line lead, hapart⟩
    · rw [hsplit, hparagraphs]
      rfl

theorem exists_runs (ls : List NumberedLine) :
    ∃ lead blocks, SplitAtBlanks ls lead blocks ∧ paragraphs ls = blocks.map SpacedLines.run := by
  induction ls using cut_induction NumberedLine.isBlank with
  | last ls hls => exact exists_runs_of_notBlank hls
  | cut run line rest hrun hline ih => exact exists_runs_append_blank hrun hline ih

theorem SplitAtBlanks.content_eq {ls lead : List NumberedLine} {blocks : List SpacedLines}
    (h : SplitAtBlanks ls lead blocks) :
    NumberedLine.content ls = blocks.flatMap fun block => NumberedLine.content block.run := by
  rw [h.lines_eq, NumberedLine.content_append, NumberedLine.content_of_isBlank h.lead,
    List.nil_append, NumberedLine.content_flatMap]
  refine List.flatMap_congr fun block hblock => ?_
  rw [NumberedLine.content_append, NumberedLine.content_of_isBlank (h.gap block hblock),
    List.append_nil]

/-! ## Clauses -/

theorem clausesOf_of_not_hasHeading {text : String} (h : ¬HasHeading text) :
    clausesOf text = (paragraphs (NumberedLine.ofText text.toList)).zipIdx.map
      fun (p, i) => clauseOfParagraph (i + 1) p := by
  rw [hasHeading_iff, not_not] at h
  unfold clausesOf
  dsimp only
  rw [h]

theorem content_clauseOfParagraph {text : List Char} {p : List NumberedLine} (n : Nat)
    (h : p ∈ paragraphs (NumberedLine.ofText text)) :
    (clauseOfParagraph n p).content = NumberedLine.content p := by
  show Text.content (lines (String.ofList (NumberedLine.joined p)).toList) = _
  rw [String.toList_ofList]
  exact NumberedLine.content_joined (run_of_mem_paragraphs h).1

theorem map_content_of_not_hasHeading {text : String} (h : ¬HasHeading text) :
    (clausesOf text).map Clause.content =
      (paragraphs (NumberedLine.ofText text.toList)).map NumberedLine.content := by
  rw [clausesOf_of_not_hasHeading h, List.map_map]
  conv_rhs => rw [← List.zipIdx_map_fst 0 (paragraphs _), List.map_map]
  refine List.map_congr_left fun ⟨p, i⟩ hp => ?_
  simp only [Function.comp_apply]
  exact content_clauseOfParagraph (i + 1) (List.fst_mem_of_mem_zipIdx hp)

/-- **No text gets lost, is taken twice or changes its place.** In a text with headings the clauses
say one after the other what the lines behind the first heading say that are no headings, each
clause what the lines under its own heading say. In a text without headings they say what all lines
say, each clause what a run of lines says that blank lines separate from the others. -/
theorem content_clausesOf (text : String) :
    let ls := NumberedLine.ofText text.toList
    (HasHeading text →
      (clausesOf text).flatMap Clause.content =
        NumberedLine.content
          ((ls.dropWhile fun line => !line.isHeading).filter fun line => !line.isHeading) ∧
      ∃ lead blocks, SplitAtHeadings ls lead blocks ∧
        List.Forall₂ Clause.IsUnder (clausesOf text) blocks) ∧
    (¬HasHeading text →
      (clausesOf text).flatMap Clause.content = NumberedLine.content ls ∧
      ∃ lead blocks, SplitAtBlanks ls lead blocks ∧
        (clausesOf text).map Clause.content =
          blocks.map fun block => NumberedLine.content block.run) := by
  intro ls
  refine ⟨fun hheading => ?_, fun hheading => ?_⟩
  · obtain ⟨blocks, hsplit, hcovers⟩ :=
      exists_blocks_of_divide (List.infix_refl (NumberedLine.ofText text.toList))
    have hunder := isUnder_of_covers hcovers 1 []
    rw [← clausesOf_of_hasHeading hheading] at hunder
    refine ⟨?_, _, blocks, hsplit, hunder⟩
    rw [hsplit.below_eq, flatMap_content_of_isUnder hunder]
  · obtain ⟨lead, blocks, hsplit, hparagraphs⟩ := exists_runs ls
    have hclauses : (clausesOf text).map Clause.content =
        blocks.map fun block => NumberedLine.content block.run := by
      rw [map_content_of_not_hasHeading hheading, hparagraphs, List.map_map]
      rfl
    refine ⟨?_, lead, blocks, hsplit, hclauses⟩
    rw [hsplit.content_eq, List.flatMap, hclauses, List.flatMap]

/-- A line before the first heading; lines with white space around them. -/
theorem content_clausesOf_fee :
    let text := "Note\n1. Fee\nDue\n\n now \n"
    let note := "Due\n now \n\nFee"
    HasHeading text ∧ ¬HasHeading note ∧
      (clausesOf text).flatMap Clause.content = ["Due".toList, "now".toList] ∧
      (clausesOf note).flatMap Clause.content =
        ["Due".toList, "now".toList, "Fee".toList] := by
  intro text note
  have htext : HasHeading text := by decide +kernel
  have hnote : ¬HasHeading note := by decide +kernel
  obtain ⟨hkept, -⟩ := (content_clausesOf text).1 htext
  obtain ⟨hall, -⟩ := (content_clausesOf note).2 hnote
  exact ⟨htext, hnote, hkept.trans (by decide +kernel), hall.trans (by decide +kernel)⟩

end ContractAnalysis
