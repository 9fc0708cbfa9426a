import ContractAnalysis.Document
import ContractAnalysis.Outline
import ContractAnalysis.Proofs.Heading
import ContractAnalysis.Proofs.Text.Lines

/-!
# Where clauses stand

The text of a clause is a run of lines of the document, joined and trimmed. Trimming takes away the
blank lines before the first line that is not blank, and that is the line which the clause records
(`exists_first_of_joined`). Hence the pieces of the text that is scanned are those lines of the
document, from the recorded one on and one by one (`Clause.IsPlaced`, `exists_isPlaced`).
-/

namespace ContractAnalysis

open Text

/-! ## Numbered lines -/

namespace NumberedLine

theorem getElem?_ofText (text : List Char) (i : Nat) :
    (ofText text)[i]? = (lines text)[i]?.map fun line => ⟨i + 1, line⟩ := by
  simp [ofText, List.getElem?_zipIdx, Function.comp_def]

theorem map_text_ofText (text : List Char) : (ofText text).map (·.text) = lines text := by
  rw [ofText, List.map_map]
  exact List.zipIdx_map_fst 0 (lines text)

theorem number_of_mem_ofText {text : List Char} {line : NumberedLine} (h : line ∈ ofText text) :
    1 ≤ line.number ∧ line.number ≤ (lines text).length := by
  obtain ⟨i, hi⟩ := List.mem_iff_getElem?.mp h
  rw [getElem?_ofText, Option.map_eq_some_iff] at hi
  obtain ⟨chars, hchars, rfl⟩ := hi
  exact ⟨Nat.le_add_left 1 i, (List.getElem?_eq_some_iff.mp hchars).1⟩

theorem feed_notMem_of_mem_ofText {text : List Char} {line : NumberedLine}
    (h : line ∈ ofText text) : '\n' ∉ line.text := by
  obtain ⟨i, hi⟩ := List.mem_iff_getElem?.mp h
  rw [getElem?_ofText, Option.map_eq_some_iff] at hi
  obtain ⟨chars, hchars, rfl⟩ := hi
  exact feed_notMem_of_mem_lines (List.mem_of_getElem? hchars)

theorem number_of_infix {text : List Char} {run : List NumberedLine} (h : run <:+: ofText text)
    {i k : Nat} {line later : NumberedLine} (hi : run[i]? = some line)
    (hk : run[i + k]? = some later) : later.number = line.number + k := by
  obtain ⟨n, -, hrun⟩ := List.infix_iff_getElem?.mp h
  have hnumber : ∀ {j : Nat} {l : NumberedLine}, run[j]? = some l → l.number = j + n + 1 := by
    intro j l hj
    obtain ⟨hlt, rfl⟩ := List.getElem?_eq_some_iff.mp hj
    have hline := hrun j hlt
    rw [getElem?_ofText, Option.map_eq_some_iff] at hline
    obtain ⟨chars, -, heq⟩ := hline
    rw [← heq]
  rw [hnumber hi, hnumber hk]
  omega

/-! ### Joined lines -/

variable {text : List Char} {run : List NumberedLine}

theorem pieces_joinLines_texts (hrun : run <:+: ofText text) (hne : run ≠ []) :
    pieces (joinLines (run.map (·.text))) = run.map (·.text) := by
  refine pieces_joinLines (List.forall_mem_map.mpr fun line hline => ?_) (by simpa using hne)
  exact feed_notMem_of_mem_ofText (hrun.subset hline)

theorem isBlank_of_joined_eq_nil (hrun : run <:+: ofText text) (h : joined run = [])
    {line : NumberedLine} (hline : line ∈ run) : line.isBlank = true := by
  obtain ⟨before, after, hsplit, hbefore, hafter⟩ := pads_trimChars (joinLines (run.map (·.text)))
  change _ = before ++ joined run ++ after at hsplit
  refine List.all_eq_true.mpr fun c hc => ?_
  have hpiece : line.text ∈ pieces (joinLines (run.map (·.text))) := by
    rw [pieces_joinLines_texts hrun (List.ne_nil_of_mem hline)]
    exact List.mem_map_of_mem hline
  have hmem := mem_of_mem_pieces hpiece hc
  rw [hsplit, h, List.append_nil] at hmem
  exact (List.mem_append.mp hmem).elim (hbefore c) (hafter c)

theorem exists_offset_of_joined (hrun : run <:+: ofText text) (hne : run ≠ []) :
    ∃ offset : Nat, (∀ j < offset, ∀ line, run[j]? = some line → line.isBlank = true) ∧
      ∀ k piece, (pieces (joined run))[k]? = some piece →
        ∃ line, run[offset + k]? = some line ∧ Pads piece line.text := by
  obtain ⟨before, after, hsplit, hbefore, hafter⟩ := pads_trimChars (joinLines (run.map (·.text)))
  change _ = before ++ joined run ++ after at hsplit
  have htexts := pieces_joinLines_texts hrun hne
  rw [hsplit] at htexts
  refine ⟨before.count '\n', fun j hj line hline => ?_, fun k piece hpiece => ?_⟩
  · -- The lines that get lost are pieces of the white space before the joined text.
    have hlost := getElem?_pieces_of_lt before (joined run ++ after) hj
    rw [← List.append_assoc, htexts, List.getElem?_map, hline] at hlost
    have hpiece := List.mem_of_getElem? hlost.symm
    exact List.all_eq_true.mpr fun c hc => hbefore c (mem_of_mem_pieces hpiece hc)
  · obtain ⟨lost, lost', hlost, hlost', hmiddle⟩ := getElem?_pieces_middle before after hpiece
    rw [htexts, List.getElem?_map, Option.map_eq_some_iff] at hmiddle
    obtain ⟨line, hline, htext⟩ := hmiddle
    exact ⟨line, hline, lost, lost', htext, fun c hc => hbefore c (hlost c hc),
      fun c hc => hafter c (hlost' c hc)⟩

/-- The pieces of joined lines are the texts of the lines from the first that is not blank on. -/
theorem exists_first_of_joined (hrun : run <:+: ofText text) (hne : joined run ≠ []) :
    ∃ first, run.find? (fun line => !line.isBlank) = some first ∧
      ∀ k piece, (pieces (joined run))[k]? = some piece →
        ∃ line, ⟨first.number + k, line⟩ ∈ ofText text ∧ Pads piece line := by
  have hlines : run ≠ [] := by
    rintro rfl
    exact hne rfl
  obtain ⟨offset, hearlier, hpieces⟩ := exists_offset_of_joined hrun hlines
  obtain ⟨piece, c, hpiece, hc, hblank⟩ := exists_piece_of_trimmed hne
  obtain ⟨first, hfirst, hpads⟩ := hpieces 0 piece hpiece
  refine ⟨first, ?_, fun k piece hpiece => ?_⟩
  · obtain ⟨hlt, hget⟩ := List.getElem?_eq_some_iff.mp hfirst
    refine List.find?_eq_some_iff_getElem.mpr ⟨?_, offset, hlt, hget, fun j hj => ?_⟩
    · rw [Bool.not_eq_true', isBlank, List.all_eq_false]
      exact ⟨c, hpads.isInfix.subset hc, by simp [hblank]⟩
    · rw [Bool.not_not]
      exact hearlier j hj _ (List.getElem?_eq_getElem (hj.trans hlt))
  · obtain ⟨line, hline, hpad⟩ := hpieces k piece hpiece
    rw [← number_of_infix hrun hfirst hline]
    exact ⟨line.text, hrun.subset (List.mem_of_getElem? hline), hpad⟩

end NumberedLine

/-! ## Sections and paragraphs -/

theorem divide_lead_prefix (ls : List NumberedLine) : (divide ls).1 <+: ls := by
  induction ls with
  | nil => exact List.nil_prefix
  | cons line rest ih =>
    simp only [divide]
    split
    · exact List.nil_prefix
    · exact List.cons_prefix_cons.mpr ⟨rfl, ih⟩

theorem map_heading_divide (ls : List NumberedLine) :
    (divide ls).2.map Section.heading = ls.filterMap fun line => Heading.ofLine? line.text := by
  induction ls with
  | nil => rfl
  | cons line rest ih =>
    simp only [divide, List.filterMap_cons]
    cases Heading.ofLine? line.text with
    | none => exact ih
    | some heading => exact congrArg (heading :: ·) ih

theorem exists_heading_of_mem_divide {ls : List NumberedLine} {s : Section}
    (h : s ∈ (divide ls).2) :
    ∃ line, Heading.ofLine? line.text = some s.heading ∧ s.line = line.number ∧
      line :: s.body <:+: ls := by
  induction ls with
  | nil => simp [divide] at h
  | cons line rest ih =>
    simp only [divide] at h
    split at h
    · next heading hheading =>
      rcases List.mem_cons.mp h with rfl | h
      · exact ⟨line, hheading, rfl,
          (List.cons_prefix_cons.mpr ⟨rfl, divide_lead_prefix rest⟩).isInfix⟩
      · obtain ⟨line', hheading', hnumber, hrun⟩ := ih h
        exact ⟨line', hheading', hnumber, List.infix_cons hrun⟩
    · obtain ⟨line', hheading', hnumber, hrun⟩ := ih h
      exact ⟨line', hheading', hnumber, List.infix_cons hrun⟩

theorem run_of_mem_paragraphs {ls p : List NumberedLine} (h : p ∈ paragraphs ls) :
    p <:+: ls ∧ ∃ first, p.head? = some first ∧
      p.find? (fun line => !line.isBlank) = some first := by
  obtain ⟨hpiece, hne⟩ := List.mem_filter.mp h
  obtain ⟨hrun, hblank⟩ := infix_of_mem_splitOnP hpiece
  obtain ⟨first, rest, rfl⟩ := List.exists_cons_of_ne_nil (by simpa using hne)
  exact ⟨hrun, first, rfl, by simp [hblank first]⟩

theorem exists_section_of_mem {n : Nat} {open' : List Ancestor} {sections : List Section}
    {clause : Clause} (h : clause ∈ clausesOfSections n open' sections) :
    ∃ s ∈ sections, clause.title = s.heading.title ∧
      clause.body = String.ofList (NumberedLine.joined s.body) ∧
      clause.line = some s.firstLine := by
  induction sections generalizing n open' with
  | nil => simp [clausesOfSections] at h
  | cons s rest ih =>
    rcases List.mem_cons.mp h with rfl | h
    · exact ⟨s, List.mem_cons_self, rfl, rfl, rfl⟩
    · obtain ⟨s', hs', heq⟩ := ih h
      exact ⟨s', List.mem_cons_of_mem s hs', heq⟩

/-! ## Clauses -/

/-- The text that a clause scans stands in a document from the line on that the clause records:
its pieces are lines of the document, but for white space around them, or it is the end of the line
of a heading without text under it. -/
structure Clause.IsPlaced (clause : Clause) (text : String) (first : Nat) : Prop where
  line_eq : clause.line = some first
  body : clause.body ≠ "" → ∀ k piece, (pieces clause.scanText.toList)[k]? = some piece →
    ∃ line, ⟨first + k, line⟩ ∈ NumberedLine.ofText text.toList ∧ Pads piece line
  title : clause.body = "" → clause.scanText = clause.title ∧
    ∃ line, ⟨first, line⟩ ∈ NumberedLine.ofText text.toList ∧
      clause.title.toList <:+ trimEnd line

theorem Clause.scanText_of_body {clause : Clause} {cs : List Char}
    (hbody : clause.body = String.ofList (trimChars cs)) (hne : trimChars cs ≠ []) :
    clause.scanText = String.ofList (trimChars cs) := by
  have htrim : Text.trim clause.body = String.ofList (trimChars cs) := by
    rw [hbody, Text.trim, String.toList_ofList, trimChars_trimChars]
  rw [scanText, htrim, if_neg]
  simpa using hne

theorem Clause.scanText_of_title {clause : Clause} (hbody : clause.body = "") :
    clause.scanText = Text.trim clause.title := by
  rw [scanText, hbody]
  rfl

theorem Clause.isPlaced_of_run {clause : Clause} {text : String} {run : List NumberedLine}
    (hrun : run <:+: NumberedLine.ofText text.toList)
    (hbody : clause.body = String.ofList (NumberedLine.joined run))
    (hne : NumberedLine.joined run ≠ [])
    (hline : clause.line = (run.find? fun line => !line.isBlank).map (·.number)) :
    ∃ first, clause.IsPlaced text first := by
  obtain ⟨first, hfirst, hpieces⟩ := NumberedLine.exists_first_of_joined hrun hne
  refine ⟨first.number, by rw [hline, hfirst, Option.map_some], fun _ k piece hpiece => ?_, ?_⟩
  · rw [scanText_of_body hbody hne, String.toList_ofList] at hpiece
    exact hpieces k piece hpiece
  · intro hempty
    refine absurd ?_ hne
    rw [← String.toList_ofList (l := NumberedLine.joined run), ← hbody, hempty]
    rfl

theorem isPlaced_of_section {clause : Clause} {text : String} {s : Section}
    (hs : s ∈ (divide (NumberedLine.ofText text.toList)).2)
    (htitle : clause.title = s.heading.title)
    (hbody : clause.body = String.ofList (NumberedLine.joined s.body))
    (hline : clause.line = some s.firstLine) : ∃ first, clause.IsPlaced text first := by
  obtain ⟨line, hheading, hnumber, hsection⟩ := exists_heading_of_mem_divide hs
  have hrun : s.body <:+: NumberedLine.ofText text.toList :=
    (List.suffix_cons line s.body).isInfix.trans hsection
  by_cases hne : NumberedLine.joined s.body = []
  · have hblank : s.body.find? (fun line => !line.isBlank) = none := by
      refine List.find?_eq_none.mpr fun l hl => ?_
      simp [NumberedLine.isBlank_of_joined_eq_nil hrun hne hl]
    have hempty : clause.body = "" := by rw [hbody, hne]
    refine ⟨s.line, ?_, fun hbody' => absurd hempty hbody', fun _ => ⟨?_, line.text, ?_, ?_⟩⟩
    · rw [hline, Section.firstLine, hblank]
    · rw [Clause.scanText_of_title hempty, htitle, Heading.trim_title hheading]
    · rw [hnumber]
      exact hsection.subset List.mem_cons_self
    · rw [htitle]
      exact Heading.title_suffix hheading
  · refine Clause.isPlaced_of_run hrun hbody hne ?_
    obtain ⟨first, hfirst, -⟩ := NumberedLine.exists_first_of_joined hrun hne
    rw [hline, Section.firstLine, hfirst, Option.map_some]

theorem isPlaced_of_paragraph {text : String} {p : List NumberedLine} (n : Nat)
    (hp : p ∈ paragraphs (NumberedLine.ofText text.toList)) :
    ∃ first, (clauseOfParagraph n p).IsPlaced text first := by
  obtain ⟨hrun, first, hhead, hfirst⟩ := run_of_mem_paragraphs hp
  refine Clause.isPlaced_of_run hrun rfl (fun hempty => ?_) ?_
  · have hmem := List.mem_of_find?_eq_some hfirst
    have hblank := NumberedLine.isBlank_of_joined_eq_nil hrun hempty hmem
    simpa [hblank] using List.find?_some hfirst
  · rw [hfirst, ← hhead]
    rfl

/-- Every clause stands where it says. -/
theorem exists_isPlaced {text : String} {clause : Clause} (h : clause ∈ clausesOf text) :
    ∃ first, clause.IsPlaced text first := by
  simp only [clausesOf] at h
  split at h
  · obtain ⟨⟨p, i⟩, hmem, rfl⟩ := List.mem_map.mp h
    exact isPlaced_of_paragraph (i + 1) (List.fst_mem_of_mem_zipIdx hmem)
  · next sections hsections =>
    obtain ⟨s, hs, htitle, hbody, hline⟩ := exists_section_of_mem h
    exact isPlaced_of_section hs htitle hbody hline

theorem exists_joined_of_mem {text : String} {clause : Clause} (h : clause ∈ clausesOf text) :
    ∃ run, clause.body = String.ofList (NumberedLine.joined run) := by
  simp only [clausesOf] at h
  split at h
  · obtain ⟨⟨p, i⟩, -, rfl⟩ := List.mem_map.mp h
    exact ⟨p, rfl⟩
  · obtain ⟨s, -, -, hbody, -⟩ := exists_section_of_mem h
    exact ⟨s.body, hbody⟩

theorem scanText_eq_body {text : String} {clause : Clause} (h : clause ∈ clausesOf text)
    (hbody : clause.body ≠ "") : clause.scanText = clause.body := by
  obtain ⟨run, hrun⟩ := exists_joined_of_mem h
  refine (Clause.scanText_of_body hrun fun hnil => hbody ?_).trans hrun.symm
  rw [hrun, NumberedLine.joined, hnil]

end ContractAnalysis
