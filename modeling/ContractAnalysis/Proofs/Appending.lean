import ContractAnalysis.Proofs.Nesting

/-!
# Texts put together

A text may be put behind another one where the first ends its last line and the second starts with a
heading of level 1. The clauses of both together are those that the headings of the first start, and
behind them those of the second, with later numbers and on later lines but otherwise the same
(`clausesOf_append`).

Nothing of the first text reaches the second: its last section ends before that heading, and no
clause is open behind it, as none has a level below 1 (`clausesOfSections_append`). So the two runs
over the second text, alone and behind the first, differ only in where they start to count, and that
is kept by every section (`clausesOfSections_shifted`).

* `IsShiftedId`, `Clause.IsShifted`: an id, and a clause, and the same ones counted on
-/

namespace ContractAnalysis

open Text

/-! ## Shifted clauses -/

/-- The id of a clause, and the id of the one that stands `n` clauses behind it. -/
def IsShiftedId (n : Nat) (id shifted : String) : Prop :=
  ∃ i, id = clauseId i ∧ shifted = clauseId (n + i)

/-- Two clauses that differ only in their place: the ids of the second are `n` further on, and its
line is `k` further on. -/
structure Clause.IsShifted (n k : Nat) (clause shifted : Clause) : Prop where
  id : IsShiftedId n clause.id shifted.id
  parent : Option.Rel (IsShiftedId n) clause.parent shifted.parent
  line : shifted.line = clause.line.map (k + ·)
  number : shifted.number = clause.number
  title : shifted.title = clause.title
  body : shifted.body = clause.body
  level : shifted.level = clause.level

/-- The clauses that the headings of a text start. -/
def headedClauses (text : String) : List Clause := if HasHeading text then clausesOf text else []

theorem headedClauses_eq (text : String) :
    headedClauses text = clausesOfSections 1 [] (divide (NumberedLine.ofText text.toList)).2 := by
  unfold headedClauses
  split_ifs with h
  · exact clausesOf_of_hasHeading h
  · rw [hasHeading_iff, not_not] at h
    rw [h]
    rfl

theorem length_clausesOfSections (n : Nat) (open' : List Ancestor) (sections : List Section) :
    (clausesOfSections n open' sections).length = sections.length := by
  simpa using congrArg List.length (map_id_clausesOfSections n open' sections)

/-! ## Shifted lines -/

/-- The line `k` lines further on. -/
def NumberedLine.later (k : Nat) (line : NumberedLine) : NumberedLine :=
  { line with number := k + line.number }

/-- The section `k` lines further on. -/
def Section.later (k : Nat) (s : Section) : Section :=
  { s with line := k + s.line, body := s.body.map (NumberedLine.later k) }

theorem NumberedLine.joined_map_later (k : Nat) (ls : List NumberedLine) :
    joined (ls.map (later k)) = joined ls := by
  rw [joined, List.map_map]
  rfl

theorem Section.firstLine_later (k : Nat) (s : Section) :
    (s.later k).firstLine = k + s.firstLine := by
  have hfind : (s.later k).body.find? (fun line => !line.isBlank) =
      (s.body.find? fun line => !line.isBlank).map (NumberedLine.later k) :=
    List.find?_map
  rw [firstLine, firstLine, hfind]
  cases s.body.find? fun line => !line.isBlank with
  | none => rfl
  | some line => rfl

theorem divide_map_later (k : Nat) (ls : List NumberedLine) :
    divide (ls.map (NumberedLine.later k)) =
      ((divide ls).1.map (NumberedLine.later k), (divide ls).2.map (Section.later k)) := by
  induction ls with
  | nil => rfl
  | cons line rest ih =>
    have htext : (line.later k).text = line.text := rfl
    simp only [List.map_cons, divide, ih, htext]
    cases Heading.ofLine? line.text with
    | none => rfl
    | some heading => rfl

theorem divide_append (ls : List NumberedLine) {ms : List NumberedLine} (h : (divide ms).1 = []) :
    divide (ls ++ ms) = ((divide ls).1, (divide ls).2 ++ (divide ms).2) := by
  induction ls with
  | nil => exact Prod.ext h rfl
  | cons line rest ih =>
    simp only [List.cons_append, divide, ih]
    cases Heading.ofLine? line.text with
    | none => rfl
    | some heading => rfl

theorem NumberedLine.ofText_append {cs : List Char} (h : cs = [] ∨ cs.getLast? = some '\n')
    (ds : List Char) :
    ofText (cs ++ ds) = ofText cs ++ (ofText ds).map (later (lines cs).length) := by
  have hcount : (lines ds).zipIdx (lines cs).length =
      (lines ds).zipIdx.map fun entry => (entry.1, (lines cs).length + entry.2) :=
    List.zipIdx_eq_map_add
  rw [ofText, lines_append h, List.zipIdx_append, List.map_append, Nat.zero_add, hcount,
    List.map_map, ofText, ofText, List.map_map]
  rfl

/-! ## Sections behind others -/

theorem stayOpen_one {open' : List Ancestor} (h : ∀ a ∈ open', 1 ≤ a.level) :
    stayOpen 1 open' = [] :=
  List.dropWhile_eq_nil_iff.mpr fun a ha => decide_eq_true (h a ha)

theorem clausesOfSections_append {before after : List Section} {first : Section}
    (hbefore : ∀ s ∈ before, 1 ≤ s.heading.level) (hfirst : first.heading.level = 1) (n : Nat)
    {open' : List Ancestor} (hopen : ∀ a ∈ open', 1 ≤ a.level) :
    clausesOfSections n open' (before ++ first :: after) =
      clausesOfSections n open' before ++
        clausesOfSections (n + before.length) [] (first :: after) := by
  induction before generalizing n open' with
  | nil =>
    have hlevel : 1 ≤ first.heading.level := hfirst.ge
    rw [List.nil_append, clausesOfSections_cons hlevel, clausesOfSections_cons hlevel, hfirst,
      stayOpen_one hopen]
    rfl
  | cons s before ih =>
    obtain ⟨hlevel, hbefore⟩ := List.forall_mem_cons.mp hbefore
    have hnext : ∀ a ∈ ⟨clauseId n, s.heading.level⟩ :: stayOpen s.heading.level open',
        1 ≤ a.level := by
      refine List.forall_mem_cons.mpr ⟨hlevel, fun a ha => ?_⟩
      exact hopen a ((List.dropWhile_suffix _).subset ha)
    rw [List.cons_append, clausesOfSections_cons hlevel, clausesOfSections_cons hlevel,
      ih hbefore (n + 1) hnext, List.cons_append, List.length_cons, Nat.add_right_comm,
      Nat.add_assoc]

/-! ## Two counts -/

/-- Two clauses that later ones may be nested in, of which the second stands `n` clauses behind. -/
structure Ancestor.IsShifted (n : Nat) (a shifted : Ancestor) : Prop where
  id : IsShiftedId n a.id shifted.id
  level : shifted.level = a.level

theorem stayOpen_shifted {n : Nat} {open' shifted : List Ancestor}
    (h : List.Forall₂ (Ancestor.IsShifted n) open' shifted) (level : Nat) :
    List.Forall₂ (Ancestor.IsShifted n) (stayOpen level open') (stayOpen level shifted) := by
  induction h with
  | nil => exact .nil
  | cons ha hrest ih =>
    unfold stayOpen
    rw [List.dropWhile_cons, List.dropWhile_cons, ha.level]
    split_ifs
    · exact ih
    · exact .cons ha hrest

theorem parent_shifted {n : Nat} {open' shifted : List Ancestor}
    (h : List.Forall₂ (Ancestor.IsShifted n) open' shifted) :
    Option.Rel (IsShiftedId n) (open'.head?.map (·.id)) (shifted.head?.map (·.id)) := by
  cases h with
  | nil => exact .none
  | cons ha hrest => exact .some ha.id

theorem clausesOfSections_shifted {sections : List Section}
    (hlevels : ∀ s ∈ sections, 1 ≤ s.heading.level) (n k m : Nat) {open' shifted : List Ancestor}
    (h : List.Forall₂ (Ancestor.IsShifted n) open' shifted) :
    List.Forall₂ (Clause.IsShifted n k) (clausesOfSections m open' sections)
      (clausesOfSections (n + m) shifted (sections.map (Section.later k))) := by
  induction sections generalizing m open' shifted with
  | nil => exact .nil
  | cons s rest ih =>
    obtain ⟨hlevel, hrest⟩ := List.forall_mem_cons.mp hlevels
    have hstay := stayOpen_shifted h s.heading.level
    have hid : IsShiftedId n (clauseId m) (clauseId (n + m)) := ⟨m, rfl, rfl⟩
    have hlater : 1 ≤ (s.later k).heading.level := hlevel
    rw [List.map_cons, clausesOfSections_cons hlevel, clausesOfSections_cons hlater]
    refine .cons ⟨hid, parent_shifted hstay, ?_, rfl, rfl, ?_, rfl⟩ ?_
    · exact congrArg some (s.firstLine_later k)
    · exact congrArg String.ofList (NumberedLine.joined_map_later k s.body)
    · exact ih hrest (m + 1) (.cons ⟨hid, rfl⟩ hstay)

/-! ## Texts -/

/-- A text that is empty or ends its last line. -/
def EndsLine (text : String) : Prop := text = "" ∨ text.toList.getLast? = some '\n'

/-- A text whose first line is a heading of level 1. -/
def StartsAtTop (text : String) : Prop :=
  ∃ heading, (lines text.toList).head?.bind Heading.ofLine? = some heading ∧ heading.level = 1

theorem divide_of_startsAtTop {text : String} (h : StartsAtTop text) :
    ∃ first after, divide (NumberedLine.ofText text.toList) = ([], first :: after) ∧
      first.heading.level = 1 := by
  obtain ⟨heading, hheading, hlevel⟩ := h
  obtain ⟨line, hline, hof⟩ := Option.bind_eq_some_iff.mp hheading
  rw [← NumberedLine.map_text_ofText, List.head?_map, Option.map_eq_some_iff] at hline
  obtain ⟨first, hfirst, rfl⟩ := hline
  obtain ⟨rest, hrest⟩ := List.head?_eq_some_iff.mp hfirst
  refine ⟨⟨heading, first.number, (divide rest).1⟩, (divide rest).2, ?_, hlevel⟩
  simp only [hrest, divide, hof]

theorem EndsLine.toList {text : String} (h : EndsLine text) :
    text.toList = [] ∨ text.toList.getLast? = some '\n' := by
  refine h.imp_left fun hempty => ?_
  rw [hempty]
  rfl

theorem sections_append {first second : String} (hfirst : EndsLine first)
    (hsecond : (divide (NumberedLine.ofText second.toList)).1 = []) :
    (divide (NumberedLine.ofText (first ++ second).toList)).2 =
      (divide (NumberedLine.ofText first.toList)).2 ++
        (divide (NumberedLine.ofText second.toList)).2.map
          (Section.later (lines first.toList).length) := by
  have hlead : (divide ((NumberedLine.ofText second.toList).map
      (NumberedLine.later (lines first.toList).length))).1 = [] := by
    rw [divide_map_later, hsecond]
    rfl
  rw [String.toList_append, NumberedLine.ofText_append hfirst.toList, divide_append _ hlead,
    divide_map_later]

/-- **Behind a text whose last line ends, a text that starts with a heading of level 1 has the same
clauses as alone**, but that they are counted on: their ids and the ids of their parents by the
number of clauses before them, and their lines by the number of lines before them. What the first
text says before its first heading belongs to no clause, even where it has no heading. -/
theorem clausesOf_append {first second : String} (hfirst : EndsLine first)
    (hsecond : StartsAtTop second) :
    ∃ after, clausesOf (first ++ second) = headedClauses first ++ after ∧
      List.Forall₂ (Clause.IsShifted (headedClauses first).length (lines first.toList).length)
        (clausesOf second) after := by
  obtain ⟨top, rest, hdivide, hlevel⟩ := divide_of_startsAtTop hsecond
  have hsections := sections_append hfirst (congrArg Prod.fst hdivide)
  have hlevels : ∀ s ∈ (divide (NumberedLine.ofText second.toList)).2, 1 ≤ s.heading.level :=
    one_le_level_of_mem_divide
  rw [hdivide] at hsections hlevels
  have hboth : HasHeading (first ++ second) := by
    rw [hasHeading_iff, hsections]
    exact List.append_ne_nil_of_right_ne_nil _ (List.cons_ne_nil _ _)
  have htop : HasHeading second := by
    rw [hasHeading_iff, hdivide]
    exact List.cons_ne_nil top rest
  have hlater : (top.later (lines first.toList).length).heading.level = 1 := hlevel
  refine ⟨clausesOfSections ((headedClauses first).length + 1) []
    ((top :: rest).map (Section.later (lines first.toList).length)), ?_, ?_⟩
  · rw [clausesOf_of_hasHeading hboth, hsections, headedClauses_eq, length_clausesOfSections,
      List.map_cons, clausesOfSections_append one_le_level_of_mem_divide hlater 1 (by simp),
      Nat.add_comm 1]
  · rw [clausesOf_of_hasHeading htop, hdivide]
    exact clausesOfSections_shifted hlevels _ _ 1 .nil

theorem clausesOf_append_annex :
    let first := "Note\n1. Fee\nDue\n"
    let second := "2. Term\n2.1 End\n"
    EndsLine first ∧ StartsAtTop second ∧
      (clausesOf (first ++ second)).map (fun clause => (clause.id, clause.parent, clause.line)) =
        [("clause_1", none, some 3), ("clause_2", none, some 4),
          ("clause_3", some "clause_2", some 5)] ∧
      ∃ after, clausesOf (first ++ second) = headedClauses first ++ after ∧
        List.Forall₂ (Clause.IsShifted 1 3) (clausesOf second) after := by
  intro first second
  have hfirst : EndsLine first := .inr (by decide)
  have hsecond : StartsAtTop second := ⟨⟨"2", "Term", 1⟩, by decide +kernel, rfl⟩
  have hclauses : (headedClauses first).length = 1 := by decide +kernel
  have hlines : (lines first.toList).length = 3 := by decide +kernel
  obtain ⟨after, heq, hafter⟩ := clausesOf_append hfirst hsecond
  rw [hclauses, hlines] at hafter
  exact ⟨hfirst, hsecond, by decide +kernel, after, heq, hafter⟩

end ContractAnalysis
