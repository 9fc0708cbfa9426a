import ContractAnalysis.Proofs.Numbering
import ContractAnalysis.Proofs.Outline

/-!
# How clauses are nested

In a text with headings there is one clause for each heading, in their order, and a clause is nested
in the nearest one before it that has a smaller level (`clauses_nested`). The clauses that a new one
closes have its level or a higher one, so whatever is nested in one of them is nested in the new one
as well. That is what the open clauses have in common with all clauses before: below every level,
the nearest of them is the same (`SameNearest`).

* `nearestAbove`: the nearest clause before a place that has a smaller level
* `Clause.IsIn`: one clause is nested in another
-/

namespace ContractAnalysis

open Text

/-- The nearest clause before a place that has a level below the given one. -/
def nearestAbove (clauses : List Clause) (place level : Nat) : Option Clause :=
  (clauses.take place).reverse.find? fun clause => clause.level < level

/-- A clause is nested in another: it names the other, which has a smaller level. -/
def Clause.IsIn (clause parent : Clause) : Prop :=
  clause.parent = some parent.id ∧ parent.level < clause.level

/-! ## The clause of a section -/

/-- The clause of a section whose heading has a level. -/
def clauseOfSection (n : Nat) (parent : Option String) (s : Section) : Clause where
  id := clauseId n
  number := some s.heading.number
  title := s.heading.title
  body := String.ofList (NumberedLine.joined s.body)
  level := s.heading.level
  parent := parent
  line := some s.firstLine

/-- The clauses that stay open when one of a level begins. -/
def stayOpen (level : Nat) (open' : List Ancestor) : List Ancestor :=
  open'.dropWhile fun a => a.level ≥ level

theorem clausesOfSections_cons {s : Section} (h : 1 ≤ s.heading.level) (n : Nat)
    (open' : List Ancestor) (rest : List Section) :
    clausesOfSections n open' (s :: rest) =
      clauseOfSection n ((stayOpen s.heading.level open').head?.map (·.id)) s ::
        clausesOfSections (n + 1) (⟨clauseId n, s.heading.level⟩ :: stayOpen s.heading.level open')
          rest := by
  rw [clausesOfSections, Clause.leveled, max_eq_left h]
  rfl

/-! ## Open clauses -/

theorem head?_stayOpen (level : Nat) (open' : List Ancestor) :
    (stayOpen level open').head? = open'.find? fun a => a.level < level := by
  rw [stayOpen, ← List.find?_not_eq_head?_dropWhile]
  congr 1
  funext a
  rw [← decide_not]
  exact decide_eq_decide.mpr Nat.not_le

theorem find?_stayOpen {level high : Nat} (h : level ≤ high) (open' : List Ancestor) :
    (stayOpen high open').find? (fun a => a.level < level) =
      open'.find? fun a => a.level < level := by
  induction open' with
  | nil => rfl
  | cons a open' ih =>
    rw [stayOpen, List.dropWhile_cons]
    split_ifs with hclosed
    · have hskip : ¬a.level < level := by
        have hhigh := of_decide_eq_true hclosed
        omega
      rw [List.find?_cons, decide_eq_false hskip]
      exact ih
    · rfl

/-- Below every level, the nearest open clause is the nearest of all clauses before, of which the
latest stands first. -/
def SameNearest (open' : List Ancestor) (past : List Clause) : Prop :=
  ∀ level, (open'.find? fun a => a.level < level).map (·.id) =
    (past.find? fun clause => clause.level < level).map (·.id)

/-- A new clause closes those of its level and of higher ones, and is open itself. -/
theorem SameNearest.cons {open' : List Ancestor} {past : List Clause} (h : SameNearest open' past)
    (clause : Clause) :
    SameNearest (⟨clause.id, clause.level⟩ :: stayOpen clause.level open') (clause :: past) := by
  intro level
  rw [List.find?_cons, List.find?_cons]
  by_cases hlevel : clause.level < level
  · simp only [hlevel, decide_true, Option.map_some]
  · simp only [hlevel, decide_false]
    rw [find?_stayOpen (Nat.not_lt.mp hlevel)]
    exact h level

/-! ## Sections -/

theorem map_heading_clausesOfSections {sections : List Section}
    (hlevels : ∀ s ∈ sections, 1 ≤ s.heading.level) (n : Nat) (open' : List Ancestor) :
    (clausesOfSections n open' sections).map
        (fun clause => (clause.number, clause.title, clause.level)) =
      sections.map fun s => (some s.heading.number, s.heading.title, s.heading.level) := by
  induction sections generalizing n open' with
  | nil => rfl
  | cons s rest ih =>
    obtain ⟨hlevel, hrest⟩ := List.forall_mem_cons.mp hlevels
    rw [clausesOfSections_cons hlevel, List.map_cons, ih hrest]
    rfl

theorem parent_of_sections {sections : List Section}
    (hlevels : ∀ s ∈ sections, 1 ≤ s.heading.level) {n : Nat} {open' : List Ancestor}
    {past : List Clause} (hopen : SameNearest open' past) {i : Nat} {clause : Clause}
    (hi : (clausesOfSections n open' sections)[i]? = some clause) :
    clause.parent = ((((clausesOfSections n open' sections).take i).reverse ++ past).find?
      fun other => other.level < clause.level).map (·.id) := by
  induction sections generalizing n open' past i with
  | nil => simp [clausesOfSections] at hi
  | cons s rest ih =>
    obtain ⟨hlevel, hrest⟩ := List.forall_mem_cons.mp hlevels
    rw [clausesOfSections_cons hlevel] at hi ⊢
    cases i with
    | zero =>
      obtain rfl := Option.some.inj hi
      rw [List.take_zero, List.reverse_nil, List.nil_append]
      show (stayOpen s.heading.level open').head?.map (·.id) = _
      rw [head?_stayOpen]
      exact hopen s.heading.level
    | succ i =>
      rw [List.take_succ_cons, List.reverse_cons, List.append_assoc]
      exact ih hrest (hopen.cons (clauseOfSection n _ s)) hi

/-! ## Texts with headings -/

/-- The headings of a text, in their order. -/
def headingsOf (text : String) : List Heading := (lines text.toList).filterMap Heading.ofLine?

def HasHeading (text : String) : Prop := headingsOf text ≠ []

instance (text : String) : Decidable (HasHeading text) :=
  inferInstanceAs (Decidable (headingsOf text ≠ []))

theorem map_heading_sections (text : String) :
    (divide (NumberedLine.ofText text.toList)).2.map Section.heading = headingsOf text := by
  rw [map_heading_divide, headingsOf, ← NumberedLine.map_text_ofText, List.filterMap_map]
  rfl

theorem hasHeading_iff (text : String) :
    HasHeading text ↔ (divide (NumberedLine.ofText text.toList)).2 ≠ [] := by
  rw [HasHeading, ← map_heading_sections, ne_eq, List.map_eq_nil_iff]

theorem one_le_level_of_mem_divide {ls : List NumberedLine} :
    ∀ s ∈ (divide ls).2, 1 ≤ s.heading.level := by
  intro s hs
  obtain ⟨line, hheading, -⟩ := exists_heading_of_mem_divide hs
  exact Heading.one_le_level hheading

theorem clausesOf_of_hasHeading {text : String} (h : HasHeading text) :
    clausesOf text =
      clausesOfSections 1 [] (divide (NumberedLine.ofText text.toList)).2 := by
  unfold clausesOf
  dsimp only
  split
  · next hsections => exact absurd hsections ((hasHeading_iff text).mp h)
  · rfl

theorem exists_of_nearestAbove {clauses : List Clause} {place level : Nat} {parent : Clause}
    (h : nearestAbove clauses place level = some parent) :
    parent.level < level ∧ ∃ j < place, clauses[j]? = some parent := by
  have hlevel := List.find?_some h
  have hmem := List.mem_reverse.mp (List.mem_of_find?_eq_some h)
  obtain ⟨j, hj⟩ := List.mem_iff_getElem?.mp hmem
  refine ⟨of_decide_eq_true hlevel, j, ?_, ?_⟩
  · have hlt := (List.getElem?_eq_some_iff.mp hj).1
    rw [List.length_take] at hlt
    omega
  · rw [List.getElem?_take] at hj
    split_ifs at hj
    exact hj

/-- Every clause that names a parent stands behind it, and the parent has a smaller level. -/
def ParentsFirst (clauses : List Clause) : Prop :=
  ∀ (i : Nat) (clause : Clause), clauses[i]? = some clause → clause.parent ≠ none →
    ∃ j < i, ∃ parent, clauses[j]? = some parent ∧ clause.IsIn parent

theorem ParentsFirst.exists_way_up {clauses : List Clause} (h : ParentsFirst clauses) {i : Nat}
    {clause : Clause} (hi : clauses[i]? = some clause) :
    ∃ way, way ⊆ clauses ∧ (clause :: way).IsChain Clause.IsIn ∧
      ∀ last ∈ (clause :: way).getLast?, last.parent = none := by
  induction i using Nat.strong_induction_on generalizing clause with
  | _ i ih =>
    by_cases hparent : clause.parent = none
    · refine ⟨[], List.nil_subset _, .singleton clause, fun last hlast => ?_⟩
      obtain rfl : clause = last := by simpa using hlast
      exact hparent
    · obtain ⟨j, hj, parent, hget, hin⟩ := h i clause hi hparent
      obtain ⟨way, hway, hchain, hlast⟩ := ih j hj hget
      refine ⟨parent :: way, ?_, .cons_cons hin hchain, hlast⟩
      exact List.cons_subset.mpr ⟨List.mem_of_getElem? hget, hway⟩

/-! ## Results -/

theorem map_heading_clausesOf {text : String} (h : HasHeading text) :
    (clausesOf text).map (fun clause => (clause.number, clause.title, clause.level)) =
      (headingsOf text).map fun heading => (some heading.number, heading.title, heading.level) := by
  rw [clausesOf_of_hasHeading h, map_heading_clausesOfSections one_le_level_of_mem_divide,
    ← map_heading_sections, List.map_map]
  rfl

theorem exists_heading_of_mem_clausesOf {text : String} (h : HasHeading text) {clause : Clause}
    (hclause : clause ∈ clausesOf text) :
    ∃ line ∈ lines text.toList, ∃ heading, Heading.ofLine? line = some heading ∧
      clause.number = some heading.number ∧ clause.title = heading.title ∧
      clause.level = heading.level := by
  have hmem : (clause.number, clause.title, clause.level) ∈ (headingsOf text).map
      fun heading => (some heading.number, heading.title, heading.level) := by
    rw [← map_heading_clausesOf h]
    exact List.mem_map_of_mem hclause
  obtain ⟨heading, hheading, heq⟩ := List.mem_map.mp hmem
  obtain ⟨hnumber, htitle, hlevel⟩ : some heading.number = clause.number ∧
      heading.title = clause.title ∧ heading.level = clause.level := by simpa using heq
  obtain ⟨line, hline, hof⟩ := List.mem_filterMap.mp hheading
  exact ⟨line, hline, heading, hof, hnumber.symm, htitle.symm, hlevel.symm⟩

theorem exists_number_of_mem_clausesOf {text : String} (h : HasHeading text) {clause : Clause}
    (hclause : clause ∈ clausesOf text) :
    ∃ number, clause.number = some number ∧ clause.level = Heading.levelOfNumber number := by
  obtain ⟨line, -, heading, hheading, hnumber, -, hlevel⟩ :=
    exists_heading_of_mem_clausesOf h hclause
  exact ⟨heading.number, hnumber, hlevel.trans (Heading.level_eq hheading)⟩

theorem parent_of_getElem?_clausesOf {text : String} (h : HasHeading text) {i : Nat}
    {clause : Clause} (hi : (clausesOf text)[i]? = some clause) :
    clause.parent = (nearestAbove (clausesOf text) i clause.level).map (·.id) := by
  have hempty : SameNearest [] [] := fun level => rfl
  rw [clausesOf_of_hasHeading h] at hi ⊢
  have hnearest := parent_of_sections one_le_level_of_mem_divide hempty hi
  rwa [List.append_nil] at hnearest

theorem parentsFirst_clausesOf {text : String} (h : HasHeading text) :
    ParentsFirst (clausesOf text) := by
  intro i clause hi hnone
  rw [parent_of_getElem?_clausesOf h hi, Ne, Option.map_eq_none_iff] at hnone
  obtain ⟨parent, hnearest⟩ := Option.ne_none_iff_exists'.mp hnone
  obtain ⟨hlevel, j, hj, hget⟩ := exists_of_nearestAbove hnearest
  refine ⟨j, hj, parent, hget, ?_, hlevel⟩
  rw [parent_of_getElem?_clausesOf h hi, hnearest]
  rfl

/-- **There is one clause for each heading, in their order, and it is nested in the nearest one
before it that has a smaller level**, if there is one. So a parent stands before its clause, and the
levels fall on the way from a clause to its parent, to the parent of that, and on to a clause that
is nested in none. -/
theorem clauses_nested {text : String} (h : HasHeading text) :
    (clausesOf text).map (fun clause => (clause.number, clause.title)) =
      (headingsOf text).map (fun heading => (some heading.number, heading.title)) ∧
    (∀ i clause, (clausesOf text)[i]? = some clause →
      clause.id = clauseId (i + 1) ∧
      (∃ number, clause.number = some number ∧ clause.level = Heading.levelOfNumber number) ∧
      clause.parent = (nearestAbove (clausesOf text) i clause.level).map (·.id)) ∧
    ParentsFirst (clausesOf text) ∧
    ∀ clause ∈ clausesOf text, ∃ way, way ⊆ clausesOf text ∧
      (clause :: way).IsChain Clause.IsIn ∧
      ∀ last ∈ (clause :: way).getLast?, last.parent = none := by
  refine ⟨?_, fun i clause hi => ⟨id_of_getElem?_clausesOf hi, ?_, ?_⟩,
    parentsFirst_clausesOf h, ?_⟩
  · have hpairs := congrArg (List.map fun entry => (entry.1, entry.2.1)) (map_heading_clausesOf h)
    rw [List.map_map, List.map_map] at hpairs
    exact hpairs
  · exact exists_number_of_mem_clausesOf h (List.mem_of_getElem? hi)
  · exact parent_of_getElem?_clausesOf h hi
  · intro clause hclause
    obtain ⟨i, hi⟩ := List.mem_iff_getElem?.mp hclause
    exact (parentsFirst_clausesOf h).exists_way_up hi

/-- An article, a level that is left out, and a return over two levels. -/
theorem clauses_nested_steps :
    let text := "Article I: Scope\n1.1.1 Parts\n1.2 Fees\n2. Term\n"
    HasHeading text ∧
      (clausesOf text)[2]?.map (fun clause => (clause.level, clause.parent)) =
        some (2, some (clauseId 1)) ∧
      ParentsFirst (clausesOf text) := by
  intro text
  have h : HasHeading text := by decide +kernel
  obtain ⟨-, -, hfirst, -⟩ := clauses_nested h
  exact ⟨h, by decide +kernel, hfirst⟩

end ContractAnalysis
