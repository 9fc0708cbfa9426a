import ContractAnalysis.Proofs.Citation
import ContractAnalysis.Proofs.Compilation
import ContractAnalysis.Proofs.Detection.Kinds
import ContractAnalysis.Proofs.Text.Search

/-!
# Which citations are reported as unmatched

A citation is matched by the ids of the clauses, and these are numbered by position, whatever the
numbers of the sections are. So a citation is reported exactly when it is part of no numeral of a
position (`unmatched_iff`): a section whose number is such a part is never missed, and one whose
number is not, such as `1.1`, is reported as missing although it is there
(`present_section_reported`).

* `mem_unmatchedReferences_iff`: a citation of a graph is reported when no clause id holds it
* `isMatched_clauseIds_iff`: a number is part of the id of a clause when it is part of its numeral
-/

namespace ContractAnalysis

/-! ## Citations of a graph -/

theorem Graph.eq_of_mem_conditions {g : Graph} {c c' : Condition} (h : c ∈ g.conditions)
    (h' : c' ∈ g.conditions) (hid : c.id = c'.id) : c = c' :=
  Node.condition.inj (List.inj_on_of_nodup_map g.sound.distinct (mem_conditions_iff.mp h)
    (mem_conditions_iff.mp h') hid)

theorem unmatchedReference_injective (c : Condition) :
    Function.Injective (unmatchedReference c) := by
  intro reference other h
  have hdescription := congrArg Finding.description h
  simpa only [unmatchedReference, Finding.symbolic, String.append_left_inj,
    String.append_right_inj] using hdescription

/-- A citation of a graph is reported when no id of a clause holds it. -/
theorem mem_unmatchedReferences_iff {g : Graph} {c : Condition} (hc : c ∈ g.conditions)
    {reference : String} (hreference : reference ∈ c.references) :
    unmatchedReference c reference ∈ unmatchedReferences g ↔
      isMatched (g.clauses.map (·.id)) reference = false := by
  simp only [unmatchedReferences, List.mem_flatMap, List.mem_map, List.mem_filter,
    Bool.not_eq_true']
  constructor
  · rintro ⟨c', hc', other, ⟨-, hother⟩, heq⟩
    have hid : c'.id = c.id := List.head_eq_of_cons_eq (congrArg Finding.involved heq)
    obtain rfl := Graph.eq_of_mem_conditions hc' hc hid
    rwa [← unmatchedReference_injective c' heq]
  · exact fun h => ⟨c, hc, reference, ⟨hreference, h⟩, rfl⟩

/-! ## Numbers and positions -/

/-- Whether a number is part of the numeral of a position from 1 to `n`. -/
def IsInPosition (n : Nat) (reference : String) : Prop :=
  ∃ i, 1 ≤ i ∧ i ≤ n ∧ Text.contains (toString i) reference = true

theorem contains_clauseId {reference : String} {digit : Char} {rest : List Char}
    (hreference : reference.toList = digit :: rest) (hdigit : Text.isDigit digit = true)
    (n : Nat) : Text.contains (clauseId n) reference = Text.contains (toString n) reference := by
  have hlabel : ("clause_".toList.any Text.isDigit) = false := by decide
  have hnotMem : digit ∉ "clause_".toList := fun hmem =>
    List.any_eq_false.mp hlabel digit hmem hdigit
  rw [Text.contains, Text.contains, clauseId, String.toList_append, hreference,
    Text.occursIn_append hnotMem]

theorem isMatched_clauseIds_iff {reference : String} {digit : Char} {rest : List Char}
    (hreference : reference.toList = digit :: rest) (hdigit : Text.isDigit digit = true)
    (n : Nat) :
    isMatched ((List.range' 1 n).map clauseId) reference = true ↔ IsInPosition n reference := by
  simp only [isMatched, List.any_map, List.any_eq_true, List.mem_range'_1, Function.comp_apply,
    contains_clauseId hreference hdigit, IsInPosition]
  constructor
  · rintro ⟨i, ⟨hlow, hhigh⟩, h⟩
    exact ⟨i, hlow, by omega, h⟩
  · rintro ⟨i, hlow, hhigh, h⟩
    exact ⟨i, ⟨hlow, by omega⟩, h⟩

theorem not_isInPosition_of_dot {reference : String} (h : '.' ∈ reference.toList) (n : Nat) :
    ¬IsInPosition n reference := by
  rintro ⟨i, -, -, hcontains⟩
  have hdigit := isDigit_of_mem_toString ((Text.occursIn_iff.mp hcontains).subset h)
  contradiction

/-! ## Citations of a document -/

theorem filterMap_clause?_extract (clauses : List Clause) :
    (extract FactRule.standard clauses).nodes.filterMap Node.clause? = [] := by
  rw [List.filterMap_eq_nil_iff]
  intro node hnode
  obtain ⟨hit, n, hentry, rfl⟩ := exists_hit_of_mem_nodes hnode
  have hrule : hit.rule ∈ FactRule.standard := (clause_mem_of_mem_numberHits hentry).2
  rcases FactRule.mem_standard.mp hrule with h | h | h
  · simp [Hit.node, h, FactRule.obligations, FactRule.buildObligation, Node.clause?]
  · simp [Hit.node, h, FactRule.rights, FactRule.buildRight, Node.clause?]
  · simp [Hit.node, h, FactRule.conditions, FactRule.buildCondition, Node.clause?]

theorem exists_text_of_condition {clauses : List Clause} {c : Condition}
    (h : .condition c ∈ (extract FactRule.standard clauses).nodes) :
    ∃ text, c.references = citedNumbers text := by
  obtain ⟨hit, n, hentry, heq⟩ := exists_hit_of_mem_nodes h
  exact ⟨_, (Hit.eq_of_node_condition (clause_mem_of_mem_numberHits hentry).2 heq).2.2.2⟩

theorem compile_unmatched (document : Document) :
    ∃ contract, compile FactRule.standard document = .ok contract ∧
      ∀ c ∈ contract.graph.conditions, ∀ reference ∈ c.references,
        (unmatchedReference c reference ∈ contract.findings ↔
          ¬IsInPosition contract.clauses.length reference) := by
  obtain ⟨contract, hcompile, hclauses, hnodes, -, hfindings⟩ :=
    compile_eq_ok (fun _ => FactRule.keepsId_of_mem_standard) document
  refine ⟨contract, hcompile, fun c hc reference hreference => ?_⟩
  have hids : contract.graph.clauses.map (·.id) =
      (List.range' 1 contract.clauses.length).map clauseId := by
    rw [Graph.clauses, hnodes, List.filterMap_append, filterMap_clause?_extract, List.append_nil,
      List.filterMap_map, hclauses, ← map_id_clausesOf]
    exact congrArg (List.map Clause.id) List.filterMap_some
  have hnode := Graph.mem_conditions_iff.mp hc
  rw [hnodes, List.mem_append] at hnode
  rcases hnode with hclause | hfact
  · simp at hclause
  · obtain ⟨text, htext⟩ := exists_text_of_condition hfact
    obtain ⟨digit, rest, hdigits, hdigit⟩ :=
      exists_digit_of_mem_citedNumbers (htext ▸ hreference)
    have hcheck : (KnownDefect.unmatchedReference, unmatchedReferences contract.graph) ∈
        checks contract.graph := by simp [checks]
    rw [hfindings, mem_findingsOf_iff hcheck rfl, mem_unmatchedReferences_iff hc hreference, hids,
      ← isMatched_clauseIds_iff hdigits hdigit, Bool.not_eq_true]

/-- **A citation is reported exactly when it is part of no position.** So no citation of a section
that is there is reported where the number of every section is part of some position, and a dotted
number always is. -/
theorem unmatched_iff (document : Document) :
    ∃ contract, compile FactRule.standard document = .ok contract ∧
      (∀ c ∈ contract.graph.conditions, ∀ reference ∈ c.references,
        (unmatchedReference c reference ∈ contract.findings ↔
          ¬IsInPosition contract.clauses.length reference) ∧
        ('.' ∈ reference.toList → unmatchedReference c reference ∈ contract.findings)) ∧
      ((∀ clause ∈ contract.clauses, ∀ number, clause.sectionNumber = some number →
          IsInPosition contract.clauses.length number) →
        ∀ c ∈ contract.graph.conditions, ∀ reference ∈ c.references,
          unmatchedReference c reference ∈ contract.findings →
          ∀ clause ∈ contract.clauses, clause.sectionNumber ≠ some reference) := by
  obtain ⟨contract, hcompile, hreported⟩ := compile_unmatched document
  refine ⟨contract, hcompile, fun c hc reference hreference => ⟨hreported c hc _ hreference, ?_⟩,
    fun hnumbers c hc reference hreference hfinding clause hclause hnumber => ?_⟩
  · intro hdot
    exact (hreported c hc _ hreference).mpr (not_isInPosition_of_dot hdot _)
  · exact (hreported c hc _ hreference).mp hfinding (hnumbers clause hclause reference hnumber)

/-- The first section is there, the second one is tied to it by the number that it cites, and yet
that number is reported as missing. -/
theorem present_section_reported :
    ∃ contract, compile FactRule.standard ⟨"doc.txt",
        "1.1 Scope\nAll goods.\n1.2 Fees\nIf late under Section 1.1, the Buyer may cancel."⟩ =
          .ok contract ∧
      ∃ c ∈ contract.graph.conditions, "1.1" ∈ c.references ∧
        unmatchedReference c "1.1" ∈ contract.findings ∧
        (∃ clause ∈ contract.clauses, clause.sectionNumber = some "1.1") ∧
        ⟨"clause_2", "clause_1", .references⟩ ∈ contract.graph.edges :=
  exists_ok_of_any (by decide +kernel)

end ContractAnalysis
