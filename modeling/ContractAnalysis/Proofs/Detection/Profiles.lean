import ContractAnalysis.Proofs.Detection.Groups
import ContractAnalysis.Proofs.Detection.Kinds
import ContractAnalysis.Proofs.Detection.Lines
import ContractAnalysis.Proofs.Graph.Calls
import ContractAnalysis.Proofs.Graph.Cycle

/-!
# What each structural check reports

The checks make up their findings in different ways: some look their lines up by id, some copy the
one line that there may be, and a cycle names its first node twice. What comes out is alike all the
same (`findings_profiled`): each finding keeps to the `Profile` of its check and has the lines of
the nodes that it names, and the findings of a check stand together, the checks in a fixed order.
-/

namespace ContractAnalysis

/-- What the findings of a check have in common. -/
structure Profile where
  kind : KnownDefect
  severity : Severity
  /-- The kinds of node that a finding may name. -/
  subjects : List NodeKind

/-- The profiles of the checks, in the order in which their findings are listed. -/
def profiles : List Profile :=
  [⟨.circularDependency, .critical, NodeKind.all⟩,
   ⟨.contradictoryObligations, .critical, [.obligation]⟩,
   ⟨.orphanedObligation, .high, [.obligation]⟩,
   ⟨.danglingCondition, .medium, [.condition]⟩,
   ⟨.missingReciprocity, .medium, [.obligation]⟩,
   ⟨.unmatchedReference, .high, [.condition]⟩]

theorem NodeKind.mem_all (kind : NodeKind) : kind ∈ NodeKind.all := by
  cases kind <;> decide

theorem mem_of_mem_pairs {α : Type} {xs : List α} {pair : α × α} (h : pair ∈ pairs xs) :
    pair.1 ∈ xs ∧ pair.2 ∈ xs := by
  induction xs with
  | nil => exact absurd h List.not_mem_nil
  | cons x xs ih =>
    rcases List.mem_append.mp h with hfirst | hrest
    · obtain ⟨y, hy, rfl⟩ := List.mem_map.mp hfirst
      exact ⟨List.mem_cons_self, List.mem_cons_of_mem x hy⟩
    · obtain ⟨hleft, hright⟩ := ih hrest
      exact ⟨List.mem_cons_of_mem x hleft, List.mem_cons_of_mem x hright⟩

namespace Graph

variable {g : Graph}

/-- An id is that of a stored node of one of these kinds. -/
def HasNode (g : Graph) (kinds : List NodeKind) (id : String) : Prop :=
  ∃ node ∈ g.nodes, node.id = id ∧ node.kind ∈ kinds

/-- A finding is as the profile of its check says. -/
structure Fits (g : Graph) (profile : Profile) (finding : Finding) : Prop where
  defect : finding.defect = .known profile.kind
  severity : finding.severity = profile.severity
  origin : finding.origin = .symbolic
  involved : ∀ id ∈ finding.involved, g.HasNode profile.subjects id

theorem hasNode_obligation {o : Obligation} (h : o ∈ g.obligations) :
    g.HasNode [.obligation] o.id :=
  ⟨.obligation o, mem_obligations_iff.mp h, rfl, List.mem_singleton_self _⟩

theorem hasNode_condition {c : Condition} (h : c ∈ g.conditions) : g.HasNode [.condition] c.id :=
  ⟨.condition c, mem_conditions_iff.mp h, rfl, List.mem_singleton_self _⟩

/-! ## One check after the other -/

theorem fits_circularDependencies {finding : Finding} (h : finding ∈ circularDependencies g) :
    g.Fits ⟨.circularDependency, .critical, NodeKind.all⟩ finding := by
  obtain ⟨cycle, hcycle, rfl⟩ := List.mem_map.mp h
  refine ⟨rfl, rfl, rfl, fun id hid => ?_⟩
  obtain ⟨start, way, hway, hclosed⟩ := exists_isCycle hcycle
  obtain ⟨next, edge, hedge, hsource, -⟩ := hclosed.exists_joins (hway ▸ hid)
  have hnode : id ∈ g.ids := hsource ▸ g.sound.joined hedge .leaving
  obtain ⟨node, hmem, hid⟩ := List.mem_map.mp hnode
  exact ⟨node, hmem, hid, node.kind.mem_all⟩

theorem fits_contradictoryObligations {finding : Finding}
    (h : finding ∈ contradictoryObligations g) :
    g.Fits ⟨.contradictoryObligations, .critical, [.obligation]⟩ finding := by
  obtain ⟨⟨first, second⟩, hpair, rfl⟩ := List.mem_map.mp h
  obtain ⟨hfirst, hsecond⟩ := mem_of_mem_pairs (List.mem_of_mem_filter hpair)
  obtain ⟨o, ho, rfl⟩ := List.mem_map.mp hfirst
  obtain ⟨o', ho', rfl⟩ := List.mem_map.mp hsecond
  refine ⟨rfl, rfl, rfl, fun id hid => ?_⟩
  obtain rfl | rfl : id = o.id ∨ id = o'.id := by
    simpa [contradiction, Finding.symbolic, Stance.of] using hid
  · exact hasNode_obligation ho
  · exact hasNode_obligation ho'

theorem fits_orphanedObligations {finding : Finding} (h : finding ∈ orphanedObligations g) :
    g.Fits ⟨.orphanedObligation, .high, [.obligation]⟩ finding := by
  obtain ⟨o, ho, rfl⟩ := List.mem_map.mp h
  refine ⟨rfl, rfl, rfl, fun id hid => ?_⟩
  obtain rfl : id = o.id := List.mem_singleton.mp hid
  exact hasNode_obligation (List.mem_of_mem_filter ho)

theorem fits_danglingConditions {finding : Finding} (h : finding ∈ danglingConditions g) :
    g.Fits ⟨.danglingCondition, .medium, [.condition]⟩ finding := by
  obtain ⟨c, hc, rfl⟩ := List.mem_map.mp h
  refine ⟨rfl, rfl, rfl, fun id hid => ?_⟩
  obtain rfl : id = c.id := List.mem_singleton.mp hid
  exact hasNode_condition (List.mem_of_mem_filter hc)

theorem fits_missingReciprocities {finding : Finding} (h : finding ∈ missingReciprocities g) :
    g.Fits ⟨.missingReciprocity, .medium, [.obligation]⟩ finding := by
  obtain ⟨group, hgroup, rfl⟩ := List.mem_map.mp h
  have hmem := List.mem_of_mem_filter hgroup
  rw [groupByParty_eq] at hmem
  obtain ⟨party, -, rfl⟩ := List.mem_map.mp hmem
  refine ⟨rfl, rfl, rfl, fun id hid => ?_⟩
  obtain ⟨o, ho, rfl⟩ := List.mem_map.mp hid
  exact hasNode_obligation (List.mem_of_mem_filter ho)

theorem fits_unmatchedReferences {finding : Finding} (h : finding ∈ unmatchedReferences g) :
    g.Fits ⟨.unmatchedReference, .high, [.condition]⟩ finding := by
  obtain ⟨c, hc, hreference⟩ := List.mem_flatMap.mp h
  obtain ⟨reference, -, rfl⟩ := List.mem_map.mp hreference
  refine ⟨rfl, rfl, rfl, fun id hid => ?_⟩
  obtain rfl : id = c.id := List.mem_singleton.mp hid
  exact hasNode_condition hc

/-! ## All checks -/

theorem exists_profile {finding : Finding} (h : finding ∈ findingsOf g) :
    ∃ profile ∈ profiles, g.Fits profile finding := by
  simp only [findingsOf, List.mem_append] at h
  rcases h with ((((h | h) | h) | h) | h) | h
  · exact ⟨_, by simp [profiles], fits_circularDependencies h⟩
  · exact ⟨_, by simp [profiles], fits_contradictoryObligations h⟩
  · exact ⟨_, by simp [profiles], fits_orphanedObligations h⟩
  · exact ⟨_, by simp [profiles], fits_danglingConditions h⟩
  · exact ⟨_, by simp [profiles], fits_missingReciprocities h⟩
  · exact ⟨_, by simp [profiles], fits_unmatchedReferences h⟩

theorem findingsOf_grouped (g : Graph) :
    findingsOf g = profiles.flatMap fun profile => ofKind profile.kind (findingsOf g) := by
  obtain ⟨hcircular, hcontradictory, horphaned, hdangling, hreciprocity, hunmatched⟩ :=
    ofKind_findingsOf_each g
  simp only [profiles, List.flatMap_cons, List.flatMap_nil, hcircular, hcontradictory, horphaned,
    hdangling, hreciprocity, hunmatched]
  simp only [findingsOf, List.append_assoc, List.append_nil]

end Graph

/-- **Every finding keeps to the profile of its check.** It names stored nodes of the kinds that the
check is about and has exactly their lines, in ascending order; and the findings are listed check by
check. -/
theorem findings_profiled (g : Graph) :
    (∀ finding ∈ findingsOf g,
      (∃ profile ∈ profiles, g.Fits profile finding) ∧ g.HasLinesOf finding) ∧
    findingsOf g = profiles.flatMap fun profile => ofKind profile.kind (findingsOf g) :=
  ⟨fun _ h => ⟨Graph.exists_profile h, Graph.hasLinesOf_of_mem_findingsOf h⟩,
    Graph.findingsOf_grouped g⟩

/-- Two obligations on one line contradict each other, and a condition without a line cites a clause
that is not there. -/
theorem findings_profiled_fee :
    let fee : Node := .clause ⟨"clause_1", none, "Fee", "The fee.", 1, none, none⟩
    let duty : Node := .obligation ⟨"obl_1", "Buyer", "pay the fee", none, none, some 4⟩
    let exemption : Node := .obligation ⟨"obl_2", "buyer", "not pay the fee", none, none, some 4⟩
    let notice : Node := .condition ⟨"cond_1", "notice is given", "the fee is due", ["9"], none⟩
    ∃ g, Projection.graph? ⟨[fee, duty, exemption, notice], []⟩ = .ok g ∧
      contradictoryObligations g ≠ [] ∧ unmatchedReferences g ≠ [] ∧
      ∀ finding ∈ findingsOf g,
        (∃ profile ∈ profiles, g.Fits profile finding) ∧ g.HasLinesOf finding := by
  intro fee duty exemption notice
  obtain ⟨g, hg, hcontradictory, hunmatched⟩ :
      ∃ g, Projection.graph? ⟨[fee, duty, exemption, notice], []⟩ = .ok g ∧
        contradictoryObligations g ≠ [] ∧ unmatchedReferences g ≠ [] :=
    exists_ok_of_any (by decide +kernel)
  exact ⟨g, hg, hcontradictory, hunmatched, (findings_profiled g).1⟩

end ContractAnalysis
