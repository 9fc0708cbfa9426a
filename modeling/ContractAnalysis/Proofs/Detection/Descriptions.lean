import ContractAnalysis.Proofs.Attribution
import ContractAnalysis.Proofs.Citation
import ContractAnalysis.Proofs.Detection.Profiles
import ContractAnalysis.Proofs.Text.OneLine

/-!
# Descriptions on one line

What a finding says of a graph is made of fixed words and of texts that it quotes from the nodes:
ids, the party and the action of an obligation, the trigger of a condition and the numbers that it
cites (`Node.quoted`). Where these are on one line each, so is every description
(`Graph.oneLine_description`).

They are in what a document is compiled to (`oneLine_of_compile`): an id is a word and a number, a
party is a word, the captured phrases end where their line does at the latest, and a number that is
cited has nothing but digits and dots.
-/

namespace ContractAnalysis

open Text

/-- The texts of a node that findings quote. -/
def Node.quoted : Node → List String
  | .clause c => [c.id]
  | .obligation o => [o.id, o.party, o.action]
  | .right r => [r.id]
  | .condition c => c.id :: c.trigger :: c.references

theorem Node.id_mem_quoted (node : Node) : node.id ∈ node.quoted := by
  cases node <;> exact List.mem_cons_self

/-- All that findings quote from a node is on one line. -/
def Node.IsOneLine (node : Node) : Prop := ∀ text ∈ node.quoted, Text.IsOneLine text

theorem Node.isOneLine_obligation {o : Obligation} : (Node.obligation o).IsOneLine ↔
    Text.IsOneLine o.id ∧ Text.IsOneLine o.party ∧ Text.IsOneLine o.action := by
  simp [Node.IsOneLine, Node.quoted]

theorem Node.isOneLine_condition {c : Condition} : (Node.condition c).IsOneLine ↔
    Text.IsOneLine c.id ∧ Text.IsOneLine c.trigger ∧
      ∀ reference ∈ c.references, Text.IsOneLine reference := by
  simp [Node.IsOneLine, Node.quoted]

/-! ## One check after the other -/

namespace Graph

variable {g : Graph} {finding : Finding}

theorem oneLine_circularDependency (h : ∀ node ∈ g.nodes, node.IsOneLine)
    (hfinding : finding ∈ circularDependencies g) : IsOneLine finding.description := by
  obtain ⟨cycle, hcycle, rfl⟩ := List.mem_map.mp hfinding
  refine isOneLine_append.mpr ⟨by decide, IsOneLine.intercalate (by decide) fun id hid => ?_⟩
  obtain ⟨node, hnode, rfl, -⟩ := (fits_circularDependencies hfinding).involved id hid
  exact h node hnode _ node.id_mem_quoted

theorem oneLine_contradiction (h : ∀ o ∈ g.obligations, (Node.obligation o).IsOneLine)
    (hfinding : finding ∈ contradictoryObligations g) : IsOneLine finding.description := by
  obtain ⟨⟨first, second⟩, hpair, rfl⟩ := List.mem_map.mp hfinding
  obtain ⟨hfirst, hsecond⟩ := mem_of_mem_pairs (List.mem_of_mem_filter hpair)
  obtain ⟨o, ho, rfl⟩ := List.mem_map.mp hfirst
  obtain ⟨o', ho', rfl⟩ := List.mem_map.mp hsecond
  obtain ⟨-, hparty, haction⟩ := Node.isOneLine_obligation.mp (h o ho)
  obtain ⟨-, -, haction'⟩ := Node.isOneLine_obligation.mp (h o' ho')
  simp only [contradiction, Finding.symbolic, Stance.of, isOneLine_append, hparty, haction,
    haction', true_and, and_true]
  decide

theorem oneLine_orphanedObligation (h : ∀ o ∈ g.obligations, (Node.obligation o).IsOneLine)
    (hfinding : finding ∈ orphanedObligations g) : IsOneLine finding.description := by
  obtain ⟨o, ho, rfl⟩ := List.mem_map.mp hfinding
  obtain ⟨-, -, haction⟩ := Node.isOneLine_obligation.mp (h o (List.mem_of_mem_filter ho))
  simp only [orphanedObligation, Finding.symbolic, isOneLine_append, haction, and_true]
  decide

theorem oneLine_danglingCondition (h : ∀ c ∈ g.conditions, (Node.condition c).IsOneLine)
    (hfinding : finding ∈ danglingConditions g) : IsOneLine finding.description := by
  obtain ⟨c, hc, rfl⟩ := List.mem_map.mp hfinding
  obtain ⟨-, htrigger, -⟩ := Node.isOneLine_condition.mp (h c (List.mem_of_mem_filter hc))
  simp only [danglingCondition, Finding.symbolic, isOneLine_append, htrigger, and_true]
  decide

theorem oneLine_missingReciprocity (h : ∀ o ∈ g.obligations, (Node.obligation o).IsOneLine)
    (hfinding : finding ∈ missingReciprocities g) : IsOneLine finding.description := by
  obtain ⟨group, hgroup, rfl⟩ := List.mem_map.mp hfinding
  have hmem := List.mem_of_mem_filter hgroup
  rw [groupByParty_eq] at hmem
  obtain ⟨key, hkey, rfl⟩ := List.mem_map.mp hmem
  obtain ⟨o, ho, rfl⟩ := List.mem_map.mp (List.mem_eraseDups.mp hkey)
  obtain ⟨-, hparty, -⟩ := Node.isOneLine_obligation.mp (h o ho)
  have hname : IsOneLine o.partyKey := hparty.lowercase
  simp only [missingReciprocity, Finding.symbolic, isOneLine_append, party_groupOf, hname, and_true]
  decide

theorem oneLine_unmatchedReference (h : ∀ c ∈ g.conditions, (Node.condition c).IsOneLine)
    (hfinding : finding ∈ unmatchedReferences g) : IsOneLine finding.description := by
  obtain ⟨c, hc, hmem⟩ := List.mem_flatMap.mp hfinding
  obtain ⟨reference, hreference, rfl⟩ := List.mem_map.mp hmem
  obtain ⟨-, htrigger, hreferences⟩ := Node.isOneLine_condition.mp (h c hc)
  have hnumber : IsOneLine reference := hreferences reference (List.mem_of_mem_filter hreference)
  simp only [unmatchedReference, Finding.symbolic, isOneLine_append, htrigger, hnumber, and_true]
  decide

theorem oneLine_description (h : ∀ node ∈ g.nodes, node.IsOneLine)
    (hfinding : finding ∈ findingsOf g) : IsOneLine finding.description := by
  have hobligations : ∀ o ∈ g.obligations, (Node.obligation o).IsOneLine := fun o ho =>
    h _ (mem_obligations_iff.mp ho)
  have hconditions : ∀ c ∈ g.conditions, (Node.condition c).IsOneLine := fun c hc =>
    h _ (mem_conditions_iff.mp hc)
  simp only [findingsOf, List.mem_append] at hfinding
  rcases hfinding with ((((hmem | hmem) | hmem) | hmem) | hmem) | hmem
  · exact oneLine_circularDependency h hmem
  · exact oneLine_contradiction hobligations hmem
  · exact oneLine_orphanedObligation hobligations hmem
  · exact oneLine_danglingCondition hconditions hmem
  · exact oneLine_missingReciprocity hobligations hmem
  · exact oneLine_unmatchedReference hconditions hmem

end Graph

/-! ## Compiled documents -/

theorem isOneLine_factId (category : FactCategory) (n : Nat) :
    IsOneLine (category.factId n) := by
  have hstem : IsOneLine category.stem := by cases category <;> decide
  have hunderscore : IsOneLine "_" := by decide
  simp [FactCategory.factId, hstem, hunderscore]

theorem isOneLine_clauseId (n : Nat) : IsOneLine (clauseId n) := by
  have hlabel : IsOneLine "clause_" := by decide
  simp [clauseId, hlabel]

theorem isOneLine_of_mem_citedNumbers {text reference : String}
    (h : reference ∈ citedNumbers text) : IsOneLine reference := by
  intro hfeed
  rcases eq_dot_or_isDigit_of_mem_citedNumbers h hfeed with hdot | hdigit
  · exact absurd hdot (by decide)
  · exact absurd hdigit (by decide +kernel)

section Facts

variable {clauses : List Clause}

theorem isOneLine_of_obligation {o : Obligation}
    (h : .obligation o ∈ (extract FactRule.standard clauses).nodes) :
    IsOneLine o.party ∧ IsOneLine o.action := by
  obtain ⟨s, hs, n, hnode⟩ := exists_sighting_of_mem_nodes h
  have hstatement : (s.hit.node n).statement? = some (o.party, o.action) := by rw [hnode]; rfl
  obtain ⟨hparty, haction⟩ := Sighting.of_statement? hs hstatement
  refine ⟨fun hfeed => ?_, haction.oneLine⟩
  exact absurd (hparty.isWord '\n' hfeed) (by decide +kernel)

theorem isOneLine_of_condition {c : Condition}
    (h : .condition c ∈ (extract FactRule.standard clauses).nodes) :
    IsOneLine c.trigger ∧ ∀ reference ∈ c.references, IsOneLine reference := by
  obtain ⟨s, hs, n, hnode⟩ := exists_sighting_of_mem_nodes h
  obtain ⟨-, hrule, -, -⟩ := mem_of_mem_sightingsIn hs
  obtain ⟨hconditions, htrigger, -, hreferences⟩ := Hit.eq_of_node_condition hrule hnode
  obtain ⟨-, -, -, -, -, hphrase⟩ := Sighting.exists_before hs
  have hfirst : IsOneLine s.phrases.first := by
    have hanchor : s.rule = FactRule.conditions := hconditions
    rwa [Sighting.phrase, hanchor] at hphrase
  exact ⟨htrigger ▸ hfirst.trim, fun reference hreference =>
    isOneLine_of_mem_citedNumbers (hreferences ▸ hreference)⟩

theorem isOneLine_fact {fact : Node} (h : fact ∈ (extract FactRule.standard clauses).nodes) :
    fact.IsOneLine := by
  have hid : IsOneLine fact.id := by
    obtain ⟨hit, n, hentry, rfl⟩ := exists_hit_of_mem_nodes h
    have hrule := (clause_mem_of_mem_numberHits hentry).2
    rw [Hit.node, FactRule.keepsId_of_mem_standard hrule]
    exact isOneLine_factId _ n
  cases fact with
  | clause c => exact List.forall_mem_singleton.mpr hid
  | right r => exact List.forall_mem_singleton.mpr hid
  | obligation o => exact Node.isOneLine_obligation.mpr ⟨hid, isOneLine_of_obligation h⟩
  | condition c => exact Node.isOneLine_condition.mpr ⟨hid, isOneLine_of_condition h⟩

end Facts

/-- Every finding of a compiled document is described on one line, and nothing is recommended. -/
theorem oneLine_of_compile (document : Document) :
    ∃ contract, compile FactRule.standard document = .ok contract ∧
      ∀ finding ∈ contract.findings,
        finding.recommendation = none ∧ IsOneLine finding.description := by
  obtain ⟨contract, hcompile, hclauses, hnodes, -, hfindings⟩ :=
    compile_eq_ok (fun _ => FactRule.keepsId_of_mem_standard) document
  refine ⟨contract, hcompile, fun finding hfinding => ?_⟩
  rw [hfindings] at hfinding
  refine ⟨recommendation_of_mem_findingsOf hfinding,
    Graph.oneLine_description (fun node hnode => ?_) hfinding⟩
  rw [hnodes, List.mem_append] at hnode
  rcases hnode with hclause | hfact
  · obtain ⟨clause, hmem, rfl⟩ := List.mem_map.mp hclause
    have hid : clause.id ∈ (clausesOf document.content).map Clause.id :=
      List.mem_map_of_mem (hclauses ▸ hmem)
    rw [map_id_clausesOf] at hid
    obtain ⟨n, -, hn⟩ := List.mem_map.mp hid
    exact List.forall_mem_singleton.mpr (hn ▸ isOneLine_clauseId n)
  · exact isOneLine_fact hfact

end ContractAnalysis
