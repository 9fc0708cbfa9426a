import ContractAnalysis.Proofs.Compilation
import ContractAnalysis.Proofs.Detection.Kinds
import ContractAnalysis.Proofs.Graph.Cycle
import Mathlib.Data.List.FinRange

/-!
# The shape of a compiled contract

The graph of a document has two layers (`Layered`). Clauses cite clauses, each at most once, and
under the clauses hang the facts: one edge leads to a fact, from the clause that it was found in,
and none leaves it. Hence a cycle consists of clauses only, and no edge can make a condition count
as used, so that every condition is reported as dangling (`compile_layered`).

* `citations_eq`: citations by the places of the clauses, in ascending order
* `layered_of_lists`: the lists of nodes and edges that an assembly builds have this shape
-/

namespace ContractAnalysis

/-! ## Citations by place -/

section Citations

variable (clauses : List Clause)

/-- Two places of a list, of which the first comes first in the order of pairs. -/
def Precedes {n : Nat} (a b : Fin n × Fin n) : Prop := a.1 < b.1 ∨ a.1 = b.1 ∧ a.2 < b.2

/-- Whether the clause at a place cites the one at another place. -/
def citesAt (i j : Fin clauses.length) : Bool :=
  i != j && clauses[j].citationName.isCitedIn (Cited.ofText clauses[i].body)

/-- The places of citing and cited clauses. -/
def citingPairs : List (Fin clauses.length × Fin clauses.length) :=
  (List.finRange clauses.length).flatMap fun i =>
    ((List.finRange clauses.length).filter (citesAt clauses i)).map fun j => (i, j)

theorem pairwise_citingPairs : (citingPairs clauses).Pairwise Precedes := by
  have hplaces := List.pairwise_lt_finRange clauses.length
  refine List.pairwise_flatMap.mpr ⟨fun i _ => ?_, hplaces.imp fun hlt => ?_⟩
  · exact List.pairwise_map.mpr ((hplaces.filter _).imp fun hlt => .inr ⟨rfl, hlt⟩)
  · rintro a ha b hb
    obtain ⟨j, -, rfl⟩ := List.mem_map.mp ha
    obtain ⟨k, -, rfl⟩ := List.mem_map.mp hb
    exact .inl hlt

theorem mem_citingPairs {i j : Fin clauses.length} :
    (i, j) ∈ citingPairs clauses ↔ citesAt clauses i j = true := by
  simp [citingPairs]

variable {clauses}

theorem getElem_id_inj (h : (clauses.map Clause.id).Nodup) {i j : Fin clauses.length} :
    clauses[i].id = clauses[j].id ↔ i = j := by
  refine ⟨fun heq => ?_, fun heq => heq ▸ rfl⟩
  have hsame : clauses[i] = clauses[j] :=
    List.inj_on_of_nodup_map h (List.getElem_mem _) (List.getElem_mem _) heq
  exact Fin.ext ((List.Nodup.of_map Clause.id h).getElem_inj_iff.mp hsame)

theorem citedBy_eq (h : (clauses.map Clause.id).Nodup) (i : Fin clauses.length) :
    citedBy (clauses.map Clause.citationName) clauses[i] =
      ((List.finRange clauses.length).filter (citesAt clauses i)).map fun j => clauses[j].id := by
  have hnames : clauses.map Clause.citationName =
      (List.finRange clauses.length).map fun j => clauses[j].citationName := by
    conv_lhs => rw [← List.map_getElem_finRange clauses, List.map_map]
    rfl
  rw [citedBy, hnames, List.filter_map, List.map_map]
  refine congrArg (List.map _) (List.filter_congr fun j _ => ?_)
  have hne : (clauses[i].id != clauses[j].id) = (i != j) := by
    rw [Bool.eq_iff_iff, bne_iff_ne, bne_iff_ne, ne_eq, getElem_id_inj h]
  rw [citesAt, ← hne]
  rfl

theorem citations_eq (h : (clauses.map Clause.id).Nodup) :
    citations clauses =
      (citingPairs clauses).map fun (i, j) => (clauses[i].id, clauses[j].id) := by
  have houter : ∀ f : Clause → List (String × String),
      clauses.flatMap f = (List.finRange clauses.length).flatMap fun i => f clauses[i] := by
    intro f
    conv_lhs => rw [← List.map_getElem_finRange clauses, List.flatMap_map]
    rfl
  rw [citations, houter, citingPairs, List.map_flatMap]
  refine List.flatMap_congr fun i _ => ?_
  rw [citedBy_eq h, List.map_map, List.map_map]
  rfl

end Citations

/-! ## Edges at facts -/

/-- A fact is what a numbered match in a clause becomes; its id tells which match that is. -/
def IsFoundIn (rules : List FactRule) (clauses : List Clause) (fact : Node)
    (clause : Clause) : Prop :=
  ∃ hit n, (hit, n) ∈ numberHits {} (hitsIn rules clauses) ∧
    hit ∈ hitsOf clause (scanLines clause) hit.rule ∧ hit.node n = fact

/-- A graph of clauses that cite each other and of the facts that rules find in them. -/
structure Layered (rules : List FactRule) (clauses : List Clause) (facts : List Node)
    (g : Graph) : Prop where
  /-- The clauses come before the facts. -/
  nodes_eq : g.nodes = clauses.map Node.clause ++ facts
  /-- One edge leads to a fact, from the clause that it was found in. -/
  incoming_fact : ∀ fact ∈ facts, ∃ clause ∈ clauses, IsFoundIn rules clauses fact clause ∧
    g.incoming fact.id = [⟨clause.id, fact.id, .derivedFrom⟩]
  /-- No edge leaves a fact. -/
  outgoing_fact : ∀ fact ∈ facts, g.outgoing fact.id = []
  /-- Behind the edges to the facts come those between clauses at different places, ascending. -/
  edges_eq : ∃ derived : List Edge, ∃ pairs : List (Fin clauses.length × Fin clauses.length),
    g.edges = derived ++ pairs.map (fun (i, j) => ⟨clauses[i].id, clauses[j].id, .references⟩) ∧
      derived.map Edge.target = facts.map Node.id ∧ pairs.Pairwise Precedes ∧
      ∀ pair ∈ pairs, pair.1 ≠ pair.2

section Layers

variable {rules : List FactRule} {clauses : List Clause}

theorem mem_hitsOf_of_mem_hitsIn {hit : Hit} (h : hit ∈ hitsIn rules clauses) :
    hit ∈ hitsOf hit.clause (scanLines hit.clause) hit.rule := by
  obtain ⟨clause, -, hfound⟩ := List.mem_flatMap.mp h
  obtain ⟨rule, -, hmem⟩ := List.mem_flatMap.mp hfound
  have hsame : hit.clause = clause ∧ hit.rule = rule := by
    obtain ⟨m, -, hphrases⟩ := List.mem_filterMap.mp hmem
    obtain ⟨phrases, -, rfl⟩ := Option.map_eq_some_iff.mp hphrases
    exact ⟨rfl, rfl⟩
  rwa [hsame.1, hsame.2]

theorem map_target_edges_extract :
    (extract rules clauses).edges.map Edge.target = factIds (hitsIn rules clauses) := by
  rw [extract, List.map_map, factIds]
  rfl

theorem Numbered.id_ne (h : Numbered clauses (extract rules clauses)) {id : String}
    (hid : id ∈ clauses.map Clause.id) {fact : Node}
    (hfact : fact ∈ (extract rules clauses).nodes) : id ≠ fact.id :=
  (List.nodup_append.mp h.distinct).2.2 id hid fact.id (List.mem_map_of_mem hfact)

/-- Of the edges to a fact, one is its own, and no citation leads to it. -/
theorem incoming_fact_eq (hrules : ∀ rule ∈ rules, rule.KeepsId)
    (hnumbered : Numbered clauses (extract rules clauses)) {g : Graph}
    (hedges : g.edges = (extract rules clauses).edges ++ (citations clauses).map citationEdge)
    {fact : Node} (hfact : fact ∈ (extract rules clauses).nodes) :
    ∃ clause ∈ clauses, IsFoundIn rules clauses fact clause ∧
      g.incoming fact.id = [⟨clause.id, fact.id, .derivedFrom⟩] := by
  obtain ⟨hit, n, hentry, hnode⟩ := exists_hit_of_mem_nodes hfact
  obtain ⟨hclause, hrule⟩ := clause_mem_of_mem_numberHits hentry
  have hid : fact.id = hit.factId n := hnode ▸ hrules _ hrule _ _ _
  refine ⟨hit.clause, hclause, ⟨hit, n, hentry,
    mem_hitsOf_of_mem_hitsIn (fst_mem_of_mem_numberHits hentry), hnode⟩, ?_⟩
  have hderived : (extract rules clauses).edges.filter (fun edge => edge.target == fact.id) =
      [hit.edge n] := by
    rw [hid]
    exact filter_key_eq (map_target_edges_extract ▸ nodup_factIds _)
      (List.mem_map.mpr ⟨(hit, n), hentry, rfl⟩)
  have hciting : ((citations clauses).map citationEdge).filter
      (fun edge => edge.target == fact.id) = [] := by
    refine List.filter_eq_nil_iff.mpr fun edge hcites heq => ?_
    obtain ⟨pair, hpair, rfl⟩ := List.mem_map.mp hcites
    exact hnumbered.id_ne (mem_citations hpair).2 hfact (beq_iff_eq.mp heq)
  rw [g.sound.incoming_eq, hedges, List.filter_append, hderived, hciting, List.append_nil, hid]
  rfl

theorem outgoing_fact_eq_nil (hnumbered : Numbered clauses (extract rules clauses)) {g : Graph}
    (hedges : g.edges = (extract rules clauses).edges ++ (citations clauses).map citationEdge)
    {fact : Node} (hfact : fact ∈ (extract rules clauses).nodes) : g.outgoing fact.id = [] := by
  rw [g.sound.outgoing_eq, List.filter_eq_nil_iff, hedges]
  intro edge hedge heq
  refine hnumbered.id_ne ?_ hfact (beq_iff_eq.mp heq)
  rcases List.mem_append.mp hedge with hderived | hcites
  · exact (mem_edges_extract hderived).1
  · obtain ⟨pair, hpair, rfl⟩ := List.mem_map.mp hcites
    exact (mem_citations hpair).1

theorem layered_of_lists (hrules : ∀ rule ∈ rules, rule.KeepsId)
    (hnumbered : Numbered clauses (extract rules clauses)) {g : Graph}
    (hnodes : g.nodes = clauses.map Node.clause ++ (extract rules clauses).nodes)
    (hedges : g.edges = (extract rules clauses).edges ++ (citations clauses).map citationEdge) :
    Layered rules clauses (extract rules clauses).nodes g where
  nodes_eq := hnodes
  incoming_fact _ := incoming_fact_eq hrules hnumbered hedges
  outgoing_fact _ := outgoing_fact_eq_nil hnumbered hedges
  edges_eq := by
    have hnodup : (clauses.map Clause.id).Nodup := (List.nodup_append.mp hnumbered.distinct).1
    refine ⟨(extract rules clauses).edges, citingPairs clauses, ?_, ?_,
      pairwise_citingPairs clauses, ?_⟩
    · rw [hedges, citations_eq hnodup, List.map_map]
      rfl
    · rw [map_target_edges_extract, map_id_nodes_extract hrules]
    · rintro ⟨i, j⟩ hpair
      have hcites := (mem_citingPairs clauses).mp hpair
      simp only [citesAt, Bool.and_eq_true, bne_iff_ne] at hcites
      exact hcites.1

end Layers

theorem compile_standard (document : Document) :
    ∃ contract, compile FactRule.standard document = .ok contract ∧
      contract.clauses = clausesOf document.content ∧
      Numbered contract.clauses (extract FactRule.standard contract.clauses) ∧
      Layered FactRule.standard contract.clauses
        (extract FactRule.standard contract.clauses).nodes contract.graph ∧
      contract.graph.edges = (extract FactRule.standard contract.clauses).edges ++
        (citations contract.clauses).map citationEdge ∧
      contract.findings = findingsOf contract.graph := by
  have hrules : ∀ rule ∈ FactRule.standard, rule.KeepsId :=
    fun _ => FactRule.keepsId_of_mem_standard
  obtain ⟨contract, hcompile, hclauses, hnodes, hedges, hfindings⟩ := compile_eq_ok hrules document
  have hnumbered : Numbered contract.clauses (extract FactRule.standard contract.clauses) :=
    hclauses ▸ numbered_extract hrules document.content
  exact ⟨contract, hcompile, hclauses, hnumbered,
    layered_of_lists hrules hnumbered hnodes hedges, hedges, hfindings⟩

/-! ## Consequences for the findings -/

namespace Layered

variable {rules : List FactRule} {clauses : List Clause} {facts : List Node} {g : Graph}

theorem mem_of_joins (h : Layered rules clauses facts g) {id next : String}
    (hjoins : g.Joins id next) : ∃ clause ∈ clauses, clause.id = id := by
  obtain ⟨edge, hedge, rfl, -⟩ := hjoins
  have hnode : edge.source ∈ g.ids := g.sound.joined hedge .leaving
  rw [Store.ids, h.nodes_eq, List.map_append, List.mem_append] at hnode
  rcases hnode with hclause | hfact
  · rw [List.map_map, List.mem_map] at hclause
    exact hclause
  · obtain ⟨fact, hmem, hid⟩ := List.mem_map.mp hfact
    have hnone := h.outgoing_fact fact hmem
    rw [g.sound.outgoing_eq, List.filter_eq_nil_iff] at hnone
    exact absurd (beq_iff_eq.mpr hid.symm) (hnone edge hedge)

theorem exists_clause_of_circular (h : Layered rules clauses facts g) {finding : Finding}
    (hfinding : finding ∈ circularDependencies g) {id : String} (hid : id ∈ finding.involved) :
    ∃ clause ∈ clauses, clause.id = id := by
  obtain ⟨cycle, hcycle, rfl⟩ := List.mem_map.mp hfinding
  obtain ⟨start, way, hway, hclosed⟩ := Graph.exists_isCycle hcycle
  obtain ⟨next, hjoins⟩ := hclosed.exists_joins (hway ▸ hid)
  exact h.mem_of_joins hjoins

theorem not_isUsed (h : Layered rules clauses facts g) {c : Condition}
    (hc : .condition c ∈ facts) : isUsed g c = false := by
  obtain ⟨clause, -, -, hincoming⟩ := h.incoming_fact _ hc
  have houtgoing := h.outgoing_fact _ hc
  simp only [Node.id] at hincoming houtgoing
  simp [isUsed, hincoming, houtgoing]

theorem conditions_eq (h : Layered rules clauses facts g) :
    g.conditions = facts.filterMap Node.condition? := by
  have hclauses : (clauses.map Node.clause).filterMap Node.condition? = [] := by
    simp [List.filterMap_map, Node.condition?]
  rw [Graph.conditions, h.nodes_eq, List.filterMap_append, hclauses, List.nil_append]

theorem danglingConditions_eq (h : Layered rules clauses facts g) :
    danglingConditions g = (facts.filterMap Node.condition?).map danglingCondition := by
  rw [danglingConditions, h.conditions_eq]
  refine congrArg (List.map _) (List.filter_eq_self.mpr fun c hc => ?_)
  obtain ⟨fact, hfact, hcondition⟩ := List.mem_filterMap.mp hc
  rw [Node.condition?_eq_some_iff] at hcondition
  rw [h.not_isUsed (hcondition ▸ hfact)]
  rfl

end Layered

/-- **The graph of a document has two layers.** So its cycles consist of clauses, and each of its
conditions is reported as dangling once. -/
theorem compile_layered (document : Document) :
    let clauses := clausesOf document.content
    let facts := (extract FactRule.standard clauses).nodes
    let conditions := facts.filterMap Node.condition?
    ∃ contract, compile FactRule.standard document = .ok contract ∧
      Layered FactRule.standard clauses facts contract.graph ∧
      (∀ finding ∈ contract.findings, finding.defect = .known .circularDependency →
        ∀ id ∈ finding.involved, ∃ clause ∈ clauses, clause.id = id) ∧
      ofKind .danglingCondition contract.findings = conditions.map danglingCondition ∧
      (conditions.map (·.id)).Nodup := by
  intro clauses facts conditions
  obtain ⟨contract, hcompile, hclauses, hnodes, hedges, hfindings⟩ :=
    compile_eq_ok (fun _ => FactRule.keepsId_of_mem_standard) document
  rw [hclauses] at hnodes hedges
  have hlayered : Layered FactRule.standard clauses facts contract.graph :=
    layered_of_lists (fun _ => FactRule.keepsId_of_mem_standard)
      (numbered_extract (fun _ => FactRule.keepsId_of_mem_standard) document.content) hnodes hedges
  obtain ⟨hcircular, -, -, hdangling, -, -⟩ := ofKind_findingsOf_each contract.graph
  refine ⟨contract, hcompile, hlayered, ?_, ?_, ?_⟩
  · intro finding hfinding hkind id hid
    have hmem : finding ∈ ofKind .circularDependency contract.findings :=
      List.mem_filter.mpr ⟨hfinding, by simpa using hkind⟩
    rw [hfindings, hcircular] at hmem
    exact hlayered.exists_clause_of_circular hmem hid
  · rw [hfindings, hdangling, hlayered.danglingConditions_eq]
  · have hconditions : contract.graph.conditions = conditions := hlayered.conditions_eq
    exact hconditions ▸ contract.graph.nodup_id_conditions

end ContractAnalysis
