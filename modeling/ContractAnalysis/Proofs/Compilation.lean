import ContractAnalysis.Analysis
import ContractAnalysis.Proofs.Extraction
import ContractAnalysis.Proofs.Graph.Exchange

/-!
# Compilation never fails

Where the rules keep the ids that they are handed, every document is compiled (`compile_total`). The
ids of its clauses and facts are `Numbered`, so no node is refused; and the calls that assemble the
graph name a node in an edge only after they have added it (`Call.EndsFirst`), so no edge is refused
either.
-/

namespace ContractAnalysis

/-- Every edge comes after the nodes that it joins. -/
def Call.EndsFirst (calls : List Call) : Prop :=
  ∀ before call after, calls = before ++ call :: after → ∀ edge ∈ call.edges,
    edge.source ∈ Call.addedIds before ∧ edge.target ∈ Call.addedIds before

theorem Call.endsFirst_of_firstFault? {calls : List Call} (h : Call.firstFault? [] calls = none) :
    Call.EndsFirst calls := by
  rintro before call after rfl edge hedge
  have hfault := Call.fault?_eq_none_of_firstFault? h
  rw [List.nil_append] at hfault
  exact Call.mem_of_fault?_eq_none hfault hedge

/-- The clauses are numbered from 1 on, and so are the facts of each category; no two of all these
nodes share an id. -/
structure Numbered (clauses : List Clause) (facts : Projection) : Prop where
  clauseIds : clauses.map Clause.id = (List.range' 1 clauses.length).map clauseId
  factIds : ∃ counts : FactCategory → Nat,
    let ids category := (List.range' 1 (counts category)).map (FactCategory.factId category)
    (facts.nodes.map Node.id).Perm (FactCategory.all.flatMap ids) ∧
      ∀ category, (ids category).Sublist (facts.nodes.map Node.id)
  distinct : (clauses.map Clause.id ++ facts.nodes.map Node.id).Nodup

section Assembly

variable {rules : List FactRule}

theorem numbered_extract (hrules : ∀ rule ∈ rules, rule.KeepsId) (text : String) :
    Numbered (clausesOf text) (extract rules (clausesOf text)) where
  clauseIds := map_id_clausesOf text
  factIds := by
    rw [map_id_nodes_extract hrules]
    exact ⟨_, factIds_perm _, idsOfCategory_sublist _⟩
  distinct := by
    rw [map_id_nodes_extract hrules, map_id_clausesOf, List.nodup_append]
    refine ⟨nodup_map_range' clauseId_injective _ _, nodup_factIds _, ?_⟩
    intro id hid other hother
    obtain ⟨m, -, rfl⟩ := List.mem_map.mp hid
    obtain ⟨category, n, rfl⟩ := mem_factIds hother
    exact clauseId_ne_factId m category n

theorem mem_citations {clauses : List Clause} {pair : String × String}
    (h : pair ∈ citations clauses) :
    pair.1 ∈ clauses.map Clause.id ∧ pair.2 ∈ clauses.map Clause.id := by
  obtain ⟨clause, hclause, hpair⟩ := List.mem_flatMap.mp h
  obtain ⟨id, hid, rfl⟩ := List.mem_map.mp hpair
  obtain ⟨name, hname, rfl⟩ := List.mem_map.mp hid
  obtain ⟨other, hother, rfl⟩ := List.mem_map.mp (List.mem_of_mem_filter hname)
  exact ⟨List.mem_map_of_mem hclause, List.mem_map_of_mem hother⟩

def nodeCalls (clauses : List Clause) (facts : Projection) : List Call :=
  (clauses.map Node.clause ++ facts.nodes).map Call.addNode

def edgeCalls (clauses : List Clause) (facts : Projection) : List Call :=
  facts.edges.map Call.insertEdge ++
    (citations clauses).map fun (source, target) => .addEdge source target .references

theorem assemblyCalls_eq (clauses : List Clause) (facts : Projection) :
    assemblyCalls clauses facts = nodeCalls clauses facts ++ edgeCalls clauses facts := by
  simp only [assemblyCalls, nodeCalls, edgeCalls, List.map_append, List.map_map,
    List.append_assoc]
  rfl

theorem addedIds_nodeCalls (clauses : List Clause) (facts : Projection) :
    Call.addedIds (nodeCalls clauses facts) =
      clauses.map Clause.id ++ facts.nodes.map Node.id := by
  rw [nodeCalls, Call.addedIds_addNodes, List.map_append, List.map_map]
  rfl

theorem nodes_eq_nil_of_mem_edgeCalls {clauses : List Clause} {facts : Projection} {call : Call}
    (h : call ∈ edgeCalls clauses facts) : call.nodes = [] := by
  simp only [edgeCalls, List.mem_append, List.mem_map] at h
  rcases h with ⟨edge, -, rfl⟩ | ⟨pair, -, rfl⟩ <;> rfl

theorem flatMap_nodes_assemblyCalls (clauses : List Clause) (facts : Projection) :
    (assemblyCalls clauses facts).flatMap Call.nodes =
      clauses.map Node.clause ++ facts.nodes := by
  rw [assemblyCalls_eq, List.flatMap_append, nodeCalls, Call.flatMap_nodes_addNodes,
    List.flatMap_eq_nil_iff.mpr fun _ => nodes_eq_nil_of_mem_edgeCalls, List.append_nil]

def citationEdge (pair : String × String) : Edge := ⟨pair.1, pair.2, .references⟩

theorem flatMap_edges_assemblyCalls (clauses : List Clause) (facts : Projection) :
    (assemblyCalls clauses facts).flatMap Call.edges =
      facts.edges ++ (citations clauses).map citationEdge := by
  have hnodes : (nodeCalls clauses facts).flatMap Call.edges = [] := by
    rw [nodeCalls, List.flatMap_map, List.flatMap_eq_nil_iff]
    exact fun _ _ => rfl
  rw [assemblyCalls_eq, List.flatMap_append, hnodes, List.nil_append, edgeCalls,
    List.flatMap_append, List.flatMap_map, List.flatMap_map, List.map_eq_flatMap]
  exact congrArg (· ++ _) (List.flatMap_singleton' facts.edges)

/-- The calls of an assembly have no fault exactly where the facts fit to the clauses: a citation
never leads elsewhere. -/
theorem firstFault?_assemblyCalls_eq_none_iff (clauses : List Clause) (facts : Projection) :
    Call.firstFault? [] (assemblyCalls clauses facts) = none ↔
      Projection.Fits ⟨clauses.map Node.clause ++ facts.nodes, facts.edges⟩ := by
  have hids : Projection.ids ⟨clauses.map Node.clause ++ facts.nodes, facts.edges⟩ =
      clauses.map Clause.id ++ facts.nodes.map Node.id := by
    rw [Projection.ids, List.map_append, List.map_map]
    rfl
  have hcitations : ∀ pair ∈ citations clauses,
      Call.fault? (clauses.map Clause.id ++ facts.nodes.map Node.id)
        (.addEdge pair.1 pair.2 .references) = none := by
    intro pair hpair
    obtain ⟨hsource, htarget⟩ := mem_citations hpair
    exact Call.edgeFault?_eq_none_iff.mpr
      ⟨List.mem_append_left _ hsource, List.mem_append_left _ htarget⟩
  rw [assemblyCalls_eq, Call.firstFault?_append, Option.or_eq_none_iff, addedIds_nodeCalls,
    List.nil_append, Call.firstFault?_eq_none_iff_of_noNodes fun _ => nodes_eq_nil_of_mem_edgeCalls,
    nodeCalls, Call.firstFault?_addNodes_eq_none_iff List.nodup_nil, List.nil_append, edgeCalls,
    List.forall_mem_append, List.forall_mem_map, List.forall_mem_map, and_iff_left hcitations]
  constructor
  · rintro ⟨hdistinct, hjoined⟩
    refine ⟨hdistinct, fun edge hedge => ?_⟩
    rw [hids]
    exact Call.edgeFault?_eq_none_iff.mp (hjoined edge hedge)
  · rintro ⟨hdistinct, hjoined⟩
    refine ⟨hdistinct, fun edge hedge => Call.edgeFault?_eq_none_iff.mpr ?_⟩
    rw [← hids]
    exact hjoined edge hedge

theorem assemble_eq_ok_iff {clauses : List Clause} {facts : Projection} {g : Graph} :
    assemble clauses facts = .ok g ↔
      Projection.Fits ⟨clauses.map Node.clause ++ facts.nodes, facts.edges⟩ ∧
        g.nodes = clauses.map Node.clause ++ facts.nodes ∧
        g.edges = facts.edges ++ (citations clauses).map citationEdge := by
  rw [assemble, Graph.performAll_eq_ok_iff, flatMap_nodes_assemblyCalls,
    flatMap_edges_assemblyCalls]
  exact and_congr (firstFault?_assemblyCalls_eq_none_iff clauses facts) Iff.rfl

theorem exists_assemble_iff {clauses : List Clause} {facts : Projection} :
    (∃ g, assemble clauses facts = .ok g) ↔
      Projection.Fits ⟨clauses.map Node.clause ++ facts.nodes, facts.edges⟩ := by
  refine ⟨fun ⟨g, hg⟩ => (assemble_eq_ok_iff.mp hg).1, fun hfits => ?_⟩
  obtain ⟨g, hg, -⟩ := Graph.performAll_of_fits (g := .empty)
    ((firstFault?_assemblyCalls_eq_none_iff clauses facts).mpr hfits)
  exact ⟨g, hg⟩

theorem fits_extract (hrules : ∀ rule ∈ rules, rule.KeepsId) (text : String) :
    let facts := extract rules (clausesOf text)
    Projection.Fits ⟨(clausesOf text).map Node.clause ++ facts.nodes, facts.edges⟩ where
  distinct := by
    simpa [Projection.ids, Function.comp_def, Node.id] using (numbered_extract hrules text).distinct
  joined edge hedge := by
    obtain ⟨hsource, htarget⟩ := mem_edges_extract hedge
    rw [← map_id_nodes_extract hrules] at htarget
    rw [Projection.ids, List.map_append, List.map_map]
    exact ⟨List.mem_append_left _ hsource, List.mem_append_right _ htarget⟩

theorem compile_of_assemble {document : Document} {g : Graph}
    (h : assemble (clausesOf document.content) (extract rules (clausesOf document.content)) =
      .ok g) :
    compile rules document =
      .ok ⟨clausesOf document.content, partiesIn document.content, g, findingsOf g⟩ := by
  simp only [compile, h]
  rfl

/-- A document is compiled to its clauses and facts, with the edges of facts and citations. -/
theorem compile_eq_ok (hrules : ∀ rule ∈ rules, rule.KeepsId) (document : Document) :
    ∃ contract, compile rules document = .ok contract ∧
      contract.clauses = clausesOf document.content ∧
      contract.graph.nodes = contract.clauses.map Node.clause ++
        (extract rules contract.clauses).nodes ∧
      contract.graph.edges = (extract rules contract.clauses).edges ++
        (citations contract.clauses).map citationEdge ∧
      contract.findings = findingsOf contract.graph := by
  obtain ⟨g, hg⟩ := exists_assemble_iff.mpr (fits_extract hrules document.content)
  obtain ⟨-, hnodes, hedges⟩ := assemble_eq_ok_iff.mp hg
  exact ⟨_, compile_of_assemble hg, rfl, hnodes, hedges, rfl⟩

end Assembly

theorem Analyst.run_of_compile {analyst : Analyst} {stamp : Stamp} {document : Document}
    {contract : CompiledContract} (h : compile analyst.rules document = .ok contract) :
    analyst.run stamp document = .ok (analyst.report stamp document contract).run := by
  rw [run, AnalystIn.run, h]
  rfl

/-- **Every document is compiled**, and a report on it is made whatever the reviewer does. -/
theorem compile_total (rules : List FactRule)
    (hrules : rules = FactRule.standard ∨ ∀ rule ∈ rules, rule.KeepsId) (document : Document) :
    let clauses := clausesOf document.content
    let facts := extract rules clauses
    Numbered clauses facts ∧
    Call.EndsFirst (assemblyCalls clauses facts) ∧
    (∃ contract, compile rules document = .ok contract ∧
      contract.clauses = clauses ∧
      contract.graph.nodes = clauses.map Node.clause ++ facts.nodes ∧
      contract.graph.edges = facts.edges ++ (citations clauses).map citationEdge) ∧
    ∀ (reviewer : Option Reviewer) (stamp : Stamp),
      ∃ outcome, Analyst.run ⟨rules, reviewer⟩ stamp document = .ok outcome := by
  have hkeeps : ∀ rule ∈ rules, rule.KeepsId := by
    rcases hrules with rfl | hkeeps
    · exact fun _ => FactRule.keepsId_of_mem_standard
    · exact hkeeps
  obtain ⟨contract, hcompile, hclauses, hnodes, hedges, -⟩ := compile_eq_ok hkeeps document
  rw [hclauses] at hnodes hedges
  refine ⟨numbered_extract hkeeps document.content,
    Call.endsFirst_of_firstFault?
      ((firstFault?_assemblyCalls_eq_none_iff _ _).mpr (fits_extract hkeeps document.content)),
    ⟨contract, hcompile, hclauses, hnodes, hedges⟩, fun reviewer stamp => ?_⟩
  exact ⟨_, Analyst.run_of_compile hcompile⟩

theorem compile_total_undertaking :
    ∃ contract, compile [FactRule.undertaking, FactRule.cancellation]
      ⟨"lease.txt", "The Tenant undertakes to pay. The Landlord can cancel at will."⟩ =
        .ok contract := by
  have hrules : ∀ rule ∈ [FactRule.undertaking, FactRule.cancellation], rule.KeepsId := by
    simp only [List.forall_mem_cons]
    exact ⟨FactRule.keepsId_undertaking, FactRule.keepsId_cancellation, by simp⟩
  obtain ⟨-, -, ⟨contract, hcompile, -⟩, -⟩ := compile_total _ (.inr hrules)
    ⟨"lease.txt", "The Tenant undertakes to pay. The Landlord can cancel at will."⟩
  exact ⟨contract, hcompile⟩

end ContractAnalysis
