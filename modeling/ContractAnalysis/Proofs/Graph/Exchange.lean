import ContractAnalysis.Detection
import ContractAnalysis.Graph.Order
import ContractAnalysis.Graph.Path
import ContractAnalysis.Proofs.Graph.Calls

/-!
# Graphs and their projections

A projection is the projection of a graph exactly when it `Fits`, and the graph is then built from
it again (`graph?_eq_ok_iff`): a graph keeps nothing that its projection does not list, so whatever
a rebuilt graph is asked, it answers like the first one. A projection that does not fit is refused
for the first part, in reading order, that does not (`graph?_eq_error_iff`).
-/

namespace ContractAnalysis

namespace Projection

def ids (p : Projection) : List String := p.nodes.map Node.id

/-- No two nodes share an id, and every edge joins two of the nodes. -/
structure Fits (p : Projection) : Prop where
  distinct : p.ids.Nodup
  joined : ∀ edge ∈ p.edges, edge.source ∈ p.ids ∧ edge.target ∈ p.ids

/-- The first node, in reading order, whose id an earlier node has. -/
def FirstDuplicate (p : Projection) (failure : Failure) : Prop :=
  ∃ before node after, p.nodes = before ++ node :: after ∧ (before.map Node.id).Nodup ∧
    node.id ∈ before.map Node.id ∧ failure = .duplicateNode node.id

/-- The first end of an edge, in reading order and the source before the target, that is no
node. -/
def FirstUnknown (p : Projection) (failure : Failure) : Prop :=
  ∃ before edge after, p.edges = before ++ edge :: after ∧
    (∀ other ∈ before, other.source ∈ p.ids ∧ other.target ∈ p.ids) ∧
    ((edge.source ∉ p.ids ∧ failure = .unknownNode edge.source) ∨
      (edge.source ∈ p.ids ∧ edge.target ∉ p.ids ∧ failure = .unknownNode edge.target))

/-- What a projection is refused for: its nodes are read before its edges. -/
def FirstFailure (p : Projection) (failure : Failure) : Prop :=
  p.FirstDuplicate failure ∨ (p.ids.Nodup ∧ p.FirstUnknown failure)

/-! ## Faults -/

theorem flatMap_nodes_calls (p : Projection) : p.calls.flatMap Call.nodes = p.nodes := by
  simp [calls, List.flatMap_map, Call.nodes]

theorem flatMap_edges_calls (p : Projection) : p.calls.flatMap Call.edges = p.edges := by
  simp [calls, List.flatMap_map, Call.edges]

theorem firstFault?_calls (p : Projection) :
    Call.firstFault? [] p.calls = (Call.firstFault? [] (p.nodes.map Call.addNode)).or
      (Call.firstFault? p.ids (p.edges.map Call.insertEdge)) := by
  rw [calls, Call.firstFault?_append, Call.addedIds_addNodes, List.nil_append, ids]

theorem firstFault?_nodes_eq_none_iff (nodes : List Node) :
    Call.firstFault? [] (nodes.map Call.addNode) = none ↔ (nodes.map Node.id).Nodup :=
  Call.firstFault?_addNodes_eq_none_iff List.nodup_nil nodes

theorem firstFault?_edges_eq_none_iff (ids : List String) (edges : List Edge) :
    Call.firstFault? ids (edges.map Call.insertEdge) = none ↔
      ∀ edge ∈ edges, edge.source ∈ ids ∧ edge.target ∈ ids := by
  rw [Call.firstFault?_eq_none_iff_of_noNodes (by simp [Call.nodes]), List.forall_mem_map]
  simp only [Call.fault?, Call.edgeFault?_eq_none_iff]

theorem fits_iff (p : Projection) : p.Fits ↔ Call.firstFault? [] p.calls = none := by
  rw [firstFault?_calls, Option.or_eq_none_iff, firstFault?_nodes_eq_none_iff,
    firstFault?_edges_eq_none_iff]
  exact ⟨fun h => ⟨h.distinct, h.joined⟩, fun h => ⟨h.1, h.2⟩⟩

theorem firstDuplicate_iff (p : Projection) (failure : Failure) :
    p.FirstDuplicate failure ↔
      Call.firstFault? [] (p.nodes.map Call.addNode) = some failure := by
  rw [Call.firstFault?_eq_some_iff]
  constructor
  · rintro ⟨before, node, after, hnodes, hbefore, hid, rfl⟩
    refine ⟨before.map Call.addNode, .addNode node, after.map Call.addNode, by simp [hnodes],
      (firstFault?_nodes_eq_none_iff before).mpr hbefore, ?_⟩
    simp [Call.fault?, Call.addedIds_addNodes, hid]
  · rintro ⟨before, call, after, hnodes, hbefore, hcall⟩
    obtain ⟨nodes, rest, hsplit, rfl, hrest⟩ := List.map_eq_append_iff.mp hnodes
    obtain ⟨node, nodes', rfl, rfl, -⟩ := List.map_eq_cons_iff.mp hrest
    rw [Call.addedIds_addNodes, List.nil_append] at hcall
    obtain ⟨hid, heq⟩ := Option.ite_none_right_eq_some.mp hcall
    exact ⟨nodes, node, nodes', hsplit, (firstFault?_nodes_eq_none_iff nodes).mp hbefore, hid,
      (Option.some.inj heq).symm⟩

theorem addedIds_insertEdges (edges : List Edge) :
    Call.addedIds (edges.map Call.insertEdge) = [] := by
  simp [Call.addedIds, List.flatMap_map, Call.nodes]

theorem firstUnknown_iff (p : Projection) (failure : Failure) :
    p.FirstUnknown failure ↔
      Call.firstFault? p.ids (p.edges.map Call.insertEdge) = some failure := by
  rw [Call.firstFault?_eq_some_iff]
  constructor
  · rintro ⟨before, edge, after, hedges, hbefore, hfailure⟩
    refine ⟨before.map Call.insertEdge, .insertEdge edge, after.map Call.insertEdge,
      by simp [hedges], (firstFault?_edges_eq_none_iff p.ids before).mpr hbefore, ?_⟩
    rw [addedIds_insertEdges, List.append_nil]
    exact Call.edgeFault?_eq_some_iff.mpr hfailure
  · rintro ⟨before, call, after, hedges, hbefore, hcall⟩
    obtain ⟨edges, rest, hsplit, rfl, hrest⟩ := List.map_eq_append_iff.mp hedges
    obtain ⟨edge, edges', rfl, rfl, -⟩ := List.map_eq_cons_iff.mp hrest
    rw [addedIds_insertEdges, List.append_nil] at hcall
    exact ⟨edges, edge, edges', hsplit, (firstFault?_edges_eq_none_iff p.ids edges).mp hbefore,
      Call.edgeFault?_eq_some_iff.mp hcall⟩

/-! ## Graphs of projections -/

theorem graph?_eq_ok_iff_fits (p : Projection) (g : Graph) :
    p.graph? = .ok g ↔ p.Fits ∧ g.projection = p := by
  rw [graph?, Graph.performAll_eq_ok_iff, flatMap_nodes_calls, flatMap_edges_calls, fits_iff]
  refine and_congr Iff.rfl ⟨fun h => ?_, fun h => ?_⟩
  · obtain ⟨hnodes, hedges⟩ := h
    rw [Store.projection, hnodes, hedges]
    rfl
  · rw [← h]
    exact ⟨rfl, rfl⟩

theorem fits_projection (g : Graph) : g.projection.Fits where
  distinct := g.sound.distinct
  joined _ hedge := ⟨g.sound.joined hedge .leaving, g.sound.joined hedge .entering⟩

/-- A projection yields the graph whose projection it is. -/
theorem graph?_eq_ok_iff (p : Projection) (g : Graph) : p.graph? = .ok g ↔ g.projection = p := by
  rw [graph?_eq_ok_iff_fits]
  refine ⟨fun h => h.2, fun h => ⟨?_, h⟩⟩
  rw [← h]
  exact fits_projection g

theorem exists_graph?_iff (p : Projection) : (∃ g, p.graph? = .ok g) ↔ p.Fits := by
  constructor
  · rintro ⟨g, hg⟩
    exact ((graph?_eq_ok_iff_fits p g).mp hg).1
  · intro hfits
    obtain ⟨g, hg, -⟩ := Graph.performAll_of_fits (g := .empty) ((fits_iff p).mp hfits)
    exact ⟨g, hg⟩

theorem graph?_eq_error_iff (p : Projection) (failure : Failure) :
    p.graph? = .error failure ↔ p.FirstFailure failure := by
  rw [graph?, Graph.performAll_eq_error_iff, FirstFailure, firstDuplicate_iff, firstUnknown_iff,
    ids, ← firstFault?_nodes_eq_none_iff]
  change Call.firstFault? [] p.calls = some failure ↔ _
  rw [firstFault?_calls, Option.or_eq_some_iff]
  rfl

end Projection

/-- Two graphs that answer alike whatever they are asked. -/
structure Graph.Alike (g g' : Graph) : Prop where
  nodes : g.nodes = g'.nodes
  edges : g.edges = g'.edges
  node? : ∀ id, g.node? id = g'.node? id
  outgoing : ∀ id, g.outgoing id = g'.outgoing id
  incoming : ∀ id, g.incoming id = g'.incoming id
  neighbors : ∀ id, g.neighbors id = g'.neighbors id
  cycles : g.cycles = g'.cycles
  order : g.order = g'.order
  paths : ∀ source target, g.paths source target = g'.paths source target
  findings : findingsOf g = findingsOf g'

theorem Graph.Alike.refl (g : Graph) : g.Alike g :=
  ⟨rfl, rfl, fun _ => rfl, fun _ => rfl, fun _ => rfl, fun _ => rfl, rfl, rfl, fun _ _ => rfl, rfl⟩

/-- Projections and graphs are exchanged without loss: a projection yields a graph exactly when it
fits, namely the one that it is the projection of; a projection that does not fit is refused for its
first fault; and a graph that is rebuilt from its projection answers as before. -/
theorem Projection.exchange (p : Projection) :
    ((∃ g, p.graph? = .ok g) ↔ p.Fits) ∧
    (∀ g, p.graph? = .ok g ↔ g.projection = p) ∧
    (∀ failure, p.graph? = .error failure ↔ p.FirstFailure failure) ∧
    (∀ g : Graph, ∃ g', g.projection.graph? = .ok g' ∧ g.Alike g') :=
  ⟨p.exists_graph?_iff, p.graph?_eq_ok_iff, p.graph?_eq_error_iff,
    fun g => ⟨g, (g.projection.graph?_eq_ok_iff g).mpr rfl, .refl g⟩⟩

end ContractAnalysis
