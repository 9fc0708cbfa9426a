import ContractAnalysis.Graph.Store

/-!
# Contract graphs

A contract graph is a directed multigraph on clauses and facts: a store in which everything agrees.
It starts empty and grows by calls; one that fails ends the building.

* `Graph`, `Graph.perform`: graphs and how they grow
* `Projection`: nodes and edges without any promise, the form in which graphs are exchanged
* `Projection.graph?`: the graph of a projection, or why a part of it does not fit
-/

namespace ContractAnalysis

/-- Nodes and edges as they are listed. -/
structure Projection where
  nodes : List Node
  edges : List Edge
  deriving DecidableEq

/-- A directed multigraph on clauses and facts. -/
structure Graph extends Store where
  sound : toStore.Sound

def Store.projection (s : Store) : Projection := ⟨s.nodes, s.edges⟩

namespace Graph

/-- The graph without nodes. -/
def empty : Graph := ⟨{}, Store.sound_empty⟩

/-- The graph after a call, or why the call fails. -/
def perform (g : Graph) (call : Call) : Except Failure Graph :=
  match h : g.toStore.perform call with
  | (.ok _, s) => .ok ⟨s, by simpa [h] using g.sound.perform call⟩
  | (.error failure, _) => .error failure

/-- The graph after calls, or why the first that fails does. -/
def performAll (g : Graph) (calls : List Call) : Except Failure Graph := calls.foldlM perform g

/-- With one more node, unless its id is taken. -/
def addNode (g : Graph) (node : Node) : Except Failure Graph := g.perform (.addNode node)

/-- With one more edge, unless an end of it is no node. -/
def addEdge (g : Graph) (edge : Edge) : Except Failure Graph := g.perform (.insertEdge edge)

/-- The nodes of a kind, oldest first. -/
def nodesOfKind (g : Graph) (kind : NodeKind) : List Node :=
  g.nodes.filter fun node => node.kind == kind

/-- The obligations, oldest first. -/
def obligations (g : Graph) : List Obligation := g.nodes.filterMap Node.obligation?

/-- The rights, oldest first. -/
def rights (g : Graph) : List Right := g.nodes.filterMap Node.right?

/-- The conditions, oldest first. -/
def conditions (g : Graph) : List Condition := g.nodes.filterMap Node.condition?

/-- The clauses, oldest first. -/
def clauses (g : Graph) : List Clause := g.nodes.filterMap Node.clause?

end Graph

/-- The calls that build what a projection lists: first its nodes, then its edges. -/
def Projection.calls (p : Projection) : List Call :=
  p.nodes.map Call.addNode ++ p.edges.map Call.insertEdge

def Projection.graph? (p : Projection) : Except Failure Graph := Graph.empty.performAll p.calls

end ContractAnalysis
