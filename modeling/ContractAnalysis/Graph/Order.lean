import ContractAnalysis.Graph.Basic

/-!
# A total order of the nodes

Reverse depth-first postorder: the search starts from each node not yet seen, oldest first, takes
the newest edge first, and puts a node in front of all nodes finished before it. In a graph without
cycles every edge points forward in this order.

* `Graph.order`: the ids of the nodes in this order
-/

namespace ContractAnalysis

/-- What a search in postorder has seen and finished. -/
structure PostorderSearch where
  seen : List String
  /-- The nodes finished, the latest first. -/
  finished : List String
  deriving DecidableEq

namespace Graph

/-- Finish everything that can be reached from a node, and then the node, unless it was seen. The
search goes at most `fuel` nodes deep; the nodes of a path differ, so the number of nodes is fuel
enough. -/
def finish (g : Graph) : Nat → PostorderSearch → String → PostorderSearch
  | 0, search, _ => search
  | fuel + 1, search, id =>
    if id ∈ search.seen then search
    else
      let after := (g.newestSuccessors id).foldl (finish g fuel)
        { search with seen := id :: search.seen }
      { after with finished := id :: after.finished }

def order (g : Graph) : List String :=
  (g.ids.foldl (g.finish g.nodes.length) ⟨[], []⟩).finished

end Graph

end ContractAnalysis
