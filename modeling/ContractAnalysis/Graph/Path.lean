import ContractAnalysis.Graph.Basic

/-!
# Cycles and simple paths

* `Graph.cycles`: the cycles that a depth-first search closes, in the order in which it finds them.
  It starts from each node not yet seen, oldest first, and takes the oldest edge first. An edge that
  leads back to a node on the current path closes a cycle: the path from that node on, with the node
  once more at the end. Cycles that share nodes are reported apart.
* `Graph.paths`: the paths from one node to another that visit no node twice, one for each choice
  of edges, the oldest edge first. Their number can be exponential in the size of the graph.
-/

namespace ContractAnalysis

/-! ## Cycles -/

/-- What a search for cycles has seen and found. -/
structure CycleSearch where
  seen : List String
  /-- The cycles found, in order. -/
  cycles : List (List String)
  deriving DecidableEq

namespace Graph

/-- Search from a node that the nodes of `path` lead to. The search goes at most `fuel` nodes deep;
the nodes of a path differ, so the number of nodes is fuel enough. -/
def closeCycles (g : Graph) : Nat → List String → CycleSearch → String → CycleSearch
  | 0, _, search, _ => search
  | fuel + 1, path, search, id =>
    let path := path ++ [id]
    (g.successors id).foldl
      (fun search next =>
        if next ∈ search.seen then
          if next ∈ path then
            { search with cycles := search.cycles ++ [path.dropWhile (· != next) ++ [next]] }
          else search
        else closeCycles g fuel path search next)
      { search with seen := id :: search.seen }

/-- The cycles that a depth-first search closes, in the order in which it finds them. -/
def cycles (g : Graph) : List (List String) :=
  (g.ids.foldl
    (fun search id =>
      if id ∈ search.seen then search else g.closeCycles g.nodes.length [] search id)
    ⟨[], []⟩).cycles

end Graph

/-! ## Simple paths -/

namespace Graph

/-- The ways on from a node that the nodes of `visited` lead to, each as the nodes from there to
the target. A way has at most `fuel` nodes; its nodes differ, so the number of nodes is fuel
enough. -/
def waysOn (g : Graph) (target : String) : Nat → List String → String → List (List String)
  | 0, _, _ => []
  | fuel + 1, visited, id =>
    if id = target then [[id]]
    else
      ((g.successors id).filter fun next => next ∉ id :: visited).flatMap fun next =>
        (waysOn g target fuel (id :: visited) next).map (id :: ·)

/-- The paths from one node to another that visit no node twice, as lists of ids. -/
def paths (g : Graph) (source target : String) : List (List String) :=
  if source ∈ g.ids ∧ target ∈ g.ids then g.waysOn target g.nodes.length [] source else []

end Graph

end ContractAnalysis
