import ContractAnalysis.Proofs.Graph.Cycle
import ContractAnalysis.Proofs.Graph.Exchange

/-!
# The reported cycles meet every cycle

A reported cycle ends with the edge that closed it. Without these edges nothing leads from a node
back to itself, so every cycle takes one of them (`cycles_cover`). The rank that the search leaves
the nodes in shows this: the edges that are kept lead to higher ranks. And it shows more, since it
may be restricted to the nodes that are linked to a given one in both directions: where one of
these nodes lies on a cycle, an edge between two of them closes a reported cycle, which then stays
among them (`exists_linked_cycle`).

* `Graph.Linked`: ways lead from one node to another and back
* `Graph.opened`: a graph without the edges that close its reported cycles
-/

namespace ContractAnalysis

namespace Graph

variable {g : Graph}

open Relation (ReflTransGen TransGen)

/-- Ways lead from one node to another and back: the two lie in one strongly connected component. -/
def Linked (g : Graph) (id other : String) : Prop :=
  ReflTransGen g.Joins id other ∧ ReflTransGen g.Joins other id

theorem Linked.symm {id other : String} (h : g.Linked id other) : g.Linked other id := ⟨h.2, h.1⟩

theorem Linked.trans {id other third : String} (h : g.Linked id other)
    (h' : g.Linked other third) : g.Linked id third := ⟨h.1.trans h'.1, h'.2.trans h.2⟩

theorem IsCycle.linked {id : String} {way : List String} (h : g.IsCycle id way) {other : String}
    (hother : other ∈ id :: way ++ [id]) : g.Linked id other := by
  have hall := (h.along.imp fun _ _ => TransGen.single).pairwise
  obtain ⟨hway, -, hback⟩ := List.pairwise_append.mp hall
  have hfrom : other ∈ id :: way → g.Linked id other := by
    intro hmem
    refine ⟨?_, (hback other hmem id (List.mem_singleton_self id)).to_reflTransGen⟩
    rcases List.mem_cons.mp hmem with rfl | hmem
    · exact .refl
    · exact (List.rel_of_pairwise_cons hway hmem).to_reflTransGen
  rcases List.mem_append.mp hother with hmem | hmem
  · exact hfrom hmem
  · rw [List.mem_singleton.mp hmem]
    exact ⟨.refl, .refl⟩

/-- A step along an edge between nodes that are linked to a given one. -/
def Within (g : Graph) (id first next : String) : Prop :=
  g.Joins first next ∧ g.Linked id first ∧ g.Linked id next

theorem transGen_within {id last : String} (h : TransGen g.Joins id last)
    (hback : ReflTransGen g.Joins last id) : TransGen (g.Within id) id last := by
  induction h with
  | single hjoins => exact .single ⟨hjoins, ⟨.refl, .refl⟩, .single hjoins, hback⟩
  | @tail middle last hway hjoins ih =>
    have hmiddle : ReflTransGen g.Joins middle id := .head hjoins hback
    have hlast : ReflTransGen g.Joins id last := hway.to_reflTransGen.tail hjoins
    exact .tail (ih hmiddle) ⟨hjoins, ⟨hway.to_reflTransGen, hmiddle⟩, hlast, hback⟩

theorem exists_linked_cycle {id : String} (h : TransGen g.Joins id id) :
    ∃ cycle ∈ g.cycles, ∀ other ∈ cycle, g.Linked id other := by
  by_contra hnone
  obtain ⟨rank, hrank⟩ := exists_rank g
  refine not_transGen_of_rank rank (fun first next hstep => ?_) id (transGen_within h .refl)
  obtain ⟨hjoins, hfirst, -⟩ := hstep
  refine (hrank first next hjoins).resolve_right ?_
  rintro ⟨cycle, hcycle, hends⟩
  refine hnone ⟨cycle, hcycle, fun other hother => hfirst.trans ?_⟩
  obtain ⟨start, way, rfl, hclosed⟩ := exists_isCycle hcycle
  have hmem : first ∈ start :: way ++ [start] := hends.subset (by simp)
  exact (hclosed.linked hmem).symm.trans (hclosed.linked hother)

/-! ## Without the closing edges -/

instance (cycles : List (List String)) (id next : String) : Decidable (Closes cycles id next) :=
  inferInstanceAs (Decidable (∃ cycle ∈ cycles, [id, next] <:+ cycle))

/-- A graph without the edges that close its reported cycles. -/
def opened (g : Graph) : Projection where
  nodes := g.nodes
  edges := g.edges.filter fun edge => ¬Closes g.cycles edge.source edge.target

theorem fits_opened (g : Graph) : g.opened.Fits where
  distinct := g.sound.distinct
  joined edge hedge := (Projection.fits_projection g).joined edge (List.mem_of_mem_filter hedge)

/-- What is left is a graph, and nothing in it leads from a node back to itself. -/
theorem exists_opened (g : Graph) :
    ∃ g', g.opened.graph? = .ok g' ∧ ∀ id, ¬TransGen g'.Joins id id := by
  obtain ⟨g', hg'⟩ := (Projection.exists_graph?_iff g.opened).mpr (fits_opened g)
  refine ⟨g', hg', ?_⟩
  obtain ⟨rank, hrank⟩ := exists_rank g
  refine not_transGen_of_rank rank ?_
  rintro id next ⟨edge, hedge, rfl, rfl⟩
  have hedges : g'.edges = g.opened.edges :=
    congrArg Projection.edges ((Projection.graph?_eq_ok_iff g.opened g').mp hg')
  rw [hedges] at hedge
  obtain ⟨hmem, hkept⟩ := List.mem_filter.mp hedge
  exact (hrank _ _ ⟨edge, hmem, rfl, rfl⟩).resolve_right (of_decide_eq_true hkept)

/-- Every reported list is a cycle: a node, a way on along edges that meets no node twice, and the
node again. Without the edges that the reported cycles end with, parallel ones included, no cycle is
left. So nothing is reported exactly when the graph has no cycle, and where a strongly connected
component has a cycle, a reported one lies in it. -/
theorem cycles_cover (g : Graph) :
    (∀ cycle ∈ g.cycles, ∃ id way, cycle = id :: way ++ [id] ∧ g.IsCycle id way) ∧
    (∃ g', g.opened.graph? = .ok g' ∧ ∀ id, ¬TransGen g'.Joins id id) ∧
    (g.cycles = [] ↔ ∀ id, ¬TransGen g.Joins id id) ∧
    (∀ id, TransGen g.Joins id id → ∃ cycle ∈ g.cycles, ∀ other ∈ cycle, g.Linked id other) :=
  ⟨fun _ => exists_isCycle, exists_opened g, cycles_eq_nil_iff, fun _ => exists_linked_cycle⟩

/-- Two rounds through one node, of which one is closed by two edges. -/
theorem cycles_cover_rounds :
    let clause (id : String) : Node := .clause (.leveled id "" "" 1 none)
    let nodes := [clause "a", clause "b", clause "c"]
    let edges : List Edge := [⟨"a", "b", .references⟩, ⟨"b", "c", .references⟩,
      ⟨"c", "b", .references⟩, ⟨"b", "a", .references⟩, ⟨"c", "b", .dependsOn⟩]
    ∃ g, Projection.graph? ⟨nodes, edges⟩ = .ok g ∧
      g.cycles = [["b", "c", "b"], ["b", "c", "b"], ["a", "b", "a"]] ∧
      g.opened.edges = [⟨"a", "b", .references⟩, ⟨"b", "c", .references⟩] ∧
      (∃ g', g.opened.graph? = .ok g' ∧ ∀ id, ¬TransGen g'.Joins id id) ∧
      ∀ other ∈ ["b", "c"], g.Linked "b" other := by
  intro clause nodes edges
  obtain ⟨g, hg, hcycles, hopened⟩ : ∃ g, Projection.graph? ⟨nodes, edges⟩ = .ok g ∧
      g.cycles = [["b", "c", "b"], ["b", "c", "b"], ["a", "b", "a"]] ∧
      g.opened.edges = [⟨"a", "b", .references⟩, ⟨"b", "c", .references⟩] :=
    exists_ok_of_any (by decide +kernel)
  obtain ⟨hsound, hleft, -⟩ := cycles_cover g
  refine ⟨g, hg, hcycles, hopened, hleft, fun other hother => ?_⟩
  obtain ⟨id, way, heq, hclosed⟩ := hsound ["b", "c", "b"] (hcycles ▸ List.mem_cons_self)
  obtain ⟨rfl, -⟩ := List.cons.inj heq
  exact hclosed.linked (heq ▸ List.mem_append_left ["b"] hother)

end Graph

end ContractAnalysis
