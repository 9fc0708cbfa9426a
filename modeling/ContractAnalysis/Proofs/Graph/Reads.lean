import ContractAnalysis.Graph.Basic
import Mathlib.Data.List.Basic
import Mathlib.Data.Option.Basic

/-!
# What a store is asked for

A sound store answers as if it kept nothing but its lists of nodes and edges. The edges that touch a
node are collected from the places that the node lists, newest first, and sorted; they are the
edges of the whole list that spell its id, in the order of the list (`outgoing_eq`, `incoming_eq`).
The nodes that they lead to are those with the ids at the other ends (`neighbors_eq`).

The sorting undoes the reversal (`oldestSteps_eq`): the places in a list ascend, so every step that
is put in place comes in front of the steps already there.
-/

namespace ContractAnalysis

/-- The id of the node that an edge touches in a direction. -/
def Edge.near (edge : Edge) : Direction → String
  | .leaving => edge.source
  | .entering => edge.target

def Edge.far (edge : Edge) : Direction → String
  | .leaving => edge.target
  | .entering => edge.source

namespace Store

variable {s : Store}

/-! ## Nodes -/

theorem getElem?_ids (s : Store) (place : Nat) :
    s.ids[place]? = (s.vertices[place]?).map fun vertex => vertex.node.id := by
  simp only [ids, nodes, List.getElem?_map, Array.getElem?_toList, Option.map_map]
  rfl

theorem getElem?_nodes (s : Store) (place : Nat) :
    s.nodes[place]? = (s.vertices[place]?).map Vertex.node := by
  simp only [nodes, List.getElem?_map, Array.getElem?_toList]

namespace Sound

theorem node?_eq_some_iff (h : s.Sound) {id : String} {node : Node} :
    s.node? id = some node ↔ node ∈ s.nodes ∧ node.id = id := by
  constructor
  · intro hnode
    simp only [node?, bind, Option.bind_eq_some_iff, Option.some.injEq] at hnode
    obtain ⟨place, hplace, vertex, hvertex, rfl⟩ := hnode
    have hid := h.place?_eq_some_iff.mp hplace
    rw [getElem?_ids, hvertex, Option.map_some, Option.some.injEq] at hid
    refine ⟨List.mem_iff_getElem?.mpr ⟨place, ?_⟩, hid⟩
    rw [getElem?_nodes, hvertex, Option.map_some]
  · rintro ⟨hmem, rfl⟩
    obtain ⟨place, hplace⟩ := List.mem_iff_getElem?.mp hmem
    rw [getElem?_nodes, Option.map_eq_some_iff] at hplace
    obtain ⟨vertex, hvertex, rfl⟩ := hplace
    have hid : s.place? vertex.node.id = some place := by
      rw [h.place?_eq_some_iff, getElem?_ids, hvertex, Option.map_some]
    simp [node?, hid, hvertex]

theorem node?_eq_none_iff (h : s.Sound) {id : String} : s.node? id = none ↔ id ∉ s.ids := by
  rw [Option.eq_none_iff_forall_ne_some]
  simp only [ne_eq, h.node?_eq_some_iff, not_and, ids, List.mem_map, not_exists]

theorem getElem?_near (h : s.Sound) {link : Link} (hlink : link ∈ s.links)
    (direction : Direction) : s.ids[link.near direction]? = some (link.edge.near direction) := by
  cases direction with
  | leaving => exact (h.ends link hlink).1
  | entering => exact (h.ends link hlink).2

theorem getElem?_far (h : s.Sound) {link : Link} (hlink : link ∈ s.links)
    (direction : Direction) : s.ids[link.far direction]? = some (link.edge.far direction) := by
  cases direction with
  | leaving => exact (h.ends link hlink).2
  | entering => exact (h.ends link hlink).1

theorem joined (h : s.Sound) {edge : Edge} (hedge : edge ∈ s.edges) (direction : Direction) :
    edge.near direction ∈ s.ids := by
  obtain ⟨link, hlink, rfl⟩ := List.mem_map.mp hedge
  exact List.mem_iff_getElem?.mpr ⟨_, h.getElem?_near (Array.mem_toList_iff.mp hlink) direction⟩

end Sound

/-! ## Steps -/

/-- The links that touch the node at a place, each with its own place, oldest first. -/
def linksOf (s : Store) (direction : Direction) (place : Nat) : List (Link × Nat) :=
  s.links.toList.zipIdx.filter fun (link, _) => link.near direction == place

def stepAlong (direction : Direction) (entry : Link × Nat) : Step :=
  ⟨entry.2, entry.1.far direction⟩

theorem getElem?_of_mem_linksOf {direction : Direction} {place : Nat} {entry : Link × Nat}
    (h : entry ∈ s.linksOf direction place) : s.links[entry.2]? = some entry.1 := by
  rw [← Array.getElem?_toList]
  exact List.mem_zipIdx_iff_getElem?.mp (List.mem_filter.mp h).1

theorem pairwise_linksOf (s : Store) (direction : Direction) (place : Nat) :
    (s.linksOf direction place).Pairwise fun a b => a.2 < b.2 := by
  refine List.Pairwise.filter _ (List.pairwise_map.mp ?_)
  rw [List.zipIdx_map_snd]
  exact List.pairwise_lt_range'

theorem map_fst_linksOf (s : Store) (direction : Direction) (place : Nat) :
    (s.linksOf direction place).map Prod.fst =
      s.links.toList.filter fun link => link.near direction == place := by
  conv => rhs; rw [← List.zipIdx_map_fst 0 s.links.toList, List.filter_map]
  rfl

namespace Sound

theorem newestSteps_eq (h : s.Sound) (direction : Direction) (place : Nat) :
    s.newestSteps direction place =
      ((s.linksOf direction place).map (stepAlong direction)).reverse := by
  cases hvertex : s.vertices[place]? with
  | none =>
    -- No link touches a place without a node.
    have hempty : s.linksOf direction place = [] := by
      rw [List.eq_nil_iff_forall_not_mem]
      intro entry hentry
      have hlink := Array.mem_of_getElem? (getElem?_of_mem_linksOf hentry)
      have hlt := h.near_lt hlink direction
      rw [beq_iff_eq.mp (List.mem_filter.mp hentry).2] at hlt
      exact absurd hlt (Nat.not_lt.mpr (Array.getElem?_eq_none_iff.mp hvertex))
    simp [newestSteps, hvertex, hempty]
  | some vertex =>
    have hplaces : vertex.touching direction = ((s.linksOf direction place).map Prod.snd).reverse :=
      h.touching_eq direction place vertex hvertex
    simp only [newestSteps, hvertex, hplaces, List.filterMap_reverse, List.filterMap_map]
    congr 1
    rw [← List.filterMap_eq_map]
    refine List.filterMap_congr fun entry hentry => ?_
    simp [getElem?_of_mem_linksOf hentry, stepAlong]

theorem insertOldest_of_lt {step : Step} {steps : List Step}
    (h : ∀ other ∈ steps, step.place < other.place) :
    insertOldest step steps = step :: steps := by
  cases steps with
  | nil => rfl
  | cons other steps => simp [insertOldest, h other (by simp)]

theorem oldestSteps_eq (h : s.Sound) (direction : Direction) (place : Nat) :
    s.oldestSteps direction place =
      (s.linksOf direction place).map (stepAlong direction) := by
  rw [oldestSteps, h.newestSteps_eq, List.foldl_reverse]
  have hsorted : ((s.linksOf direction place).map (stepAlong direction)).Pairwise
      fun a b => a.place < b.place :=
    List.pairwise_map.mpr (s.pairwise_linksOf direction place)
  generalize (s.linksOf direction place).map (stepAlong direction) = steps at hsorted
  induction steps with
  | nil => rfl
  | cons step steps ih =>
    obtain ⟨hstep, hsteps⟩ := List.pairwise_cons.mp hsorted
    rw [List.foldr_cons, ih hsteps, insertOldest_of_lt hstep]

/-! ## Edges -/

theorem near_eq_iff (h : s.Sound) {id : String} {place : Nat} (hplace : s.ids[place]? = some id)
    {link : Link} (hlink : link ∈ s.links) (direction : Direction) :
    link.near direction = place ↔ link.edge.near direction = id := by
  have hnear := h.getElem?_near hlink direction
  constructor
  · rintro rfl
    simpa [hnear] using hplace
  · intro heq
    rw [heq, ← hplace] at hnear
    exact ((List.getElem?_inj (List.getElem?_eq_some_iff.mp hplace).1 h.distinct).mp
      hnear.symm).symm

theorem touching_of_place? (h : s.Sound) {id : String} {place : Nat}
    (hplace : s.place? id = some place) (direction : Direction) :
    s.touching direction id = (s.linksOf direction place).map fun entry => entry.1.edge := by
  simp only [Store.touching, hplace, h.oldestSteps_eq, List.filterMap_map]
  rw [← List.filterMap_eq_map]
  refine List.filterMap_congr fun entry hentry => ?_
  simp [stepAlong, getElem?_of_mem_linksOf hentry]

/-- The edges that touch a node are those of the whole list that spell its id. -/
theorem touching_eq_filter (h : s.Sound) (direction : Direction) (id : String) :
    s.touching direction id = s.edges.filter fun edge => edge.near direction == id := by
  cases hplace : s.place? id with
  | none =>
    have hid := h.place?_eq_none_iff.mp hplace
    simp only [Store.touching, hplace]
    symm
    rw [List.filter_eq_nil_iff]
    intro edge hedge heq
    rw [← beq_iff_eq.mp heq] at hid
    exact hid (h.joined hedge direction)
  | some place =>
    have hid := h.place?_eq_some_iff.mp hplace
    calc s.touching direction id
        = (s.links.toList.filter fun link => link.near direction == place).map Link.edge := by
          rw [h.touching_of_place? hplace, ← map_fst_linksOf, List.map_map]
          rfl
      _ = (s.links.toList.filter fun link => link.edge.near direction == id).map Link.edge := by
          congr 1
          refine List.filter_congr fun link hlink => ?_
          rw [Bool.eq_iff_iff, beq_iff_eq, beq_iff_eq]
          exact h.near_eq_iff hid (Array.mem_toList_iff.mp hlink) direction
      _ = s.edges.filter fun edge => edge.near direction == id := by
          rw [edges, List.filter_map]
          rfl

theorem outgoing_eq (h : s.Sound) (id : String) :
    s.outgoing id = s.edges.filter fun edge => edge.source == id :=
  h.touching_eq_filter .leaving id

theorem incoming_eq (h : s.Sound) (id : String) :
    s.incoming id = s.edges.filter fun edge => edge.target == id :=
  h.touching_eq_filter .entering id

/-! ## Neighbors -/

theorem node?_far (h : s.Sound) {link : Link} (hlink : link ∈ s.links) (direction : Direction) :
    ∃ node, (s.vertices[link.far direction]?).map Vertex.node = some node ∧
      s.node? (link.edge.far direction) = some node ∧ node.id = link.edge.far direction := by
  have hfar := h.getElem?_far hlink direction
  have hplace := h.place?_eq_some_iff.mpr hfar
  rw [getElem?_ids, Option.map_eq_some_iff] at hfar
  obtain ⟨vertex, hvertex, hid⟩ := hfar
  refine ⟨vertex.node, by rw [hvertex, Option.map_some], ?_, hid⟩
  simp [node?, hplace, hvertex]

theorem nodesAfter_eq (h : s.Sound) {entries : List (Link × Nat)} (direction : Direction)
    (hentries : ∀ entry ∈ entries, entry.1 ∈ s.links) :
    s.nodesAfter (entries.map (stepAlong direction)) =
      entries.filterMap fun entry => s.node? (entry.1.edge.far direction) := by
  rw [nodesAfter, List.filterMap_map]
  refine List.filterMap_congr fun entry hentry => ?_
  obtain ⟨node, hvertex, hnode, -⟩ := h.node?_far (hentries entry hentry) direction
  rw [hnode, ← hvertex]
  rfl

theorem mem_links_of_mem_linksOf {direction : Direction} {place : Nat} {entry : Link × Nat}
    (h : entry ∈ s.linksOf direction place) : entry.1 ∈ s.links :=
  Array.mem_of_getElem? (getElem?_of_mem_linksOf h)

theorem neighbors_eq (h : s.Sound) (id : String) :
    s.neighbors id = (s.outgoing id).filterMap fun edge => s.node? edge.target := by
  cases hplace : s.place? id with
  | none => simp [neighbors, outgoing, Store.touching, hplace]
  | some place =>
    rw [outgoing, h.touching_of_place? hplace, List.filterMap_map]
    simp only [neighbors, hplace, h.oldestSteps_eq]
    exact h.nodesAfter_eq .leaving fun _ => mem_links_of_mem_linksOf

theorem node?_target (h : s.Sound) {id : String} {edge : Edge} (hedge : edge ∈ s.outgoing id) :
    ∃ node, s.node? edge.target = some node ∧ node.id = edge.target := by
  rw [h.outgoing_eq] at hedge
  have htarget := h.joined (List.mem_filter.mp hedge).1 .entering
  obtain ⟨node, hnode⟩ := Option.ne_none_iff_exists'.mp fun hnone =>
    h.node?_eq_none_iff.mp hnone htarget
  exact ⟨node, hnode, (h.node?_eq_some_iff.mp hnode).2⟩

theorem map_some_neighbors (h : s.Sound) (id : String) :
    (s.neighbors id).map some = (s.outgoing id).map fun edge => s.node? edge.target := by
  have hsome : ∀ edge ∈ s.outgoing id, ∃ node, s.node? edge.target = some node :=
    fun edge hedge => (h.node?_target hedge).imp fun _ hnode => hnode.1
  rw [h.neighbors_eq]
  generalize s.outgoing id = edges at hsome
  induction edges with
  | nil => rfl
  | cons edge edges ih =>
    obtain ⟨node, hnode⟩ := hsome edge (by simp)
    simp [hnode, ih fun other hother => hsome other (by simp [hother])]

theorem successors_eq (h : s.Sound) (id : String) :
    s.successors id = (s.outgoing id).map Edge.target := by
  apply List.map_injective_iff.mpr (Option.some_injective String)
  calc (s.successors id).map some
      = ((s.neighbors id).map some).map (Option.map Node.id) := by simp [successors]
    _ = ((s.outgoing id).map fun edge => s.node? edge.target).map (Option.map Node.id) := by
        rw [h.map_some_neighbors]
    _ = ((s.outgoing id).map Edge.target).map some := by
        rw [List.map_map, List.map_map]
        refine List.map_congr_left fun edge hedge => ?_
        obtain ⟨node, hnode, hid⟩ := h.node?_target hedge
        simp [hnode, hid]

theorem newestSuccessors_eq (h : s.Sound) (id : String) :
    s.newestSuccessors id = (s.successors id).reverse := by
  cases hplace : s.place? id with
  | none => simp [newestSuccessors, successors, neighbors, hplace]
  | some place =>
    simp only [newestSuccessors, successors, neighbors, hplace, h.newestSteps_eq, h.oldestSteps_eq,
      nodesAfter, List.filterMap_reverse, List.map_reverse]

end Sound

end Store

/-! ## Nodes of a kind -/

theorem Node.obligation?_eq_some_iff {node : Node} {o : Obligation} :
    node.obligation? = some o ↔ node = .obligation o := by
  cases node <;> simp [obligation?]

theorem Node.condition?_eq_some_iff {node : Node} {c : Condition} :
    node.condition? = some c ↔ node = .condition c := by
  cases node <;> simp [condition?]

namespace Graph

theorem mem_obligations_iff {g : Graph} {o : Obligation} :
    o ∈ g.obligations ↔ .obligation o ∈ g.nodes := by
  simp [obligations, Node.obligation?_eq_some_iff]

theorem mem_conditions_iff {g : Graph} {c : Condition} :
    c ∈ g.conditions ↔ .condition c ∈ g.nodes := by
  simp [conditions, Node.condition?_eq_some_iff]

theorem nodup_id_filterMap (g : Graph) {α : Type} {read : Node → Option α} {id : α → String}
    (h : ∀ node x, read node = some x → id x = node.id) :
    ((g.nodes.filterMap read).map id).Nodup := by
  have hids : g.nodes.Pairwise fun a b => a.id ≠ b.id := List.pairwise_map.mp g.sound.distinct
  refine List.pairwise_map.mpr (List.pairwise_filterMap.mpr (hids.imp fun hne x hx y hy => ?_))
  rwa [h _ x hx, h _ y hy]

theorem nodup_id_obligations (g : Graph) : (g.obligations.map (·.id)).Nodup :=
  g.nodup_id_filterMap fun _ _ h => by rw [Node.obligation?_eq_some_iff.mp h, Node.id]

theorem nodup_id_conditions (g : Graph) : (g.conditions.map (·.id)).Nodup :=
  g.nodup_id_filterMap fun _ _ h => by rw [Node.condition?_eq_some_iff.mp h, Node.id]

end Graph

end ContractAnalysis
