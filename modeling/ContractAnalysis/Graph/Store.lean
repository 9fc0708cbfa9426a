import ContractAnalysis.Node

/-!
# The store of a graph

Nodes and edges are kept at places, in the order in which they were added. An edge says by places
which nodes it joins, beside the ids that it spells; a node lists the places of the edges that
touch it, the newest first; and the place of each id is recorded apart. So a store says many things
twice, and `Store.Sound` is what makes them agree: it holds at first (`sound_empty`) and after
every call (`Sound.perform`), failed ones included.

* `Call`, `Store.perform`: a change that a store is asked for, and what becomes of it
* `Store.outgoing`, `Store.incoming`, `Store.successors`: what touches a node, oldest edge first
-/

namespace ContractAnalysis

/-- The two ways in which an edge touches nodes. -/
inductive Direction where
  | leaving
  | entering
  deriving DecidableEq

/-- A node and the places of the edges that touch it, the newest first. -/
structure Vertex where
  node : Node
  leaving : List Nat := []
  entering : List Nat := []
  deriving DecidableEq

namespace Vertex

/-- The places of the edges that touch a node in a direction, the newest first. -/
def touching (v : Vertex) : Direction → List Nat
  | .leaving => v.leaving
  | .entering => v.entering

def touch (place : Nat) (direction : Direction) (v : Vertex) : Vertex :=
  match direction with
  | .leaving => { v with leaving := place :: v.leaving }
  | .entering => { v with entering := place :: v.entering }

end Vertex

/-- An edge and the places of the nodes that it joins. -/
structure Link where
  source : Nat
  target : Nat
  edge : Edge
  deriving DecidableEq

namespace Link

/-- The place of the node that a link touches in a direction. -/
def near (link : Link) : Direction → Nat
  | .leaving => link.source
  | .entering => link.target

def far (link : Link) : Direction → Nat
  | .leaving => link.target
  | .entering => link.source

end Link

/-- Nodes and edges at their places, and the places of the ids. -/
structure Store where
  vertices : Array Vertex := #[]
  links : Array Link := #[]
  /-- Every id with its place. -/
  places : List (String × Nat) := []
  deriving DecidableEq

/-- A change that a store is asked for. -/
inductive Call where
  | addNode (node : Node)
  | addEdge (source target : String) (kind : EdgeKind)
  | insertEdge (edge : Edge)
  deriving DecidableEq

/-- What was added. -/
inductive Added where
  | node (node : Node)
  | edge (edge : Edge)
  deriving DecidableEq

namespace Store

/-! ## What a store holds -/

/-- The nodes, oldest first. -/
def nodes (s : Store) : List Node := s.vertices.toList.map Vertex.node

/-- The edges, oldest first. -/
def edges (s : Store) : List Edge := s.links.toList.map Link.edge

/-- The ids of the nodes, oldest first. -/
def ids (s : Store) : List String := s.nodes.map Node.id

def place? (s : Store) (id : String) : Option Nat := s.places.lookup id

def node? (s : Store) (id : String) : Option Node := do
  let place ← s.place? id
  let vertex ← s.vertices[place]?
  some vertex.node

/-- An edge at a place and the place of the node that it leads to. -/
structure Step where
  place : Nat
  far : Nat
  deriving DecidableEq

/-- A step put in front of the steps along newer edges. -/
def insertOldest (step : Step) : List Step → List Step
  | [] => [step]
  | other :: steps =>
    if step.place < other.place then step :: other :: steps
    else other :: insertOldest step steps

/-- The steps from the node at a place, along the newest edge first. -/
def newestSteps (s : Store) (direction : Direction) (place : Nat) : List Step :=
  match s.vertices[place]? with
  | some vertex => (vertex.touching direction).filterMap fun e =>
      (s.links[e]?).map fun link => ⟨e, link.far direction⟩
  | none => []

/-- The steps from the node at a place, along the oldest edge first. -/
def oldestSteps (s : Store) (direction : Direction) (place : Nat) : List Step :=
  (s.newestSteps direction place).foldl (fun steps step => insertOldest step steps) []

/-- The edges that touch the node with an id, oldest first. -/
def touching (s : Store) (direction : Direction) (id : String) : List Edge :=
  match s.place? id with
  | some place =>
    (s.oldestSteps direction place).filterMap fun step => (s.links[step.place]?).map Link.edge
  | none => []

/-- The edges that leave a node, oldest first. -/
def outgoing (s : Store) (id : String) : List Edge := s.touching .leaving id

/-- The edges that enter a node, oldest first. -/
def incoming (s : Store) (id : String) : List Edge := s.touching .entering id

def nodesAfter (s : Store) (steps : List Step) : List Node :=
  steps.filterMap fun step => (s.vertices[step.far]?).map Vertex.node

/-- The nodes that the edges out of a node lead to, one entry per edge, oldest edge first. -/
def neighbors (s : Store) (id : String) : List Node :=
  match s.place? id with
  | some place => s.nodesAfter (s.oldestSteps .leaving place)
  | none => []

/-- The ids that the edges out of a node lead to, oldest edge first. -/
def successors (s : Store) (id : String) : List String := (s.neighbors id).map Node.id

/-- The ids that the edges out of a node lead to, newest edge first. -/
def newestSuccessors (s : Store) (id : String) : List String :=
  match s.place? id with
  | some place => (s.nodesAfter (s.newestSteps .leaving place)).map Node.id
  | none => []

/-! ## How a store changes -/

def push (s : Store) (node : Node) : Store where
  vertices := s.vertices.push { node }
  links := s.links
  places := (node.id, s.vertices.size) :: s.places

/-- With one more edge, between the nodes at two places. -/
def connect (s : Store) (source target : Nat) (edge : Edge) : Store where
  vertices := (s.vertices.modify source (Vertex.touch s.links.size .leaving)).modify target
    (Vertex.touch s.links.size .entering)
  links := s.links.push ⟨source, target, edge⟩
  places := s.places

/-- Add a node, unless its id is taken. -/
def addNode (s : Store) (node : Node) : Except Failure Added × Store :=
  match s.place? node.id with
  | some _ => (.error (.duplicateNode node.id), s)
  | none => (.ok (.node node), s.push node)

/-- Add an edge, unless an end of it is no node; parallel edges are kept. -/
def addEdge (s : Store) (source target : String) (kind : EdgeKind) :
    Except Failure Added × Store :=
  match s.place? source, s.place? target with
  | none, _ => (.error (.unknownNode source), s)
  | some _, none => (.error (.unknownNode target), s)
  | some i, some j =>
    let edge : Edge := ⟨source, target, kind⟩
    (.ok (.edge edge), s.connect i j edge)

/-- What a call adds, if it does not fail, and the store after it. -/
def perform (s : Store) : Call → Except Failure Added × Store
  | .addNode node => s.addNode node
  | .addEdge source target kind => s.addEdge source target kind
  | .insertEdge edge => s.addEdge edge.source edge.target edge.kind

/-! ## Soundness -/

/-- The places of the links that touch the node at a place, the newest first. -/
def linksAt (s : Store) (direction : Direction) (place : Nat) : List Nat :=
  ((s.links.toList.zipIdx.filter fun (link, _) => link.near direction == place).map
    Prod.snd).reverse

/-- Everything that a store says twice agrees, and no two nodes share an id. -/
structure Sound (s : Store) : Prop where
  distinct : s.ids.Nodup
  /-- The recorded places are those of the nodes. -/
  places_eq : s.places = s.ids.zipIdx.reverse
  /-- An edge spells the ids of the nodes that it joins. -/
  ends : ∀ link ∈ s.links, s.ids[link.source]? = some link.edge.source ∧
    s.ids[link.target]? = some link.edge.target
  /-- A node lists the links that touch it. -/
  touching_eq : ∀ direction place vertex, s.vertices[place]? = some vertex →
    vertex.touching direction = s.linksAt direction place

theorem sound_empty : Sound {} where
  distinct := by simp [ids, nodes]
  places_eq := by simp [ids, nodes]
  ends := by simp
  touching_eq := by simp

@[simp] theorem length_ids (s : Store) : s.ids.length = s.vertices.size := by
  simp [ids, nodes]

@[simp] theorem nodes_push (s : Store) (node : Node) : (s.push node).nodes = s.nodes ++ [node] := by
  simp [nodes, push]

@[simp] theorem edges_push (s : Store) (node : Node) : (s.push node).edges = s.edges := rfl

@[simp] theorem ids_push (s : Store) (node : Node) : (s.push node).ids = s.ids ++ [node.id] := by
  simp [ids]

theorem map_node_modify (vertices : List Vertex) (place e : Nat) (direction : Direction) :
    (vertices.modify place (Vertex.touch e direction)).map Vertex.node =
      vertices.map Vertex.node := by
  apply List.ext_getElem?
  intro i
  simp only [List.getElem?_map, List.getElem?_modify]
  cases vertices[i]? with
  | none => rfl
  | some v => by_cases h : place = i <;> cases direction <;> simp [h, Vertex.touch]

@[simp] theorem nodes_connect (s : Store) (i j : Nat) (edge : Edge) :
    (s.connect i j edge).nodes = s.nodes := by
  simp [nodes, connect, map_node_modify]

@[simp] theorem edges_connect (s : Store) (i j : Nat) (edge : Edge) :
    (s.connect i j edge).edges = s.edges ++ [edge] := by
  simp [edges, connect]

@[simp] theorem ids_connect (s : Store) (i j : Nat) (edge : Edge) :
    (s.connect i j edge).ids = s.ids := by
  simp [ids]

/-! ### Places -/

theorem lookup_eq_some_iff_mem {α β : Type} [BEq α] [LawfulBEq α] {entries : List (α × β)}
    (h : (entries.map Prod.fst).Nodup) {key : α} {value : β} :
    entries.lookup key = some value ↔ (key, value) ∈ entries := by
  induction entries with
  | nil => simp
  | cons entry entries ih =>
    obtain ⟨key', value'⟩ := entry
    obtain ⟨hfresh, hrest⟩ : key' ∉ entries.map Prod.fst ∧ (entries.map Prod.fst).Nodup := by
      simpa using h
    by_cases heq : key = key'
    · subst heq
      have hnot : (key, value) ∉ entries := fun hmem =>
        hfresh (List.mem_map.mpr ⟨_, hmem, rfl⟩)
      simp [hnot, eq_comm]
    · have hbeq : (key == key') = false := by simpa using heq
      simp [List.lookup_cons, hbeq, heq, ih hrest]

namespace Sound

variable {s : Store}

theorem place?_eq_some_iff (h : s.Sound) {id : String} {place : Nat} :
    s.place? id = some place ↔ s.ids[place]? = some id := by
  have hkeys : (s.ids.zipIdx.reverse.map Prod.fst).Nodup := by
    rw [List.map_reverse, List.zipIdx_map_fst, List.Nodup, List.pairwise_reverse]
    exact h.distinct.imp Ne.symm
  rw [place?, h.places_eq, lookup_eq_some_iff_mem hkeys, List.mem_reverse,
    List.mk_mem_zipIdx_iff_getElem?]

theorem place?_eq_none_iff (h : s.Sound) {id : String} : s.place? id = none ↔ id ∉ s.ids := by
  rw [Option.eq_none_iff_forall_ne_some, List.mem_iff_getElem?, not_exists]
  simp only [ne_eq, h.place?_eq_some_iff]

/-! ### What a change keeps -/

theorem near_lt (h : s.Sound) {link : Link} (hlink : link ∈ s.links) (direction : Direction) :
    link.near direction < s.vertices.size := by
  obtain ⟨hsource, htarget⟩ := h.ends link hlink
  rw [← length_ids]
  cases direction with
  | leaving => exact (List.getElem?_eq_some_iff.mp hsource).1
  | entering => exact (List.getElem?_eq_some_iff.mp htarget).1

theorem push (h : s.Sound) {node : Node} (hnew : node.id ∉ s.ids) : (s.push node).Sound where
  distinct := by
    rw [ids_push, List.nodup_append]
    refine ⟨h.distinct, by simp, ?_⟩
    rintro a ha b hb rfl
    rw [List.mem_singleton.mp hb] at ha
    exact hnew ha
  places_eq := by
    rw [ids_push, List.zipIdx_append]
    simp [Store.push, h.places_eq]
  ends := by
    intro link hlink
    obtain ⟨hsource, htarget⟩ := h.ends link hlink
    rw [ids_push, List.getElem?_append_left (List.getElem?_eq_some_iff.mp hsource).1,
      List.getElem?_append_left (List.getElem?_eq_some_iff.mp htarget).1]
    exact ⟨hsource, htarget⟩
  touching_eq := by
    intro direction place vertex hvertex
    have hlinks : (s.push node).linksAt direction place = s.linksAt direction place := rfl
    rw [hlinks]
    rw [Store.push, Array.getElem?_push] at hvertex
    split at hvertex
    · -- No link touches the place that the new node takes.
      next hplace =>
      obtain rfl : { node } = vertex := by simpa using hvertex
      have hnone : s.linksAt direction place = [] := by
        simp only [linksAt, List.reverse_eq_nil_iff, List.map_eq_nil_iff, List.filter_eq_nil_iff]
        intro entry hentry
        have hlink := Array.mem_toList_iff.mp (List.fst_mem_of_mem_zipIdx hentry)
        have hlt := h.near_lt hlink direction
        simp only [beq_iff_eq]
        omega
      rw [hnone]
      cases direction <;> rfl
    · exact h.touching_eq direction place vertex hvertex

end Sound

theorem linksAt_connect (s : Store) (i j : Nat) (edge : Edge) (direction : Direction)
    (place : Nat) :
    (s.connect i j edge).linksAt direction place =
      if (Link.mk i j edge).near direction = place then
        s.links.size :: s.linksAt direction place
      else s.linksAt direction place := by
  by_cases h : (Link.mk i j edge).near direction = place <;>
    simp [linksAt, connect, List.zipIdx_append, h]

theorem touching_connect {s : Store} {i j : Nat} {edge : Edge} {place : Nat} {vertex : Vertex}
    (h : (s.connect i j edge).vertices[place]? = some vertex) (direction : Direction) :
    ∃ old, s.vertices[place]? = some old ∧ vertex.touching direction =
      if (Link.mk i j edge).near direction = place then
        s.links.size :: old.touching direction
      else old.touching direction := by
  simp only [connect, Array.getElem?_modify] at h
  cases hold : s.vertices[place]? with
  | none => simp [hold] at h
  | some old =>
    refine ⟨old, rfl, ?_⟩
    by_cases hi : i = place <;> by_cases hj : j = place <;>
      simp [hold, hi, hj] at h <;> subst h <;> cases direction <;>
      simp [Vertex.touching, Vertex.touch, Link.near, hi, hj]

theorem Sound.connect {s : Store} (h : s.Sound) {i j : Nat} {edge : Edge}
    (hi : s.ids[i]? = some edge.source) (hj : s.ids[j]? = some edge.target) :
    (s.connect i j edge).Sound where
  distinct := by simpa using h.distinct
  places_eq := by rw [ids_connect]; exact h.places_eq
  ends := by
    intro link hlink
    rw [ids_connect]
    obtain hlink | rfl := Array.mem_push.mp hlink
    · exact h.ends link hlink
    · exact ⟨hi, hj⟩
  touching_eq := by
    intro direction place vertex hvertex
    obtain ⟨old, hold, htouching⟩ := touching_connect hvertex direction
    rw [htouching, linksAt_connect, h.touching_eq direction place old hold]

/-! ### Calls -/

theorem Sound.addNode {s : Store} (h : s.Sound) (node : Node) : (s.addNode node).2.Sound := by
  unfold Store.addNode
  split
  · exact h
  · next hnone => exact h.push (h.place?_eq_none_iff.mp hnone)

theorem Sound.addEdge {s : Store} (h : s.Sound) (source target : String) (kind : EdgeKind) :
    (s.addEdge source target kind).2.Sound := by
  unfold Store.addEdge
  split
  · exact h
  · exact h
  · next i j hi hj =>
    exact h.connect (h.place?_eq_some_iff.mp hi) (h.place?_eq_some_iff.mp hj)

/-- A call leaves a sound store, also when it fails. -/
theorem Sound.perform {s : Store} (h : s.Sound) (call : Call) : (s.perform call).2.Sound := by
  cases call with
  | addNode node => exact h.addNode node
  | addEdge source target kind => exact h.addEdge source target kind
  | insertEdge edge => exact h.addEdge edge.source edge.target edge.kind

end Store

end ContractAnalysis
