import ContractAnalysis.Proofs.Graph.Reads

/-!
# Building a store by calls

`run calls` is the store after calls, failed ones included. It is sound whatever the calls are
(`sound_run`), and a sound store is `Lawful`: calls fail exactly for taken ids and unknown ends and
then change nothing, and what the store is asked for is read off its lists of nodes and edges
(`lawful_run`).

A call is judged by the ids alone (`Call.fault?`). Where it has no fault it adds its nodes and edges
at the end (`Sound.perform_of_fits`), and else it leaves the store as it is
(`Sound.perform_of_fault`).
-/

namespace ContractAnalysis

namespace Call

/-- Why no edge can be added between two ids, if so. -/
def edgeFault? (ids : List String) (source target : String) : Option Failure :=
  if source ∈ ids then
    if target ∈ ids then none else some (.unknownNode target)
  else some (.unknownNode source)

/-- Why a call fails where these ids are taken, if it does. -/
def fault? (ids : List String) : Call → Option Failure
  | .addNode node => if node.id ∈ ids then some (.duplicateNode node.id) else none
  | .addEdge source target _ => edgeFault? ids source target
  | .insertEdge edge => edgeFault? ids edge.source edge.target

def nodes : Call → List Node
  | .addNode node => [node]
  | .addEdge _ _ _ | .insertEdge _ => []

def edges : Call → List Edge
  | .addNode _ => []
  | .addEdge source target kind => [⟨source, target, kind⟩]
  | .insertEdge edge => [edge]

/-- What a call answers when it does not fail. -/
def added : Call → Added
  | .addNode node => .node node
  | .addEdge source target kind => .edge ⟨source, target, kind⟩
  | .insertEdge edge => .edge edge

end Call

namespace Store

variable {s : Store}

/-! ## One call -/

namespace Sound

theorem exists_place? (h : s.Sound) {id : String} (hid : id ∈ s.ids) :
    ∃ place, s.place? id = some place :=
  Option.ne_none_iff_exists'.mp fun hnone => h.place?_eq_none_iff.mp hnone hid

theorem addEdge_of_fault (h : s.Sound) {source target : String} {kind : EdgeKind}
    {failure : Failure} (hfault : Call.edgeFault? s.ids source target = some failure) :
    s.addEdge source target kind = (.error failure, s) := by
  unfold Call.edgeFault? at hfault
  split_ifs at hfault with hsource htarget
  · obtain rfl := Option.some.inj hfault
    obtain ⟨i, hi⟩ := h.exists_place? hsource
    simp [Store.addEdge, hi, h.place?_eq_none_iff.mpr htarget]
  · obtain rfl := Option.some.inj hfault
    simp [Store.addEdge, h.place?_eq_none_iff.mpr hsource]

theorem addEdge_of_fits (h : s.Sound) {source target : String} (kind : EdgeKind)
    (hfits : Call.edgeFault? s.ids source target = none) :
    ∃ i j, s.addEdge source target kind =
      (.ok (.edge ⟨source, target, kind⟩), s.connect i j ⟨source, target, kind⟩) := by
  unfold Call.edgeFault? at hfits
  split_ifs at hfits with hsource htarget
  obtain ⟨i, hi⟩ := h.exists_place? hsource
  obtain ⟨j, hj⟩ := h.exists_place? htarget
  exact ⟨i, j, by simp [Store.addEdge, hi, hj]⟩

/-- A call with a fault fails for it and changes nothing. -/
theorem perform_of_fault (h : s.Sound) {call : Call} {failure : Failure}
    (hfault : call.fault? s.ids = some failure) : s.perform call = (.error failure, s) := by
  cases call with
  | addNode node =>
    obtain ⟨hid, heq⟩ := Option.ite_none_right_eq_some.mp hfault
    obtain rfl := Option.some.inj heq
    obtain ⟨place, hplace⟩ := h.exists_place? hid
    simp [Store.perform, Store.addNode, hplace]
  | addEdge source target kind => exact h.addEdge_of_fault hfault
  | insertEdge edge => exact h.addEdge_of_fault hfault

theorem perform_of_fits (h : s.Sound) {call : Call} (hfits : call.fault? s.ids = none) :
    ∃ s', s.perform call = (.ok call.added, s') ∧
      s'.nodes = s.nodes ++ call.nodes ∧ s'.edges = s.edges ++ call.edges := by
  cases call with
  | addNode node =>
    have hid : node.id ∉ s.ids := by simpa [Call.fault?] using hfits
    refine ⟨s.push node, ?_, by simp [Call.nodes], by simp [Call.edges]⟩
    simp [Store.perform, Store.addNode, h.place?_eq_none_iff.mpr hid, Call.added]
  | addEdge source target kind =>
    obtain ⟨i, j, heq⟩ := h.addEdge_of_fits kind hfits
    exact ⟨_, heq, by simp [Call.nodes], by simp [Call.edges]⟩
  | insertEdge edge =>
    obtain ⟨i, j, heq⟩ := h.addEdge_of_fits edge.kind hfits
    exact ⟨_, heq, by simp [Call.nodes], by simp [Call.edges]⟩

theorem perform_eq_error_iff (h : s.Sound) {call : Call} {failure : Failure} :
    (s.perform call).1 = .error failure ↔ call.fault? s.ids = some failure := by
  cases hfault : call.fault? s.ids with
  | some other => simp [h.perform_of_fault hfault]
  | none =>
    obtain ⟨s', heq, -⟩ := h.perform_of_fits hfault
    simp [heq]

end Sound

/-! ## All calls -/

/-- The store after calls from the empty store on, failed ones included. -/
def run (calls : List Call) : Store :=
  calls.foldl (fun s call => (s.perform call).2) {}

theorem sound_run (calls : List Call) : (run calls).Sound := by
  suffices hfrom : ∀ s : Store, s.Sound →
      (calls.foldl (fun s call => (s.perform call).2) s).Sound from hfrom {} sound_empty
  induction calls with
  | nil => exact fun s h => h
  | cons call calls ih => exact fun s h => ih _ (h.perform call)

/-- What is promised of a store: how it answers to calls and to questions, in terms of its lists of
nodes and edges. -/
structure Lawful (s : Store) : Prop where
  /-- No two nodes share an id. -/
  distinct : s.ids.Nodup
  /-- An edge joins two nodes. -/
  joined : ∀ edge ∈ s.edges, edge.source ∈ s.ids ∧ edge.target ∈ s.ids
  /-- An id finds the node that has it. -/
  node?_iff : ∀ id node, s.node? id = some node ↔ node ∈ s.nodes ∧ node.id = id
  /-- A node is refused exactly when its id is taken. -/
  addNode_error : ∀ node failure, (s.perform (.addNode node)).1 = .error failure ↔
    node.id ∈ s.ids ∧ failure = .duplicateNode node.id
  /-- An edge is refused exactly when an end of it is no node; its source is looked at first. -/
  addEdge_error : ∀ source target kind failure,
    (s.perform (.addEdge source target kind)).1 = .error failure ↔
      (source ∉ s.ids ∧ failure = .unknownNode source) ∨
      (source ∈ s.ids ∧ target ∉ s.ids ∧ failure = .unknownNode target)
  insertEdge_eq : ∀ edge, s.perform (.insertEdge edge) =
    s.perform (.addEdge edge.source edge.target edge.kind)
  /-- A call that fails leaves everything as it was. -/
  unchanged : ∀ call failure, (s.perform call).1 = .error failure → (s.perform call).2 = s
  /-- A call that does not fail answers what it added, and adds it at the end. -/
  grown : ∀ call added, (s.perform call).1 = .ok added → added = call.added ∧
    (s.perform call).2.nodes = s.nodes ++ call.nodes ∧
    (s.perform call).2.edges = s.edges ++ call.edges
  /-- The edges that touch a node are those that spell its id, in the order of all edges. -/
  outgoing_eq : ∀ id, s.outgoing id = s.edges.filter fun edge => edge.source == id
  incoming_eq : ∀ id, s.incoming id = s.edges.filter fun edge => edge.target == id
  /-- The neighbors of a node are the nodes at the targets of the edges that leave it. -/
  neighbors_eq : ∀ id, (s.neighbors id).map some =
    (s.outgoing id).map fun edge => s.node? edge.target
  /-- Nothing touches an id without a node. -/
  unknown : ∀ id, id ∉ s.ids → s.outgoing id = [] ∧ s.incoming id = [] ∧ s.neighbors id = []

theorem Sound.lawful (h : s.Sound) : s.Lawful where
  distinct := h.distinct
  joined edge hedge := ⟨h.joined hedge .leaving, h.joined hedge .entering⟩
  node?_iff _ _ := h.node?_eq_some_iff
  addNode_error node failure := by
    rw [h.perform_eq_error_iff, Call.fault?, Option.ite_none_right_eq_some]
    simp only [Option.some.injEq, eq_comm]
  addEdge_error source target kind failure := by
    rw [h.perform_eq_error_iff, Call.fault?, Call.edgeFault?]
    split_ifs <;> simp_all [eq_comm]
  insertEdge_eq _ := rfl
  unchanged call failure hfail := by
    rw [h.perform_of_fault (h.perform_eq_error_iff.mp hfail)]
  grown call added hadded := by
    have hfits : call.fault? s.ids = none := by
      rw [Option.eq_none_iff_forall_ne_some]
      intro failure hfault
      rw [h.perform_of_fault hfault] at hadded
      contradiction
    obtain ⟨s', heq, hnodes, hedges⟩ := h.perform_of_fits hfits
    rw [heq] at hadded ⊢
    exact ⟨(Except.ok.inj hadded).symm, hnodes, hedges⟩
  outgoing_eq := h.outgoing_eq
  incoming_eq := h.incoming_eq
  neighbors_eq := h.map_some_neighbors
  unknown id hid := by
    have hnone := h.place?_eq_none_iff.mpr hid
    simp [outgoing, incoming, Store.touching, neighbors, hnone]

/-- Every store that calls build keeps its promises, and a graph can be made of it. -/
theorem lawful_run (calls : List Call) :
    (run calls).Lawful ∧ ∃ g : Graph, g.toStore = run calls :=
  ⟨(sound_run calls).lawful, ⟨run calls, sound_run calls⟩, rfl⟩

end Store

end ContractAnalysis
