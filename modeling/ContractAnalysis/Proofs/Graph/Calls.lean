import ContractAnalysis.Proofs.Graph.Building

/-!
# Sequences of calls

Whether calls build a graph can be told from the ids that they name, before anything is built: each
call is judged by the ids present at its turn (`Call.firstFault?`). Without a fault the calls yield
the graph with their nodes and edges at the end, and else they fail for the first fault
(`performAll_of_fits`, `performAll_of_fault`). A graph is known by its lists of nodes and edges
(`Graph.eq_of_lists`), so it does not matter which calls it was built by.
-/

namespace ContractAnalysis

/-! ## Graphs with the same lists -/

namespace Store.Sound

variable {s t : Store}

theorem links_eq (hs : s.Sound) (ht : t.Sound) (hids : s.ids = t.ids) (hedges : s.edges = t.edges) :
    s.links = t.links := by
  apply Array.ext_getElem?
  intro e
  have hedge : (s.links[e]?).map Link.edge = (t.links[e]?).map Link.edge := by
    simpa [edges] using congrArg (·[e]?) hedges
  cases hlink : s.links[e]? with
  | none => simpa [hlink, eq_comm] using hedge
  | some link =>
    rw [hlink, Option.map_some, eq_comm, Option.map_eq_some_iff] at hedge
    obtain ⟨other, hother, hspelled⟩ := hedge
    -- The ends of a link are the places of the ids that its edge spells.
    have hnear : ∀ direction, other.near direction = link.near direction := fun direction => by
      have hplace := hs.getElem?_near (Array.mem_of_getElem? hlink) direction
      rw [← hspelled] at hplace
      refine (ht.near_eq_iff (hids ▸ hplace) (Array.mem_of_getElem? hother) direction).mpr rfl
    have hsource := hnear .leaving
    have htarget := hnear .entering
    obtain ⟨i, j, edge⟩ := link
    obtain ⟨i', j', edge'⟩ := other
    simp only [Link.near] at hsource htarget hspelled
    rw [hother, hsource, htarget, hspelled]

theorem vertices_eq (hs : s.Sound) (ht : t.Sound) (hnodes : s.nodes = t.nodes)
    (hlinks : s.links = t.links) : s.vertices = t.vertices := by
  apply Array.ext_getElem?
  intro place
  have hnode : (s.vertices[place]?).map Vertex.node = (t.vertices[place]?).map Vertex.node := by
    rw [← getElem?_nodes, ← getElem?_nodes, hnodes]
  cases hvertex : s.vertices[place]? with
  | none => simpa [hvertex, eq_comm] using hnode
  | some vertex =>
    obtain ⟨other, hother, hsame⟩ :=
      Option.map_eq_some_iff.mp (hnode.symm.trans (by rw [hvertex]; rfl))
    have htouching : ∀ direction, other.touching direction = vertex.touching direction :=
      fun direction => by
        rw [hs.touching_eq direction place vertex hvertex,
          ht.touching_eq direction place other hother, linksAt, linksAt, hlinks]
    have hleaving := htouching .leaving
    have hentering := htouching .entering
    obtain ⟨node, leaving, entering⟩ := vertex
    obtain ⟨node', leaving', entering'⟩ := other
    simp only [Vertex.touching] at hleaving hentering hsame
    rw [hother, hleaving, hentering, hsame]

theorem eq_of_lists (hs : s.Sound) (ht : t.Sound) (hnodes : s.nodes = t.nodes)
    (hedges : s.edges = t.edges) : s = t := by
  have hids : s.ids = t.ids := by rw [ids, hnodes, ids]
  have hlinks := hs.links_eq ht hids hedges
  have hvertices := hs.vertices_eq ht hnodes hlinks
  have hplaces : s.places = t.places := by rw [hs.places_eq, ht.places_eq, hids]
  obtain ⟨vertices, links, places⟩ := s
  obtain ⟨vertices', links', places'⟩ := t
  simp only at hvertices hlinks hplaces
  rw [hvertices, hlinks, hplaces]

end Store.Sound

theorem Graph.eq_of_lists {g g' : Graph} (hnodes : g.nodes = g'.nodes)
    (hedges : g.edges = g'.edges) : g = g' := by
  have hstore := g.sound.eq_of_lists g'.sound hnodes hedges
  obtain ⟨s, hs⟩ := g
  obtain ⟨s', hs'⟩ := g'
  subst hstore
  rfl

/-! ## Faults of calls -/

namespace Call

def addedIds (calls : List Call) : List String := (calls.flatMap Call.nodes).map Node.id

/-- The first fault among calls where these ids are taken at first. -/
def firstFault? (ids : List String) : List Call → Option Failure
  | [] => none
  | call :: calls => (call.fault? ids).or (firstFault? (ids ++ call.nodes.map Node.id) calls)

theorem addedIds_cons (call : Call) (calls : List Call) :
    addedIds (call :: calls) = call.nodes.map Node.id ++ addedIds calls := by
  simp [addedIds]

theorem flatMap_nodes_addNodes (nodes : List Node) :
    (nodes.map Call.addNode).flatMap Call.nodes = nodes := by
  simp [List.flatMap_map, Call.nodes]

theorem addedIds_addNodes (nodes : List Node) :
    addedIds (nodes.map Call.addNode) = nodes.map Node.id := by
  rw [addedIds, flatMap_nodes_addNodes]

theorem firstFault?_append (ids : List String) (calls more : List Call) :
    firstFault? ids (calls ++ more) =
      (firstFault? ids calls).or (firstFault? (ids ++ addedIds calls) more) := by
  induction calls generalizing ids with
  | nil => simp [firstFault?, addedIds]
  | cons call calls ih =>
    rw [List.cons_append, firstFault?, ih, firstFault?, addedIds_cons, Option.or_assoc,
      List.append_assoc]

/-- The first fault is that of a call before which there is none. -/
theorem firstFault?_eq_some_iff {ids : List String} {calls : List Call} {failure : Failure} :
    firstFault? ids calls = some failure ↔
      ∃ before call after, calls = before ++ call :: after ∧ firstFault? ids before = none ∧
        call.fault? (ids ++ addedIds before) = some failure := by
  constructor
  · intro h
    induction calls generalizing ids with
    | nil => simp [firstFault?] at h
    | cons call calls ih =>
      cases hfault : call.fault? ids with
      | some other =>
        obtain rfl : other = failure := by simpa [firstFault?, hfault] using h
        exact ⟨[], call, calls, rfl, rfl, by simpa [addedIds] using hfault⟩
      | none =>
        rw [firstFault?, hfault, Option.none_or] at h
        obtain ⟨before, next, after, rfl, hbefore, hnext⟩ := ih h
        refine ⟨call :: before, next, after, rfl, ?_, ?_⟩
        · rw [firstFault?, hfault, hbefore, Option.none_or]
        · rw [addedIds_cons, ← List.append_assoc, hnext]
  · rintro ⟨before, call, after, rfl, hbefore, hcall⟩
    rw [firstFault?_append, hbefore, Option.none_or, firstFault?, hcall, Option.some_or]

theorem fault?_eq_none_of_firstFault? {ids : List String} {before after : List Call} {call : Call}
    (h : firstFault? ids (before ++ call :: after) = none) :
    call.fault? (ids ++ addedIds before) = none := by
  rw [firstFault?_append, Option.or_eq_none_iff, firstFault?, Option.or_eq_none_iff] at h
  exact h.2.1

theorem firstFault?_addNodes_eq_none_iff {ids : List String} (hids : ids.Nodup)
    (nodes : List Node) :
    firstFault? ids (nodes.map Call.addNode) = none ↔ (ids ++ nodes.map Node.id).Nodup := by
  induction nodes generalizing ids with
  | nil => simpa [firstFault?] using hids
  | cons node nodes ih =>
    by_cases hid : node.id ∈ ids
    · have hnot : ¬(ids ++ (node :: nodes).map Node.id).Nodup := fun h =>
        (List.nodup_append.mp h).2.2 node.id hid node.id (by simp) rfl
      simp only [hnot, iff_false]
      simp [firstFault?, fault?, hid]
    · have hnodup : (ids ++ [node.id]).Nodup := by
        rw [List.nodup_append]
        refine ⟨hids, by simp, ?_⟩
        rintro a ha b hb rfl
        exact hid (List.mem_singleton.mp hb ▸ ha)
      rw [List.map_cons, firstFault?, fault?, if_neg hid, Option.none_or]
      simpa [Call.nodes] using ih hnodup

theorem edgeFault?_eq_none_iff {ids : List String} {source target : String} :
    edgeFault? ids source target = none ↔ source ∈ ids ∧ target ∈ ids := by
  unfold edgeFault?
  split_ifs <;> simp_all

theorem edgeFault?_eq_some_iff {ids : List String} {source target : String} {failure : Failure} :
    edgeFault? ids source target = some failure ↔
      (source ∉ ids ∧ failure = .unknownNode source) ∨
      (source ∈ ids ∧ target ∉ ids ∧ failure = .unknownNode target) := by
  unfold edgeFault?
  split_ifs <;> simp_all [eq_comm]

theorem mem_of_fault?_eq_none {ids : List String} {call : Call} (h : call.fault? ids = none)
    {edge : Edge} (hedge : edge ∈ call.edges) : edge.source ∈ ids ∧ edge.target ∈ ids := by
  cases call with
  | addNode node => simp [Call.edges] at hedge
  | addEdge source target kind =>
    obtain rfl := List.mem_singleton.mp hedge
    exact edgeFault?_eq_none_iff.mp h
  | insertEdge other =>
    obtain rfl := List.mem_singleton.mp hedge
    exact edgeFault?_eq_none_iff.mp h

theorem firstFault?_eq_none_iff_of_noNodes {ids : List String} {calls : List Call}
    (hcalls : ∀ call ∈ calls, call.nodes = []) :
    firstFault? ids calls = none ↔ ∀ call ∈ calls, call.fault? ids = none := by
  induction calls with
  | nil => simp [firstFault?]
  | cons call calls ih =>
    have hrest := ih fun other hother => hcalls other (by simp [hother])
    rw [firstFault?, hcalls call (by simp), List.map_nil, List.append_nil, Option.or_eq_none_iff,
      hrest]
    simp

end Call

/-! ## What calls build -/

namespace Graph

theorem perform_of_fault {g : Graph} {call : Call} {failure : Failure}
    (hfault : call.fault? g.ids = some failure) : g.perform call = .error failure := by
  have heq := g.sound.perform_of_fault hfault
  unfold perform
  split
  · next h => rw [heq] at h; simp at h
  · next h =>
    rw [heq] at h
    obtain ⟨rfl⟩ : failure = _ := by simpa using (congrArg Prod.fst h)
    rfl

theorem perform_of_fits {g : Graph} {call : Call} (hfits : call.fault? g.ids = none) :
    ∃ g', g.perform call = .ok g' ∧
      g'.nodes = g.nodes ++ call.nodes ∧ g'.edges = g.edges ++ call.edges := by
  obtain ⟨s', heq, hnodes, hedges⟩ := g.sound.perform_of_fits hfits
  unfold perform
  split
  · next s h =>
    obtain rfl : s' = s := by rw [heq] at h; exact congrArg Prod.snd h
    exact ⟨_, rfl, hnodes, hedges⟩
  · next h => rw [heq] at h; simp at h

theorem ids_of_nodes_eq {g g' : Graph} {call : Call} (h : g'.nodes = g.nodes ++ call.nodes) :
    g'.ids = g.ids ++ call.nodes.map Node.id := by
  rw [Store.ids, h, List.map_append, Store.ids]

theorem performAll_of_fault {g : Graph} {calls : List Call} {failure : Failure}
    (hfault : Call.firstFault? g.ids calls = some failure) :
    g.performAll calls = .error failure := by
  induction calls generalizing g with
  | nil => simp [Call.firstFault?] at hfault
  | cons call calls ih =>
    rw [performAll, List.foldlM_cons]
    cases hcall : call.fault? g.ids with
    | some other =>
      obtain rfl : other = failure := by simpa [Call.firstFault?, hcall] using hfault
      rw [perform_of_fault hcall]
      rfl
    | none =>
      obtain ⟨g', hg', hnodes, -⟩ := perform_of_fits hcall
      rw [Call.firstFault?, hcall, Option.none_or, ← ids_of_nodes_eq hnodes] at hfault
      rw [hg']
      exact ih hfault

theorem performAll_of_fits {g : Graph} {calls : List Call}
    (hfits : Call.firstFault? g.ids calls = none) :
    ∃ g', g.performAll calls = .ok g' ∧ g'.nodes = g.nodes ++ calls.flatMap Call.nodes ∧
      g'.edges = g.edges ++ calls.flatMap Call.edges := by
  induction calls generalizing g with
  | nil => exact ⟨g, rfl, by simp, by simp⟩
  | cons call calls ih =>
    rw [Call.firstFault?, Option.or_eq_none_iff] at hfits
    obtain ⟨g₁, hg₁, hnodes₁, hedges₁⟩ := perform_of_fits hfits.1
    rw [← ids_of_nodes_eq hnodes₁] at hfits
    obtain ⟨g₂, hg₂, hnodes₂, hedges₂⟩ := ih hfits.2
    refine ⟨g₂, ?_, ?_, ?_⟩
    · rw [performAll, List.foldlM_cons, hg₁]
      exact hg₂
    · rw [hnodes₂, hnodes₁, List.flatMap_cons, List.append_assoc]
    · rw [hedges₂, hedges₁, List.flatMap_cons, List.append_assoc]

theorem performAll_eq_error_iff {g : Graph} {calls : List Call} {failure : Failure} :
    g.performAll calls = .error failure ↔ Call.firstFault? g.ids calls = some failure := by
  refine ⟨fun h => ?_, performAll_of_fault⟩
  cases hfault : Call.firstFault? g.ids calls with
  | some other =>
    rw [performAll_of_fault hfault] at h
    rw [Except.error.inj h]
  | none =>
    obtain ⟨g', hg', -⟩ := performAll_of_fits hfault
    rw [hg'] at h
    contradiction

theorem performAll_eq_ok_iff {g g' : Graph} {calls : List Call} :
    g.performAll calls = .ok g' ↔ Call.firstFault? g.ids calls = none ∧
      g'.nodes = g.nodes ++ calls.flatMap Call.nodes ∧
      g'.edges = g.edges ++ calls.flatMap Call.edges := by
  constructor
  · intro h
    have hfits : Call.firstFault? g.ids calls = none := by
      rw [Option.eq_none_iff_forall_ne_some]
      intro failure hfault
      rw [performAll_of_fault hfault] at h
      contradiction
    obtain ⟨g₁, hg₁, hlists⟩ := performAll_of_fits hfits
    obtain rfl : g₁ = g' := Except.ok.inj (hg₁.symm.trans h)
    exact ⟨hfits, hlists⟩
  · rintro ⟨hfits, hnodes, hedges⟩
    obtain ⟨g₁, hg₁, hnodes₁, hedges₁⟩ := performAll_of_fits hfits
    rw [hg₁, eq_of_lists (hnodes₁.trans hnodes.symm) (hedges₁.trans hedges.symm)]

end Graph

/-! ## Results -/

/-- A result that can be evaluated is there when some test of it holds. -/
theorem exists_ok_of_any {α ε : Type} {result : Except ε α} {p : α → Prop} [DecidablePred p]
    (h : result.toOption.any (fun a => decide (p a)) = true) : ∃ a, result = .ok a ∧ p a := by
  cases result with
  | ok a => exact ⟨a, rfl, of_decide_eq_true h⟩
  | error _ => contradiction

end ContractAnalysis
