import ContractAnalysis.Graph.Path
import ContractAnalysis.Proofs.Graph.Calls
import ContractAnalysis.Proofs.Graph.Cycle
import Mathlib.Tactic.Choose

/-!
# Which paths are listed

A route is a way along edges, each named by its place among all edges, that meets no node twice. The
paths from one node to another are the nodes that the routes meet, one path for each route, in the
lexicographic order of the places (`paths_enumerated`).

The search needs no bound on its depth, since each step takes up a node that was not visited
(`ways`); the bound that it is given is never reached (`waysOn_eq_ways`).

* `Graph.ways`: the search without a bound
* `Graph.Leads`, `Graph.stops`: where the edges at some places lead, and the nodes that they meet
* `Graph.IsRoute`: a way along edges that meets no node twice
-/

namespace ContractAnalysis

namespace Graph

variable {g : Graph} {target : String}

open Relation (ReflTransGen)

/-! ## The search without a bound -/

/-- How many nodes are still to be visited. -/
def room (g : Graph) (visited : List String) (id : String) : Nat :=
  (g.ids.filter fun other => other ∉ id :: visited).length

theorem room_lt {visited : List String} {id next : String}
    (h : next ∈ (g.successors id).filter fun next => next ∉ id :: visited) :
    g.room (id :: visited) next < g.room visited id := by
  obtain ⟨hnext, hnew⟩ := List.mem_filter.mp h
  have hmem : next ∈ g.ids.filter fun other => other ∉ id :: visited :=
    List.mem_filter.mpr ⟨(mem_successors_iff.mp hnext).mem_ids, hnew⟩
  have hfewer : (g.ids.filter fun other => other ∉ next :: id :: visited) =
      (g.ids.filter fun other => other ∉ id :: visited).filter (· ≠ next) := by
    rw [List.filter_filter]
    refine List.filter_congr fun other _ => ?_
    rw [← Bool.decide_and]
    exact decide_eq_decide.mpr (by rw [List.mem_cons, not_or])
  rw [room, hfewer, room, List.length_filter_lt_length_iff_exists]
  exact ⟨next, hmem, by simp⟩

/-- The ways on from a node that the nodes of `visited` lead to, each as the nodes from there to
the target. -/
def ways (g : Graph) (target : String) (visited : List String) (id : String) :
    List (List String) :=
  if id = target then [[id]]
  else
    ((g.successors id).filter fun next => next ∉ id :: visited).attach.flatMap fun ⟨next, _⟩ =>
      (ways g target (id :: visited) next).map (id :: ·)
termination_by g.room visited id
decreasing_by exact room_lt ‹_›

theorem ways_self (visited : List String) : g.ways target visited target = [[target]] := by
  rw [ways, if_pos rfl]

theorem ways_of_ne {id : String} (hid : id ≠ target) (visited : List String) :
    g.ways target visited id = ((g.successors id).filter fun next => next ∉ id :: visited).flatMap
      fun next => (g.ways target (id :: visited) next).map (id :: ·) := by
  rw [ways, if_neg hid]
  simp only [List.flatMap_subtype, List.unattach_attach]

/-- The bound on the depth is not reached where it exceeds the number of nodes to be visited. -/
theorem waysOn_eq_ways {fuel : Nat} {visited : List String} {id : String}
    (h : g.room visited id < fuel) :
    g.waysOn target fuel visited id = g.ways target visited id := by
  induction fuel generalizing visited id with
  | zero => contradiction
  | succ fuel ih =>
    rw [waysOn]
    split_ifs with hid
    · rw [hid, ways_self]
    · rw [ways_of_ne hid]
      refine List.flatMap_congr fun next hnext => ?_
      have hless := room_lt hnext
      rw [ih (by omega)]

theorem paths_eq_ways {source : String} (hsource : source ∈ g.ids) (htarget : target ∈ g.ids) :
    g.paths source target = g.ways target [] source := by
  have hroom : g.room [] source < g.ids.length :=
    List.length_filter_lt_length_iff_exists.mpr ⟨source, hsource, by simp⟩
  rw [Store.ids, List.length_map] at hroom
  rw [paths, if_pos ⟨hsource, htarget⟩, waysOn_eq_ways hroom]

/-! ## Routes -/

/-- The edges at some places, one after the other, lead from a node to the target. -/
def Leads (g : Graph) (target : String) : String → List Nat → Prop
  | id, [] => id = target
  | id, place :: places =>
    ∃ edge, g.edges[place]? = some edge ∧ edge.source = id ∧ g.Leads target edge.target places

/-- The nodes that are met from a node on along the edges at some places. -/
def stops (g : Graph) (id : String) (places : List Nat) : List String :=
  id :: places.filterMap fun place => (g.edges[place]?).map Edge.target

/-- The edges at some places lead from one node to another and meet no node twice. -/
structure IsRoute (g : Graph) (source target : String) (places : List Nat) : Prop where
  leads : g.Leads target source places
  nodup : (g.stops source places).Nodup

theorem stops_cons {place : Nat} {edge : Edge} (h : g.edges[place]? = some edge) (id : String)
    (places : List Nat) : g.stops id (place :: places) = id :: g.stops edge.target places := by
  simp only [stops, List.filterMap_cons, h, Option.map_some]

theorem joins_of_getElem? {place : Nat} {edge : Edge} (h : g.edges[place]? = some edge) :
    g.Joins edge.source edge.target :=
  ⟨edge, List.mem_of_getElem? h, rfl, rfl⟩

theorem Leads.mem_stops {id : String} {places : List Nat} (h : g.Leads target id places) :
    target ∈ g.stops id places := by
  induction places generalizing id with
  | nil =>
    obtain rfl : id = target := h
    exact List.mem_cons_self
  | cons place places ih =>
    obtain ⟨edge, hedge, -, hrest⟩ := h
    rw [stops_cons hedge]
    exact List.mem_cons_of_mem id (ih hrest)

theorem Leads.reflTransGen {id : String} {places : List Nat} (h : g.Leads target id places) :
    ReflTransGen g.Joins id target := by
  induction places generalizing id with
  | nil =>
    obtain rfl : id = target := h
    exact .refl
  | cons place places ih =>
    obtain ⟨edge, hedge, rfl, hrest⟩ := h
    exact .head (joins_of_getElem? hedge) (ih hrest)

theorem isRoute_nil (target : String) : g.IsRoute target target [] :=
  ⟨rfl, List.pairwise_singleton _ target⟩

theorem isRoute_cons_iff {id : String} {place : Nat} {places : List Nat} :
    g.IsRoute id target (place :: places) ↔ ∃ edge, g.edges[place]? = some edge ∧
      edge.source = id ∧ g.IsRoute edge.target target places ∧
      id ∉ g.stops edge.target places := by
  constructor
  · rintro ⟨⟨edge, hedge, hsource, hrest⟩, hnodup⟩
    rw [stops_cons hedge] at hnodup
    obtain ⟨hnew, hnodup⟩ := List.nodup_cons.mp hnodup
    exact ⟨edge, hedge, hsource, ⟨hrest, hnodup⟩, hnew⟩
  · rintro ⟨edge, hedge, hsource, hrest, hnew⟩
    refine ⟨⟨edge, hedge, hsource, hrest.leads⟩, ?_⟩
    rw [stops_cons hedge]
    exact List.nodup_cons.mpr ⟨hnew, hrest.nodup⟩

theorem isRoute_self_iff {places : List Nat} : g.IsRoute target target places ↔ places = [] := by
  constructor
  · intro h
    cases places with
    | nil => rfl
    | cons place places =>
      obtain ⟨edge, -, -, hrest, hnew⟩ := isRoute_cons_iff.mp h
      exact absurd hrest.leads.mem_stops hnew
  · rintro rfl
    exact isRoute_nil target

theorem IsRoute.exists_from {id : String} {places : List Nat} (h : g.IsRoute id target places)
    {other : String} (hother : other ∈ g.stops id places) :
    ∃ places, g.IsRoute other target places := by
  induction places generalizing id with
  | nil =>
    obtain rfl : other = id := by simpa [stops] using hother
    exact ⟨[], h⟩
  | cons place places ih =>
    obtain ⟨edge, hedge, -, hrest, -⟩ := isRoute_cons_iff.mp h
    rw [stops_cons hedge] at hother
    rcases List.mem_cons.mp hother with rfl | hmem
    · exact ⟨_, h⟩
    · exact ih hrest hmem

theorem exists_isRoute {source : String} (h : ReflTransGen g.Joins source target) :
    ∃ places, g.IsRoute source target places := by
  induction h using ReflTransGen.head_induction_on with
  | refl => exact ⟨[], isRoute_nil target⟩
  | head hjoins _ ih =>
    obtain ⟨edge, hedge, rfl, rfl⟩ := hjoins
    obtain ⟨places, hroute⟩ := ih
    by_cases hmem : edge.source ∈ g.stops edge.target places
    · exact hroute.exists_from hmem
    · obtain ⟨place, hplace⟩ := List.mem_iff_getElem?.mp hedge
      exact ⟨place :: places, isRoute_cons_iff.mpr ⟨edge, hplace, rfl, hroute, hmem⟩⟩

/-! ## The routes of the search -/

/-- A route that meets no node of `visited`. -/
def IsFresh (g : Graph) (target : String) (visited : List String) (id : String)
    (places : List Nat) : Prop :=
  g.IsRoute id target places ∧ ∀ other ∈ g.stops id places, other ∉ visited

/-- The edges that the search takes from a node, with their places, oldest first. -/
def edgesOn (g : Graph) (visited : List String) (id : String) : List (Edge × Nat) :=
  g.edges.zipIdx.filter fun entry =>
    entry.1.source == id && decide (entry.1.target ∉ id :: visited)

theorem mem_edgesOn_iff {visited : List String} {id : String} {edge : Edge} {place : Nat} :
    (edge, place) ∈ g.edgesOn visited id ↔
      g.edges[place]? = some edge ∧ edge.source = id ∧ edge.target ∉ id :: visited := by
  simp only [edgesOn, List.mem_filter, List.mk_mem_zipIdx_iff_getElem?, Bool.and_eq_true,
    beq_iff_eq, decide_eq_true_eq]

theorem pairwise_edgesOn (g : Graph) (visited : List String) (id : String) :
    (g.edgesOn visited id).Pairwise fun entry entry' => entry.2 < entry'.2 := by
  refine List.Pairwise.filter _ (List.pairwise_map.mp ?_)
  rw [List.zipIdx_map_snd]
  exact List.pairwise_lt_range'

theorem filter_successors (visited : List String) (id : String) :
    ((g.successors id).filter fun next => next ∉ id :: visited) =
      (g.edgesOn visited id).map fun entry => entry.1.target := by
  have hfst : (g.edgesOn visited id).map Prod.fst = g.edges.filter fun edge =>
      edge.source == id && decide (edge.target ∉ id :: visited) := by
    conv => rhs; rw [← List.zipIdx_map_fst 0 g.edges, List.filter_map]
    rfl
  calc (g.successors id).filter (fun next => next ∉ id :: visited)
      = ((g.edges.filter fun edge => edge.source == id).filter
          fun edge => edge.target ∉ id :: visited).map Edge.target := by
        rw [g.sound.successors_eq, g.sound.outgoing_eq, List.filter_map]
        rfl
    _ = ((g.edgesOn visited id).map Prod.fst).map Edge.target := by
        rw [hfst, List.filter_filter]
        simp only [Bool.and_comm]
    _ = (g.edgesOn visited id).map fun entry => entry.1.target := by rw [List.map_map]; rfl

theorem isFresh_cons_iff {visited : List String} {id : String} (hid : id ∉ visited) {place : Nat}
    {places : List Nat} : g.IsFresh target visited id (place :: places) ↔
      ∃ edge, (edge, place) ∈ g.edgesOn visited id ∧
        g.IsFresh target (id :: visited) edge.target places := by
  simp only [IsFresh, isRoute_cons_iff, mem_edgesOn_iff]
  constructor
  · rintro ⟨⟨edge, hedge, hsource, hroute, hnew⟩, hfree⟩
    rw [stops_cons hedge] at hfree
    have hunvisited : ∀ other ∈ g.stops edge.target places, other ∉ id :: visited := by
      intro other hother
      rw [List.mem_cons, not_or]
      refine ⟨?_, hfree other (List.mem_cons_of_mem id hother)⟩
      rintro rfl
      exact hnew hother
    exact ⟨edge, ⟨hedge, hsource, hunvisited _ List.mem_cons_self⟩, hroute, hunvisited⟩
  · rintro ⟨edge, ⟨hedge, hsource, -⟩, hroute, hfree⟩
    refine ⟨⟨edge, hedge, hsource, hroute, fun hmem => hfree id hmem List.mem_cons_self⟩, ?_⟩
    rw [stops_cons hedge]
    exact List.forall_mem_cons.mpr ⟨hid, fun other hother hmem =>
      hfree other hother (List.mem_cons_of_mem id hmem)⟩

/-- The routes that start with one of some edges and go on as a function says. -/
def routesAlong (entries : List (Edge × Nat)) (rest : String → List (List Nat)) :
    List (List Nat) :=
  entries.flatMap fun entry => (rest entry.1.target).map (entry.2 :: ·)

theorem mem_routesAlong_iff {entries : List (Edge × Nat)} {rest : String → List (List Nat)}
    {places : List Nat} : places ∈ routesAlong entries rest ↔
      ∃ edge place more, (edge, place) ∈ entries ∧ more ∈ rest edge.target ∧
        places = place :: more := by
  simp only [routesAlong, List.mem_flatMap, List.mem_map, Prod.exists]
  constructor
  · rintro ⟨edge, place, hentry, more, hmore, rfl⟩
    exact ⟨edge, place, more, hentry, hmore, rfl⟩
  · rintro ⟨edge, place, more, hentry, hmore, rfl⟩
    exact ⟨edge, place, hentry, more, hmore, rfl⟩

/-- Routes in lexicographic order, those that the search lists from a node on. -/
structure Lists (g : Graph) (target : String) (visited : List String) (id : String)
    (routes : List (List Nat)) : Prop where
  sorted : routes.Pairwise (· < ·)
  mem_iff : ∀ places, places ∈ routes ↔ g.IsFresh target visited id places
  ways_eq : g.ways target visited id = routes.map (g.stops id)

theorem lists_self {visited : List String} (hid : target ∉ visited) :
    g.Lists target visited target [[]] where
  sorted := List.pairwise_singleton _ _
  mem_iff places := by
    rw [List.mem_singleton, IsFresh, isRoute_self_iff]
    refine ⟨?_, And.left⟩
    rintro rfl
    exact ⟨rfl, List.forall_mem_singleton.mpr hid⟩
  ways_eq := ways_self visited

/-- One step of the search: what is listed from a node on is put together from what is listed behind
the edges out of it. -/
theorem lists_routesAlong {visited : List String} {id : String} (hne : id ≠ target)
    (hid : id ∉ visited) {rest : String → List (List Nat)}
    (hrest : ∀ entry ∈ g.edgesOn visited id,
      g.Lists target (id :: visited) entry.1.target (rest entry.1.target)) :
    g.Lists target visited id (routesAlong (g.edgesOn visited id) rest) where
  sorted := by
    refine List.pairwise_flatMap.mpr ⟨fun entry hentry => ?_, ?_⟩
    · exact List.pairwise_map.mpr ((hrest entry hentry).sorted.imp List.cons_lt_cons_self.mpr)
    · refine (pairwise_edgesOn g visited id).imp fun hlt places hplaces places' hplaces' => ?_
      obtain ⟨more, -, rfl⟩ := List.mem_map.mp hplaces
      obtain ⟨more', -, rfl⟩ := List.mem_map.mp hplaces'
      exact List.cons_lt_cons_iff.mpr (.inl hlt)
  mem_iff places := by
    rw [mem_routesAlong_iff]
    constructor
    · rintro ⟨edge, place, more, hentry, hmore, rfl⟩
      have hfresh := ((hrest _ hentry).mem_iff more).mp hmore
      exact (isFresh_cons_iff hid).mpr ⟨edge, hentry, hfresh⟩
    · intro hfresh
      cases places with
      | nil => exact absurd hfresh.1.leads hne
      | cons place more =>
        obtain ⟨edge, hentry, hmore⟩ := (isFresh_cons_iff hid).mp hfresh
        exact ⟨edge, place, more, hentry, ((hrest _ hentry).mem_iff more).mpr hmore, rfl⟩
  ways_eq := by
    rw [ways_of_ne hne, filter_successors, List.flatMap_map, routesAlong, List.map_flatMap]
    refine List.flatMap_congr fun entry hentry => ?_
    rw [(hrest entry hentry).ways_eq, List.map_map, List.map_map]
    exact List.map_congr_left fun more _ => (stops_cons (mem_edgesOn_iff.mp hentry).1 id more).symm

theorem exists_lists (g : Graph) (target : String) (visited : List String) (id : String)
    (hid : id ∉ visited) : ∃ routes, g.Lists target visited id routes := by
  induction visited, id using ways.induct g target with
  | case1 visited => exact ⟨[[]], lists_self hid⟩
  | case2 visited id hne ih =>
    have hrest : ∀ next ∈ (g.successors id).filter fun next => next ∉ id :: visited,
        ∃ routes, g.Lists target (id :: visited) next routes :=
      fun next hnext => ih next hnext (of_decide_eq_true (List.mem_filter.mp hnext).2)
    choose! rest hlists using hrest
    rw [filter_successors] at hlists
    exact ⟨_, lists_routesAlong hne hid (List.forall_mem_map.mp hlists)⟩

/-! ## Results -/

theorem exists_routes (g : Graph) (source target : String) :
    ∃ routes : List (List Nat), routes.Pairwise (· < ·) ∧
      (∀ places, places ∈ routes ↔ g.IsRoute source target places) ∧
      g.ways target [] source = routes.map (g.stops source) := by
  obtain ⟨routes, hsorted, hmem, hways⟩ := exists_lists g target [] source List.not_mem_nil
  refine ⟨routes, hsorted, fun places => (hmem places).trans ?_, hways⟩
  exact ⟨And.left, fun hroute => ⟨hroute, fun _ _ => List.not_mem_nil⟩⟩

theorem ways_eq_nil_iff {source : String} :
    g.ways target [] source = [] ↔ ¬ReflTransGen g.Joins source target := by
  obtain ⟨routes, -, hmem, hways⟩ := exists_routes g source target
  rw [hways, List.map_eq_nil_iff, List.eq_nil_iff_forall_not_mem]
  constructor
  · intro hnone hway
    obtain ⟨places, hroute⟩ := exists_isRoute hway
    exact hnone places ((hmem places).mpr hroute)
  · exact fun hnone places hplaces => hnone ((hmem places).mp hplaces).leads.reflTransGen

theorem paths_eq_nil_iff {source : String} : g.paths source target = [] ↔
    source ∉ g.ids ∨ target ∉ g.ids ∨ ¬ReflTransGen g.Joins source target := by
  by_cases hsource : source ∈ g.ids
  · by_cases htarget : target ∈ g.ids
    · rw [paths_eq_ways hsource htarget, ways_eq_nil_iff]
      simp [hsource, htarget]
    · simp [paths, htarget]
  · simp [paths, hsource]

/-- Between two nodes of a graph, the search needs no bound, and the paths that it lists are the
nodes of the routes, one path for each route, the routes being in lexicographic order. From a node
to itself there is the path of this node alone. No path is listed exactly where an id is no node or
no way leads from the source to the target. -/
theorem paths_enumerated (g : Graph) (source target : String) :
    (source ∈ g.ids ∧ target ∈ g.ids → g.paths source target = g.ways target [] source ∧
      ∃ routes : List (List Nat), routes.Pairwise (· < ·) ∧
        (∀ places, places ∈ routes ↔ g.IsRoute source target places) ∧
        g.paths source target = routes.map (g.stops source)) ∧
    (source ∈ g.ids → g.paths source source = [[source]]) ∧
    (g.paths source target = [] ↔
      source ∉ g.ids ∨ target ∉ g.ids ∨ ¬ReflTransGen g.Joins source target) := by
  refine ⟨fun ⟨hsource, htarget⟩ => ?_, fun hsource => ?_, paths_eq_nil_iff⟩
  · rw [paths_eq_ways hsource htarget]
    exact ⟨rfl, exists_routes g source target⟩
  · rw [paths_eq_ways hsource hsource, ways_self]

/-- Two edges lead from the first node to the second, one before and one behind the edge that leads
past it, and one leads back. -/
theorem paths_enumerated_parallel :
    let clause (id : String) : Node := .clause (.leveled id "" "" 1 none)
    let nodes := [clause "a", clause "b", clause "c"]
    let edges : List Edge := [⟨"a", "b", .references⟩, ⟨"b", "a", .references⟩,
      ⟨"a", "c", .references⟩, ⟨"b", "c", .references⟩, ⟨"a", "b", .dependsOn⟩]
    ∃ g, Projection.graph? ⟨nodes, edges⟩ = .ok g ∧
      g.paths "a" "c" = [["a", "b", "c"], ["a", "c"], ["a", "b", "c"]] ∧
      ∃ routes : List (List Nat), routes.length = 3 ∧ routes.Pairwise (· < ·) ∧
        ∀ places, places ∈ routes ↔ g.IsRoute "a" "c" places := by
  intro clause nodes edges
  obtain ⟨g, hg, hids, hpaths⟩ : ∃ g, Projection.graph? ⟨nodes, edges⟩ = .ok g ∧
      ("a" ∈ g.ids ∧ "c" ∈ g.ids) ∧
      g.paths "a" "c" = [["a", "b", "c"], ["a", "c"], ["a", "b", "c"]] :=
    exists_ok_of_any (by decide +kernel)
  obtain ⟨-, routes, hsorted, hmem, heq⟩ := (paths_enumerated g "a" "c").1 hids
  refine ⟨g, hg, hpaths, routes, ?_, hsorted, hmem⟩
  have hlength := congrArg List.length (heq.symm.trans hpaths)
  rwa [List.length_map] at hlength

end Graph

end ContractAnalysis
