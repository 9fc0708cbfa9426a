import ContractAnalysis.Graph.Path
import ContractAnalysis.Proofs.Graph.Reads
import Mathlib.Data.List.Chain
import Mathlib.Data.List.Perm.Subperm
import Mathlib.Logic.Relation

/-!
# What the search for cycles reports

Every list that the search reports is a cycle (`exists_isCycle`). The search leaves the nodes in an
order in which an edge leads to a node left before, unless it closes a reported cycle
(`exists_settled_order`). So nothing is reported exactly when no way along edges leads from a node
back to itself (`cycles_eq_nil_iff`): which cycles are reported depends on the order of nodes and
edges, but whether there is one does not.

* `Graph.Joins`, `Graph.IsPath`, `Graph.IsCycle`: an edge between two ids, and ways along edges
* `Graph.Explored`: the invariant of the search, where it stands at the end of a path
-/

namespace ContractAnalysis

namespace Graph

variable {g : Graph}

/-! ## Ways along edges -/

/-- An edge leads from one id to another. -/
def Joins (g : Graph) (id next : String) : Prop :=
  ∃ edge ∈ g.edges, edge.source = id ∧ edge.target = next

theorem mem_successors_iff {id next : String} : next ∈ g.successors id ↔ g.Joins id next := by
  simp only [g.sound.successors_eq, g.sound.outgoing_eq, List.mem_map, List.mem_filter, beq_iff_eq,
    and_assoc, Joins]

theorem Joins.mem_ids {id next : String} (h : g.Joins id next) : next ∈ g.ids := by
  obtain ⟨edge, hedge, -, rfl⟩ := h
  exact g.sound.joined hedge .entering

theorem Joins.mem_ids_source {id next : String} (h : g.Joins id next) : id ∈ g.ids := by
  obtain ⟨edge, hedge, rfl, -⟩ := h
  exact g.sound.joined hedge .leaving

/-- A way along edges that meets no node twice. -/
structure IsPath (g : Graph) (path : List String) : Prop where
  along : path.IsChain g.Joins
  nodup : path.Nodup
  nodes : path ⊆ g.ids

/-- A way along edges from a node back to itself that meets no other node twice. -/
structure IsCycle (g : Graph) (id : String) (way : List String) : Prop where
  along : (id :: way ++ [id]).IsChain g.Joins
  nodup : (id :: way).Nodup

/-- A node that an edge leads to from the last node of a path, or any node where the path is
empty. -/
structure Follows (g : Graph) (path : List String) (next : String) : Prop where
  node : next ∈ g.ids
  joined : ∀ last ∈ path.getLast?, g.Joins last next

theorem follows_nil {id : String} (hid : id ∈ g.ids) : g.Follows [] id := ⟨hid, by simp⟩

theorem follows_of_mem_successors {path : List String} {id next : String}
    (h : next ∈ g.successors id) : g.Follows (path ++ [id]) next := by
  have hjoins := mem_successors_iff.mp h
  refine ⟨hjoins.mem_ids, fun last hlast => ?_⟩
  obtain rfl : id = last := by simpa using hlast
  exact hjoins

theorem length_le_length_nodes {ids : List String} (hnodup : ids.Nodup) (hnodes : ids ⊆ g.ids) :
    ids.length ≤ g.nodes.length := by
  have hle := (hnodup.subperm hnodes).length_le
  rwa [Store.ids, List.length_map] at hle

theorem isPath_nil : g.IsPath [] := ⟨.nil, List.nodup_nil, List.nil_subset _⟩

theorem IsPath.length_le {path : List String} (h : g.IsPath path) :
    path.length ≤ g.nodes.length := length_le_length_nodes h.nodup h.nodes

theorem IsPath.snoc {path : List String} (h : g.IsPath path) {next : String}
    (hnext : g.Follows path next) (hnew : next ∉ path) : g.IsPath (path ++ [next]) where
  along := by
    refine List.isChain_append.mpr ⟨h.along, List.isChain_singleton next, ?_⟩
    intro last hlast other hother
    obtain rfl : next = other := by simpa using hother
    exact hnext.joined last hlast
  nodup := by
    rw [List.nodup_append]
    refine ⟨h.nodup, by simp, ?_⟩
    rintro id hid other hother rfl
    exact hnew (List.mem_singleton.mp hother ▸ hid)
  nodes := by
    intro id hid
    rcases List.mem_append.mp hid with hid | hid
    · exact h.nodes hid
    · rw [List.mem_singleton.mp hid]
      exact hnext.node

theorem exists_dropWhile_eq_cons {path : List String} {next : String} (h : next ∈ path) :
    ∃ way, path.dropWhile (· != next) = next :: way := by
  obtain ⟨before, way, rfl, hbefore⟩ := List.eq_append_cons_of_mem h
  have hskip : ∀ id ∈ before, (id != next) = true := fun id hid =>
    bne_iff_ne.mpr fun heq => hbefore (heq ▸ hid)
  rw [List.dropWhile_append_of_pos hskip]
  exact ⟨way, by simp⟩

theorem IsPath.close {path : List String} {last next : String} (h : g.IsPath (path ++ [last]))
    (hjoins : g.Joins last next) (hmem : next ∈ path ++ [last]) :
    ∃ way, (path ++ [last]).dropWhile (· != next) = next :: way ∧ g.IsCycle next way ∧
      [last, next] <:+ next :: way ++ [next] := by
  obtain ⟨way, hway⟩ := exists_dropWhile_eq_cons hmem
  have hsuffix : next :: way <:+ path ++ [last] := hway ▸ List.dropWhile_suffix _
  obtain ⟨first, other, hlast⟩ := (List.eq_nil_or_concat' (next :: way)).resolve_left (by simp)
  obtain rfl : last = other := by
    obtain ⟨before, hsplit⟩ := hsuffix
    rw [hlast, ← List.append_assoc] at hsplit
    exact (List.singleton_inj.mp (List.append_inj' hsplit rfl).2).symm
  refine ⟨way, hway, ⟨?_, hsuffix.sublist.nodup h.nodup⟩, ?_⟩
  · refine List.isChain_append.mpr ⟨h.along.suffix hsuffix, List.isChain_singleton next, ?_⟩
    intro id hid other hother
    obtain rfl : last = id := by simpa [hlast] using hid
    obtain rfl : next = other := by simpa using hother
    exact hjoins
  · exact ⟨first, by simp [hlast]⟩

theorem IsCycle.exists_joins {id : String} {way : List String} (h : g.IsCycle id way)
    {other : String} (hother : other ∈ id :: way ++ [id]) : ∃ next, g.Joins other next := by
  have hleaves : ∀ other ∈ id :: way, ∃ next, g.Joins other next := by
    intro other hmem
    obtain ⟨before, after, hsplit⟩ := List.append_of_mem hmem
    have halong := h.along
    rw [hsplit, List.append_assoc, List.cons_append] at halong
    obtain ⟨next, rest, hrest⟩ := List.exists_cons_of_ne_nil (l := after ++ [id]) (by simp)
    rw [hrest] at halong
    exact ⟨next, halong.right_of_append.rel⟩
  rcases List.mem_append.mp hother with hmem | hmem
  · exact hleaves other hmem
  · rw [List.mem_singleton.mp hmem]
    exact hleaves id List.mem_cons_self

theorem transGen_of_isChain {steps : String → String → Prop} {id : String} {way : List String}
    (h : (id :: way ++ [id]).IsChain steps) : Relation.TransGen steps id id := by
  have hall := (h.imp fun _ _ => Relation.TransGen.single).pairwise
  rw [List.cons_append] at hall
  exact List.rel_of_pairwise_cons hall (by simp)

theorem IsCycle.transGen {id : String} {way : List String} (h : g.IsCycle id way) :
    Relation.TransGen g.Joins id id := transGen_of_isChain h.along

/-! ## The search -/

/-- A cycle that ends with an edge is among some lists. -/
def Closes (cycles : List (List String)) (id next : String) : Prop :=
  ∃ cycle ∈ cycles, [id, next] <:+ cycle

/-- Go on from the end of a path to a node, unless it is seen; if it is on the path, a cycle is
reported. -/
def follow (g : Graph) (fuel : Nat) (path : List String) (search : CycleSearch)
    (next : String) : CycleSearch :=
  if next ∈ search.seen then
    if next ∈ path then
      { search with cycles := search.cycles ++ [path.dropWhile (· != next) ++ [next]] }
    else search
  else g.closeCycles fuel path search next

theorem closeCycles_succ (fuel : Nat) (path : List String) (search : CycleSearch) (id : String) :
    g.closeCycles (fuel + 1) path search id =
      (g.successors id).foldl (g.follow fuel (path ++ [id]))
        { search with seen := id :: search.seen } := rfl

/-- What the search knows at its end. -/
def searched (g : Graph) : CycleSearch := g.ids.foldl (g.follow g.nodes.length []) ⟨[], []⟩

theorem cycles_eq : g.cycles = g.searched.cycles := by
  unfold cycles searched
  congr 2

theorem forall_split_cons {p : String → List String → Prop} {id : String} {done : List String}
    (hid : p id done) (h : ∀ before other after, done = before ++ other :: after → p other after) :
    ∀ before other after, id :: done = before ++ other :: after → p other after := by
  intro before other after hsplit
  cases before with
  | nil =>
    obtain ⟨rfl, rfl⟩ := List.cons.inj hsplit
    exact hid
  | cons first before => exact h before other after (List.cons.inj hsplit).2

/-- What is known when the search stands at the end of a path: the nodes seen are those of the path
and those in `done`, the one left last in front. -/
structure Explored (g : Graph) (path : List String) (search : CycleSearch)
    (done : List String) : Prop where
  seen_iff : ∀ id, id ∈ search.seen ↔ id ∈ path ∨ id ∈ done
  nodup : done.Nodup
  apart : ∀ id ∈ path, id ∉ done
  sound : ∀ cycle ∈ search.cycles, ∃ id way, cycle = id :: way ++ [id] ∧ g.IsCycle id way
  /-- An edge from a node that was left leads to one left before, or closes a reported cycle. -/
  settled : ∀ before id after, done = before ++ id :: after → ∀ next, g.Joins id next →
    next ∈ after ∨ Closes search.cycles id next

theorem explored_nil : g.Explored [] ⟨[], []⟩ [] := by constructor <;> simp

/-- What more of the search adds: nodes that are left, in front, and cycles. -/
structure Extends (search search' : CycleSearch) (done done' : List String) : Prop where
  done : done <:+ done'
  cycles : search.cycles ⊆ search'.cycles

theorem Extends.refl (search : CycleSearch) (done : List String) :
    Extends search search done done := ⟨List.suffix_refl done, List.Subset.refl _⟩

theorem Extends.trans {s₁ s₂ s₃ : CycleSearch} {d₁ d₂ d₃ : List String}
    (h : Extends s₁ s₂ d₁ d₂) (h' : Extends s₂ s₃ d₂ d₃) : Extends s₁ s₃ d₁ d₃ :=
  ⟨h.done.trans h'.done, List.Subset.trans h.cycles h'.cycles⟩

theorem Closes.mono {cycles cycles' : List (List String)} (hsubset : cycles ⊆ cycles')
    {id next : String} (h : Closes cycles id next) : Closes cycles' id next :=
  h.imp fun _ hcycle => ⟨hsubset hcycle.1, hcycle.2⟩

namespace Explored

variable {path done : List String} {search : CycleSearch}

theorem enter (h : g.Explored path search done) {id : String} (hnew : id ∉ search.seen) :
    g.Explored (path ++ [id]) { search with seen := id :: search.seen } done where
  seen_iff other := by
    simp only [List.mem_cons, h.seen_iff, List.mem_append, List.not_mem_nil, or_false]
    tauto
  nodup := h.nodup
  apart other hother := by
    rcases List.mem_append.mp hother with hpath | hid
    · exact h.apart other hpath
    · rw [List.mem_singleton.mp hid]
      exact fun hdone => hnew ((h.seen_iff id).mpr (.inr hdone))
  sound := h.sound
  settled := h.settled

/-- The last node of the path is left when all edges out of it are settled. -/
theorem leave {id : String} (h : g.Explored (path ++ [id]) search done) (hpath : id ∉ path)
    (hsettled : ∀ next, g.Joins id next → next ∈ done ∨ Closes search.cycles id next) :
    g.Explored path search (id :: done) where
  seen_iff other := by
    simp only [h.seen_iff, List.mem_append, List.mem_cons, List.not_mem_nil, or_false]
    tauto
  nodup := List.nodup_cons.mpr ⟨h.apart id (by simp), h.nodup⟩
  apart other hother := by
    rw [List.mem_cons, not_or]
    refine ⟨?_, h.apart other (List.mem_append_left _ hother)⟩
    rintro rfl
    exact hpath hother
  sound := h.sound
  settled := forall_split_cons hsettled h.settled

theorem report (h : g.Explored path search done) {id : String} {way : List String}
    (hcycle : g.IsCycle id way) :
    g.Explored path { search with cycles := search.cycles ++ [id :: way ++ [id]] } done where
  seen_iff := h.seen_iff
  nodup := h.nodup
  apart := h.apart
  sound := by
    intro cycle hmem
    rcases List.mem_append.mp hmem with hmem | hmem
    · exact h.sound cycle hmem
    · exact ⟨id, way, List.mem_singleton.mp hmem, hcycle⟩
  settled before other after hsplit next hjoins :=
    (h.settled before other after hsplit next hjoins).imp_right
      (Closes.mono (List.subset_append_left _ _))

end Explored

/-- A node behind the end of a path is left, or the edge to it closes a reported cycle. -/
def Settled (path : List String) (search : CycleSearch) (done : List String)
    (next : String) : Prop :=
  next ∈ done ∨ next ∈ path ∧ ∀ last ∈ path.getLast?, Closes search.cycles last next

theorem Settled.extend {path done done' : List String} {search search' : CycleSearch}
    {next : String} (h : Settled path search done next)
    (hextends : Extends search search' done done') :
    Settled path search' done' next :=
  h.imp (fun hdone => hextends.done.subset hdone) fun hclosed =>
    ⟨hclosed.1, fun last hlast => (hclosed.2 last hlast).mono hextends.cycles⟩

/-- A search from a new node behind the end of a path keeps the invariant and leaves the node
last. -/
def Visits (g : Graph) (fuel : Nat) : Prop :=
  ∀ path search done id, g.nodes.length ≤ fuel + path.length → g.IsPath (path ++ [id]) →
    id ∉ search.seen → g.Explored path search done →
    ∃ done', g.Explored path (g.closeCycles fuel path search id) (id :: done') ∧
      Extends search (g.closeCycles fuel path search id) done (id :: done')

theorem explored_follow {fuel : Nat} (hvisits : g.Visits fuel) {path : List String}
    (hfuel : g.nodes.length ≤ fuel + path.length) (hpath : g.IsPath path) {search : CycleSearch}
    {done : List String} (h : g.Explored path search done) {next : String}
    (hnext : g.Follows path next) :
    ∃ done', g.Explored path (g.follow fuel path search next) done' ∧
      Extends search (g.follow fuel path search next) done done' ∧
      Settled path (g.follow fuel path search next) done' next := by
  unfold follow
  split_ifs with hseen hmem
  · obtain ⟨first, last, rfl⟩ :=
      (List.eq_nil_or_concat' path).resolve_left (List.ne_nil_of_mem hmem)
    obtain ⟨way, hway, hcycle, hends⟩ := hpath.close (hnext.joined last (by simp)) hmem
    rw [hway]
    refine ⟨done, h.report hcycle, ⟨List.suffix_refl done, List.subset_append_left _ _⟩,
      .inr ⟨hmem, ?_⟩⟩
    intro other hother
    obtain rfl : last = other := by simpa using hother
    exact ⟨_, by simp, hends⟩
  · exact ⟨done, h, .refl search done, .inl (((h.seen_iff next).mp hseen).resolve_left hmem)⟩
  · have hnew : next ∉ path := fun hmem => hseen ((h.seen_iff next).mpr (.inl hmem))
    obtain ⟨done', hexplored, hextends⟩ :=
      hvisits path search done next hfuel (hpath.snoc hnext hnew) hseen h
    exact ⟨_, hexplored, hextends, .inl List.mem_cons_self⟩

theorem explored_foldl {fuel : Nat} (hvisits : g.Visits fuel) {path : List String}
    (hfuel : g.nodes.length ≤ fuel + path.length) (hpath : g.IsPath path) {search : CycleSearch}
    {done : List String} (h : g.Explored path search done) {nexts : List String}
    (hnexts : ∀ next ∈ nexts, g.Follows path next) :
    ∃ done', g.Explored path (nexts.foldl (g.follow fuel path) search) done' ∧
      Extends search (nexts.foldl (g.follow fuel path) search) done done' ∧
      ∀ next ∈ nexts, Settled path (nexts.foldl (g.follow fuel path) search) done' next := by
  induction nexts generalizing search done with
  | nil => exact ⟨done, h, .refl search done, by simp⟩
  | cons next nexts ih =>
    obtain ⟨hnext, hrest⟩ := List.forall_mem_cons.mp hnexts
    obtain ⟨done₁, h₁, hextends₁, hsettled₁⟩ := explored_follow hvisits hfuel hpath h hnext
    obtain ⟨done₂, h₂, hextends₂, hsettled₂⟩ := ih h₁ hrest
    refine ⟨done₂, h₂, hextends₁.trans hextends₂, ?_⟩
    exact List.forall_mem_cons.mpr ⟨hsettled₁.extend hextends₂, hsettled₂⟩

theorem visits (fuel : Nat) : g.Visits fuel := by
  induction fuel with
  | zero =>
    -- A path has no room for one more node.
    intro path search done id hfuel hpath
    have hle := hpath.length_le
    rw [List.length_append, List.length_singleton] at hle
    omega
  | succ fuel ih =>
    intro path search done id hfuel hpath hnew h
    have hid : id ∉ path := fun hmem => hnew ((h.seen_iff id).mpr (.inl hmem))
    have hroom : g.nodes.length ≤ fuel + (path ++ [id]).length := by
      rw [List.length_append, List.length_singleton]
      omega
    rw [closeCycles_succ]
    obtain ⟨done', hexplored, hextends, hsettled⟩ :=
      explored_foldl ih hroom hpath (h.enter hnew) fun _ => follows_of_mem_successors
    refine ⟨done', hexplored.leave hid fun next hjoins => ?_,
      ⟨hextends.done.trans (List.suffix_cons id done'), hextends.cycles⟩⟩
    exact (hsettled next (mem_successors_iff.mpr hjoins)).imp_right fun hclosed =>
      hclosed.2 id (by simp)

theorem exists_explored (g : Graph) :
    ∃ done, g.Explored [] g.searched done ∧ ∀ id ∈ g.ids, id ∈ done := by
  obtain ⟨done, hexplored, -, hsettled⟩ := explored_foldl (visits g.nodes.length)
    (Nat.le_add_right _ _) isPath_nil explored_nil fun _ => follows_nil
  exact ⟨done, hexplored, fun id hid =>
    (hsettled id hid).resolve_right fun hclosed => List.not_mem_nil hclosed.1⟩

/-! ## Results -/

theorem exists_isCycle {cycle : List String} (h : cycle ∈ g.cycles) :
    ∃ id way, cycle = id :: way ++ [id] ∧ g.IsCycle id way := by
  obtain ⟨done, hexplored, -⟩ := exists_explored g
  exact hexplored.sound cycle (cycles_eq ▸ h)

/-- The nodes have an order in which an edge leads to a node behind its source, unless it closes a
reported cycle. -/
theorem exists_settled_order (g : Graph) :
    ∃ order : List String, order.Nodup ∧ g.ids ⊆ order ∧
      ∀ before id after, order = before ++ id :: after → ∀ next, g.Joins id next →
        next ∈ after ∨ Closes g.cycles id next := by
  obtain ⟨done, hexplored, hall⟩ := exists_explored g
  exact ⟨done, hexplored.nodup, hall, cycles_eq ▸ hexplored.settled⟩

theorem idxOf_lt_idxOf {order before after : List String} {id next : String}
    (hnodup : order.Nodup) (hsplit : order = before ++ id :: after) (hnext : next ∈ after) :
    order.idxOf id < order.idxOf next := by
  rw [hsplit, List.append_cons] at hnodup
  obtain ⟨hfirst, -, hapart⟩ := List.nodup_append.mp hnodup
  have hnotMem : next ∉ before ++ [id] := fun hmem => hapart _ hmem _ hnext rfl
  have hbefore : id ∉ before := fun hmem =>
    (List.nodup_append.mp hfirst).2.2 _ hmem id (List.mem_singleton_self id) rfl
  rw [hsplit, List.idxOf_append, if_neg hbefore, List.idxOf_cons_self, List.append_cons,
    List.idxOf_append, if_neg hnotMem, List.length_append, List.length_singleton]
  omega

theorem exists_rank (g : Graph) : ∃ rank : String → Nat, ∀ id next, g.Joins id next →
    rank id < rank next ∨ Closes g.cycles id next := by
  obtain ⟨order, hnodup, hall, hsettled⟩ := exists_settled_order g
  refine ⟨order.idxOf, fun id next hjoins => ?_⟩
  obtain ⟨before, after, hsplit⟩ := List.append_of_mem (hall hjoins.mem_ids_source)
  exact (hsettled before id after hsplit next hjoins).imp_left (idxOf_lt_idxOf hnodup hsplit)

theorem not_transGen_of_rank {steps : String → String → Prop} (rank : String → Nat)
    (h : ∀ id next, steps id next → rank id < rank next) (id : String) :
    ¬Relation.TransGen steps id id := by
  have hlt : ∀ id next, Relation.TransGen steps id next → rank id < rank next := by
    intro id next hway
    induction hway with
    | single hstep => exact h _ _ hstep
    | tail _ hstep ih => exact ih.trans (h _ _ hstep)
  exact fun hround => (hlt id id hround).false

/-- Nothing is reported exactly when no way along edges leads from a node back to itself. -/
theorem cycles_eq_nil_iff : g.cycles = [] ↔ ∀ id, ¬Relation.TransGen g.Joins id id := by
  constructor
  · intro h
    obtain ⟨rank, hrank⟩ := exists_rank g
    refine not_transGen_of_rank rank fun id next hjoins => (hrank id next hjoins).resolve_right ?_
    rintro ⟨cycle, hcycle, -⟩
    rw [h] at hcycle
    exact List.not_mem_nil hcycle
  · intro h
    rw [List.eq_nil_iff_forall_not_mem]
    intro cycle hcycle
    obtain ⟨id, way, -, hclosed⟩ := exists_isCycle hcycle
    exact h id hclosed.transGen

theorem cycles_eq_nil_iff_isCycle : g.cycles = [] ↔ ∀ id way, ¬g.IsCycle id way := by
  refine ⟨fun h id way hcycle => cycles_eq_nil_iff.mp h id hcycle.transGen, fun h => ?_⟩
  rw [List.eq_nil_iff_forall_not_mem]
  intro cycle hcycle
  obtain ⟨id, way, -, hclosed⟩ := exists_isCycle hcycle
  exact h id way hclosed

end Graph

end ContractAnalysis
