import ContractAnalysis.Graph.Order
import ContractAnalysis.Proofs.Graph.Calls
import ContractAnalysis.Proofs.Graph.Cycle

/-!
# What the order of the nodes respects

The order holds every node once, and an edge points forward in it unless a way leads from its target
back to its source. So the order respects all edges exactly when the search for cycles, which walks
the edges in another order, reports nothing (`order_respects`).

A node is open while the search has seen it and has not finished it. When a node is finished, each
edge out of it leads to a node finished before or to an open one, and from every open node a way
leads to the node that is being finished (`finishes`).

* `PostorderSearch.IsOpen`: the nodes that are seen and not finished
* `Graph.Ordered`: the invariant of the search
* `Graph.Advances`: what more of the search leaves as it was
-/

namespace ContractAnalysis

namespace PostorderSearch

/-- Seen, and not finished yet. -/
def IsOpen (search : PostorderSearch) (id : String) : Prop :=
  id ∈ search.seen ∧ id ∉ search.finished

def enter (search : PostorderSearch) (id : String) : PostorderSearch :=
  { search with seen := id :: search.seen }

def leave (search : PostorderSearch) (id : String) : PostorderSearch :=
  { search with finished := id :: search.finished }

theorem isOpen_enter {search : PostorderSearch} {id : String} (hid : id ∉ search.finished)
    (other : String) : (search.enter id).IsOpen other ↔ other = id ∨ search.IsOpen other := by
  simp only [IsOpen, enter, List.mem_cons]
  constructor
  · rintro ⟨rfl | hseen, hopen⟩
    · exact .inl rfl
    · exact .inr ⟨hseen, hopen⟩
  · rintro (rfl | ⟨hseen, hopen⟩)
    · exact ⟨.inl rfl, hid⟩
    · exact ⟨.inr hseen, hopen⟩

theorem isOpen_leave (search : PostorderSearch) (id other : String) :
    (search.leave id).IsOpen other ↔ other ≠ id ∧ search.IsOpen other := by
  simp only [IsOpen, leave, List.mem_cons, not_or]
  tauto

end PostorderSearch

namespace Graph

variable {g : Graph}

open Relation (ReflTransGen TransGen)
open PostorderSearch (IsOpen)

theorem mem_newestSuccessors_iff {id next : String} :
    next ∈ g.newestSuccessors id ↔ g.Joins id next := by
  rw [g.sound.newestSuccessors_eq, List.mem_reverse, mem_successors_iff]

/-! ## The search -/

theorem finish_of_mem {search : PostorderSearch} {id : String} (h : id ∈ search.seen) (fuel : Nat) :
    g.finish fuel search id = search := by
  cases fuel with
  | zero => rw [finish]
  | succ fuel => rw [finish, if_pos h]

theorem finish_of_notMem {search : PostorderSearch} {id : String} (h : id ∉ search.seen)
    (fuel : Nat) :
    g.finish (fuel + 1) search id =
      ((g.newestSuccessors id).foldl (g.finish fuel) (search.enter id)).leave id := by
  rw [finish, if_neg h]
  rfl

/-- What is known of a search: an edge from a finished node leads to one finished before, unless a
way leads from its target back to its source. -/
structure Ordered (g : Graph) (search : PostorderSearch) : Prop where
  nodes : search.seen ⊆ g.ids
  nodup_seen : search.seen.Nodup
  finished : search.finished ⊆ search.seen
  nodup : search.finished.Nodup
  settled : ∀ before id after, search.finished = before ++ id :: after → ∀ next, g.Joins id next →
    next ∈ after ∨ ReflTransGen g.Joins next id

/-- What more of the search leaves as it was: the nodes that are open, and how many they are. -/
structure Advances (search search' : PostorderSearch) : Prop where
  isOpen_iff : ∀ id, search'.IsOpen id ↔ search.IsOpen id
  seen : search.seen ⊆ search'.seen
  length : search'.seen.length + search.finished.length =
    search.seen.length + search'.finished.length

theorem Advances.refl (search : PostorderSearch) : Advances search search :=
  ⟨fun _ => Iff.rfl, List.Subset.refl _, rfl⟩

theorem Advances.trans {s₁ s₂ s₃ : PostorderSearch} (h : Advances s₁ s₂) (h' : Advances s₂ s₃) :
    Advances s₁ s₃ where
  isOpen_iff id := (h'.isOpen_iff id).trans (h.isOpen_iff id)
  seen := List.Subset.trans h.seen h'.seen
  length := by
    have hfirst := h.length
    have hrest := h'.length
    omega

theorem Advances.around {search after : PostorderSearch} {id : String}
    (h : Advances (search.enter id) after) (hnew : id ∉ search.seen)
    (hunfinished : id ∉ search.finished) : Advances search (after.leave id) where
  isOpen_iff other := by
    rw [PostorderSearch.isOpen_leave, h.isOpen_iff, PostorderSearch.isOpen_enter hunfinished]
    refine ⟨fun hother => hother.2.resolve_left hother.1, fun hother => ⟨?_, .inr hother⟩⟩
    rintro rfl
    exact hnew hother.1
  seen _ hother := h.seen (List.mem_cons_of_mem id hother)
  length := by
    have hlength := h.length
    simp only [PostorderSearch.enter, PostorderSearch.leave, List.length_cons] at hlength ⊢
    omega

namespace Ordered

variable {search : PostorderSearch}

theorem length_lt (h : g.Ordered search) {id : String} (hid : id ∈ g.ids)
    (hnew : id ∉ search.seen) : search.seen.length < g.nodes.length := by
  have hnodup : (id :: search.seen).Nodup := List.nodup_cons.mpr ⟨hnew, h.nodup_seen⟩
  exact length_le_length_nodes hnodup (List.cons_subset.mpr ⟨hid, h.nodes⟩)

theorem enter (h : g.Ordered search) {id : String} (hid : id ∈ g.ids) (hnew : id ∉ search.seen) :
    g.Ordered (search.enter id) where
  nodes := List.cons_subset.mpr ⟨hid, h.nodes⟩
  nodup_seen := List.nodup_cons.mpr ⟨hnew, h.nodup_seen⟩
  finished := fun _ hmem => List.mem_cons_of_mem id (h.finished hmem)
  nodup := h.nodup
  settled := h.settled

/-- An open node is finished when its edges lead to nodes that are seen, those that are open having
ways to it. -/
theorem leave (h : g.Ordered search) {id : String} (hopen : search.IsOpen id)
    (hseen : ∀ next, g.Joins id next → next ∈ search.seen)
    (hways : ∀ other, search.IsOpen other → ReflTransGen g.Joins other id) :
    g.Ordered (search.leave id) where
  nodes := h.nodes
  nodup_seen := h.nodup_seen
  finished := List.cons_subset.mpr ⟨hopen.1, h.finished⟩
  nodup := List.nodup_cons.mpr ⟨hopen.2, h.nodup⟩
  settled := by
    refine forall_split_cons (fun next hjoins => ?_) h.settled
    by_cases hfinished : next ∈ search.finished
    · exact .inl hfinished
    · exact .inr (hways next ⟨hseen next hjoins, hfinished⟩)

end Ordered

/-- A search that is asked for a node finishes it, where ways lead to it from all open nodes. -/
def Finishes (g : Graph) (fuel : Nat) : Prop :=
  ∀ search id, g.Ordered search → id ∈ g.ids →
    (∀ other, search.IsOpen other → ReflTransGen g.Joins other id) →
    g.nodes.length + search.finished.length ≤ fuel + search.seen.length →
    g.Ordered (g.finish fuel search id) ∧ Advances search (g.finish fuel search id) ∧
      id ∈ (g.finish fuel search id).seen

theorem finishes_foldl {fuel : Nat} (hfinishes : g.Finishes fuel) {search : PostorderSearch}
    (h : g.Ordered search) {nexts : List String} (hnexts : nexts ⊆ g.ids)
    (hways : ∀ other, search.IsOpen other → ∀ next ∈ nexts, ReflTransGen g.Joins other next)
    (hfuel : g.nodes.length + search.finished.length ≤ fuel + search.seen.length) :
    g.Ordered (nexts.foldl (g.finish fuel) search) ∧
      Advances search (nexts.foldl (g.finish fuel) search) ∧
      nexts ⊆ (nexts.foldl (g.finish fuel) search).seen := by
  induction nexts generalizing search with
  | nil => exact ⟨h, .refl search, List.nil_subset _⟩
  | cons next nexts ih =>
    obtain ⟨hnext, hrest⟩ := List.cons_subset.mp hnexts
    obtain ⟨h₁, hadvances₁, hseen₁⟩ := hfinishes search next h hnext
      (fun other hopen => hways other hopen next List.mem_cons_self) hfuel
    have hways₁ : ∀ other, (g.finish fuel search next).IsOpen other → ∀ third ∈ nexts,
        ReflTransGen g.Joins other third := fun other hopen third hthird =>
      hways other ((hadvances₁.isOpen_iff other).mp hopen) third (List.mem_cons_of_mem _ hthird)
    have hlength := hadvances₁.length
    obtain ⟨h₂, hadvances₂, hseen₂⟩ := ih h₁ hrest hways₁ (by omega)
    exact ⟨h₂, hadvances₁.trans hadvances₂, List.cons_subset.mpr ⟨hadvances₂.seen hseen₁, hseen₂⟩⟩

theorem finishes (fuel : Nat) : g.Finishes fuel := by
  induction fuel with
  | zero =>
    -- Without fuel, every node is open already.
    intro search id h hid _ hfuel
    have hseen : id ∈ search.seen := by
      by_contra hnew
      have hlt := h.length_lt hid hnew
      omega
    rw [finish_of_mem hseen]
    exact ⟨h, .refl search, hseen⟩
  | succ fuel ih =>
    intro search id h hid hways hfuel
    by_cases hseen : id ∈ search.seen
    · rw [finish_of_mem hseen]
      exact ⟨h, .refl search, hseen⟩
    have hunfinished : id ∉ search.finished := fun hmem => hseen (h.finished hmem)
    have hopen := PostorderSearch.isOpen_enter hunfinished
    have hnexts : g.newestSuccessors id ⊆ g.ids := fun next hnext =>
      (mem_newestSuccessors_iff.mp hnext).mem_ids
    have hentered : ∀ other, (search.enter id).IsOpen other → ReflTransGen g.Joins other id := by
      intro other hother
      rcases (hopen other).mp hother with rfl | hother
      · exact .refl
      · exact hways other hother
    have hroom : g.nodes.length + (search.enter id).finished.length ≤
        fuel + (search.enter id).seen.length := by
      simp only [PostorderSearch.enter, List.length_cons]
      omega
    obtain ⟨h', hadvances, hsuccessors⟩ := finishes_foldl ih (h.enter hid hseen) hnexts
      (fun other hother next hnext =>
        (hentered other hother).tail (mem_newestSuccessors_iff.mp hnext)) hroom
    have hid' := (hadvances.isOpen_iff id).mpr ((hopen id).mpr (.inl rfl))
    rw [finish_of_notMem hseen]
    refine ⟨h'.leave hid' ?_ ?_, hadvances.around hseen hunfinished, hid'.1⟩
    · exact fun next hjoins => hsuccessors (mem_newestSuccessors_iff.mpr hjoins)
    · exact fun other hother => hentered other ((hadvances.isOpen_iff other).mp hother)

/-! ## Results -/

theorem exists_ordered (g : Graph) :
    ∃ search, g.Ordered search ∧ search.finished = g.order ∧ g.ids ⊆ search.finished := by
  have hempty : g.Ordered ⟨[], []⟩ := by constructor <;> simp
  have hclosed : ∀ id, ¬IsOpen ⟨[], []⟩ id := fun id hopen => List.not_mem_nil hopen.1
  obtain ⟨h, hadvances, hseen⟩ := finishes_foldl (finishes g.nodes.length) hempty
    (List.Subset.refl g.ids) (fun other hopen => absurd hopen (hclosed other)) (by simp)
  refine ⟨_, h, rfl, fun id hid => ?_⟩
  by_contra hunfinished
  exact hclosed id ((hadvances.isOpen_iff id).mp ⟨hseen hid, hunfinished⟩)

theorem nodup_order (g : Graph) : g.order.Nodup := by
  obtain ⟨search, h, heq, -⟩ := exists_ordered g
  exact heq ▸ h.nodup

theorem order_perm (g : Graph) : g.order.Perm g.ids := by
  obtain ⟨search, h, heq, hall⟩ := exists_ordered g
  rw [← heq, List.perm_ext_iff_of_nodup h.nodup g.sound.distinct]
  exact fun id => ⟨fun hmem => h.nodes (h.finished hmem), fun hmem => hall hmem⟩

/-- An edge points forward unless a way leads from its target back to its source. -/
theorem idxOf_order_lt {id next : String} (hjoins : g.Joins id next)
    (hback : ¬ReflTransGen g.Joins next id) : g.order.idxOf id < g.order.idxOf next := by
  obtain ⟨search, h, heq, hall⟩ := exists_ordered g
  obtain ⟨before, after, hsplit⟩ := List.append_of_mem (hall hjoins.mem_ids_source)
  have hnext := (h.settled before id after hsplit next hjoins).resolve_right hback
  rw [← heq]
  exact idxOf_lt_idxOf h.nodup hsplit hnext

/-- The order holds every node once. The source of an edge stands before its target unless a way
leads from the target back to the source, also where the graph has cycles; and the sources of all
edges stand before their targets exactly when the search for cycles reports nothing. -/
theorem order_respects (g : Graph) :
    g.order.Nodup ∧ g.order.Perm g.ids ∧
    (∀ edge ∈ g.edges, ¬ReflTransGen g.Joins edge.target edge.source →
      g.order.idxOf edge.source < g.order.idxOf edge.target) ∧
    ((∀ edge ∈ g.edges, g.order.idxOf edge.source < g.order.idxOf edge.target) ↔
      g.cycles = []) := by
  refine ⟨nodup_order g, order_perm g, ?_, ?_, ?_⟩
  · exact fun edge hedge hback => idxOf_order_lt ⟨edge, hedge, rfl, rfl⟩ hback
  · intro h
    refine cycles_eq_nil_iff.mpr (not_transGen_of_rank g.order.idxOf ?_)
    rintro id next ⟨edge, hedge, rfl, rfl⟩
    exact h edge hedge
  · intro hnone edge hedge
    have hjoins : g.Joins edge.source edge.target := ⟨edge, hedge, rfl, rfl⟩
    exact idxOf_order_lt hjoins fun hback =>
      cycles_eq_nil_iff.mp hnone edge.source (.head' hjoins hback)

/-- Two nodes lead to each other, and one of them to a third. -/
theorem order_respects_round :
    let clause (id : String) : Node := .clause (.leveled id "" "" 1 none)
    let nodes := [clause "c", clause "a", clause "b"]
    let edges : List Edge := [⟨"a", "b", .references⟩, ⟨"b", "a", .references⟩,
      ⟨"b", "c", .references⟩]
    ∃ g, Projection.graph? ⟨nodes, edges⟩ = .ok g ∧ g.cycles ≠ [] ∧
      g.order.idxOf "b" < g.order.idxOf "c" := by
  intro clause nodes edges
  obtain ⟨g, hg, hcycles, hedge, hends⟩ : ∃ g, Projection.graph? ⟨nodes, edges⟩ = .ok g ∧
      g.cycles ≠ [] ∧ ⟨"b", "c", .references⟩ ∈ g.edges ∧ ∀ edge ∈ g.edges, edge.source ≠ "c" :=
    exists_ok_of_any (by decide +kernel)
  refine ⟨g, hg, hcycles, (order_respects g).2.2.1 _ hedge fun hback => ?_⟩
  rcases hback.cases_head with heq | ⟨next, ⟨edge, hmem, hsource, -⟩, -⟩
  · exact absurd heq (by decide)
  · exact hends edge hmem hsource

end Graph

end ContractAnalysis
