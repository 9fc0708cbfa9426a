import ContractAnalysis.Proofs.Graph.Calls
import ContractAnalysis.Proofs.Graph.Cycle

/-!
# Cycles of a graph that grows

A node without edges changes nothing about the reported cycles (`cycles_of_isolated`): the search
has one more node as fuel, and at its end it enters the new node, out of which nothing leads. More
fuel makes no difference where there is enough of it for the nodes that are not seen yet
(`closeCycles_more`). One more edge may change which cycles are reported, but where there was one
there still is one (`cycles_ne_nil_of_edge`); and where there was none, each one takes the new edge
(`infix_of_mem_cycles`).

* `Graph.unseen`: the nodes that a search has not seen yet
-/

namespace ContractAnalysis

namespace Graph

variable {g g' : Graph}

/-! ## Fuel -/

/-- The nodes that a search has not seen yet. -/
def unseen (g : Graph) (search : CycleSearch) : List String :=
  g.ids.filter fun id => id ∉ search.seen

theorem mem_unseen_iff {search : CycleSearch} {id : String} :
    id ∈ g.unseen search ↔ id ∈ g.ids ∧ id ∉ search.seen := by
  simp [unseen]

theorem nodup_unseen (g : Graph) (search : CycleSearch) : (g.unseen search).Nodup :=
  g.sound.distinct.filter _

theorem length_unseen_le {search search' : CycleSearch} (h : search.seen ⊆ search'.seen) :
    (g.unseen search').length ≤ (g.unseen search).length := by
  refine ((g.nodup_unseen search').subperm fun id hid => ?_).length_le
  obtain ⟨hnode, hnew⟩ := mem_unseen_iff.mp hid
  exact mem_unseen_iff.mpr ⟨hnode, fun hmem => hnew (h hmem)⟩

theorem length_unseen_enter {search : CycleSearch} {id : String} (hid : id ∈ g.unseen search) :
    (g.unseen { search with seen := id :: search.seen }).length < (g.unseen search).length := by
  have hnew : id ∉ g.unseen { search with seen := id :: search.seen } := fun hmem =>
    (mem_unseen_iff.mp hmem).2 List.mem_cons_self
  have hnodup := List.nodup_cons.mpr ⟨hnew, g.nodup_unseen _⟩
  refine (hnodup.subperm fun other hother => ?_).length_le
  rcases List.mem_cons.mp hother with rfl | hother
  · exact hid
  · obtain ⟨hnode, hunseen⟩ := mem_unseen_iff.mp hother
    exact mem_unseen_iff.mpr ⟨hnode, fun hmem => hunseen (List.mem_cons_of_mem id hmem)⟩

theorem seen_subset_foldl {visit : CycleSearch → String → CycleSearch}
    (h : ∀ search next, search.seen ⊆ (visit search next).seen) (nexts : List String)
    (search : CycleSearch) : search.seen ⊆ (nexts.foldl visit search).seen := by
  induction nexts generalizing search with
  | nil => exact List.Subset.refl _
  | cons next nexts ih => exact List.Subset.trans (h search next) (ih _)

theorem seen_subset_follow (fuel : Nat) (path : List String) (search : CycleSearch)
    (next : String) : search.seen ⊆ (g.follow fuel path search next).seen := by
  induction fuel generalizing path search next with
  | zero =>
    unfold follow
    split_ifs <;> exact List.Subset.refl _
  | succ fuel ih =>
    unfold follow
    split_ifs
    · exact List.Subset.refl _
    · exact List.Subset.refl _
    · rw [closeCycles_succ]
      have hrest := seen_subset_foldl (ih (path ++ [next])) (g.successors next)
        { search with seen := next :: search.seen }
      exact List.Subset.trans (List.subset_cons_self next search.seen) hrest

theorem follow_congr {more fuel : Nat} {path : List String} {search : CycleSearch} {next : String}
    (h : next ∉ search.seen →
      g'.closeCycles more path search next = g.closeCycles fuel path search next) :
    g'.follow more path search next = g.follow fuel path search next := by
  unfold follow
  split_ifs with hseen
  · rfl
  · rfl
  · exact h hseen

theorem foldl_follow_congr {more fuel : Nat} {path : List String}
    (hstep : ∀ search next, next ∈ g.ids → (g.unseen search).length ≤ fuel →
      g.follow more path search next = g.follow fuel path search next) {nexts : List String}
    (hnexts : nexts ⊆ g.ids) {search : CycleSearch} (hfuel : (g.unseen search).length ≤ fuel) :
    nexts.foldl (g.follow more path) search = nexts.foldl (g.follow fuel path) search := by
  induction nexts generalizing search with
  | nil => rfl
  | cons next nexts ih =>
    obtain ⟨hnext, hrest⟩ := List.cons_subset.mp hnexts
    rw [List.foldl_cons, List.foldl_cons, hstep search next hnext hfuel]
    exact ih hrest ((length_unseen_le (seen_subset_follow fuel path search next)).trans hfuel)

/-- More fuel makes no difference where there is enough for all unseen nodes. -/
theorem closeCycles_more {fuel : Nat} (path : List String) {search : CycleSearch} {id : String}
    (hid : id ∈ g.unseen search) (hfuel : (g.unseen search).length ≤ fuel) :
    g.closeCycles (fuel + 1) path search id = g.closeCycles fuel path search id := by
  induction fuel generalizing path search id with
  | zero =>
    have hpos := List.length_pos_of_mem hid
    omega
  | succ fuel ih =>
    have hless := length_unseen_enter hid
    rw [closeCycles_succ, closeCycles_succ]
    refine foldl_follow_congr (fun search next hnext hfuel => ?_)
      (fun _ hmem => (mem_successors_iff.mp hmem).mem_ids) (by omega)
    exact follow_congr fun hnew => ih _ (mem_unseen_iff.mpr ⟨hnext, hnew⟩) hfuel

theorem follow_more {fuel : Nat} (path : List String) {search : CycleSearch} {next : String}
    (hnext : next ∈ g.ids) (hfuel : (g.unseen search).length ≤ fuel) :
    g.follow (fuel + 1) path search next = g.follow fuel path search next :=
  follow_congr fun hnew => closeCycles_more path (mem_unseen_iff.mpr ⟨hnext, hnew⟩) hfuel

/-! ## One more node -/

theorem follow_eq_of_successors (hsuccessors : ∀ id, g'.successors id = g.successors id)
    (fuel : Nat) : g'.follow fuel = g.follow fuel := by
  induction fuel with
  | zero => rfl
  | succ fuel ih =>
    funext path search next
    refine follow_congr fun _ => ?_
    rw [closeCycles_succ, closeCycles_succ, hsuccessors, ih]

/-- A node without edges that is added at the end is entered at the end, and nothing is found. -/
theorem cycles_of_isolated {id : String} (hids : g'.ids = g.ids ++ [id])
    (hsuccessors : ∀ id, g'.successors id = g.successors id) (hnone : g.successors id = []) :
    g'.cycles = g.cycles := by
  have hlength : g'.nodes.length = g.nodes.length + 1 := by
    simpa [Store.ids] using congrArg List.length hids
  have hfuel : ∀ search, (g.unseen search).length ≤ g.nodes.length := by
    intro search
    refine (List.length_filter_le _ _).trans (le_of_eq ?_)
    rw [Store.ids, List.length_map]
  have hbefore : g.ids.foldl (g.follow (g.nodes.length + 1) []) ⟨[], []⟩ = g.searched :=
    foldl_follow_congr (fun search _ hnext hunseen => follow_more [] hnext hunseen)
      (List.Subset.refl _) (hfuel _)
  have hlast : (g.follow (g.nodes.length + 1) [] g.searched id).cycles = g.searched.cycles := by
    unfold follow
    split_ifs with hseen hmem
    · exact absurd hmem List.not_mem_nil
    · rfl
    · rw [closeCycles_succ, hnone]
      rfl
  rw [cycles_eq, cycles_eq, searched, hlength, follow_eq_of_successors hsuccessors, hids,
    List.foldl_concat, hbefore, hlast]

/-! ## One more edge -/

variable {edge : Edge}

theorem joins_iff_of_edge (hedges : g'.edges = g.edges ++ [edge]) {id next : String} :
    g'.Joins id next ↔ g.Joins id next ∨ id = edge.source ∧ next = edge.target := by
  simp [Joins, hedges, or_and_right, exists_or, eq_comm]

theorem cycles_ne_nil_of_edge (hedges : g'.edges = g.edges ++ [edge]) (h : g.cycles ≠ []) :
    g'.cycles ≠ [] := by
  intro hnil
  refine h (cycles_eq_nil_iff.mpr fun id hround => cycles_eq_nil_iff.mp hnil id ?_)
  have hmono : g.Joins ≤ g'.Joins := fun _ _ hjoins =>
    (joins_iff_of_edge hedges).mpr (.inl hjoins)
  exact Relation.TransGen.mono hmono id id hround

theorem isChain_avoiding {steps : String → String → Prop} {id next : String}
    {way : List String} (h : way.IsChain steps) (hnot : ¬[id, next] <:+: way) :
    way.IsChain fun first second => steps first second ∧ ¬(first = id ∧ second = next) := by
  induction h with
  | nil => exact .nil
  | singleton first => exact .singleton first
  | @cons_cons first second rest hstep _ ih =>
    refine .cons_cons ⟨hstep, ?_⟩ (ih fun hinfix => hnot (List.infix_cons hinfix))
    rintro ⟨rfl, rfl⟩
    exact hnot ⟨[], rest, rfl⟩

/-- Where there was no cycle, each cycle takes the new edge. -/
theorem infix_of_mem_cycles (hedges : g'.edges = g.edges ++ [edge]) (hnone : g.cycles = [])
    {cycle : List String} (hcycle : cycle ∈ g'.cycles) : [edge.source, edge.target] <:+: cycle := by
  obtain ⟨id, way, rfl, hclosed⟩ := exists_isCycle hcycle
  by_contra hnot
  have hold : (id :: way ++ [id]).IsChain g.Joins :=
    (isChain_avoiding hclosed.along hnot).imp fun first second hstep =>
      ((joins_iff_of_edge hedges).mp hstep.1).resolve_right hstep.2
  exact cycles_eq_nil_iff.mp hnone id (transGen_of_isChain hold)

end Graph

end ContractAnalysis
