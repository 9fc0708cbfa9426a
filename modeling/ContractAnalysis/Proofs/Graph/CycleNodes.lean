import ContractAnalysis.Proofs.Detection.Kinds
import ContractAnalysis.Proofs.Graph.Entering

/-!
# Which nodes the reported cycles meet

A node is in a reported cycle exactly when it lies on a cycle of which the search had left no node
when it entered this one (`cycle_nodes_reported`). A node whose ways back all go through nodes left
before is in none of them, although it lies on a cycle (`node_of_cycle_unreported`).

While a node is on its path, the search enters all that can be reached from it around the nodes that
were left. So when a way leads on from a node and first meets the path again at this node or before
it, its last edge closes a cycle through the node.
-/

namespace ContractAnalysis

namespace Graph

variable {g : Graph} {fuel : Nat} {path : List String} {search search' : CycleSearch} {id : String}

/-! ## From entering a node to the end of the search -/

namespace Enters

theorem cycles_after (h : g.Enters fuel path search id) :
    (g.closeCycles fuel path search id).cycles ⊆ g.cycles ∧
    ∀ cycle ∈ g.cycles, cycle ∈ (g.closeCycles fuel path search id).cycles ∨
      ∀ other ∈ cycle, other ∈ path ∨ other ∉ (g.closeCycles fuel path search id).seen := by
  induction h with
  | @start before after id hids hnew =>
    have hadds := adds_after_start hids hnew
    rw [cycles_eq]
    refine ⟨hadds.kept, fun cycle hcycle => (hadds.found cycle hcycle).imp_right fun hfound => ?_⟩
    exact fun other hother => (hfound.nodes other hother).imp_right And.right
  | @step fuel path before after search id next h hnexts hnew ih =>
    obtain ⟨hkept, hlater⟩ := ih
    have hadds := h.adds_after_step hnexts hnew
    refine ⟨List.Subset.trans hadds.kept hkept, fun cycle hcycle => ?_⟩
    rcases hlater cycle hcycle with hcycle | hout
    · refine (hadds.found cycle hcycle).imp_right fun hfound => ?_
      exact fun other hother => (hfound.nodes other hother).imp_right And.right
    · refine .inr fun other hother => ?_
      exact (hout other hother).imp (List.mem_append_left _) fun hnot hin =>
        hnot (hadds.seen.subset hin)

/-- No node of a reported cycle was left when the search entered one of them. -/
theorem not_hasLeft (h : g.Enters fuel path search id) {cycle : List String}
    (hcycle : cycle ∈ g.cycles) (hid : id ∈ cycle) {other : String} (hother : other ∈ cycle) :
    ¬search.HasLeft path other := by
  obtain ⟨-, hpath, hnew, -⟩ := h.exists_explored
  have hnotMem : id ∉ path := fun hmem =>
    (List.nodup_append.mp hpath.nodup).2.2 id hmem id (List.mem_singleton_self id) rfl
  have hwithin : cycle ∈ (g.closeCycles fuel path search id).cycles := by
    refine (h.cycles_after.2 cycle hcycle).resolve_right fun hout => ?_
    exact (hout id hid).elim hnotMem fun hunseen => hunseen h.mem_seen
  have hfound := (h.adds.found cycle hwithin).resolve_left fun hbefore =>
    hnew (h.inside cycle hbefore hid)
  rintro ⟨hseen, hout⟩
  rcases hfound.nodes other hother with hmem | ⟨-, hunseen⟩
  · rcases List.mem_append.mp hmem with hmem | hmem
    · exact hout hmem
    · exact hnew (List.mem_singleton.mp hmem ▸ hseen)
  · exact hunseen (List.mem_cons_of_mem id hseen)

/-- A way on from nodes that are entered after a node, back to this node and around the nodes that
were left, leads to an edge that closes a cycle through the node. -/
theorem exists_cycle_of_isChain (h : g.Enters fuel path search id) {done : List String}
    (hafter : g.Explored path (g.closeCycles fuel path search id) (id :: done)) {first : String}
    {way : List String} (halong : (first :: way).IsChain g.Joins) (hfirst : first ∈ id :: done)
    (hunseen : first ∉ search.seen) (hleft : ∀ other ∈ way, ¬search.HasLeft path other)
    (hback : id ∈ way) : ∃ cycle ∈ (g.closeCycles fuel path search id).cycles, id ∈ cycle := by
  induction way generalizing first with
  | nil => exact absurd hback List.not_mem_nil
  | cons next way ih =>
    obtain ⟨hjoins, halong⟩ := List.isChain_cons_cons.mp halong
    obtain ⟨hnext, hrest⟩ := List.forall_mem_cons.mp hleft
    -- Unless the edge closes a cycle through the node, it leads to a node entered after it.
    have hgo : next ∈ id :: done → next ∉ search.seen → next ≠ id →
        ∃ cycle ∈ (g.closeCycles fuel path search id).cycles, id ∈ cycle := by
      intro hmem hnew hne
      exact ih halong hmem hnew hrest ((List.mem_cons.mp hback).resolve_left hne.symm)
    obtain ⟨before, after, hsplit⟩ := List.append_of_mem hfirst
    rcases hafter.settled before first after hsplit next hjoins with hlater | ⟨cycle, hcycle, hends⟩
    · have hdone : next ∈ done := by
        cases before with
        | nil => exact (List.cons.inj hsplit).2 ▸ hlater
        | cons _ before => exact (List.cons.inj hsplit).2 ▸ by simp [hlater]
      have hmem : next ∈ id :: done := List.mem_cons_of_mem id hdone
      refine hgo hmem (fun hseen => ?_) ?_
      · exact hnext ⟨hseen, fun hpath => hafter.apart next hpath hmem⟩
      · rintro rfl
        exact (List.nodup_cons.mp hafter.nodup).1 hdone
    · have hin : first ∈ cycle := hends.subset (by simp)
      have hnextIn : next ∈ cycle := hends.subset (by simp)
      have hfound := (h.adds.found cycle hcycle).resolve_left fun hbefore =>
        hunseen (h.inside cycle hbefore hin)
      by_cases hpath : next ∈ path ++ [id]
      · exact ⟨cycle, hcycle, hfound.last_mem hnextIn hpath⟩
      · obtain ⟨hseen, hnew⟩ := (hfound.nodes next hnextIn).resolve_left hpath
        rw [List.mem_append, List.mem_singleton, not_or] at hpath
        exact hgo (((hafter.seen_iff next).mp hseen).resolve_left hpath.1)
          (fun hmem => hnew (List.mem_cons_of_mem id hmem)) hpath.2

theorem exists_cycle (h : g.Enters fuel path search id) {way : List String}
    (hcycle : g.IsCycle id way) (hleft : ∀ other ∈ way, ¬search.HasLeft path other) :
    ∃ cycle ∈ g.cycles, id ∈ cycle := by
  obtain ⟨hfuel, hpath, hnew, done, hexplored⟩ := h.exists_explored
  obtain ⟨done', hafter, -⟩ := visits fuel path search done id hfuel hpath hnew hexplored
  have hround : ∀ other ∈ way ++ [id], ¬search.HasLeft path other := by
    refine List.forall_mem_append.mpr ⟨hleft, List.forall_mem_singleton.mpr ?_⟩
    exact fun hin => hnew hin.1
  obtain ⟨cycle, hmem, hid⟩ := h.exists_cycle_of_isChain hafter hcycle.along List.mem_cons_self
    hnew hround (by simp)
  exact ⟨cycle, h.cycles_after.1 hmem, hid⟩

end Enters

/-! ## Results -/

theorem IsCycle.rotate {way : List String} (h : g.IsCycle id way) {other : String}
    (hother : other ∈ id :: way) : ∃ way', g.IsCycle other way' ∧ way' ⊆ id :: way := by
  obtain ⟨before, after, hsplit⟩ := List.append_of_mem hother
  cases before with
  | nil =>
    obtain ⟨rfl, rfl⟩ := List.cons.inj hsplit
    exact ⟨way, h, List.subset_cons_self _ _⟩
  | cons first before =>
    obtain ⟨rfl, rfl⟩ := List.cons.inj hsplit
    have halong : ((id :: before) ++ (other :: after ++ [id])).IsChain g.Joins := by
      simpa using h.along
    have hstart : ([id] ++ (before ++ [other])).IsChain g.Joins := by
      refine halong.prefix ?_
      exact ⟨after ++ [id], by simp⟩
    have hswap : ((other :: after) ++ (id :: before)).Perm (id :: (before ++ other :: after)) := by
      rw [← List.cons_append]
      exact List.perm_append_comm
    refine ⟨after ++ id :: before, ⟨?_, ?_⟩, ?_⟩
    · have hround := halong.right_of_append.append_overlap hstart (List.cons_ne_nil id [])
      simpa using hround
    · exact hswap.nodup_iff.mpr h.nodup
    · intro third hthird
      exact hswap.subset (List.mem_cons_of_mem other hthird)

/-- A finding of a circular dependency involves a node. -/
def ReportsRound (findings : List Finding) (id : String) : Prop :=
  ∃ finding ∈ findings, finding.defect = .known .circularDependency ∧ id ∈ finding.involved

theorem reportsRound_iff : ReportsRound (findingsOf g) id ↔ ∃ cycle ∈ g.cycles, id ∈ cycle := by
  have hcheck : (KnownDefect.circularDependency, circularDependencies g) ∈ checks g := by
    simp [checks]
  constructor
  · rintro ⟨finding, hfinding, hdefect, hid⟩
    obtain ⟨cycle, hcycle, rfl⟩ := List.mem_map.mp ((mem_findingsOf_iff hcheck hdefect).mp hfinding)
    exact ⟨cycle, hcycle, hid⟩
  · rintro ⟨cycle, hcycle, hid⟩
    refine ⟨circularDependency g cycle, ?_, rfl, hid⟩
    exact (mem_findingsOf_iff hcheck rfl).mpr (List.mem_map_of_mem hcycle)

theorem IsCycle.exists_reported {way : List String} (h : g.IsCycle id way) :
    ∃ other ∈ id :: way, ∃ cycle ∈ g.cycles, other ∈ cycle := by
  by_contra hnone
  obtain ⟨rank, hrank⟩ := exists_rank g
  have halong : (id :: way ++ [id]).IsChain fun first next => rank first < rank next := by
    refine h.along.imp_of_mem_imp fun first next hfirst _ hjoins => ?_
    refine (hrank first next hjoins).resolve_right ?_
    rintro ⟨cycle, hcycle, hends⟩
    exact hnone ⟨first, round_subset id way hfirst, cycle, hcycle, hends.subset (by simp)⟩
  exact not_transGen_of_rank rank (fun _ _ hlt => hlt) id (transGen_of_isChain halong)

/-- The search enters every node once. A node is in a reported cycle, and so in a finding of a
circular dependency, exactly when it lies on a cycle of which the search had left no other node when
it entered this one. And every cycle has a node that is reported. -/
theorem cycle_nodes_reported (g : Graph) :
    (∀ id ∈ g.ids, ∃ fuel path search, g.Enters fuel path search id ∧
      ∀ fuel' path' search', g.Enters fuel' path' search' id →
        fuel' = fuel ∧ path' = path ∧ search' = search) ∧
    (∀ fuel path search id, g.Enters fuel path search id →
      ((∃ cycle ∈ g.cycles, id ∈ cycle) ↔
        ∃ way, g.IsCycle id way ∧ ∀ other ∈ way, ¬search.HasLeft path other)) ∧
    (∀ id way, g.IsCycle id way → ∃ other ∈ id :: way, ∃ cycle ∈ g.cycles, other ∈ cycle) ∧
    ∀ id, ReportsRound (findingsOf g) id ↔ ∃ cycle ∈ g.cycles, id ∈ cycle := by
  refine ⟨fun id hid => ?_, fun fuel path search id h => ⟨?_, ?_⟩,
    fun id way => IsCycle.exists_reported, fun id => reportsRound_iff⟩
  · obtain ⟨fuel, path, search, h⟩ := exists_enters hid
    exact ⟨fuel, path, search, h, fun _ _ _ => h.unique⟩
  · rintro ⟨cycle, hmem, hid⟩
    obtain ⟨start, way, rfl, hcycle⟩ := exists_isCycle hmem
    obtain ⟨way', hcycle', hsubset⟩ := hcycle.rotate (round_subset start way hid)
    refine ⟨way', hcycle', fun other hother => ?_⟩
    exact h.not_hasLeft hmem hid (List.mem_append_left _ (hsubset hother))
  · rintro ⟨way, hcycle, hleft⟩
    exact h.exists_cycle hcycle hleft

/-- Two clauses that depend on each other, and a third one that leads from the first to the
second. -/
def detour : Projection where
  nodes := ["a", "b", "c"].map fun id => .clause (.leveled id "" "" 1 none)
  edges := [⟨"a", "b", .references⟩, ⟨"b", "a", .references⟩, ⟨"a", "c", .references⟩,
    ⟨"c", "b", .references⟩]

theorem cycle_nodes_reported_detour :
    ∃ g, detour.graph? = .ok g ∧ g.Enters g.nodes.length [] ⟨[], []⟩ "a" ∧ g.IsCycle "a" ["b"] ∧
      ReportsRound (findingsOf g) "a" := by
  obtain ⟨g, hg, hids, hedges⟩ : ∃ g, detour.graph? = .ok g ∧ g.ids = ["a", "b", "c"] ∧
      g.edges = detour.edges := exists_ok_of_any (by decide +kernel)
  obtain ⟨-, hreported, -, hfindings⟩ := cycle_nodes_reported g
  have henters : g.Enters g.nodes.length [] ⟨[], []⟩ "a" :=
    .start (show g.ids = [] ++ "a" :: ["b", "c"] from hids) List.not_mem_nil
  have hcycle : g.IsCycle "a" ["b"] := by
    refine ⟨?_, by decide⟩
    simp [Joins, hedges, detour]
  refine ⟨g, hg, henters, hcycle, (hfindings "a").mpr ((hreported _ _ _ _ henters).mpr ?_)⟩
  exact ⟨["b"], hcycle, fun other _ hleft => List.not_mem_nil hleft.1⟩

/-- The third clause lies on a cycle, but its way back goes through the second, which is left when
the third is entered. -/
theorem node_of_cycle_unreported :
    ∃ g, detour.graph? = .ok g ∧ g.IsCycle "c" ["b", "a"] ∧ (∀ cycle ∈ g.cycles, "c" ∉ cycle) ∧
      ∀ finding ∈ findingsOf g, "c" ∉ finding.involved := by
  obtain ⟨g, hg, hedges, hcycles, hfindings⟩ : ∃ g, detour.graph? = .ok g ∧
      g.edges = detour.edges ∧ (∀ cycle ∈ g.cycles, "c" ∉ cycle) ∧
      ∀ finding ∈ findingsOf g, "c" ∉ finding.involved := exists_ok_of_any (by decide +kernel)
  refine ⟨g, hg, ⟨?_, by decide⟩, hcycles, hfindings⟩
  simp [Joins, hedges, detour]

end Graph

end ContractAnalysis
