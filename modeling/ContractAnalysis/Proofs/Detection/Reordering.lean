import ContractAnalysis.Proofs.Detection.Groups
import ContractAnalysis.Proofs.Detection.Kinds
import ContractAnalysis.Proofs.Detection.Lines
import ContractAnalysis.Proofs.Graph.Cycle
import ContractAnalysis.Proofs.Graph.Exchange
import Mathlib.Data.Multiset.Defs

/-!
# Findings and the order of nodes and edges

Two graphs with the same nodes and edges, each in an order of its own, have the `SameFindings`
(`findings_reordered`): they agree on whether there is a circular dependency, although not on which
cycles are reported; and but for the order they agree on all other findings. Of a finding that names
several nodes, the order of the names may differ as well (`Finding.unordered`).

* `pairs_reordered`: the pairs of a list, where either order of a pair will do
* `Graph.Reorders`: the relation between the two graphs
-/

namespace ContractAnalysis

/-! ## Pairs -/

theorem pairs_map {α β : Type} (f : α → β) (xs : List α) :
    pairs (xs.map f) = (pairs xs).map (Prod.map f f) := by
  induction xs with
  | nil => rfl
  | cons x xs ih =>
    rw [List.map_cons, pairs, pairs, ih, List.map_append, List.map_map, List.map_map]
    rfl

/-- What is made of some pairs of a list, of either order of a pair alike, does not depend on the
order of the list. -/
theorem pairs_reordered {α β : Type} {p : α × α → Bool} (hp : ∀ x y, p (x, y) = p (y, x))
    {f : α × α → β} (hf : ∀ x y, f (x, y) = f (y, x)) {xs ys : List α} (h : xs.Perm ys) :
    (((pairs xs).filter p).map f).Perm (((pairs ys).filter p).map f) := by
  induction h with
  | nil => exact .nil
  | cons x hrest ih =>
    simp only [pairs, List.filter_append, List.map_append]
    exact (((hrest.map _).filter p).map f).append ih
  | swap x y rest =>
    -- The pair of the two changes its order, and the pairs with one of them change places.
    have hplaces := ((List.perm_append_comm_assoc (rest.map fun z => (y, z))
      (rest.map fun z => (x, z)) (pairs rest)).filter p).map f
    simp only [pairs, List.map_cons, List.cons_append, List.filter_cons, hp y x]
    split_ifs
    · rw [List.map_cons, List.map_cons, hf y x]
      exact hplaces.cons _
    · exact hplaces
  | trans _ _ ih ih' => exact ih.trans ih'

/-! ## Contradictions -/

theorem shareMostWords_comm {left right : List (List Char)} (hleft : left.Nodup)
    (hright : right.Nodup) : shareMostWords left right = shareMostWords right left := by
  have hcommon : (left.filter right.contains).length = (right.filter left.contains).length := by
    refine List.Perm.length_eq ((List.perm_ext_iff_of_nodup (hleft.filter _)
      (hright.filter _)).mpr fun word => ?_)
    simp only [List.mem_filter, List.contains_iff_mem, and_comm]
  simp only [shareMostWords, hcommon, Nat.add_comm]

theorem contradicts_comm (o o' : Obligation) :
    (Stance.of o).contradicts (Stance.of o') = (Stance.of o').contradicts (Stance.of o) := by
  have hnodup : ∀ o, (Stance.of o).words.get.Nodup := fun o => nodup_eraseDups _
  rw [Stance.contradicts, Stance.contradicts, shareMostWords_comm (hnodup o) (hnodup o'),
    BEq.comm (a := (Stance.of o).party), bne_comm (a := (Stance.of o).negated)]

theorem contradictoryObligations_eq (g : Graph) :
    contradictoryObligations g =
      ((pairs g.obligations).filter fun (o, o') =>
          (Stance.of o).contradicts (Stance.of o')).map fun (o, o') => contradiction g o o' := by
  rw [contradictoryObligations, pairs_map, List.filter_map, List.map_map]
  rfl

/-! ## Reordered graphs -/

/-- What a finding says of the nodes that it names, whatever their order. -/
def Finding.unordered (finding : Finding) : Multiset String × List Nat :=
  (finding.involved, finding.lines)

/-- Findings that differ in nothing but their order, the order of the nodes that they name, and in
which cycles stand for the circular dependencies. -/
structure SameFindings (findings findings' : List Finding) : Prop where
  circular : ofKind .circularDependency findings = [] ↔ ofKind .circularDependency findings' = []
  /-- Contradictions between the same pairs, at the same lines. -/
  contradictory : ((ofKind .contradictoryObligations findings).map Finding.unordered).Perm
    ((ofKind .contradictoryObligations findings').map Finding.unordered)
  /-- The same findings about single obligations and conditions. -/
  single : ∀ kind ∈ [KnownDefect.orphanedObligation, .danglingCondition, .unmatchedReference],
    (ofKind kind findings).Perm (ofKind kind findings')
  /-- The same parties, which the descriptions name, with the same obligations and lines. -/
  reciprocity :
    ((ofKind .missingReciprocity findings).map fun f => (f.description, f.unordered)).Perm
      ((ofKind .missingReciprocity findings').map fun f => (f.description, f.unordered))

namespace Graph

/-- A graph has the nodes and the edges of another, each in some order. -/
structure Reorders (g g' : Graph) : Prop where
  nodes : g.nodes.Perm g'.nodes
  edges : g.edges.Perm g'.edges

namespace Reorders

variable {g g' : Graph}

theorem node?_eq (h : g.Reorders g') (id : String) : g.node? id = g'.node? id := by
  refine Option.ext fun node => ?_
  rw [g.sound.node?_eq_some_iff, g'.sound.node?_eq_some_iff, h.nodes.mem_iff]

theorem linesOf_eq (h : g.Reorders g') {ids ids' : List String} (hids : ids.Perm ids') :
    g.linesOf ids = g'.linesOf ids' := by
  simp only [linesOf, h.node?_eq]
  exact ascending_congr fun line => (hids.filterMap _).mem_iff

theorem joins_iff (h : g.Reorders g') {id next : String} : g.Joins id next ↔ g'.Joins id next := by
  simp only [Joins, h.edges.mem_iff]

theorem circularDependencies_eq_nil_iff (h : g.Reorders g') :
    circularDependencies g = [] ↔ circularDependencies g' = [] := by
  have hjoins : g.Joins = g'.Joins := by
    funext id next
    exact propext h.joins_iff
  rw [circularDependencies, circularDependencies, List.map_eq_nil_iff, List.map_eq_nil_iff,
    cycles_eq_nil_iff, cycles_eq_nil_iff, hjoins]

theorem obligations_perm (h : g.Reorders g') : g.obligations.Perm g'.obligations :=
  h.nodes.filterMap _

theorem conditions_perm (h : g.Reorders g') : g.conditions.Perm g'.conditions :=
  h.nodes.filterMap _

theorem orphanedObligations_perm (h : g.Reorders g') :
    (orphanedObligations g).Perm (orphanedObligations g') :=
  (h.obligations_perm.filter _).map _

theorem isUsed_eq (h : g.Reorders g') (c : Condition) : isUsed g c = isUsed g' c := by
  simp only [isUsed, g.sound.outgoing_eq, g.sound.incoming_eq, g'.sound.outgoing_eq,
    g'.sound.incoming_eq, (h.edges.filter _).any_eq]

theorem danglingConditions_perm (h : g.Reorders g') :
    (danglingConditions g).Perm (danglingConditions g') := by
  simp only [danglingConditions, h.isUsed_eq]
  exact (h.conditions_perm.filter _).map _

theorem isMatched_eq (h : g.Reorders g') (reference : String) :
    isMatched (g.clauses.map (·.id)) reference = isMatched (g'.clauses.map (·.id)) reference :=
  ((h.nodes.filterMap _).map _).any_eq

theorem unmatchedReferences_perm (h : g.Reorders g') :
    (unmatchedReferences g).Perm (unmatchedReferences g') := by
  simp only [unmatchedReferences, h.isMatched_eq]
  exact h.conditions_perm.flatMap fun _ _ => .refl _

theorem map_unordered_contradictoryObligations (g : Graph) :
    (contradictoryObligations g).map Finding.unordered =
      ((pairs g.obligations).filter fun (o, o') =>
          (Stance.of o).contradicts (Stance.of o')).map
        fun (o, o') => (contradiction g o o').unordered := by
  rw [contradictoryObligations_eq, List.map_map]
  rfl

theorem unordered_contradiction_comm (g : Graph) (o o' : Obligation) :
    (contradiction g o o').unordered = (contradiction g o' o).unordered := by
  have hids : [o.id, o'.id].Perm [o'.id, o.id] := .swap _ _ _
  exact Prod.ext (Multiset.coe_eq_coe.mpr hids) (linesOf_eq ⟨.refl _, .refl _⟩ hids)

theorem contradictoryObligations_perm (h : g.Reorders g') :
    ((contradictoryObligations g).map Finding.unordered).Perm
      ((contradictoryObligations g').map Finding.unordered) := by
  have hsame : ∀ o o', (contradiction g o o').unordered = (contradiction g' o o').unordered :=
    fun o o' => congrArg (Prod.mk _) (h.linesOf_eq (.refl _))
  simp only [map_unordered_contradictoryObligations, hsame]
  refine pairs_reordered (fun o o' => ?_) (fun o o' => ?_) h.obligations_perm
  · exact contradicts_comm o o'
  · exact unordered_contradiction_comm g' o o'

theorem missingReciprocities_eq (g : Graph) :
    missingReciprocities g =
      ((g.obligations.map Obligation.partyKey).eraseDups.filter fun party =>
          !(entitledParties g).contains party).map
        fun party => missingReciprocity g (groupOf g.obligations party) := by
  rw [missingReciprocities, groupByParty_eq, List.filter_map, List.map_map]
  rfl

theorem missingReciprocities_perm (h : g.Reorders g') :
    ((missingReciprocities g).map fun f => (f.description, f.unordered)).Perm
      ((missingReciprocities g').map fun f => (f.description, f.unordered)) := by
  have hentitled : ∀ party, (entitledParties g).contains party =
      (entitledParties g').contains party :=
    fun party => ((h.nodes.filterMap _).map _).contains_eq
  have hgroup : ∀ party,
      (missingReciprocity g (groupOf g.obligations party)).unordered =
        (missingReciprocity g' (groupOf g'.obligations party)).unordered := by
    intro party
    have hids := (h.obligations_perm.filter fun o => o.partyKey = party).map (·.id)
    exact Prod.ext (Multiset.coe_eq_coe.mpr hids) (h.linesOf_eq hids)
  simp only [missingReciprocities_eq, List.map_map, Function.comp_def, hgroup, hentitled]
  exact ((eraseDups_reordered (h.obligations_perm.map _)).filter _).map _

theorem sameFindings (h : g.Reorders g') : SameFindings (findingsOf g) (findingsOf g') := by
  obtain ⟨hcircular, hcontradictory, horphaned, hdangling, hreciprocity, hunmatched⟩ :=
    ofKind_findingsOf_each g
  obtain ⟨hcircular', hcontradictory', horphaned', hdangling', hreciprocity', hunmatched'⟩ :=
    ofKind_findingsOf_each g'
  refine ⟨?circular, ?contradictory, ?single, ?reciprocity⟩
  case circular =>
    rw [hcircular, hcircular']
    exact h.circularDependencies_eq_nil_iff
  case contradictory =>
    rw [hcontradictory, hcontradictory']
    exact h.contradictoryObligations_perm
  case single =>
    simp only [List.forall_mem_cons, List.not_mem_nil, false_implies, implies_true, and_true]
    rw [horphaned, horphaned', hdangling, hdangling', hunmatched, hunmatched']
    exact ⟨h.orphanedObligations_perm, h.danglingConditions_perm, h.unmatchedReferences_perm⟩
  case reciprocity =>
    rw [hreciprocity, hreciprocity']
    exact h.missingReciprocities_perm

end Reorders

end Graph

/-! ## Reordered projections -/

namespace Projection

variable {p q : Projection}

theorem fits_of_perm (hnodes : p.nodes.Perm q.nodes) (hedges : p.edges.Perm q.edges)
    (h : p.Fits) : q.Fits where
  distinct := (hnodes.map Node.id).nodup_iff.mp h.distinct
  joined edge hedge := by
    simp only [ids, ← (hnodes.map Node.id).mem_iff]
    exact h.joined edge (hedges.mem_iff.mpr hedge)

theorem reorders_of_graph? (hnodes : p.nodes.Perm q.nodes) (hedges : p.edges.Perm q.edges)
    {g g' : Graph} (hp : p.graph? = .ok g) (hq : q.graph? = .ok g') : g.Reorders g' := by
  obtain rfl := (p.graph?_eq_ok_iff g).mp hp
  obtain rfl := (q.graph?_eq_ok_iff g').mp hq
  exact ⟨hnodes, hedges⟩

/-- **The order in which a graph is put together does not matter**: of two projections with the
same nodes and the same edges both yield a graph or neither does, and the two graphs have the same
findings. -/
theorem findings_reordered (hnodes : p.nodes.Perm q.nodes) (hedges : p.edges.Perm q.edges) :
    ((∃ g, p.graph? = .ok g) ↔ ∃ g, q.graph? = .ok g) ∧
    ∀ g g', p.graph? = .ok g → q.graph? = .ok g' → SameFindings (findingsOf g) (findingsOf g') := by
  rw [exists_graph?_iff, exists_graph?_iff]
  refine ⟨⟨fits_of_perm hnodes hedges, fits_of_perm hnodes.symm hedges.symm⟩, ?_⟩
  intro g g' hg hg'
  exact (reorders_of_graph? hnodes hedges hg hg').sameFindings

/-- Two clauses that cite each other, and two obligations of a party that contradict each other,
from the first to the last and the other way round. -/
theorem findings_reordered_reverse :
    let scope : Node := .clause (.leveled "clause_1" "Scope" "The fees of Section 2." 1 none)
    let fees : Node := .clause (.leveled "clause_2" "Fees" "As in Section 1." 1 none)
    let duty : Node := .obligation ⟨"obl_1", "Buyer", "pay the fee", none, none, some 1⟩
    let exemption : Node := .obligation ⟨"obl_2", "buyer", "not pay the fee", none, none, some 2⟩
    let nodes := [scope, fees, duty, exemption]
    let edges : List Edge := [⟨"clause_1", "obl_1", .derivedFrom⟩,
      ⟨"clause_2", "obl_2", .derivedFrom⟩, ⟨"clause_1", "clause_2", .references⟩,
      ⟨"clause_2", "clause_1", .references⟩]
    ∃ g g', graph? ⟨nodes, edges⟩ = .ok g ∧ graph? ⟨nodes.reverse, edges.reverse⟩ = .ok g' ∧
      circularDependencies g ≠ [] ∧ contradictoryObligations g ≠ [] ∧
      SameFindings (findingsOf g) (findingsOf g') := by
  intro scope fees duty exemption nodes edges
  obtain ⟨hboth, hsame⟩ := findings_reordered (p := ⟨nodes, edges⟩)
    (q := ⟨nodes.reverse, edges.reverse⟩) nodes.reverse_perm.symm edges.reverse_perm.symm
  obtain ⟨g, hg, hcircular, hcontradictory⟩ : ∃ g, graph? ⟨nodes, edges⟩ = .ok g ∧
      circularDependencies g ≠ [] ∧ contradictoryObligations g ≠ [] :=
    exists_ok_of_any (by decide +kernel)
  obtain ⟨g', hg'⟩ := hboth.mp ⟨g, hg⟩
  exact ⟨g, g', hg, hg', hcircular, hcontradictory, hsame g g' hg hg'⟩

end Projection

end ContractAnalysis
