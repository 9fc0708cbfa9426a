import ContractAnalysis.Detection
import ContractAnalysis.Proofs.Graph.Reads
import Mathlib.Data.List.Sort

/-!
# The lines of findings

The lines of a finding are those of the nodes that it names, in ascending order and each once
(`hasLinesOf_of_mem_findingsOf`). What is collected in ascending order is known by its elements
(`ascending_congr`).
-/

namespace ContractAnalysis

/-! ## Ascending numbers -/

theorem mem_insertAscending {n m : Nat} {ns : List Nat} :
    m ∈ insertAscending n ns ↔ m = n ∨ m ∈ ns := by
  induction ns with
  | nil => simp [insertAscending]
  | cons k ns ih =>
    rw [insertAscending]
    split_ifs with hlt heq
    · simp
    · simp [heq]
    · rw [List.mem_cons, ih, List.mem_cons]
      tauto

theorem pairwise_insertAscending {n : Nat} {ns : List Nat} (h : ns.Pairwise (· < ·)) :
    (insertAscending n ns).Pairwise (· < ·) := by
  induction ns with
  | nil => exact List.pairwise_singleton _ n
  | cons k ns ih =>
    obtain ⟨hk, hns⟩ := List.pairwise_cons.mp h
    rw [insertAscending]
    split_ifs with hlt heq
    · refine List.pairwise_cons.mpr ⟨fun m hm => ?_, h⟩
      rcases List.mem_cons.mp hm with rfl | hm
      · exact hlt
      · exact hlt.trans (hk m hm)
    · exact h
    · refine List.pairwise_cons.mpr ⟨fun m hm => ?_, ih hns⟩
      rcases mem_insertAscending.mp hm with rfl | hm
      · omega
      · exact hk m hm

theorem mem_ascending {n : Nat} {ns : List Nat} : n ∈ ascending ns ↔ n ∈ ns := by
  induction ns with
  | nil => rfl
  | cons m ns ih =>
    change n ∈ insertAscending m (ascending ns) ↔ _
    rw [mem_insertAscending, ih, List.mem_cons]

theorem pairwise_ascending (ns : List Nat) : (ascending ns).Pairwise (· < ·) := by
  induction ns with
  | nil => exact .nil
  | cons n ns ih => exact pairwise_insertAscending ih

theorem ascending_congr {ns ms : List Nat} (h : ∀ n, n ∈ ns ↔ n ∈ ms) :
    ascending ns = ascending ms :=
  (pairwise_ascending ns).eq_of_mem_iff (pairwise_ascending ms) fun n => by
    rw [mem_ascending, mem_ascending, h]

/-! ## Lines of nodes -/

namespace Graph

variable {g : Graph}

theorem mem_linesOf {ids : List String} {line : Nat} :
    line ∈ g.linesOf ids ↔ ∃ node ∈ g.nodes, node.id ∈ ids ∧ node.line = some line := by
  simp only [linesOf, mem_ascending, List.mem_filterMap, Option.bind_eq_some_iff,
    g.sound.node?_eq_some_iff]
  constructor
  · rintro ⟨id, hid, node, ⟨hnode, rfl⟩, hline⟩
    exact ⟨node, hnode, hid, hline⟩
  · rintro ⟨node, hnode, hid, hline⟩
    exact ⟨node.id, hid, node, ⟨hnode, rfl⟩, hline⟩

/-- A finding has the lines of the nodes that it names. -/
structure HasLinesOf (g : Graph) (finding : Finding) : Prop where
  ascending : finding.lines.Pairwise (· < ·)
  mem_iff : ∀ line, line ∈ finding.lines ↔
    ∃ node ∈ g.nodes, node.id ∈ finding.involved ∧ node.line = some line

theorem hasLinesOf_linesOf {finding : Finding} (h : finding.lines = g.linesOf finding.involved) :
    g.HasLinesOf finding :=
  ⟨h ▸ pairwise_ascending _, fun _ => h ▸ mem_linesOf⟩

theorem hasLinesOf_node {node : Node} (hnode : node ∈ g.nodes) {finding : Finding}
    (hinvolved : finding.involved = [node.id]) (hlines : finding.lines = node.line.toList) :
    g.HasLinesOf finding where
  ascending := by
    rw [hlines]
    cases node.line <;> simp
  mem_iff line := by
    rw [hinvolved, hlines, Option.mem_toList]
    constructor
    · exact fun hline => ⟨node, hnode, List.mem_singleton_self _, hline⟩
    · rintro ⟨other, hother, hid, hline⟩
      obtain rfl := List.inj_on_of_nodup_map g.sound.distinct hother hnode
        (List.mem_singleton.mp hid)
      exact hline

/-- A finding of the structural checks has the lines of the nodes that it names. -/
theorem hasLinesOf_of_mem_findingsOf {finding : Finding} (h : finding ∈ findingsOf g) :
    g.HasLinesOf finding := by
  simp only [findingsOf, List.mem_append] at h
  rcases h with ((((h | h) | h) | h) | h) | h
  · obtain ⟨cycle, -, rfl⟩ := List.mem_map.mp h
    exact hasLinesOf_linesOf rfl
  · obtain ⟨stances, -, rfl⟩ := List.mem_map.mp h
    exact hasLinesOf_linesOf rfl
  · obtain ⟨o, ho, rfl⟩ := List.mem_map.mp h
    exact hasLinesOf_node (mem_obligations_iff.mp (List.mem_of_mem_filter ho)) rfl rfl
  · obtain ⟨c, hc, rfl⟩ := List.mem_map.mp h
    exact hasLinesOf_node (mem_conditions_iff.mp (List.mem_of_mem_filter hc)) rfl rfl
  · obtain ⟨group, -, rfl⟩ := List.mem_map.mp h
    exact hasLinesOf_linesOf rfl
  · obtain ⟨c, hc, hreference⟩ := List.mem_flatMap.mp h
    obtain ⟨reference, -, rfl⟩ := List.mem_map.mp hreference
    exact hasLinesOf_node (mem_conditions_iff.mp hc) rfl rfl

end Graph

end ContractAnalysis
