import ContractAnalysis.Extraction
import ContractAnalysis.Proofs.Keys
import ContractAnalysis.Proofs.Numbering

/-!
# The ids of facts

The matches of a category are numbered from 1 on without a gap, whatever matches of other categories
stand between them (`numberHits_filter`). Where the rules keep the ids that they are handed
(`FactRule.KeepsId`), the ids of the facts are therefore those of the first numbers of each
category, each once (`ids_extract_perm`). Every edge of a fact leads from a clause to that fact
(`mem_edges_extract`).
-/

namespace ContractAnalysis

/-! ## Matches -/

/-- The nodes of a rule have the ids that the rule is handed. -/
def FactRule.KeepsId (rule : FactRule) : Prop :=
  ∀ id phrases line, (rule.build id phrases line).id = id

theorem FactRule.mem_standard {rule : FactRule} :
    rule ∈ FactRule.standard ↔ rule = obligations ∨ rule = rights ∨ rule = conditions := by
  simp only [standard, List.mem_cons, List.not_mem_nil, or_false]

theorem FactRule.keepsId_of_mem_standard {rule : FactRule} (h : rule ∈ FactRule.standard) :
    rule.KeepsId := by
  rcases mem_standard.mp h with rfl | rfl | rfl <;> exact fun _ _ _ => rfl

theorem FactRule.keepsId_undertaking : FactRule.undertaking.KeepsId := fun _ _ _ => rfl

theorem FactRule.keepsId_cancellation : FactRule.cancellation.KeepsId := fun _ _ _ => rfl

theorem mem_of_mem_hitsIn {rules : List FactRule} {clauses : List Clause} {hit : Hit}
    (h : hit ∈ hitsIn rules clauses) : hit.clause ∈ clauses ∧ hit.rule ∈ rules := by
  simp only [hitsIn, hitsOf, List.mem_flatMap, List.mem_filterMap, Option.map_eq_some_iff] at h
  obtain ⟨clause, hclause, rule, hrule, -, -, phrases, -, rfl⟩ := h
  exact ⟨hclause, hrule⟩

/-! ## Numbers -/

namespace FactCount

theorem get_empty (category : FactCategory) : ({} : FactCount).get category = 0 := by
  cases category <;> rfl

theorem get_add_self (count : FactCount) (category : FactCategory) :
    (count.add category).get category = count.get category + 1 := by
  cases category <;> rfl

theorem get_add_of_ne (count : FactCount) {category other : FactCategory} (h : category ≠ other) :
    (count.add category).get other = count.get other := by
  cases category <;> cases other <;> first | rfl | contradiction

end FactCount

theorem map_fst_numberHits (count : FactCount) (hits : List Hit) :
    (numberHits count hits).map Prod.fst = hits := by
  induction hits generalizing count with
  | nil => rfl
  | cons hit rest ih => rw [numberHits, List.map_cons, ih]

/-- The numbers of a category go on from its count without a gap. -/
theorem numberHits_filter (count : FactCount) (hits : List Hit) (category : FactCategory) :
    ((numberHits count hits).filter fun entry => entry.1.rule.category == category).map Prod.snd =
      List.range' (count.get category + 1)
        (hits.countP fun hit => hit.rule.category == category) := by
  induction hits generalizing count with
  | nil => rfl
  | cons hit rest ih =>
    by_cases hcategory : hit.rule.category = category
    · subst hcategory
      simp only [numberHits, List.filter_cons, List.countP_cons, beq_self_eq_true, if_true,
        List.map_cons, ih, FactCount.get_add_self, List.range'_succ]
    · have hne : (hit.rule.category == category) = false := by simpa using hcategory
      simp only [numberHits, List.filter_cons, List.countP_cons, hne, Bool.false_eq_true, if_false,
        ih, FactCount.get_add_of_ne count hcategory, Nat.add_zero]

theorem FactCategory.mem_all (category : FactCategory) : category ∈ all := by
  cases category <;> decide

def factIds (hits : List Hit) : List String :=
  (numberHits {} hits).map fun (hit, n) => hit.factId n

/-- The ids of the first numbers of a category, up to the number of its matches. -/
def idsOfCategory (hits : List Hit) (category : FactCategory) : List String :=
  (List.range' 1 (hits.countP fun hit => hit.rule.category == category)).map category.factId

theorem map_factId_filter (hits : List Hit) (category : FactCategory) :
    ((numberHits {} hits).filter fun entry => entry.1.rule.category == category).map
      (fun (hit, n) => hit.factId n) = idsOfCategory hits category := by
  have hnumbers := numberHits_filter {} hits category
  rw [FactCount.get_empty] at hnumbers
  rw [idsOfCategory, ← hnumbers, List.map_map]
  refine List.map_congr_left fun entry hentry => ?_
  obtain rfl : entry.1.rule.category = category := by
    simpa using (List.mem_filter.mp hentry).2
  rfl

theorem idsOfCategory_sublist (hits : List Hit) (category : FactCategory) :
    (idsOfCategory hits category).Sublist (factIds hits) := by
  rw [← map_factId_filter]
  exact List.filter_sublist.map _

theorem factIds_perm (hits : List Hit) :
    (factIds hits).Perm (FactCategory.all.flatMap (idsOfCategory hits)) := by
  have hcategories : FactCategory.all.Nodup := by decide
  have hdivided : (numberHits {} hits).Perm _ :=
    perm_flatMap_filter (fun entry : Hit × Nat => entry.1.rule.category) hcategories
      fun entry _ => entry.1.rule.category.mem_all
  have h := hdivided.map fun (hit, n) => hit.factId n
  simpa only [factIds, List.map_flatMap, map_factId_filter] using h

theorem mem_factIds {hits : List Hit} {id : String} (h : id ∈ factIds hits) :
    ∃ category n, id = FactCategory.factId category n := by
  obtain ⟨⟨hit, n⟩, -, rfl⟩ := List.mem_map.mp h
  exact ⟨hit.rule.category, n, rfl⟩

theorem nodup_factIds (hits : List Hit) : (factIds hits).Nodup := by
  rw [(factIds_perm hits).nodup_iff, List.nodup_flatMap]
  refine ⟨fun category _ => ?_, ?_⟩
  · exact nodup_map_range' (fun _ _ h => (FactCategory.factId_inj.mp h).2) _ _
  · have hne : FactCategory.all.Pairwise (· ≠ ·) := by decide
    refine hne.imp fun {category other} hcategory id hid hother => ?_
    obtain ⟨m, -, rfl⟩ := List.mem_map.mp hid
    obtain ⟨n, -, hn⟩ := List.mem_map.mp hother
    exact hcategory (FactCategory.factId_inj.mp hn).1.symm

/-! ## Facts -/

theorem fst_mem_of_mem_numberHits {count : FactCount} {hits : List Hit} {entry : Hit × Nat}
    (h : entry ∈ numberHits count hits) : entry.1 ∈ hits := by
  rw [← map_fst_numberHits count hits]
  exact List.mem_map_of_mem h

theorem clause_mem_of_mem_numberHits {rules : List FactRule} {clauses : List Clause}
    {entry : Hit × Nat} (h : entry ∈ numberHits {} (hitsIn rules clauses)) :
    entry.1.clause ∈ clauses ∧ entry.1.rule ∈ rules :=
  mem_of_mem_hitsIn (fst_mem_of_mem_numberHits h)

theorem exists_hit_of_mem_nodes {rules : List FactRule} {clauses : List Clause} {node : Node}
    (h : node ∈ (extract rules clauses).nodes) :
    ∃ hit n, (hit, n) ∈ numberHits {} (hitsIn rules clauses) ∧ Hit.node hit n = node := by
  obtain ⟨⟨hit, n⟩, hentry, hnode⟩ := List.mem_map.mp h
  exact ⟨hit, n, hentry, hnode⟩

theorem Hit.eq_of_node_condition {hit : Hit} {n : Nat} {c : Condition}
    (hrule : hit.rule ∈ FactRule.standard) (h : hit.node n = .condition c) :
    hit.rule = FactRule.conditions ∧ c.trigger = Text.trim hit.phrases.first ∧
      c.consequence = Text.trim hit.phrases.second ∧
      c.references = citedNumbers (hit.phrases.first ++ " " ++ hit.phrases.second) := by
  rcases FactRule.mem_standard.mp hrule with hrule | hrule | hrule
  · simp [Hit.node, hrule, FactRule.obligations, FactRule.buildObligation] at h
  · simp [Hit.node, hrule, FactRule.rights, FactRule.buildRight] at h
  · simp only [Hit.node, hrule, FactRule.conditions, FactRule.buildCondition,
      Node.condition.injEq] at h
    subst h
    exact ⟨hrule, rfl, rfl, rfl⟩

theorem map_id_nodes_extract {rules : List FactRule} (hrules : ∀ rule ∈ rules, rule.KeepsId)
    (clauses : List Clause) :
    (extract rules clauses).nodes.map Node.id = factIds (hitsIn rules clauses) := by
  rw [extract, List.map_map, factIds]
  refine List.map_congr_left fun entry hentry => ?_
  exact hrules _ (clause_mem_of_mem_numberHits hentry).2 _ _ _

theorem mem_edges_extract {rules : List FactRule} {clauses : List Clause} {edge : Edge}
    (h : edge ∈ (extract rules clauses).edges) :
    edge.source ∈ clauses.map Clause.id ∧ edge.target ∈ factIds (hitsIn rules clauses) := by
  obtain ⟨⟨hit, n⟩, hentry, rfl⟩ := List.mem_map.mp h
  exact ⟨List.mem_map_of_mem (clause_mem_of_mem_numberHits hentry).1,
    List.mem_map.mpr ⟨(hit, n), hentry, rfl⟩⟩

end ContractAnalysis
