import ContractAnalysis.Proofs.Detection.Profiles
import ContractAnalysis.Proofs.Detection.Reordering
import ContractAnalysis.Proofs.Detection.Unmatched
import ContractAnalysis.Proofs.Graph.ClosingEdges
import ContractAnalysis.Proofs.Shape
import Mathlib.Data.List.Count

/-!
# Which findings are repeated

A condition that cites a number twice is reported twice, word for word, where the number is not
matched. Nothing else is ever repeated: all other findings of a document differ in their `content`,
for cycles are closed by different edges, and conditions, obligations, pairs of obligations and
parties are gone through once. So a finding is there once, or as often as its condition cites its
number (`findings_repeated`).

* `nodup_content`: the findings of a check, in which nothing is repeated
* `count_unmatchedReference`: how often a number is reported
-/

namespace ContractAnalysis

/-- All that a finding says, but for a recommendation and where it comes from. -/
def Finding.content (finding : Finding) :
    Defect × Severity × String × List String × List Nat :=
  (finding.defect, finding.severity, finding.description, finding.involved, finding.lines)

theorem Finding.eq_of_content {finding other : Finding} (h : finding.content = other.content) :
    finding.defect = other.defect ∧ finding.description = other.description ∧
      finding.involved = other.involved := by
  simp only [content, Prod.mk.injEq] at h
  exact ⟨h.1, h.2.2.1, h.2.2.2.1⟩

/-! ## Checks without repetition -/

section Checks

variable {g : Graph}

theorem nodup_map_content {α β : Type} {finding : α → Finding} (key : α → β)
    (hkey : ∀ x y, (finding x).content = (finding y).content → key x = key y) {xs : List α}
    (h : (xs.map key).Nodup) : ((xs.map finding).map Finding.content).Nodup := by
  rw [List.map_map]
  exact List.pairwise_map.mpr
    ((List.pairwise_map.mp h).imp fun hne hsame => hne (hkey _ _ hsame))

theorem nodup_pairs {α : Type} {xs : List α} (h : xs.Nodup) : (pairs xs).Nodup := by
  induction xs with
  | nil => exact List.nodup_nil
  | cons x xs ih =>
    obtain ⟨hx, hxs⟩ := List.nodup_cons.mp h
    have hfirst : (xs.map fun y => (x, y)).Nodup :=
      hxs.map fun _ _ heq => (Prod.mk.inj heq).2
    refine List.nodup_append.mpr ⟨hfirst, ih hxs, ?_⟩
    rintro pair hpair other hother rfl
    obtain ⟨y, -, rfl⟩ := List.mem_map.mp hpair
    exact hx (mem_of_mem_pairs hother).1

theorem nodup_contradictoryObligations (g : Graph) :
    ((contradictoryObligations g).map Finding.content).Nodup := by
  have hids : ((pairs g.obligations).map fun pair => [pair.1.id, pair.2.id]).Nodup := by
    have hpairs : (pairs (g.obligations.map (·.id))).Nodup := nodup_pairs g.nodup_id_obligations
    rw [pairs_map] at hpairs
    refine List.pairwise_map.mpr ((List.pairwise_map.mp hpairs).imp fun hne heq => hne ?_)
    simpa [Prod.map] using heq
  rw [contradictoryObligations_eq]
  refine nodup_map_content (fun pair : Obligation × Obligation => [pair.1.id, pair.2.id])
    (fun pair pair' hsame => ?_) ((List.filter_sublist.map _).nodup hids)
  exact (Finding.eq_of_content hsame).2.2

theorem nodup_missingReciprocities (g : Graph) :
    ((missingReciprocities g).map Finding.content).Nodup := by
  rw [Graph.Reorders.missingReciprocities_eq]
  refine nodup_map_content (fun party => party) (fun party party' hsame => ?_) ?_
  · have hdescription := (Finding.eq_of_content hsame).2.1
    simpa only [missingReciprocity, Finding.symbolic, party_groupOf, String.append_left_inj,
      String.append_right_inj] using hdescription
  · rw [List.map_id']
    exact (nodup_eraseDups _).filter _

theorem nodup_content (hcycles : g.cycles.Nodup) {check : KnownDefect × List Finding}
    (hcheck : check ∈ checks g) (hne : check.1 ≠ .unmatchedReference) :
    (check.2.map Finding.content).Nodup := by
  simp only [checks, List.mem_cons, List.not_mem_nil, or_false] at hcheck
  rcases hcheck with rfl | rfl | rfl | rfl | rfl | rfl
  · refine nodup_map_content (fun cycle => cycle) (fun cycle cycle' hsame => ?_)
      (by rwa [List.map_id'])
    exact (Finding.eq_of_content hsame).2.2
  · exact nodup_contradictoryObligations g
  · refine nodup_map_content Obligation.id (fun o o' hsame => ?_)
      ((List.filter_sublist.map _).nodup g.nodup_id_obligations)
    exact List.head_eq_of_cons_eq (Finding.eq_of_content hsame).2.2
  · refine nodup_map_content Condition.id (fun c c' hsame => ?_)
      ((List.filter_sublist.map _).nodup g.nodup_id_conditions)
    exact List.head_eq_of_cons_eq (Finding.eq_of_content hsame).2.2
  · exact nodup_missingReciprocities g
  · exact absurd rfl hne

/-! ## Repeated citations -/

theorem content_unmatchedReference_injective (c : Condition) :
    Function.Injective fun reference => (unmatchedReference c reference).content := by
  intro reference other h
  have hdescription := (Finding.eq_of_content h).2.1
  simpa only [unmatchedReference, Finding.symbolic, String.append_left_inj,
    String.append_right_inj] using hdescription

theorem count_unmatchedReference {c : Condition} (hc : c ∈ g.conditions) (reference : String) :
    ((unmatchedReferences g).map Finding.content).count (unmatchedReference c reference).content =
      if isMatched (g.clauses.map (·.id)) reference then 0 else c.references.count reference := by
  let reported (c' : Condition) : List (Defect × Severity × String × List String × List Nat) :=
    (c'.references.filter fun other => !isMatched (g.clauses.map (·.id)) other).map fun other =>
      (unmatchedReference c' other).content
  have hreported : (unmatchedReferences g).map Finding.content = g.conditions.flatMap reported := by
    rw [unmatchedReferences, List.map_flatMap]
    exact List.flatMap_congr fun _ _ => List.map_map
  have hown : (reported c).count (unmatchedReference c reference).content =
      if isMatched (g.clauses.map (·.id)) reference then 0 else c.references.count reference := by
    refine (List.count_map_of_injective _ _ (content_unmatchedReference_injective c) _).trans ?_
    split_ifs with hmatched
    · exact List.count_eq_zero.mpr fun hmem => by simp [hmatched] at hmem
    · exact List.count_filter (by simp [hmatched])
  -- The other conditions have other ids, so what they report is something else.
  obtain ⟨before, after, hsplit⟩ := List.append_of_mem hc
  have hids := g.nodup_id_conditions
  rw [hsplit, List.map_append, List.map_cons, List.nodup_middle, List.nodup_cons,
    ← List.map_append] at hids
  have hother : ∀ part : List Condition, part ⊆ before ++ after →
      (part.flatMap reported).count (unmatchedReference c reference).content = 0 := by
    intro part hpart
    refine List.count_eq_zero.mpr fun hmem => ?_
    obtain ⟨c', hc', hfinding⟩ := List.mem_flatMap.mp hmem
    obtain ⟨other, -, hsame⟩ := List.mem_map.mp hfinding
    have hid : c'.id = c.id := List.head_eq_of_cons_eq (Finding.eq_of_content hsame).2.2
    exact hids.1 (hid ▸ List.mem_map_of_mem (hpart hc'))
  rw [hreported, hsplit, List.flatMap_append, List.flatMap_cons, List.count_append,
    List.count_append, hother before (List.subset_append_left _ _),
    hother after (List.subset_append_right _ _), hown, Nat.zero_add, Nat.add_zero]

/-! ## All checks together -/

theorem count_content {kind : KnownDefect} {findings : List Finding}
    (hcheck : (kind, findings) ∈ checks g) {finding : Finding}
    (hkind : finding.defect = .known kind) :
    ((findingsOf g).map Finding.content).count finding.content =
      (findings.map Finding.content).count finding.content := by
  have hfilter : findings.map Finding.content =
      ((findingsOf g).map Finding.content).filter fun content => content.1 = .known kind := by
    rw [← ofKind_findingsOf hcheck, ofKind, List.filter_map]
    rfl
  rw [hfilter, List.count_filter (by simp [Finding.content, hkind])]

/-- A finding is there once, or it is about a number and there as often as the number is cited. -/
theorem count_content_findingsOf (hcycles : g.cycles.Nodup) {finding : Finding}
    (h : finding ∈ findingsOf g) :
    ((findingsOf g).map Finding.content).count finding.content = 1 ∨
      ∃ c ∈ g.conditions, ∃ reference ∈ c.references, finding = unmatchedReference c reference ∧
        isMatched (g.clauses.map (·.id)) reference = false ∧
        ((findingsOf g).map Finding.content).count finding.content =
          c.references.count reference := by
  rw [findingsOf_eq, List.mem_flatMap] at h
  obtain ⟨⟨kind, findings⟩, hcheck, hfinding⟩ := h
  have hkind : finding.defect = .known kind := defect_of_mem_checks hcheck hfinding
  rw [count_content hcheck hkind]
  by_cases hunmatched : kind = .unmatchedReference
  · subst hunmatched
    obtain rfl : unmatchedReferences g = findings := by
      rw [← (ofKind_findingsOf_each g).2.2.2.2.2, ofKind_findingsOf hcheck]
    obtain ⟨c, hc, hreported⟩ := List.mem_flatMap.mp hfinding
    obtain ⟨reference, hreference, rfl⟩ := List.mem_map.mp hreported
    obtain ⟨hcited, hmatched⟩ := List.mem_filter.mp hreference
    rw [Bool.not_eq_true'] at hmatched
    refine .inr ⟨c, hc, reference, hcited, rfl, hmatched, ?_⟩
    rw [count_unmatchedReference hc, if_neg (by simp [hmatched])]
  · exact .inl (List.count_eq_one_of_mem (nodup_content hcycles hcheck hunmatched)
      (List.mem_map_of_mem hfinding))

theorem nodup_findingsOf_iff (hcycles : g.cycles.Nodup) :
    ((findingsOf g).map Finding.content).Nodup ↔
      ∀ c ∈ g.conditions, ∀ reference ∈ c.references,
        isMatched (g.clauses.map (·.id)) reference = false → c.references.count reference = 1 := by
  rw [List.nodup_iff_count_eq_one]
  constructor
  · intro h c hc reference hreference hmatched
    have hcheck : (KnownDefect.unmatchedReference, unmatchedReferences g) ∈ checks g := by
      simp [checks]
    have hfinding : unmatchedReference c reference ∈ findingsOf g :=
      (mem_findingsOf_iff hcheck rfl).mpr
        ((mem_unmatchedReferences_iff hc hreference).mpr hmatched)
    have hcount := h _ (List.mem_map_of_mem hfinding)
    rwa [count_content hcheck rfl, count_unmatchedReference hc, if_neg (by simp [hmatched])]
      at hcount
  · intro h content hcontent
    obtain ⟨finding, hfinding, rfl⟩ := List.mem_map.mp hcontent
    rcases count_content_findingsOf hcycles hfinding with hone | ⟨c, hc, reference, hcited, hrest⟩
    · exact hone
    · exact hrest.2.2.trans (h c hc reference hcited hrest.2.1)

end Checks

/-! ## Documents -/

section Documents

variable {rules : List FactRule} {clauses : List Clause} {facts : List Node} {g : Graph}

theorem Layered.nodup_ends (h : Layered rules clauses facts g) :
    (g.edges.map fun edge => (edge.source, edge.target)).Nodup := by
  have hids := g.sound.distinct
  rw [Store.ids, h.nodes_eq, List.map_append, List.map_map, List.nodup_append] at hids
  obtain ⟨hclauses, hfacts, hapart⟩ := hids
  obtain ⟨derived, pairs, hedges, htargets, hpairs, -⟩ := h.edges_eq
  rw [hedges, List.map_append, List.map_map, List.nodup_append]
  refine ⟨?_, ?_, ?_⟩
  · refine List.Nodup.of_map Prod.snd ?_
    rw [List.map_map]
    exact (congrArg List.Nodup htargets).mpr hfacts
  · refine List.pairwise_map.mpr (hpairs.imp fun {pair other} hprecedes heq => ?_)
    obtain ⟨hsource, htarget⟩ := Prod.mk.inj heq
    have hfirst := (getElem_id_inj hclauses).mp hsource
    have hsecond := (getElem_id_inj hclauses).mp htarget
    rcases hprecedes with hlt | ⟨-, hlt⟩
    · exact hlt.ne hfirst
    · exact hlt.ne hsecond
  · rintro ends hderived ends' hciting rfl
    obtain ⟨edge, hedge, rfl⟩ := List.mem_map.mp hderived
    obtain ⟨pair, -, heq⟩ := List.mem_map.mp hciting
    have hfact : edge.target ∈ facts.map Node.id := htargets ▸ List.mem_map_of_mem hedge
    refine hapart edge.target ?_ edge.target hfact rfl
    rw [← (Prod.mk.inj heq).2]
    exact List.mem_map.mpr ⟨clauses[pair.2], List.getElem_mem _, rfl⟩

theorem Layered.nodup_successors (h : Layered rules clauses facts g) (id : String) :
    (g.successors id).Nodup := by
  have hends : ((g.outgoing id).map fun edge => (edge.source, edge.target)).Nodup := by
    rw [g.sound.outgoing_eq]
    exact (List.filter_sublist.map _).nodup h.nodup_ends
  rw [g.sound.successors_eq]
  refine List.pairwise_map.mpr ((List.pairwise_map.mp hends).imp_of_mem ?_)
  intro edge other hedge hother hne htarget
  rw [g.sound.outgoing_eq, List.mem_filter, beq_iff_eq] at hedge hother
  exact hne (Prod.ext (hedge.2.trans hother.2.symm) htarget)

/-- **A finding is repeated only where a condition cites the same unmatched number again.** It is
there as often as its condition cites its number, and every other finding is there once. -/
theorem findings_repeated (document : Document) :
    ∃ contract, compile FactRule.standard document = .ok contract ∧
      let contents := contract.findings.map Finding.content
      let clauseIds := contract.graph.clauses.map (·.id)
      (∀ finding ∈ contract.findings, contents.count finding.content = 1 ∨
        ∃ c ∈ contract.graph.conditions, ∃ reference ∈ c.references,
          finding = unmatchedReference c reference ∧ isMatched clauseIds reference = false ∧
          contents.count finding.content = c.references.count reference) ∧
      (contents.Nodup ↔ ∀ c ∈ contract.graph.conditions, ∀ reference ∈ c.references,
        isMatched clauseIds reference = false → c.references.count reference = 1) := by
  obtain ⟨contract, hcompile, -, -, hlayered, -, hfindings⟩ := compile_standard document
  have hcycles := Graph.nodup_cycles hlayered.nodup_successors
  refine ⟨contract, hcompile, ?_, ?_⟩
  · intro finding hfinding
    rw [hfindings] at hfinding ⊢
    exact count_content_findingsOf hcycles hfinding
  · rw [hfindings]
    exact nodup_findingsOf_iff hcycles

/-- A section that is not there is cited twice by a condition, and so it is reported twice. -/
theorem citation_reported_twice :
    ∃ contract, compile FactRule.standard ⟨"doc.txt",
        "1. Fees\nIf late under Section 9.9 or Section 9.9, the Buyer may cancel."⟩ =
          .ok contract ∧
      ∃ c ∈ contract.graph.conditions,
        (contract.findings.map Finding.content).count (unmatchedReference c "9.9").content = 2 :=
  exists_ok_of_any (by decide +kernel)

end Documents

end ContractAnalysis
