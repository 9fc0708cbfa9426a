import ContractAnalysis.Proofs.Detection.Profiles
import ContractAnalysis.Proofs.Detection.Reciprocity
import ContractAnalysis.Proofs.Detection.Unmatched
import ContractAnalysis.Proofs.Graph.CycleGrowth

/-!
# Findings of a graph that grows

A node or an edge that is added changes the findings only where they are about it
(`findings_framed`). Most of what the checks look at stays: the old nodes, the obligations
(`Graph.Keeps`), and the edges that make use of a condition. What is left is one equation for each
check and each kind of growth, by which the findings of that check are filtered or continued.

* `Graph.AddsNode`, `Graph.AddsEdge`: one graph has one more node or edge than another
* `Edge.Uses`: the edges that make use of a condition
* `Graph.FindsUnentitled`, `Graph.FindsUnmatched`, `Edge.Frees`: the findings that a right, a clause
  and an edge take away
-/

namespace ContractAnalysis

/-- An edge makes use of a condition: it leaves the condition and is no derivation, or something
depends on the condition by it. -/
def Edge.Uses (edge : Edge) (id : String) : Prop :=
  edge.source = id ∧ edge.kind ≠ .derivedFrom ∨ edge.target = id ∧ edge.kind = .dependsOn

instance (edge : Edge) (id : String) : Decidable (edge.Uses id) :=
  inferInstanceAs (Decidable (_ ∨ _))

theorem isUsed_iff {g : Graph} {c : Condition} :
    isUsed g c = true ↔ ∃ edge ∈ g.edges, edge.Uses c.id := by
  simp only [isUsed, Bool.or_eq_true, List.any_eq_true, g.sound.outgoing_eq, g.sound.incoming_eq,
    List.mem_filter, bne_iff_ne, beq_iff_eq, and_assoc, ← exists_or, ← and_or_left]
  rfl

/-- The finding is that a condition which the edge makes use of is not used. -/
def Edge.Frees (edge : Edge) (finding : Finding) : Prop :=
  finding.defect = .known .danglingCondition ∧ ∃ id ∈ finding.involved, edge.Uses id

instance (edge : Edge) (finding : Finding) : Decidable (edge.Frees finding) :=
  inferInstanceAs (Decidable (_ ∧ _))

theorem filter_findingsOf {g : Graph} {kind : KnownDefect} {p : Finding → Prop} [DecidablePred p]
    (hp : ∀ finding, p finding → finding.defect = .known kind) :
    ((findingsOf g).filter fun finding => ¬p finding) = (checks g).flatMap fun check =>
      if check.1 = kind then check.2.filter fun finding => ¬p finding else check.2 := by
  rw [findingsOf_eq, List.filter_flatMap]
  refine List.flatMap_congr fun check hcheck => ?_
  split_ifs with hkind
  · rfl
  · refine List.filter_eq_self.mpr fun finding hfinding => decide_eq_true fun hfound => hkind ?_
    exact Defect.known.inj ((defect_of_mem_checks hcheck hfinding).symm.trans (hp finding hfound))

namespace Graph

variable {g g' : Graph}

theorem id_mem_ids_of_obligation {o : Obligation} (h : o ∈ g.obligations) : o.id ∈ g.ids :=
  List.mem_map_of_mem (f := Node.id) (mem_obligations_iff.mp h)

/-- The finding is that a party, whatever the case in which it is spelled, has obligations and no
rights. -/
def FindsUnentitled (g : Graph) (party : String) (finding : Finding) : Prop :=
  finding.defect = .known .missingReciprocity ∧
    ∃ o ∈ g.obligations, o.id ∈ finding.involved ∧ Text.lowercase o.party = Text.lowercase party

instance (party : String) (finding : Finding) : Decidable (g.FindsUnentitled party finding) :=
  inferInstanceAs (Decidable (_ ∧ _))

/-- The finding is that a condition cites a number that is not matched, which is part of an id. -/
def FindsUnmatched (g : Graph) (id : String) (finding : Finding) : Prop :=
  ∃ c ∈ g.conditions, ∃ reference ∈ c.references,
    reference.toList <:+: id.toList ∧ finding = unmatchedReference c reference

instance (id : String) (finding : Finding) : Decidable (g.FindsUnmatched id finding) :=
  inferInstanceAs (Decidable (∃ c ∈ g.conditions, _))

/-- What is found about a condition that nothing makes use of. -/
def findingsAbout (g : Graph) (c : Condition) : List Finding :=
  danglingCondition c ::
    (c.references.filter fun reference => !isMatched (g.clauses.map (·.id)) reference).map
      (unmatchedReference c)

/-! ## What stays -/

/-- The old nodes stay, and there are no new obligations. -/
structure Keeps (g g' : Graph) : Prop where
  node?_eq : ∀ id ∈ g.ids, g'.node? id = g.node? id
  obligations_eq : g'.obligations = g.obligations

namespace Keeps

theorem linesOf_eq (h : g.Keeps g') {ids : List String} (hids : ids ⊆ g.ids) :
    g'.linesOf ids = g.linesOf ids := by
  rw [linesOf, linesOf]
  congr 1
  exact List.filterMap_congr fun id hid => by rw [h.node?_eq id (hids hid)]

theorem contradictoryObligations_eq (h : g.Keeps g') :
    contradictoryObligations g' = contradictoryObligations g := by
  rw [ContractAnalysis.contradictoryObligations_eq, ContractAnalysis.contradictoryObligations_eq,
    h.obligations_eq]
  refine List.map_congr_left fun pair hpair => ?_
  obtain ⟨hfirst, hsecond⟩ := mem_of_mem_pairs (List.mem_of_mem_filter hpair)
  have hids : [pair.1.id, pair.2.id] ⊆ g.ids := by
    simp [id_mem_ids_of_obligation hfirst, id_mem_ids_of_obligation hsecond]
  simp only [contradiction, h.linesOf_eq hids]

theorem orphanedObligations_eq (h : g.Keeps g') :
    orphanedObligations g' = orphanedObligations g := by
  rw [orphanedObligations, orphanedObligations, h.obligations_eq]

theorem missingReciprocity_eq (h : g.Keeps g') (party : String) :
    missingReciprocity g' (groupOf g'.obligations party) =
      missingReciprocity g (groupOf g.obligations party) := by
  have hids : (groupOf g.obligations party).obligations.map (·.id) ⊆ g.ids := by
    intro id hid
    obtain ⟨o, ho, rfl⟩ := List.mem_map.mp hid
    exact id_mem_ids_of_obligation (List.mem_of_mem_filter ho)
  rw [h.obligations_eq]
  simp only [missingReciprocity, h.linesOf_eq hids]

theorem missingReciprocities_eq (h : g.Keeps g') {rights : List Right}
    (hrights : g'.rights = g.rights ++ rights) :
    missingReciprocities g' = (g.unentitledParties.filter fun party =>
      !(rights.map fun r => Text.lowercase r.party).contains party).map fun party =>
        missingReciprocity g (groupOf g.obligations party) := by
  have hparties : g'.unentitledParties = g.unentitledParties.filter fun party =>
      !(rights.map fun r => Text.lowercase r.party).contains party := by
    rw [unentitledParties, unentitledParties, List.filter_filter, h.obligations_eq]
    refine List.filter_congr fun party _ => ?_
    simp [entitledParties, hrights, Bool.and_comm]
  rw [missingReciprocities_eq_map, hparties]
  exact List.map_congr_left fun party _ => h.missingReciprocity_eq party

theorem missingReciprocities_eq_self (h : g.Keeps g') (hrights : g'.rights = g.rights) :
    missingReciprocities g' = missingReciprocities g := by
  rw [h.missingReciprocities_eq (hrights.trans (List.append_nil _).symm),
    missingReciprocities_eq_map]
  simp

end Keeps

theorem danglingConditions_eq_of_isUsed (hconditions : g'.conditions = g.conditions)
    (hused : ∀ c, isUsed g' c = isUsed g c) : danglingConditions g' = danglingConditions g := by
  simp only [danglingConditions, hconditions, hused]

theorem unmatchedReferences_eq_of_clauses (hconditions : g'.conditions = g.conditions)
    (hclauses : g'.clauses = g.clauses) : unmatchedReferences g' = unmatchedReferences g := by
  simp only [unmatchedReferences, hconditions, hclauses]

/-! ## One more node -/

/-- A graph has one more node than another. -/
structure AddsNode (g : Graph) (node : Node) (g' : Graph) : Prop where
  nodes : g'.nodes = g.nodes ++ [node]
  edges : g'.edges = g.edges

theorem exists_addsNode (node : Node) (h : node.id ∉ g.ids) :
    ∃ g', g.addNode node = .ok g' ∧ g.AddsNode node g' := by
  have hfits : (Call.addNode node).fault? g.ids = none := by simpa [Call.fault?] using h
  obtain ⟨g', hg', hnodes, hedges⟩ := perform_of_fits hfits
  exact ⟨g', hg', hnodes, by simpa [Call.edges] using hedges⟩

namespace AddsNode

variable {node : Node}

theorem ids (h : g.AddsNode node g') : g'.ids = g.ids ++ [node.id] := by
  rw [Store.ids, h.nodes, List.map_append, List.map_singleton, Store.ids]

theorem id_notMem (h : g.AddsNode node g') : node.id ∉ g.ids := by
  have hnodup := g'.sound.distinct
  rw [h.ids, List.nodup_append] at hnodup
  exact fun hmem => hnodup.2.2 _ hmem _ (List.mem_singleton_self _) rfl

theorem keeps (h : g.AddsNode node g') (hnode : node.obligation? = none) : g.Keeps g' where
  node?_eq id hid := by
    refine Option.ext fun other => ?_
    rw [g'.sound.node?_eq_some_iff, g.sound.node?_eq_some_iff, h.nodes, List.mem_append,
      List.mem_singleton, or_and_right, or_iff_left]
    rintro ⟨rfl, rfl⟩
    exact h.id_notMem hid
  obligations_eq := by simp [obligations, h.nodes, hnode]

theorem successors_eq (h : g.AddsNode node g') (id : String) :
    g'.successors id = g.successors id := by
  rw [g'.sound.successors_eq, g.sound.successors_eq, g'.sound.outgoing_eq, g.sound.outgoing_eq,
    h.edges]

theorem circularDependencies_eq (h : g.AddsNode node g') (hnode : node.obligation? = none) :
    circularDependencies g' = circularDependencies g := by
  have hnone : g.successors node.id = [] := by
    refine List.eq_nil_iff_forall_not_mem.mpr fun next hnext => h.id_notMem ?_
    exact (mem_successors_iff.mp hnext).mem_ids_source
  rw [circularDependencies, circularDependencies,
    cycles_of_isolated h.ids h.successors_eq hnone]
  refine List.map_congr_left fun cycle hcycle => ?_
  have hids : cycle ⊆ g.ids := by
    intro id hid
    obtain ⟨start, way, rfl, hclosed⟩ := exists_isCycle hcycle
    obtain ⟨next, hjoins⟩ := hclosed.exists_joins hid
    exact hjoins.mem_ids_source
  simp only [circularDependency, (h.keeps hnode).linesOf_eq hids]

theorem isUsed_eq (h : g.AddsNode node g') (c : Condition) : isUsed g' c = isUsed g c := by
  rw [Bool.eq_iff_iff, isUsed_iff, isUsed_iff, h.edges]

end AddsNode

/-! ### A right -/

theorem findsUnentitled_iff {party key : String} (hkey : key ∈ g.unentitledParties) :
    g.FindsUnentitled party (missingReciprocity g (groupOf g.obligations key)) ↔
      key = Text.lowercase party := by
  constructor
  · rintro ⟨-, o, ho, hid, hparty⟩
    exact ((mem_involved_iff ho key).mp hid).symm.trans hparty
  · rintro rfl
    obtain ⟨o, ho, hparty⟩ := exists_obligation_of_mem_unentitledParties hkey
    exact ⟨rfl, o, ho, (mem_involved_iff ho _).mpr hparty, hparty⟩

theorem AddsNode.findingsOf_right {r : Right} (h : g.AddsNode (.right r) g') :
    findingsOf g' =
      (findingsOf g).filter fun finding => ¬g.FindsUnentitled r.party finding := by
  have hkeeps := h.keeps rfl
  have hconditions : g'.conditions = g.conditions := by
    simp [conditions, h.nodes, Node.condition?]
  have hclauses : g'.clauses = g.clauses := by simp [clauses, h.nodes, Node.clause?]
  have hrights : g'.rights = g.rights ++ [r] := by simp [rights, h.nodes, Node.right?]
  have hreciprocity : missingReciprocities g' = (missingReciprocities g).filter
      fun finding => ¬g.FindsUnentitled r.party finding := by
    rw [hkeeps.missingReciprocities_eq hrights, missingReciprocities_eq_map, List.filter_map]
    refine congrArg (List.map _) (List.filter_congr fun key hkey => ?_)
    simp [findsUnentitled_iff hkey]
  rw [filter_findingsOf fun finding hfound => hfound.1]
  simp [checks, findingsOf, h.circularDependencies_eq rfl, hkeeps.contradictoryObligations_eq,
    hkeeps.orphanedObligations_eq, danglingConditions_eq_of_isUsed hconditions h.isUsed_eq,
    hreciprocity, unmatchedReferences_eq_of_clauses hconditions hclauses]

/-! ### A clause -/

theorem findsUnmatched_iff {id : String} {c : Condition} (hc : c ∈ g.conditions)
    {reference : String} (hreference : reference ∈ c.references) :
    g.FindsUnmatched id (unmatchedReference c reference) ↔ Text.contains id reference = true := by
  rw [Text.contains, Text.occursIn_iff]
  constructor
  · rintro ⟨c', hc', other, -, hinfix, heq⟩
    have hid : c.id = c'.id := List.head_eq_of_cons_eq (congrArg Finding.involved heq)
    obtain rfl := eq_of_mem_conditions hc hc' hid
    rwa [unmatchedReference_injective c heq]
  · exact fun hinfix => ⟨c, hc, reference, hreference, hinfix, rfl⟩

theorem AddsNode.findingsOf_clause {clause : Clause} (h : g.AddsNode (.clause clause) g') :
    findingsOf g' =
      (findingsOf g).filter fun finding => ¬g.FindsUnmatched clause.id finding := by
  have hkeeps := h.keeps rfl
  have hconditions : g'.conditions = g.conditions := by
    simp [conditions, h.nodes, Node.condition?]
  have hrights : g'.rights = g.rights := by simp [rights, h.nodes, Node.right?]
  have hclauses : g'.clauses.map (·.id) = g.clauses.map (·.id) ++ [clause.id] := by
    simp [clauses, h.nodes, Node.clause?]
  have hunmatched : unmatchedReferences g' = (unmatchedReferences g).filter
      fun finding => ¬g.FindsUnmatched clause.id finding := by
    rw [unmatchedReferences, unmatchedReferences, hclauses, hconditions, List.filter_flatMap]
    refine List.flatMap_congr fun c hc => ?_
    rw [List.filter_map, List.filter_filter]
    refine congrArg (List.map _) (List.filter_congr fun reference hreference => ?_)
    simp [isMatched, findsUnmatched_iff hc hreference, Bool.and_comm]
  have hkind : ∀ finding, g.FindsUnmatched clause.id finding →
      finding.defect = .known .unmatchedReference := by
    rintro _ ⟨c, -, reference, -, -, rfl⟩
    rfl
  rw [filter_findingsOf hkind]
  simp [checks, findingsOf, h.circularDependencies_eq rfl, hkeeps.contradictoryObligations_eq,
    hkeeps.orphanedObligations_eq, danglingConditions_eq_of_isUsed hconditions h.isUsed_eq,
    hkeeps.missingReciprocities_eq_self hrights, hunmatched]

/-! ### A condition -/

theorem ofKind_findingsAbout (c : Condition) (kind : KnownDefect) :
    ofKind kind (g.findingsAbout c) =
      (if .danglingCondition = kind then [danglingCondition c] else []) ++
        if .unmatchedReference = kind then (g.findingsAbout c).tail else [] := by
  have hunmatched : ∀ finding ∈ (g.findingsAbout c).tail,
      finding.defect = .known .unmatchedReference := by
    intro finding hfinding
    obtain ⟨reference, -, rfl⟩ := List.mem_map.mp hfinding
    rfl
  have hdangling : ∀ finding ∈ [danglingCondition c],
      finding.defect = .known .danglingCondition := by
    simp [danglingCondition, Finding.symbolic]
  rw [← ofKind_of_defect hdangling, ← ofKind_of_defect hunmatched, ← ofKind_append]
  rfl

theorem AddsNode.isUsed_eq_false {c : Condition} (h : g.AddsNode (.condition c) g') :
    isUsed g c = false := by
  rw [Bool.eq_false_iff, ne_eq, isUsed_iff]
  have hid : c.id ∉ g.ids := h.id_notMem
  rintro ⟨edge, hedge, ⟨hsource, -⟩ | ⟨htarget, -⟩⟩
  · exact hid (hsource ▸ g.sound.joined hedge .leaving)
  · exact hid (htarget ▸ g.sound.joined hedge .entering)

theorem AddsNode.findingsOf_condition {c : Condition} (h : g.AddsNode (.condition c) g') :
    findingsOf g' = profiles.flatMap fun profile =>
      ofKind profile.kind (findingsOf g ++ g.findingsAbout c) := by
  have hkeeps := h.keeps rfl
  have hconditions : g'.conditions = g.conditions ++ [c] := by
    simp [conditions, h.nodes, Node.condition?]
  have hrights : g'.rights = g.rights := by simp [rights, h.nodes, Node.right?]
  have hclauses : g'.clauses = g.clauses := by simp [clauses, h.nodes, Node.clause?]
  have hdangling : danglingConditions g' = danglingConditions g ++ [danglingCondition c] := by
    simp [danglingConditions, hconditions, h.isUsed_eq, h.isUsed_eq_false]
  have hunmatched :
      unmatchedReferences g' = unmatchedReferences g ++ (g.findingsAbout c).tail := by
    simp [unmatchedReferences, findingsAbout, hconditions, hclauses]
  obtain ⟨hcircular, hcontradictory, horphaned, hdanglingOf, hreciprocity, hunmatchedOf⟩ :=
    ofKind_findingsOf_each g
  simp only [profiles, List.flatMap_cons, List.flatMap_nil, ofKind_append, hcircular,
    hcontradictory, horphaned, hdanglingOf, hreciprocity, hunmatchedOf]
  simp [findingsOf, ofKind_findingsAbout, h.circularDependencies_eq rfl,
    hkeeps.contradictoryObligations_eq, hkeeps.orphanedObligations_eq, hdangling,
    hkeeps.missingReciprocities_eq_self hrights, hunmatched]

/-! ## One more edge -/

/-- A graph has one more edge than another. -/
structure AddsEdge (g : Graph) (edge : Edge) (g' : Graph) : Prop where
  nodes : g'.nodes = g.nodes
  edges : g'.edges = g.edges ++ [edge]

theorem exists_addsEdge {edge : Edge} (hsource : edge.source ∈ g.ids)
    (htarget : edge.target ∈ g.ids) : ∃ g', g.addEdge edge = .ok g' ∧ g.AddsEdge edge g' := by
  have hfits : (Call.insertEdge edge).fault? g.ids = none :=
    Call.edgeFault?_eq_none_iff.mpr ⟨hsource, htarget⟩
  obtain ⟨g', hg', hnodes, hedges⟩ := perform_of_fits hfits
  exact ⟨g', hg', by simpa [Call.nodes] using hnodes, hedges⟩

namespace AddsEdge

variable {edge : Edge}

theorem keeps (h : g.AddsEdge edge g') : g.Keeps g' where
  node?_eq id _ := by
    refine Option.ext fun other => ?_
    rw [g'.sound.node?_eq_some_iff, g.sound.node?_eq_some_iff, h.nodes]
  obligations_eq := by rw [obligations, obligations, h.nodes]

theorem danglingConditions_eq (h : g.AddsEdge edge g') :
    danglingConditions g' =
      (danglingConditions g).filter fun finding => ¬edge.Frees finding := by
  have hconditions : g'.conditions = g.conditions := by rw [conditions, conditions, h.nodes]
  have hused : ∀ c, isUsed g' c = (isUsed g c || decide (edge.Uses c.id)) := by
    intro c
    rw [Bool.eq_iff_iff, Bool.or_eq_true, decide_eq_true_iff, isUsed_iff, isUsed_iff, h.edges]
    simp [or_and_right, exists_or]
  have hfrees : ∀ c, edge.Frees (danglingCondition c) ↔ edge.Uses c.id := by
    simp [Edge.Frees, danglingCondition, Finding.symbolic]
  rw [danglingConditions, danglingConditions, hconditions, List.filter_map, List.filter_filter]
  refine congrArg (List.map _) (List.filter_congr fun c _ => ?_)
  simp [hused, hfrees, Bool.and_comm]

/-- Whatever is no circular dependency stays, but for the conditions that the edge makes use of. -/
theorem findingsOf_eq (h : g.AddsEdge edge g') :
    findingsOf g' = circularDependencies g' ++
      ((findingsOf g).filter fun finding => ¬edge.Frees finding).filter
        fun finding => finding.defect ≠ .known .circularDependency := by
  have hkeeps := h.keeps
  have hconditions : g'.conditions = g.conditions := by rw [conditions, conditions, h.nodes]
  have hclauses : g'.clauses = g.clauses := by rw [clauses, clauses, h.nodes]
  have hrights : g'.rights = g.rights := by rw [rights, rights, h.nodes]
  have hfirst : findingsOf g' =
      circularDependencies g' ++ (checks g').tail.flatMap Prod.snd := by
    rw [ContractAnalysis.findingsOf_eq]
    rfl
  have hothers : ((findingsOf g).filter fun finding => ¬edge.Frees finding) =
      circularDependencies g ++ (checks g').tail.flatMap Prod.snd := by
    rw [filter_findingsOf fun finding hfrees => hfrees.1]
    simp [checks, hkeeps.contradictoryObligations_eq, hkeeps.orphanedObligations_eq,
      h.danglingConditions_eq, hkeeps.missingReciprocities_eq_self hrights,
      unmatchedReferences_eq_of_clauses hconditions hclauses]
  have hcircular : ((circularDependencies g).filter fun finding =>
      finding.defect ≠ .known .circularDependency) = [] := by
    simp [circularDependencies, circularDependency, Finding.symbolic]
  rw [hothers, List.filter_append, hcircular, List.nil_append, hfirst, List.filter_eq_self.mpr]
  intro finding hfinding
  obtain ⟨check, hcheck, hmem⟩ := List.mem_flatMap.mp hfinding
  have hkind : check.1 ≠ .circularDependency := by
    intro hkind
    have hmem : check.1 ∈ (checks g').tail.map Prod.fst := List.mem_map_of_mem hcheck
    exact (List.nodup_cons.mp (nodup_kinds g')).1 (hkind ▸ hmem)
  rw [decide_eq_true_iff, defect_of_mem_checks (List.mem_of_mem_tail hcheck) hmem]
  exact fun heq => hkind (Defect.known.inj heq)

theorem circularDependencies_ne_nil (h : g.AddsEdge edge g')
    (hcycle : ∃ id way, g.IsCycle id way) : circularDependencies g' ≠ [] := by
  obtain ⟨id, way, hcycle⟩ := hcycle
  rw [circularDependencies, ne_eq, List.map_eq_nil_iff]
  exact cycles_ne_nil_of_edge h.edges fun hnone => cycles_eq_nil_iff_isCycle.mp hnone id way hcycle

theorem infix_of_mem_circularDependencies (h : g.AddsEdge edge g')
    (hnone : ∀ id way, ¬g.IsCycle id way) {finding : Finding}
    (hfinding : finding ∈ circularDependencies g') :
    [edge.source, edge.target] <:+: finding.involved := by
  obtain ⟨cycle, hcycle, rfl⟩ := List.mem_map.mp hfinding
  exact infix_of_mem_cycles h.edges (cycles_eq_nil_iff_isCycle.mpr hnone) hcycle

end AddsEdge

end Graph

theorem ofKind_circularDependency_eq_nil_iff {g : Graph} :
    ofKind .circularDependency (findingsOf g) = [] ↔ ∀ id way, ¬g.IsCycle id way := by
  rw [(ofKind_findingsOf_each g).1, circularDependencies, List.map_eq_nil_iff,
    Graph.cycles_eq_nil_iff_isCycle]

/-- **Findings change only where the graph changes.** A right takes away the finding that its party
has none, and a clause takes away those of the citations that its id matches. A condition adds
nothing but what is found about it, each finding behind those of its check. An edge takes away, of
what is no circular dependency, only that a condition at one of its ends is not used; and in a
graph with a cycle some circular dependency is left, and in one without each new one takes the
edge. -/
theorem findings_framed (g : Graph) :
    (∀ r : Right, r.id ∉ g.ids → ∃ g', g.addNode (.right r) = .ok g' ∧
      findingsOf g' =
        (findingsOf g).filter fun finding => ¬g.FindsUnentitled r.party finding) ∧
    (∀ clause : Clause, clause.id ∉ g.ids → ∃ g', g.addNode (.clause clause) = .ok g' ∧
      findingsOf g' =
        (findingsOf g).filter fun finding => ¬g.FindsUnmatched clause.id finding) ∧
    (∀ c : Condition, c.id ∉ g.ids → ∃ g', g.addNode (.condition c) = .ok g' ∧
      findingsOf g' = profiles.flatMap fun profile =>
        ofKind profile.kind (findingsOf g ++ g.findingsAbout c)) ∧
    (∀ edge : Edge, edge.source ∈ g.ids → edge.target ∈ g.ids →
      ∃ g', g.addEdge edge = .ok g' ∧
        findingsOf g' = ofKind .circularDependency (findingsOf g') ++
          ((findingsOf g).filter fun finding => ¬edge.Frees finding).filter
            (fun finding => finding.defect ≠ .known .circularDependency) ∧
        ((∃ id way, g.IsCycle id way) → ofKind .circularDependency (findingsOf g') ≠ []) ∧
        ((∀ id way, ¬g.IsCycle id way) →
          ∀ finding ∈ ofKind .circularDependency (findingsOf g'),
            [edge.source, edge.target] <:+: finding.involved)) := by
  refine ⟨fun r hr => ?right, fun clause hclause => ?clause, fun c hc => ?condition,
    fun edge hsource htarget => ?edge⟩
  case right =>
    obtain ⟨g', hg', h⟩ := Graph.exists_addsNode (.right r) hr
    exact ⟨g', hg', h.findingsOf_right⟩
  case clause =>
    obtain ⟨g', hg', h⟩ := Graph.exists_addsNode (.clause clause) hclause
    exact ⟨g', hg', h.findingsOf_clause⟩
  case condition =>
    obtain ⟨g', hg', h⟩ := Graph.exists_addsNode (.condition c) hc
    exact ⟨g', hg', h.findingsOf_condition⟩
  case edge =>
    obtain ⟨g', hg', h⟩ := Graph.exists_addsEdge hsource htarget
    refine ⟨g', hg', ?_⟩
    rw [(ofKind_findingsOf_each g').1]
    exact ⟨h.findingsOf_eq, h.circularDependencies_ne_nil,
      fun hnone _ => h.infix_of_mem_circularDependencies hnone⟩

/-- A party without rights, a condition that is not used, and a citation that matches no clause: a
right and a clause take one finding away, and a second condition adds one. An edge takes one away
and closes a cycle, and after another edge there still is a circular dependency. -/
theorem findings_framed_fee :
    let duty : Node := .obligation ⟨"obl_1", "Buyer", "pay the fee", none, none, some 4⟩
    let notice : Node := .condition ⟨"cond_1", "notice is given", "the fee is due", ["2"], some 5⟩
    let right : Right := ⟨"right_1", "BUYER", "use the goods", none, none⟩
    let fees : Clause := ⟨"clause_2", none, "Fees", "The fees.", 1, none, none⟩
    let delay : Condition := ⟨"cond_2", "payment is late", "interest is due", [], some 6⟩
    let edge : Edge := ⟨"cond_1", "obl_1", .dependsOn⟩
    let another : Edge := ⟨"obl_1", "cond_1", .dependsOn⟩
    ∃ g, Projection.graph? ⟨[duty, notice], [⟨"obl_1", "cond_1", .references⟩]⟩ = .ok g ∧
      (findingsOf g).length = 3 ∧
      ("right_1" ∉ g.ids ∧ ∃ g', g.addNode (.right right) = .ok g' ∧ (findingsOf g').length = 2) ∧
      ("clause_2" ∉ g.ids ∧
        ∃ g', g.addNode (.clause fees) = .ok g' ∧ (findingsOf g').length = 2) ∧
      ("cond_2" ∉ g.ids ∧
        ∃ g', g.addNode (.condition delay) = .ok g' ∧ (findingsOf g').length = 4) ∧
      ("cond_1" ∈ g.ids ∧ "obl_1" ∈ g.ids ∧ ∃ g', g.addEdge edge = .ok g' ∧
        (findingsOf g').length = (ofKind .circularDependency (findingsOf g')).length + 2 ∧
        (∀ finding ∈ ofKind .circularDependency (findingsOf g'),
          ["cond_1", "obl_1"] <:+: finding.involved) ∧
        ofKind .circularDependency (findingsOf g') ≠ [] ∧
        ∃ g'', g'.addEdge another = .ok g'' ∧
          ofKind .circularDependency (findingsOf g'') ≠ []) := by
  intro duty notice right fees delay edge another
  obtain ⟨g, hg, hlength, ⟨hright, hentitled⟩, ⟨hclause, hmatched⟩, ⟨hcondition, hmore⟩,
      hsource, htarget, hnone, hfreed, hclosed⟩ :
      ∃ g, Projection.graph? ⟨[duty, notice], [⟨"obl_1", "cond_1", .references⟩]⟩ = .ok g ∧
        (findingsOf g).length = 3 ∧
        ("right_1" ∉ g.ids ∧
          ((findingsOf g).filter fun finding => ¬g.FindsUnentitled "BUYER" finding).length = 2) ∧
        ("clause_2" ∉ g.ids ∧
          ((findingsOf g).filter fun finding => ¬g.FindsUnmatched "clause_2" finding).length = 2) ∧
        ("cond_2" ∉ g.ids ∧ (profiles.flatMap fun profile =>
          ofKind profile.kind (findingsOf g ++ g.findingsAbout delay)).length = 4) ∧
        "cond_1" ∈ g.ids ∧ "obl_1" ∈ g.ids ∧ ofKind .circularDependency (findingsOf g) = [] ∧
        (((findingsOf g).filter fun finding => ¬edge.Frees finding).filter
          fun finding => finding.defect ≠ .known .circularDependency).length = 2 ∧
        (g.addEdge edge).toOption.any (fun g' => decide
          ("obl_1" ∈ g'.ids ∧ "cond_1" ∈ g'.ids ∧
            ofKind .circularDependency (findingsOf g') ≠ [])) = true :=
    exists_ok_of_any (by decide +kernel)
  obtain ⟨hrights, hclauses, hconditions, hedges⟩ := findings_framed g
  refine ⟨g, hg, hlength, ⟨hright, ?_⟩, ⟨hclause, ?_⟩, ⟨hcondition, ?_⟩, hsource, htarget, ?_⟩
  · obtain ⟨g', hg', heq⟩ := hrights right hright
    exact ⟨g', hg', heq ▸ hentitled⟩
  · obtain ⟨g', hg', heq⟩ := hclauses fees hclause
    exact ⟨g', hg', heq ▸ hmatched⟩
  · obtain ⟨g', hg', heq⟩ := hconditions delay hcondition
    exact ⟨g', hg', heq ▸ hmore⟩
  · obtain ⟨g', hg', heq, -, hclosing⟩ := hedges edge hsource htarget
    obtain ⟨g₁, hg₁, hsource', htarget', hsome⟩ := exists_ok_of_any hclosed
    obtain rfl := Except.ok.inj (hg₁.symm.trans hg')
    have hcount := congrArg List.length heq
    rw [List.length_append, hfreed] at hcount
    have hcycle : ∃ id way, g₁.IsCycle id way := by
      by_contra hno
      simp only [not_exists] at hno
      exact hsome (ofKind_circularDependency_eq_nil_iff.mpr hno)
    obtain ⟨g₂, hg₂, -, hkept, -⟩ := (findings_framed g₁).2.2.2 another hsource' htarget'
    exact ⟨g₁, hg', hcount, hclosing (ofKind_circularDependency_eq_nil_iff.mp hnone), hsome, g₂,
      hg₂, hkept hcycle⟩

end ContractAnalysis
