import ContractAnalysis.Proofs.Sighting
import ContractAnalysis.Proofs.Statement

/-!
# The order of facts

By the standard rules every match becomes a fact, and an edge ties it to the clause that the match
was found in: clause by clause, rule by rule, and from left to right
(`facts_in_order`). Each kind of fact is numbered from 1 on. When clauses follow other clauses their
facts follow as well, and all that changes in them is that the numbers of a kind go on from how many
facts of it there are before (`numberHits_append`).
-/

namespace ContractAnalysis

open Pattern

/-! ## Kinds and ids -/

/-- The kind of node that the facts of a category are. -/
def FactCategory.kind : FactCategory → NodeKind
  | .obligation => .obligation
  | .right => .right
  | .condition => .condition

theorem FactCategory.kind_injective : Function.Injective kind := by
  intro c c' h
  cases c <;> cases c' <;> first | rfl | contradiction

/-- A node under another id. -/
def Node.withId (node : Node) (id : String) : Node :=
  match node with
  | .clause n => .clause { n with id }
  | .obligation n => .obligation { n with id }
  | .right n => .right { n with id }
  | .condition n => .condition { n with id }

/-- The rule makes nodes of the kind of its category, and their ids are all that tells apart those
that it makes of one match. -/
structure FactRule.NumbersOnly (rule : FactRule) : Prop where
  kind : ∀ id phrases line, (rule.build id phrases line).kind = rule.category.kind
  withId : ∀ id id' phrases line,
    (rule.build id phrases line).withId id' = rule.build id' phrases line

theorem FactRule.numbersOnly_of_mem_standard {rule : FactRule} (h : rule ∈ FactRule.standard) :
    rule.NumbersOnly := by
  rcases mem_standard.mp h with rfl | rfl | rfl
  · refine ⟨fun _ _ _ => rfl, fun _ _ _ _ => ?_⟩
    simp only [obligations, buildObligation, Node.withId]
  · exact ⟨fun _ _ _ => rfl, fun _ _ _ _ => rfl⟩
  · exact ⟨fun _ _ _ => rfl, fun _ _ _ _ => rfl⟩

/-! ## Numbers behind others -/

/-- How many facts there are after some matches. -/
def FactCount.after (count : FactCount) (hits : List Hit) : FactCount :=
  hits.foldl (fun count hit => count.add hit.rule.category) count

def countOf (hits : List Hit) (category : FactCategory) : Nat :=
  hits.countP fun hit => hit.rule.category == category

theorem FactCount.get_after (count : FactCount) (hits : List Hit) (category : FactCategory) :
    (count.after hits).get category = countOf hits category + count.get category := by
  induction hits generalizing count with
  | nil => exact (Nat.zero_add _).symm
  | cons hit rest ih =>
    have hstep : (count.after (hit :: rest)).get category =
        ((count.add hit.rule.category).after rest).get category := rfl
    rw [hstep, ih, countOf, countOf, List.countP_cons]
    by_cases hcategory : hit.rule.category = category
    · rw [if_pos (beq_iff_eq.mpr hcategory), ← hcategory, get_add_self]
      omega
    · rw [if_neg (by simpa using hcategory), get_add_of_ne _ hcategory, Nat.add_zero]

/-- A number further on by as many as a category has before. -/
def shifted (before : FactCategory → Nat) (entry : Hit × Nat) : Hit × Nat :=
  (entry.1, before entry.1.rule.category + entry.2)

theorem numberHits_shifted {before : FactCategory → Nat} {count later : FactCount}
    (h : ∀ category, later.get category = before category + count.get category)
    (hits : List Hit) : numberHits later hits = (numberHits count hits).map (shifted before) := by
  induction hits generalizing count later with
  | nil => rfl
  | cons hit rest ih =>
    have hnext : ∀ category, (later.add hit.rule.category).get category =
        before category + (count.add hit.rule.category).get category := by
      intro category
      by_cases hcategory : hit.rule.category = category
      · rw [← hcategory, FactCount.get_add_self, FactCount.get_add_self, h, Nat.add_assoc]
      · rw [FactCount.get_add_of_ne _ hcategory, FactCount.get_add_of_ne _ hcategory, h]
    rw [numberHits, numberHits, List.map_cons, ih hnext, hnext]
    rfl

theorem numberHits_append_after (count : FactCount) (hits others : List Hit) :
    numberHits count (hits ++ others) =
      numberHits count hits ++ numberHits (count.after hits) others := by
  induction hits generalizing count with
  | nil => rfl
  | cons hit rest ih =>
    rw [List.cons_append, numberHits, numberHits, ih, List.cons_append]
    rfl

/-- Behind other matches the numbers of a category go on from how many it has there. -/
theorem numberHits_append (hits others : List Hit) :
    numberHits {} (hits ++ others) =
      numberHits {} hits ++ (numberHits {} others).map (shifted (countOf hits)) := by
  rw [numberHits_append_after, numberHits_shifted (FactCount.get_after {} hits)]

/-! ## Matches and their facts -/

theorem hitsIn_append (rules : List FactRule) (clauses others : List Clause) :
    hitsIn rules (clauses ++ others) = hitsIn rules clauses ++ hitsIn rules others :=
  List.flatMap_append

namespace FactMatch

theorem isSome_ofMatch? {m : Match} (hfirst : (m.group? 1).isSome = true)
    (hsecond : (m.group? 2).isSome = true) : (ofMatch? m).isSome = true := by
  obtain ⟨first, hfirst⟩ := Option.isSome_iff_exists.mp hfirst
  obtain ⟨second, hsecond⟩ := Option.isSome_iff_exists.mp hsecond
  simp [ofMatch?, hfirst, hsecond]

end FactMatch

theorem Expression.IsStatement.isSome_ofMatch? {e : Expression} (he : e.IsStatement)
    {text : List Char} {m : Match} (hm : m ∈ e.findAll text) :
    (FactMatch.ofMatch? m).isSome = true := by
  obtain ⟨verb, hverb, rfl⟩ := he
  have htakes := (takes_of_mem_findAll hm).2
  obtain ⟨_, _, hparty⟩ := FactRule.exists_isPartyAt hverb htakes
  obtain ⟨_, _, _, _, -, -, -, -, hsecond⟩ := exists_capture htakes
    (.seq _ (.seq _ (.seq _ (.seq _ .self)))) rfl rfl
  exact FactMatch.isSome_ofMatch? (by rw [hparty.group]; rfl) (by rw [hsecond]; rfl)

namespace FactRule

theorem isSome_ofMatch?_of_mem_conditions {text : List Char} {m : Match}
    (hm : m ∈ conditionExpression.findAll text) : (FactMatch.ofMatch? m).isSome = true := by
  have htakes := (Expression.takes_of_mem_findAll hm).2
  obtain ⟨_, _, _, _, -, -, -, -, hfirst⟩ := Expression.exists_capture htakes
    (.seq _ (.seq _ (.seq _ .self))) rfl rfl
  obtain ⟨_, _, _, _, -, -, -, -, hsecond⟩ := Expression.exists_capture htakes
    (.seq _ (.seq _ (.seq _ (.seq _ (.seq _ (.seq _ .self)))))) rfl rfl
  exact FactMatch.isSome_ofMatch? (by rw [hfirst]; rfl) (by rw [hsecond]; rfl)

variable {rule : FactRule}

theorem isSome_ofMatch? (h : rule ∈ FactRule.standard) {text : List Char} {m : Match}
    (hm : m ∈ rule.expression.findAll text) : (FactMatch.ofMatch? m).isSome = true := by
  rcases mem_standard.mp h with rfl | rfl | rfl
  · exact isStatement_obligation.isSome_ofMatch? hm
  · exact isStatement_right.isSome_ofMatch? hm
  · exact isSome_ofMatch?_of_mem_conditions hm

theorem consumes_of_mem_standard (h : rule ∈ FactRule.standard) :
    rule.expression.pattern.consumes = true := by
  rcases mem_standard.mp h with rfl | rfl | rfl
  · exact isStatement_obligation.consumes
  · exact isStatement_right.consumes
  · rfl

end FactRule

/-- The matches of a rule in a clause, with the clause and the rule. -/
def matchesOf (clause : Clause) (rule : FactRule) : List (Clause × FactRule × Match) :=
  (rule.expression.findAll clause.scanText.toList).map fun m => (clause, rule, m)

theorem map_sightingsOf {rule : FactRule} (h : rule ∈ FactRule.standard) (clause : Clause) :
    (sightingsOf clause rule).map (fun s => (s.clause, s.rule, s.found)) =
      matchesOf clause rule := by
  rw [sightingsOf, List.map_filterMap, matchesOf, ← List.filterMap_eq_map]
  refine List.filterMap_congr fun m hm => ?_
  obtain ⟨phrases, hphrases⟩ := Option.isSome_iff_exists.mp (FactRule.isSome_ofMatch? h hm)
  rw [hphrases]
  rfl

/-! ## The facts of clauses -/

/-- Facts with their edges, clause by clause, rule by rule and match by match. -/
structure InOrder (clauses : List Clause) (facts : Projection) : Prop where
  /-- Every match of a rule in a clause is behind one fact. -/
  found : (sightingsIn FactRule.standard clauses).map (fun s => (s.clause, s.rule, s.found)) =
    clauses.flatMap fun clause => matchesOf clause FactRule.obligations ++
      matchesOf clause FactRule.rights ++ matchesOf clause FactRule.conditions
  /-- Matches of a rule in a clause do not overlap and come from left to right. -/
  leftToRight : ∀ clause ∈ clauses, ∀ rule ∈ FactRule.standard,
    (rule.expression.findAll clause.scanText.toList).Pairwise fun m later =>
      m.stop.Leads later.start
  nodes : List.Forall₂ (fun s fact => fact.kind = s.rule.category.kind ∧
    ∃ n, s.hit.node n = fact) (sightingsIn FactRule.standard clauses) facts.nodes
  /-- The edge of a fact leads from the clause of its match to the fact. -/
  edges : facts.edges = List.zipWith (fun s fact => ⟨s.clause.id, Node.id fact, .derivedFrom⟩)
    (sightingsIn FactRule.standard clauses) facts.nodes
  length_edges : facts.edges.length = facts.nodes.length
  /-- The facts of a kind are numbered from 1 on. -/
  ids : ∀ category : FactCategory,
    let ofKind := facts.nodes.filter fun fact => fact.kind == category.kind
    ofKind.map Node.id = (List.range' 1 ofKind.length).map category.factId

/-- How many facts of a category there are. -/
def Projection.countOf (facts : Projection) (category : FactCategory) : Nat :=
  facts.nodes.countP fun fact => fact.kind == category.kind

/-- A fact, and the same fact with a number that is further on by as many as there are before. -/
def Node.IsRenumbered (before : FactCategory → Nat) (fact later : Node) : Prop :=
  ∃ category n, fact.kind = FactCategory.kind category ∧ fact.id = category.factId n ∧
    later = fact.withId (category.factId (before category + n))

/-- The edge to a fact, and the same edge to that fact with its later number. -/
def Edge.IsRenumbered (before : FactCategory → Nat) (edge later : Edge) : Prop :=
  ∃ category n, edge.target = FactCategory.factId category n ∧
    later = { edge with target := category.factId (before category + n) }

section Extraction

variable {clauses : List Clause}

theorem rule_mem_of_mem_numberHits {entry : Hit × Nat}
    (h : entry ∈ numberHits {} (hitsIn FactRule.standard clauses)) :
    entry.1.rule ∈ FactRule.standard :=
  (clause_mem_of_mem_numberHits h).2

theorem filter_kind_extract (clauses : List Clause) (category : FactCategory) :
    ((extract FactRule.standard clauses).nodes.filter fun fact => fact.kind == category.kind) =
      ((numberHits {} (hitsIn FactRule.standard clauses)).filter fun entry =>
        entry.1.rule.category == category).map fun (hit, n) => hit.node n := by
  rw [extract, List.filter_map]
  refine congrArg (List.map _) (List.filter_congr fun entry hentry => ?_)
  have hkind : (entry.1.node entry.2).kind = entry.1.rule.category.kind :=
    (FactRule.numbersOnly_of_mem_standard (rule_mem_of_mem_numberHits hentry)).kind _ _ _
  show ((entry.1.node entry.2).kind == category.kind) = _
  rw [hkind, Bool.eq_iff_iff, beq_iff_eq, beq_iff_eq, FactCategory.kind_injective.eq_iff]

theorem length_filter_category (hits : List Hit) (category : FactCategory) :
    ((numberHits {} hits).filter fun entry => entry.1.rule.category == category).length =
      countOf hits category := by
  have h := congrArg List.length (numberHits_filter {} hits category)
  rwa [List.length_map, List.length_range'] at h

theorem countOf_extract (clauses : List Clause) :
    (extract FactRule.standard clauses).countOf = countOf (hitsIn FactRule.standard clauses) := by
  funext category
  rw [Projection.countOf, List.countP_eq_length_filter, filter_kind_extract, List.length_map,
    length_filter_category]

theorem map_id_filter_kind (clauses : List Clause) (category : FactCategory) :
    let ofKind := (extract FactRule.standard clauses).nodes.filter fun fact =>
      fact.kind == category.kind
    ofKind.map Node.id = (List.range' 1 ofKind.length).map category.factId := by
  intro ofKind
  have hids : ∀ entry ∈ (numberHits {} (hitsIn FactRule.standard clauses)).filter fun entry =>
      entry.1.rule.category == category, (entry.1.node entry.2).id = entry.1.factId entry.2 :=
    fun entry hentry => FactRule.keepsId_of_mem_standard
      (rule_mem_of_mem_numberHits (List.mem_of_mem_filter hentry)) _ _ _
  have hofKind : ofKind = _ := filter_kind_extract clauses category
  rw [hofKind, List.length_map, length_filter_category, List.map_map]
  refine (List.map_congr_left hids).trans ?_
  exact map_factId_filter (hitsIn FactRule.standard clauses) category

theorem zipWith_numberHits {rules : List FactRule} (hrules : ∀ rule ∈ rules, rule.KeepsId) :
    ∀ (count : FactCount) (sightings : List Sighting), (∀ s ∈ sightings, s.rule ∈ rules) →
      (numberHits count (sightings.map Sighting.hit)).map (fun (hit, n) => hit.edge n) =
        List.zipWith (fun s fact => ⟨s.clause.id, Node.id fact, .derivedFrom⟩) sightings
          ((numberHits count (sightings.map Sighting.hit)).map fun (hit, n) => hit.node n) := by
  intro count sightings hmem
  induction sightings generalizing count with
  | nil => rfl
  | cons s rest ih =>
    obtain ⟨hs, hrest⟩ := List.forall_mem_cons.mp hmem
    have hedge : ∀ n, s.hit.edge n = ⟨s.clause.id, (s.hit.node n).id, .derivedFrom⟩ := by
      intro n
      rw [show (s.hit.node n).id = s.hit.factId n from hrules s.rule hs _ _ _]
      rfl
    simp only [List.map_cons, numberHits, List.zipWith_cons_cons, ih _ hrest, hedge]

theorem inOrder_extract (clauses : List Clause) :
    InOrder clauses (extract FactRule.standard clauses) where
  found := by
    rw [sightingsIn, List.map_flatMap]
    refine List.flatMap_congr fun clause _ => ?_
    have hrules : (FactRule.standard.flatMap (sightingsOf clause)).map
        (fun s => (s.clause, s.rule, s.found)) = FactRule.standard.flatMap (matchesOf clause) := by
      rw [List.map_flatMap]
      exact List.flatMap_congr fun rule hrule => map_sightingsOf hrule clause
    rw [hrules, FactRule.standard, List.flatMap_cons, List.flatMap_cons, List.flatMap_singleton,
      List.append_assoc]
  leftToRight clause _ rule hrule :=
    Expression.pairwise_findAll (FactRule.consumes_of_mem_standard hrule) _
  nodes := by
    refine (forall₂_sightingsIn FactRule.standard clauses).imp ?_
    rintro s fact ⟨hs, n, rfl⟩
    have hrule := (mem_of_mem_sightingsIn hs).2.1
    exact ⟨(FactRule.numbersOnly_of_mem_standard hrule).kind _ _ _, n, rfl⟩
  edges := by
    have hrules : ∀ s ∈ sightingsIn FactRule.standard clauses, s.rule ∈ FactRule.standard :=
      fun s hs => (mem_of_mem_sightingsIn hs).2.1
    rw [extract, ← map_hit_sightingsIn]
    exact zipWith_numberHits (fun _ => FactRule.keepsId_of_mem_standard) {} _ hrules
  length_edges := by rw [extract, List.length_map, List.length_map]
  ids := map_id_filter_kind clauses

end Extraction

theorem isRenumbered_node {hit : Hit} (hrule : hit.rule ∈ FactRule.standard)
    (before : FactCategory → Nat) (n : Nat) :
    (hit.node n).IsRenumbered before (hit.node (before hit.rule.category + n)) := by
  have hnumbers := FactRule.numbersOnly_of_mem_standard hrule
  exact ⟨hit.rule.category, n, hnumbers.kind _ _ _,
    FactRule.keepsId_of_mem_standard hrule _ _ _, (hnumbers.withId _ _ _ _).symm⟩

/-- **Every match becomes one fact, in order**, and the facts of clauses behind other clauses are the
same facts with numbers that go on from those before. -/
theorem facts_in_order (clauses others : List Clause) :
    let facts := extract FactRule.standard clauses
    InOrder clauses facts ∧
      ∃ later : Projection, extract FactRule.standard (clauses ++ others) =
          ⟨facts.nodes ++ later.nodes, facts.edges ++ later.edges⟩ ∧
        List.Forall₂ (Node.IsRenumbered facts.countOf)
          (extract FactRule.standard others).nodes later.nodes ∧
        List.Forall₂ (Edge.IsRenumbered facts.countOf)
          (extract FactRule.standard others).edges later.edges := by
  intro facts
  have hcount : facts.countOf = countOf (hitsIn FactRule.standard clauses) :=
    countOf_extract clauses
  refine ⟨inOrder_extract clauses, ?_⟩
  let numbered := numberHits {} (hitsIn FactRule.standard others)
  let renumbered := numbered.map (shifted facts.countOf)
  refine ⟨⟨renumbered.map fun (hit, n) => hit.node n, renumbered.map fun (hit, n) => hit.edge n⟩,
    ?_, ?_, ?_⟩
  · rw [extract, hitsIn_append, numberHits_append, ← hcount, List.map_append, List.map_append]
    rfl
  · simp only [extract, List.forall₂_map_left_iff, renumbered, List.forall₂_map_right_iff]
    refine List.forall₂_same.mpr fun entry hentry => ?_
    exact isRenumbered_node (rule_mem_of_mem_numberHits hentry) _ _
  · simp only [extract, List.forall₂_map_left_iff, renumbered, List.forall₂_map_right_iff]
    exact List.forall₂_same.mpr fun entry _ => ⟨entry.1.rule.category, entry.2, rfl, rfl⟩

end ContractAnalysis
