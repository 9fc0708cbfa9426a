import ContractAnalysis.Proofs.CitedClause
import ContractAnalysis.Proofs.Outline
import ContractAnalysis.Proofs.Shape
import ContractAnalysis.Proofs.Sighting

/-!
# Citations of conditions and edges of citations

The two phrases of a condition are joined by a space before the numbers that they cite are read. The
comma between the phrases is lost that way, so that a number at the start of the consequence can be
read as cited by a word that ends the trigger. But for that one number the references of a condition
are those of its trigger and then those of its consequence (`references_of_phrases`).

The edges between clauses are read off the bodies of the clauses. No phrase of a condition ends
within a number, so the scanned text cites what its phrases cite (`mem_citedNumbers_of_phrase`).
Hence where a clause with a body cites a section in a phrase of a condition, an edge leads to that
section (`references_followed`). A clause without a body is scanned for conditions in its title, and
the two phrases of a condition are joined for reading: the numbers that show up only there need not
have an edge (`reference_missed`).
-/

namespace ContractAnalysis

open Pattern Text

/-! ## The references of a condition -/

/-- The number that is read across two phrases when they are joined. -/
def referenceAcross (trigger consequence : String) : Option String :=
  (numberAcross trigger.toList consequence.toList).map String.ofList

theorem citedNumbers_joined (first second : String) :
    citedNumbers (first ++ " " ++ second) = citedNumbers (trim first) ++
      ((referenceAcross (trim first) (trim second)).toList ++ citedNumbers (trim second)) := by
  have hjoined : (first ++ " " ++ second).toList = first.toList ++ ' ' :: second.toList := by simp
  simp only [citedNumbers_eq, hjoined, cited_joined, referenceAcross, trim,
    String.toList_ofList, List.map_append, Option.toList_map]

/-- **The references of a condition are those of its trigger, then those of its consequence**, but
for a number that is read across the two. -/
theorem references_of_phrases (clauses : List Clause) (c : Condition)
    (h : .condition c ∈ (extract FactRule.standard clauses).nodes) :
    c.references = citedNumbers c.trigger ++
        ((referenceAcross c.trigger c.consequence).toList ++ citedNumbers c.consequence) ∧
      (c.references = citedNumbers c.trigger ++ citedNumbers c.consequence ↔
        ∀ number, ¬CitesAcross c.trigger.toList c.consequence.toList number) := by
  obtain ⟨hit, n, hentry, hnode⟩ := exists_hit_of_mem_nodes h
  obtain ⟨-, htrigger, hconsequence, hreferences⟩ :=
    Hit.eq_of_node_condition (clause_mem_of_mem_numberHits hentry).2 hnode
  rw [citedNumbers_joined, ← htrigger, ← hconsequence] at hreferences
  refine ⟨hreferences, ?_⟩
  have hnone : (∀ number, ¬CitesAcross c.trigger.toList c.consequence.toList number) ↔
      referenceAcross c.trigger c.consequence = none := by
    rw [referenceAcross, Option.map_eq_none_iff, Option.eq_none_iff_forall_ne_some]
    exact forall_congr' fun number => not_congr numberAcross_eq_some_iff.symm
  rw [hreferences, List.append_right_inj, List.append_left_eq_self, hnone]
  exact Option.toList_eq_nil_iff

theorem references_of_phrases_both :
    let clause : Clause :=
      { id := "clause_1", title := "Fees", level := 1, parent := none
        body := "If Section 4.2 fails, so does clause 7." }
    let c : Condition :=
      { id := "cond_1", trigger := "Section 4.2 fails", consequence := "so does clause 7."
        references := ["4.2", "7"] }
    .condition c ∈ (extract FactRule.standard [clause]).nodes ∧
      c.references = citedNumbers c.trigger ++
        ((referenceAcross c.trigger c.consequence).toList ++ citedNumbers c.consequence) := by
  intro clause c
  have hfound : .condition c ∈ (extract FactRule.standard [clause]).nodes := by decide +kernel
  exact ⟨hfound, (references_of_phrases [clause] c hfound).1⟩

/-- The trigger ends with the word `section` and the consequence starts with a number. -/
theorem reference_created :
    let clause : Clause :=
      { id := "clause_1", title := "Notice", level := 1, parent := none
        body := "If a notice cites a section, 1 day of grace applies." }
    let c : Condition :=
      { id := "cond_1", trigger := "a notice cites a section"
        consequence := "1 day of grace applies.", references := ["1"] }
    .condition c ∈ (extract FactRule.standard [clause]).nodes ∧
      citedNumbers c.trigger = [] ∧ citedNumbers c.consequence = [] := by
  decide +kernel

/-! ## The phrases of a condition -/

theorem numberTail_of_takes_comma {flags : Flags} {p : Pattern} {a b : Cursor} {marks : List Mark}
    (h : Takes flags (.seq (.one (.only ',')) p) a b marks) : numberTail a.rest = [] := by
  cases h with
  | seq hcomma _ =>
    cases hcomma with
    | one hnext haccepts =>
      obtain rfl := (accepts_only_iff (by decide) (by decide)).mp haccepts
      rw [Cursor.rest_of_next? hnext]
      exact numberTail_eq_nil (by decide) fun hdot => absurd hdot (by decide)

theorem numberTail_of_takes_stop {flags : Flags} {a b : Cursor} {marks : List Mark}
    (h : Takes flags (.alt (.seq (.one (.only '.')) (.one .blank)) .finish) a b marks) :
    numberTail a.rest = [] := by
  cases h with
  | left h =>
    cases h with
    | seq hdot hblank =>
      cases hdot with
      | one hnext haccepts =>
        obtain rfl := (accepts_only_iff (by decide) (by decide)).mp haccepts
        cases hblank with
        | one hnext' hblank =>
          rw [Cursor.rest_of_next? hnext, Cursor.rest_of_next? hnext']
          exact numberTail_eq_nil (by decide) fun _ => not_isDigit_of_isBlank hblank
  | right h =>
    cases h with
    | finish h =>
      simp only [Cursor.atFinish, Bool.or_eq_true, List.isEmpty_iff, Bool.and_eq_true,
        beq_iff_eq] at h
      rcases h with hnil | ⟨-, hfeed⟩
      · rw [hnil, numberTail]
      · obtain ⟨rest, hrest⟩ := List.head?_eq_some_iff.mp hfeed
        rw [hrest]
        exact numberTail_of_isBlank (by decide) rest

theorem mem_citedNumbers_of_phrase {text : String} {m : Match}
    (hm : m ∈ FactRule.conditionExpression.findAll text.toList) {phrases : FactMatch}
    (hphrases : FactMatch.ofMatch? m = some phrases) (anchor : Anchor) {reference : String}
    (h : reference ∈ citedNumbers (Text.trim (phrases.anchored anchor))) :
    reference ∈ citedNumbers text := by
  have hpart : ∃ before after, text.toList = before ++ (phrases.anchored anchor).toList ++ after ∧
      numberTail after = [] := by
    cases anchor with
    | first =>
      obtain ⟨_, _, _, _, -, htext, -, -, hcomma⟩ :=
        FactMatch.exists_capture hm hphrases .first (.seq _ (.seq _ (.seq _ .self))) rfl rfl
      exact ⟨_, _, htext, numberTail_of_takes_comma hcomma⟩
    | second =>
      obtain ⟨_, _, _, _, -, htext, -, -, hstop⟩ := FactMatch.exists_capture hm hphrases .second
        (.seq _ (.seq _ (.seq _ (.seq _ (.seq _ (.seq _ .self)))))) rfl rfl
      exact ⟨_, _, htext, numberTail_of_takes_stop hstop⟩
  obtain ⟨before, after, htext, hafter⟩ := hpart
  rw [mem_citedNumbers_iff, Text.trim, String.toList_ofList, ← (pads_trimChars _).cites_iff] at h
  rw [mem_citedNumbers_iff, htext]
  exact h.append before hafter

/-! ## Where conditions and edges come from -/

theorem exists_match_of_mem_hitsOf {clause : Clause} {lines : List (List Char)} {rule : FactRule}
    {hit : Hit} (h : hit ∈ hitsOf clause lines rule) :
    ∃ m ∈ rule.expression.findAll clause.scanText.toList,
      FactMatch.ofMatch? m = some hit.phrases := by
  obtain ⟨m, hm, hhit⟩ := List.mem_filterMap.mp h
  obtain ⟨phrases, hphrases, rfl⟩ := Option.map_eq_some_iff.mp hhit
  exact ⟨m, hm, hphrases⟩

theorem Layered.exists_match_of_condition {clauses : List Clause} {facts : List Node} {g : Graph}
    (h : Layered FactRule.standard clauses facts g) (hids : (clauses.map Clause.id).Nodup)
    {clause : Clause} (hclause : clause ∈ clauses) {c : Condition} (hc : c ∈ g.conditions)
    (hedge : ⟨clause.id, c.id, .derivedFrom⟩ ∈ g.edges) :
    ∃ m ∈ FactRule.conditionExpression.findAll clause.scanText.toList,
      ∃ phrases, FactMatch.ofMatch? m = some phrases ∧ c.trigger = Text.trim phrases.first ∧
        c.consequence = Text.trim phrases.second ∧
        c.references = citedNumbers (phrases.first ++ " " ++ phrases.second) := by
  have hfact : .condition c ∈ facts := by
    simpa [h.conditions_eq, Node.condition?_eq_some_iff] using hc
  obtain ⟨other, hother, ⟨hit, n, hentry, hhit, hnode⟩, hincoming⟩ := h.incoming_fact _ hfact
  have hsame : clause = other := by
    have hmem : ⟨clause.id, c.id, .derivedFrom⟩ ∈ g.incoming c.id := by
      rw [g.sound.incoming_eq]
      exact List.mem_filter.mpr ⟨hedge, beq_self_eq_true _⟩
    rw [Node.id] at hincoming
    rw [hincoming, List.mem_singleton, Edge.mk.injEq] at hmem
    exact List.inj_on_of_nodup_map hids hclause hother hmem.1
  subst hsame
  obtain ⟨m, hm, hphrases⟩ := exists_match_of_mem_hitsOf hhit
  obtain ⟨hrule, htrigger, hconsequence, hreferences⟩ :=
    Hit.eq_of_node_condition (clause_mem_of_mem_numberHits hentry).2 hnode
  rw [hrule] at hm
  exact ⟨m, hm, hit.phrases, hphrases, htrigger, hconsequence, hreferences⟩

theorem mem_citations_of_number {clauses : List Clause} {a b : Clause} (ha : a ∈ clauses)
    (hb : b ∈ clauses) (hne : b.id ≠ a.id) {reference : String}
    (hcited : reference ∈ citedNumbers a.body) (hnumber : b.sectionNumber = some reference) :
    (a.id, b.id) ∈ citations clauses :=
  mem_citations_iff.mpr ⟨a, ha, b, hb, hne.symm, .inr ⟨reference, hcited, hnumber⟩, rfl⟩

/-! ## Documents -/

/-- **Where a clause with a body cites a section in a phrase of a condition, an edge leads to the
section.** The other numbers of a condition are read across its two phrases. -/
theorem references_followed (document : Document) :
    ∃ contract, compile FactRule.standard document = .ok contract ∧
      ∀ a ∈ contract.clauses, ∀ c ∈ contract.graph.conditions,
        ⟨a.id, c.id, .derivedFrom⟩ ∈ contract.graph.edges → ∀ reference ∈ c.references,
          (reference ∈ citedNumbers c.trigger ∨ reference ∈ citedNumbers c.consequence ∨
            CitesAcross c.trigger.toList c.consequence.toList reference.toList) ∧
          (a.body ≠ "" → reference ∈ citedNumbers c.trigger ∨
              reference ∈ citedNumbers c.consequence →
            ∀ b ∈ contract.clauses, b.id ≠ a.id → b.sectionNumber = some reference →
              ⟨a.id, b.id, .references⟩ ∈ contract.graph.edges) := by
  obtain ⟨contract, hcompile, hclauses, hnumbered, hlayered, hedges, -⟩ := compile_standard document
  refine ⟨contract, hcompile, fun a ha c hc hfound reference hreference => ?_⟩
  obtain ⟨m, hm, phrases, hphrases, htrigger, hconsequence, hreferences⟩ :=
    hlayered.exists_match_of_condition (List.nodup_append.mp hnumbered.distinct).1 ha hc hfound
  refine ⟨?_, fun hbody hcited b hb hne hnumber => ?_⟩
  · have hjoined : Cites (phrases.first.toList ++ ' ' :: phrases.second.toList)
        reference.toList := by
      rw [hreferences, mem_citedNumbers_iff] at hreference
      simpa using hreference
    rw [htrigger, hconsequence, mem_citedNumbers_iff, mem_citedNumbers_iff]
    simpa only [Text.trim, String.toList_ofList] using hjoined.of_joined
  · have hscanned : reference ∈ citedNumbers a.scanText := by
      rw [htrigger, hconsequence] at hcited
      rcases hcited with htrigger | hconsequence
      · exact mem_citedNumbers_of_phrase hm hphrases .first htrigger
      · exact mem_citedNumbers_of_phrase hm hphrases .second hconsequence
    rw [scanText_eq_body (hclauses ▸ ha) hbody] at hscanned
    rw [hedges]
    exact List.mem_append_right _ (List.mem_map.mpr
      ⟨_, mem_citations_of_number ha hb hne hscanned hnumber, rfl⟩)

/-- Whether the graph lacks an edge to a section that a condition of another clause cites. -/
def CompiledContract.MissesReference (contract : CompiledContract) : Prop :=
  ∃ a ∈ contract.clauses, ∃ c ∈ contract.graph.conditions,
    ⟨a.id, c.id, .derivedFrom⟩ ∈ contract.graph.edges ∧ ∃ reference ∈ c.references,
      ∃ b ∈ contract.clauses, b.id ≠ a.id ∧ b.sectionNumber = some reference ∧
        ⟨a.id, b.id, .references⟩ ∉ contract.graph.edges

/-- The heading of a clause without a body cites a section; and the word before a number is the last
one of the trigger, with the number at the start of the consequence. -/
theorem reference_missed :
    (∃ contract, compile FactRule.standard ⟨"doc.txt",
        "1. Scope\nAll goods.\n2. If late under Section 1, the Buyer may cancel."⟩ = .ok contract ∧
      contract.MissesReference) ∧
    ∃ contract, compile FactRule.standard ⟨"doc.txt",
        "1. Scope\nAll goods.\n2. Fees\nIf a notice cites a section, 1 day of grace applies."⟩ =
          .ok contract ∧
      contract.MissesReference := by
  unfold CompiledContract.MissesReference
  exact ⟨exists_ok_of_any (by decide +kernel), exists_ok_of_any (by decide +kernel)⟩

end ContractAnalysis
