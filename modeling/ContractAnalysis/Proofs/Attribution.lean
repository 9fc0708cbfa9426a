import ContractAnalysis.Proofs.Compilation
import ContractAnalysis.Proofs.Detection.Kinds
import ContractAnalysis.Proofs.Graph.Reads
import ContractAnalysis.Proofs.Sighting
import ContractAnalysis.Proofs.Statement

/-!
# Whose statements the obligations and rights are

Every obligation and every right that is extracted names a party and says something of it
(`statements_attributed`). The party is a whole word of the scanned text, so it is not blank, and no
compiled contract has an obligation without a party. What is said of the party is trimmed, not empty
and on one line: the scanned text does not end with white space, hence the phrase that is captured
has more than white space.
-/

namespace ContractAnalysis

open Pattern Text

theorem Clause.exists_scanText (clause : Clause) :
    ∃ cs, clause.scanText.toList = trimChars cs := by
  unfold scanText trim
  dsimp only
  split <;> exact ⟨_, String.toList_ofList⟩

/-! ## Parties and what is said of them -/

/-- A trimmed text on one line that is not empty. -/
structure IsPhrase (said : String) : Prop where
  ne_empty : said ≠ ""
  starts : ∀ c ∈ said.toList.head?, isBlank c = false
  ends : ∀ c ∈ said.toList.getLast?, isBlank c = false
  oneLine : '\n' ∉ said.toList

theorem isPhrase_trim {said : String} {c : Char} (hc : c ∈ said.toList) (hblank : isBlank c = false)
    (hline : '\n' ∉ said.toList) : IsPhrase (trim said) where
  ne_empty h := by
    refine trimChars_ne_nil hc hblank ?_
    simpa [trim] using congrArg String.toList h
  starts := by
    rw [trim, String.toList_ofList]
    exact not_isBlank_head?_trimChars _
  ends := by
    rw [trim, String.toList_ofList]
    exact not_isBlank_getLast?_trimChars _
  oneLine := by
    rw [trim, String.toList_ofList]
    exact fun hfeed => hline ((pads_trimChars _).isInfix.subset hfeed)

namespace Sighting

/-- A party is the word that a match captures first: a run of word characters of the scanned text
that cannot be made longer. -/
structure NamesParty (s : Sighting) (party : String) : Prop where
  ne_empty : party ≠ ""
  isWord : ∀ c ∈ party.toList, isWord c = true
  stands : ∃ place after, s.found.opened? 1 = some place ∧
    let before := Span.text ⟨Cursor.ofChars s.clause.scanText.toList, place⟩
    s.clause.scanText.toList = before ++ party.toList ++ after ∧
      IsBoundary before.getLast? ∧ IsBoundary after.head?

theorem NamesParty.not_isBlankText {s : Sighting} {party : String} (h : s.NamesParty party) :
    isBlankText party = false := by
  obtain ⟨c, hc⟩ := List.exists_mem_of_ne_nil party.toList (by simpa using h.ne_empty)
  rw [isBlankText, List.all_eq_false]
  exact ⟨c, hc, by simp [not_isBlank_of_isWord (h.isWord c hc)]⟩

section Statements

variable {clauses : List Clause} {s : Sighting}

theorem namesParty (h : s ∈ sightingsIn FactRule.standard clauses)
    (hstatement : s.rule.expression.IsStatement) : s.NamesParty (trim s.phrases.first) := by
  obtain ⟨-, -, hfound, hphrases⟩ := mem_of_mem_sightingsIn h
  obtain ⟨verb, hverb, hexpression⟩ := hstatement
  rw [hexpression] at hfound
  obtain ⟨place, stop, hparty, hbefore⟩ := FactRule.exists_party_of_mem_findAll hverb hfound
  have hfirst : s.phrases.first.toList = Span.text ⟨place, stop⟩ :=
    Option.some.inj ((FactMatch.group?_of_ofMatch? hphrases .first).symm.trans hparty.group)
  obtain ⟨_, hword⟩ := hparty.word
  have hchars := hword.accepts_of_plus
  have htrim : (trim s.phrases.first).toList = Span.text ⟨place, stop⟩ := by
    rw [trim, String.toList_ofList, hfirst]
    exact trimChars_eq_self
      (fun c hc => not_isBlank_of_isWord (hchars c (List.mem_of_mem_head? hc)))
      fun c hc => not_isBlank_of_isWord (hchars c (List.mem_of_mem_getLast? hc))
  have hleads := (Expression.takes_of_mem_findAll hfound).1.trans hparty.leads
  refine ⟨fun hempty => ?_, fun c hc => hchars c (htrim ▸ hc), place, stop.rest, hparty.opened,
    ?_, ?_, hparty.isBoundary_after⟩
  · obtain ⟨c, next, hnext, -, hlater⟩ := hword.next_of_plus
    rw [hempty, String.toList_empty, Span.text_of_next? hnext hlater] at htrim
    exact absurd htrim.symm (List.cons_ne_nil _ _)
  · rw [htrim, List.append_assoc, Span.text_append_rest hword.leads, Span.text_append_rest hleads,
      Cursor.rest_ofChars]
  · exact (Cursor.before_of_leads_ofChars hleads) ▸ hbefore

theorem isPhrase_said (h : s ∈ sightingsIn FactRule.standard clauses)
    (hstatement : s.rule.expression.IsStatement) : IsPhrase (trim s.phrases.second) := by
  obtain ⟨-, -, hfound, hphrases⟩ := mem_of_mem_sightingsIn h
  obtain ⟨verb, -, hexpression⟩ := hstatement
  rw [hexpression] at hfound
  obtain ⟨hleads, hmatch⟩ := Expression.matchAt_of_mem_findAll hfound
  have hends : ∀ c ∈ s.found.start.rest.getLast?, isBlank c = false := by
    intro c hc
    obtain ⟨cs, hcs⟩ := s.clause.exists_scanText
    refine not_isBlank_getLast?_trimChars cs c ?_
    rw [← hcs, ← Cursor.rest_ofChars s.clause.scanText.toList, ← Span.text_append_rest hleads,
      List.getLast?_append, Option.mem_def.mp hc]
    rfl
  obtain ⟨place, stop, hsaid⟩ := FactRule.exists_isSaidAt hmatch hends
  have hsecond : s.phrases.second.toList = Span.text ⟨place, stop⟩ :=
    Option.some.inj ((FactMatch.group?_of_ofMatch? hphrases .second).symm.trans hsaid.group)
  obtain ⟨_, hline⟩ := hsaid.line
  obtain ⟨c, next, hnext, hblank⟩ := hsaid.starts
  obtain ⟨c', next', hnext', -, hlater⟩ := hline.next_of_plus
  obtain ⟨rfl, rfl⟩ := Prod.mk.inj (Option.some.inj (hnext.symm.trans hnext'))
  refine isPhrase_trim ?_ hblank fun hfeed => ?_
  · rw [hsecond, Span.text_of_next? hnext hlater]
    exact List.mem_cons_self
  · rw [hsecond] at hfeed
    exact absurd (hline.accepts_of_plus '\n' hfeed) (by decide)

end Statements

end Sighting

/-! ## Obligations and rights -/

/-- Whom an obligation or a right is about, and what it says. -/
def Node.statement? : Node → Option (String × String)
  | .obligation o => some (o.party, o.action)
  | .right r => some (r.party, r.entitlement)
  | _ => none

theorem Hit.of_statement? {hit : Hit} {n : Nat} {party said : String}
    (hrule : hit.rule ∈ FactRule.standard)
    (h : (hit.node n).statement? = some (party, said)) :
    hit.rule.expression.IsStatement ∧ party = trim hit.phrases.first ∧
      said = trim hit.phrases.second := by
  rcases FactRule.mem_standard.mp hrule with hrule | hrule | hrule
  · rw [Hit.node, hrule] at h
    obtain ⟨rfl, rfl⟩ := Prod.mk.inj (Option.some.inj h)
    exact ⟨hrule ▸ FactRule.isStatement_obligation, rfl, rfl⟩
  · rw [Hit.node, hrule] at h
    obtain ⟨rfl, rfl⟩ := Prod.mk.inj (Option.some.inj h)
    exact ⟨hrule ▸ FactRule.isStatement_right, rfl, rfl⟩
  · rw [Hit.node, hrule] at h
    contradiction

theorem Sighting.of_statement? {clauses : List Clause} {s : Sighting}
    (h : s ∈ sightingsIn FactRule.standard clauses) {n : Nat} {party said : String}
    (hnode : (s.hit.node n).statement? = some (party, said)) :
    s.NamesParty party ∧ IsPhrase said := by
  have hrule : s.hit.rule ∈ FactRule.standard := (mem_of_mem_sightingsIn h).2.1
  obtain ⟨hstatement, rfl, rfl⟩ := Hit.of_statement? hrule hnode
  exact ⟨namesParty h hstatement, isPhrase_said h hstatement⟩

theorem not_isBlankText_party {clauses : List Clause} {o : Obligation}
    (h : .obligation o ∈ (extract FactRule.standard clauses).nodes) :
    isBlankText o.party = false := by
  obtain ⟨s, hs, n, hnode⟩ := exists_sighting_of_mem_nodes h
  have hstatement : (s.hit.node n).statement? = some (o.party, o.action) := by rw [hnode]; rfl
  exact (Sighting.of_statement? hs hstatement).1.not_isBlankText

/-- **Every obligation and every right is attributed**: its party is a whole word of the scanned text,
and what it says is a phrase on one line. So no contract has an obligation without a party. -/
theorem statements_attributed (clauses : List Clause) (document : Document) :
    List.Forall₂ (fun s fact => (∃ n, s.hit.node n = fact) ∧
        ∀ party said, fact.statement? = some (party, said) → s.NamesParty party ∧ IsPhrase said)
      (sightingsIn FactRule.standard clauses) (extract FactRule.standard clauses).nodes ∧
    ∃ contract, compile FactRule.standard document = .ok contract ∧
      ∀ finding ∈ contract.findings, finding.defect ≠ .known .orphanedObligation := by
  constructor
  · refine (forall₂_sightingsIn FactRule.standard clauses).imp ?_
    rintro s fact ⟨hs, n, rfl⟩
    exact ⟨⟨n, rfl⟩, fun party said hstatement => Sighting.of_statement? hs hstatement⟩
  · obtain ⟨contract, hcompile, -, hnodes, -, hfindings⟩ :=
      compile_eq_ok (fun _ => FactRule.keepsId_of_mem_standard) document
    refine ⟨contract, hcompile, fun finding hfinding hdefect => ?_⟩
    have hcheck : (KnownDefect.orphanedObligation, orphanedObligations contract.graph) ∈
        checks contract.graph := by
      simp [checks]
    rw [hfindings, mem_findingsOf_iff hcheck hdefect] at hfinding
    obtain ⟨o, ho, -⟩ := List.mem_map.mp hfinding
    obtain ⟨hmem, hblank⟩ := List.mem_filter.mp ho
    have hnode := Graph.mem_obligations_iff.mp hmem
    rw [hnodes, List.mem_append] at hnode
    rcases hnode with hclause | hfact
    · obtain ⟨clause, -, hclause⟩ := List.mem_map.mp hclause
      contradiction
    · rw [not_isBlankText_party hfact] at hblank
      contradiction

end ContractAnalysis
