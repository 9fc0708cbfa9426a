import ContractAnalysis.Proofs.Location
import ContractAnalysis.Proofs.Text.Search

/-!
# The line that a fact records

The line of a fact is not the place of its match but looked up again, by the start of a phrase in
lower case: the first line of the clause that shows it is recorded, or else the first line of all
(`Sighting.Records`). That is the line on which the phrase stands, exactly when no earlier line of
the clause shows its start too; only a capital sigma or a carriage return can hide the phrase on its
own line (`facts_recorded`). A phrase that an earlier line repeats has the line of the other one
(`phrase_recorded_elsewhere`).
-/

namespace ContractAnalysis

open Text

namespace Sighting

/-- The start of the phrase, which is looked for. -/
def start (s : Sighting) : List Char := s.phrase.take locatingLength

/-- Whether a line of the clause, counted from 0 on, shows the start of the phrase in lower case. -/
def ShownOn (s : Sighting) (k : Nat) : Prop :=
  ∃ line, (lines s.clause.scanText.toList)[k]? = some line ∧
    lowercaseChars s.start <:+: lowercaseChars line

/-- The start of the phrase neither holds a capital sigma nor ends with a carriage return. -/
def IsPlain (s : Sighting) : Prop := 'Σ' ∉ s.start ∧ s.start.getLast? ≠ some '\r'

/-- A fact records a line of a text, for a phrase of a clause that starts on the line `first`. The
phrase stands on a line of its own, `own` lines further on. -/
structure Records (s : Sighting) (text : String) (fact : Node) (first own : Nat) : Prop where
  made : ∃ n, s.hit.node n = fact
  clause_line : s.clause.line = some first
  own_line : s.line? = some (first + own)
  stands : ∃ line, ⟨first + own, line⟩ ∈ NumberedLine.ofText text.toList ∧ s.phrase <:+: line
  /-- The first line of the clause that shows the phrase is recorded, or the first line of all. -/
  recorded :
    (∃ k, fact.line = some (first + k) ∧ s.ShownOn k ∧ ∀ j < k, ¬s.ShownOn j) ∨
      fact.line = some first ∧ ∀ k, ¬s.ShownOn k
  /-- A plain phrase is shown on its own line, and that line is recorded unless an earlier one shows
  the phrase too. -/
  plain : s.IsPlain → s.ShownOn own ∧
    (fact.line = some (first + own) ↔ ∀ j < own, ¬s.ShownOn j)

theorem shownOn_iff {s : Sighting} {k : Nat} :
    s.ShownOn k ↔ ∃ line, (scanLines s.clause)[k]? = some line ∧
      occursIn (lowercaseChars s.start) line = true := by
  simp only [ShownOn, scanLines, List.getElem?_map, Option.map_eq_some_iff, occursIn_iff]
  constructor
  · rintro ⟨line, hline, hshown⟩
    exact ⟨_, ⟨line, hline, rfl⟩, hshown⟩
  · rintro ⟨-, ⟨line, hline, rfl⟩, hshown⟩
    exact ⟨line, hline, hshown⟩

theorem lineOf_cases (s : Sighting) :
    let k := lineOf (scanLines s.clause) (s.phrases.anchored s.rule.anchor)
    (s.ShownOn k ∧ ∀ j < k, ¬s.ShownOn j) ∨ (k = 0 ∧ ∀ j, ¬s.ShownOn j) := by
  intro k
  have hk : k = ((scanLines s.clause).findIdx? (occursIn (lowercaseChars s.start))).getD 0 := rfl
  cases hfound : (scanLines s.clause).findIdx? (occursIn (lowercaseChars s.start)) with
  | none =>
    refine .inr ⟨by rw [hk, hfound]; rfl, fun j hshown => ?_⟩
    obtain ⟨line, hline, hoccurs⟩ := shownOn_iff.mp hshown
    have hno := List.findIdx?_eq_none_iff.mp hfound line (List.mem_of_getElem? hline)
    simp [hoccurs] at hno
  | some i =>
    obtain rfl : k = i := by rw [hk, hfound, Option.getD_some]
    obtain ⟨hlt, hoccurs, hearlier⟩ := List.findIdx?_eq_some_iff_getElem.mp hfound
    refine .inl ⟨shownOn_iff.mpr ⟨_, List.getElem?_eq_getElem hlt, hoccurs⟩, fun j hj hshown => ?_⟩
    obtain ⟨line, hline, hline'⟩ := shownOn_iff.mp hshown
    obtain ⟨hjlt, rfl⟩ := List.getElem?_eq_some_iff.mp hline
    exact hearlier j hj hline'

/-- A line that shows the phrase is the one looked up, if no earlier line shows the phrase. -/
theorem lineOf_eq_iff {s : Sighting} {own : Nat} (hown : s.ShownOn own) :
    lineOf (scanLines s.clause) (s.phrases.anchored s.rule.anchor) = own ↔
      ∀ j < own, ¬s.ShownOn j := by
  rcases s.lineOf_cases with ⟨hshown, hearlier⟩ | ⟨-, hnone⟩
  · refine ⟨fun heq j hj => hearlier j (heq ▸ hj), fun hfirst => ?_⟩
    rcases lt_trichotomy (lineOf (scanLines s.clause) (s.phrases.anchored s.rule.anchor)) own with
      hlt | heq | hgt
    · exact absurd hshown (hfirst _ hlt)
    · exact heq
    · exact absurd hown (hearlier _ hgt)
  · exact absurd hown (hnone _)

theorem shownOn_of_isPlain {s : Sighting} (hplain : s.IsPlain) {k : Nat} {piece : List Char}
    (hpiece : (pieces s.clause.scanText.toList)[k]? = some piece) (hphrase : s.phrase <:+: piece)
    (hne : s.phrase ≠ []) : s.ShownOn k := by
  obtain ⟨hsigma, hreturn⟩ := hplain
  have hstart : s.start <:+: piece := (List.take_prefix _ _).isInfix.trans hphrase
  have hpiece' : piece ≠ [] := by
    rintro rfl
    exact hne (List.infix_nil.mp hphrase)
  obtain ⟨line, hline, hcut⟩ := exists_line_of_piece hpiece hpiece'
  refine ⟨line, hline, lowercaseChars_infix hsigma ?_⟩
  rcases hcut with rfl | rfl
  · exact hstart
  · exact infix_dropReturn hstart hreturn

end Sighting

theorem exists_records {text : String} {s : Sighting}
    (hs : s ∈ sightingsIn FactRule.standard (clausesOf text)) {fact : Node}
    (hfact : ∃ n, s.hit.node n = fact) : ∃ first own, s.Records text fact first own := by
  obtain ⟨first, hplaced⟩ := exists_isPlaced (mem_of_mem_sightingsIn hs).1
  obtain ⟨before, rest, hbefore, hscan, hne, hfeed⟩ := Sighting.exists_before hs
  obtain ⟨lost, lost', -, -, hpiece⟩ := getElem?_pieces_middle (k := 0) before rest
    (b := s.phrase) (by rw [pieces_of_feed_notMem hfeed]; rfl)
  rw [← hscan, Nat.add_zero] at hpiece
  have hphrase : s.phrase <:+: lost ++ s.phrase ++ lost' := List.infix_append _ _ _
  obtain ⟨line, hline, hinfix⟩ := hplaced.exists_line_of_piece hpiece
  have hfactLine : fact.line = some (first +
      lineOf (scanLines s.clause) (s.phrases.anchored s.rule.anchor)) := by
    obtain ⟨n, rfl⟩ := hfact
    exact line_of_sighting hs hplaced.line_eq n
  refine ⟨first, before.count '\n', hfact, hplaced.line_eq, ?_, ⟨line, hline,
    hphrase.trans hinfix⟩, ?_, fun hplain => ?_⟩
  · rw [Sighting.line?, hplaced.line_eq, hbefore]
    rfl
  · rcases s.lineOf_cases with ⟨hshown, hearlier⟩ | ⟨hzero, hnone⟩
    · exact .inl ⟨_, hfactLine, hshown, hearlier⟩
    · exact .inr ⟨by rw [hfactLine, hzero, Nat.add_zero], hnone⟩
  · have hown := Sighting.shownOn_of_isPlain hplain hpiece hphrase hne
    exact ⟨hown, by rw [hfactLine, Option.some.injEq, Nat.add_left_cancel_iff,
      Sighting.lineOf_eq_iff hown]⟩

/-- **What line a fact records**: every fact is made of a sighting, in their order, and records the
first line of its clause that shows the start of the phrase. -/
theorem facts_recorded (document : Document) :
    ∃ contract, compile FactRule.standard document = .ok contract ∧
      ∃ facts, contract.graph.nodes = contract.clauses.map Node.clause ++ facts ∧
        List.Forall₂ (fun s fact => ∃ first own, s.Records document.content fact first own)
          (sightingsIn FactRule.standard contract.clauses) facts := by
  obtain ⟨contract, hcompile, hclauses, hnodes, -, -⟩ :=
    compile_eq_ok (fun _ => FactRule.keepsId_of_mem_standard) document
  refine ⟨contract, hcompile, _, hnodes, ?_⟩
  rw [hclauses]
  have hmade := forall₂_sightingsIn FactRule.standard (clausesOf document.content)
  exact hmade.imp fun s fact h => exists_records h.1 h.2

/-- The line of another phrase is recorded for `pay.`, that of `pay`. Nor is a phrase found on its
own line where its start ends with a carriage return, or within a word with a capital sigma, which
is then taken for a final one. -/
theorem phrase_recorded_elsewhere :
    (∃ contract, compile FactRule.standard
        ⟨"doc.txt", "The Seller shall pay.\nThe Buyer shall pay."⟩ = .ok contract ∧
      (sightingsIn FactRule.standard contract.clauses).map Sighting.line? = [some 1, some 2] ∧
      contract.graph.obligations.map (·.line) = [some 1, some 1]) ∧
    (∃ contract, compile FactRule.standard
        ⟨"doc.txt", "As agreed,\r\r\nthe Seller shall pay\r\r\nin cash."⟩ = .ok contract ∧
      (sightingsIn FactRule.standard contract.clauses).map Sighting.line? = [some 2] ∧
      contract.graph.obligations.map (·.line) = [some 1]) ∧
    ∃ contract, compile FactRule.standard
        ⟨"doc.txt", "As agreed,\nthe Seller shall deliver the goods to every ΚΟΣΜΟΣ."⟩ =
          .ok contract ∧
      (sightingsIn FactRule.standard contract.clauses).map Sighting.line? = [some 2] ∧
      contract.graph.obligations.map (·.line) = [some 1] := by
  refine ⟨exists_ok_of_any ?_, exists_ok_of_any ?_, exists_ok_of_any ?_⟩
  · decide +kernel
  · decide +kernel
  · decide +kernel

end ContractAnalysis
