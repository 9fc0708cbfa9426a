import ContractAnalysis.Proofs.Detection.Negation
import ContractAnalysis.Proofs.Detection.Reordering
import ContractAnalysis.Proofs.Shape
import Mathlib.Data.Finset.Card

/-!
# Contradictory obligations

Two obligations contradict each other if they bind one party, exactly one of their actions has the
word `not` and a space in it, and more than half of the words of both actions together are common to
both, negations left out (`Contradict`). There is one finding for each such pair, and the pairs come
in the order of their obligations (`contradictions_listed`). As the word may be the end of a longer
one, and other white space may stand behind it, this is not quite the same as that a negation is
taken out of one of the two actions (`negation_mistaken`).
-/

namespace ContractAnalysis

open Text

/-! ## Pairs of places -/

section Places

variable {n : Nat} {places : List (Fin n)}

theorem mem_pairs_iff (h : places.Pairwise (· < ·)) {i j : Fin n} :
    (i, j) ∈ pairs places ↔ i ∈ places ∧ j ∈ places ∧ i < j := by
  induction h with
  | nil => simp [pairs]
  | @cons first rest hfirst _ ih =>
    rw [pairs, List.mem_append, ih, List.mem_map, List.mem_cons, List.mem_cons]
    constructor
    · rintro (⟨later, hlater, heq⟩ | ⟨hi, hj, hlt⟩)
      · obtain ⟨rfl, rfl⟩ := Prod.mk.inj heq
        exact ⟨.inl rfl, .inr hlater, hfirst _ hlater⟩
      · exact ⟨.inr hi, .inr hj, hlt⟩
    · rintro ⟨rfl | hi, rfl | hj, hlt⟩
      · exact absurd hlt (lt_irrefl _)
      · exact .inl ⟨j, hj, rfl⟩
      · exact absurd (hlt.trans (hfirst i hi)) (lt_irrefl _)
      · exact .inr ⟨hi, hj, hlt⟩

theorem pairwise_pairs (h : places.Pairwise (· < ·)) : (pairs places).Pairwise Precedes := by
  induction h with
  | nil => exact .nil
  | @cons first rest hfirst hrest ih =>
    refine List.pairwise_append.mpr ⟨?_, ih, ?_⟩
    · exact List.pairwise_map.mpr (hrest.imp fun hlt => .inr ⟨rfl, hlt⟩)
    · rintro pair hpair ⟨i, j⟩ hlater
      obtain ⟨later, -, rfl⟩ := List.mem_map.mp hpair
      exact .inl (hfirst i ((mem_pairs_iff hrest).mp hlater).1)

end Places

/-! ## Obligations -/

/-- The action of an obligation in lower case. -/
def Obligation.spelled (o : Obligation) : List Char := lowercaseChars o.action.toList

/-- The words of an action in lower case, negations left out. -/
def Obligation.words (o : Obligation) : Finset (List Char) :=
  (splitBlank (negation.removeAll o.spelled)).toFinset

/-- Two obligations of one party, of which exactly one has a `not` before a space, and more than half
of the words of both are common to both. -/
structure Contradict (o o' : Obligation) : Prop where
  party : lowercase o.party = lowercase o'.party
  negated : Xor ("not ".toList <:+: o.spelled) ("not ".toList <:+: o'.spelled)
  similar : (o.words ∪ o'.words).card < 2 * (o.words ∩ o'.words).card

theorem shareMostWords_iff {left right : List (List Char)} (hleft : left.Nodup)
    (hright : right.Nodup) :
    shareMostWords left right = true ↔
      (left.toFinset ∪ right.toFinset).card < 2 * (left.toFinset ∩ right.toFinset).card := by
  have hcommon : left.toFinset ∩ right.toFinset = (left.filter right.contains).toFinset := by
    ext word
    simp
  have hcards := Finset.card_union_add_card_inter left.toFinset right.toFinset
  rw [hcommon, List.toFinset_card_of_nodup hleft, List.toFinset_card_of_nodup hright,
    List.toFinset_card_of_nodup (hleft.filter _)] at hcards
  rw [hcommon, List.toFinset_card_of_nodup (hleft.filter _), shareMostWords, decide_eq_true_iff]
  omega

theorem contradicts_iff {o o' : Obligation} :
    (Stance.of o).contradicts (Stance.of o') = true ↔ Contradict o o' := by
  have hnegated : (isNegated o.spelled != isNegated o'.spelled) = true ↔
      Xor ("not ".toList <:+: o.spelled) ("not ".toList <:+: o'.spelled) := by
    rw [← isNegated_iff, ← isNegated_iff]
    cases isNegated o.spelled <;> cases isNegated o'.spelled <;> simp [Xor]
  have hwords : ∀ o : Obligation,
      (distinctWords (negation.removeAll o.spelled)).toFinset = o.words := by
    intro o
    ext word
    simp [distinctWords, Obligation.words, List.mem_eraseDups]
  have hnodup : ∀ text, (distinctWords text).Nodup := fun _ => nodup_eraseDups _
  have hsimilar : shareMostWords (distinctWords (negation.removeAll o.spelled))
      (distinctWords (negation.removeAll o'.spelled)) = true ↔
        (o.words ∪ o'.words).card < 2 * (o.words ∩ o'.words).card := by
    rw [shareMostWords_iff (hnodup _) (hnodup _), hwords, hwords]
  have hparts : (Stance.of o).contradicts (Stance.of o') =
      (lowercase o.party == lowercase o'.party && isNegated o.spelled != isNegated o'.spelled &&
        shareMostWords (distinctWords (negation.removeAll o.spelled))
          (distinctWords (negation.removeAll o'.spelled))) := rfl
  rw [hparts, Bool.and_eq_true, Bool.and_eq_true, beq_iff_eq, hnegated, hsimilar]
  exact ⟨fun h => ⟨h.1.1, h.1.2, h.2⟩, fun h => ⟨⟨h.party, h.negated⟩, h.similar⟩⟩

/-! ## Findings -/

/-- **Each pair of contradictory obligations is reported once**, in the order of the obligations. An
action counts as negated if it has a `not` before a space, and loses each whole word `not` with all
white space behind it. The two agree on each action in which every `not` before white space is a
whole word before a space. -/
theorem contradictions_listed (g : Graph) :
    (∃ places : List (Fin g.obligations.length × Fin g.obligations.length),
      places.Pairwise Precedes ∧
      (∀ i j, (i, j) ∈ places ↔ i < j ∧ Contradict g.obligations[i] g.obligations[j]) ∧
      ofKind .contradictoryObligations (findingsOf g) =
        places.map fun (i, j) => contradiction g g.obligations[i] g.obligations[j]) ∧
    ∀ action : List Char, Stripped none action (negation.removeAll action) ∧
      (negation.removeAll action ≠ action ↔ HasNegation action) ∧
      ((∀ before c after, action = before ++ ("not".toList ++ c :: after) → isBlank c = true →
          c = ' ' ∧ IsBoundary before.getLast?) →
        ("not ".toList <:+: action ↔ negation.removeAll action ≠ action)) := by
  have hascending := List.pairwise_lt_finRange g.obligations.length
  refine ⟨⟨(pairs (List.finRange g.obligations.length)).filter fun (i, j) =>
      (Stance.of g.obligations[i]).contradicts (Stance.of g.obligations[j]),
    (pairwise_pairs hascending).filter _, fun i j => ?_, ?_⟩, fun action => ?_⟩
  · simp [List.mem_filter, mem_pairs_iff hascending, contradicts_iff]
  · have hlist : pairs g.obligations =
        (pairs (List.finRange g.obligations.length)).map fun (i, j) =>
          (g.obligations[i], g.obligations[j]) := by
      conv_lhs => rw [← List.map_getElem_finRange g.obligations, pairs_map]
      rfl
    obtain ⟨-, hfindings, -⟩ := ofKind_findingsOf_each g
    rw [hfindings, contradictoryObligations_eq, hlist, List.filter_map, List.map_map]
    rfl
  · exact ⟨stripped_removeAll action, removeAll_ne_iff action,
      fun hwhole => isNegated_iff.symm.trans (isNegated_iff_removeAll_ne hwhole)⟩

/-- An action that is negated and loses its negation, and one that is not. -/
theorem contradictions_listed_goods :
    ∃ g, Projection.graph?
        ⟨[.obligation ⟨"obl_1", "Seller", "deliver goods", none, none, none⟩,
          .obligation ⟨"obl_2", "seller", "not deliver goods", none, none, none⟩], []⟩ = .ok g ∧
      (∃ finding ∈ ofKind .contradictoryObligations (findingsOf g),
        finding.involved = ["obl_1", "obl_2"]) ∧
      negation.removeAll "not deliver goods".toList ≠ "not deliver goods".toList := by
  obtain ⟨g, hg, hfinding⟩ : ∃ g, Projection.graph?
        ⟨[.obligation ⟨"obl_1", "Seller", "deliver goods", none, none, none⟩,
          .obligation ⟨"obl_2", "seller", "not deliver goods", none, none, none⟩], []⟩ = .ok g ∧
      ∃ finding ∈ ofKind .contradictoryObligations (findingsOf g),
        finding.involved = ["obl_1", "obl_2"] := exists_ok_of_any (by decide +kernel)
  obtain ⟨-, hactions⟩ := contradictions_listed g
  obtain ⟨-, -, hagree⟩ := hactions "not deliver goods".toList
  refine ⟨g, hg, hfinding, (hagree fun before c after heq _ => ?_).mp (by decide)⟩
  cases before with
  | nil =>
    have hparts : "not".toList ++ ' ' :: "deliver goods".toList = "not".toList ++ c :: after := heq
    have hrest := List.append_cancel_left hparts
    exact ⟨(List.cons.inj hrest).1.symm, by decide⟩
  | cons x before =>
    -- Only the first letter is an `n`.
    have hrest : "ot deliver goods".toList = before ++ ("not".toList ++ c :: after) :=
      (List.cons.inj heq).2
    have hletter : 'n' ∈ "ot deliver goods".toList := by
      rw [hrest]
      exact List.mem_append_right _ List.mem_cons_self
    exact absurd hletter (by decide)

/-- Two obligations of one party, of which exactly one has the whole word `not` before white space,
and more than half of the words of both are common to both. -/
structure ContradictByWord (o o' : Obligation) : Prop where
  party : lowercase o.party = lowercase o'.party
  negated : Xor (HasNegation o.spelled) (HasNegation o'.spelled)
  similar : (o.words ∪ o'.words).card < 2 * (o.words ∩ o'.words).card

/-- A negation before a tabulator is taken out, but does not count; and a longer word that ends with
`not` counts, though nothing is taken out. -/
theorem negation_mistaken :
    (∃ o o' : Obligation, ContradictByWord o o' ∧ ∃ g,
      Projection.graph? ⟨[.obligation o, .obligation o'], []⟩ = .ok g ∧
        ofKind .contradictoryObligations (findingsOf g) = []) ∧
    ∃ o o' : Obligation, ¬ContradictByWord o o' ∧ ∃ g,
      Projection.graph? ⟨[.obligation o, .obligation o'], []⟩ = .ok g ∧
        ofKind .contradictoryObligations (findingsOf g) ≠ [] := by
  refine ⟨⟨⟨"obl_1", "Seller", "not\tdeliver goods", none, none, none⟩,
      ⟨"obl_2", "Seller", "deliver goods", none, none, none⟩, ⟨rfl, .inl ⟨?_, ?_⟩, ?_⟩,
      exists_ok_of_any (by decide +kernel)⟩,
    ⟨"obl_1", "Seller", "tie a knot in the rope", none, none, none⟩,
    ⟨"obl_2", "Seller", "tie a bow in the rope", none, none, none⟩, fun h => ?_,
    exists_ok_of_any (by decide +kernel)⟩
  · rw [← removeAll_ne_iff]
    decide +kernel
  · rw [← removeAll_ne_iff]
    decide +kernel
  · decide +kernel
  · have hnegated := h.negated
    rw [← removeAll_ne_iff, ← removeAll_ne_iff] at hnegated
    revert hnegated
    decide +kernel

end ContractAnalysis
