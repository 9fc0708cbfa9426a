import ContractAnalysis.Proofs.Extraction
import ContractAnalysis.Proofs.Pattern.Takes
import ContractAnalysis.Proofs.Text.Lines
import Mathlib.Data.List.Forall2

/-!
# The matches behind the facts

A fact keeps the phrases of the match that it was made of, but not the place of the match. A
`Sighting` keeps both; the facts of a contract are those of its sightings, one by one
(`forall₂_sightingsIn`). The phrase by which the line of a fact is found stands where its capture
was opened, on one line (`Sighting.exists_before`).
-/

namespace ContractAnalysis

open Pattern Text

/-- A match of a rule in a clause, with its place. -/
structure Sighting where
  clause : Clause
  rule : FactRule
  found : Match
  phrases : FactMatch

def Sighting.hit (s : Sighting) : Hit := ⟨s.clause, scanLines s.clause, s.rule, s.phrases⟩

def sightingsOf (clause : Clause) (rule : FactRule) : List Sighting :=
  (rule.expression.findAll clause.scanText.toList).filterMap fun m =>
    (FactMatch.ofMatch? m).map fun phrases => ⟨clause, rule, m, phrases⟩

/-- The matches of rules in clauses, in the order in which facts are made of them. -/
def sightingsIn (rules : List FactRule) (clauses : List Clause) : List Sighting :=
  clauses.flatMap fun clause => rules.flatMap (sightingsOf clause)

theorem map_hit_sightingsOf (clause : Clause) (rule : FactRule) :
    (sightingsOf clause rule).map Sighting.hit = hitsOf clause (scanLines clause) rule := by
  rw [sightingsOf, List.map_filterMap, hitsOf]
  refine List.filterMap_congr fun m _ => ?_
  rw [Option.map_map]
  rfl

theorem map_hit_sightingsIn (rules : List FactRule) (clauses : List Clause) :
    (sightingsIn rules clauses).map Sighting.hit = hitsIn rules clauses := by
  simp only [sightingsIn, hitsIn, List.map_flatMap, map_hit_sightingsOf]

theorem forall₂_numberHits (count : FactCount) (hits : List Hit) :
    List.Forall₂ (fun hit fact => ∃ n, Hit.node hit n = fact) hits
      ((numberHits count hits).map fun (hit, n) => hit.node n) := by
  induction hits generalizing count with
  | nil => exact .nil
  | cons hit rest ih => exact .cons ⟨_, rfl⟩ (ih _)

theorem forall₂_sightingsIn (rules : List FactRule) (clauses : List Clause) :
    List.Forall₂ (fun s fact => s ∈ sightingsIn rules clauses ∧ ∃ n, s.hit.node n = fact)
      (sightingsIn rules clauses) (extract rules clauses).nodes := by
  have h := forall₂_numberHits {} (hitsIn rules clauses)
  rw [← map_hit_sightingsIn, List.forall₂_map_left_iff] at h
  rw [List.forall₂_and_left, extract, ← map_hit_sightingsIn]
  exact ⟨fun _ hs => hs, h⟩

theorem mem_of_mem_sightingsIn {rules : List FactRule} {clauses : List Clause} {s : Sighting}
    (h : s ∈ sightingsIn rules clauses) :
    s.clause ∈ clauses ∧ s.rule ∈ rules ∧
      s.found ∈ s.rule.expression.findAll s.clause.scanText.toList ∧
      FactMatch.ofMatch? s.found = some s.phrases := by
  simp only [sightingsIn, sightingsOf, List.mem_flatMap, List.mem_filterMap,
    Option.map_eq_some_iff] at h
  obtain ⟨clause, hclause, rule, hrule, m, hm, phrases, hphrases, rfl⟩ := h
  exact ⟨hclause, hrule, hm, hphrases⟩

theorem exists_sighting_of_mem_nodes {rules : List FactRule} {clauses : List Clause} {fact : Node}
    (h : fact ∈ (extract rules clauses).nodes) :
    ∃ s ∈ sightingsIn rules clauses, ∃ n, s.hit.node n = fact := by
  obtain ⟨hit, n, hentry, rfl⟩ := exists_hit_of_mem_nodes h
  have hmem := fst_mem_of_mem_numberHits hentry
  rw [← map_hit_sightingsIn] at hmem
  obtain ⟨s, hs, rfl⟩ := List.mem_map.mp hmem
  exact ⟨s, hs, n, rfl⟩

/-! ## Anchors -/

/-- The number of the capture that records a phrase. -/
def Anchor.group : Anchor → Nat
  | .first => 1
  | .second => 2

theorem FactMatch.group?_of_ofMatch? {m : Match} {phrases : FactMatch}
    (h : ofMatch? m = some phrases) (anchor : Anchor) :
    m.group? anchor.group = some (phrases.anchored anchor).toList := by
  obtain ⟨first, hfirst, hrest⟩ := Option.bind_eq_some_iff.mp h
  obtain ⟨second, hsecond, heq⟩ := Option.bind_eq_some_iff.mp hrest
  obtain rfl := Option.some.inj heq
  cases anchor with
  | first => rwa [anchored, String.toList_ofList]
  | second => rwa [anchored, String.toList_ofList]

/-- A phrase stands where its capture was opened, and what the pattern goes on with stands behind
it. -/
theorem FactMatch.exists_capture {e : Expression} {text : List Char} {m : Match}
    (hm : m ∈ e.findAll text) {phrases : FactMatch} (hphrases : ofMatch? m = some phrases)
    (anchor : Anchor) {body tail : Pattern}
    (hends : EndsWith (.seq (.capture anchor.group body) tail) e.pattern)
    (hbody : body.avoids anchor.group = true) (htail : tail.avoids anchor.group = true) :
    ∃ place stop inner after, m.opened? anchor.group = some place ∧
      text = Span.text ⟨Cursor.ofChars text, place⟩ ++ (phrases.anchored anchor).toList ++
        stop.rest ∧
      (phrases.anchored anchor).toList = Span.text ⟨place, stop⟩ ∧
      body.Takes e.flags place stop inner ∧ tail.Takes e.flags stop m.stop after := by
  obtain ⟨hleads, htakes⟩ := Expression.takes_of_mem_findAll hm
  obtain ⟨place, stop, inner, after, hplace, hrun, hrest, hopened, htext⟩ :=
    Expression.exists_capture htakes hends hbody htail
  have hphrase : (phrases.anchored anchor).toList = Span.text ⟨place, stop⟩ :=
    Option.some.inj ((group?_of_ofMatch? hphrases _).symm.trans htext)
  refine ⟨place, stop, inner, after, hopened, ?_, hphrase, hrun, hrest⟩
  rw [hphrase, List.append_assoc, Span.text_append_rest hrun.leads,
    Span.text_append_rest (hleads.trans hplace), Cursor.rest_ofChars]

/-- The phrase by which the line is found is a run of characters on one line. -/
structure FactRule.AnchorsRun (rule : FactRule) : Prop where
  oneLine : rule.expression.flags.dotAll = false
  ends : ∃ tail : Pattern, tail.avoids rule.anchor.group = true ∧
    EndsWith (.seq (.capture rule.anchor.group (.plus .lazy (.one .any))) tail)
      rule.expression.pattern

theorem FactRule.anchorsRun_of_mem_standard {rule : FactRule} (h : rule ∈ FactRule.standard) :
    rule.AnchorsRun := by
  rcases mem_standard.mp h with rfl | rfl | rfl
  · exact ⟨rfl, _, rfl, .seq _ (.seq _ (.seq _ (.seq _ .self)))⟩
  · exact ⟨rfl, _, rfl, .seq _ (.seq _ (.seq _ (.seq _ .self)))⟩
  · exact ⟨rfl, _, rfl, .seq _ (.seq _ (.seq _ .self))⟩

namespace Sighting

/-- The phrase by which the line is found. -/
def phrase (s : Sighting) : List Char := (s.phrases.anchored s.rule.anchor).toList

/-- The scanned text before the phrase. -/
def before? (s : Sighting) : Option (List Char) :=
  (s.found.opened? s.rule.anchor.group).map fun place =>
    Span.text ⟨Cursor.ofChars s.clause.scanText.toList, place⟩

/-- The line of the document on which the phrase starts: as many lines after the first line of the
clause as there are line feeds before the phrase. -/
def line? (s : Sighting) : Option Nat := do
  let first ← s.clause.line
  let before ← s.before?
  some (first + before.count '\n')

theorem exists_before {clauses : List Clause} {s : Sighting}
    (h : s ∈ sightingsIn FactRule.standard clauses) :
    ∃ before rest, s.before? = some before ∧
      s.clause.scanText.toList = before ++ s.phrase ++ rest ∧ s.phrase ≠ [] ∧ '\n' ∉ s.phrase := by
  obtain ⟨-, hrule, hfound, hphrases⟩ := mem_of_mem_sightingsIn h
  obtain ⟨hone, tail, htail, hends⟩ := FactRule.anchorsRun_of_mem_standard hrule
  obtain ⟨place, stop, _, _, hopened, htext, hphrase, hrun, -⟩ :=
    FactMatch.exists_capture hfound hphrases s.rule.anchor hends rfl htail
  refine ⟨_, stop.rest, by rw [before?, hopened, Option.map_some], htext, ?_, ?_⟩
  · obtain ⟨c, next, hnext, -, hlater⟩ := hrun.next_of_plus
    rw [phrase, hphrase, Span.text_of_next? hnext hlater]
    exact List.cons_ne_nil _ _
  · rw [phrase, hphrase]
    intro hfeed
    simpa [CharSet.accepts, hone] using hrun.accepts_of_plus '\n' hfeed

end Sighting

end ContractAnalysis
