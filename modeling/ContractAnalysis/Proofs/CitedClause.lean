import ContractAnalysis.Proofs.CitedTitle
import ContractAnalysis.Proofs.Compilation
import ContractAnalysis.Proofs.Text.DottedNumber
import ContractAnalysis.Proofs.Text.Words

/-!
# Cited clauses

A clause cites another by its number or by its title (`Clause.Cites`), and an assembled graph has an
edge from each clause to each other clause that it cites (`edges_of_assemble`). A number is cited as
a whole: each place with a word, white space and a digit behind cites the longest number there, so
that `4.2` leads neither to `4` nor to `42` or `4.2.1` (`numbers_cited`). Of a title nothing is asked
but that the text goes on with it: a title that another title starts with is cited with it
(`titles_cited`).
-/

namespace ContractAnalysis

open Text

/-! ## Citations between clauses -/

/-- The body of a clause cites the title of another, if that is not blank. -/
def Clause.CitesTitleOf (a b : Clause) : Prop :=
  trimChars b.title.toList ≠ [] ∧
    ∃ after, CitesTitle a.body.toList (trimChars b.title.toList) after

/-- The body of a clause cites the number of another. -/
def Clause.CitesNumberOf (a b : Clause) : Prop :=
  ∃ number ∈ citedNumbers a.body, b.sectionNumber = some number

def Clause.Cites (a b : Clause) : Prop := a.CitesTitleOf b ∨ a.CitesNumberOf b

instance (a b : Clause) : Decidable (a.CitesTitleOf b) := decidable_of_iff _ isTitleIn_iff

instance (a b : Clause) : Decidable (a.CitesNumberOf b) :=
  inferInstanceAs (Decidable (∃ number ∈ citedNumbers a.body, b.sectionNumber = some number))

theorem isNumberIn_iff {a b : Clause} :
    b.citationName.isNumberIn (Cited.ofText a.body) = true ↔ a.CitesNumberOf b := by
  simp [CitationName.isNumberIn, Clause.citationName, Cited.ofText, Clause.CitesNumberOf,
    Option.any_eq_true, and_comm]

theorem isCitedIn_iff {a b : Clause} :
    b.citationName.isCitedIn (Cited.ofText a.body) = true ↔ a.Cites b := by
  rw [CitationName.isCitedIn, Bool.or_eq_true, isTitleIn_iff, isNumberIn_iff]
  rfl

theorem mem_citations_iff {clauses : List Clause} {pair : String × String} :
    pair ∈ citations clauses ↔
      ∃ a ∈ clauses, ∃ b ∈ clauses, a.id ≠ b.id ∧ a.Cites b ∧ pair = (a.id, b.id) := by
  simp only [citations, citedBy, List.mem_flatMap, List.mem_map, List.mem_filter,
    Bool.and_eq_true, bne_iff_ne]
  constructor
  · rintro ⟨a, ha, id, ⟨name, ⟨⟨b, hb, rfl⟩, hne, hcited⟩, rfl⟩, rfl⟩
    exact ⟨a, ha, b, hb, hne, isCitedIn_iff.mp hcited, rfl⟩
  · rintro ⟨a, ha, b, hb, hne, hcites, rfl⟩
    exact ⟨a, ha, b.id, ⟨_, ⟨⟨b, hb, rfl⟩, hne, isCitedIn_iff.mpr hcites⟩, rfl⟩, rfl⟩

theorem id_mem_citations_iff {clauses : List Clause} (hids : (clauses.map Clause.id).Nodup)
    {a b : Clause} (ha : a ∈ clauses) (hb : b ∈ clauses) :
    (a.id, b.id) ∈ citations clauses ↔ a.id ≠ b.id ∧ a.Cites b := by
  rw [mem_citations_iff]
  constructor
  · rintro ⟨a', ha', b', hb', hne, hcites, heq⟩
    obtain ⟨hsource, htarget⟩ := Prod.mk.inj heq
    obtain rfl := List.inj_on_of_nodup_map hids ha ha' hsource
    obtain rfl := List.inj_on_of_nodup_map hids hb hb' htarget
    exact ⟨hne, hcites⟩
  · rintro ⟨hne, hcites⟩
    exact ⟨a, ha, b, hb, hne, hcites, rfl⟩

theorem mem_map_citationEdge_iff {pairs : List (String × String)} {source target : String} :
    ⟨source, target, .references⟩ ∈ pairs.map citationEdge ↔ (source, target) ∈ pairs := by
  rw [List.mem_map]
  constructor
  · rintro ⟨⟨source', target'⟩, hpair, heq⟩
    obtain ⟨rfl, rfl, -⟩ := Edge.mk.inj heq
    exact hpair
  · exact fun hpair => ⟨_, hpair, rfl⟩

theorem edges_of_assemble {clauses : List Clause} {facts : Projection} {g : Graph}
    (h : assemble clauses facts = .ok g) :
    ∃ added, g.edges = facts.edges ++ added ∧
      (∀ edge ∈ added, ∃ a ∈ clauses, ∃ b ∈ clauses, edge = ⟨a.id, b.id, .references⟩) ∧
      ∀ a ∈ clauses, ∀ b ∈ clauses,
        ⟨a.id, b.id, .references⟩ ∈ added ↔ a.id ≠ b.id ∧ a.Cites b := by
  obtain ⟨hfits, -, hedges⟩ := assemble_eq_ok_iff.mp h
  have hids : (clauses.map Clause.id).Nodup := by
    have hdistinct := hfits.distinct
    rw [Projection.ids, List.map_append, List.map_map] at hdistinct
    exact (List.nodup_append.mp hdistinct).1
  refine ⟨_, hedges, fun edge hedge => ?_, fun a ha b hb => ?_⟩
  · obtain ⟨pair, hpair, rfl⟩ := List.mem_map.mp hedge
    obtain ⟨a, ha, b, hb, -, -, rfl⟩ := mem_citations_iff.mp hpair
    exact ⟨a, ha, b, hb, rfl⟩
  · rw [mem_map_citationEdge_iff, id_mem_citations_iff hids ha hb]

/-- In the graph of a document an edge of this kind leads from each clause to each other clause that
it cites, and there is no other one between clauses. -/
theorem compile_citations (document : Document) :
    ∃ contract, compile FactRule.standard document = .ok contract ∧
      contract.clauses = clausesOf document.content ∧
      ∀ a ∈ contract.clauses, ∀ b ∈ contract.clauses,
        ⟨a.id, b.id, .references⟩ ∈ contract.graph.edges ↔ a.id ≠ b.id ∧ a.Cites b := by
  have hrules : ∀ rule ∈ FactRule.standard, rule.KeepsId :=
    fun _ => FactRule.keepsId_of_mem_standard
  obtain ⟨contract, hcompile, hclauses, -, hedges, -⟩ := compile_eq_ok hrules document
  refine ⟨contract, hcompile, hclauses, fun a ha b hb => ?_⟩
  have hids : (contract.clauses.map Clause.id).Nodup :=
    hclauses ▸ (List.nodup_append.mp (numbered_extract hrules document.content).distinct).1
  have hfact : ⟨a.id, b.id, .references⟩ ∉ (extract FactRule.standard contract.clauses).edges := by
    intro hmem
    obtain ⟨entry, -, heq⟩ := List.mem_map.mp hmem
    have hkind : EdgeKind.derivedFrom = .references := congrArg Edge.kind heq
    contradiction
  rw [hedges, List.mem_append, or_iff_right hfact, mem_map_citationEdge_iff,
    id_mem_citations_iff hids ha hb]

/-! ## By number -/

/-- At a place of a text stands one of the words, and behind white space a number. -/
def CitesAt (cs : List Char) (place : Nat) (number : List Char) : Prop :=
  ∃ word gap rest, cs.drop place = word ++ (gap ++ rest) ∧ IsCitingWord word ∧ gap ≠ [] ∧
    IsBlankText gap ∧ IsLongestNumber number rest

theorem citesAt_iff {cs number : List Char} {place : Nat} :
    CitesAt cs place number ↔ citation? (cs.drop place) = some number := by
  rw [citation?_eq_some_iff]
  constructor
  · rintro ⟨word, gap, rest, heq, hword, hne, hgap, hnumber⟩
    obtain ⟨after, rfl⟩ := hnumber.starts
    exact ⟨word, gap, after, heq, hword, hne, hgap, number?_eq_some_iff_isLongest.mpr hnumber⟩
  · rintro ⟨word, gap, after, heq, hword, hne, hgap, hnumber⟩
    exact ⟨word, gap, _, heq, hword, hne, hgap, number?_eq_some_iff_isLongest.mp hnumber⟩

/-- The places of a text that cite numbers, with the numbers. -/
def citingPlaces (cs : List Char) : List (Nat × List Char) :=
  (List.range (cs.length + 1)).filterMap fun place =>
    (citation? (cs.drop place)).map fun number => (place, number)

theorem pairwise_citingPlaces (cs : List Char) :
    (citingPlaces cs).Pairwise fun entry later => entry.1 < later.1 := by
  refine List.pairwise_filterMap.mpr (List.pairwise_lt_range.imp fun hlt => ?_)
  intro entry hentry later hlater
  obtain ⟨number, -, rfl⟩ := Option.map_eq_some_iff.mp hentry
  obtain ⟨number', -, rfl⟩ := Option.map_eq_some_iff.mp hlater
  exact hlt

theorem mem_citingPlaces {cs number : List Char} {place : Nat} :
    (place, number) ∈ citingPlaces cs ↔ CitesAt cs place number := by
  rw [citesAt_iff, citingPlaces, List.mem_filterMap]
  constructor
  · rintro ⟨place', -, heq⟩
    obtain ⟨number', hnumber, hpair⟩ := Option.map_eq_some_iff.mp heq
    obtain ⟨rfl, rfl⟩ := Prod.mk.inj hpair
    exact hnumber
  · intro h
    refine ⟨place, List.mem_range.mpr ?_, by rw [h]; rfl⟩
    -- Behind the text nothing is cited.
    by_contra hbehind
    rw [List.drop_eq_nil_of_le (by omega)] at h
    simp [citation?, citingWords] at h

theorem citedNumbers_eq_map_citingPlaces (text : String) :
    citedNumbers text = (citingPlaces text.toList).map fun entry => String.ofList entry.2 := by
  have htails : ∀ cs : List Char, cs.tails = (List.range (cs.length + 1)).map cs.drop :=
    fun cs => List.ext_getElem (by simp) (by simp)
  rw [citedNumbers_eq, cited, htails, List.filterMap_map, citingPlaces, List.map_filterMap,
    List.map_filterMap]
  refine List.filterMap_congr fun place _ => ?_
  rw [Option.map_map]
  rfl

/-- **Numbers are cited as a whole.** Each place of a text with one of the words, white space and a
digit behind cites the longest dotted number there, and no other place cites one; the numbers are
listed in the order of their places. So where no title is cited, an edge leads from a clause to
another exactly where the body of the first cites the number of the second. -/
theorem numbers_cited :
    (∀ text : String, ∃ places : List (Nat × List Char),
      citedNumbers text = places.map (fun entry => String.ofList entry.2) ∧
      places.Pairwise (fun entry later => entry.1 < later.1) ∧
      (∀ place number, (place, number) ∈ places ↔ CitesAt text.toList place number) ∧
      ∀ place word gap rest, text.toList.drop place = word ++ (gap ++ rest) → IsCitingWord word →
        gap ≠ [] → IsBlankText gap → rest.head?.any isDigit = true →
        ∃ number, (place, number) ∈ places ∧ IsLongestNumber number rest) ∧
    ∀ (clauses : List Clause) (facts : Projection),
      (∀ a ∈ clauses, ∀ b ∈ clauses, a.id ≠ b.id → ¬a.CitesTitleOf b) →
      ((∃ g, assemble clauses facts = .ok g) ↔
        Projection.Fits ⟨clauses.map Node.clause ++ facts.nodes, facts.edges⟩) ∧
      ∀ g, assemble clauses facts = .ok g → ∃ added, g.edges = facts.edges ++ added ∧
        (∀ edge ∈ added, ∃ a ∈ clauses, ∃ b ∈ clauses, edge = ⟨a.id, b.id, .references⟩) ∧
        ∀ a ∈ clauses, ∀ b ∈ clauses, a.id ≠ b.id →
          (⟨a.id, b.id, .references⟩ ∈ added ↔
            ∃ number ∈ citedNumbers a.body, b.sectionNumber = some number) := by
  constructor
  · intro text
    refine ⟨citingPlaces text.toList, citedNumbers_eq_map_citingPlaces text,
      pairwise_citingPlaces _, fun place number => mem_citingPlaces, ?_⟩
    intro place word gap rest heq hword hne hgap hdigit
    obtain ⟨number, hnumber⟩ := exists_isLongestNumber hdigit
    exact ⟨number, mem_citingPlaces.mpr ⟨word, gap, rest, heq, hword, hne, hgap, hnumber⟩, hnumber⟩
  · intro clauses facts huncited
    refine ⟨exists_assemble_iff, fun g hg => ?_⟩
    obtain ⟨added, hedges, hclauses, hadded⟩ := edges_of_assemble hg
    refine ⟨added, hedges, hclauses, fun a ha b hb hne => ?_⟩
    rw [hadded a ha b hb, and_iff_right hne]
    exact or_iff_right (huncited a ha b hb hne)

/-- Of the clauses 4, 42, 4.2.1 and 4.2 the last one is cited. -/
theorem numbers_cited_subsection :
    let clause id number title body : Clause :=
      { id, number := some number, title, body, level := 1, parent := none }
    let clauses := [clause "clause_1" "4" "Fees" "All fees.",
      clause "clause_2" "42" "Term" "One year.", clause "clause_3" "4.2.1" "Due date" "Monday.",
      clause "clause_4" "4.2" "Payment" "In cash.",
      clause "clause_5" "5" "Notice" "See\nSECTION\n4.2.)"]
    citedNumbers "See\nSECTION\n4.2.)" = ["4.2"] ∧
      ∃ g, assemble clauses ⟨[], []⟩ = .ok g ∧ g.edges = [⟨"clause_5", "clause_4", .references⟩] ∧
        ∀ a ∈ clauses, ∀ b ∈ clauses, a.id ≠ b.id →
          (⟨a.id, b.id, .references⟩ ∈ g.edges ↔
            ∃ number ∈ citedNumbers a.body, b.sectionNumber = some number) := by
  intro clause clauses
  obtain ⟨-, hassemble⟩ := numbers_cited
  obtain ⟨-, hedges⟩ := hassemble clauses ⟨[], []⟩ (by decide +kernel)
  obtain ⟨g, hg, hedge⟩ : ∃ g, assemble clauses ⟨[], []⟩ = .ok g ∧
      g.edges = [⟨"clause_5", "clause_4", .references⟩] :=
    exists_ok_of_any (by decide +kernel)
  obtain ⟨added, hadded, -, hcites⟩ := hedges g hg
  rw [List.nil_append] at hadded
  exact ⟨by decide +kernel, g, hg, hedge, hadded ▸ hcites⟩

/-! ## By title -/

/-- Where a title ends with a word character, the word does not go on behind it. -/
def EndsWhole (title after : List Char) : Prop :=
  (∀ c ∈ title.getLast?, isWord c = true) → IsBoundary after.head?

/-- The body of a clause cites the title of another, and somewhere as a whole. -/
def Clause.CitesWholeTitleOf (a b : Clause) : Prop :=
  trimChars b.title.toList ≠ [] ∧
    ∃ after, CitesTitle a.body.toList (trimChars b.title.toList) after ∧
      EndsWhole (trimChars b.title.toList) after

instance (title after : List Char) : Decidable (EndsWhole title after) :=
  decidable_of_iff (title.getLast?.all isWord = true → IsBoundary after.head?) (by
    rw [EndsWhole, Option.all_eq_true]
    rfl)

instance (a b : Clause) : Decidable (a.CitesWholeTitleOf b) :=
  if hne : trimChars b.title.toList = [] then
    isFalse fun h => h.1 hne
  else
    decidable_of_iff _ ((and_iff_right hne).trans
      (exists_citesTitle_iff hne (not_isBlank_head?_trimChars _) _)).symm

/-- **Titles need not be cited as a whole.** Where a clause does not cite the number of another, an
edge leads to the other exactly where the body of the first has one of the words, white space and
the title of the other, in any case and with whatever comes behind. So with a title every title is
cited that it starts with. -/
theorem titles_cited (clauses : List Clause) (facts : Projection) (g : Graph)
    (h : assemble clauses facts = .ok g) :
    ∃ added, g.edges = facts.edges ++ added ∧
      ∀ a ∈ clauses, ∀ b ∈ clauses, a.id ≠ b.id → ¬a.CitesNumberOf b →
        (⟨a.id, b.id, .references⟩ ∈ added ↔ a.CitesTitleOf b) ∧
        ∀ c : Clause, a.CitesTitleOf c → trimChars b.title.toList ≠ [] →
          (trimChars b.title.toList).map fold <+: (trimChars c.title.toList).map fold →
          ⟨a.id, b.id, .references⟩ ∈ added := by
  obtain ⟨added, hedges, -, hadded⟩ := edges_of_assemble h
  refine ⟨added, hedges, fun a ha b hb hne hnumber => ?_⟩
  have hedge : ⟨a.id, b.id, .references⟩ ∈ added ↔ a.CitesTitleOf b := by
    rw [hadded a ha b hb, and_iff_right hne]
    exact or_iff_left hnumber
  refine ⟨hedge, fun c hc htitle hstarts => hedge.mpr ⟨htitle, ?_⟩⟩
  obtain ⟨-, after, hcites⟩ := hc
  exact hcites.of_prefix hstarts

/-- A title that is cited as a whole, in other case. -/
theorem titles_cited_payment :
    let clauses : List Clause := [.leveled "clause_1" "Payment" "In cash." 1 none,
      .leveled "clause_2" "Term" "See section PAYMENT." 1 none]
    ∃ g, assemble clauses ⟨[], []⟩ = .ok g ∧ ⟨"clause_2", "clause_1", .references⟩ ∈ g.edges := by
  intro clauses
  obtain ⟨g, hg⟩ : ∃ g, assemble clauses ⟨[], []⟩ = .ok g :=
    exists_assemble_iff.mpr ⟨by decide, by simp⟩
  obtain ⟨added, hedges, hcites⟩ := titles_cited clauses ⟨[], []⟩ g hg
  obtain ⟨hedge, -⟩ := hcites (.leveled "clause_2" "Term" "See section PAYMENT." 1 none)
    (by simp [clauses]) (.leveled "clause_1" "Payment" "In cash." 1 none) (by simp [clauses])
    (by decide) (by decide +kernel)
  refine ⟨g, hg, ?_⟩
  rw [hedges]
  exact hedge.mpr (by decide +kernel)

/-- The title of the first clause is the start of that of the second, which is cited: both get an
edge, though nothing cites the title of the first as a whole. -/
theorem title_cited_within_word :
    ∃ contract, compile FactRule.standard
        ⟨"doc.txt", "1. Pay\nThe fee.\n2. Payment\nIn cash.\n3. Term\nSee Section Payment."⟩ =
          .ok contract ∧
      ∃ a ∈ contract.clauses, ∃ b ∈ contract.clauses, a.id ≠ b.id ∧ ¬a.CitesNumberOf b ∧
        ⟨a.id, b.id, .references⟩ ∈ contract.graph.edges ∧ ¬a.CitesWholeTitleOf b :=
  exists_ok_of_any (by decide +kernel)

end ContractAnalysis
