import ContractAnalysis.Proofs.ArticleLabel
import ContractAnalysis.Proofs.CitedClause

/-!
# Cited labels

The label of a clause is a dotted number, or the word `article`, white space and a numeral. A dotted
number is what the clause is cited by. So is the numeral of an article if its digits stand behind a
space. A numeral with letters is none that a text can cite, so that such an article is cited by its
title only (`labels_cited`).
-/

namespace ContractAnalysis

open Pattern Text

/-- The word `article` in any case, white space, and a numeral. -/
structure IsArticleLabel (label gap numerals : List Char) : Prop where
  eq : ∃ word, label = word ++ (gap ++ numerals) ∧ word.map fold = "article".toList
  gap_ne_nil : gap ≠ []
  gap : IsBlankText gap
  numerals_ne_nil : numerals ≠ []
  numerals : ∀ c ∈ numerals, Heading.isNumeral c = true

/-- A text has one of the words, white space and a number that goes on neither as a word nor with a
dot and a digit. -/
def CitesNumeral (cs numeral : List Char) : Prop :=
  ∃ before word gap after, cs = before ++ (word ++ (gap ++ (numeral ++ after))) ∧
    IsCitingWord word ∧ gap ≠ [] ∧ IsBlankText gap ∧ IsBoundary after.head? ∧
    ¬∃ digit rest, after = '.' :: digit :: rest ∧ isDigit digit = true

/-! ## What labels look like -/

theorem isDottedNumber_of_takes_digits {flags : Flags} {a b : Cursor} {marks : List Mark}
    (h : Takes flags digits a b marks) : IsDottedNumber (Span.text ⟨a, b⟩) := by
  obtain ⟨digit, next, hnext, -, hleads⟩ := h.next_of_plus
  refine isDottedNumber_of_isDigit ?_ h.accepts_of_plus
  rw [Span.text_of_next? hnext hleads]
  exact List.cons_ne_nil _ _

section Dots

variable {flags : Flags} {a b : Cursor} {marks : List Mark} {number : List Char}

theorem isDottedNumber_append_dotDigits (h : Takes flags dotDigits a b marks)
    (hnumber : IsDottedNumber number) : IsDottedNumber (number ++ Span.text ⟨a, b⟩) := by
  cases h with
  | seq hdot hdigits =>
    cases hdot with
    | one hnext haccepts =>
      obtain rfl := (accepts_only_iff (by decide) (by decide)).mp haccepts
      obtain ⟨digit, later, hlater, -, hleads⟩ := hdigits.next_of_plus
      rw [Span.text_of_next? hnext hdigits.leads]
      refine hnumber.append_dot ?_ hdigits.accepts_of_plus
      rw [Span.text_of_next? hlater hleads]
      exact List.cons_ne_nil _ _

theorem isDottedNumber_append_star {appetite : Appetite}
    (h : Takes flags (star appetite dotDigits) a b marks) (hnumber : IsDottedNumber number) :
    IsDottedNumber (number ++ Span.text ⟨a, b⟩) := by
  generalize hp : star appetite dotDigits = p at h
  induction h generalizing number with
  | none => simpa [Span.text] using hnumber
  | more hround hrest _ ih =>
    obtain ⟨rfl, rfl⟩ := Pattern.star.inj hp
    rw [← Cursor.text_append hround.leads hrest.leads, ← List.append_assoc]
    exact ih (isDottedNumber_append_dotDigits hround hnumber) rfl
  | nothing | one | wordBoundary | start | finish | seq | left | right | present | absent | plus
  | capture => cases hp

end Dots

namespace Heading

theorem isDottedNumber_of_ofLine? {line : List Char} {heading : Heading}
    (h : ofLine? line = some heading)
    (hdotted : startsWith "article".toList heading.number.toList = false) :
    IsDottedNumber heading.number.toList := by
  simp only [ofLine?] at h
  split at h
  · next number title hparts =>
    obtain rfl := Option.some.inj h
    rw [String.toList_ofList]
    rcases Option.or_eq_some_iff.mp hparts with hparts | ⟨-, hparts⟩
    · obtain ⟨-, place, stop, inner, htakes, rfl⟩ := parts?_number (.seq _ .self) rfl rfl hparts
      cases htakes with
      | seq hdigits hdots =>
        rw [← Cursor.text_append hdigits.leads hdots.leads]
        exact isDottedNumber_append_star hdots (isDottedNumber_of_takes_digits hdigits)
    · obtain ⟨-, place, stop, inner, htakes, rfl⟩ := parts?_number (.seq _ .self) rfl rfl hparts
      cases htakes with
      | seq hdigits hrest =>
        cases hrest with
        | seq hdot hdots =>
          rw [← Cursor.text_append hdigits.leads (hdot.leads.trans hdots.leads),
            ← Cursor.text_append hdot.leads hdots.leads, ← List.append_assoc]
          exact isDottedNumber_append_star hdots (isDottedNumber_append_dotDigits hdot
            (isDottedNumber_of_takes_digits hdigits))
  · obtain ⟨⟨number, title⟩, hparts, rfl⟩ := Option.map_eq_some_iff.mp h
    obtain ⟨-, place, stop, inner, htakes, rfl⟩ := parts?_number (.seq _ .self) rfl rfl hparts
    have hnumber : (String.ofList (Span.text ⟨place, stop⟩)).toList = Span.text ⟨place, stop⟩ :=
      String.toList_ofList
    have hword := (congrArg _ hnumber).trans (startsWith_article htakes)
    exact absurd (hdotted.symm.trans hword) Bool.false_ne_true

end Heading

theorem isLabel_of_mem_clausesOf {text : String} {clause : Clause} (h : clause ∈ clausesOf text)
    {label : String} (hlabel : clause.number = some label) :
    IsDottedNumber label.toList ∨ ∃ gap numerals, IsArticleLabel label.toList gap numerals := by
  obtain ⟨line, hline, heading, hheading, hnumber, -⟩ :=
    exists_heading_of_mem_clausesOf (hasHeading_of_number h hlabel) h
  obtain rfl : label = heading.number := Option.some.inj (hlabel.symm.trans hnumber)
  cases harticle : startsWith "article".toList heading.number.toList with
  | false => exact .inl (Heading.isDottedNumber_of_ofLine? hheading harticle)
  | true =>
    obtain ⟨numerals, separators, hcut⟩ :=
      Heading.isArticleLine_of_ofLine? (feed_notMem_of_mem_lines hline) hheading harticle
    obtain ⟨word, gap, hparts, hword, hne, hgap⟩ := hcut.label
    exact .inr ⟨gap, numerals, ⟨word, hparts, hword⟩, hne, hgap, hcut.numerals_ne, hcut.numerals⟩

/-! ## By what labels are cited -/

section SectionNumber

open Clause

variable {clause : Clause} {label : String}

theorem sectionNumber_of_number (h : clause.number = some label) {number : List Char}
    (hnumber : withoutArticle (trimChars label.toList) = number) (hne : number ≠ []) :
    clause.sectionNumber = some (String.ofList number) := by
  have hempty : number.isEmpty = false := List.isEmpty_eq_false_iff.mpr hne
  rw [sectionNumber, h, Option.bind_eq_bind, Option.bind_some]
  simp only [hnumber, hempty]
  rfl

theorem sectionNumber_of_isDottedNumber (h : clause.number = some label)
    (hlabel : IsDottedNumber label.toList) : clause.sectionNumber = some label := by
  obtain ⟨first, rest, heq, hfirst⟩ := hlabel.exists_digit
  obtain ⟨last, hlast, hlastDigit⟩ := hlabel.exists_digit_last
  have htrim : trimChars label.toList = label.toList := by
    refine trimChars_eq_self (fun c hc => ?_) fun c hc => ?_
    · rw [heq] at hc
      exact Option.mem_some.mp hc ▸ not_isBlank_of_isDigit hfirst
    · rw [hlast] at hc
      exact Option.mem_some.mp hc ▸ not_isBlank_of_isDigit hlastDigit
  have hwhole : withoutArticle label.toList = label.toList := by
    refine if_neg fun hword => ?_
    -- The first character is a digit, and so no letter.
    have hlatin : ¬IsLatin first := fun hlatin => by simp [hlatin.not_isDigit] at hfirst
    have hhead := congrArg List.head? hword
    rw [heq] at hhead
    have ha : first = 'a' := (toLower_eq_self hlatin).symm.trans (Option.some.inj hhead)
    have hletter : IsLatin 'a' := by
      rw [IsLatin]
      decide
    exact hlatin (ha ▸ hletter)
  rw [sectionNumber_of_number h ((congrArg withoutArticle htrim).trans hwhole)
    (heq ▸ List.cons_ne_nil first rest), String.ofList_toList]

section Article

variable {gap numerals : List Char} (hlabel : IsArticleLabel label.toList gap numerals)
include hlabel

theorem IsArticleLabel.trimChars_eq {before : List Char} (hbefore : IsBlankText before) :
    trimChars (before ++ numerals) = numerals := by
  have hnumeral : ∀ c ∈ numerals, isBlank c = false := fun c hc =>
    not_isBlank_of_isWord (Heading.isWord_of_isNumeral (hlabel.numerals c hc))
  have hpads : Pads numerals (before ++ numerals) :=
    ⟨before, [], by simp, hbefore, by simp [IsBlankText]⟩
  rw [← hpads.trimChars_eq, trimChars_eq_self fun c hc => hnumeral c (List.mem_of_mem_head? hc)]
  exact fun c hc => hnumeral c (List.mem_of_mem_getLast? hc)

theorem IsArticleLabel.withoutArticle_eq :
    withoutArticle (trimChars label.toList) =
      if gap.head? = some ' ' then numerals else label.toList := by
  obtain ⟨word, heq, hword⟩ := hlabel.eq
  obtain ⟨c, gap, rfl⟩ := List.exists_cons_of_ne_nil hlabel.gap_ne_nil
  obtain ⟨hc, hgap⟩ := List.forall_mem_cons.mp hlabel.gap
  have hlatin : ∀ x ∈ word, IsLatin x := isLatin_of_map_fold hword (by decide)
  have hlength : word.length = 7 := by simpa using congrArg List.length hword
  have htrim : trimChars label.toList = label.toList := by
    obtain ⟨first, word, rfl⟩ := List.exists_cons_of_ne_nil (l := word) (by rintro rfl; contradiction)
    rw [heq]
    refine trimChars_eq_self (fun x hx => ?_) fun x hx => ?_
    · rw [← Option.mem_some.mp hx]
      exact (hlatin first List.mem_cons_self).not_isBlank
    · rw [← List.append_assoc, List.getLast?_append_of_ne_nil _ hlabel.numerals_ne_nil] at hx
      exact not_isBlank_of_isWord
        (Heading.isWord_of_isNumeral (hlabel.numerals x (List.mem_of_mem_getLast? hx)))
  have hlower : word.map Char.toLower = "article".toList := by
    rw [← hword]
    refine List.map_congr_left fun x hx => ?_
    have hmem : fold x ∈ "article".toList := hword ▸ List.mem_map_of_mem hx
    refine toLower_eq_fold (hlatin x hx) (fun hs => ?_) fun hk => ?_
    · exact absurd (hs ▸ hmem) (by decide)
    · exact absurd (hk ▸ hmem) (by decide)
  have hblank : c.toLower = c :=
    toLower_eq_self fun hletter => Bool.false_ne_true (hletter.not_isBlank.symm.trans hc)
  have hsplit : label.toList = (word ++ [c]) ++ (gap ++ numerals) := by simp [heq]
  have hprefix : (word ++ [c]).length = articleWord.length := by
    rw [List.length_append, hlength]
    rfl
  have hspelled : (word ++ [c]).map Char.toLower = articleWord ↔ c = ' ' := by
    have hword : articleWord = "article".toList ++ [' '] := by decide
    rw [List.map_append, hlower, hword, List.append_cancel_left_eq, List.map_singleton, hblank]
    exact List.singleton_inj
  rw [htrim, withoutArticle, hsplit, ← hprefix, List.take_left, List.drop_left,
    hlabel.trimChars_eq hgap]
  simp only [hspelled, List.head?_cons, Option.some.injEq]

end Article

theorem sectionNumber_of_isArticleLabel (h : clause.number = some label)
    {gap numerals : List Char} (hlabel : IsArticleLabel label.toList gap numerals)
    (hspace : gap.head? = some ' ') : clause.sectionNumber = some (String.ofList numerals) :=
  sectionNumber_of_number h (hlabel.withoutArticle_eq.trans (if_pos hspace)) hlabel.numerals_ne_nil

theorem mem_sectionNumber_of_isArticleLabel (h : clause.number = some label)
    {gap numerals : List Char} (hlabel : IsArticleLabel label.toList gap numerals) {number : String}
    (hnumber : clause.sectionNumber = some number) {c : Char} (hc : c ∈ numerals) :
    c ∈ number.toList := by
  have hparts := hlabel.withoutArticle_eq
  split_ifs at hparts with hspace
  · obtain rfl := Option.some.inj
      (hnumber.symm.trans (sectionNumber_of_isArticleLabel h hlabel hspace))
    rwa [String.toList_ofList]
  · obtain ⟨word, heq, -⟩ := hlabel.eq
    have hmem : c ∈ label.toList := by simp [heq, hc]
    obtain rfl := Option.some.inj (hnumber.symm.trans
      (sectionNumber_of_number h hparts (List.ne_nil_of_mem hmem)))
    rwa [String.toList_ofList]

end SectionNumber

/-! ## Numbers that are cited -/

theorem mem_citedNumbers_of_citesNumeral {text : String} {numeral : List Char}
    (hnumeral : IsDottedNumber numeral) (h : CitesNumeral text.toList numeral) :
    String.ofList numeral ∈ citedNumbers text := by
  obtain ⟨before, word, gap, after, htext, hword, hne, hgap, hboundary, hdot⟩ := h
  have hafter : numberTail after = [] := by
    cases after with
    | nil => rfl
    | cons c after =>
      refine numberTail_eq_nil ?_ ?_
      · rw [← Bool.not_eq_true]
        intro hdigit
        exact Bool.false_ne_true ((hboundary c rfl).symm.trans (isWord_of_isDigit hdigit))
      · rintro rfl
        rw [← Bool.not_eq_true]
        intro hdigit
        obtain ⟨digit, rest, rfl⟩ : ∃ digit rest, after = digit :: rest :=
          List.exists_cons_of_ne_nil fun hnil => by simp [hnil] at hdigit
        exact hdot ⟨digit, rest, rfl, by simpa using hdigit⟩
  rw [mem_citedNumbers_iff, String.toList_ofList, htext]
  exact ⟨_, List.suffix_append before _, citation?_eq_some_iff.mpr
    ⟨word, gap, after, rfl, hword, hne, hgap, hnumeral.number?_append hafter⟩⟩

theorem not_citesNumberOf_of_letter {a b : Clause} {label : String} (h : b.number = some label)
    {gap numerals : List Char} (hlabel : IsArticleLabel label.toList gap numerals)
    (hletter : ∃ c ∈ numerals, isDigit c = false) : ¬a.CitesNumberOf b := by
  rintro ⟨number, hcited, hnumber⟩
  obtain ⟨c, hc, hdigit⟩ := hletter
  have hmem := mem_sectionNumber_of_isArticleLabel h hlabel hnumber hc
  rcases eq_dot_or_isDigit_of_mem_citedNumbers hcited hmem with rfl | hother
  · exact absurd (Heading.isWord_of_isNumeral (hlabel.numerals _ hc)) (by decide +kernel)
  · exact Bool.false_ne_true (hdigit.symm.trans hother)

/-! ## Documents -/

/-- **A clause can be cited by its label if that is a dotted number, or if the digits of the article
stand behind a space.** Other labels are those of articles. Where the numeral of one has a letter,
the clause is cited by its title only. -/
theorem labels_cited (document : Document) :
    ∃ contract, compile FactRule.standard document = .ok contract ∧
      ∀ a ∈ contract.clauses, ∀ b ∈ contract.clauses, a.id ≠ b.id →
        ∀ label, b.number = some label →
          (IsDottedNumber label.toList ∨
            ∃ gap numerals, IsArticleLabel label.toList gap numerals) ∧
          (IsDottedNumber label.toList → CitesNumeral a.body.toList label.toList →
            ⟨a.id, b.id, .references⟩ ∈ contract.graph.edges) ∧
          ∀ gap numerals, IsArticleLabel label.toList gap numerals →
            (gap.head? = some ' ' → (∀ c ∈ numerals, isDigit c = true) →
              CitesNumeral a.body.toList numerals →
              ⟨a.id, b.id, .references⟩ ∈ contract.graph.edges) ∧
            ((∃ c ∈ numerals, isDigit c = false) →
              (⟨a.id, b.id, .references⟩ ∈ contract.graph.edges ↔ a.CitesTitleOf b)) := by
  obtain ⟨contract, hcompile, hclauses, hedges⟩ := compile_citations document
  refine ⟨contract, hcompile, fun a ha b hb hne label hlabel => ?_⟩
  have hedge := (hedges a ha b hb).trans (and_iff_right hne)
  refine ⟨isLabel_of_mem_clausesOf (hclauses ▸ hb) hlabel, fun hdotted hcites => ?_,
    fun gap numerals harticle => ⟨fun hspace hdigits hcites => ?_, fun hletter => ?_⟩⟩
  · have hcited := mem_citedNumbers_of_citesNumeral hdotted hcites
    rw [String.ofList_toList] at hcited
    exact hedge.mpr (.inr ⟨label, hcited, sectionNumber_of_isDottedNumber hlabel hdotted⟩)
  · have hnumeral := isDottedNumber_of_isDigit harticle.numerals_ne_nil hdigits
    exact hedge.mpr (.inr ⟨_, mem_citedNumbers_of_citesNumeral hnumeral hcites,
      sectionNumber_of_isArticleLabel hlabel harticle hspace⟩)
  · rw [hedge]
    exact or_iff_left (not_citesNumberOf_of_letter hlabel harticle hletter)

theorem isArticleLabel_append (gap numerals : List Char) (hgapNe : gap ≠ [])
    (hgap : gap.all isBlank = true) (hne : numerals ≠ [])
    (hnumerals : numerals.all Heading.isNumeral = true) :
    IsArticleLabel ("Article".toList ++ (gap ++ numerals)) gap numerals :=
  ⟨⟨"Article".toList, rfl, by decide +kernel⟩, hgapNe, List.all_eq_true.mp hgap, hne,
    List.all_eq_true.mp hnumerals⟩

theorem citesNumeral_sentence (numeral : List Char) :
    CitesNumeral ("See ".toList ++ ("Article".toList ++ ([' '] ++ (numeral ++ ['.'])))) numeral := by
  refine ⟨"See ".toList, "Article".toList, [' '], ['.'], rfl, ?_, by decide, ?_, by decide, by simp⟩
  · unfold IsCitingWord
    decide +kernel
  · exact List.forall_mem_singleton.mpr (by decide)

/-- An article that is cited by its number, which stands behind two spaces. -/
theorem labels_cited_article :
    ∃ contract, compile FactRule.standard
        ⟨"doc.txt", "Article  4: Fees\nAll fees.\nARTICLE 5 Term\nSee Article 4."⟩ = .ok contract ∧
      ⟨"clause_2", "clause_1", .references⟩ ∈ contract.graph.edges := by
  let b : Clause :=
    { id := "clause_1", number := some "Article  4", title := "Fees", body := "All fees."
      level := 1, parent := none, line := some 2 }
  let a : Clause :=
    { id := "clause_2", number := some "ARTICLE 5", title := "Term", body := "See Article 4."
      level := 1, parent := none, line := some 4 }
  obtain ⟨contract, hcompile, hcited⟩ :=
    labels_cited ⟨"doc.txt", "Article  4: Fees\nAll fees.\nARTICLE 5 Term\nSee Article 4."⟩
  obtain ⟨contract', hcompile', hclauses⟩ : ∃ contract, compile FactRule.standard
        ⟨"doc.txt", "Article  4: Fees\nAll fees.\nARTICLE 5 Term\nSee Article 4."⟩ = .ok contract ∧
      contract.clauses = [b, a] := exists_ok_of_any (by decide +kernel)
  obtain rfl := Except.ok.inj (hcompile.symm.trans hcompile')
  obtain ⟨-, -, harticle⟩ :=
    hcited a (by simp [hclauses]) b (by simp [hclauses]) (by decide) "Article  4" rfl
  have hlabel : IsArticleLabel "Article  4".toList [' ', ' '] ['4'] :=
    isArticleLabel_append [' ', ' '] ['4'] (by decide) (by decide) (by decide) (by decide)
  have hcites : CitesNumeral "See Article 4.".toList ['4'] := citesNumeral_sentence ['4']
  exact ⟨contract, hcompile, (harticle _ _ hlabel).1 rfl (List.all_eq_true.mp (by decide)) hcites⟩

/-- Whether no edge leads to an article though another clause cites its numeral. -/
def CompiledContract.MissesArticle (contract : CompiledContract) : Prop :=
  ∃ a ∈ contract.clauses, ∃ b ∈ contract.clauses, a.id ≠ b.id ∧
    ∃ label gap numerals, b.number = some label ∧ IsArticleLabel label.toList gap numerals ∧
      CitesNumeral a.body.toList numerals ∧
      ⟨a.id, b.id, .references⟩ ∉ contract.graph.edges

/-- The numeral of an article is Roman; and its digits stand behind a tabulator. -/
theorem article_not_cited :
    (∃ contract, compile FactRule.standard
        ⟨"doc.txt", "Article IV Fees\nAll fees.\nArticle V Term\nSee Article IV."⟩ = .ok contract ∧
      contract.MissesArticle) ∧
    ∃ contract, compile FactRule.standard
        ⟨"doc.txt", "Article\t4 Fees\nAll fees.\nArticle 5 Term\nSee Article 4."⟩ = .ok contract ∧
      contract.MissesArticle := by
  let fees (label : String) : Clause :=
    { id := "clause_1", number := some label, title := "Fees", body := "All fees.", level := 1
      parent := none, line := some 2 }
  let term (label body : String) : Clause :=
    { id := "clause_2", number := some label, title := "Term", body, level := 1, parent := none
      line := some 4 }
  constructor
  · obtain ⟨contract, hcompile, hclauses, hedges⟩ : ∃ contract, compile FactRule.standard
          ⟨"doc.txt", "Article IV Fees\nAll fees.\nArticle V Term\nSee Article IV."⟩ = .ok contract ∧
        contract.clauses = [fees "Article IV", term "Article V" "See Article IV."] ∧
        contract.graph.edges = [] := exists_ok_of_any (by decide +kernel)
    have hlabel : IsArticleLabel "Article IV".toList [' '] ['I', 'V'] :=
      isArticleLabel_append [' '] ['I', 'V'] (by decide) (by decide) (by decide) (by decide +kernel)
    have hcites : CitesNumeral "See Article IV.".toList ['I', 'V'] :=
      citesNumeral_sentence ['I', 'V']
    exact ⟨contract, hcompile, term "Article V" "See Article IV.", by simp [hclauses],
      fees "Article IV", by simp [hclauses], by decide, "Article IV", _, _, rfl, hlabel, hcites,
      by simp [hedges]⟩
  · obtain ⟨contract, hcompile, hclauses, hedges⟩ : ∃ contract, compile FactRule.standard
          ⟨"doc.txt", "Article\t4 Fees\nAll fees.\nArticle 5 Term\nSee Article 4."⟩ = .ok contract ∧
        contract.clauses = [fees "Article\t4", term "Article 5" "See Article 4."] ∧
        contract.graph.edges = [] := exists_ok_of_any (by decide +kernel)
    have hlabel : IsArticleLabel "Article\t4".toList ['\t'] ['4'] :=
      isArticleLabel_append ['\t'] ['4'] (by decide) (by decide) (by decide) (by decide)
    have hcites : CitesNumeral "See Article 4.".toList ['4'] := citesNumeral_sentence ['4']
    exact ⟨contract, hcompile, term "Article 5" "See Article 4.", by simp [hclauses],
      fees "Article\t4", by simp [hclauses], by decide, "Article\t4", _, _, rfl, hlabel, hcites,
      by simp [hedges]⟩

end ContractAnalysis
