import ContractAnalysis.Proofs.Citation
import ContractAnalysis.Proofs.Pattern.Lead
import ContractAnalysis.Proofs.Text.Search

/-!
# Cited titles

What follows a match of `titleLead` is a text behind `clause` or `section` and all the white space
there (`mem_citedTitles_iff`). A trimmed title does not start with white space. So a text cites a
title exactly where the word, white space and some spelling of the title stand in it one after the
other, whatever comes behind (`isTitleIn_iff`).
-/

namespace ContractAnalysis

open Pattern Text

/-- The words before a title that is cited. -/
def titleWords : List (List Char) := ["clause".toList, "section".toList]

/-- One of the words, in any case. -/
def IsTitleWord (word : List Char) : Prop := word.map fold ∈ titleWords

/-- A text holds one of the words, white space and a title, in any case, and goes on behind it. -/
def CitesTitle (cs title after : List Char) : Prop :=
  ∃ before word gap spelling, cs = before ++ (word ++ (gap ++ (spelling ++ after))) ∧
    IsTitleWord word ∧ gap ≠ [] ∧ IsBlankText gap ∧ spelling.map fold = title.map fold

theorem mem_citingWords_of_titleWords {word : List Char} (h : word ∈ titleWords) :
    word ∈ citingWords := by
  have hall : ∀ word ∈ titleWords, word ∈ citingWords := by decide
  exact hall word h

theorem areApart_titleWords : AreApart titleWords where
  folded word h := areApart_citingWords.folded word (mem_citingWords_of_titleWords h)
  apart word h other hother := areApart_citingWords.apart word (mem_citingWords_of_titleWords h)
    other (mem_citingWords_of_titleWords hother)

theorem IsTitleWord.isCitingWord {word : List Char} (h : IsTitleWord word) : IsCitingWord word :=
  mem_citingWords_of_titleWords h

theorem areUnnested_isTitleWord : AreUnnested IsTitleWord where
  ne_nil h := areUnnested_isCitingWord.ne_nil h.isCitingWord
  not_blank h := areUnnested_isCitingWord.not_blank h.isCitingWord
  unnested h k hlt hk hend :=
    areUnnested_isCitingWord.unnested h.isCitingWord k hlt hk hend.isCitingWord

theorem CitesTitle.of_prefix {cs title other after : List Char} (h : CitesTitle cs title after)
    (hother : other.map fold <+: title.map fold) : ∃ after', CitesTitle cs other after' := by
  obtain ⟨before, word, gap, spelling, rfl, hword, hne, hgap, hspelling⟩ := h
  rw [← hspelling] at hother
  obtain ⟨left, heq⟩ := hother
  obtain ⟨start, rest, rfl, hstart, -⟩ := List.map_eq_append_iff.mp heq.symm
  exact ⟨rest ++ after, before, word, gap, start, by simp, hword, hne, hgap, hstart⟩

/-! ## The texts behind the words -/

theorem spells_titleWords :
    Spells titleLead.flags (oneOf (titleWords.map ofChars)) IsTitleWord :=
  spells_oneOf areApart_titleWords (List.cons_ne_nil _ _) rfl

theorem matchAt_titleLead_iff {place : Cursor} {m : Match} :
    titleLead.matchAt place = some m ↔
      ∃ word gap stop, IsLead IsTitleWord place.rest word gap stop.rest ∧ place.Leads stop ∧
        m = ⟨⟨place, stop⟩, []⟩ :=
  matchAt_lead_iff spells_titleWords

theorem apart_titleLead : Match.Apart titleLead.matchAt :=
  apart_lead spells_titleWords areUnnested_isTitleWord

/-- What a title that is cited can be the start of. -/
theorem mem_citedTitles_iff {text : String} {rest : List Char} :
    rest ∈ citedTitles text ↔
      ∃ part word gap, part <:+ text.toList ∧ IsLead IsTitleWord part word gap rest := by
  rw [citedTitles, Expression.findAll_eq, apart_titleLead.allFrom_eq]
  simp only [List.mem_map, List.mem_filterMap, Cursor.mem_forward]
  constructor
  · rintro ⟨m, ⟨place, hplace, hm⟩, rfl⟩
    obtain ⟨word, gap, stop, hlead, -, rfl⟩ := matchAt_titleLead_iff.mp hm
    exact ⟨place.rest, word, gap, ⟨_, Span.text_append_rest hplace⟩, hlead⟩
  · rintro ⟨part, word, gap, ⟨before, htext⟩, hlead⟩
    obtain ⟨place, hplace, rfl, -⟩ := Cursor.exists_leads (a := .ofChars text.toList) htext.symm
    obtain ⟨stop, hstop, rfl, -⟩ := prefers_lead spells_titleWords hlead
    exact ⟨_, ⟨place, hplace, matchAt_titleLead_iff.mpr ⟨word, gap, stop, hlead, hstop, rfl⟩⟩, rfl⟩

/-! ## Titles -/

theorem citesTitle_iff {text : String} {title after : List Char} (hne : title ≠ [])
    (htitle : ∀ c ∈ title.head?, isBlank c = false) :
    CitesTitle text.toList title after ↔ ∃ rest ∈ citedTitles text,
      ∃ spelling, rest = spelling ++ after ∧ spelling.map fold = title.map fold := by
  simp only [mem_citedTitles_iff]
  constructor
  · rintro ⟨before, word, gap, spelling, htext, hword, hgapNe, hgap, hspelling⟩
    refine ⟨spelling ++ after, ⟨_, word, gap, ⟨before, htext.symm⟩, rfl, hword, hgapNe, hgap, ?_⟩,
      spelling, rfl, hspelling⟩
    -- What is spelled like the title starts like it, without white space.
    obtain ⟨c, title, rfl⟩ := List.exists_cons_of_ne_nil hne
    obtain ⟨x, spelling, rfl, hx, -⟩ := List.map_eq_cons_iff.mp hspelling
    refine stops_cons ?_ _
    rw [← isBlank_fold, hx, isBlank_fold]
    exact htitle c rfl
  · rintro ⟨rest, ⟨part, word, gap, ⟨before, htext⟩, hlead⟩, spelling, rfl, hspelling⟩
    refine ⟨before, word, gap, spelling, ?_, hlead.word, hlead.gap_ne_nil, hlead.gap, hspelling⟩
    rw [← hlead.eq, htext]

theorem exists_citesTitle_iff {text : String} {title : List Char} (hne : title ≠ [])
    (htitle : ∀ c ∈ title.head?, isBlank c = false) (p : List Char → Prop) :
    (∃ after, CitesTitle text.toList title after ∧ p after) ↔
      ∃ rest ∈ citedTitles text, startsWith title rest = true ∧ p (rest.drop title.length) := by
  have hdrop : ∀ {spelling after : List Char}, spelling.map fold = title.map fold →
      (spelling ++ after).drop title.length = after := by
    intro spelling after h
    have hlength := congrArg List.length h
    rw [List.length_map, List.length_map] at hlength
    rw [← hlength, List.drop_left]
  simp only [citesTitle_iff hne htitle, startsWith_iff]
  constructor
  · rintro ⟨after, ⟨rest, hrest, spelling, rfl, hspelling⟩, hafter⟩
    exact ⟨_, hrest, ⟨spelling, after, rfl, hspelling⟩, (hdrop hspelling).symm ▸ hafter⟩
  · rintro ⟨rest, hrest, ⟨spelling, after, rfl, hspelling⟩, hafter⟩
    rw [hdrop hspelling] at hafter
    exact ⟨after, ⟨_, hrest, spelling, rfl, hspelling⟩, hafter⟩

theorem isTitleIn_iff {clause : Clause} {text : String} :
    clause.citationName.isTitleIn (Cited.ofText text) = true ↔
      trimChars clause.title.toList ≠ [] ∧
        ∃ after, CitesTitle text.toList (trimChars clause.title.toList) after := by
  have hparts : clause.citationName.isTitleIn (Cited.ofText text) = true ↔
      trimChars clause.title.toList ≠ [] ∧
        ∃ rest ∈ citedTitles text, startsWith (trimChars clause.title.toList) rest = true := by
    simp [CitationName.isTitleIn, Clause.citationName, Cited.ofText]
  rw [hparts]
  refine and_congr_right fun hne => ?_
  have hhead := not_isBlank_head?_trimChars clause.title.toList
  simpa only [and_true] using (exists_citesTitle_iff hne hhead fun _ => True).symm

end ContractAnalysis
