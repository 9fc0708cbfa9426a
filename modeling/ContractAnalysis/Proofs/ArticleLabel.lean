import ContractAnalysis.Proofs.Citation
import ContractAnalysis.Proofs.Division
import ContractAnalysis.Proofs.Text.Digits

/-!
# The labels of articles

A line that starts with the word `article`, white space and a numeral is the heading of an article.
The letters of Roman numerals are letters of other words as well, and the separators between label
and title may be missing. So the label ends where the longest run of numerals ends, be it within a
word or before a dot and a digit, and what is left of that word or number is the start of the title
(`article_label_cut`).
-/

namespace ContractAnalysis

open Pattern Text

/-! ## Numerals and separators -/

namespace Heading

def isNumeral (c : Char) : Bool := numeral.accepts article.flags c

def isSeparator (c : Char) : Bool := separator.accepts article.flags c

theorem isWord_of_isNumeral {c : Char} (h : isNumeral c = true) : isWord c = true := by
  obtain hletter | hdigit :
      (∃ letter ∈ ['I', 'V', 'X', 'L', 'C', 'D', 'M'], fold c = fold letter) ∨
        isDigit c = true := by
    simpa [isNumeral, numeral, CharSet.accepts, article, or_assoc] using h
  · have hletters : isLowercaseLatin (['I', 'V', 'X', 'L', 'C', 'D', 'M'].map fold) = true := by
      decide +kernel
    obtain ⟨letter, hletter, hfold⟩ := hletter
    have hmem : fold c ∈ ['I', 'V', 'X', 'L', 'C', 'D', 'M'].map fold :=
      hfold ▸ List.mem_map_of_mem hletter
    exact (isLatin_of_fold_mem hletters hmem).isWord
  · exact isWord_of_isDigit hdigit

theorem isSeparator_iff {c : Char} :
    isSeparator c = true ↔ c = ':' ∨ c = '.' ∨ isBlank c = true := by
  have hparts : isSeparator c = ((CharSet.only ':').accepts article.flags c ||
      ((CharSet.only '.').accepts article.flags c || isBlank c)) := rfl
  rw [hparts, Bool.or_eq_true, Bool.or_eq_true, accepts_only_iff (by decide) (by decide),
    accepts_only_iff (by decide) (by decide)]

theorem not_isWord_of_isSeparator {c : Char} (h : isSeparator c = true) : isWord c = false := by
  rcases isSeparator_iff.mp h with rfl | rfl | hblank
  · decide +kernel
  · decide +kernel
  · exact not_isWord_of_isBlank hblank

/-- A line is cut into the label of an article, which ends with a run of numerals, separators and a
title. -/
structure IsArticleLine (line label numerals separators title : List Char) : Prop where
  line_eq : line = label ++ (separators ++ title)
  label : ∃ word gap, label = word ++ (gap ++ numerals) ∧ word.map fold = "article".toList ∧
    gap ≠ [] ∧ IsBlankText gap
  numerals_ne : numerals ≠ []
  numerals : ∀ c ∈ numerals, isNumeral c = true
  /-- The run of numerals is as long as it can be. -/
  longest : Stops isNumeral (separators ++ title)
  separators : ∀ c ∈ separators, isSeparator c = true
  title : Stops isSeparator title

/-! ## How a line is cut -/

theorem stops_rest {p : Char → Bool} {a : Cursor}
    (h : ∀ c next, a.next? = some (c, next) → p c = false) : Stops p a.rest := by
  cases hrest : a.rest with
  | nil => exact stops_nil p
  | cons c cs =>
    obtain ⟨next, hnext, -⟩ := Cursor.exists_next hrest
    exact stops_cons (h c next hnext) cs

section Cut

variable {line : List Char} {a b c d e f : Cursor}

/-- The places at which a line is cut: behind the word, behind white space, and behind the longest
runs of numerals and of separators, up to the end of the line. -/
structure IsCut (line : List Char) (a b c d e f : Cursor) : Prop where
  start : a = Cursor.ofChars line
  word : a.Leads b
  word_eq : (Span.text ⟨a, b⟩).map fold = "article".toList
  gap : b.Leads c
  gap_ne : Span.text ⟨b, c⟩ ≠ []
  gap_blank : IsBlankText (Span.text ⟨b, c⟩)
  numerals : c.Leads d
  numerals_ne : Span.text ⟨c, d⟩ ≠ []
  numerals_all : ∀ x ∈ Span.text ⟨c, d⟩, isNumeral x = true
  numerals_end : ∀ x next, d.next? = some (x, next) → isNumeral x = false
  separators : d.Leads e
  separators_all : ∀ x ∈ Span.text ⟨d, e⟩, isSeparator x = true
  separators_end : ∀ x next, e.next? = some (x, next) → isSeparator x = false
  title : e.Leads f
  rest_eq : f.rest = []

theorem exists_isCut {marks marks' : List Mark} (ha : a = Cursor.ofChars line)
    (hword : Takes article.flags (literal "Article") a b marks)
    (hgap : Takes article.flags Pattern.gap b c marks') {first : Char} {next : Cursor}
    (hnext : c.next? = some (first, next)) (hfirst : isNumeral first = true) :
    ∃ d e f, IsCut line a b c d e f := by
  obtain ⟨d, hd, hnumerals, hlongest⟩ := c.exists_run isNumeral
  obtain ⟨e, he, hseparators, htitle⟩ := d.exists_run isSeparator
  obtain ⟨f, hf, hnothing, -⟩ := Cursor.exists_leads (List.append_nil e.rest).symm
  refine ⟨d, e, f, ha, hword.leads, (fold_eq_of_takes rfl hword).trans (by decide), hgap.leads,
    ?_, hgap.accepts_of_plus, hd, ?_, hnumerals, hlongest, he, hseparators, htitle, hf, hnothing⟩
  · obtain ⟨x, later, hx, -, hleads⟩ := hgap.next_of_plus
    rw [Span.text_of_next? hx hleads]
    exact List.cons_ne_nil _ _
  · cases hd with
    | refl => exact absurd hfirst (by simp [hlongest _ _ hnext])
    | step hstep hlater =>
      rw [Span.text_of_next? hstep hlater]
      exact List.cons_ne_nil _ _

namespace IsCut

variable (h : IsCut line a b c d e f)
include h

theorem title_eq : Span.text ⟨e, f⟩ = e.rest := by
  have htext := Span.text_append_rest h.title
  rwa [h.rest_eq, List.append_nil] at htext

theorem behind_eq : Span.text ⟨d, e⟩ ++ Span.text ⟨e, f⟩ = d.rest := by
  rw [h.title_eq, Span.text_append_rest h.separators]

theorem leads_label : a.Leads d := h.word.trans (h.gap.trans h.numerals)

theorem isArticleLine : IsArticleLine line (Span.text ⟨a, d⟩) (Span.text ⟨c, d⟩)
    (Span.text ⟨d, e⟩) (Span.text ⟨e, f⟩) where
  line_eq := by
    rw [h.behind_eq, Span.text_append_rest h.leads_label, h.start, Cursor.rest_ofChars]
  label := by
    refine ⟨_, _, ?_, h.word_eq, h.gap_ne, h.gap_blank⟩
    rw [Cursor.text_append h.gap h.numerals,
      Cursor.text_append h.word (h.gap.trans h.numerals)]
  numerals_ne := h.numerals_ne
  numerals := h.numerals_all
  longest := by
    rw [h.behind_eq]
    exact stops_rest h.numerals_end
  separators := h.separators_all
  title := by
    rw [h.title_eq]
    exact stops_rest h.separators_end

theorem prefers_label :
    Prefers article.flags (literal "Article" ++ (Pattern.gap ++ plus .greedy (one numeral))) a d
      [] := by
  have hword : Prefers article.flags (literal "Article") a b [] :=
    prefers_ofChars rfl h.word (h.word_eq.trans (by decide))
  have hgap : Prefers article.flags Pattern.gap b c [] := by
    refine prefers_plus_run h.gap h.gap_ne h.gap_blank fun x later hx => ?_
    have hnumeral : isNumeral x = true := by
      refine h.numerals_all x ?_
      cases h.numerals with
      | refl => exact absurd (by simp [Span.text]) h.numerals_ne
      | step hstep hlater =>
        obtain ⟨rfl, rfl⟩ := Prod.mk.inj (Option.some.inj (hx.symm.trans hstep))
        rw [Span.text_of_next? hstep hlater]
        exact List.mem_cons_self
    exact not_isBlank_of_isWord (isWord_of_isNumeral hnumeral)
  exact hword.seq (hgap.seq (prefers_plus_run h.numerals h.numerals_ne h.numerals_all h.numerals_end))

/-- The expression for articles cuts the line at these places. -/
theorem matchAt_eq (hline : '\n' ∉ line) :
    article.matchAt a =
      some ⟨⟨a, f⟩, [.opened 1 a, .closed 1 d, .opened 2 e, .closed 2 f]⟩ := by
  have hstart : Prefers article.flags .start a a [] := prefers_start (by rw [h.start]; rfl)
  have hseparators : Prefers article.flags (star .greedy (one separator)) d e [] :=
    prefers_run h.separators h.separators_all h.separators_end
  have htitle : Prefers article.flags (star .greedy (one .any)) e f [] := by
    refine prefers_run h.title (fun x hx => ?_) fun x later hx => ?_
    · have hmem : x ∈ line := by
        rw [h.isArticleLine.line_eq]
        exact List.mem_append_right _ (List.mem_append_right _ hx)
      have hfeed : x ≠ '\n' := fun heq => hline (heq ▸ hmem)
      simpa [CharSet.accepts, article] using hfeed
    · have hrest := Cursor.rest_of_next? hx
      rw [h.rest_eq] at hrest
      contradiction
  have hfinish : Prefers article.flags .finish f f [] :=
    prefers_finish (by rw [Cursor.atFinish, h.rest_eq]; rfl)
  exact Expression.matchAt_of_prefers (hstart.seq ((h.prefers_label.capture 1).seq
    (hseparators.seq ((htitle.capture 2).seq hfinish))))

end IsCut

end Cut

theorem exists_isCut_of_matchAt {line : List Char} {m : Match} {place : Cursor}
    (hplace : (Cursor.ofChars line).Leads place) (h : article.matchAt place = some m) :
    ∃ b c d e f, IsCut line place b c d e f := by
  obtain ⟨rfl, htakes⟩ := Expression.takes_of_matchAt h
  generalize m.marks = marks at htakes
  cases htakes with
  | seq hstart hrest =>
    cases hstart with
    | start hstart =>
      have hbefore : m.start.before = none := by
        simpa [Cursor.atStart, article] using hstart
      rw [Cursor.before_of_leads_ofChars hplace, List.getLast?_eq_none_iff] at hbefore
      have hfirst := (Cursor.eq_of_text_eq_nil hplace hbefore).symm
      cases hrest with
      | seq hlabel _ =>
        cases hlabel with
        | capture _ hlabel =>
          cases hlabel with
          | @seq _ _ _ b _ _ _ hword hlabel =>
            cases hlabel with
            | @seq _ _ _ c _ _ _ hgap hnumeral =>
              obtain ⟨x, next, hnext, hx, -⟩ := hnumeral.next_of_plus
              obtain ⟨d, e, f, hcut⟩ := exists_isCut hfirst hword hgap hnext hx
              exact ⟨b, c, d, e, f, hcut⟩

theorem exists_title_of_parts?_article {line number title : List Char} (hline : '\n' ∉ line)
    (h : parts? article line = some (number, title)) :
    ∃ numerals separators rest, IsArticleLine line number numerals separators rest ∧
      title = trimChars rest := by
  obtain ⟨m, hm, hgroups⟩ := Option.bind_eq_some_iff.mp h
  obtain ⟨number', hnumber, hgroups⟩ := Option.bind_eq_some_iff.mp hgroups
  obtain ⟨rest, hrest, heq⟩ := Option.bind_eq_some_iff.mp hgroups
  obtain ⟨rfl, rfl⟩ := Prod.mk.inj (Option.some.inj heq)
  rw [article.find?_eq] at hm
  obtain ⟨a, ha, hmatch⟩ := Match.exists_of_firstFrom hm
  obtain ⟨b, c, d, e, f, hcut⟩ := exists_isCut_of_matchAt ha hmatch
  rw [hcut.matchAt_eq hline] at hmatch
  obtain rfl := Option.some.inj hmatch
  have hmarks : (⟨⟨a, f⟩, [.opened 1 a, .closed 1 d, .opened 2 e, .closed 2 f]⟩ : Match).marks =
      [] ++ .opened 1 a :: ([] ++ .closed 1 d :: [.opened 2 e, .closed 2 f]) := rfl
  have hmarks' : (⟨⟨a, f⟩, [.opened 1 a, .closed 1 d, .opened 2 e, .closed 2 f]⟩ : Match).marks =
      [.opened 1 a, .closed 1 d] ++ .opened 2 e :: ([] ++ .closed 2 f :: []) := rfl
  have hlabel := (Match.group?_of_marks hmarks (by simp) (by simp [Mark.group])).2
  have htitle := (Match.group?_of_marks hmarks' (by simp) (by simp)).2
  obtain rfl := Option.some.inj (hnumber.symm.trans hlabel)
  obtain rfl := Option.some.inj (hrest.symm.trans htitle)
  exact ⟨_, _, _, hcut.isArticleLine, rfl⟩

theorem isArticleLine_of_ofLine? {line : List Char} (hline : '\n' ∉ line) {heading : Heading}
    (h : ofLine? line = some heading)
    (harticle : startsWith "article".toList heading.number.toList = true) :
    ∃ numerals separators, IsArticleLine (trimEnd line) heading.number.toList numerals separators
      heading.title.toList := by
  obtain ⟨-, -, hparts⟩ | ⟨hdotted, -⟩ := isArticle_or_isDotted h
  · have hfeed : '\n' ∉ trimEnd line := fun hmem =>
      hline ((pads_trimEnd line).isInfix.subset hmem)
    obtain ⟨numerals, separators, rest, hcut, htitle⟩ :=
      exists_title_of_parts?_article hfeed hparts
    have htrim : trimChars rest = rest := by
      refine trimChars_eq_self (fun c hc => ?_) fun c hc => ?_
      · rw [← Bool.not_eq_true]
        intro hblank
        have hseparator := isSeparator_iff.mpr (.inr (.inr hblank))
        exact Bool.false_ne_true ((hcut.title c hc).symm.trans hseparator)
      · refine not_isBlank_getLast?_trimEnd line c ?_
        rw [hcut.line_eq, List.getLast?_append, List.getLast?_append, Option.mem_def.mp hc]
        rfl
    rw [htitle, htrim]
    exact ⟨numerals, separators, hcut⟩
  · exact absurd (hdotted.symm.trans harticle) Bool.false_ne_true

end Heading

/-! ## Words and numbers that are cut -/

/-- Between two parts of a text a word is cut, or a number before its dot or behind it. -/
def Cuts (before after : List Char) : Prop :=
  Cursor.isWordAt before.getLast? = true ∧
      (Cursor.isWordAt after.head? = true ∨
        ∃ digit rest, after = '.' :: digit :: rest ∧ isDigit digit = true) ∨
    ∃ start c digit rest, before = start ++ [c, '.'] ∧ isWord c = true ∧
      after = digit :: rest ∧ isDigit digit = true

/-- The word that a text starts with has nothing but numerals, and behind it no number goes on with a
dot. -/
def IsWholeNumeral (cs : List Char) : Prop :=
  (∀ c ∈ cs.takeWhile isWord, Heading.isNumeral c = true) ∧
    ¬∃ digit rest, cs.dropWhile isWord = '.' :: digit :: rest ∧ isDigit digit = true

theorem cuts_iff_of_isWord {before after : List Char}
    (h : Cursor.isWordAt before.getLast? = true) :
    Cuts before after ↔ Cursor.isWordAt after.head? = true ∨
      ∃ digit rest, after = '.' :: digit :: rest ∧ isDigit digit = true := by
  rw [Cuts, and_iff_right h, or_iff_left]
  rintro ⟨start, c, digit, rest, rfl, -⟩
  have hdot : isWord '.' = false := by decide +kernel
  simp [Cursor.isWordAt, hdot] at h

theorem cuts_iff_of_isSeparator {before after : List Char} {c : Char}
    (h : Heading.isSeparator c = true) :
    Cuts (before ++ [c]) after ↔ c = '.' ∧ Cursor.isWordAt before.getLast? = true ∧
      ∃ digit rest, after = digit :: rest ∧ isDigit digit = true := by
  have hword : ¬Cursor.isWordAt (before ++ [c]).getLast? = true := by
    simp [Cursor.isWordAt, Heading.not_isWord_of_isSeparator h]
  rw [Cuts, or_iff_right fun hcut => hword hcut.1]
  constructor
  · rintro ⟨start, d, digit, rest, heq, hd, hafter, hdigit⟩
    have hsplit : before ++ [c] = (start ++ [d]) ++ ['.'] := by rw [heq]; simp
    obtain ⟨rfl, hdot⟩ := List.append_inj' hsplit rfl
    refine ⟨(List.cons.inj hdot).1, ?_, digit, rest, hafter, hdigit⟩
    simpa [Cursor.isWordAt] using hd
  · rintro ⟨rfl, hbefore, digit, rest, hafter, hdigit⟩
    rcases before.eq_nil_or_concat' with rfl | ⟨start, d, rfl⟩
    · contradiction
    · exact ⟨start, d, digit, rest, by simp, by simpa [Cursor.isWordAt] using hbefore, hafter,
        hdigit⟩

namespace Heading

section Label

variable {line label numerals separators title : List Char}
  (h : IsArticleLine line label numerals separators title)
include h

theorem IsArticleLine.isWordAt_label : Cursor.isWordAt label.getLast? = true := by
  obtain ⟨word, gap, rfl, -⟩ := h.label
  obtain ⟨init, c, rfl⟩ := (List.eq_nil_or_concat' numerals).resolve_left h.numerals_ne
  have hc := isWord_of_isNumeral (h.numerals c (by simp))
  simpa [Cursor.isWordAt] using hc

theorem IsArticleLine.not_cuts_iff :
    ¬Cuts label (separators ++ title) ↔ IsWholeNumeral (numerals ++ (separators ++ title)) := by
  have hword : ∀ c ∈ numerals, isWord c = true := fun c hc => isWord_of_isNumeral (h.numerals c hc)
  have hlongest := h.longest
  rw [cuts_iff_of_isWord h.isWordAt_label]
  generalize separators ++ title = behind at hlongest ⊢
  cases hbehind : Cursor.isWordAt behind.head? with
  | true =>
    -- The word goes on with a character that is no numeral.
    refine iff_of_false (by simp) fun hwhole => ?_
    cases behind with
    | nil => contradiction
    | cons c rest =>
      have hc : isWord c = true := hbehind
      have hmem : c ∈ (numerals ++ c :: rest).takeWhile isWord := by
        rw [List.takeWhile_append_of_pos hword, List.takeWhile_cons_of_pos hc]
        simp
      exact Bool.false_ne_true ((hlongest c rfl).symm.trans (hwhole.1 c hmem))
  | false =>
    have hstops : Stops isWord behind := by
      intro c hc
      rwa [Option.mem_def.mp hc] at hbehind
    rw [IsWholeNumeral, takeWhile_run hword hstops, dropWhile_run hword hstops,
      and_iff_right h.numerals]
    simp

/-- Separators belong to no word, and to a number only as a single dot: so what the label cuts is
what the title starts inside of. -/
theorem IsArticleLine.cuts_iff :
    Cuts label (separators ++ title) ↔ Cuts (label ++ separators) title := by
  have hseparators := h.separators
  rcases separators.eq_nil_or_concat' with rfl | ⟨init, last, rfl⟩
  · rw [List.nil_append, List.append_nil]
  · have hlast := hseparators last (by simp)
    rw [cuts_iff_of_isWord h.isWordAt_label, ← List.append_assoc label,
      cuts_iff_of_isSeparator hlast]
    cases init with
    | nil =>
      have hother : ¬Cursor.isWordAt ([last] ++ title).head? = true := by
        simp [Cursor.isWordAt, not_isWord_of_isSeparator hlast]
      rw [List.nil_append, or_iff_right hother, List.append_nil]
      constructor
      · rintro ⟨digit, rest, heq, hdigit⟩
        obtain ⟨rfl, rfl⟩ := List.cons.inj heq
        exact ⟨rfl, h.isWordAt_label, digit, rest, rfl, hdigit⟩
      · rintro ⟨rfl, -, digit, rest, rfl, hdigit⟩
        exact ⟨digit, rest, rfl, hdigit⟩
    | cons first init =>
      -- Of two separators neither is a word character, nor a digit.
      have hfirst := hseparators first (by simp)
      refine iff_of_false ?_ ?_
      · rintro (hword | ⟨digit, rest, heq, hdigit⟩)
        · simp [Cursor.isWordAt, not_isWord_of_isSeparator hfirst] at hword
        · have hsecond : digit ∈ first :: init ++ [last] := by
            cases init with
            | nil =>
              simp only [List.cons_append, List.nil_append, List.cons.injEq] at heq
              simp [heq.2.1]
            | cons second init =>
              simp only [List.cons_append, List.cons.injEq] at heq
              simp [heq.2.1]
          have hother := not_isWord_of_isSeparator (hseparators digit hsecond)
          exact Bool.false_ne_true (hother.symm.trans (isWord_of_isDigit hdigit))
      · rintro ⟨-, hword, -⟩
        obtain ⟨others, c, hc⟩ := (List.eq_nil_or_concat' (first :: init)).resolve_left
          (List.cons_ne_nil _ _)
        have hseparator := hseparators c (by rw [hc]; simp)
        rw [hc, ← List.append_assoc, List.getLast?_concat] at hword
        exact Bool.false_ne_true ((not_isWord_of_isSeparator hseparator).symm.trans hword)

end Label

end Heading

/-! ## Texts -/

theorem hasHeading_of_number {text : String} {clause : Clause} (h : clause ∈ clausesOf text)
    {label : String} (hlabel : clause.number = some label) : HasHeading text := by
  by_contra hnone
  rw [clausesOf_of_not_hasHeading hnone, List.mem_map] at h
  obtain ⟨⟨p, i⟩, -, rfl⟩ := h
  contradiction

/-- A line is cut into the label of an article and a title behind its longest run of numerals. Label
and title are whole exactly where the word behind `article` is a whole numeral. -/
def IsCutBehindNumerals (line label title : List Char) : Prop :=
  ∃ numerals separators, Heading.IsArticleLine line label numerals separators title ∧
    (¬Cuts label (separators ++ title) ↔ IsWholeNumeral (numerals ++ (separators ++ title))) ∧
    (¬Cuts (label ++ separators) title ↔ IsWholeNumeral (numerals ++ (separators ++ title)))

theorem isCutBehindNumerals_of_ofLine? {line : List Char} (hline : '\n' ∉ line) {heading : Heading}
    (h : Heading.ofLine? line = some heading)
    (harticle : startsWith "article".toList heading.number.toList = true) :
    IsCutBehindNumerals (trimEnd line) heading.number.toList heading.title.toList := by
  obtain ⟨numerals, separators, hcut⟩ := Heading.isArticleLine_of_ofLine? hline h harticle
  exact ⟨numerals, separators, hcut, hcut.not_cuts_iff,
    (not_congr hcut.cuts_iff).symm.trans hcut.not_cuts_iff⟩

/-- **The label of an article ends with the longest run of numerals, and the title starts behind the
separators that follow**, in every line that is the heading of an article and so in every clause with
such a label. The label is whole exactly where the word behind `article` has nothing but numerals and
is not the first part of a dotted number. Elsewhere the label cuts a word or a number, and the title
starts inside it. -/
theorem article_label_cut (text : String) :
    (∀ line ∈ lines text.toList, ∀ heading : Heading, Heading.ofLine? line = some heading →
      startsWith "article".toList heading.number.toList = true →
      IsCutBehindNumerals (trimEnd line) heading.number.toList heading.title.toList) ∧
    ∀ clause ∈ clausesOf text, ∀ label, clause.number = some label →
      startsWith "article".toList label.toList = true →
      ∃ line ∈ lines text.toList,
        IsCutBehindNumerals (trimEnd line) label.toList clause.title.toList := by
  refine ⟨fun line hline heading hheading harticle =>
    isCutBehindNumerals_of_ofLine? (feed_notMem_of_mem_lines hline) hheading harticle,
    fun clause h label hlabel harticle => ?_⟩
  obtain ⟨line, hline, heading, hheading, hnumber, htitle, -⟩ :=
    exists_heading_of_mem_clausesOf (hasHeading_of_number h hlabel) h
  obtain rfl : label = heading.number := Option.some.inj (hlabel.symm.trans hnumber)
  rw [htitle]
  exact ⟨line, hline,
    isCutBehindNumerals_of_ofLine? (feed_notMem_of_mem_lines hline) hheading harticle⟩

/-- A heading whose label is whole. -/
theorem article_label_cut_colon :
    let clause : Clause :=
      { id := "clause_1", number := some "Article IV", title := "Scope", body := "", level := 1
        parent := none, line := some 1 }
    clause ∈ clausesOf "Article IV: Scope" ∧
      ∃ line ∈ lines "Article IV: Scope".toList,
        IsCutBehindNumerals (trimEnd line) "Article IV".toList "Scope".toList := by
  intro clause
  have hclause : clause ∈ clausesOf "Article IV: Scope" := by decide +kernel
  exact ⟨hclause, (article_label_cut "Article IV: Scope").2 clause hclause "Article IV" rfl
    (by decide +kernel)⟩

/-- The letter `i` is a numeral, so that a sentence becomes the heading of an article. And a label
ends before the dot of a dotted number. -/
theorem article_label_cut_within :
    (clausesOf "Article includes the annexes.").map (fun clause => (clause.number, clause.title)) =
        [(some "Article i", "ncludes the annexes.")] ∧
      Cuts "Article i".toList "ncludes the annexes.".toList ∧
    (clausesOf "Article 4.2 Fees").map (fun clause => (clause.number, clause.title)) =
        [(some "Article 4", "2 Fees")] ∧
      Cuts "Article 4.".toList "2 Fees".toList := by
  refine ⟨by decide +kernel, .inl ⟨by decide +kernel, .inl (by decide +kernel)⟩,
    by decide +kernel, .inr ⟨"Article ".toList, '4', '2', " Fees".toList, ?_⟩⟩
  decide +kernel

end ContractAnalysis
