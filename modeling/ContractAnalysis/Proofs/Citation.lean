import ContractAnalysis.Citation
import ContractAnalysis.Proofs.Pattern.Matches
import ContractAnalysis.Proofs.Text.Cites

/-!
# Cited numbers

A match of `numberCitation` starts where the text that is left starts with a citation, and its
capture records the whole number (`exists_citation_of_takes`, `prefers_citation`). No match starts
inside another, so a text cites the numbers that its ends start to cite, one by one
(`citedNumbers_eq`).
-/

namespace ContractAnalysis

open Pattern Text

variable {flags : Flags} {a b : Cursor}

/-! ## Words -/

/-- The words before a number, as a pattern. -/
def citingWord : Pattern := oneOf [literal "clause", literal "section", literal "article"]

theorem map_fold_of_takes_citingWord (hflags : flags.ignoreCase = true) {marks : List Mark}
    (h : Takes flags citingWord a b marks) : (Span.text ⟨a, b⟩).map fold ∈ citingWords :=
  fold_mem_of_takes areApart_citingWords hflags h (List.cons_ne_nil _ _)

theorem prefers_citingWord (hflags : flags.ignoreCase = true) (hleads : a.Leads b)
    (h : (Span.text ⟨a, b⟩).map fold ∈ citingWords) : Prefers flags citingWord a b [] :=
  prefers_word areApart_citingWords hflags hleads h

/-! ## Numbers -/

theorem accepts_only_iff {c : Char} (hlow : c.toNat < 0x61) (hfold : fold c = c) {x : Char} :
    (CharSet.only c).accepts flags x = true ↔ x = c := by
  simp only [CharSet.accepts, hfold]
  split_ifs
  · rw [beq_iff_eq]
    exact ⟨fun h => eq_of_fold_eq h hlow, fun h => h ▸ hfold⟩
  · exact beq_iff_eq

theorem refuses_digit (h : a.rest.head?.any isDigit = false) : Refuses flags (one .digit) a :=
  refuses_one fun c next hnext => by
    simpa [Cursor.rest_of_next? hnext, CharSet.accepts] using h

theorem refuses_dotDigits (h : ∀ c cs, a.rest = c :: cs → c = '.' → cs.head?.any isDigit = false) :
    Refuses flags dotDigits a := by
  refine refuses_of_not_takes fun b marks htakes => ?_
  cases htakes with
  | seq hdot hdigits =>
    cases hdot with
    | one hnext haccepts =>
      obtain rfl := (accepts_only_iff (by decide) (by decide)).mp haccepts
      obtain ⟨digit, later, hlater, hdigit, -⟩ := hdigits.next_of_plus
      have hnone := h _ _ (Cursor.rest_of_next? hnext) rfl
      rw [Cursor.rest_of_next? hlater, List.head?_cons, Option.any_some] at hnone
      simp [CharSet.accepts, hnone] at hdigit

theorem prefers_numberTail (a : Cursor) :
    ∃ b c, a.Leads b ∧ b.Leads c ∧ Span.text ⟨a, c⟩ = numberTail a.rest ∧
      Prefers flags (star .greedy (one .digit)) a b [] ∧
      Prefers flags (star .greedy dotDigits) b c [] := by
  have hempty : Span.text ⟨a, a⟩ = [] := by simp [Span.text]
  induction hsize : a.size using Nat.strongRecOn generalizing a with
  | ind n ih =>
    cases hrest : a.rest with
    | nil =>
      exact ⟨a, a, .refl a, .refl a, hempty, .done (refuses_digit (by simp [hrest])),
        .done (refuses_dotDigits (by simp [hrest]))⟩
    | cons x xs =>
      obtain ⟨next, hnext, rfl⟩ := Cursor.exists_next hrest
      have hless := Cursor.size_of_next? hnext
      cases hx : isDigit x with
      | true =>
        obtain ⟨b, c, hb, hc, htext, hdigits, hdots⟩ :=
          ih next.size (by omega) next (by simp [Span.text]) rfl
        have hfirst : Prefers flags (one .digit) a next [] := prefers_one hnext hx
        refine ⟨b, c, .step hnext hb, hc, ?_, hfirst.more (by omega) hdigits, hdots⟩
        rw [Span.text_of_next? hnext (hb.trans hc), htext, numberTail, hx, Bool.true_or, if_pos rfl]
      | false =>
        have hstop : Prefers flags (star .greedy (one .digit)) a a [] :=
          .done (refuses_digit (by simp [hrest, hx]))
        by_cases hdot : x = '.' ∧ next.rest.head?.any isDigit = true
        · obtain ⟨rfl, hdigit⟩ := hdot
          obtain ⟨d, ds, hds⟩ : ∃ d ds, next.rest = d :: ds :=
            List.exists_cons_of_ne_nil fun hnil => by simp [hnil] at hdigit
          rw [hds, List.head?_cons, Option.any_some] at hdigit
          obtain ⟨later, hlater, rfl⟩ := Cursor.exists_next hds
          have hless' := Cursor.size_of_next? hlater
          obtain ⟨b, c, hb, hc, htext, hdigits, hdots⟩ :=
            ih later.size (by omega) later (by simp [Span.text]) rfl
          have hleads : next.Leads b := .step hlater hb
          have hfirst : Prefers flags (one .digit) next later [] := prefers_one hlater hdigit
          have hdotTaken : Prefers flags (one (.only '.')) a next [] :=
            prefers_one hnext ((accepts_only_iff (by decide) (by decide)).mpr rfl)
          have hround : Prefers flags dotDigits a b [] := hdotTaken.seq (hfirst.plus hdigits)
          have := hleads.size_le
          refine ⟨a, c, .refl a, .step hnext (hleads.trans hc), ?_, hstop,
            hround.more (by omega) hdots⟩
          rw [Span.text_of_next? hnext (hleads.trans hc), Span.text_of_next? hlater (hb.trans hc),
            htext, hds, numberTail, numberTail]
          simp [hdigit]
        · have htail : numberTail (x :: next.rest) = [] := by
            rw [numberTail, hx, Bool.false_or, if_neg]
            simpa using hdot
          refine ⟨a, a, .refl a, .refl a, hempty.trans htail.symm, hstop,
            .done (refuses_dotDigits ?_)⟩
          rintro c cs hcons rfl
          obtain ⟨rfl, rfl⟩ := List.cons.inj (hrest.symm.trans hcons)
          simpa using hdot

theorem prefers_dottedNumber {number : List Char} (h : number? a.rest = some number) :
    ∃ b, a.Leads b ∧ Span.text ⟨a, b⟩ = number ∧ Prefers flags dottedNumber a b [] := by
  obtain ⟨digit, rest, hrest⟩ : ∃ digit rest, a.rest = digit :: rest :=
    List.exists_cons_of_ne_nil fun hnil => by simp [hnil, number?] at h
  rw [hrest] at h
  obtain ⟨hdigit, hnumber⟩ := Option.ite_none_right_eq_some.mp h
  obtain rfl := Option.some.inj hnumber
  obtain ⟨next, hnext, rfl⟩ := Cursor.exists_next hrest
  obtain ⟨b, c, hb, hc, htext, hdigits, hdots⟩ := @prefers_numberTail flags next
  have hfirst : Prefers flags (one .digit) a next [] := prefers_one hnext hdigit
  refine ⟨c, .step hnext (hb.trans hc), ?_, (hfirst.plus hdigits).seq hdots⟩
  rw [Span.text_of_next? hnext (hb.trans hc), htext]

/-! ## Citations -/

theorem exists_citation_of_takes {marks : List Mark}
    (h : Takes numberCitation.flags numberCitation.pattern a b marks) :
    ∃ number, citation? a.rest = some number := by
  cases h with
  | @seq _ _ _ place _ _ _ hword hrest =>
    cases hrest with
    | @seq _ _ _ place' _ _ _ hgap hcapture =>
      cases hcapture with
      | capture _ hnumber =>
        cases hnumber with
        | seq hdigits hdots =>
          obtain ⟨digit, next, hnext, hdigit, -⟩ := hdigits.next_of_plus
          obtain ⟨c, next', hnext', -, hleads'⟩ := hgap.next_of_plus
          obtain ⟨after, hafter⟩ := numberTail_prefix next.rest
          have hgapText : Span.text ⟨place, place'⟩ ≠ [] := by
            rw [Span.text_of_next? hnext' hleads']
            exact List.cons_ne_nil _ _
          refine ⟨digit :: numberTail next.rest, citation?_eq_some_iff.mpr
            ⟨Span.text ⟨a, place⟩, Span.text ⟨place, place'⟩, after, ?_,
              map_fold_of_takes_citingWord rfl hword, hgapText, hgap.accepts_of_plus, ?_⟩⟩
          · rw [List.cons_append, hafter, ← Cursor.rest_of_next? hnext,
              Span.text_append_rest hgap.leads, Span.text_append_rest hword.leads]
          · rw [List.cons_append, hafter]
            exact if_pos hdigit

theorem prefers_citation {word gap number after : List Char}
    (h : IsCitation a.rest word gap number after) :
    ∃ place stop, a.Leads stop ∧ Span.text ⟨a, stop⟩ = word ++ (gap ++ number) ∧
      Span.text ⟨place, stop⟩ = number ∧
      Prefers numberCitation.flags numberCitation.pattern a stop
        [.opened 1 place, .closed 1 stop] := by
  obtain ⟨heq, hword, hne, hgap, hnumber⟩ := h
  obtain ⟨b, hb, hrest, hwordText⟩ := Cursor.exists_leads heq
  obtain ⟨place, hplace, hplaceRest, hgapText⟩ := Cursor.exists_leads hrest
  rw [← hplaceRest] at hnumber
  obtain ⟨stop, hstop, hnumberText, hnumberTaken⟩ :=
    @prefers_dottedNumber numberCitation.flags place number hnumber
  have hwordTaken : Prefers numberCitation.flags citingWord a b [] :=
    prefers_citingWord rfl hb (hwordText ▸ hword)
  have hgapTaken : Prefers numberCitation.flags Pattern.gap b place [] := by
    refine prefers_plus_run hplace (hgapText ▸ hne) (hgapText ▸ hgap) fun c next hnext => ?_
    rw [Cursor.rest_of_next? hnext] at hnumber
    exact not_isBlank_of_isDigit (Option.ite_none_right_eq_some.mp hnumber).1
  refine ⟨place, stop, hb.trans (hplace.trans hstop), ?_, hnumberText,
    hwordTaken.seq (hgapTaken.seq (hnumberTaken.capture 1))⟩
  rw [← Cursor.text_append hb (hplace.trans hstop), ← Cursor.text_append hplace hstop, hwordText,
    hgapText, hnumberText]

/-! ## All citations of a text -/

theorem exists_matchAt {number : List Char} (h : citation? a.rest = some number) :
    ∃ m, numberCitation.matchAt a = some m ∧ m.group? 1 = some number := by
  obtain ⟨word, gap, after, hcitation⟩ := citation?_eq_some_iff.mp h
  obtain ⟨place, stop, -, -, hnumber, hprefers⟩ := prefers_citation hcitation
  refine ⟨_, Expression.matchAt_of_prefers hprefers, ?_⟩
  have hmarks : (⟨⟨a, stop⟩, [.opened 1 place, .closed 1 stop]⟩ : Match).marks =
      [] ++ .opened 1 place :: ([] ++ .closed 1 stop :: []) := rfl
  rw [(Match.group?_of_marks hmarks (by simp) (by simp)).2, hnumber]

theorem matchAt_eq_none (h : citation? a.rest = none) : numberCitation.matchAt a = none := by
  refine Option.eq_none_iff_forall_ne_some.mpr fun m hm => ?_
  obtain ⟨rfl, htakes⟩ := Expression.takes_of_matchAt hm
  obtain ⟨number, hnumber⟩ := exists_citation_of_takes htakes
  simp [h] at hnumber

theorem apart_numberCitation : Match.Apart numberCitation.matchAt := by
  have hparts : ∀ {place : Cursor} {m : Match}, numberCitation.matchAt place = some m →
      ∃ word gap number after, IsCitation place.rest word gap number after ∧
        place.Leads m.stop ∧ Span.text ⟨place, m.stop⟩ = word ++ (gap ++ number) := by
    intro place m hm
    cases hcitation : citation? place.rest with
    | none => simp [matchAt_eq_none hcitation] at hm
    | some number =>
      obtain ⟨word, gap, after, hparts⟩ := citation?_eq_some_iff.mp hcitation
      obtain ⟨_, stop, hstop, htext, -, hprefers⟩ := prefers_citation hparts
      rw [Expression.matchAt_of_prefers hprefers] at hm
      obtain rfl := Option.some.inj hm
      exact ⟨word, gap, number, after, hparts, hstop, htext⟩
  refine ⟨fun hm => (Expression.takes_of_matchAt hm).1, fun {place m} hm => ?_,
    fun {place m later} hm hlater hless hinside => ?_⟩
  · obtain ⟨word, gap, number, after, hcitation, hstop, htext⟩ := hparts hm
    have hword := (isLatin_of_citing hcitation.word).1
    have hlength := Cursor.length_text hstop
    rw [htext, List.length_append] at hlength
    have := List.length_pos_iff.mpr hword
    exact ⟨hstop, by omega⟩
  · obtain ⟨word, gap, number, after, hcitation, hstop, htext⟩ := hparts hm
    have hlength := Cursor.length_text hstop
    rw [htext] at hlength
    refine matchAt_eq_none ?_
    rw [Cursor.rest_eq_drop hlater]
    exact hcitation.inside (by omega) (by omega)

/-- A text cites the numbers that its ends start to cite. -/
theorem citedNumbers_eq (text : String) :
    citedNumbers text = (cited text.toList).map String.ofList := by
  rw [citedNumbers, Expression.findAll_eq, apart_numberCitation.allFrom_eq, cited,
    List.filterMap_filterMap, ← Cursor.rest_ofChars text.toList, ← Cursor.map_rest_forward,
    List.filterMap_map, List.map_filterMap]
  refine List.filterMap_congr fun place _ => ?_
  cases hcitation : citation? place.rest with
  | none => simp [matchAt_eq_none hcitation, hcitation]
  | some number =>
    obtain ⟨m, hm, hgroup⟩ := exists_matchAt hcitation
    simp [hm, hgroup, hcitation]

theorem mem_citedNumbers_iff {text reference : String} :
    reference ∈ citedNumbers text ↔ Cites text.toList reference.toList := by
  rw [citedNumbers_eq, List.mem_map]
  simp only [mem_cited_iff]
  constructor
  · rintro ⟨number, hcites, rfl⟩
    rwa [String.toList_ofList]
  · exact fun hcites => ⟨_, hcites, String.ofList_toList⟩

theorem exists_digit_of_mem_citedNumbers {text reference : String}
    (h : reference ∈ citedNumbers text) :
    ∃ digit rest, reference.toList = digit :: rest ∧ isDigit digit = true := by
  obtain ⟨rest, -, hcitation⟩ := mem_citedNumbers_iff.mp h
  obtain ⟨word, gap, after, hparts⟩ := citation?_eq_some_iff.mp hcitation
  obtain ⟨digit, tail, heq, hdigit, -⟩ := number?_eq_some_iff.mp hparts.number
  exact ⟨digit, tail, heq, hdigit⟩

theorem eq_dot_or_isDigit_of_mem_citedNumbers {text reference : String}
    (h : reference ∈ citedNumbers text) {c : Char} (hc : c ∈ reference.toList) :
    c = '.' ∨ isDigit c = true := by
  obtain ⟨rest, -, hcitation⟩ := mem_citedNumbers_iff.mp h
  obtain ⟨word, gap, after, hparts⟩ := citation?_eq_some_iff.mp hcitation
  exact eq_dot_or_isDigit_of_mem hparts.number hc

end ContractAnalysis
