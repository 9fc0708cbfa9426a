import ContractAnalysis.FactRule
import ContractAnalysis.Proofs.Pattern.Matches
import ContractAnalysis.Proofs.Text.Character
import ContractAnalysis.Proofs.Text.Words

/-!
# Roles and words

A text names a role exactly when the noun is one of its words, in any case (`namesRole_iff`). So the
roles that a text names are settled by its words (`partiesIn_congr`), and what divides a text
without cutting a word divides its roles as well (`roles_of_words`).
-/

namespace ContractAnalysis

open Pattern Text

/-- Whether a noun consists of letters from `a` to `z`, in any case. -/
def isPlainNoun (noun : String) : Bool :=
  !noun.toList.isEmpty && isLowercaseLatin (noun.toList.map fold)

theorem isPlainNoun_of_mem_roleNouns {noun : String} (h : noun ∈ roleNouns) :
    isPlainNoun noun = true := by
  have hall : roleNouns.all isPlainNoun = true := by decide +kernel
  exact List.all_eq_true.mp hall noun h

theorem isWord_of_map_fold_eq {noun : String} (hnoun : isPlainNoun noun = true) {word : List Char}
    (h : word.map fold = noun.toList.map fold) : word ≠ [] ∧ ∀ c ∈ word, isWord c = true := by
  simp only [isPlainNoun, Bool.and_eq_true, Bool.not_eq_true', List.isEmpty_eq_false_iff] at hnoun
  obtain ⟨hne, hletters⟩ := hnoun
  refine ⟨?_, fun c hc => (isLatin_of_map_fold h hletters c hc).isWord⟩
  rintro rfl
  exact hne (by simpa using h.symm)

theorem atWordBoundary_iff {a b : Cursor} (h : a.Leads b) (hne : Span.text ⟨a, b⟩ ≠ [])
    (hword : ∀ c ∈ Span.text ⟨a, b⟩, isWord c = true) :
    (a.atWordBoundary = true ↔ IsBoundary a.before) ∧
      (b.atWordBoundary = true ↔ IsBoundary b.rest.head?) := by
  have hfirst : Cursor.isWordAt a.rest.head? = true := by
    obtain ⟨c, cs, hcs⟩ := List.exists_cons_of_ne_nil hne
    rw [← Span.text_append_rest h, hcs]
    exact hword c (hcs ▸ List.mem_cons_self)
  have hlast : Cursor.isWordAt b.before = true := by
    rw [Cursor.before_of_leads h, List.getLast?_eq_some_getLast hne]
    exact hword _ (List.getLast_mem hne)
  exact ⟨Cursor.atWordBoundary_iff_before hfirst, Cursor.atWordBoundary_iff_after hlast⟩

theorem takes_wholeWord {noun : String} {a b : Cursor} {marks : List Mark}
    (h : (wholeWord noun).pattern.Takes (wholeWord noun).flags a b marks) :
    a.Leads b ∧ (Span.text ⟨a, b⟩).map fold = noun.toList.map fold ∧
      a.atWordBoundary = true ∧ b.atWordBoundary = true := by
  cases h with
  | seq hbefore hrest =>
    cases hrest with
    | seq hnoun hafter =>
      cases hbefore with
      | wordBoundary hbefore =>
        cases hafter with
        | wordBoundary hafter => exact ⟨hnoun.leads, fold_eq_of_takes rfl hnoun, hbefore, hafter⟩

/-- A text names a role if the noun is one of its words, in any case. -/
theorem namesRole_iff {noun : String} (hnoun : isPlainNoun noun = true) {text : String} :
    namesRole text noun = true ↔
      ∃ word ∈ words text.toList, word.map fold = noun.toList.map fold := by
  rw [namesRole, Expression.isMatch_iff]
  constructor
  · rintro ⟨place, stop, marks, hplace, htakes⟩
    obtain ⟨hleads, hfold, hbefore, hafter⟩ := takes_wholeWord htakes
    obtain ⟨hne, hword⟩ := isWord_of_map_fold_eq hnoun hfold
    obtain ⟨hstart, hstop⟩ := atWordBoundary_iff hleads hne hword
    refine ⟨Span.text ⟨place, stop⟩, mem_words_iff.mpr ⟨hne, hword,
      Span.text ⟨Cursor.ofChars text.toList, place⟩, stop.rest, ?_, ?_, hstop.mp hafter⟩, hfold⟩
    · rw [List.append_assoc, Span.text_append_rest hleads, Span.text_append_rest hplace,
        Cursor.rest_ofChars]
    · have hboundary := hstart.mp hbefore
      rwa [Cursor.before_of_leads hplace, Cursor.ofChars, Option.or_none] at hboundary
  · rintro ⟨word, hmem, hfold⟩
    obtain ⟨hne, hword, before, after, htext, hbefore, hafter⟩ := mem_words_iff.mp hmem
    obtain ⟨place, hplace, hrest, hleft⟩ : ∃ place, (Cursor.ofChars text.toList).Leads place ∧
        place.rest = word ++ after ∧ Span.text ⟨Cursor.ofChars text.toList, place⟩ = before :=
      Cursor.exists_leads (by rw [Cursor.rest_ofChars, htext, List.append_assoc])
    obtain ⟨stop, hstop, hafter', hpart⟩ := Cursor.exists_leads hrest
    obtain ⟨hboundary, hboundary'⟩ := atWordBoundary_iff hstop (hpart ▸ hne) (hpart ▸ hword)
    have hprefers : Prefers (wholeWord noun).flags (literal noun) place stop [] :=
      prefers_ofChars rfl hstop (hpart ▸ hfold)
    refine ⟨place, stop, _, hplace, .seq (.wordBoundary (hboundary.mpr ?_))
      (.seq (hprefers.takes hstop) (.wordBoundary (hboundary'.mpr (hafter'.symm ▸ hafter))))⟩
    rwa [Cursor.before_of_leads hplace, hleft, Cursor.ofChars, Option.or_none]

theorem partiesIn_congr {text other : String} (h : words text.toList = words other.toList) :
    partiesIn text = partiesIn other := by
  refine List.filter_congr fun noun hnoun => ?_
  have hplain := isPlainNoun_of_mem_roleNouns hnoun
  rw [Bool.eq_iff_iff, namesRole_iff hplain, namesRole_iff hplain, h]

/-! ## The roster -/

/-- A noun is, up to case, a run of word characters of a text that cannot be made longer. -/
def IsWordOf (noun text : String) : Prop :=
  ∃ before word after, text.toList = before ++ word ++ after ∧
    (∀ c ∈ word, isWord c = true) ∧ IsBoundary before.getLast? ∧ IsBoundary after.head? ∧
    word.map fold = noun.toList.map fold

theorem isWordOf_iff {noun : String} (hnoun : isPlainNoun noun = true) {text : String} :
    IsWordOf noun text ↔ ∃ word ∈ words text.toList, word.map fold = noun.toList.map fold := by
  simp only [mem_words_iff]
  constructor
  · rintro ⟨before, word, after, htext, hword, hbefore, hafter, hfold⟩
    exact ⟨word, ⟨(isWord_of_map_fold_eq hnoun hfold).1, hword, before, after, htext, hbefore,
      hafter⟩, hfold⟩
  · rintro ⟨word, ⟨-, hword, before, after, htext, hbefore, hafter⟩, hfold⟩
    exact ⟨before, word, after, htext, hword, hbefore, hafter, hfold⟩

theorem mem_partiesIn_iff {text noun : String} :
    noun ∈ partiesIn text ↔ noun ∈ roleNouns ∧
      ∃ word ∈ words text.toList, word.map fold = noun.toList.map fold := by
  rw [partiesIn, List.mem_filter]
  exact and_congr_right fun hnoun => namesRole_iff (isPlainNoun_of_mem_roleNouns hnoun)

theorem partiesIn_append {a gap b : String} (hne : gap ≠ "") (hgap : isBlankText gap = true) :
    partiesIn (a ++ gap ++ b) =
      roleNouns.filter fun noun => noun ∈ partiesIn a ∨ noun ∈ partiesIn b := by
  have hwords : words (a ++ gap ++ b).toList = words a.toList ++ words b.toList := by
    rw [String.toList_append, String.toList_append]
    refine words_append_gap (by simpa using hne) (fun c hc => ?_) _ _
    exact not_isWord_of_isBlank (List.all_eq_true.mp hgap c hc)
  rw [partiesIn]
  refine List.filter_congr fun noun hnoun => ?_
  rw [Bool.eq_iff_iff, decide_eq_true_iff, namesRole_iff (isPlainNoun_of_mem_roleNouns hnoun),
    hwords, mem_partiesIn_iff, mem_partiesIn_iff, and_iff_right hnoun, and_iff_right hnoun]
  simp only [List.mem_append, or_and_right, exists_or]

theorem partiesIn_sublist {text other : String} (h : words text.toList ⊆ words other.toList) :
    (partiesIn text).Sublist (partiesIn other) := by
  have hfilter : partiesIn text = (partiesIn other).filter (namesRole text) := by
    rw [partiesIn, partiesIn, List.filter_filter]
    refine List.filter_congr fun noun hnoun => ?_
    have hplain := isPlainNoun_of_mem_roleNouns hnoun
    rw [Bool.eq_iff_iff, Bool.and_eq_true, iff_self_and, namesRole_iff hplain, namesRole_iff hplain]
    exact fun ⟨word, hword, hfold⟩ => ⟨word, h hword, hfold⟩
  rw [hfilter]
  exact List.filter_sublist

theorem words_lines (ls : List String) :
    words ("\n".intercalate ls).toList = ls.flatMap fun l => words l.toList := by
  rw [String.toList_intercalate]
  exact (words_joinLines _).trans (List.flatMap_map _ _ _)

/-- **The roles of a text are the nouns of the roster that are words of it**, up to case and in the
order of the roster. So texts with white space between them name together what each of them names,
and no role is lost when lines are added to a text. -/
theorem roles_of_words :
    (∀ text, (partiesIn text).Sublist roleNouns ∧ (partiesIn text).Nodup ∧
      (∀ noun, noun ∈ partiesIn text ↔ noun ∈ roleNouns ∧ IsWordOf noun text) ∧
      firstPartyIn text = (partiesIn text).head?) ∧
    (∀ a gap b : String, gap ≠ "" → isBlankText gap = true →
      partiesIn (a ++ gap ++ b) =
        roleNouns.filter fun noun => noun ∈ partiesIn a ∨ noun ∈ partiesIn b) ∧
    ∀ ls more : List String, ls.Sublist more →
      (partiesIn ("\n".intercalate ls)).Sublist (partiesIn ("\n".intercalate more)) := by
  refine ⟨fun text => ⟨List.filter_sublist, ?_, fun noun => ?_, ?_⟩,
    fun a gap b => partiesIn_append, fun ls more hlines => partiesIn_sublist ?_⟩
  · have hroster : roleNouns.Nodup := by decide
    exact hroster.filter _
  · rw [mem_partiesIn_iff]
    exact and_congr_right fun hnoun => (isWordOf_iff (isPlainNoun_of_mem_roleNouns hnoun)).symm
  · rw [firstPartyIn, partiesIn, List.head?_filter]
  · rw [words_lines, words_lines]
    intro word hword
    obtain ⟨line, hline, hmem⟩ := List.mem_flatMap.mp hword
    exact List.mem_flatMap.mpr ⟨line, hlines.subset hline, hmem⟩

/-- A long `s`, and a line put between two others. -/
theorem roles_of_words_tenant :
    let ls := ["Sellers", "the buyer"]
    let more := ["Sellers", "and a lender or", "the buyer"]
    partiesIn ("The TENANT pays" ++ "\r\n" ++ "the ſeller.") = ["Seller", "Tenant"] ∧
      ls.Sublist more ∧
      (partiesIn ("\n".intercalate ls)).Sublist (partiesIn ("\n".intercalate more)) := by
  intro ls more
  obtain ⟨-, hjoined, hlines⟩ := roles_of_words
  have hadded : ls.Sublist more := by decide
  refine ⟨?_, hadded, hlines ls more hadded⟩
  rw [hjoined "The TENANT pays" "\r\n" "the ſeller." (by decide) (by decide +kernel)]
  decide +kernel

end ContractAnalysis
