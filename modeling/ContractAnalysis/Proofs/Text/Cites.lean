import ContractAnalysis.Proofs.Text.Citation

/-!
# The numbers that a text cites

A text cites the numbers that its ends start to cite, one by one (`cited`). What a part of a text
cites is cited by the text, unless the text continues the number (`Cites.append`), and white space
around a text changes nothing (`Pads.cited_eq`). Two texts that are joined by a space cite together
what the first one cites and then what the second one cites. One number may come in between: that
at the start of the second text, where the word of a citation ends the first (`cited_joined`).
-/

namespace ContractAnalysis.Text

/-- A text cites a number somewhere. -/
def Cites (cs number : List Char) : Prop := ∃ rest, rest <:+ cs ∧ citation? rest = some number

/-- The word of a citation ends one text, and its number starts another. -/
def CitesAcross (cs ds number : List Char) : Prop :=
  (∃ word, word <:+ cs ∧ word.map fold ∈ citingWords) ∧ number? ds = some number

/-- The numbers that a text cites, in order and with repetitions. -/
def cited (cs : List Char) : List (List Char) := cs.tails.filterMap citation?

/-- The number that two texts cite together and neither cites alone. -/
def numberAcross (cs ds : List Char) : Option (List Char) :=
  if citingWords.any fun word => word.isSuffixOf (cs.map fold) then number? ds else none

variable {cs ds number : List Char}

theorem mem_cited_iff : number ∈ cited cs ↔ Cites cs number := by
  simp only [cited, List.mem_filterMap, List.mem_tails, Cites]

theorem cited_cons (c : Char) (cs : List Char) :
    cited (c :: cs) = (citation? (c :: cs)).toList ++ cited cs := by
  rw [cited, List.tails_cons, List.filterMap_cons]
  cases citation? (c :: cs) <;> rfl

theorem numberTail_of_isBlankText (h : IsBlankText cs) : numberTail cs = [] := by
  cases cs with
  | nil => rfl
  | cons c cs => exact numberTail_of_isBlank (h c List.mem_cons_self) cs

theorem Cites.append (h : Cites cs number) (before : List Char) {after : List Char}
    (hafter : numberTail after = []) : Cites (before ++ cs ++ after) number := by
  obtain ⟨rest, ⟨others, rfl⟩, hcitation⟩ := h
  exact ⟨rest ++ after, ⟨before ++ others, by simp⟩, citation?_append hcitation hafter⟩

theorem cited_of_not_isBlank (h : ∀ c ∈ cs, isBlank c = false) : cited cs = [] := by
  refine List.filterMap_eq_nil_iff.mpr fun rest hrest => ?_
  refine Option.eq_none_iff_forall_ne_some.mpr fun number hnumber => ?_
  obtain ⟨word, gap, after, rfl, -, hne, hgap, -⟩ := citation?_eq_some_iff.mp hnumber
  obtain ⟨c, gap, rfl⟩ := List.exists_cons_of_ne_nil hne
  have hc := h c (((List.mem_tails _ _).mp hrest).subset (by simp))
  exact Bool.false_ne_true (hc.symm.trans (hgap c List.mem_cons_self))

/-! ## White space around a text -/

theorem cited_blank_append {before : List Char} (h : IsBlankText before) (cs : List Char) :
    cited (before ++ cs) = cited cs := by
  induction before with
  | nil => rfl
  | cons c before ih =>
    obtain ⟨hblank, hrest⟩ := List.forall_mem_cons.mp h
    have hnone : citation? (c :: (before ++ cs)) = none := by
      refine Option.eq_none_iff_forall_ne_some.mpr fun number hnumber => ?_
      exact Bool.false_ne_true ((isLatin_of_citation? hnumber).not_isBlank.symm.trans hblank)
    rw [List.cons_append, cited_cons, hnone, ih hrest]
    rfl

theorem citation?_append_blank {after : List Char} (h : IsBlankText after) (cs : List Char) :
    citation? (cs ++ after) = citation? cs := by
  cases after with
  | nil => rw [List.append_nil]
  | cons c after =>
    obtain ⟨hblank, hafter⟩ := List.forall_mem_cons.mp h
    refine Option.ext fun number => ⟨fun hnumber => ?_, fun hnumber => ?_⟩
    · refine (citation?_of_append hblank hnumber).resolve_right fun hacross => ?_
      rw [trimStart_of_isBlankText hafter] at hacross
      simp [number?] at hacross
    · exact citation?_append hnumber (numberTail_of_isBlankText h)

theorem cited_append_blank {after : List Char} (h : IsBlankText after) (cs : List Char) :
    cited (cs ++ after) = cited cs := by
  induction cs with
  | nil => simpa using cited_blank_append h []
  | cons c cs ih =>
    rw [cited_cons, ← citation?_append_blank h (c :: cs), ← ih, List.cons_append, cited_cons]

theorem Pads.cited_eq (h : Pads cs ds) : cited ds = cited cs := by
  obtain ⟨before, after, rfl, hbefore, hafter⟩ := h
  rw [cited_append_blank hafter, cited_blank_append hbefore]

theorem Pads.cites_iff (h : Pads cs ds) : Cites ds number ↔ Cites cs number := by
  rw [← mem_cited_iff, ← mem_cited_iff, h.cited_eq]

/-! ## White space between two texts -/

section Across

theorem any_isSuffixOf_iff :
    (citingWords.any fun word => word.isSuffixOf (cs.map fold)) = true ↔
      ∃ word, word <:+ cs ∧ word.map fold ∈ citingWords := by
  rw [List.any_eq_true]
  constructor
  · rintro ⟨word, hword, hsuffix⟩
    obtain ⟨before, heq⟩ := List.isSuffixOf_iff_suffix.mp hsuffix
    obtain ⟨_, other, rfl, -, rfl⟩ := List.map_eq_append_iff.mp heq.symm
    exact ⟨other, List.suffix_append _ _, hword⟩
  · rintro ⟨word, hsuffix, hword⟩
    exact ⟨_, hword, List.isSuffixOf_iff_suffix.mpr (hsuffix.map fold)⟩

theorem numberAcross_eq_some_iff :
    numberAcross cs ds = some number ↔ CitesAcross cs ds number := by
  rw [numberAcross, Option.ite_none_right_eq_some, any_isSuffixOf_iff, CitesAcross]

theorem numberAcross_eq_none (h : ¬∃ word, word <:+ cs ∧ word.map fold ∈ citingWords) :
    numberAcross cs ds = none := by
  rw [numberAcross, if_neg (mt any_isSuffixOf_iff.mp h)]

theorem not_suffix_of_citing {c : Char} (h : (c :: cs).map fold ∈ citingWords) :
    ¬∃ word, word <:+ cs ∧ word.map fold ∈ citingWords := by
  have hapart : ∀ word ∈ citingWords, ∀ other ∈ citingWords, ¬other <:+ word.tail := by decide
  rintro ⟨word, hsuffix, hword⟩
  exact hapart _ h _ hword (by simpa using hsuffix.map fold)

theorem numberAcross_cons {c : Char} (h : (c :: cs).map fold ∉ citingWords) :
    numberAcross (c :: cs) ds = numberAcross cs ds := by
  refine Option.ext fun number => ?_
  rw [numberAcross_eq_some_iff, numberAcross_eq_some_iff]
  refine and_congr_left fun _ => exists_congr fun word => and_congr_left fun hword => ?_
  rw [List.suffix_cons_iff]
  exact or_iff_right fun heq => h (heq ▸ hword)

variable {gap : List Char} (hgap : IsBlankText gap) (hne : gap ≠ [])
include hgap hne

theorem citation?_of_citing (hword : cs.map fold ∈ citingWords)
    (hds : ∀ c ∈ ds.head?, isBlank c = false) : citation? (cs ++ (gap ++ ds)) = number? ds := by
  refine Option.ext fun number => ⟨fun hnumber => ?_, fun hnumber => ?_⟩
  · obtain ⟨c, gap, rfl⟩ := List.exists_cons_of_ne_nil hne
    obtain ⟨hblank, hgap⟩ := List.forall_mem_cons.mp hgap
    have hstart : trimStart (gap ++ ds) = ds := by
      rw [trimStart, List.dropWhile_append_of_pos hgap]
      cases ds with
      | nil => rfl
      | cons d ds => exact List.dropWhile_cons_of_neg (by simp [hds d rfl])
    rw [List.cons_append] at hnumber
    rcases citation?_of_append hblank hnumber with hwithin | ⟨hacross, -⟩
    · have hnil := cited_of_not_isBlank fun c hc => ((isLatin_of_citing hword).2 c hc).not_isBlank
      have hmem := mem_cited_iff.mpr ⟨cs, List.suffix_refl cs, hwithin⟩
      exact absurd hmem (by simp [hnil])
    · rwa [hstart] at hacross
  · obtain ⟨digit, tail, rfl, -, after, rfl, -⟩ := number?_eq_some_iff.mp hnumber
    exact citation?_eq_some_iff.mpr ⟨cs, gap, after, rfl, hword, hne, hgap, hnumber⟩

theorem citation?_of_not_citing (hword : cs.map fold ∉ citingWords)
    (hcs : ∀ c ∈ cs.getLast?, isBlank c = false) :
    citation? (cs ++ (gap ++ ds)) = citation? cs := by
  obtain ⟨c, gap, rfl⟩ := List.exists_cons_of_ne_nil hne
  obtain ⟨hblank, -⟩ := List.forall_mem_cons.mp hgap
  refine Option.ext fun number => ⟨fun hnumber => ?_, fun hnumber => ?_⟩
  · refine (citation?_of_append hblank hnumber).resolve_right ?_
    rintro ⟨-, word, after, rfl, hmem, hafter⟩
    rcases after.eq_nil_or_concat with rfl | ⟨init, last, rfl⟩
    · exact hword (by simpa using hmem)
    · exact Bool.false_ne_true ((hcs last (by simp)).symm.trans (hafter last (by simp)))
  · exact citation?_append hnumber (numberTail_of_isBlank hblank _)

/-- Two texts with white space between them cite what each cites, and what they cite across it. -/
theorem cited_append_gap (hcs : ∀ c ∈ cs.getLast?, isBlank c = false)
    (hds : ∀ c ∈ ds.head?, isBlank c = false) :
    cited (cs ++ (gap ++ ds)) = cited cs ++ ((numberAcross cs ds).toList ++ cited ds) := by
  induction cs with
  | nil =>
    rw [numberAcross_eq_none (by simp [citingWords])]
    exact cited_blank_append hgap ds
  | cons c cs ih =>
    have hrest : ∀ d ∈ cs.getLast?, isBlank d = false := by
      intro d hd
      refine hcs d ?_
      rw [List.getLast?_cons, Option.mem_def.mp hd]
      rfl
    rw [List.cons_append, cited_cons, cited_cons, ih hrest, ← List.cons_append]
    by_cases hword : (c :: cs).map fold ∈ citingWords
    · -- Nothing but the word: it cites nothing, nor does what is left of it.
      have hblank : ∀ d ∈ c :: cs, isBlank d = false := fun d hd =>
        ((isLatin_of_citing hword).2 d hd).not_isBlank
      have hnil := cited_of_not_isBlank hblank
      rw [cited_cons, List.append_eq_nil_iff] at hnil
      have hacross : numberAcross (c :: cs) ds = number? ds :=
        if_pos (any_isSuffixOf_iff.mpr ⟨c :: cs, List.suffix_refl _, hword⟩)
      rw [citation?_of_citing hgap hne hword hds, hacross,
        numberAcross_eq_none (not_suffix_of_citing hword), hnil.1, hnil.2]
      rfl
    · rw [citation?_of_not_citing hgap hne hword hcs, numberAcross_cons hword, List.append_assoc]

end Across

/-! ## Joined texts -/

/-- What two texts that are joined by a space cite, said of the texts without white space around
them. -/
theorem cited_joined (cs ds : List Char) :
    cited (cs ++ ' ' :: ds) = cited (trimChars cs) ++
      ((numberAcross (trimChars cs) (trimChars ds)).toList ++ cited (trimChars ds)) := by
  obtain ⟨before, after, hcs, hbefore, hafter⟩ := pads_trimChars cs
  obtain ⟨before', after', hds, hbefore', hafter'⟩ := pads_trimChars ds
  have hgap : IsBlankText (after ++ ' ' :: before') :=
    List.forall_mem_append.mpr ⟨hafter, List.forall_mem_cons.mpr ⟨by decide, hbefore'⟩⟩
  have hpads : Pads (trimChars cs ++ ((after ++ ' ' :: before') ++ trimChars ds))
      (cs ++ ' ' :: ds) := by
    refine ⟨before, after', ?_, hbefore, hafter'⟩
    conv_lhs => rw [hcs, hds]
    simp
  rw [hpads.cited_eq, cited_append_gap hgap (by simp) (not_isBlank_getLast?_trimChars cs)
    (not_isBlank_head?_trimChars ds)]

theorem Cites.of_joined (h : Cites (cs ++ ' ' :: ds) number) :
    Cites (trimChars cs) number ∨ Cites (trimChars ds) number ∨
      CitesAcross (trimChars cs) (trimChars ds) number := by
  rw [← mem_cited_iff, cited_joined, List.mem_append, List.mem_append, Option.mem_toList,
    numberAcross_eq_some_iff, mem_cited_iff, mem_cited_iff] at h
  exact h.imp_right Or.symm

end ContractAnalysis.Text
