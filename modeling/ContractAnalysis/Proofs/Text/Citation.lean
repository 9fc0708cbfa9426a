import ContractAnalysis.Proofs.Text.Character
import ContractAnalysis.Proofs.Text.Lead

/-!
# A citation at the start of a text

A text starts with a citation if it starts with `clause`, `section` or `article` in any case, white
space, and a dotted number; the number is as long as it can be (`citation?`). What comes behind a
text does not change the citation that it starts with, unless it continues the number
(`citation?_append`), and white space behind a text adds one only where the text is nothing but the
word (`citation?_of_append`).
-/

namespace ContractAnalysis.Text

/-! ## Dotted numbers -/

/-- The rest of a dotted number behind a digit: digits, and single dots before digits. -/
def numberTail : List Char → List Char
  | [] => []
  | c :: cs =>
    if isDigit c || (c == '.' && cs.head?.any isDigit) then c :: numberTail cs else []

/-- The dotted number that a text starts with. -/
def number? : List Char → Option (List Char)
  | [] => none
  | c :: cs => if isDigit c then some (c :: numberTail cs) else none

theorem numberTail_prefix (cs : List Char) : numberTail cs <+: cs := by
  fun_induction numberTail cs with
  | case1 => exact List.nil_prefix
  | case2 c cs _ ih => exact List.cons_prefix_cons.mpr ⟨rfl, ih⟩
  | case3 => exact List.nil_prefix

theorem eq_dot_or_isDigit_of_mem_numberTail {cs : List Char} {c : Char} (h : c ∈ numberTail cs) :
    c = '.' ∨ isDigit c = true := by
  fun_induction numberTail cs with
  | case1 => simp at h
  | case2 d cs hd ih =>
    rcases List.mem_cons.mp h with rfl | h
    · simp only [Bool.or_eq_true, Bool.and_eq_true, beq_iff_eq] at hd
      exact hd.symm.imp_left And.left
    · exact ih h
  | case3 => simp at h

theorem not_isDigit_of_numberTail_eq_nil {cs : List Char} (h : numberTail cs = []) :
    cs.head?.any isDigit = false := by
  cases cs with
  | nil => rfl
  | cons c cs =>
    rw [List.head?_cons, Option.any_some, ← Bool.not_eq_true]
    intro hdigit
    simp [numberTail, hdigit] at h

theorem numberTail_append {after : List Char} (h : numberTail after = []) (cs : List Char) :
    numberTail (cs ++ after) = numberTail cs := by
  induction cs with
  | nil => exact h
  | cons c cs ih =>
    have hnext : (cs ++ after).head?.any isDigit = cs.head?.any isDigit := by
      cases cs with
      | nil => exact not_isDigit_of_numberTail_eq_nil h
      | cons => rfl
    rw [List.cons_append, numberTail, numberTail, ih, hnext]

theorem numberTail_eq_nil {c : Char} {cs : List Char} (hdigit : isDigit c = false)
    (hdot : c = '.' → cs.head?.any isDigit = false) : numberTail (c :: cs) = [] := by
  rw [numberTail, if_neg]
  simpa [hdigit] using hdot

theorem numberTail_of_isBlank {c : Char} (h : isBlank c = true) (cs : List Char) :
    numberTail (c :: cs) = [] := by
  refine numberTail_eq_nil (not_isDigit_of_isBlank h) ?_
  rintro rfl
  exact absurd h (by decide)

theorem number?_eq_some_iff {cs number : List Char} :
    number? cs = some number ↔ ∃ digit tail, number = digit :: tail ∧ isDigit digit = true ∧
      ∃ after, cs = number ++ after ∧ numberTail (tail ++ after) = tail := by
  constructor
  · intro h
    cases cs with
    | nil => simp [number?] at h
    | cons c cs =>
      obtain ⟨hdigit, hnumber⟩ := Option.ite_none_right_eq_some.mp h
      obtain rfl := Option.some.inj hnumber
      obtain ⟨after, hafter⟩ := numberTail_prefix cs
      exact ⟨c, _, rfl, hdigit, after, by rw [List.cons_append, hafter], by rw [hafter]⟩
  · rintro ⟨digit, tail, rfl, hdigit, after, rfl, htail⟩
    rw [List.cons_append, number?, if_pos hdigit, htail]

theorem eq_dot_or_isDigit_of_mem {cs number : List Char} (h : number? cs = some number) {c : Char}
    (hc : c ∈ number) : c = '.' ∨ isDigit c = true := by
  obtain ⟨digit, tail, rfl, hdigit, after, -, htail⟩ := number?_eq_some_iff.mp h
  rcases List.mem_cons.mp hc with rfl | hc
  · exact .inr hdigit
  · exact eq_dot_or_isDigit_of_mem_numberTail (htail.symm ▸ hc)

theorem number?_append {cs number after : List Char} (h : number? cs = some number)
    (hafter : numberTail after = []) : number? (cs ++ after) = some number := by
  cases cs with
  | nil => simp [number?] at h
  | cons c cs => rwa [List.cons_append, number?, numberTail_append hafter]

theorem number?_of_append {cs number after : List Char} {c : Char} (hblank : isBlank c = true)
    (h : number? (cs ++ c :: after) = some number) : number? cs = some number := by
  cases cs with
  | nil =>
    obtain ⟨hdigit, -⟩ := Option.ite_none_right_eq_some.mp h
    simp [not_isDigit_of_isBlank hblank] at hdigit
  | cons d cs =>
    rwa [List.cons_append, number?, numberTail_append (numberTail_of_isBlank hblank after)] at h

/-! ## Citations -/

/-- The words before a number that is cited. -/
def citingWords : List (List Char) := ["clause".toList, "section".toList, "article".toList]

/-- The number that a text starts to cite. -/
def citation? (cs : List Char) : Option (List Char) := do
  let word ← citingWords.find? fun word => word.isPrefixOf (cs.map fold)
  match cs.drop word.length with
  | [] => none
  | c :: rest => if isBlank c then number? (trimStart rest) else none

/-- The parts of a text that starts with a citation. -/
structure IsCitation (cs word gap number after : List Char) : Prop where
  eq : cs = word ++ (gap ++ (number ++ after))
  word : word.map fold ∈ citingWords
  gap_ne_nil : gap ≠ []
  gap : IsBlankText gap
  number : number? (number ++ after) = some number

theorem isLatin_of_citing {word : List Char} (h : word.map fold ∈ citingWords) :
    word ≠ [] ∧ ∀ c ∈ word, IsLatin c := by
  have hall : ∀ word ∈ citingWords, word ≠ [] ∧ isLowercaseLatin word = true := by decide
  obtain ⟨hne, hletters⟩ := hall _ h
  exact ⟨fun hnil => hne (by rw [hnil, List.map_nil]), isLatin_of_map_fold rfl hletters⟩

theorem areApart_citingWords : AreApart citingWords where
  folded := by decide +kernel
  apart := by decide

theorem find?_citingWords {word cs : List Char} (h : word ∈ citingWords)
    (hstarts : word <+: cs) :
    citingWords.find? (fun word => word.isPrefixOf cs) = some word := by
  cases hfind : citingWords.find? fun word => word.isPrefixOf cs with
  | none =>
    have hnone := List.find?_eq_none.mp hfind word h
    exact absurd (List.isPrefixOf_iff_prefix.mpr hstarts) hnone
  | some other =>
    have hother : other.isPrefixOf cs = true :=
      List.find?_some (p := fun word => List.isPrefixOf word cs) hfind
    rw [areApart_citingWords.eq_of_prefix h (List.mem_of_find?_eq_some hfind) hstarts
      (List.isPrefixOf_iff_prefix.mp hother)]

theorem trimStart_append_number {gap cs number : List Char} (hgap : IsBlankText gap)
    (h : number? cs = some number) : trimStart (gap ++ cs) = cs := by
  rw [trimStart, List.dropWhile_append_of_pos hgap]
  obtain ⟨digit, tail, rfl, hdigit, after, rfl, -⟩ := number?_eq_some_iff.mp h
  rw [List.cons_append, List.dropWhile_cons_of_neg]
  simp [not_isBlank_of_isDigit hdigit]

/-- The citation that a text starts with consists of a word, white space and a number. -/
theorem citation?_eq_some_iff {cs number : List Char} :
    citation? cs = some number ↔ ∃ word gap after, IsCitation cs word gap number after := by
  constructor
  · intro h
    obtain ⟨word, hword, hrest⟩ := Option.bind_eq_some_iff.mp h
    have hmem := List.mem_of_find?_eq_some hword
    have hstarts : word <+: cs.map fold := List.isPrefixOf_iff_prefix.mp
      (List.find?_some (p := fun word => List.isPrefixOf word (cs.map fold)) hword)
    obtain ⟨taken, rest, rfl, hfold, -⟩ := List.map_eq_append_iff.mp hstarts.choose_spec.symm
    have hlength : word.length = taken.length := by rw [← hfold, List.length_map]
    rw [hlength, List.drop_left] at hrest
    cases rest with
    | nil => simp at hrest
    | cons c rest =>
      obtain ⟨hblank, hnumber⟩ := Option.ite_none_right_eq_some.mp hrest
      obtain ⟨digit, tail, -, -, after, hafter, -⟩ := number?_eq_some_iff.mp hnumber
      refine ⟨taken, c :: rest.takeWhile isBlank, after, ?_, hfold ▸ hmem, by simp, ?_,
        hafter ▸ hnumber⟩
      · rw [← hafter, trimStart, List.cons_append, List.takeWhile_append_dropWhile]
      · exact List.forall_mem_cons.mpr ⟨hblank, fun _ => List.mem_takeWhile_imp⟩
  · rintro ⟨word, gap, after, rfl, hword, hne, hgap, hnumber⟩
    obtain ⟨c, gap, rfl⟩ := List.exists_cons_of_ne_nil hne
    obtain ⟨hblank, hgap⟩ := List.forall_mem_cons.mp hgap
    have hstarts : word.map fold <+: (word ++ (c :: gap ++ (number ++ after))).map fold := by
      rw [List.map_append]
      exact List.prefix_append _ _
    rw [citation?, find?_citingWords hword hstarts, Option.bind_eq_bind, Option.bind_some,
      List.length_map, List.drop_left, List.cons_append]
    dsimp only
    rw [if_pos hblank, trimStart_append_number hgap hnumber, hnumber]

/-! ### What comes behind -/

theorem citation?_append {cs number after : List Char} (h : citation? cs = some number)
    (hafter : numberTail after = []) : citation? (cs ++ after) = some number := by
  obtain ⟨word, gap, rest, rfl, hword, hne, hgap, hnumber⟩ := citation?_eq_some_iff.mp h
  refine citation?_eq_some_iff.mpr ⟨word, gap, rest ++ after, by simp, hword, hne, hgap, ?_⟩
  rw [← List.append_assoc]
  exact number?_append hnumber hafter

theorem citation?_of_append {cs number after : List Char} {c : Char} (hblank : isBlank c = true)
    (h : citation? (cs ++ c :: after) = some number) :
    citation? cs = some number ∨ number? (trimStart after) = some number ∧
      ∃ word gap, cs = word ++ gap ∧ word.map fold ∈ citingWords ∧ IsBlankText gap := by
  obtain ⟨word, gap, rest, heq, hword, hne, hgap, hnumber⟩ := citation?_eq_some_iff.mp h
  rcases List.append_eq_append_iff.mp heq with ⟨lost, rfl, hrest⟩ | ⟨part, rfl, hrest⟩
  · -- The text ends within the word or right behind it.
    cases lost with
    | nil =>
      obtain ⟨d, gap, rfl⟩ := List.exists_cons_of_ne_nil hne
      rw [List.nil_append, List.cons_append] at hrest
      obtain ⟨rfl, rfl⟩ := List.cons.inj hrest
      refine .inr ⟨?_, cs, [], by simp, by simpa using hword, by simp [IsBlankText]⟩
      rw [trimStart_append_number (List.forall_mem_cons.mp hgap).2 hnumber, hnumber]
    | cons d lost =>
      obtain ⟨rfl, -⟩ := List.cons.inj hrest
      have hlatin := (isLatin_of_citing hword).2 c (by simp)
      simp [hlatin.not_isBlank] at hblank
  · rcases List.append_eq_append_iff.mp hrest with ⟨left, rfl, hnumbered⟩ | ⟨left, rfl, hnumbered⟩
    · -- The text ends behind the white space.
      rw [hnumbered] at hnumber
      obtain ⟨digit, tail, rfl, -, others, hleft, -⟩ :=
        number?_eq_some_iff.mp (number?_of_append hblank hnumber)
      refine .inl (citation?_eq_some_iff.mpr
        ⟨word, gap, others, by rw [hleft], hword, hne, hgap, ?_⟩)
      exact hleft ▸ number?_of_append hblank hnumber
    · -- The text ends within the white space.
      obtain ⟨hpart, hleft⟩ := List.forall_mem_append.mp hgap
      cases left with
      | nil =>
        have hnone : number? [] = some number :=
          number?_of_append hblank (hnumbered ▸ hnumber)
        simp [number?] at hnone
      | cons d left =>
        rw [List.cons_append] at hnumbered
        obtain ⟨rfl, rfl⟩ := List.cons.inj hnumbered
        refine .inr ⟨?_, word, part, rfl, hword, hpart⟩
        rw [trimStart_append_number (List.forall_mem_cons.mp hleft).2 hnumber, hnumber]

/-! ### Citations apart -/

theorem isLatin_of_citation? {c : Char} {cs number : List Char}
    (h : citation? (c :: cs) = some number) : IsLatin c := by
  obtain ⟨word, gap, after, heq, hword, -, -, -⟩ := citation?_eq_some_iff.mp h
  obtain ⟨hne, hlatin⟩ := isLatin_of_citing hword
  obtain ⟨d, word, rfl⟩ := List.exists_cons_of_ne_nil hne
  rw [List.cons_append] at heq
  obtain ⟨rfl, -⟩ := List.cons.inj heq
  exact hlatin c List.mem_cons_self

theorem not_prefix_drop_citingWords {word other : List Char} (h : word ∈ citingWords)
    (hother : other ∈ citingWords) {k : Nat} (hk : 0 < k) (hlt : k < word.length) :
    ¬other <+: word.drop k := by
  have hapart : ∀ word ∈ citingWords, ∀ other ∈ citingWords, ∀ k < word.length, 0 < k →
      ¬other <+: word.drop k := by
    decide
  exact hapart word h other hother k hlt hk

/-- One of the words, in any case. -/
def IsCitingWord (word : List Char) : Prop := word.map fold ∈ citingWords

theorem areUnnested_isCitingWord : AreUnnested IsCitingWord where
  ne_nil h := (isLatin_of_citing h).1
  not_blank h c hc := ((isLatin_of_citing h).2 c hc).not_isBlank
  unnested {word} h k hlt hk hend := by
    refine not_prefix_drop_citingWords h hend hk (by rwa [List.length_map]) ?_
    rw [List.map_drop]

theorem IsCitation.isLead {cs word gap number after : List Char}
    (h : IsCitation cs word gap number after) :
    IsLead IsCitingWord cs word gap (number ++ after) where
  eq := h.eq
  word := h.word
  gap_ne_nil := h.gap_ne_nil
  gap := h.gap
  rest := by
    obtain ⟨digit, tail, rfl, hdigit, -⟩ := number?_eq_some_iff.mp h.number
    exact stops_cons (not_isBlank_of_isDigit hdigit) _

/-- No citation starts inside another. -/
theorem IsCitation.inside {cs word gap number after : List Char}
    (h : IsCitation cs word gap number after) {k : Nat} (hk : 0 < k)
    (hlt : k < (word ++ (gap ++ number)).length) : citation? (cs.drop k) = none := by
  refine Option.eq_none_iff_forall_ne_some.mpr fun other hother => ?_
  rcases Nat.lt_or_ge k (word ++ gap).length with hinside | hbehind
  · obtain ⟨word', gap', after', hparts⟩ := citation?_eq_some_iff.mp hother
    exact h.isLead.inside areUnnested_isCitingWord hk hinside hparts.isLead
  · -- What starts behind the white space starts with a digit or a dot.
    rw [← List.append_assoc, List.length_append] at hlt
    have hshort : k - (word ++ gap).length < number.length := by omega
    rw [h.eq, ← List.append_assoc, List.drop_append, List.drop_eq_nil_of_le hbehind,
      List.nil_append, List.drop_append_of_le_length hshort.le] at hother
    obtain ⟨c, rest, hrest⟩ :=
      List.exists_cons_of_ne_nil (List.drop_eq_nil_iff.not.mpr hshort.not_ge)
    rw [hrest, List.cons_append] at hother
    have hlatin := isLatin_of_citation? hother
    have hmem : c ∈ number := List.mem_of_mem_drop (hrest ▸ List.mem_cons_self)
    rcases eq_dot_or_isDigit_of_mem h.number hmem with rfl | hdigit
    · exact absurd hlatin.isWord (by decide)
    · simp [hlatin.not_isDigit] at hdigit

end ContractAnalysis.Text
