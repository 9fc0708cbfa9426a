import ContractAnalysis.Outline
import ContractAnalysis.Proofs.Pattern.Walks
import ContractAnalysis.Proofs.Text.Character
import ContractAnalysis.Proofs.Text.Lines
import ContractAnalysis.Proofs.Text.Search

/-!
# Headings

The title of a heading is what the second capture of an expression records, and that capture goes on
to the end of the line (`CapturesRest`). So the title is the end of the line without the white space
after it (`title_suffix`). The number is what the first capture records. It starts with a digit,
except that of an article, which starts with this word; so it says the level (`level_eq`).
-/

namespace ContractAnalysis.Heading

open Pattern Text

/-- The second capture of an expression goes on to the end of the text. -/
structure CapturesRest (e : Expression) : Prop where
  wholeText : e.flags.multiLine = false
  ends : ∃ body : Pattern, body.avoids 2 = true ∧
    EndsWith (.seq (.capture 2 body) .finish) e.pattern

theorem capturesRest_numbered : CapturesRest numbered :=
  ⟨rfl, _, rfl, .seq _ (.seq _ (.seq _ (.seq _ .self)))⟩

theorem capturesRest_subsection : CapturesRest subsection :=
  ⟨rfl, _, rfl, .seq _ (.seq _ (.seq _ .self))⟩

theorem capturesRest_article : CapturesRest article :=
  ⟨rfl, _, rfl, .seq _ (.seq _ (.seq _ .self))⟩

theorem parts?_title {e : Expression} (he : CapturesRest e) {line number title : List Char}
    (h : parts? e line = some (number, title)) :
    ∃ rest, rest <:+ line ∧ title = trimChars rest := by
  obtain ⟨m, hm, hgroups⟩ := Option.bind_eq_some_iff.mp h
  obtain ⟨number', -, hgroup⟩ := Option.bind_eq_some_iff.mp hgroups
  obtain ⟨rest, hrest, heq⟩ := Option.bind_eq_some_iff.mp hgroup
  obtain ⟨-, rfl⟩ := Prod.mk.inj (Option.some.inj heq)
  refine ⟨rest, ?_, rfl⟩
  obtain ⟨hwhole, body, hbody, hends⟩ := he
  obtain ⟨hleads, htakes⟩ := Expression.takes_of_find? hm
  obtain ⟨place, stop, _, _, hplace, hinner, hfinish, -, htext⟩ :=
    Expression.exists_capture htakes hends hbody rfl
  cases hfinish with
  | finish hfinish =>
    have hnothing : m.stop.rest = [] := by simpa [Cursor.atFinish, hwhole] using hfinish
    obtain rfl := Option.some.inj (hrest.symm.trans htext)
    have hend := Span.text_append_rest hinner.leads
    rw [hnothing, List.append_nil] at hend
    exact ⟨_, hend ▸ Span.text_append_rest (hleads.trans hplace)⟩

theorem exists_rest_of_ofLine? {line : List Char} {heading : Heading}
    (h : ofLine? line = some heading) :
    ∃ rest, rest <:+ trimEnd line ∧ heading.title = String.ofList (trimChars rest) := by
  simp only [ofLine?] at h
  split at h
  · next number title hparts =>
    obtain rfl := Option.some.inj h
    rcases Option.or_eq_some_iff.mp hparts with hparts | ⟨-, hparts⟩
    · obtain ⟨rest, hsuffix, rfl⟩ := parts?_title capturesRest_numbered hparts
      exact ⟨rest, hsuffix, rfl⟩
    · obtain ⟨rest, hsuffix, rfl⟩ := parts?_title capturesRest_subsection hparts
      exact ⟨rest, hsuffix, rfl⟩
  · obtain ⟨⟨number, title⟩, hparts, rfl⟩ := Option.map_eq_some_iff.mp h
    obtain ⟨rest, hsuffix, rfl⟩ := parts?_title capturesRest_article hparts
    exact ⟨rest, hsuffix, rfl⟩

theorem trim_title {line : List Char} {heading : Heading} (h : ofLine? line = some heading) :
    Text.trim heading.title = heading.title := by
  obtain ⟨rest, -, htitle⟩ := exists_rest_of_ofLine? h
  rw [htitle, Text.trim, String.toList_ofList, trimChars_trimChars]

theorem title_suffix {line : List Char} {heading : Heading} (h : ofLine? line = some heading) :
    heading.title.toList <:+ trimEnd line := by
  obtain ⟨rest, hsuffix, htitle⟩ := exists_rest_of_ofLine? h
  rw [htitle, String.toList_ofList]
  exact trimChars_suffix hsuffix

/-! ## Numbers -/

/-- The level that a number says: the number of its parts between dots, and 1 for an article. -/
def levelOfNumber (number : String) : Nat :=
  if startsWith "article".toList number.toList then 1 else (number.toList.splitOn '.').length

theorem levelOfNumber_ofList (number : List Char) :
    levelOfNumber (String.ofList number) =
      if startsWith "article".toList number then 1 else levelOf number := by
  rw [levelOfNumber, levelOf, ← length_splitOn]
  simp only [String.toList_ofList]

theorem parts?_number {e : Expression} {body tail : Pattern}
    (hends : EndsWith (.seq (.capture 1 body) tail) e.pattern) (hbody : body.avoids 1 = true)
    (htail : tail.avoids 1 = true) {line number title : List Char}
    (h : parts? e line = some (number, title)) :
    number <:+: line ∧
      ∃ place stop inner, body.Takes e.flags place stop inner ∧ number = Span.text ⟨place, stop⟩ := by
  obtain ⟨m, hm, hgroups⟩ := Option.bind_eq_some_iff.mp h
  obtain ⟨number', hgroup, hrest⟩ := Option.bind_eq_some_iff.mp hgroups
  obtain ⟨title', -, heq⟩ := Option.bind_eq_some_iff.mp hrest
  obtain ⟨rfl, -⟩ := Prod.mk.inj (Option.some.inj heq)
  obtain ⟨hleads, htakes⟩ := Expression.takes_of_find? hm
  obtain ⟨place, stop, inner, _, hplace, hinner, -, -, htext⟩ :=
    Expression.exists_capture htakes hends hbody htail
  obtain rfl := Option.some.inj (hgroup.symm.trans htext)
  refine ⟨?_, place, stop, inner, hinner, rfl⟩
  have hnumber : Span.text ⟨place, stop⟩ <:+: place.rest :=
    ⟨[], stop.rest, Span.text_append_rest hinner.leads⟩
  have hsuffix : place.rest <:+ line := ⟨_, Span.text_append_rest (hleads.trans hplace)⟩
  exact hnumber.trans hsuffix.isInfix

theorem not_startsWith_article {flags : Flags} {rest : Pattern} {place stop : Cursor}
    {marks : List Mark} (h : (Pattern.seq digits rest).Takes flags place stop marks) :
    startsWith "article".toList (Span.text ⟨place, stop⟩) = false := by
  cases h with
  | seq hdigits hrest =>
    obtain ⟨c, next, hnext, hdigit, hleads⟩ := hdigits.next_of_plus
    rw [Span.text_of_next? hnext (hleads.trans hrest.leads)]
    -- A digit is no letter in any case.
    have hletter : fold 'a' ≠ fold c := by
      intro heq
      have hfold : fold c = 'a' := heq.symm.trans (by decide)
      have hlatin : IsLatin c := isLatin_of_fold (by rw [hfold]; decide) (by rw [hfold]; decide)
      exact absurd hdigit (by simp [CharSet.accepts, hlatin.not_isDigit])
    show (fold 'a' == fold c && _) = false
    rw [beq_false_of_ne hletter, Bool.false_and]

theorem startsWith_article {place stop : Cursor} {marks : List Mark} {rest : Pattern}
    (h : (Pattern.seq (literal "Article") rest).Takes article.flags place stop marks) :
    startsWith "article".toList (Span.text ⟨place, stop⟩) = true := by
  cases h with
  | seq hword hrest =>
    rw [← Cursor.text_append hword.leads hrest.leads]
    exact startsWith_iff.mpr ⟨_, _, rfl, (fold_eq_of_takes rfl hword).trans (by decide)⟩

/-- The heading of an article is what its expression makes of the line; the number of any other
heading starts with a digit. -/
theorem isArticle_or_isDotted {line : List Char} {heading : Heading}
    (h : ofLine? line = some heading) :
    (startsWith "article".toList heading.number.toList = true ∧ heading.level = 1 ∧
      parts? article (trimEnd line) = some (heading.number.toList, heading.title.toList)) ∨
    startsWith "article".toList heading.number.toList = false ∧
      heading.level = levelOf heading.number.toList := by
  simp only [ofLine?] at h
  split at h
  · next number title hparts =>
    obtain rfl := Option.some.inj h
    have hdigit : startsWith "article".toList number = false := by
      rcases Option.or_eq_some_iff.mp hparts with hparts | ⟨-, hparts⟩
      · obtain ⟨-, place, stop, inner, htakes, rfl⟩ := parts?_number (.seq _ .self) rfl rfl hparts
        exact not_startsWith_article htakes
      · obtain ⟨-, place, stop, inner, htakes, rfl⟩ := parts?_number (.seq _ .self) rfl rfl hparts
        exact not_startsWith_article htakes
    have hnumber : (String.ofList number).toList = number := String.toList_ofList
    exact .inr ⟨(congrArg _ hnumber).trans hdigit, congrArg levelOf hnumber.symm⟩
  · obtain ⟨⟨number, title⟩, hparts, rfl⟩ := Option.map_eq_some_iff.mp h
    have hword : startsWith "article".toList number = true := by
      obtain ⟨-, place, stop, inner, htakes, rfl⟩ := parts?_number (.seq _ .self) rfl rfl hparts
      exact startsWith_article htakes
    have hnumber : (String.ofList number).toList = number := String.toList_ofList
    refine .inl ⟨(congrArg _ hnumber).trans hword, rfl, ?_⟩
    rw [hnumber, String.toList_ofList, hparts]

theorem infix_number {line : List Char} {heading : Heading} (h : ofLine? line = some heading) :
    heading.number.toList <:+: line := by
  have htrim : trimEnd line <:+: line := (pads_trimEnd line).isInfix
  simp only [ofLine?] at h
  split at h
  · next number title hparts =>
    obtain rfl := Option.some.inj h
    rw [String.toList_ofList]
    rcases Option.or_eq_some_iff.mp hparts with hparts | ⟨-, hparts⟩
    · exact (parts?_number (.seq _ .self) rfl rfl hparts).1.trans htrim
    · exact (parts?_number (.seq _ .self) rfl rfl hparts).1.trans htrim
  · obtain ⟨⟨number, title⟩, hparts, rfl⟩ := Option.map_eq_some_iff.mp h
    rw [String.toList_ofList]
    exact (parts?_number (.seq _ .self) rfl rfl hparts).1.trans htrim

theorem level_eq {line : List Char} {heading : Heading} (h : ofLine? line = some heading) :
    heading.level = levelOfNumber heading.number := by
  rw [← String.ofList_toList (s := heading.number), levelOfNumber_ofList]
  rcases isArticle_or_isDotted h with ⟨harticle, hlevel, -⟩ | ⟨hdotted, hlevel⟩
  · rw [harticle, hlevel]
    rfl
  · rw [hdotted, hlevel]
    rfl

theorem one_le_level {line : List Char} {heading : Heading} (h : ofLine? line = some heading) :
    1 ≤ heading.level := by
  rw [level_eq h, levelOfNumber, length_splitOn]
  split_ifs
  · exact Nat.le_refl 1
  · exact Nat.le_add_left 1 _

theorem level_le {line : List Char} {heading : Heading} (h : ofLine? line = some heading) :
    heading.level ≤ line.length + 1 := by
  rw [level_eq h, levelOfNumber, length_splitOn]
  split_ifs
  · exact Nat.le_add_left 1 _
  · have hcount : heading.number.toList.count '.' ≤ heading.number.toList.length :=
      List.count_le_length
    have hnumber := (infix_number h).length_le
    omega

end ContractAnalysis.Heading
