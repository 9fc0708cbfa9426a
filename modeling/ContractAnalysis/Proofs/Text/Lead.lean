import ContractAnalysis.Proofs.Text.Digits
import ContractAnalysis.Proofs.Text.Lines

/-!
# Words before white space

A text may start with a word of some kind and white space. If the words of this kind have no white
space in them, and no end of one is another, then none starts inside the word and its white space
(`IsLead.inside`).
-/

namespace ContractAnalysis.Text

/-- A text starts with a word of some kind and white space, and goes on behind all white space. -/
structure IsLead (kind : List Char → Prop) (cs word gap rest : List Char) : Prop where
  eq : cs = word ++ (gap ++ rest)
  word : kind word
  gap_ne_nil : gap ≠ []
  gap : IsBlankText gap
  rest : Stops isBlank rest

/-- Words without white space, of which none is the end of another. -/
structure AreUnnested (kind : List Char → Prop) : Prop where
  ne_nil : ∀ {word}, kind word → word ≠ []
  not_blank : ∀ {word}, kind word → ∀ c ∈ word, isBlank c = false
  unnested : ∀ {word}, kind word → ∀ k < word.length, 0 < k → ¬kind (word.drop k)

theorem eq_of_append_blank {word word' rest rest' : List Char} {c c' : Char}
    (hword : ∀ c ∈ word, isBlank c = false) (hword' : ∀ c ∈ word', isBlank c = false)
    (hc : isBlank c = true) (hc' : isBlank c' = true)
    (h : word ++ c :: rest = word' ++ c' :: rest') : word = word' := by
  have hrun : ∀ {word rest : List Char} {c : Char}, (∀ c ∈ word, isBlank c = false) →
      isBlank c = true → (word ++ c :: rest).takeWhile (fun c => !isBlank c) = word :=
    fun hword hc => takeWhile_run (fun d hd => by rw [hword d hd]; rfl)
      (stops_cons (by rw [hc]; rfl) _)
  rw [← hrun hword hc, h, hrun hword' hc']

namespace IsLead

variable {kind : List Char → Prop} {cs word word' gap gap' rest rest' : List Char}

theorem inside (hkind : AreUnnested kind) (h : IsLead kind cs word gap rest) {k : Nat} (hk : 0 < k)
    (hlt : k < (word ++ gap).length) : ¬IsLead kind (cs.drop k) word' gap' rest' := by
  obtain ⟨rfl, hword, hne, hgap, -⟩ := h
  rintro ⟨heq, hword', hne', hgap', -⟩
  obtain ⟨c', gap', rfl⟩ := List.exists_cons_of_ne_nil hne'
  have hblank' := hgap' c' List.mem_cons_self
  rcases Nat.lt_or_ge k word.length with hinside | hbehind
  · obtain ⟨c, gap, rfl⟩ := List.exists_cons_of_ne_nil hne
    rw [List.drop_append_of_le_length hinside.le] at heq
    have hend := eq_of_append_blank (fun d hd => hkind.not_blank hword d (List.mem_of_mem_drop hd))
      (hkind.not_blank hword') (hgap c List.mem_cons_self) hblank' heq
    exact hkind.unnested hword k hinside hk (hend ▸ hword')
  · -- Behind the word there is white space, which starts no word.
    rw [List.length_append] at hlt
    have hshort : k - word.length < gap.length := by omega
    rw [List.drop_append, List.drop_eq_nil_of_le hbehind, List.nil_append,
      List.drop_append_of_le_length hshort.le] at heq
    obtain ⟨c, left, hleft⟩ :=
      List.exists_cons_of_ne_nil (List.drop_eq_nil_iff.not.mpr hshort.not_ge)
    obtain ⟨d, word', rfl⟩ := List.exists_cons_of_ne_nil (hkind.ne_nil hword')
    rw [hleft] at heq
    obtain ⟨rfl, -⟩ := List.cons.inj heq
    have hblank := hgap c (List.mem_of_mem_drop (hleft ▸ List.mem_cons_self))
    exact Bool.false_ne_true ((hkind.not_blank hword' c List.mem_cons_self).symm.trans hblank)

end IsLead

end ContractAnalysis.Text
