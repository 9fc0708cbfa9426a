import ContractAnalysis.Proofs.Pattern.Matches
import ContractAnalysis.Proofs.Text.Lead

/-!
# Patterns of words before white space

A pattern that takes words of some kind (`Pattern.Spells`), and white space behind it, matches where
a text starts with such a word and white space, and the match goes on to the end of the white space
(`matchAt_lead_iff`). Where the words are unnested, no match starts inside another (`apart_lead`).
-/

namespace ContractAnalysis

open Text

namespace Pattern

/-- A pattern takes words of some kind, and takes every such word that comes next. -/
structure Spells (flags : Flags) (p : Pattern) (kind : List Char → Prop) : Prop where
  takes : ∀ {a b : Cursor} {marks : List Mark}, Takes flags p a b marks → kind (Span.text ⟨a, b⟩)
  prefers : ∀ {a b : Cursor}, a.Leads b → kind (Span.text ⟨a, b⟩) → Prefers flags p a b []

variable {flags : Flags} {p : Pattern} {kind : List Char → Prop} {a b : Cursor}

theorem spells_oneOf {words : List (List Char)} (hwords : AreApart words) (hne : words ≠ [])
    (hflags : flags.ignoreCase = true) :
    Spells flags (oneOf (words.map ofChars)) fun word => word.map fold ∈ words where
  takes h := fold_mem_of_takes hwords hflags h hne
  prefers := prefers_word hwords hflags

theorem spells_ofChars (hflags : flags.ignoreCase = false) (cs : List Char) :
    Spells flags (ofChars cs) fun word => word = cs := by
  have hspell : spell flags = id := funext fun _ => if_neg (by simp [hflags])
  constructor
  · intro a b marks h
    simpa [hspell] using spell_eq_of_takes h
  · intro a b hleads h
    exact prefers_of_spell_eq hleads (by rw [h])

theorem exists_lead_of_takes (hp : Spells flags p kind) {marks : List Mark}
    (h : Takes flags (p ++ gap) a b marks) :
    ∃ word gap rest, IsLead kind a.rest word gap rest := by
  cases h with
  | @seq _ _ _ place _ _ _ hword hgap =>
    obtain ⟨c, next, hnext, -, hleads⟩ := hgap.next_of_plus
    refine ⟨_, Span.text ⟨place, b⟩ ++ b.rest.takeWhile isBlank, b.rest.dropWhile isBlank, ?_,
      hp.takes hword, ?_, ?_, ?_⟩
    · rw [List.append_assoc, List.takeWhile_append_dropWhile, Span.text_append_rest hgap.leads,
        Span.text_append_rest hword.leads]
    · simp [Span.text_of_next? hnext hleads]
    · exact List.forall_mem_append.mpr ⟨hgap.accepts_of_plus, fun _ => List.mem_takeWhile_imp⟩
    · intro d hd
      have hhead := List.head?_dropWhile_not isBlank b.rest
      rwa [Option.mem_def.mp hd] at hhead

theorem prefers_lead (hp : Spells flags p kind) {word gap rest : List Char}
    (h : IsLead kind a.rest word gap rest) :
    ∃ b, a.Leads b ∧ b.rest = rest ∧ Span.text ⟨a, b⟩ = word ++ gap ∧
      Prefers flags (p ++ Pattern.gap) a b [] := by
  obtain ⟨heq, hword, hne, hgap, hrest⟩ := h
  obtain ⟨place, hplace, hplaceRest, hwordText⟩ := Cursor.exists_leads heq
  obtain ⟨b, hb, rfl, hgapText⟩ := Cursor.exists_leads hplaceRest
  have hwordTaken : Prefers flags p a place [] := hp.prefers hplace (hwordText.symm ▸ hword)
  have hgapTaken : Prefers flags Pattern.gap place b [] := by
    refine prefers_plus_run hb (hgapText.symm ▸ hne) (hgapText.symm ▸ hgap) fun c next hnext => ?_
    exact hrest c (by rw [Cursor.rest_of_next? hnext]; rfl)
  exact ⟨b, hplace.trans hb, rfl, by rw [← Cursor.text_append hplace hb, hwordText, hgapText],
    hwordTaken.seq hgapTaken⟩

end Pattern

open Pattern

section Lead

variable {flags : Flags} {p : Pattern} {kind : List Char → Prop} {a : Cursor} {m : Match}
  (hp : Spells flags p kind)
include hp

theorem matchAt_lead_iff :
    Expression.matchAt ⟨flags, p ++ gap⟩ a = some m ↔
      ∃ word gap stop, IsLead kind a.rest word gap stop.rest ∧ a.Leads stop ∧
        m = ⟨⟨a, stop⟩, []⟩ := by
  constructor
  · intro h
    obtain ⟨hstart, htakes⟩ := Expression.takes_of_matchAt h
    rw [hstart] at htakes
    obtain ⟨word, gap, rest, hlead⟩ := exists_lead_of_takes hp htakes
    obtain ⟨stop, hstop, rfl, -, hprefers⟩ := prefers_lead hp hlead
    rw [Expression.matchAt_of_prefers hprefers] at h
    exact ⟨word, gap, stop, hlead, hstop, (Option.some.inj h).symm⟩
  · rintro ⟨word, gap, stop, hlead, hstop, rfl⟩
    obtain ⟨b, hb, hrest, -, hprefers⟩ := prefers_lead hp hlead
    obtain rfl : b = stop := hb.eq_of_size hstop (by rw [b.size_eq, stop.size_eq, hrest])
    exact Expression.matchAt_of_prefers hprefers

/-- No match starts inside another. -/
theorem apart_lead (hkind : AreUnnested kind) :
    Match.Apart (Expression.matchAt ⟨flags, p ++ gap⟩) := by
  refine ⟨fun hm => (Expression.takes_of_matchAt hm).1, fun {place m} hm => ?_,
    fun {place m later} hm hlater hless hinside => ?_⟩
  · obtain ⟨word, gap, stop, hlead, hstop, rfl⟩ := (matchAt_lead_iff hp).mp hm
    have := List.length_pos_iff.mpr hlead.gap_ne_nil
    refine ⟨hstop, ?_⟩
    rw [place.size_eq, hlead.eq, stop.size_eq, List.length_append, List.length_append]
    omega
  · obtain ⟨word, gap, stop, hlead, hstop, rfl⟩ := (matchAt_lead_iff hp).mp hm
    refine Option.eq_none_iff_forall_ne_some.mpr fun m' hm' => ?_
    obtain ⟨word', gap', stop', hlead', -⟩ := (matchAt_lead_iff hp).mp hm'
    rw [Cursor.rest_eq_drop hlater] at hlead'
    replace hinside : stop.size < later.size := hinside
    refine hlead.inside hkind (by omega) ?_ hlead'
    have hsize := congrArg List.length hlead.eq
    rw [← place.size_eq, List.length_append, List.length_append, ← stop.size_eq] at hsize
    rw [List.length_append]
    omega

end Lead

end ContractAnalysis
