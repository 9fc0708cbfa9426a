import ContractAnalysis.Proofs.Text.Character
import ContractAnalysis.Text.Basic
import Mathlib.Data.List.Infix

/-!
# Search, and lower case of a part

What is searched for is found where it is a part of the text (`occursIn_iff`), or where the text
starts with some spelling of it (`startsWith_iff`). Lower case of a part is a part of the lower case
of the text, but for a capital sigma, whose lower case depends on the characters around it
(`lowercaseChars_infix`). No character below `a` is new in it (`mem_of_mem_lowercaseChars`).
-/

namespace ContractAnalysis.Text

theorem occursIn_iff {needle text : List Char} :
    occursIn needle text = true ↔ needle <:+: text := by
  induction text with
  | nil => rw [occursIn, List.isEmpty_iff, List.infix_nil]
  | cons c text ih =>
    rw [occursIn, Bool.or_eq_true, List.isPrefixOf_iff_prefix, ih, List.infix_cons_iff]

theorem startsWith_iff {word text : List Char} :
    startsWith word text = true ↔
      ∃ spelling after, text = spelling ++ after ∧ spelling.map fold = word.map fold := by
  constructor
  · intro h
    fun_induction startsWith word text with
    | case1 text => exact ⟨[], text, rfl, rfl⟩
    | case2 => contradiction
    | case3 c cs x xs ih =>
      obtain ⟨hfirst, hrest⟩ := Bool.and_eq_true_iff.mp h
      obtain ⟨spelling, after, rfl, hspelling⟩ := ih hrest
      exact ⟨x :: spelling, after, rfl,
        List.cons_eq_cons.mpr ⟨(beq_iff_eq.mp hfirst).symm, hspelling⟩⟩
  · rintro ⟨spelling, after, rfl, h⟩
    induction word generalizing spelling with
    | nil => rfl
    | cons c word ih =>
      cases spelling with
      | nil => cases h
      | cons x spelling =>
        obtain ⟨hfirst, hrest⟩ := List.cons.inj h
        simp only [List.cons_append, startsWith, Bool.and_eq_true, beq_iff_eq]
        exact ⟨hfirst.symm, ih spelling hrest⟩

/-- What starts with a character that a text lacks is not found in that text nor across its end. -/
theorem occursIn_append {c : Char} {before : List Char} (h : c ∉ before) (cs after : List Char) :
    occursIn (c :: cs) (before ++ after) = occursIn (c :: cs) after := by
  induction before with
  | nil => rfl
  | cons x before ih =>
    obtain ⟨hne, hnotMem⟩ : c ≠ x ∧ c ∉ before := by simpa [not_or] using h
    have hstarts : (c :: cs).isPrefixOf (x :: (before ++ after)) = false := by
      simp [List.isPrefixOf, hne]
    rw [List.cons_append, occursIn, hstarts, Bool.false_or, ih hnotMem]

/-! ## Lower case -/

theorem lowercaseAfter_append (before cs rest : List Char) :
    ∃ lower, lowercaseAfter before (cs ++ rest) =
      lower ++ lowercaseAfter (cs.reverse ++ before) rest := by
  induction cs generalizing before with
  | nil => exact ⟨[], rfl⟩
  | cons c cs ih =>
    obtain ⟨lower, heq⟩ := ih (c :: before)
    rw [List.cons_append, lowercaseAfter, heq, List.reverse_cons, List.append_assoc]
    exact ⟨_, (List.append_assoc _ _ _).symm⟩

theorem lowercaseAfter_of_notMem {part : List Char} (h : 'Σ' ∉ part) (before rest : List Char) :
    lowercaseAfter before (part ++ rest) =
      part.flatMap lowercaseChar ++ lowercaseAfter (part.reverse ++ before) rest := by
  induction part generalizing before with
  | nil => rfl
  | cons c part ih =>
    obtain ⟨hc, hpart⟩ : c ≠ 'Σ' ∧ 'Σ' ∉ part := by
      simpa [not_or, eq_comm] using h
    rw [List.cons_append, lowercaseAfter, if_neg hc, ih hpart, List.flatMap_cons,
      List.reverse_cons, List.append_assoc, List.append_assoc]
    rfl

theorem lowercaseChars_infix {part cs : List Char} (hsigma : 'Σ' ∉ part) (h : part <:+: cs) :
    lowercaseChars part <:+: lowercaseChars cs := by
  obtain ⟨before, after, rfl⟩ := h
  have hpart : lowercaseChars part = part.flatMap lowercaseChar := by
    have halone := lowercaseAfter_of_notMem hsigma [] []
    rwa [List.append_nil, lowercaseAfter, List.append_nil] at halone
  obtain ⟨lower, hwhole⟩ := lowercaseAfter_append [] before (part ++ after)
  rw [lowercaseAfter_of_notMem hsigma, ← hpart, ← List.append_assoc, ← List.append_assoc] at hwhole
  exact ⟨lower, _, hwhole.symm⟩

theorem eq_of_mem_lowercaseChar {c d : Char} (h : d ∈ lowercaseChar c) (hd : d.toNat < 0x61) :
    c = d := by
  unfold lowercaseChar at h
  split_ifs at h
  · have habove : ∀ x ∈ ['i', Char.ofNat 0x307], 0x61 ≤ x.toNat :=
      List.forall_mem_cons.mpr ⟨by decide, List.forall_mem_singleton.mpr (by decide)⟩
    exact absurd hd (Nat.not_lt.mpr (habove d h))
  · exact CaseRun.keepAbove_lowercaseRuns.eq_of_apply_eq (List.mem_singleton.mp h).symm hd

theorem mem_of_mem_lowercaseChars {cs : List Char} {d : Char} (h : d ∈ lowercaseChars cs)
    (hd : d.toNat < 0x61) : d ∈ cs := by
  suffices hafter : ∀ before, d ∈ lowercaseAfter before cs → d ∈ cs from hafter [] h
  clear h
  induction cs with
  | nil => exact fun _ h => h
  | cons c cs ih =>
    intro before h
    rw [lowercaseAfter, List.mem_append] at h
    rcases h with hfirst | hrest
    · split_ifs at hfirst with hcapital hfinal
      · obtain rfl := List.mem_singleton.mp hfirst
        exact absurd hd (by decide)
      · obtain rfl := List.mem_singleton.mp hfirst
        exact absurd hd (by decide)
      · exact eq_of_mem_lowercaseChar hfirst hd ▸ List.mem_cons_self
    · exact List.mem_cons_of_mem c (ih _ hrest)

end ContractAnalysis.Text
