import ContractAnalysis.Detection
import ContractAnalysis.Proofs.Pattern.Lead
import ContractAnalysis.Proofs.Text.Search
import ContractAnalysis.Proofs.Text.Words

/-!
# Negated actions

An action counts as negated if it has the word `not` and a space in it, be it at the end of a longer
word (`isNegated_iff`). What is taken out of it is each whole word `not`, with all white space behind
it (`stripped_removeAll`); so an action loses something exactly if it has such a word before white
space (`removeAll_ne_iff`). The two agree where no longer word ends with `not` and the white space
starts with a space (`isNegated_iff_removeAll_ne`).
-/

namespace ContractAnalysis

open Pattern Text

/-- Behind a character, if there is one, a text starts with the whole word `not` and white space, and
goes on behind all of this. -/
structure IsNegation (before : Option Char) (cs gap rest : List Char) : Prop where
  boundary : IsBoundary before
  lead : IsLead (fun word => word = "not".toList) cs "not".toList gap rest

/-- What is left of a text behind a character when each whole word `not` is taken out with the white
space behind it. -/
inductive Stripped : Option Char → List Char → List Char → Prop
  | nil (before : Option Char) : Stripped before [] []
  | keep {before : Option Char} {c : Char} {cs left : List Char}
      (hnone : ∀ gap rest, ¬IsNegation before (c :: cs) gap rest)
      (hrest : Stripped (some c) cs left) : Stripped before (c :: cs) (c :: left)
  | drop {before : Option Char} {cs gap rest left : List Char}
      (hnegation : IsNegation before cs gap rest) (hrest : Stripped gap.getLast? rest left) :
      Stripped before cs left

/-- A text has somewhere the word `not` before white space, and no longer word ends with it. -/
def HasNegation (cs : List Char) : Prop :=
  ∃ before c after, cs = before ++ ("not".toList ++ c :: after) ∧ isBlank c = true ∧
    IsBoundary before.getLast?

/-! ## What is taken out -/

theorem areUnnested_not : AreUnnested fun word => word = "not".toList where
  ne_nil := by
    rintro _ rfl
    decide
  not_blank := by
    rintro _ rfl c hc
    have hall : "not".toList.all (!isBlank ·) = true := by decide
    simpa using List.all_eq_true.mp hall c hc
  unnested := by
    rintro _ rfl
    decide

theorem spells_not : Spells negation.flags (literal "not") fun word => word = "not".toList :=
  spells_ofChars rfl _

theorem matchAt_negation : negation.matchAt = fun a =>
    if a.atWordBoundary then Expression.matchAt ⟨negation.flags, literal "not" ++ gap⟩ a
    else none := by
  funext a
  have hwalk : negation.pattern.walk negation.flags Way.ending a =
      if a.atWordBoundary then (literal "not" ++ gap).walk negation.flags Way.ending a
      else none := rfl
  rw [Expression.matchAt, Expression.matchAt, hwalk]
  split_ifs <;> rfl

theorem apart_negation : Match.Apart negation.matchAt := by
  rw [matchAt_negation]
  exact (apart_lead spells_not areUnnested_not).guard Cursor.atWordBoundary

theorem atWordBoundary_iff_of_isLead {a : Cursor} {gap rest : List Char}
    (h : IsLead (fun word => word = "not".toList) a.rest "not".toList gap rest) :
    a.atWordBoundary = true ↔ IsBoundary a.before := by
  have hn : isWord 'n' = true := by decide +kernel
  refine Cursor.atWordBoundary_iff_before ?_
  rw [h.eq]
  exact hn

theorem matchAt_negation_iff {a : Cursor} {m : Match} :
    negation.matchAt a = some m ↔
      ∃ gap stop, IsNegation a.before a.rest gap stop.rest ∧ a.Leads stop ∧
        m = ⟨⟨a, stop⟩, []⟩ := by
  rw [matchAt_negation, Option.ite_none_right_eq_some, matchAt_lead_iff spells_not]
  constructor
  · rintro ⟨hboundary, word, gap, stop, hlead, hstop, rfl⟩
    obtain rfl := hlead.word
    exact ⟨gap, stop, ⟨(atWordBoundary_iff_of_isLead hlead).mp hboundary, hlead⟩, hstop, rfl⟩
  · rintro ⟨gap, stop, ⟨hboundary, hlead⟩, hstop, rfl⟩
    exact ⟨(atWordBoundary_iff_of_isLead hlead).mpr hboundary, _, gap, stop, hlead, hstop, rfl⟩

/-- Each whole word `not` is taken out, with the white space behind it. -/
theorem stripped_removeAll (text : List Char) : Stripped none text (negation.removeAll text) := by
  suffices hfrom : ∀ cursor : Cursor, Stripped cursor.before cursor.rest
      (Expression.without cursor (Match.allFrom negation.matchAt cursor)) by
    rw [Expression.removeAll, Expression.findAll_eq]
    exact hfrom (.ofChars text)
  intro cursor
  induction hsize : cursor.size using Nat.strongRecOn generalizing cursor with
  | ind n ih =>
    subst hsize
    cases hm : negation.matchAt cursor with
    | some m =>
      obtain ⟨-, hshrinks⟩ := apart_negation.moves hm
      rw [Expression.without_of_some apart_negation hm]
      obtain ⟨gap, stop, hnegation, hstop, rfl⟩ := matchAt_negation_iff.mp hm
      refine .drop hnegation ?_
      -- Before the end of the match stands the last of the white space.
      have hbefore : stop.before = gap.getLast? := by
        have htext : Span.text ⟨cursor, stop⟩ = "not".toList ++ gap := by
          rw [← List.append_cancel_right_eq _ stop.rest, Span.text_append_rest hstop,
            hnegation.lead.eq, List.append_assoc]
        rw [Cursor.before_of_leads hstop, htext,
          List.getLast?_append_of_ne_nil _ hnegation.lead.gap_ne_nil,
          List.getLast?_eq_some_getLast hnegation.lead.gap_ne_nil, Option.some_or]
      rw [← hbefore]
      exact ih stop.size hshrinks stop rfl
    | none =>
      cases hnext : cursor.next? with
      | none =>
        have hrest : cursor.rest = [] := by
          rw [← List.length_eq_zero_iff, ← cursor.size_eq, Cursor.size_of_next?_eq_none hnext]
        rw [apart_negation.allFrom_eq, Cursor.forward_of_next?_eq_none hnext,
          List.filterMap_cons_none hm, List.filterMap_nil, Expression.without, hrest]
        exact .nil cursor.before
      | some next =>
        obtain ⟨c, next⟩ := next
        have hrest := Cursor.rest_of_next? hnext
        have hsize := Cursor.size_of_next? hnext
        rw [Expression.without_of_none apart_negation hnext hm, hrest]
        refine .keep (fun gap rest hnegation => ?_) ?_
        · rw [← hrest] at hnegation
          obtain ⟨stop, hstop, rfl, -⟩ := prefers_lead spells_not hnegation.lead
          have hmatch := matchAt_negation_iff.mpr ⟨gap, stop, hnegation, hstop, rfl⟩
          exact Option.some_ne_none _ (hmatch.symm.trans hm)
        · rw [← Cursor.before_of_next? hnext]
          exact ih next.size (by omega) next rfl

/-! ## What is changed -/

theorem exists_isNegation_iff {before : Option Char} {cs : List Char} :
    (∃ gap rest, IsNegation before cs gap rest) ↔
      IsBoundary before ∧ ∃ c after, cs = "not".toList ++ c :: after ∧ isBlank c = true := by
  constructor
  · rintro ⟨gap, rest, hboundary, heq, -, hne, hgap, -⟩
    obtain ⟨c, gap, rfl⟩ := List.exists_cons_of_ne_nil hne
    exact ⟨hboundary, c, gap ++ rest, heq, hgap c List.mem_cons_self⟩
  · rintro ⟨hboundary, c, after, rfl, hblank⟩
    refine ⟨c :: after.takeWhile isBlank, after.dropWhile isBlank, hboundary, ?_, rfl, ?_, ?_, ?_⟩
    · rw [List.cons_append, List.takeWhile_append_dropWhile]
    · exact List.cons_ne_nil _ _
    · exact List.forall_mem_cons.mpr ⟨hblank, fun _ => List.mem_takeWhile_imp⟩
    · intro d hd
      have hhead := List.head?_dropWhile_not isBlank after
      rwa [Option.mem_def.mp hd] at hhead

theorem Stripped.length_le {before : Option Char} {cs left : List Char}
    (h : Stripped before cs left) : left.length ≤ cs.length := by
  induction h with
  | nil => exact Nat.le_refl 0
  | keep _ _ ih => exact Nat.succ_le_succ ih
  | drop hnegation _ ih =>
    rw [hnegation.lead.eq, List.length_append, List.length_append]
    omega

theorem Stripped.ne_iff {before : Option Char} {cs left : List Char}
    (h : Stripped before cs left) :
    left ≠ cs ↔ ∃ part c after, cs = part ++ ("not".toList ++ c :: after) ∧ isBlank c = true ∧
      IsBoundary (part.getLast?.or before) := by
  induction h with
  | nil before => simp
  | @keep before c cs left hnone _ ih =>
    rw [ne_eq, List.cons.injEq, and_iff_right rfl, ← ne_eq, ih]
    constructor
    · rintro ⟨part, d, after, rfl, hblank, hboundary⟩
      refine ⟨c :: part, d, after, rfl, hblank, ?_⟩
      rw [List.getLast?_cons, Option.some_or]
      cases hlast : part.getLast? <;> simpa [hlast] using hboundary
    · rintro ⟨part, d, after, heq, hblank, hboundary⟩
      cases part with
      | nil =>
        obtain ⟨gap, rest, hnegation⟩ := exists_isNegation_iff.mpr ⟨hboundary, d, after, heq, hblank⟩
        exact absurd hnegation (hnone gap rest)
      | cons x part =>
        obtain ⟨rfl, rfl⟩ := List.cons.inj heq
        refine ⟨part, d, after, rfl, hblank, ?_⟩
        rw [List.getLast?_cons, Option.some_or] at hboundary
        cases hlast : part.getLast? <;> simpa [hlast] using hboundary
  | @drop before cs gap rest left hnegation hrest _ =>
    refine iff_of_true (fun heq => ?_) ?_
    · have hlength := hrest.length_le
      rw [heq, hnegation.lead.eq, List.length_append, List.length_append] at hlength
      have hnot : 0 < "not".toList.length := by decide
      omega
    · obtain ⟨hboundary, c, after, heq, hblank⟩ :=
        exists_isNegation_iff.mp ⟨gap, rest, hnegation⟩
      exact ⟨[], c, after, heq, hblank, hboundary⟩

theorem removeAll_ne_iff (text : List Char) : negation.removeAll text ≠ text ↔ HasNegation text := by
  rw [(stripped_removeAll text).ne_iff]
  simp only [Option.or_none]
  rfl

theorem isNegated_iff {action : List Char} :
    isNegated action = true ↔ "not ".toList <:+: action := occursIn_iff

/-- Where each `not` before white space is a whole word before a space, an action counts as negated
exactly if something is taken out of it. -/
theorem isNegated_iff_removeAll_ne {action : List Char}
    (h : ∀ before c after, action = before ++ ("not".toList ++ c :: after) → isBlank c = true →
      c = ' ' ∧ IsBoundary before.getLast?) :
    isNegated action = true ↔ negation.removeAll action ≠ action := by
  have hspace : isBlank ' ' = true := by decide
  rw [isNegated_iff, removeAll_ne_iff]
  constructor
  · rintro ⟨before, after, heq⟩
    have haction : action = before ++ ("not".toList ++ ' ' :: after) := by
      rw [← heq, List.append_assoc]
      rfl
    exact ⟨before, ' ', after, haction, hspace, (h before ' ' after haction hspace).2⟩
  · rintro ⟨before, c, after, haction, hblank, -⟩
    obtain ⟨rfl, -⟩ := h before c after haction hblank
    refine ⟨before, after, ?_⟩
    rw [haction, List.append_assoc]
    rfl

end ContractAnalysis
