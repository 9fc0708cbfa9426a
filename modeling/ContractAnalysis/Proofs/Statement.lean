import ContractAnalysis.FactRule
import ContractAnalysis.Proofs.Pattern.Successive
import ContractAnalysis.Proofs.Text.Character
import ContractAnalysis.Proofs.Text.Words

/-!
# Statements

The rules for obligations and for rights look for statements: a party, a verb, and what is said of
the party up to the end of a sentence or line (`Expression.IsStatement`). The party is a whole word
of the text (`exists_party_of_mem_findAll`). Behind it stands white space. Before it stands no word
character, or else the match would have started there; and it could have, for matches never stop
inside a word. What is said does not start with white space, as the white space before it is taken
as far as it goes (`exists_isSaidAt`).
-/

namespace ContractAnalysis

open Pattern Text

namespace FactRule

/-- A party, a verb, and what is said of the party. -/
def statement (verb : Pattern) : Pattern := party ++ (gap ++ (verb ++ (gap ++ upToStop)))

end FactRule

/-- An expression that looks for statements. -/
def Expression.IsStatement (e : Expression) : Prop :=
  ∃ verb : Pattern, verb.avoids 1 = true ∧ e = ⟨FactRule.perLine, FactRule.statement verb⟩

namespace FactRule

theorem isStatement_obligation : obligationExpression.IsStatement := ⟨_, rfl, rfl⟩

theorem isStatement_right : rightExpression.IsStatement := ⟨_, rfl, rfl⟩

end FactRule

theorem Expression.IsStatement.consumes {e : Expression} (h : e.IsStatement) :
    e.pattern.consumes = true := by
  obtain ⟨verb, -, rfl⟩ := h
  rfl

/-! ## Places inside words -/

/-- A place with a word character on either side. -/
def Cursor.IsInsideWord (place : Cursor) : Prop :=
  isWordAt place.before = true ∧ isWordAt place.rest.head? = true

theorem not_isInsideWord_of_takes_stop {flags : Flags} {a b : Cursor} {marks : List Mark}
    (h : Takes flags (.alt (.seq (.one (.only '.')) (.one .blank)) .finish) a b marks) :
    ¬b.IsInsideWord := by
  rintro ⟨hbefore, hafter⟩
  cases h with
  | left h =>
    cases h with
    | seq _ hblank =>
      cases hblank with
      | one hnext hblank =>
        rw [Cursor.before_of_next? hnext, Cursor.isWordAt, not_isWord_of_isBlank hblank] at hbefore
        contradiction
  | right h =>
    cases h with
    | finish h =>
      simp only [Cursor.atFinish, Bool.or_eq_true, List.isEmpty_iff, Bool.and_eq_true,
        beq_iff_eq] at h
      rcases h with hnil | ⟨-, hfeed⟩
      · rw [hnil] at hafter
        contradiction
      · rw [hfeed] at hafter
        exact absurd hafter (by decide +kernel)

/-! ## The party -/

namespace FactRule

variable {verb : Pattern} {m : Match}

/-- Where the party of a match stands. -/
structure IsPartyAt (m : Match) (verb : Pattern) (place stop : Cursor) : Prop where
  leads : m.start.Leads place
  opened : m.opened? 1 = some place
  group : m.group? 1 = some (Span.text ⟨place, stop⟩)
  word : ∃ marks, aWord.Takes perLine place stop marks
  rest : ∃ marks, (gap ++ (verb ++ (gap ++ upToStop))).Takes perLine stop m.stop marks
  /-- The match starts with the party, or with an article and white space before it. -/
  start : place = m.start ∨ ∃ c, place.before = some c ∧ isBlank c = true

theorem exists_isPartyAt (hverb : verb.avoids 1 = true)
    (h : (statement verb).Takes perLine m.start m.stop m.marks) :
    ∃ place stop, IsPartyAt m verb place stop := by
  generalize hmarks : m.marks = marks at h
  cases h with
  | @seq _ _ _ stop _ _ _ hparty hrest =>
    cases hparty with
    | @seq _ _ _ place _ _ _ harticle hcapture =>
      cases hcapture with
      | @capture _ _ _ _ inner hword =>
        have hinner : ∀ mark ∈ inner, mark.group ≠ 1 := hword.group_ne rfl
        have havoids : (gap ++ (verb ++ (gap ++ upToStop))).avoids 1 = true := by
          show (true && (verb.avoids 1 && true)) = true
          rw [hverb]
          rfl
        rw [List.append_assoc, List.cons_append, List.append_assoc] at hmarks
        obtain ⟨hopened, hgroup⟩ := Match.group?_of_marks hmarks hinner (hrest.group_ne havoids)
        refine ⟨place, stop, harticle.leads, hopened, hgroup, ⟨_, hword⟩, ⟨_, hrest⟩, ?_⟩
        cases harticle with
        | absent => exact .inl rfl
        | present h =>
          cases h with
          | @seq _ _ _ behind _ _ _ _ hgap =>
            obtain ⟨last, hlast⟩ : ∃ c, (Span.text ⟨behind, place⟩).getLast? = some c := by
              obtain ⟨c, next, hnext, -, hleads⟩ := hgap.next_of_plus
              rw [Span.text_of_next? hnext hleads]
              exact ⟨_, List.getLast?_cons⟩
            refine .inr ⟨last, ?_, hgap.accepts_of_plus last (List.mem_of_getLast? hlast)⟩
            rw [Cursor.before_of_leads hgap.leads, hlast]
            rfl

namespace IsPartyAt

variable {place stop : Cursor}

theorem isBoundary_after (h : IsPartyAt m verb place stop) : IsBoundary stop.rest.head? := by
  obtain ⟨marks, hrest⟩ := h.rest
  cases hrest with
  | seq hgap _ =>
    obtain ⟨c, next, hnext, hblank, -⟩ := hgap.next_of_plus
    rw [Cursor.rest_of_next? hnext, Cursor.isBoundary_iff]
    exact not_isWord_of_isBlank hblank

theorem isSome_matchAt_previous (h : IsPartyAt m verb place stop) {c : Char} {previous : Cursor}
    (hnext : previous.next? = some (c, place)) (hc : isWord c = true) :
    ((⟨perLine, statement verb⟩ : Expression).matchAt previous).isSome = true := by
  obtain ⟨wordMarks, hword⟩ := h.word
  obtain ⟨restMarks, hrest⟩ := h.rest
  cases hword with
  | plus hround hmore =>
    have hlonger : aWord.Takes perLine previous stop _ := .plus (.one hnext hc) (.more hround hmore)
    exact Expression.isSome_matchAt_iff.mpr
      ⟨m.stop, _, .seq (.seq (.absent _ previous) (.capture 1 hlonger)) hrest⟩

/-- No word character stands before the party of the first match from a place that is not inside a
word. -/
theorem isBoundary_before (h : IsPartyAt m verb place stop) {from' : Cursor}
    (hfrom : from'.Leads m.start) (hinside : ¬from'.IsInsideWord)
    (hfirst : ∀ earlier, from'.Leads earlier → m.start.size < earlier.size →
      (⟨perLine, statement verb⟩ : Expression).matchAt earlier = none) :
    IsBoundary place.before := by
  rw [Cursor.isBoundary_iff]
  rcases h.start with rfl | ⟨c, hbefore, hblank⟩
  · rw [← Bool.not_eq_true]
    intro hword
    rcases hfrom.eq_or_previous with hsame | ⟨c, previous, hprevious, hnext⟩
    · obtain ⟨marks, hparty⟩ := h.word
      obtain ⟨c, next, hnext, hc, -⟩ := hparty.next_of_plus
      refine hinside (hsame ▸ ⟨hword, ?_⟩)
      rw [Cursor.rest_of_next? hnext]
      exact hc
    · rw [Cursor.before_of_next? hnext] at hword
      have hsome := h.isSome_matchAt_previous hnext hword
      have hsize := Cursor.size_of_next? hnext
      rw [hfirst previous hprevious (by omega)] at hsome
      contradiction
  · rw [hbefore]
    exact not_isWord_of_isBlank hblank

theorem not_isInsideWord_stop (h : IsPartyAt m verb place stop) : ¬m.stop.IsInsideWord := by
  obtain ⟨marks, hrest⟩ := h.rest
  obtain ⟨_, _, _, -, hlast, -⟩ := hrest.exists_of_endsWith
    (.seq _ (.seq _ (.seq _ (.seq _ .self))))
  exact not_isInsideWord_of_takes_stop hlast

end IsPartyAt

/-- The party of a match is a whole word of the text. -/
theorem exists_party_of_mem_findAll (hverb : verb.avoids 1 = true) {text : List Char}
    (hm : m ∈ (⟨perLine, statement verb⟩ : Expression).findAll text) :
    ∃ place stop, IsPartyAt m verb place stop ∧ IsBoundary place.before := by
  have hstart : ¬(Cursor.ofChars text).IsInsideWord := fun hinside => Bool.noConfusion hinside.1
  refine Expression.findAll_induction (e := ⟨perLine, statement verb⟩) rfl
    (motive := fun from' ms => ¬from'.IsInsideWord → ∀ m ∈ ms,
      ∃ place stop, IsPartyAt m verb place stop ∧ IsBoundary place.before)
    (fun _ _ _ => by simp) ?_ text hstart m hm
  intro from' m rest hfrom hm hfirst ih hinside
  obtain ⟨place, stop, hparty⟩ := exists_isPartyAt hverb (Expression.takes_of_matchAt hm).2
  exact List.forall_mem_cons.mpr
    ⟨⟨place, stop, hparty, hparty.isBoundary_before hfrom hinside hfirst⟩,
      ih hparty.not_isInsideWord_stop⟩

/-! ## What is said -/

theorem exists_takes_upToStop {a next : Cursor} {c : Char} (hnext : a.next? = some (c, next))
    (hc : c ≠ '\n') : ∃ stop marks, upToStop.Takes perLine a stop marks := by
  obtain ⟨stop, hstop, hrun, hends⟩ := next.exists_run (· != '\n')
  have hany : ∀ x, x ≠ '\n' → CharSet.any.accepts perLine x = true := by
    intro x hx
    simpa [CharSet.accepts, perLine] using hx
  have hfinish : stop.atFinish perLine = true := by
    cases hlast : stop.next? with
    | none =>
      have hnil : stop.rest = [] := by
        rw [← List.length_eq_zero_iff, ← stop.size_eq, Cursor.size_of_next?_eq_none hlast]
      simp [Cursor.atFinish, hnil]
    | some last =>
      have hfeed : last.1 = '\n' := by simpa using hends last.1 last.2 hlast
      simp [Cursor.atFinish, perLine, Cursor.rest_of_next? hlast, hfeed]
  have hline : Takes perLine (.plus .lazy (.one .any)) a stop _ :=
    .plus (.one hnext (hany c hc)) (takes_star_of_accepts .lazy hstop fun x hx =>
      hany x (by simpa using hrun x hx))
  exact ⟨stop, _, .seq (.capture 2 hline) (.right (.finish hfinish))⟩

theorem exists_walk_upToStop {a : Cursor} {k : Continuation} {way : Way}
    (hk : ∀ later, (k later).isSome = true)
    (h : (gap ++ upToStop).walk perLine k a = some way)
    (hlast : ∀ c ∈ a.rest.getLast?, isBlank c = false) :
    ∃ b c next, a.Leads b ∧ b.next? = some (c, next) ∧ isBlank c = false ∧
      upToStop.walk perLine k b = some way := by
  obtain ⟨later, _, _, htakes, -, -⟩ := takes_of_walk perLine gap _ _ _ h
  obtain ⟨first, behind, hfirst, hblank, -⟩ := htakes.next_of_plus
  obtain ⟨b, hb, hrun, hends⟩ := a.exists_run isBlank
  have hne : Span.text ⟨a, b⟩ ≠ [] := by
    cases hb with
    | refl => exact absurd hblank (by simp [CharSet.accepts, hends _ _ hfirst])
    | step hnext hlater =>
      rw [Span.text_of_next? hnext hlater]
      exact List.cons_ne_nil _ _
  cases hrest : b.rest with
  | nil =>
    have htext := Span.text_append_rest hb
    rw [hrest, List.append_nil] at htext
    obtain ⟨c, hc⟩ := Option.isSome_iff_exists.mp (List.getLast?_isSome.mpr hne)
    have hother := hlast c (htext ▸ hc)
    rw [hrun c (List.mem_of_getLast? hc)] at hother
    contradiction
  | cons c cs =>
    obtain ⟨next, hnext, -⟩ := Cursor.exists_next hrest
    have hc := hends c next hnext
    have hfeed : c ≠ '\n' := by
      rintro rfl
      exact absurd hc (by decide)
    obtain ⟨stop, marks, hsaid⟩ := exists_takes_upToStop hnext hfeed
    obtain ⟨rest, hrest⟩ := Option.isSome_iff_exists.mp (isSome_walk_of_takes hsaid (hk stop))
    have hprefers : Prefers perLine gap a b [] := prefers_plus_run hb hne hrun hends
    have hwalk := hprefers _ rest hrest
    have hway : (gap ++ upToStop).walk perLine k a = some rest := hwalk
    rw [h] at hway
    exact ⟨b, c, next, hb, hnext, hc, hrest.trans hway.symm⟩

/-- Where what is said of the party stands: it starts with a character that is not white space. -/
structure IsSaidAt (m : Match) (place stop : Cursor) : Prop where
  opened : m.opened? 2 = some place
  group : m.group? 2 = some (Span.text ⟨place, stop⟩)
  line : ∃ marks, Takes perLine (.plus .lazy (.one .any)) place stop marks
  starts : ∃ c next, place.next? = some (c, next) ∧ isBlank c = false

theorem exists_isSaidAt {verb : Pattern} {a : Cursor} {m : Match}
    (h : (⟨perLine, statement verb⟩ : Expression).matchAt a = some m)
    (hlast : ∀ c ∈ a.rest.getLast?, isBlank c = false) :
    ∃ place stop, IsSaidAt m place stop := by
  obtain ⟨way, hway, rfl⟩ := Option.map_eq_some_iff.mp h
  obtain ⟨b, marks, way', hparty, hb, rfl⟩ := takes_of_walk perLine party _ _ _ hway
  obtain ⟨c, marks', way'', hgap, hc, rfl⟩ := takes_of_walk perLine gap _ _ _ hb
  obtain ⟨d, marks'', last, hverb, hd, rfl⟩ := takes_of_walk perLine verb _ _ _ hc
  have hleads : a.Leads d := hparty.leads.trans (hgap.leads.trans hverb.leads)
  have hlast' : ∀ c ∈ d.rest.getLast?, isBlank c = false := by
    intro c hc
    refine hlast c ?_
    rw [← Span.text_append_rest hleads, List.getLast?_append, hc]
    rfl
  obtain ⟨place, first, next, hplace, hnext, hfirst, hwalk⟩ :=
    exists_walk_upToStop (fun _ => rfl) hd hlast'
  obtain ⟨end', marks''', rest, hsaid, hending, rfl⟩ := takes_of_walk perLine upToStop _ _ _ hwalk
  obtain rfl := Option.some.inj hending
  cases hsaid with
  | @seq _ _ _ stop _ _ after hcapture hstop =>
    cases hcapture with
    | @capture _ _ _ _ inner hline =>
      have hmarks : (Match.ofWay a ⟨end', marks ++ (marks' ++ (marks'' ++
          ((.opened 2 place :: (inner ++ [.closed 2 stop]) ++ after) ++ [])))⟩).marks =
          (marks ++ marks' ++ marks'') ++ .opened 2 place :: (inner ++ .closed 2 stop :: after) := by
        simp [Match.ofWay]
      obtain ⟨hopened, hgroup⟩ :=
        Match.group?_of_marks hmarks (hline.group_ne rfl) (hstop.group_ne rfl)
      exact ⟨place, stop, hopened, hgroup, ⟨_, hline⟩, ⟨first, next, hnext, hfirst⟩⟩

end FactRule

end ContractAnalysis
