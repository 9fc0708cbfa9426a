import ContractAnalysis.Pattern.Match

/-!
# What a pattern takes

`Pattern.Takes` says, construct by construct, which parts of a text a pattern may take and which
marks its captures leave there. A walk through a pattern takes such a part and then goes on as the
continuation does (`Pattern.takes_of_walk`), so that whatever holds of the parts holds of every
match that is found (`Expression.takes_of_mem_findAll`). Appetites and the order of branches are
left out: they say which part is taken first, not which may be.

* `Match.group?_of_marks`: what a capture recorded, from the marks
* `Expression.exists_capture`: what a capture near the end of a pattern takes
-/

namespace ContractAnalysis

/-- The number of the capture that left a mark. -/
def Mark.group : Mark → Nat
  | .opened group _ => group
  | .closed group _ => group

namespace Pattern

/-- What a pattern takes between two places, and the marks that it leaves. -/
inductive Takes (flags : Flags) : Pattern → Cursor → Cursor → List Mark → Prop
  | nothing (a : Cursor) : Takes flags .nothing a a []
  | one {set : CharSet} {a b : Cursor} {c : Char} (hnext : a.next? = some (c, b))
      (haccepts : set.accepts flags c = true) : Takes flags (.one set) a b []
  | wordBoundary {a : Cursor} (h : a.atWordBoundary = true) : Takes flags .wordBoundary a a []
  | start {a : Cursor} (h : a.atStart flags = true) : Takes flags .start a a []
  | finish {a : Cursor} (h : a.atFinish flags = true) : Takes flags .finish a a []
  | seq {left right : Pattern} {a b c : Cursor} {marks marks' : List Mark}
      (hleft : Takes flags left a b marks) (hright : Takes flags right b c marks') :
      Takes flags (.seq left right) a c (marks ++ marks')
  | left {left right : Pattern} {a b : Cursor} {marks : List Mark}
      (h : Takes flags left a b marks) : Takes flags (.alt left right) a b marks
  | right {left right : Pattern} {a b : Cursor} {marks : List Mark}
      (h : Takes flags right a b marks) : Takes flags (.alt left right) a b marks
  | present {body : Pattern} {a b : Cursor} {marks : List Mark}
      (h : Takes flags body a b marks) : Takes flags (.optional body) a b marks
  | absent (body : Pattern) (a : Cursor) : Takes flags (.optional body) a a []
  | none (appetite : Appetite) (body : Pattern) (a : Cursor) :
      Takes flags (.star appetite body) a a []
  | more {appetite : Appetite} {body : Pattern} {a b c : Cursor} {marks marks' : List Mark}
      (hround : Takes flags body a b marks)
      (hrest : Takes flags (.star appetite body) b c marks') :
      Takes flags (.star appetite body) a c (marks ++ marks')
  | plus {appetite : Appetite} {body : Pattern} {a b c : Cursor} {marks marks' : List Mark}
      (hround : Takes flags body a b marks)
      (hrest : Takes flags (.star appetite body) b c marks') :
      Takes flags (.plus appetite body) a c (marks ++ marks')
  | capture (group : Nat) {body : Pattern} {a b : Cursor} {marks : List Mark}
      (h : Takes flags body a b marks) :
      Takes flags (.capture group body) a b (.opened group a :: (marks ++ [.closed group b]))

/-- The ways of a step take a part of the text and go on as the continuation does. -/
def StepTakes (takes : Cursor → Cursor → List Mark → Prop) (step : Continuation → Continuation) :
    Prop :=
  ∀ (k : Continuation) (cursor : Cursor) (way : Way), step k cursor = some way →
    ∃ later marks rest, takes cursor later marks ∧ k later = some rest ∧
      way = ⟨rest.stop, marks ++ rest.marks⟩

theorem eq_or_eq_of_choose {appetite : Appetite} {way : Way} {more stop : Option Way}
    (h : appetite.choose more stop = some way) : more = some way ∨ stop = some way := by
  cases appetite <;> rcases Option.or_eq_some_iff.mp h with h | ⟨-, h⟩
  · exact .inl h
  · exact .inr h
  · exact .inr h
  · exact .inl h

theorem stepTakes_of_look {takes : Cursor → Cursor → List Mark → Prop} {look : Cursor → Bool}
    (h : ∀ cursor, look cursor = true → takes cursor cursor []) :
    StepTakes takes fun k cursor => if look cursor then k cursor else none := by
  intro k cursor way hway
  obtain ⟨hlook, hk⟩ := Option.ite_none_right_eq_some.mp hway
  exact ⟨cursor, [], way, h cursor hlook, hk, rfl⟩

theorem takes_of_repeat {flags : Flags} {body : Pattern} (appetite : Appetite)
    (hbody : StepTakes (Takes flags body) (body.walk flags)) (fuel : Nat) :
    StepTakes (Takes flags (.star appetite body)) fun k cursor =>
      appetite.repeat (body.walk flags) k fuel cursor := by
  intro k cursor way h
  induction fuel generalizing cursor way with
  | zero =>
    rcases eq_or_eq_of_choose h with hmore | hstop
    · obtain ⟨later, marks, rest, -, hnone, -⟩ := hbody _ _ _ hmore
      contradiction
    · exact ⟨cursor, [], way, .none appetite body cursor, hstop, rfl⟩
  | succ fuel ih =>
    rcases eq_or_eq_of_choose h with hmore | hstop
    · obtain ⟨later, marks, rest, hround, hagain, rfl⟩ := hbody _ _ _ hmore
      obtain ⟨-, hrepeat⟩ := Option.ite_none_right_eq_some.mp hagain
      obtain ⟨last, marks', rest', hrest, hk, rfl⟩ := ih later rest hrepeat
      exact ⟨last, marks ++ marks', rest', .more hround hrest, hk, by simp⟩
    · exact ⟨cursor, [], way, .none appetite body cursor, hstop, rfl⟩

/-- A walk takes a part of the text and goes on as the continuation does. -/
theorem takes_of_walk (flags : Flags) (p : Pattern) :
    StepTakes (Takes flags p) (p.walk flags) := by
  induction p with
  | nothing => exact fun k cursor way h => ⟨cursor, [], way, .nothing cursor, h, rfl⟩
  | one set =>
    intro k cursor way h
    simp only [walk] at h
    cases hnext : cursor.next? with
    | none => simp [hnext] at h
    | some next =>
      simp only [hnext, Option.ite_none_right_eq_some] at h
      exact ⟨next.2, [], way, .one hnext h.1, h.2, rfl⟩
  | wordBoundary => exact stepTakes_of_look fun _ => .wordBoundary
  | start => exact stepTakes_of_look fun _ => .start
  | finish => exact stepTakes_of_look fun _ => .finish
  | seq left right hleft hright =>
    intro k cursor way h
    obtain ⟨later, marks, rest, htakes, hk, rfl⟩ := hleft _ _ _ h
    obtain ⟨last, marks', rest', htakes', hk', rfl⟩ := hright _ _ _ hk
    exact ⟨last, marks ++ marks', rest', .seq htakes htakes', hk', by simp⟩
  | alt left right hleft hright =>
    intro k cursor way h
    rcases Option.or_eq_some_iff.mp h with h | ⟨-, h⟩
    · obtain ⟨later, marks, rest, htakes, hk⟩ := hleft _ _ _ h
      exact ⟨later, marks, rest, .left htakes, hk⟩
    · obtain ⟨later, marks, rest, htakes, hk⟩ := hright _ _ _ h
      exact ⟨later, marks, rest, .right htakes, hk⟩
  | optional body hbody =>
    intro k cursor way h
    rcases Option.or_eq_some_iff.mp h with h | ⟨-, h⟩
    · obtain ⟨later, marks, rest, htakes, hk⟩ := hbody _ _ _ h
      exact ⟨later, marks, rest, .present htakes, hk⟩
    · exact ⟨cursor, [], way, .absent body cursor, h, rfl⟩
  | star appetite body hbody =>
    exact fun k cursor => takes_of_repeat appetite hbody cursor.size k cursor
  | plus appetite body hbody =>
    intro k cursor way h
    obtain ⟨later, marks, rest, htakes, hk, rfl⟩ := hbody _ _ _ h
    obtain ⟨last, marks', rest', htakes', hk', rfl⟩ :=
      takes_of_repeat appetite hbody later.size k later rest hk
    exact ⟨last, marks ++ marks', rest', .plus htakes htakes', hk', by simp⟩
  | capture group body hbody =>
    intro k cursor way h
    obtain ⟨inner, hinner, rfl⟩ := Option.map_eq_some_iff.mp h
    obtain ⟨later, marks, rest, htakes, hk, rfl⟩ := hbody _ _ _ hinner
    obtain ⟨outer, houter, rfl⟩ := Option.map_eq_some_iff.mp hk
    exact ⟨later, _, outer, .capture group htakes, houter, by simp [Way.mark]⟩

/-! ## Places and marks -/

theorem Takes.leads {flags : Flags} {p : Pattern} {a b : Cursor} {marks : List Mark}
    (h : Takes flags p a b marks) : a.Leads b := by
  induction h with
  | nothing | wordBoundary | start | finish | absent | none => exact .refl _
  | one hnext => exact .step hnext (.refl _)
  | seq _ _ ihleft ihright => exact ihleft.trans ihright
  | left _ ih | right _ ih | present _ ih | capture _ _ ih => exact ih
  | more _ _ ihround ihrest | plus _ _ ihround ihrest => exact ihround.trans ihrest

theorem Takes.next_of_plus {flags : Flags} {appetite : Appetite} {set : CharSet} {a b : Cursor}
    {marks : List Mark} (h : Takes flags (.plus appetite (.one set)) a b marks) :
    ∃ c next, a.next? = some (c, next) ∧ set.accepts flags c = true ∧ next.Leads b := by
  cases h with
  | plus hround hrest =>
    cases hround with
    | one hnext haccepts => exact ⟨_, _, hnext, haccepts, hrest.leads⟩

/-! ## Captures -/

/-- Whether nothing is recorded under a number. -/
def avoids (group : Nat) : Pattern → Bool
  | .nothing | .one _ | .wordBoundary | .start | .finish => true
  | .seq left right | .alt left right => left.avoids group && right.avoids group
  | .optional body | .star _ body | .plus _ body => body.avoids group
  | .capture other body => other != group && body.avoids group

theorem Takes.group_ne {flags : Flags} {p : Pattern} {a b : Cursor} {marks : List Mark}
    (h : Takes flags p a b marks) {group : Nat} (hp : p.avoids group = true) :
    ∀ mark ∈ marks, mark.group ≠ group := by
  induction h with
  | nothing | wordBoundary | start | finish | absent | none | one => simp
  | seq _ _ ihleft ihright =>
    obtain ⟨hleft, hright⟩ := Bool.and_eq_true_iff.mp hp
    exact List.forall_mem_append.mpr ⟨ihleft hleft, ihright hright⟩
  | left _ ih => exact ih (Bool.and_eq_true_iff.mp hp).1
  | right _ ih => exact ih (Bool.and_eq_true_iff.mp hp).2
  | present _ ih => exact ih hp
  | more _ _ ihround ihrest | plus _ _ ihround ihrest =>
    exact List.forall_mem_append.mpr ⟨ihround hp, ihrest hp⟩
  | capture other _ ih =>
    obtain ⟨hother, hbody⟩ := Bool.and_eq_true_iff.mp hp
    simp only [List.forall_mem_cons, List.forall_mem_append, List.not_mem_nil, false_implies,
      implies_true, and_true]
    exact ⟨bne_iff_ne.mp hother, ih hbody, bne_iff_ne.mp hother⟩

/-- A pattern is a sequence that ends with another pattern. -/
inductive EndsWith (last : Pattern) : Pattern → Prop
  | self : EndsWith last last
  | seq (left : Pattern) {right : Pattern} (h : EndsWith last right) :
      EndsWith last (.seq left right)

theorem Takes.exists_of_endsWith {flags : Flags} {last p : Pattern} {a b : Cursor}
    {marks : List Mark} (hends : EndsWith last p) (h : Takes flags p a b marks) :
    ∃ place before after, a.Leads place ∧ Takes flags last place b after ∧
      marks = before ++ after := by
  induction hends generalizing a marks with
  | self => exact ⟨a, [], marks, .refl a, h, rfl⟩
  | seq left _ ih =>
    cases h with
    | seq hleft hright =>
      obtain ⟨place, before, after, hleads, hlast, rfl⟩ := ih hright
      exact ⟨place, _, after, hleft.leads.trans hleads, hlast, (List.append_assoc _ _ _).symm⟩

end Pattern

/-! ## The text of a part -/

theorem Span.text_of_next? {a next b : Cursor} {c : Char} (h : a.next? = some (c, next))
    (hb : next.Leads b) : Span.text ⟨a, b⟩ = c :: Span.text ⟨next, b⟩ := by
  have hsize := Cursor.size_of_next? h
  have hle := hb.size_le
  obtain ⟨before, rest, size, size_eq⟩ := a
  cases rest with
  | nil => simp [Cursor.next?] at h
  | cons x xs =>
    simp only [Cursor.next?, Option.some.injEq, Prod.mk.injEq] at h
    obtain ⟨rfl, rfl⟩ := h
    simp only [Span.text] at hsize hle ⊢
    rw [show size - b.size = size - 1 - b.size + 1 by omega, List.take_succ_cons]

theorem Cursor.rest_ofChars (text : List Char) : (ofChars text).rest = text := rfl

theorem Cursor.rest_of_next? {a next : Cursor} {c : Char} (h : a.next? = some (c, next)) :
    a.rest = c :: next.rest := by
  obtain ⟨before, rest, size, size_eq⟩ := a
  cases rest with
  | nil => simp [next?] at h
  | cons x xs =>
    simp only [next?, Option.some.injEq, Prod.mk.injEq] at h
    obtain ⟨rfl, rfl⟩ := h
    rfl

theorem Span.text_append_rest {a b : Cursor} (h : a.Leads b) :
    Span.text ⟨a, b⟩ ++ b.rest = a.rest := by
  induction h with
  | refl => simp [Span.text]
  | step hnext hlater ih =>
    rw [Span.text_of_next? hnext hlater, List.cons_append, ih, Cursor.rest_of_next? hnext]

theorem Pattern.Takes.accepts_of_star {flags : Flags} {appetite : Appetite} {set : CharSet}
    {a b : Cursor} {marks : List Mark} (h : Takes flags (.star appetite (.one set)) a b marks) :
    ∀ c ∈ Span.text ⟨a, b⟩, set.accepts flags c = true := by
  generalize hp : Pattern.star appetite (.one set) = p at h
  induction h with
  | none => simp [Span.text]
  | more hround hrest _ ih =>
    obtain ⟨rfl, rfl⟩ := Pattern.star.inj hp
    cases hround with
    | one hnext haccepts =>
      rw [Span.text_of_next? hnext hrest.leads]
      exact List.forall_mem_cons.mpr ⟨haccepts, ih rfl⟩
  | nothing | one | wordBoundary | start | finish | seq | left | right | present | absent | plus
  | capture => cases hp

theorem Pattern.Takes.accepts_of_plus {flags : Flags} {appetite : Appetite} {set : CharSet}
    {a b : Cursor} {marks : List Mark} (h : Takes flags (.plus appetite (.one set)) a b marks) :
    ∀ c ∈ Span.text ⟨a, b⟩, set.accepts flags c = true := by
  cases h with
  | plus hround hrest => exact (Takes.more hround hrest).accepts_of_star

/-! ## Matches that are found -/

theorem Match.exists_of_mem_allFrom {matchAt : Cursor → Option Match}
    (hstop : ∀ later m, matchAt later = some m → later.Leads m.stop) {cursor : Cursor} {m : Match}
    (h : m ∈ Match.allFrom matchAt cursor) :
    ∃ later, cursor.Leads later ∧ matchAt later = some m := by
  suffices hwithin : ∀ fuel (place : Cursor), cursor.Leads place →
      m ∈ Match.allWithin matchAt fuel place → ∃ later, cursor.Leads later ∧ matchAt later = some m
    from hwithin _ _ (.refl cursor) h
  intro fuel
  induction fuel with
  | zero => exact fun _ _ h => absurd h List.not_mem_nil
  | succ fuel ih =>
    intro place hplace h
    simp only [allWithin] at h
    cases hfirst : firstFrom matchAt place with
    | none => simp [hfirst] at h
    | some first =>
      obtain ⟨later, hlater, hmatch⟩ := exists_of_firstFrom hfirst
      have hleads := hplace.trans hlater
      have hrest := hleads.trans (hstop later first hmatch)
      simp only [hfirst] at h
      split at h
      · cases hnext : first.stop.next? with
        | none =>
          simp only [hnext, List.mem_singleton] at h
          exact ⟨later, hleads, h ▸ hmatch⟩
        | some next =>
          simp only [hnext] at h
          rcases List.mem_cons.mp h with rfl | h
          · exact ⟨later, hleads, hmatch⟩
          · exact ih _ (hrest.trans (.step hnext (.refl _))) h
      · rcases List.mem_cons.mp h with rfl | h
        · exact ⟨later, hleads, hmatch⟩
        · exact ih _ hrest h

theorem Mark.findSome?_eq_none {find : Mark → Option Cursor} {group : Nat}
    (hfind : ∀ mark, mark.group ≠ group → find mark = none) {marks : List Mark}
    (h : ∀ mark ∈ marks, mark.group ≠ group) : marks.reverse.findSome? find = none :=
  List.findSome?_eq_none_iff.mpr fun mark hmark =>
    hfind mark (h mark (List.mem_reverse.mp hmark))

theorem Match.group?_of_marks {m : Match} {group : Nat} {place stop : Cursor}
    {before inner after : List Mark}
    (h : m.marks = before ++ .opened group place :: (inner ++ .closed group stop :: after))
    (hinner : ∀ mark ∈ inner, mark.group ≠ group) (hafter : ∀ mark ∈ after, mark.group ≠ group) :
    m.opened? group = some place ∧ m.group? group = some (Span.text ⟨place, stop⟩) := by
  have hopened : m.opened? group = some place := by
    rw [Match.opened?, h, List.reverse_append, List.reverse_cons, List.reverse_append,
      List.reverse_cons, List.findSome?_append, List.findSome?_append, List.findSome?_append,
      List.findSome?_append, Mark.findSome?_eq_none ?elsewhere hafter,
      Mark.findSome?_eq_none ?elsewhere hinner]
    · simp
    · intro mark hne
      cases mark with
      | opened => exact if_neg hne
      | closed => rfl
  have hclosed : m.closed? group = some stop := by
    rw [Match.closed?, h, List.reverse_append, List.reverse_cons, List.reverse_append,
      List.reverse_cons, List.findSome?_append, List.findSome?_append, List.findSome?_append,
      List.findSome?_append, Mark.findSome?_eq_none ?others hafter]
    · simp
    · intro mark hne
      cases mark with
      | opened => rfl
      | closed => exact if_neg hne
  exact ⟨hopened, by simp [Match.group?, hopened, hclosed]⟩

namespace Expression

variable {e : Expression} {text : List Char} {m : Match}

theorem takes_of_matchAt {cursor : Cursor} (h : e.matchAt cursor = some m) :
    m.start = cursor ∧ e.pattern.Takes e.flags m.start m.stop m.marks := by
  obtain ⟨way, hway, rfl⟩ := Option.map_eq_some_iff.mp h
  obtain ⟨later, marks, rest, htakes, hending, rfl⟩ := e.pattern.takes_of_walk e.flags _ _ _ hway
  obtain rfl := Option.some.inj hending
  exact ⟨rfl, by simpa [Match.ofWay] using htakes⟩

theorem takes_of_find? (h : e.find? text = some m) :
    (Cursor.ofChars text).Leads m.start ∧ e.pattern.Takes e.flags m.start m.stop m.marks := by
  rw [e.find?_eq] at h
  obtain ⟨cursor, hleads, hmatch⟩ := Match.exists_of_firstFrom h
  obtain ⟨rfl, htakes⟩ := takes_of_matchAt hmatch
  exact ⟨hleads, htakes⟩

theorem matchAt_of_mem_findAll (h : m ∈ e.findAll text) :
    (Cursor.ofChars text).Leads m.start ∧ e.matchAt m.start = some m := by
  rw [e.findAll_eq] at h
  obtain ⟨cursor, hleads, hmatch⟩ :=
    Match.exists_of_mem_allFrom (fun _ _ => leads_of_matchAt) h
  obtain ⟨rfl, -⟩ := takes_of_matchAt hmatch
  exact ⟨hleads, hmatch⟩

theorem takes_of_mem_findAll (h : m ∈ e.findAll text) :
    (Cursor.ofChars text).Leads m.start ∧ e.pattern.Takes e.flags m.start m.stop m.marks := by
  obtain ⟨hleads, hmatch⟩ := matchAt_of_mem_findAll h
  exact ⟨hleads, (takes_of_matchAt hmatch).2⟩

/-- A capture that the pattern goes on behind, and what it takes. -/
theorem exists_capture (htakes : e.pattern.Takes e.flags m.start m.stop m.marks) {group : Nat}
    {body tail : Pattern} (hends : Pattern.EndsWith (.seq (.capture group body) tail) e.pattern)
    (hbody : body.avoids group = true) (htail : tail.avoids group = true) :
    ∃ place stop inner after, m.start.Leads place ∧ body.Takes e.flags place stop inner ∧
      tail.Takes e.flags stop m.stop after ∧ m.opened? group = some place ∧
      m.group? group = some (Span.text ⟨place, stop⟩) := by
  obtain ⟨place, before, marks, hleads, hlast, hmarks⟩ := htakes.exists_of_endsWith hends
  cases hlast with
  | seq hcapture hrest =>
    cases hcapture with
    | capture _ hinner =>
      rw [List.cons_append, List.append_assoc] at hmarks
      obtain ⟨hopened, hgroup⟩ := Match.group?_of_marks hmarks (hinner.group_ne hbody)
        (hrest.group_ne htail)
      exact ⟨place, _, _, _, hleads, hinner, hrest, hopened, hgroup⟩

end Expression

end ContractAnalysis
