import ContractAnalysis.Proofs.Pattern.Takes
import ContractAnalysis.Proofs.Text.Character
import ContractAnalysis.Proofs.Text.Words
import Mathlib.Data.List.Infix
import Mathlib.Data.List.TakeWhile

/-!
# Which way a walk takes

A walk finds a way wherever the pattern may take a part from which the continuation goes on
(`Pattern.isSome_walk_of_takes`).

Which of several parts is taken is said by `Pattern.Prefers`: whatever follows, if the walk can go
on from the end of this part then it takes this part. A greedy run of characters prefers to go on as
long as it can (`Pattern.prefers_run`). A walk that `Pattern.Refuses` a place finds no way from
there.

* `Cursor.exists_leads`: the places between two parts of a text
* `Pattern.fold_mem_of_takes`, `Pattern.prefers_word`: a choice of words takes those words, in any case
-/

namespace ContractAnalysis

/-! ## Places of a text -/

namespace Cursor

theorem exists_next {a : Cursor} {c : Char} {cs : List Char} (h : a.rest = c :: cs) :
    ∃ next, a.next? = some (c, next) ∧ next.rest = cs := by
  obtain ⟨before, rest, size, size_eq⟩ := a
  subst h
  exact ⟨_, rfl, rfl⟩

theorem before_of_next? {a next : Cursor} {c : Char} (h : a.next? = some (c, next)) :
    next.before = some c := by
  obtain ⟨before, rest, size, size_eq⟩ := a
  cases rest with
  | nil => simp [next?] at h
  | cons x xs =>
    obtain ⟨rfl, rfl⟩ := Prod.mk.inj (Option.some.inj h)
    rfl

theorem before_of_leads {a b : Cursor} (h : a.Leads b) :
    b.before = (Span.text ⟨a, b⟩).getLast?.or a.before := by
  induction h with
  | refl => simp [Span.text]
  | @step a next b c hnext hb ih =>
    rw [ih, before_of_next? hnext, Span.text_of_next? hnext hb, List.getLast?_cons]
    cases (Span.text ⟨next, b⟩).getLast? <;> rfl

theorem before_of_leads_ofChars {text : List Char} {place : Cursor}
    (h : (ofChars text).Leads place) :
    place.before = (Span.text ⟨ofChars text, place⟩).getLast? := by
  rw [before_of_leads h]
  exact Option.or_none

theorem exists_leads {a : Cursor} {part others : List Char} (h : a.rest = part ++ others) :
    ∃ b, a.Leads b ∧ b.rest = others ∧ Span.text ⟨a, b⟩ = part := by
  induction part generalizing a with
  | nil => exact ⟨a, .refl a, h, by simp [Span.text]⟩
  | cons c part ih =>
    obtain ⟨next, hnext, hrest⟩ := exists_next h
    obtain ⟨b, hb, hothers, htext⟩ := ih hrest
    exact ⟨b, .step hnext hb, hothers, by rw [Span.text_of_next? hnext hb, htext]⟩

theorem text_append {a b c : Cursor} (hb : a.Leads b) (hc : b.Leads c) :
    Span.text ⟨a, b⟩ ++ Span.text ⟨b, c⟩ = Span.text ⟨a, c⟩ := by
  induction hb with
  | refl => simp [Span.text]
  | step hnext hb ih =>
    rw [Span.text_of_next? hnext hb, Span.text_of_next? hnext (hb.trans hc), List.cons_append,
      ih hc]

theorem length_text {a b : Cursor} (h : a.Leads b) :
    (Span.text ⟨a, b⟩).length + b.size = a.size := by
  rw [a.size_eq, b.size_eq, ← Span.text_append_rest h, List.length_append]

theorem rest_eq_drop {a b : Cursor} (h : a.Leads b) : b.rest = a.rest.drop (a.size - b.size) := by
  have hlength := length_text h
  rw [← Span.text_append_rest h, List.drop_left' (by omega)]

theorem eq_of_text_eq_nil {a b : Cursor} (h : a.Leads b) (htext : Span.text ⟨a, b⟩ = []) :
    a = b := by
  cases h with
  | refl => rfl
  | step hnext hb =>
    rw [Span.text_of_next? hnext hb] at htext
    contradiction

theorem Leads.of_next? {a next b : Cursor} {c : Char} (h : a.Leads b) (hsize : b.size < a.size)
    (hnext : a.next? = some (c, next)) : next.Leads b := by
  obtain rfl | ⟨c', next', hnext', hlater⟩ := h.eq_or_next
  · exact absurd hsize (Nat.lt_irrefl _)
  · rw [hnext] at hnext'
    obtain ⟨-, rfl⟩ := Prod.mk.inj (Option.some.inj hnext')
    exact hlater

theorem Leads.eq_or_previous {a b : Cursor} (h : a.Leads b) :
    b = a ∨ ∃ c previous, a.Leads previous ∧ previous.next? = some (c, b) := by
  induction h with
  | refl => exact .inl rfl
  | @step a next b c hnext hb ih =>
    rcases ih with rfl | ⟨d, previous, hprevious, hlast⟩
    · exact .inr ⟨c, a, .refl a, hnext⟩
    · exact .inr ⟨d, previous, .step hnext hprevious, hlast⟩

theorem exists_run (a : Cursor) (p : Char → Bool) :
    ∃ b, a.Leads b ∧ (∀ c ∈ Span.text ⟨a, b⟩, p c = true) ∧
      ∀ c next, b.next? = some (c, next) → p c = false := by
  obtain ⟨b, hb, hrest, htext⟩ :=
    exists_leads (List.takeWhile_append_dropWhile (p := p) (l := a.rest)).symm
  refine ⟨b, hb, ?_, fun c next hnext => ?_⟩
  · rw [htext]
    exact fun c => List.mem_takeWhile_imp
  · have hhead := List.head?_dropWhile_not p a.rest
    rwa [← hrest, rest_of_next? hnext] at hhead

theorem mem_forward {a b : Cursor} : b ∈ a.forward ↔ a.Leads b := by
  constructor
  · intro h
    induction hsize : a.size generalizing a with
    | zero =>
      simp only [forward, hsize, forwardWithin, List.mem_singleton] at h
      exact h ▸ .refl a
    | succ n ih =>
      cases hnext : a.next? with
      | none => simp [size_of_next?_eq_none hnext] at hsize
      | some next =>
        rw [forward_of_next? hnext, List.mem_cons] at h
        rcases h with rfl | h
        · exact .refl b
        · have := size_of_next? hnext
          exact .step hnext (ih h (by omega))
  · intro h
    induction h with
    | refl a =>
      cases hnext : a.next? with
      | none => simp [forward_of_next?_eq_none hnext]
      | some next => simp [forward_of_next? hnext]
    | step hnext _ ih => exact forward_of_next? hnext ▸ List.mem_cons_of_mem _ ih

theorem map_rest_forward (a : Cursor) : a.forward.map rest = a.rest.tails := by
  induction hrest : a.rest generalizing a with
  | nil =>
    cases hnext : a.next? with
    | none => simp [forward_of_next?_eq_none hnext, hrest]
    | some next => simp [rest_of_next? hnext] at hrest
  | cons c cs ih =>
    obtain ⟨next, hnext, hcs⟩ := exists_next hrest
    rw [forward_of_next? hnext, List.map_cons, ih next hcs, List.tails_cons, hrest]

theorem forward_of_leads {a b : Cursor} (h : a.Leads b) :
    ∃ between, a.forward = between ++ b.forward ∧
      ∀ place ∈ between, a.Leads place ∧ b.size < place.size := by
  induction h with
  | refl a => exact ⟨[], rfl, by simp⟩
  | @step a next b c hnext hb ih =>
    obtain ⟨between, heq, hplaces⟩ := ih
    refine ⟨a :: between, by rw [forward_of_next? hnext, heq, List.cons_append], ?_⟩
    refine List.forall_mem_cons.mpr ⟨⟨.refl a, ?_⟩, fun place hplace => ?_⟩
    · have := size_of_next? hnext
      have := hb.size_le
      omega
    · obtain ⟨hleads, hsize⟩ := hplaces place hplace
      exact ⟨.step hnext hleads, hsize⟩

theorem isBoundary_iff {neighbour : Option Char} :
    Text.IsBoundary neighbour ↔ isWordAt neighbour = false := by
  cases neighbour <;> simp [Text.IsBoundary, isWordAt]

theorem atWordBoundary_iff_before {a : Cursor} (h : isWordAt a.rest.head? = true) :
    a.atWordBoundary = true ↔ Text.IsBoundary a.before := by
  rw [atWordBoundary, h, isBoundary_iff]
  cases isWordAt a.before <;> simp

theorem atWordBoundary_iff_after {a : Cursor} (h : isWordAt a.before = true) :
    a.atWordBoundary = true ↔ Text.IsBoundary a.rest.head? := by
  rw [atWordBoundary, h, isBoundary_iff]
  cases isWordAt a.rest.head? <;> simp

end Cursor

namespace Pattern

variable {flags : Flags}

/-! ## Walks that find a way -/

theorem isSome_choose (appetite : Appetite) (more stop : Option Way) :
    (appetite.choose more stop).isSome = (more.isSome || stop.isSome) := by
  cases appetite
  · exact Option.isSome_or
  · exact Option.isSome_or.trans (Bool.or_comm _ _)

/-- A walk finds a way if the pattern takes a part and the continuation can go on behind it. -/
theorem isSome_walk_of_takes {p : Pattern} {a b : Cursor} {marks : List Mark}
    (h : Takes flags p a b marks) {k : Continuation} (hk : (k b).isSome = true) :
    (p.walk flags k a).isSome = true := by
  induction h generalizing k with
  | nothing => exact hk
  | one hnext haccepts => simpa [walk, hnext, haccepts] using hk
  | wordBoundary h | start h | finish h => simpa [walk, h] using hk
  | seq _ _ ihleft ihright => exact ihleft (ihright hk)
  | left _ ih => simp [walk, ih hk]
  | right _ ih => simp [walk, ih hk]
  | present _ ih => simp [walk, ih hk]
  | absent => simp [walk, hk]
  | none => rw [walk_star, isSome_choose, hk, Bool.or_true]
  | @more appetite body a b c _ _ hround hrest ihround ihrest =>
    by_cases hsize : b.size < a.size
    · rw [walk_star, isSome_choose, Bool.or_eq_true]
      refine .inl (ihround ?_)
      rw [if_pos hsize]
      exact ihrest hk
    · -- A round that moves nowhere is not taken, and is not needed either.
      have hle := hround.leads.size_le
      obtain rfl : b = a := hround.leads.eq_of_size (.refl a) (by omega)
      exact ihrest hk
  | plus _ _ ihround ihrest => exact ihround (ihrest hk)
  | capture group _ ih =>
    rw [walk, Option.isSome_map]
    exact ih (by rwa [Option.isSome_map])

theorem takes_star_of_accepts {set : CharSet} {a b : Cursor} (appetite : Appetite)
    (hleads : a.Leads b) (haccepts : ∀ c ∈ Span.text ⟨a, b⟩, set.accepts flags c = true) :
    Takes flags (.star appetite (.one set)) a b [] := by
  induction hleads with
  | refl a => exact .none appetite _ a
  | step hnext hlater ih =>
    rw [Span.text_of_next? hnext hlater, List.forall_mem_cons] at haccepts
    exact .more (.one hnext haccepts.1) (ih haccepts.2)

/-! ## The part that is preferred -/

/-- Whatever follows, a walk takes this part if it can go on behind it. -/
def Prefers (flags : Flags) (p : Pattern) (a b : Cursor) (marks : List Mark) : Prop :=
  ∀ k rest, k b = some rest → p.walk flags k a = some ⟨rest.stop, marks ++ rest.marks⟩

/-- Whatever follows, a walk finds no way. -/
def Refuses (flags : Flags) (p : Pattern) (a : Cursor) : Prop := ∀ k, p.walk flags k a = none

theorem refuses_of_not_takes {p : Pattern} {a : Cursor}
    (h : ∀ b marks, ¬Takes flags p a b marks) : Refuses flags p a := by
  intro k
  cases hwalk : p.walk flags k a with
  | none => rfl
  | some way =>
    obtain ⟨b, marks, -, htakes, -⟩ := takes_of_walk flags p k a way hwalk
    exact absurd htakes (h b marks)

theorem refuses_one {set : CharSet} {a : Cursor}
    (h : ∀ c next, a.next? = some (c, next) → set.accepts flags c = false) :
    Refuses flags (one set) a := by
  refine refuses_of_not_takes fun b marks htakes => ?_
  cases htakes with
  | one hnext haccepts => simp [h _ _ hnext] at haccepts

theorem prefers_one {set : CharSet} {a b : Cursor} {c : Char} (hnext : a.next? = some (c, b))
    (haccepts : set.accepts flags c = true) : Prefers flags (one set) a b [] := by
  intro k rest hk
  simp [walk, hnext, haccepts, hk]

theorem prefers_start {a : Cursor} (h : a.atStart flags = true) : Prefers flags .start a a [] := by
  intro k rest hk
  rw [walk, if_pos h, hk]
  rfl

theorem prefers_finish {a : Cursor} (h : a.atFinish flags = true) :
    Prefers flags .finish a a [] := by
  intro k rest hk
  rw [walk, if_pos h, hk]
  rfl

theorem Prefers.seq {left right : Pattern} {a b c : Cursor} {marks marks' : List Mark}
    (hleft : Prefers flags left a b marks) (hright : Prefers flags right b c marks') :
    Prefers flags (.seq left right) a c (marks ++ marks') := by
  intro k rest hk
  have h := hleft _ _ (hright k rest hk)
  rw [List.append_assoc]
  exact h

theorem Prefers.left {left right : Pattern} {a b : Cursor} {marks : List Mark}
    (h : Prefers flags left a b marks) : Prefers flags (.alt left right) a b marks := by
  intro k rest hk
  rw [walk, h k rest hk]
  rfl

theorem Prefers.right {left right : Pattern} {a b : Cursor} {marks : List Mark}
    (hleft : Refuses flags left a) (h : Prefers flags right a b marks) :
    Prefers flags (.alt left right) a b marks := by
  intro k rest hk
  rw [walk, hleft, h k rest hk]
  rfl

theorem Prefers.capture (group : Nat) {body : Pattern} {a b : Cursor} {marks : List Mark}
    (h : Prefers flags body a b marks) :
    Prefers flags (.capture group body) a b (.opened group a :: (marks ++ [.closed group b])) := by
  intro k rest hk
  rw [walk, h _ (rest.mark (.closed group b)) (by rw [hk, Option.map_some])]
  simp [Way.mark]

theorem Prefers.more {body : Pattern} {a b c : Cursor} {marks marks' : List Mark}
    (hround : Prefers flags body a b marks) (hsize : b.size < a.size)
    (hrest : Prefers flags (.star .greedy body) b c marks') :
    Prefers flags (.star .greedy body) a c (marks ++ marks') := by
  intro k rest hk
  have hmore := hround (fun later =>
    if later.size < a.size then (star .greedy body).walk flags k later else none) _
    (by rw [if_pos hsize]; exact hrest k rest hk)
  rw [walk_star, hmore, List.append_assoc]
  rfl

theorem Prefers.done {body : Pattern} {a : Cursor} (h : Refuses flags body a) :
    Prefers flags (.star .greedy body) a a [] := by
  intro k rest hk
  rw [walk_star, h, hk]
  rfl

theorem Prefers.plus {body : Pattern} {a b c : Cursor} {marks marks' : List Mark}
    (hround : Prefers flags body a b marks)
    (hrest : Prefers flags (.star .greedy body) b c marks') :
    Prefers flags (.plus .greedy body) a c (marks ++ marks') := by
  intro k rest hk
  rw [walk_plus, hround _ _ (hrest k rest hk), List.append_assoc]

/-- A greedy run takes the characters that are accepted, up to the first that is not. -/
theorem prefers_run {set : CharSet} {a b : Cursor} (hleads : a.Leads b)
    (haccepts : ∀ c ∈ Span.text ⟨a, b⟩, set.accepts flags c = true)
    (hends : ∀ c next, b.next? = some (c, next) → set.accepts flags c = false) :
    Prefers flags (star .greedy (one set)) a b [] := by
  induction hleads with
  | refl => exact .done (refuses_one hends)
  | step hnext hlater ih =>
    rw [Span.text_of_next? hnext hlater, List.forall_mem_cons] at haccepts
    have hsize := Cursor.size_of_next? hnext
    exact (prefers_one hnext haccepts.1).more (by omega) (ih haccepts.2 hends)

theorem prefers_plus_run {set : CharSet} {a b : Cursor} (hleads : a.Leads b)
    (hne : Span.text ⟨a, b⟩ ≠ []) (haccepts : ∀ c ∈ Span.text ⟨a, b⟩, set.accepts flags c = true)
    (hends : ∀ c next, b.next? = some (c, next) → set.accepts flags c = false) :
    Prefers flags (plus .greedy (one set)) a b [] := by
  cases hleads with
  | refl => simp [Span.text] at hne
  | step hnext hlater =>
    rw [Span.text_of_next? hnext hlater, List.forall_mem_cons] at haccepts
    exact (prefers_one hnext haccepts.1).plus (prefers_run hlater haccepts.2 hends)

theorem Prefers.takes {p : Pattern} {a b : Cursor} {marks : List Mark} (hleads : a.Leads b)
    (h : Prefers flags p a b marks) : Takes flags p a b marks := by
  have hwalk := h (fun later => if later.size = b.size then some ⟨later, []⟩ else none) ⟨b, []⟩
    (if_pos rfl)
  obtain ⟨later, marks', rest, htakes, hk, hway⟩ := takes_of_walk flags p _ _ _ hwalk
  obtain ⟨hsize, hrest⟩ := Option.ite_none_right_eq_some.mp hk
  obtain rfl := htakes.leads.eq_of_size hleads hsize
  obtain rfl := Option.some.inj hrest
  obtain ⟨-, hmarks⟩ := Way.mk.inj hway
  rw [List.append_nil, List.append_nil] at hmarks
  exact hmarks ▸ htakes

/-! ## Words -/

/-- What of a character a pattern compares: its case counts unless the flags say otherwise. -/
def spell (flags : Flags) (c : Char) : Char := if flags.ignoreCase then Text.fold c else c

theorem spell_of_ignoreCase (hflags : flags.ignoreCase = true) : spell flags = Text.fold :=
  funext fun _ => if_pos hflags

theorem accepts_only (c x : Char) :
    (CharSet.only c).accepts flags x = (spell flags x == spell flags c) := by
  cases h : flags.ignoreCase <;> simp [CharSet.accepts, spell, h]

theorem next_of_takes_only {c : Char} {a b : Cursor} {marks : List Mark}
    (h : Takes flags (one (.only c)) a b marks) :
    ∃ x, a.next? = some (x, b) ∧ spell flags x = spell flags c := by
  cases h with
  | one hnext haccepts =>
    rw [accepts_only, beq_iff_eq] at haccepts
    exact ⟨_, hnext, haccepts⟩

theorem spell_eq_of_takes {cs : List Char} {a b : Cursor} {marks : List Mark}
    (h : Takes flags (ofChars cs) a b marks) :
    (Span.text ⟨a, b⟩).map (spell flags) = cs.map (spell flags) := by
  have hempty : Span.text ⟨b, b⟩ = [] := by simp [Span.text]
  fun_induction ofChars cs generalizing a marks with
  | case1 =>
    cases h
    rw [hempty]
  | case2 c =>
    obtain ⟨x, hnext, hspell⟩ := next_of_takes_only h
    rw [Span.text_of_next? hnext (.refl b), hempty, List.map_singleton, hspell]
    rfl
  | case3 c cs _ ih =>
    cases h with
    | seq hleft hright =>
      obtain ⟨x, hnext, hspell⟩ := next_of_takes_only hleft
      rw [Span.text_of_next? hnext hright.leads, List.map_cons, ih hright, hspell, List.map_cons]

theorem prefers_of_spell_eq {cs : List Char} {a b : Cursor} (hleads : a.Leads b)
    (h : (Span.text ⟨a, b⟩).map (spell flags) = cs.map (spell flags)) :
    Prefers flags (ofChars cs) a b [] := by
  have hempty : ∀ {b : Cursor}, Span.text ⟨b, b⟩ = [] := by simp [Span.text]
  induction hleads generalizing cs with
  | refl =>
    rw [hempty, List.map_nil, eq_comm, List.map_eq_nil_iff] at h
    subst h
    exact fun k rest hk => hk
  | @step a next b x hnext hlater ih =>
    rw [Span.text_of_next? hnext hlater, List.map_cons, eq_comm, List.map_eq_cons_iff] at h
    obtain ⟨c, cs, rfl, hspell, hcs⟩ := h
    have hfirst : Prefers flags (one (.only c)) a next [] :=
      prefers_one hnext (by rw [accepts_only, hspell, beq_self_eq_true])
    cases cs with
    | nil =>
      have hend : Span.text ⟨next, b⟩ = [] := by simpa using hcs.symm
      obtain rfl : next = b := Cursor.eq_of_text_eq_nil hlater hend
      exact hfirst
    | cons d cs => exact hfirst.seq (ih hcs.symm)

/-! ### In any case -/

theorem fold_eq_of_takes (hflags : flags.ignoreCase = true) {cs : List Char} {a b : Cursor}
    {marks : List Mark} (h : Takes flags (ofChars cs) a b marks) :
    (Span.text ⟨a, b⟩).map Text.fold = cs.map Text.fold :=
  spell_of_ignoreCase hflags ▸ spell_eq_of_takes h

theorem prefers_ofChars (hflags : flags.ignoreCase = true) {cs : List Char} {a b : Cursor}
    (hleads : a.Leads b) (h : (Span.text ⟨a, b⟩).map Text.fold = cs.map Text.fold) :
    Prefers flags (ofChars cs) a b [] :=
  prefers_of_spell_eq hleads (spell_of_ignoreCase hflags ▸ h)

section Words

variable {words : List (List Char)} {a b : Cursor}

theorem exists_of_takes_oneOf {marks : List Mark}
    (h : Takes flags (oneOf (words.map ofChars)) a b marks) (hne : words ≠ []) :
    ∃ word ∈ words, Takes flags (ofChars word) a b marks := by
  induction words with
  | nil => contradiction
  | cons word words ih =>
    cases words with
    | nil => exact ⟨word, List.mem_cons_self, h⟩
    | cons other words =>
      cases h with
      | left h => exact ⟨word, List.mem_cons_self, h⟩
      | right h =>
        obtain ⟨taken, hmem, htaken⟩ := ih h (List.cons_ne_nil other words)
        exact ⟨taken, List.mem_cons_of_mem word hmem, htaken⟩

theorem prefers_oneOf {word : List Char} (hword : word ∈ words) {marks : List Mark}
    (h : Prefers flags (ofChars word) a b marks)
    (hothers : ∀ other ∈ words, other ≠ word → Refuses flags (ofChars other) a) :
    Prefers flags (oneOf (words.map ofChars)) a b marks := by
  induction words with
  | nil => contradiction
  | cons first rest ih =>
    obtain ⟨hfirst, hrest⟩ := List.forall_mem_cons.mp hothers
    cases rest with
    | nil =>
      obtain rfl := List.mem_singleton.mp hword
      exact h
    | cons second rest =>
      by_cases heq : first = word
      · subst heq
        exact h.left
      · exact .right (hfirst heq) (ih ((List.mem_cons.mp hword).resolve_left (Ne.symm heq)) hrest)

theorem fold_mem_of_takes (hwords : Text.AreApart words) (hflags : flags.ignoreCase = true)
    {marks : List Mark} (h : Takes flags (oneOf (words.map ofChars)) a b marks)
    (hne : words ≠ []) : (Span.text ⟨a, b⟩).map Text.fold ∈ words := by
  obtain ⟨word, hword, htakes⟩ := exists_of_takes_oneOf h hne
  rwa [fold_eq_of_takes hflags htakes, hwords.folded word hword]

theorem prefers_word (hwords : Text.AreApart words) (hflags : flags.ignoreCase = true)
    (hleads : a.Leads b) (h : (Span.text ⟨a, b⟩).map Text.fold ∈ words) :
    Prefers flags (oneOf (words.map ofChars)) a b [] := by
  have hstarts : ∀ {b : Cursor}, a.Leads b →
      (Span.text ⟨a, b⟩).map Text.fold <+: a.rest.map Text.fold := by
    intro b hleads
    rw [← Span.text_append_rest hleads, List.map_append]
    exact List.prefix_append _ _
  refine prefers_oneOf h (prefers_ofChars hflags hleads (hwords.folded _ h).symm) ?_
  refine fun other hother hne => refuses_of_not_takes fun b' marks htakes => hne ?_
  have hfold := fold_eq_of_takes hflags htakes
  rw [hwords.folded other hother] at hfold
  exact hwords.eq_of_prefix hother h (hfold ▸ hstarts htakes.leads) (hstarts hleads)

end Words

end Pattern

end ContractAnalysis
