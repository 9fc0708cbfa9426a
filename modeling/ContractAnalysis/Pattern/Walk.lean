import ContractAnalysis.Pattern.Cursor

/-!
# Ways through a pattern

A pattern is walked from a cursor with a continuation that says how the walk goes on from a place
after it. Ways through the pattern are tried in the order it prescribes, and the first that the
continuation can go on from is taken.

* `Way`: where a walk ends, and the marks that captures leave on it
* `Pattern.walk`: the way that a walk through a pattern takes
* `Pattern.walk_star`: a repetition is a round and the same repetition again, or nothing
* `Pattern.walk_congr`: only what the continuation says of later places counts
* `Pattern.exists_of_walk`: a walk ends where the continuation ends from some later place
-/

namespace ContractAnalysis

/-- What a capture leaves on a way. -/
inductive Mark where
  | opened (group : Nat) (place : Cursor)
  | closed (group : Nat) (place : Cursor)

/-- Where a walk ends, and the marks on its way from the start to the end. -/
structure Way where
  stop : Cursor
  marks : List Mark := []

def Way.mark (way : Way) (mark : Mark) : Way :=
  { way with marks := mark :: way.marks }

/-- How a walk goes on from a place, if it can. -/
abbrev Continuation := Cursor → Option Way

/-- One more round of a repetition, or its end: what the appetite asks for first. -/
@[macro_inline]
def Appetite.choose (appetite : Appetite) (more stop : Option Way) : Option Way :=
  match appetite with
  | .greedy => more.or stop
  | .lazy => stop.or more

/-- Repeat a step, at most `fuel` times after the first round, as the appetite asks. A round that
moves nowhere is not taken, so the number of characters left is fuel enough. -/
def Appetite.repeat (appetite : Appetite) (step : Continuation → Continuation) (k : Continuation) :
    Nat → Continuation
  | 0, cursor => appetite.choose (step (fun _ => none) cursor) (k cursor)
  | fuel + 1, cursor =>
    let again : Continuation := fun later =>
      if later.size < cursor.size then appetite.repeat step k fuel later else none
    appetite.choose (step again cursor) (k cursor)

/-- The first way through a pattern that the continuation can go on from, together with how it goes
on. -/
def Pattern.walk (flags : Flags) : Pattern → Continuation → Continuation
  | .nothing, k, cursor => k cursor
  | .one set, k, cursor =>
    match cursor.next? with
    | some (c, later) => if set.accepts flags c then k later else none
    | none => none
  | .wordBoundary, k, cursor => if cursor.atWordBoundary then k cursor else none
  | .start, k, cursor => if cursor.atStart flags then k cursor else none
  | .finish, k, cursor => if cursor.atFinish flags then k cursor else none
  | .seq left right, k, cursor => left.walk flags (right.walk flags k) cursor
  | .alt left right, k, cursor => (left.walk flags k cursor).or (right.walk flags k cursor)
  | .optional body, k, cursor => (body.walk flags k cursor).or (k cursor)
  | .star appetite body, k, cursor => appetite.repeat (body.walk flags) k cursor.size cursor
  | .plus appetite body, k, cursor =>
    body.walk flags (fun later => appetite.repeat (body.walk flags) k later.size later) cursor
  | .capture group body, k, cursor =>
    (body.walk flags (fun later => (k later).map (·.mark (.closed group later))) cursor).map
      (·.mark (.opened group cursor))

/-! ## What a walk depends on -/

/-- A step that looks only at what its continuation says of the places after a cursor. -/
def LooksAhead (step : Continuation → Continuation) : Prop :=
  ∀ (k k' : Continuation) (cursor : Cursor),
    (∀ later, cursor.Leads later → k later = k' later) → step k cursor = step k' cursor

theorem Appetite.repeat_congr (appetite : Appetite) {step : Continuation → Continuation}
    (hstep : LooksAhead step) {k k' : Continuation} (fuel : Nat) (cursor : Cursor)
    (h : ∀ later, cursor.Leads later → k later = k' later) :
    appetite.repeat step k fuel cursor = appetite.repeat step k' fuel cursor := by
  induction fuel generalizing cursor with
  | zero => simp only [Appetite.repeat, h cursor (.refl cursor)]
  | succ fuel ih =>
    simp only [Appetite.repeat, h cursor (.refl cursor)]
    rw [hstep _ _ cursor]
    intro later hl
    rw [ih later fun x hx => h x (hl.trans hx)]

/-- Only what the continuation says of places after the cursor counts. -/
theorem Pattern.walk_congr (flags : Flags) (p : Pattern) : LooksAhead (p.walk flags) := by
  induction p with
  | nothing => exact fun k k' cursor h => h cursor (.refl cursor)
  | one set =>
    intro k k' cursor h
    simp only [Pattern.walk]
    cases hn : cursor.next? with
    | none => rfl
    | some next => simp only [h next.2 (.step hn (.refl _))]
  | wordBoundary | start | finish =>
    intro k k' cursor h
    simp only [Pattern.walk, h cursor (.refl cursor)]
  | seq left right hl hr =>
    exact fun k k' cursor h => hl _ _ cursor fun later hlater =>
      hr k k' later fun x hx => h x (hlater.trans hx)
  | alt left right hl hr =>
    intro k k' cursor h
    simp only [Pattern.walk, hl k k' cursor h, hr k k' cursor h]
  | optional body hb =>
    intro k k' cursor h
    simp only [Pattern.walk, hb k k' cursor h, h cursor (.refl cursor)]
  | star appetite body hb =>
    exact fun k k' cursor h => appetite.repeat_congr hb _ cursor h
  | plus appetite body hb =>
    exact fun k k' cursor h => hb _ _ cursor fun later hlater =>
      appetite.repeat_congr hb _ later fun x hx => h x (hlater.trans hx)
  | capture group body hb =>
    intro k k' cursor h
    simp only [Pattern.walk]
    rw [hb _ _ cursor fun later hlater => by rw [h later hlater]]

/-! ## Repetitions -/

theorem Appetite.repeat_fuel (appetite : Appetite) (step : Continuation → Continuation)
    (k : Continuation) {fuel fuel' : Nat} {cursor : Cursor} (h : cursor.size ≤ fuel)
    (h' : cursor.size ≤ fuel') :
    appetite.repeat step k fuel cursor = appetite.repeat step k fuel' cursor := by
  induction fuel generalizing fuel' cursor with
  | zero =>
    cases fuel' with
    | zero => rfl
    | succ fuel' =>
      have : cursor.size = 0 := by omega
      simp [Appetite.repeat, this]
  | succ fuel ih =>
    cases fuel' with
    | zero =>
      have : cursor.size = 0 := by omega
      simp [Appetite.repeat, this]
    | succ fuel' =>
      have heq : (fun later : Cursor =>
            if later.size < cursor.size then appetite.repeat step k fuel later else none) =
          fun later =>
            if later.size < cursor.size then appetite.repeat step k fuel' later else none := by
        funext later
        split
        · exact ih (by omega) (by omega)
        · rfl
      simp only [Appetite.repeat, heq]

theorem Pattern.walk_star (flags : Flags) (appetite : Appetite) (body : Pattern)
    (k : Continuation) (cursor : Cursor) :
    (star appetite body).walk flags k cursor =
      appetite.choose
        (body.walk flags (fun later =>
          if later.size < cursor.size then (star appetite body).walk flags k later else none)
          cursor)
        (k cursor) := by
  simp only [Pattern.walk]
  cases h : cursor.size with
  | zero => simp [Appetite.repeat]
  | succ n =>
    simp only [Appetite.repeat, h]
    have heq : (fun later : Cursor =>
          if later.size < n + 1 then appetite.repeat (body.walk flags) k n later else none) =
        fun later =>
          if later.size < n + 1 then appetite.repeat (body.walk flags) k later.size later
          else none := by
      funext later
      split
      · exact appetite.repeat_fuel _ k (by omega) (Nat.le_refl _)
      · rfl
    rw [heq]

theorem Pattern.walk_plus (flags : Flags) (appetite : Appetite) (body : Pattern)
    (k : Continuation) (cursor : Cursor) :
    (plus appetite body).walk flags k cursor =
      body.walk flags ((star appetite body).walk flags k) cursor := rfl

/-! ## Where a walk ends -/

/-- A step whose ways all go on from a place after the cursor, as the continuation does. -/
def GoesOn (step : Continuation → Continuation) : Prop :=
  ∀ (k : Continuation) (cursor : Cursor) (way : Way), step k cursor = some way →
    ∃ later way', cursor.Leads later ∧ k later = some way' ∧ way.stop = way'.stop

theorem Appetite.exists_of_repeat (appetite : Appetite) {step : Continuation → Continuation}
    (hstep : GoesOn step) (k : Continuation) (fuel : Nat) (cursor : Cursor) (way : Way)
    (h : appetite.repeat step k fuel cursor = some way) :
    ∃ later way', cursor.Leads later ∧ k later = some way' ∧ way.stop = way'.stop := by
  have hchoose {way : Way} {more stop : Option Way} (h : appetite.choose more stop = some way) :
      more = some way ∨ stop = some way := by
    cases appetite <;> simp only [Appetite.choose, Option.or_eq_some_iff] at h <;> grind
  induction fuel generalizing cursor way with
  | zero =>
    obtain hmore | hstop := hchoose h
    · obtain ⟨later, way', -, hnone, -⟩ := hstep _ _ _ hmore
      contradiction
    · exact ⟨cursor, way, .refl cursor, hstop, rfl⟩
  | succ fuel ih =>
    obtain hmore | hstop := hchoose h
    · obtain ⟨later, way', hl, hagain, heq⟩ := hstep _ _ _ hmore
      obtain ⟨-, hrepeat⟩ := Option.ite_none_right_eq_some.1 hagain
      obtain ⟨last, way'', hlast, hk, heq'⟩ := ih later way' hrepeat
      exact ⟨last, way'', hl.trans hlast, hk, heq.trans heq'⟩
    · exact ⟨cursor, way, .refl cursor, hstop, rfl⟩

theorem Pattern.exists_of_walk (flags : Flags) (p : Pattern) : GoesOn (p.walk flags) := by
  induction p with
  | nothing => exact fun k cursor way h => ⟨cursor, way, .refl cursor, h, rfl⟩
  | one set =>
    intro k cursor way h
    simp only [Pattern.walk] at h
    cases hn : cursor.next? with
    | none => simp [hn] at h
    | some next =>
      simp only [hn, Option.ite_none_right_eq_some] at h
      exact ⟨next.2, way, .step hn (.refl _), h.2, rfl⟩
  | wordBoundary | start | finish =>
    intro k cursor way h
    simp only [Pattern.walk, Option.ite_none_right_eq_some] at h
    exact ⟨cursor, way, .refl cursor, h.2, rfl⟩
  | seq left right hl hr =>
    intro k cursor way h
    obtain ⟨later, way', hlater, hk, heq⟩ := hl _ _ _ h
    obtain ⟨last, way'', hlast, hk', heq'⟩ := hr _ _ _ hk
    exact ⟨last, way'', hlater.trans hlast, hk', heq.trans heq'⟩
  | alt left right hl hr =>
    intro k cursor way h
    obtain h | ⟨-, h⟩ := Option.or_eq_some_iff.1 h
    · exact hl _ _ _ h
    · exact hr _ _ _ h
  | optional body hb =>
    intro k cursor way h
    obtain h | ⟨-, h⟩ := Option.or_eq_some_iff.1 h
    · exact hb _ _ _ h
    · exact ⟨cursor, way, .refl cursor, h, rfl⟩
  | star appetite body hb => exact fun k cursor => appetite.exists_of_repeat hb k _ cursor
  | plus appetite body hb =>
    intro k cursor way h
    obtain ⟨later, way', hlater, hk, heq⟩ := hb _ _ _ h
    obtain ⟨last, way'', hlast, hk', heq'⟩ := appetite.exists_of_repeat hb k _ later way' hk
    exact ⟨last, way'', hlater.trans hlast, hk', heq.trans heq'⟩
  | capture group body hb =>
    intro k cursor way h
    obtain ⟨inner, hinner, rfl⟩ := Option.map_eq_some_iff.1 h
    obtain ⟨later, way', hlater, hk, heq⟩ := hb _ _ _ hinner
    obtain ⟨outer, houter, rfl⟩ := Option.map_eq_some_iff.1 hk
    exact ⟨later, outer, hlater, houter, heq⟩

end ContractAnalysis
