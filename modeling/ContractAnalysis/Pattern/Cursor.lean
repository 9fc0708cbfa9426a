import ContractAnalysis.Pattern.Basic

/-!
# Places in a text

A cursor stands between two characters of a text and knows the character before it.

* `Cursor`, `Span`: a place in a text, and the part between two places
* `Cursor.next?`: the next character and the place after it
* `Cursor.Leads`: the places at a cursor and after it; they differ in what is left of the text
* `Cursor.forward`, `Cursor.backward`: these places from the first to the last, and the other way
-/

namespace ContractAnalysis

/-- A place between two characters of a text. -/
structure Cursor where
  /-- The character before the place. -/
  before : Option Char
  /-- The text after the place. -/
  rest : List Char
  /-- The number of characters after the place. -/
  size : Nat
  size_eq : size = rest.length

namespace Cursor

def ofChars (text : List Char) : Cursor := ⟨none, text, text.length, rfl⟩

/-- The next character and the place after it. -/
@[inline]
def next? : Cursor → Option (Char × Cursor)
  | ⟨_, [], _, _⟩ => none
  | ⟨_, c :: cs, n, h⟩ => some (c, ⟨some c, cs, n - 1, by simp at h; omega⟩)

def isWordAt : Option Char → Bool
  | none => false
  | some c => Text.isWord c

def atWordBoundary (cursor : Cursor) : Bool :=
  isWordAt cursor.before != isWordAt cursor.rest.head?

/-- Whether the text, or a line of it where lines count, starts here. -/
def atStart (flags : Flags) (cursor : Cursor) : Bool :=
  cursor.before.isNone || (flags.multiLine && cursor.before == some '\n')

/-- Whether the text, or a line of it where lines count, ends here. -/
def atFinish (flags : Flags) (cursor : Cursor) : Bool :=
  cursor.rest.isEmpty || (flags.multiLine && cursor.rest.head? == some '\n')

theorem size_of_next? {cursor later : Cursor} {c : Char} (h : cursor.next? = some (c, later)) :
    cursor.size = later.size + 1 := by
  obtain ⟨before, rest, size, size_eq⟩ := cursor
  cases rest with
  | nil => simp [next?] at h
  | cons x xs =>
    simp only [next?, Option.some.injEq, Prod.mk.injEq] at h
    obtain ⟨-, rfl⟩ := h
    simp at size_eq ⊢
    omega

theorem size_of_next?_eq_none {cursor : Cursor} (h : cursor.next? = none) : cursor.size = 0 := by
  obtain ⟨before, rest, size, size_eq⟩ := cursor
  cases rest with
  | nil => simpa using size_eq
  | cons x xs => simp [next?] at h

/-! ## Later places -/

/-- A place at a cursor or after it. -/
inductive Leads : Cursor → Cursor → Prop
  | refl (cursor : Cursor) : Leads cursor cursor
  | step {cursor next later : Cursor} {c : Char} :
    cursor.next? = some (c, next) → Leads next later → Leads cursor later

namespace Leads

theorem trans {a b c : Cursor} (hab : Leads a b) (hbc : Leads b c) : Leads a c := by
  induction hab with
  | refl => exact hbc
  | step h _ ih => exact .step h (ih hbc)

theorem size_le {a b : Cursor} (h : Leads a b) : b.size ≤ a.size := by
  induction h with
  | refl => exact Nat.le_refl _
  | step h _ ih => have := size_of_next? h; omega

theorem eq_or_next {a b : Cursor} (h : Leads a b) :
    b = a ∨ ∃ c next, a.next? = some (c, next) ∧ Leads next b := by
  cases h with
  | refl => exact .inl rfl
  | step h hb => exact .inr ⟨_, _, h, hb⟩

theorem eq_of_size {a b c : Cursor} (hb : Leads a b) (hc : Leads a c) (h : b.size = c.size) :
    b = c := by
  induction hb with
  | refl =>
    obtain rfl | ⟨_, next, hn, hnc⟩ := hc.eq_or_next
    · rfl
    · have := size_of_next? hn; have := hnc.size_le; omega
  | step hn hnb ih =>
    obtain rfl | ⟨_, next, hn', hnc⟩ := hc.eq_or_next
    · have := size_of_next? hn; have := hnb.size_le; omega
    · rw [hn] at hn'
      obtain ⟨rfl, rfl⟩ : _ ∧ _ := by simpa using hn'
      exact ih hnc h

end Leads

/-- The first places from a cursor on: the cursor and at most `fuel` more. -/
def forwardWithin : Nat → Cursor → List Cursor
  | 0, cursor => [cursor]
  | fuel + 1, cursor =>
    match cursor.next? with
    | some (_, later) => cursor :: forwardWithin fuel later
    | none => [cursor]

/-- The places from a cursor on, the cursor first. -/
def forward (cursor : Cursor) : List Cursor := forwardWithin cursor.size cursor

/-- The first places from a cursor on, the last of them first, in front of others. -/
def backwardWithin (done : List Cursor) : Nat → Cursor → List Cursor
  | 0, cursor => cursor :: done
  | fuel + 1, cursor =>
    match cursor.next? with
    | some (_, later) => backwardWithin (cursor :: done) fuel later
    | none => cursor :: done

/-- The places from a cursor on, the end of the text first. -/
def backward (cursor : Cursor) : List Cursor := backwardWithin [] cursor.size cursor

theorem backwardWithin_eq (done : List Cursor) (fuel : Nat) (cursor : Cursor) :
    backwardWithin done fuel cursor = (forwardWithin fuel cursor).reverse ++ done := by
  induction fuel generalizing done cursor with
  | zero => rfl
  | succ fuel ih =>
    simp only [backwardWithin, forwardWithin]
    cases cursor.next? with
    | none => rfl
    | some next => simp [ih]

theorem backward_eq (cursor : Cursor) : cursor.backward = cursor.forward.reverse := by
  simp [backward, forward, backwardWithin_eq]

theorem forward_of_next? {cursor later : Cursor} {c : Char}
    (h : cursor.next? = some (c, later)) : cursor.forward = cursor :: later.forward := by
  simp [forward, size_of_next? h, forwardWithin, h]

theorem forward_of_next?_eq_none {cursor : Cursor} (h : cursor.next? = none) :
    cursor.forward = [cursor] := by
  simp [forward, size_of_next?_eq_none h, forwardWithin]

end Cursor

/-- A part of a text, between a place and a later one. -/
structure Span where
  start : Cursor
  stop : Cursor

namespace Span

def text (span : Span) : List Char := span.start.rest.take (span.start.size - span.stop.size)

def isEmpty (span : Span) : Bool := span.start.size ≤ span.stop.size

end Span

end ContractAnalysis
