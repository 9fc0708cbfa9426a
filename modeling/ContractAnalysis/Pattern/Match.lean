import ContractAnalysis.Pattern.Table

/-!
# Matching

A match of an expression is the part of a text between a place and the end of a walk through the
pattern from there. Matches are looked for from left to right.

* `Match`: a phrase that an expression matches, and what its captures recorded
* `Expression.matchAt`: the match that starts at a place
* `Expression.find?`, `Expression.findAll`: the leftmost match, and all matches that do not overlap
* `Expression.find?_eq`, `Expression.findAll_eq`: what is found are matches of `matchAt`
-/

namespace ContractAnalysis

/-- A phrase that an expression matches. -/
structure Match extends Span where
  /-- The marks of the captures, from left to right. -/
  marks : List Mark

namespace Match

/-- The match from a place to the end of a way. -/
def ofWay (start : Cursor) (way : Way) : Match :=
  { start, stop := way.stop, marks := way.marks }

def opened? (m : Match) (group : Nat) : Option Cursor :=
  m.marks.reverse.findSome? fun
    | .opened g place => if g = group then some place else none
    | .closed _ _ => none

def closed? (m : Match) (group : Nat) : Option Cursor :=
  m.marks.reverse.findSome? fun
    | .closed g place => if g = group then some place else none
    | .opened _ _ => none

/-- What a capture recorded, if it took part in the match. -/
def group? (m : Match) (group : Nat) : Option (List Char) := do
  let start ← m.opened? group
  let stop ← m.closed? group
  some (Span.text ⟨start, stop⟩)

/-- The first match that starts at one of the next `fuel` places or at the one after them. -/
def firstWithin (matchAt : Cursor → Option Match) : Nat → Cursor → Option Match
  | 0, cursor => matchAt cursor
  | fuel + 1, cursor =>
    match matchAt cursor with
    | some m => some m
    | none =>
      match cursor.next? with
      | some (_, later) => firstWithin matchAt fuel later
      | none => none

/-- The first match that starts at a place or after it. -/
def firstFrom (matchAt : Cursor → Option Match) (cursor : Cursor) : Option Match :=
  firstWithin matchAt cursor.size cursor

/-- At most `fuel` matches from a place on, each starting where the one before it stopped. After an
empty match the search goes on behind the next character. -/
def allWithin (matchAt : Cursor → Option Match) : Nat → Cursor → List Match
  | 0, _ => []
  | fuel + 1, cursor =>
    match firstFrom matchAt cursor with
    | none => []
    | some m =>
      if m.isEmpty then
        match m.stop.next? with
        | some (_, later) => m :: allWithin matchAt fuel later
        | none => [m]
      else m :: allWithin matchAt fuel m.stop

/-- All matches from a place on that do not overlap. -/
def allFrom (matchAt : Cursor → Option Match) (cursor : Cursor) : List Match :=
  allWithin matchAt (cursor.size + 1) cursor

theorem firstWithin_congr {matchAt matchAt' : Cursor → Option Match} (fuel : Nat)
    {cursor : Cursor} (h : ∀ later, cursor.Leads later → matchAt later = matchAt' later) :
    firstWithin matchAt fuel cursor = firstWithin matchAt' fuel cursor := by
  induction fuel generalizing cursor with
  | zero => exact h cursor (.refl cursor)
  | succ fuel ih =>
    simp only [firstWithin, h cursor (.refl cursor)]
    cases hn : cursor.next? with
    | none => rfl
    | some next => simp only [ih fun later hl => h later (.step hn hl)]

theorem firstFrom_congr {matchAt matchAt' : Cursor → Option Match} {cursor : Cursor}
    (h : ∀ later, cursor.Leads later → matchAt later = matchAt' later) :
    firstFrom matchAt cursor = firstFrom matchAt' cursor :=
  firstWithin_congr _ h

theorem exists_of_firstFrom {matchAt : Cursor → Option Match} {cursor : Cursor} {m : Match}
    (h : firstFrom matchAt cursor = some m) :
    ∃ later, cursor.Leads later ∧ matchAt later = some m := by
  suffices hwithin : ∀ fuel (cursor : Cursor), firstWithin matchAt fuel cursor = some m →
      ∃ later, cursor.Leads later ∧ matchAt later = some m from hwithin _ _ h
  intro fuel
  induction fuel with
  | zero => exact fun cursor h => ⟨cursor, .refl cursor, h⟩
  | succ fuel ih =>
    intro cursor h
    simp only [firstWithin] at h
    split at h
    · next hm => exact ⟨cursor, .refl cursor, hm.trans h⟩
    · cases hn : cursor.next? with
      | none => simp [hn] at h
      | some next =>
        simp only [hn] at h
        obtain ⟨later, hl, hm⟩ := ih next.2 h
        exact ⟨later, .step hn hl, hm⟩

theorem allFrom_congr {matchAt matchAt' : Cursor → Option Match} {cursor : Cursor}
    (h : ∀ later, cursor.Leads later → matchAt later = matchAt' later)
    (hstop : ∀ later m, matchAt later = some m → later.Leads m.stop) :
    allFrom matchAt cursor = allFrom matchAt' cursor := by
  suffices hwithin : ∀ fuel (place : Cursor), cursor.Leads place →
      allWithin matchAt fuel place = allWithin matchAt' fuel place from
    hwithin _ _ (.refl cursor)
  intro fuel
  induction fuel with
  | zero => exact fun _ _ => rfl
  | succ fuel ih =>
    intro place hplace
    simp only [allWithin, ← firstFrom_congr fun later hl => h later (hplace.trans hl)]
    cases hfirst : firstFrom matchAt place with
    | none => rfl
    | some m =>
      obtain ⟨start, hstart, hm⟩ := exists_of_firstFrom hfirst
      have hlast := hplace.trans (hstart.trans (hstop start m hm))
      simp only [ih m.stop hlast]
      split
      · cases hn : m.stop.next? with
        | none => rfl
        | some next => simp only [ih next.2 (hlast.trans (.step hn (.refl _)))]
      · rfl

end Match

/-- The way that ends where it starts: what follows a whole pattern. -/
def Way.ending (stop : Cursor) : Option Way := some { stop }

namespace Expression

def matchAt (e : Expression) (cursor : Cursor) : Option Match :=
  (e.pattern.walk e.flags Way.ending cursor).map (.ofWay cursor)

def plan (e : Expression) (cursor : Cursor) : Plan :=
  e.pattern.plan e.flags ⟨fun _ => cursor.backward⟩ Way.ending

/-- The match that starts at a place, by the plan for a text around it. -/
def matchBy (e : Expression) (plan : Plan) (cursor : Cursor) : Option Match :=
  (plan.follow e.flags Way.ending cursor).map (.ofWay cursor)

def find? (e : Expression) (text : List Char) : Option Match :=
  let start := Cursor.ofChars text
  let plan := e.plan start
  Match.firstFrom (e.matchBy plan) start

def isMatch (e : Expression) (text : List Char) : Bool := (e.find? text).isSome

/-- All matches that do not overlap, from left to right. -/
def findAll (e : Expression) (text : List Char) : List Match :=
  let start := Cursor.ofChars text
  let plan := e.plan start
  Match.allFrom (e.matchBy plan) start

/-- What is left of the text after a cursor when matches are taken out of it. -/
def without (cursor : Cursor) : List Match → List Char
  | [] => cursor.rest
  | m :: ms => Span.text ⟨cursor, m.start⟩ ++ without m.stop ms

/-- The text without the matches. -/
def removeAll (e : Expression) (text : List Char) : List Char :=
  without (Cursor.ofChars text) (e.findAll text)

theorem matchBy_plan (e : Expression) {cursor later : Cursor} (h : cursor.Leads later) :
    e.matchBy (e.plan cursor) later = e.matchAt later := by
  simp only [matchBy, plan, matchAt, e.pattern.follow_plan e.flags (fun _ _ => rfl) later h]

/-- What is found is the first of the matches at single places. -/
theorem find?_eq (e : Expression) (text : List Char) :
    e.find? text = Match.firstFrom e.matchAt (Cursor.ofChars text) :=
  Match.firstFrom_congr fun _ h => e.matchBy_plan h

theorem leads_of_matchAt {e : Expression} {cursor : Cursor} {m : Match}
    (h : e.matchAt cursor = some m) : cursor.Leads m.stop := by
  obtain ⟨way, hway, rfl⟩ := Option.map_eq_some_iff.1 h
  obtain ⟨later, way', hlater, hk, heq⟩ := e.pattern.exists_of_walk e.flags _ _ _ hway
  obtain rfl : { stop := later } = way' := by simpa [Way.ending] using hk
  simpa [Match.ofWay, heq] using hlater

/-- What is found are the matches at single places, from left to right. -/
theorem findAll_eq (e : Expression) (text : List Char) :
    e.findAll text = Match.allFrom e.matchAt (Cursor.ofChars text) :=
  (Match.allFrom_congr (fun _ h => (e.matchBy_plan h).symm) fun _ _ => leads_of_matchAt).symm

end Expression

end ContractAnalysis
