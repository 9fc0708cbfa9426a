import ContractAnalysis.Pattern.Walk

/-!
# Tabulated repetitions

A walk tries a repetition anew whenever it comes to a place, which takes long in texts with long
runs. How a repetition goes on depends only on the place, so here it is computed once for each
place, from the end of the text on, when it is asked for first, and looked up afterwards.

* `Table`: how a walk goes on from the places of a text
* `Plan`, `Pattern.plan`: a pattern with tables for its repetitions; those within a repetition are
  walked
* `Pattern.follow_plan`: a plan leads the same ways as a walk
-/

namespace ContractAnalysis

/-- The ways from the places of a text on, by how many characters are left. -/
abbrev Table := Array (Option Way)

namespace Table

/-- The way from a place on, if it was computed. -/
def way? (table : Table) (cursor : Cursor) : Option Way := (table[cursor.size]?).join

/-- The table with one more place, from where the way depends on those from later places. -/
def add (step : Continuation → Continuation) (table : Table) (cursor : Cursor) : Table :=
  Array.push table (step table.way? cursor)

/-- The table for places, the last place first. -/
def ofPlaces (step : Continuation → Continuation) (places : List Cursor) : Table :=
  places.foldl (add step) #[]

theorem ofPlaces_backward (step : Continuation → Continuation) (cursor : Cursor) :
    ofPlaces step cursor.backward =
      match cursor.next? with
      | some (_, later) => (ofPlaces step later.backward).add step cursor
      | none => add step #[] cursor := by
  have hfold (c : Cursor) : ofPlaces step c.backward =
      c.forward.foldr (fun place table => add step table place) #[] := by
    rw [ofPlaces, Cursor.backward_eq, List.foldl_reverse]
  cases h : cursor.next? with
  | none => simp [hfold, Cursor.forward_of_next?_eq_none h]
  | some next =>
    obtain ⟨c, later⟩ := next
    simp [hfold, Cursor.forward_of_next? h]

theorem size_ofPlaces (step : Continuation → Continuation) (cursor : Cursor) :
    (ofPlaces step cursor.backward).size = cursor.size + 1 := by
  generalize hn : cursor.size = n
  induction n generalizing cursor with
  | zero =>
    rw [ofPlaces_backward]
    cases h : cursor.next? with
    | none => simp [add]
    | some next => have := Cursor.size_of_next? h; omega
  | succ n ih =>
    rw [ofPlaces_backward]
    cases h : cursor.next? with
    | none => have := Cursor.size_of_next?_eq_none h; omega
    | some next =>
      have := Cursor.size_of_next? h
      simp [add, ih next.2 (by omega)]

theorem way?_add_of_lt (step : Continuation → Continuation) {table : Table}
    {cursor later : Cursor} (h : later.size < table.size) :
    (table.add step cursor).way? later = table.way? later := by
  simp [way?, add, Array.getElem?_push, Nat.ne_of_lt h]

theorem way?_add_self (step : Continuation → Continuation) {table : Table} {cursor : Cursor}
    (h : cursor.size = table.size) :
    (table.add step cursor).way? cursor = step table.way? cursor := by
  simp [way?, add, h]

theorem way?_eq_none {table : Table} {cursor : Cursor} (h : table.size ≤ cursor.size) :
    table.way? cursor = none := by
  simp [way?, h]

theorem way?_ofPlaces {step : Continuation → Continuation} (hstep : LooksAhead step)
    {solution : Continuation}
    (hsol : ∀ cursor, solution cursor =
      step (fun later => if later.size < cursor.size then solution later else none) cursor)
    {cursor later : Cursor} (h : cursor.Leads later) :
    (ofPlaces step cursor.backward).way? later = solution later := by
  generalize hn : cursor.size = n
  induction n generalizing cursor later with
  | zero =>
    rw [ofPlaces_backward]
    cases hnext : cursor.next? with
    | some next => have := Cursor.size_of_next? hnext; omega
    | none =>
      obtain rfl | ⟨_, next, hnext', -⟩ := h.eq_or_next
      · simp only [way?_add_self step (show later.size = Array.size #[] by simpa using hn)]
        rw [hsol]
        exact hstep _ _ _ fun x hx => by
          have := hx.size_le
          simp [way?, show ¬x.size < later.size by omega]
      · rw [hnext] at hnext'
        contradiction
  | succ n ih =>
    rw [ofPlaces_backward]
    cases hnext : cursor.next? with
    | none => have := Cursor.size_of_next?_eq_none hnext; omega
    | some next =>
      obtain ⟨c, place⟩ := next
      have hsize := Cursor.size_of_next? hnext
      have htable := size_ofPlaces step place
      obtain rfl | ⟨_, _, hnext', hl⟩ := h.eq_or_next
      · simp only
        rw [way?_add_self step (by omega), hsol]
        refine hstep _ _ _ fun x hx => ?_
        obtain rfl | ⟨_, _, hnext', hl⟩ := hx.eq_or_next
        · rw [way?_eq_none (by omega), if_neg (Nat.lt_irrefl _)]
        · rw [hnext] at hnext'
          obtain ⟨-, rfl⟩ : _ ∧ _ := by simpa using hnext'
          rw [ih hl (by omega), if_pos (by have := hl.size_le; omega)]
      · rw [hnext] at hnext'
        obtain ⟨-, rfl⟩ : _ ∧ _ := by simpa using hnext'
        simp only
        rw [way?_add_of_lt step (by have := hl.size_le; omega), ih hl (by omega)]

end Table

def Appetite.table (appetite : Appetite) (step : Continuation → Continuation) (k : Continuation)
    (places : List Cursor) : Table :=
  Table.ofPlaces (fun again cursor => appetite.choose (step again cursor) (k cursor)) places

theorem Appetite.way?_table (appetite : Appetite) (flags : Flags) (body : Pattern)
    (k : Continuation) {cursor later : Cursor} (h : cursor.Leads later) :
    (appetite.table (body.walk flags) k cursor.backward).way? later =
      (Pattern.star appetite body).walk flags k later := by
  refine Table.way?_ofPlaces ?_ (Pattern.walk_star flags appetite body k) h
  intro again again' place hagain
  simp only [body.walk_congr flags _ _ place hagain]

/-! ## Plans -/

/-- A pattern with tables in the place of its repetitions. -/
inductive Plan where
  /-- A pattern without repetitions. -/
  | walk (pattern : Pattern)
  /-- A repetition with what follows it. -/
  | look (table : Thunk Table)
  /-- One round of a repetition, and then the repetition with what follows it. -/
  | once (body : Pattern) (table : Thunk Table)
  | seq (left right : Plan)
  | alt (left right : Plan)
  | optional (body : Plan)
  | capture (group : Nat) (body : Plan)

/-- The way that a plan leads. The continuation is the one that the plan was made for. -/
def Plan.follow (flags : Flags) : Plan → Continuation → Continuation
  | .walk p, k, cursor => p.walk flags k cursor
  | .look table, _, cursor => table.get.way? cursor
  | .once body table, _, cursor => body.walk flags (fun later => table.get.way? later) cursor
  | .seq left right, k, cursor => left.follow flags (right.follow flags k) cursor
  | .alt left right, k, cursor => (left.follow flags k cursor).or (right.follow flags k cursor)
  | .optional body, k, cursor => (body.follow flags k cursor).or (k cursor)
  | .capture group body, k, cursor =>
    (body.follow flags (fun later => (k later).map (·.mark (.closed group later))) cursor).map
      (·.mark (.opened group cursor))

/-- One plan after the other. Patterns without repetitions stay together. -/
def Plan.andThen : Plan → Plan → Plan
  | .walk left, .walk right => .walk (left.seq right)
  | left, right => .seq left right

/-- One plan or the other. Patterns without repetitions stay together. -/
def Plan.orElse : Plan → Plan → Plan
  | .walk left, .walk right => .walk (left.alt right)
  | left, right => .alt left right

/-- The plan of a pattern and a continuation for places of a text. -/
def Pattern.plan (flags : Flags) (places : Thunk (List Cursor)) : Pattern → Continuation → Plan
  | .seq left right, k =>
    let after := right.plan flags places k
    (left.plan flags places (after.follow flags k)).andThen after
  | .alt left right, k => (left.plan flags places k).orElse (right.plan flags places k)
  | .optional body, k => .optional (body.plan flags places k)
  | .star appetite body, k => .look ⟨fun _ => appetite.table (body.walk flags) k places.get⟩
  | .plus appetite body, k => .once body ⟨fun _ => appetite.table (body.walk flags) k places.get⟩
  | .capture group body, k =>
    .capture group
      (body.plan flags places fun later => (k later).map (·.mark (.closed group later)))
  | p, _ => .walk p

theorem Plan.follow_andThen (flags : Flags) (left right : Plan) (k : Continuation)
    (cursor : Cursor) :
    (left.andThen right).follow flags k cursor =
      left.follow flags (right.follow flags k) cursor := by
  cases left <;> cases right <;> rfl

theorem Plan.follow_orElse (flags : Flags) (left right : Plan) (k : Continuation)
    (cursor : Cursor) :
    (left.orElse right).follow flags k cursor =
      (left.follow flags k cursor).or (right.follow flags k cursor) := by
  cases left <;> cases right <;> rfl

theorem Pattern.walk_eq_walk (flags : Flags) (p : Pattern) {k k' : Continuation}
    {cursor later : Cursor} (hk : ∀ place, cursor.Leads place → k place = k' place)
    (h : cursor.Leads later) : p.walk flags k later = p.walk flags k' later :=
  p.walk_congr flags _ _ later fun place hplace => hk place (h.trans hplace)

/-- At the places of the text, a plan for a continuation leads the same ways as a walk with a
continuation that agrees with it there. -/
theorem Pattern.follow_plan (flags : Flags) (p : Pattern) {k j : Continuation} {cursor : Cursor}
    (hk : ∀ place, cursor.Leads place → k place = j place) :
    ∀ later, cursor.Leads later →
      (p.plan flags ⟨fun _ => cursor.backward⟩ k).follow flags k later = p.walk flags j later := by
  induction p generalizing k j with
  | nothing | one | wordBoundary | start | finish =>
    exact fun later h => Pattern.walk_eq_walk flags _ hk h
  | seq left right hl hr =>
    intro later h
    simp only [Pattern.plan, Plan.follow_andThen, Pattern.walk]
    exact hl (hr hk) later h
  | alt left right hl hr =>
    intro later h
    simp only [Pattern.plan, Plan.follow_orElse, Pattern.walk, hl hk later h, hr hk later h]
  | optional body hb =>
    intro later h
    simp only [Pattern.plan, Plan.follow, Pattern.walk, hb hk later h, hk later h]
  | star appetite body =>
    intro later h
    simp only [Pattern.plan, Plan.follow, Thunk.get, appetite.way?_table flags body _ h]
    exact Pattern.walk_eq_walk flags _ hk h
  | plus appetite body =>
    intro later h
    simp only [Pattern.plan, Plan.follow, Thunk.get, Pattern.walk_plus]
    refine Pattern.walk_eq_walk flags _ (fun place hplace => ?_) h
    rw [appetite.way?_table flags body _ hplace]
    exact Pattern.walk_eq_walk flags _ hk hplace
  | capture group body hb =>
    intro later h
    simp only [Pattern.plan, Plan.follow, Pattern.walk]
    rw [hb (j := fun place => (j place).map (·.mark (.closed group place)))
      (fun place hplace => by simp only [hk place hplace]) later h]

end ContractAnalysis
