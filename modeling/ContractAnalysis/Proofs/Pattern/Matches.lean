import ContractAnalysis.Proofs.Pattern.Walks

/-!
# Matches of a text

An expression matches a text exactly when its pattern takes a part of it (`Expression.isMatch_iff`).
Where no match starts inside another (`Match.Apart`), the matches that are found are those at all the
places of the text (`Match.Apart.allFrom_eq`), and what is left without them is known place by place
(`Expression.without_of_none`, `Expression.without_of_some`).
-/

namespace ContractAnalysis

namespace Match

variable {matchAt : Cursor → Option Match} {cursor : Cursor}

theorem firstFrom_eq_findSome? : firstFrom matchAt cursor = cursor.forward.findSome? matchAt := by
  rw [firstFrom, Cursor.forward]
  induction cursor.size generalizing cursor with
  | zero => cases hm : matchAt cursor <;> simp [firstWithin, Cursor.forwardWithin, hm]
  | succ n ih =>
    simp only [firstWithin, Cursor.forwardWithin]
    cases hm : matchAt cursor <;> cases hnext : cursor.next? <;> simp [hm, ih]

theorem allWithin_of_none {next : Cursor} {c : Char} (hnext : cursor.next? = some (c, next))
    (h : matchAt cursor = none) (fuel : Nat) :
    allWithin matchAt fuel cursor = allWithin matchAt fuel next := by
  have hfirst : firstFrom matchAt cursor = firstFrom matchAt next := by
    rw [firstFrom_eq_findSome?, firstFrom_eq_findSome?, Cursor.forward_of_next? hnext,
      List.findSome?_cons, h]
  cases fuel with
  | zero => rfl
  | succ fuel => rw [allWithin, allWithin, hfirst]

theorem allWithin_of_some {m : Match} (h : matchAt cursor = some m) (hempty : m.isEmpty = false)
    (fuel : Nat) : allWithin matchAt (fuel + 1) cursor = m :: allWithin matchAt fuel m.stop := by
  have hfirst : firstFrom matchAt cursor = some m := by
    rw [firstFrom_eq_findSome?]
    cases hnext : cursor.next? with
    | none => rw [Cursor.forward_of_next?_eq_none hnext, List.findSome?_cons, h]
    | some next => rw [Cursor.forward_of_next? hnext, List.findSome?_cons, h]
  rw [allWithin, hfirst]
  exact if_neg (by simp [hempty])

/-- Every match moves on, and no match starts inside another. -/
structure Apart (matchAt : Cursor → Option Match) : Prop where
  starts : ∀ {place m}, matchAt place = some m → m.start = place
  moves : ∀ {place m}, matchAt place = some m → place.Leads m.stop ∧ m.stop.size < place.size
  inside : ∀ {place m later}, matchAt place = some m → place.Leads later →
    later.size < place.size → m.stop.size < later.size → matchAt later = none

theorem Apart.filterMap_forward (h : Apart matchAt) {m : Match} (hm : matchAt cursor = some m) :
    cursor.forward.filterMap matchAt = m :: m.stop.forward.filterMap matchAt := by
  obtain ⟨hstop, hshrinks⟩ := h.moves hm
  cases hnext : cursor.next? with
  | none =>
    have := Cursor.size_of_next?_eq_none hnext
    omega
  | some next =>
    obtain ⟨c, next⟩ := next
    obtain ⟨between, hbetween, hplaces⟩ := Cursor.forward_of_leads (hstop.of_next? hshrinks hnext)
    have hpassed : between.filterMap matchAt = [] := by
      refine List.filterMap_eq_nil_iff.mpr fun place hplace => ?_
      obtain ⟨hleads, hinside⟩ := hplaces place hplace
      have := hleads.size_le
      have := Cursor.size_of_next? hnext
      exact h.inside hm (.step hnext hleads) (by omega) hinside
    rw [Cursor.forward_of_next? hnext, List.filterMap_cons_some hm, hbetween,
      List.filterMap_append, hpassed, List.nil_append]

/-- Matches that do not start inside each other are all found. -/
theorem Apart.allFrom_eq (h : Apart matchAt) :
    allFrom matchAt cursor = cursor.forward.filterMap matchAt := by
  suffices hwithin : ∀ fuel (cursor : Cursor), cursor.size < fuel →
      allWithin matchAt fuel cursor = cursor.forward.filterMap matchAt from
    hwithin _ cursor (Nat.lt_succ_self _)
  intro fuel
  induction fuel with
  | zero => exact fun cursor h => absurd h (Nat.not_lt_zero _)
  | succ fuel ih =>
    -- None of the places that are passed over has a match, so only matches use up fuel.
    intro cursor hfuel
    induction hsize : cursor.size generalizing cursor with
    | zero =>
      have hnone : matchAt cursor = none := by
        refine Option.eq_none_iff_forall_ne_some.mpr fun m hm => ?_
        have := (h.moves hm).2
        omega
      have hforward : cursor.forward = [cursor] := by
        rw [Cursor.forward, hsize]
        rfl
      rw [allWithin, firstFrom_eq_findSome?, hforward, List.findSome?_singleton, hnone,
        List.filterMap_cons_none hnone]
      rfl
    | succ n ihsize =>
      cases hnext : cursor.next? with
      | none => simp [Cursor.size_of_next?_eq_none hnext] at hsize
      | some next =>
        obtain ⟨c, next⟩ := next
        have hless := Cursor.size_of_next? hnext
        cases hm : matchAt cursor with
        | none =>
          rw [allWithin_of_none hnext hm, Cursor.forward_of_next? hnext,
            List.filterMap_cons_none hm]
          exact ihsize next (by omega) (by omega)
        | some m =>
          obtain ⟨-, hshrinks⟩ := h.moves hm
          have hempty : m.isEmpty = false := by
            rw [Span.isEmpty, h.starts hm]
            simpa using hshrinks
          rw [allWithin_of_some hm hempty, h.filterMap_forward hm, ih m.stop (by omega)]

theorem Apart.guard (h : Apart matchAt) (p : Cursor → Bool) :
    Apart fun place => if p place then matchAt place else none where
  starts hm := h.starts (Option.ite_none_right_eq_some.mp hm).2
  moves hm := h.moves (Option.ite_none_right_eq_some.mp hm).2
  inside hm hlater hless hinside := by
    rw [h.inside (Option.ite_none_right_eq_some.mp hm).2 hlater hless hinside, ite_self]

end Match

namespace Expression

variable {e : Expression}

theorem isSome_matchAt_iff {cursor : Cursor} :
    (e.matchAt cursor).isSome = true ↔ ∃ stop marks, e.pattern.Takes e.flags cursor stop marks := by
  constructor
  · intro h
    obtain ⟨m, hm⟩ := Option.isSome_iff_exists.mp h
    obtain ⟨rfl, htakes⟩ := takes_of_matchAt hm
    exact ⟨_, _, htakes⟩
  · rintro ⟨stop, marks, htakes⟩
    rw [matchAt, Option.isSome_map]
    exact Pattern.isSome_walk_of_takes htakes rfl

theorem isMatch_iff {text : List Char} :
    e.isMatch text = true ↔ ∃ place stop marks, (Cursor.ofChars text).Leads place ∧
      e.pattern.Takes e.flags place stop marks := by
  rw [isMatch, find?_eq, Match.firstFrom_eq_findSome?, List.findSome?_isSome_iff]
  simp only [Cursor.mem_forward, isSome_matchAt_iff]
  constructor
  · rintro ⟨place, hplace, stop, marks, htakes⟩
    exact ⟨place, stop, marks, hplace, htakes⟩
  · rintro ⟨place, stop, marks, hplace, htakes⟩
    exact ⟨place, hplace, stop, marks, htakes⟩

theorem matchAt_of_prefers {a b : Cursor} {marks : List Mark}
    (h : e.pattern.Prefers e.flags a b marks) : e.matchAt a = some ⟨⟨a, b⟩, marks⟩ := by
  rw [matchAt, h Way.ending ⟨b, []⟩ rfl, List.append_nil]
  rfl

/-! ## What is left without the matches -/

theorem without_of_none (h : Match.Apart e.matchAt) {cursor next : Cursor} {c : Char}
    (hnext : cursor.next? = some (c, next)) (hm : e.matchAt cursor = none) :
    without cursor (Match.allFrom e.matchAt cursor) =
      c :: without next (Match.allFrom e.matchAt next) := by
  rw [h.allFrom_eq, h.allFrom_eq, Cursor.forward_of_next? hnext, List.filterMap_cons_none hm]
  cases hmatches : next.forward.filterMap e.matchAt with
  | nil => exact Cursor.rest_of_next? hnext
  | cons first later =>
    have hfirst : first ∈ next.forward.filterMap e.matchAt := hmatches ▸ List.mem_cons_self
    obtain ⟨place, hplace, hmatch⟩ := List.mem_filterMap.mp hfirst
    have hleads : next.Leads first.start := h.starts hmatch ▸ Cursor.mem_forward.mp hplace
    rw [without, without, Span.text_of_next? hnext hleads, List.cons_append]

theorem without_of_some (h : Match.Apart e.matchAt) {cursor : Cursor} {m : Match}
    (hm : e.matchAt cursor = some m) :
    without cursor (Match.allFrom e.matchAt cursor) =
      without m.stop (Match.allFrom e.matchAt m.stop) := by
  have hempty : Span.text ⟨cursor, cursor⟩ = [] := by simp [Span.text]
  rw [h.allFrom_eq, h.allFrom_eq, h.filterMap_forward hm, without, h.starts hm, hempty,
    List.nil_append]

end Expression

end ContractAnalysis
