import ContractAnalysis.Proofs.Pattern.Matches

/-!
# Matches one after the other

A pattern that takes a character on every way through it (`Pattern.consumes`) has no empty match, so
that the matches of a text are found one after the other: each is the first behind the place where
the one before it stopped (`Expression.findAll_induction`). Hence they stand in the text in the order
in which they are found, and none starts before the one before it has stopped
(`Expression.pairwise_findAll`).
-/

namespace ContractAnalysis

/-! ## Patterns that take a character -/

namespace Pattern

/-- Whether every way through a pattern takes a character. -/
def consumes : Pattern → Bool
  | .nothing | .wordBoundary | .start | .finish | .optional _ | .star _ _ => false
  | .one _ => true
  | .seq left right => left.consumes || right.consumes
  | .alt left right => left.consumes && right.consumes
  | .plus _ body | .capture _ body => body.consumes

theorem Takes.size_lt {flags : Flags} {p : Pattern} {a b : Cursor} {marks : List Mark}
    (h : Takes flags p a b marks) (hp : p.consumes = true) : b.size < a.size := by
  induction h with
  | nothing | wordBoundary | start | finish | present | absent | none | more => cases hp
  | one hnext =>
    have := Cursor.size_of_next? hnext
    omega
  | seq hleft hright ihleft ihright =>
    have := hleft.leads.size_le
    have := hright.leads.size_le
    rcases Bool.or_eq_true_iff.mp hp with hp | hp
    · have := ihleft hp
      omega
    · have := ihright hp
      omega
  | left _ ih => exact ih (Bool.and_eq_true_iff.mp hp).1
  | right _ ih => exact ih (Bool.and_eq_true_iff.mp hp).2
  | plus hround hrest ihround _ =>
    have := hrest.leads.size_le
    have := ihround hp
    omega
  | capture _ _ ih => exact ih hp

end Pattern

/-! ## The first match -/

namespace Match

variable {matchAt : Cursor → Option Match} {cursor : Cursor}

theorem exists_first_of_firstFrom {m : Match} (h : firstFrom matchAt cursor = some m) :
    ∃ place, cursor.Leads place ∧ matchAt place = some m ∧
      ∀ earlier, cursor.Leads earlier → place.size < earlier.size → matchAt earlier = none := by
  suffices hwithin : ∀ fuel (cursor : Cursor), firstWithin matchAt fuel cursor = some m →
      ∃ place, cursor.Leads place ∧ matchAt place = some m ∧
        ∀ earlier, cursor.Leads earlier → place.size < earlier.size → matchAt earlier = none from
    hwithin _ _ h
  have hhere : ∀ {cursor : Cursor}, matchAt cursor = some m →
      ∃ place, cursor.Leads place ∧ matchAt place = some m ∧
        ∀ earlier, cursor.Leads earlier → place.size < earlier.size → matchAt earlier = none :=
    fun {cursor} hm => ⟨cursor, .refl cursor, hm, fun earlier hearlier hsize =>
      absurd hearlier.size_le (Nat.not_le_of_lt hsize)⟩
  intro fuel
  induction fuel with
  | zero => exact fun cursor h => hhere h
  | succ fuel ih =>
    intro cursor h
    simp only [firstWithin] at h
    split at h
    · next hm => exact hhere (hm.trans h)
    · next hnone =>
      cases hnext : cursor.next? with
      | none => simp [hnext] at h
      | some next =>
        simp only [hnext] at h
        obtain ⟨place, hplace, hm, hearlier⟩ := ih next.2 h
        refine ⟨place, .step hnext hplace, hm, fun earlier hleads hsize => ?_⟩
        obtain rfl | ⟨c, next', hnext', hleads'⟩ := hleads.eq_or_next
        · exact hnone
        · rw [hnext] at hnext'
          obtain rfl := Option.some.inj hnext'
          exact hearlier earlier hleads' hsize

theorem eq_none_of_firstFrom (h : firstFrom matchAt cursor = none) :
    ∀ later, cursor.Leads later → matchAt later = none := by
  rw [firstFrom_eq_findSome?, List.findSome?_eq_none_iff] at h
  exact fun later hleads => h later (Cursor.mem_forward.mpr hleads)

end Match

/-! ## All matches -/

namespace Expression

variable {e : Expression}

/-- Matches are found one after the other, each the first from the place where the one before it
stopped. -/
theorem findAll_induction (he : e.pattern.consumes = true) {motive : Cursor → List Match → Prop}
    (done : ∀ place, (∀ later, place.Leads later → e.matchAt later = none) → motive place [])
    (found : ∀ place m rest, place.Leads m.start → e.matchAt m.start = some m →
      (∀ earlier, place.Leads earlier → m.start.size < earlier.size → e.matchAt earlier = none) →
      motive m.stop rest → motive place (m :: rest))
    (text : List Char) : motive (Cursor.ofChars text) (e.findAll text) := by
  rw [findAll_eq]
  suffices hwithin : ∀ fuel (cursor : Cursor), cursor.size < fuel →
      motive cursor (Match.allWithin e.matchAt fuel cursor) from
    hwithin _ _ (Nat.lt_succ_self _)
  intro fuel
  induction fuel with
  | zero => exact fun cursor h => absurd h (Nat.not_lt_zero _)
  | succ fuel ih =>
    intro cursor hfuel
    rw [Match.allWithin]
    cases hfirst : Match.firstFrom e.matchAt cursor with
    | none => exact done cursor (Match.eq_none_of_firstFrom hfirst)
    | some m =>
      obtain ⟨place, hplace, hm, hearlier⟩ := Match.exists_first_of_firstFrom hfirst
      obtain ⟨rfl, htakes⟩ := takes_of_matchAt hm
      have hsize := htakes.size_lt he
      have hempty : m.isEmpty = false := by simpa [Span.isEmpty] using hsize
      have := hplace.size_le
      simp only [hempty, Bool.false_eq_true, if_false]
      exact found cursor m _ hplace hm hearlier (ih m.stop (by omega))

theorem pairwise_findAll (he : e.pattern.consumes = true) (text : List Char) :
    (e.findAll text).Pairwise fun m later => m.stop.Leads later.start := by
  suffices h : (∀ m ∈ e.findAll text, (Cursor.ofChars text).Leads m.start) ∧
      (e.findAll text).Pairwise fun m later => m.stop.Leads later.start from h.2
  refine findAll_induction he (motive := fun place ms =>
    (∀ m ∈ ms, place.Leads m.start) ∧ ms.Pairwise fun m later => m.stop.Leads later.start)
    (fun _ _ => ⟨by simp, .nil⟩) ?_ text
  rintro place m rest hplace hm - ⟨hrest, hpairwise⟩
  have hstop := leads_of_matchAt hm
  exact ⟨List.forall_mem_cons.mpr ⟨hplace, fun later hlater =>
    hplace.trans (hstop.trans (hrest later hlater))⟩, .cons hrest hpairwise⟩

end Expression

end ContractAnalysis
