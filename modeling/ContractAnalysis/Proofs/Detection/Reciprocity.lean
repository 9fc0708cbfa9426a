import ContractAnalysis.Proofs.Detection.Reordering

/-!
# Missing reciprocity

The obligations of the parties without rights are reported in groups, one for each party, whatever
the case in which it is spelled and also if it is blank (`reciprocities_partition`). An obligation
is in the group of its party and in no other (`mem_involved_iff`), and the groups come in the order
of their first obligations (`heads_missingReciprocity`).
-/

namespace ContractAnalysis

/-! ## First obligations -/

/-- The first obligation of each party, the parties in the order in which they first appear. -/
def firstObligations (os : List Obligation) : List (Option Obligation) :=
  (os.map Obligation.partyKey).eraseDups.map fun party => os.find? fun o => o.partyKey = party

theorem firstObligations_concat (os : List Obligation) (o : Obligation) :
    firstObligations (os ++ [o]) =
      if o.partyKey ∈ os.map Obligation.partyKey then firstObligations os
      else firstObligations os ++ [some o] := by
  have hold : ∀ party ∈ (os.map Obligation.partyKey).eraseDups,
      (os ++ [o]).find? (fun o => o.partyKey = party) = os.find? fun o => o.partyKey = party := by
    intro party hparty
    obtain ⟨first, hfirst, rfl⟩ := List.mem_map.mp (List.mem_eraseDups.mp hparty)
    obtain ⟨found, hfound⟩ := Option.isSome_iff_exists.mp
      (List.find?_isSome (p := fun o => o.partyKey = first.partyKey).mpr ⟨first, hfirst, by simp⟩)
    rw [List.find?_append, hfound, Option.some_or]
  rw [firstObligations, List.map_append, List.map_singleton, eraseDups_concat]
  split_ifs with hmem
  · exact List.map_congr_left hold
  · have hnone : os.find? (fun other => other.partyKey = o.partyKey) = none := by
      refine List.find?_eq_none.mpr fun other hother hkey => hmem ?_
      exact List.mem_map.mpr ⟨other, hother, of_decide_eq_true hkey⟩
    rw [List.map_append, List.map_congr_left hold, List.map_singleton, List.find?_append, hnone]
    simp [firstObligations]

theorem firstObligations_sublist (os : List Obligation) :
    (firstObligations os).Sublist (os.map some) := by
  induction os using List.reverseRecOn with
  | nil => exact .slnil
  | append_singleton os o ih =>
    rw [firstObligations_concat, List.map_append, List.map_singleton]
    split_ifs
    · exact ih.trans (List.sublist_append_left _ _)
    · exact ih.append (.refl _)

/-! ## Groups of a graph -/

namespace Graph

variable {g : Graph}

/-- No right belongs to the party of an obligation. -/
def Unentitled (g : Graph) (o : Obligation) : Prop :=
  ∀ r ∈ g.rights, Text.lowercase r.party ≠ Text.lowercase o.party

/-- The parties that have obligations and no rights, in the order in which they first appear. -/
def unentitledParties (g : Graph) : List String :=
  (g.obligations.map Obligation.partyKey).eraseDups.filter fun party =>
    !(entitledParties g).contains party

theorem missingReciprocities_eq_map (g : Graph) :
    missingReciprocities g =
      g.unentitledParties.map fun party => missingReciprocity g (groupOf g.obligations party) :=
  Reorders.missingReciprocities_eq g

theorem ofKind_missingReciprocity (g : Graph) :
    ofKind .missingReciprocity (findingsOf g) =
      g.unentitledParties.map fun party => missingReciprocity g (groupOf g.obligations party) := by
  obtain ⟨-, -, -, -, hreciprocity, -⟩ := ofKind_findingsOf_each g
  rw [hreciprocity, missingReciprocities_eq_map]

theorem nodup_unentitledParties (g : Graph) : g.unentitledParties.Nodup :=
  (nodup_eraseDups _).filter _

theorem mem_unentitledParties_iff {o : Obligation} (ho : o ∈ g.obligations) :
    o.partyKey ∈ g.unentitledParties ↔ g.Unentitled o := by
  have hkey : o.partyKey ∈ (g.obligations.map Obligation.partyKey).eraseDups :=
    List.mem_eraseDups.mpr (List.mem_map_of_mem ho)
  have hentitled : o.partyKey ∉ entitledParties g ↔ g.Unentitled o := by
    simp [entitledParties, Unentitled, Obligation.partyKey]
  rw [unentitledParties, List.mem_filter, ← hentitled]
  simp only [hkey, true_and, Bool.not_eq_true', List.contains_eq_mem, decide_eq_false_iff_not]

theorem exists_obligation_of_mem_unentitledParties {party : String}
    (h : party ∈ g.unentitledParties) : ∃ o ∈ g.obligations, o.partyKey = party :=
  List.mem_map.mp (List.mem_eraseDups.mp (List.mem_of_mem_filter h))

/-- An obligation is in the group of its party and in no other. -/
theorem mem_involved_iff {o : Obligation} (ho : o ∈ g.obligations) (party : String) :
    o.id ∈ (missingReciprocity g (groupOf g.obligations party)).involved ↔
      o.partyKey = party := by
  constructor
  · intro hmem
    obtain ⟨other, hother, hid⟩ := List.mem_map.mp hmem
    obtain ⟨hin, hkey⟩ := List.mem_filter.mp hother
    obtain rfl := List.inj_on_of_nodup_map g.nodup_id_obligations hin ho hid
    exact of_decide_eq_true hkey
  · rintro rfl
    exact List.mem_map_of_mem (List.mem_filter.mpr ⟨ho, by simp⟩)

/-! ## The findings -/

variable {o o' : Obligation}

theorem exists_involved_iff (ho : o ∈ g.obligations) :
    (∃ finding ∈ ofKind .missingReciprocity (findingsOf g), o.id ∈ finding.involved) ↔
      g.Unentitled o := by
  simp only [ofKind_missingReciprocity, List.mem_map, exists_exists_and_eq_and,
    mem_involved_iff ho, ← mem_unentitledParties_iff ho]
  exact ⟨fun ⟨_, hparty, hkey⟩ => hkey ▸ hparty, fun hparty => ⟨_, hparty, rfl⟩⟩

theorem countP_involved (ho : o ∈ g.obligations) (h : g.Unentitled o) :
    (ofKind .missingReciprocity (findingsOf g)).countP
      (fun finding => o.id ∈ finding.involved) = 1 := by
  have hcount : g.unentitledParties.count o.partyKey = 1 :=
    List.count_eq_one_of_mem g.nodup_unentitledParties ((mem_unentitledParties_iff ho).mpr h)
  rw [ofKind_missingReciprocity, List.countP_map, ← hcount, List.count]
  refine List.countP_congr fun party _ => ?_
  rw [Function.comp_apply, decide_eq_true_iff, mem_involved_iff ho, beq_iff_eq, eq_comm]

theorem involved_together_iff (ho : o ∈ g.obligations) (ho' : o' ∈ g.obligations)
    (h : g.Unentitled o) :
    (∃ finding ∈ ofKind .missingReciprocity (findingsOf g),
      o.id ∈ finding.involved ∧ o'.id ∈ finding.involved) ↔
        Text.lowercase o.party = Text.lowercase o'.party := by
  simp only [ofKind_missingReciprocity, List.mem_map, exists_exists_and_eq_and,
    mem_involved_iff ho, mem_involved_iff ho']
  constructor
  · rintro ⟨party, -, hkey, hkey'⟩
    exact hkey.trans hkey'.symm
  · intro hsame
    exact ⟨o.partyKey, (mem_unentitledParties_iff ho).mpr h, rfl, hsame.symm⟩

theorem involved_missingReciprocity {finding : Finding}
    (h : finding ∈ ofKind .missingReciprocity (findingsOf g)) :
    finding.involved ≠ [] ∧ finding.involved.Sublist (g.obligations.map (·.id)) := by
  rw [ofKind_missingReciprocity] at h
  obtain ⟨party, hparty, rfl⟩ := List.mem_map.mp h
  obtain ⟨o, ho, hkey⟩ := exists_obligation_of_mem_unentitledParties hparty
  exact ⟨List.ne_nil_of_mem ((mem_involved_iff ho party).mpr hkey), List.filter_sublist.map _⟩

theorem heads_missingReciprocity (g : Graph) :
    ((ofKind .missingReciprocity (findingsOf g)).map (·.involved.head?)).Sublist
      (g.obligations.map fun o => some o.id) := by
  have hheads : (ofKind .missingReciprocity (findingsOf g)).map (·.involved.head?) =
      g.unentitledParties.map fun party =>
        (g.obligations.find? fun o => o.partyKey = party).map (·.id) := by
    rw [ofKind_missingReciprocity, List.map_map]
    refine List.map_congr_left fun party _ => ?_
    simp [missingReciprocity, Finding.symbolic, groupOf]
  have hfirst := (firstObligations_sublist g.obligations).map (Option.map Obligation.id)
  rw [firstObligations, List.map_map, List.map_map] at hfirst
  rw [hheads]
  exact (List.filter_sublist.map _).trans hfirst

/-- **The obligations of parties without rights are partitioned into findings.** An obligation is in
one finding if no right has its party, up to case, and in none otherwise; two are in one finding
together if they have the same party, up to case. A finding is not empty and names its obligations
in their order, and the findings come in the order of the first obligations that they name. -/
theorem reciprocities_partition (g : Graph) :
    let findings := ofKind .missingReciprocity (findingsOf g)
    (∀ o ∈ g.obligations,
      ((∃ finding ∈ findings, o.id ∈ finding.involved) ↔ g.Unentitled o) ∧
      (g.Unentitled o → findings.countP (fun finding => o.id ∈ finding.involved) = 1) ∧
      ∀ o' ∈ g.obligations, g.Unentitled o →
        ((∃ finding ∈ findings, o.id ∈ finding.involved ∧ o'.id ∈ finding.involved) ↔
          Text.lowercase o.party = Text.lowercase o'.party)) ∧
    (∀ finding ∈ findings, finding.involved ≠ [] ∧
      finding.involved.Sublist (g.obligations.map (·.id))) ∧
    (findings.map (·.involved.head?)).Sublist (g.obligations.map fun o => some o.id) := by
  exact ⟨fun o ho => ⟨exists_involved_iff ho, countP_involved ho,
    fun o' ho' hunentitled => involved_together_iff ho ho' hunentitled⟩,
    fun _ => involved_missingReciprocity, heads_missingReciprocity g⟩

/-- Two spellings of one party without rights, a blank party, and a party with a right. -/
theorem reciprocities_partition_fees :
    let obligation (id party : String) : Node := .obligation ⟨id, party, "pay", none, none, none⟩
    let nodes := [obligation "obl_1" "Buyer", obligation "obl_2" "seller", obligation "obl_3" "",
      obligation "obl_4" "BUYER", .right ⟨"right_1", "Seller", "be paid", none, none⟩]
    ∃ g, Projection.graph? ⟨nodes, []⟩ = .ok g ∧
      (ofKind .missingReciprocity (findingsOf g)).map (·.involved) =
        [["obl_1", "obl_4"], ["obl_3"]] ∧
      (⟨"obl_4", "BUYER", "pay", none, none, none⟩ ∈ g.obligations ∧
        (∀ r ∈ g.rights, Text.lowercase r.party ≠ Text.lowercase "BUYER")) ∧
      (ofKind .missingReciprocity (findingsOf g)).countP
        (fun finding => "obl_4" ∈ finding.involved) = 1 := by
  intro obligation nodes
  obtain ⟨g, hg, hgroups, hmem, hunentitled⟩ : ∃ g, Projection.graph? ⟨nodes, []⟩ = .ok g ∧
      (ofKind .missingReciprocity (findingsOf g)).map (·.involved) =
        [["obl_1", "obl_4"], ["obl_3"]] ∧
      ⟨"obl_4", "BUYER", "pay", none, none, none⟩ ∈ g.obligations ∧
      (∀ r ∈ g.rights, Text.lowercase r.party ≠ Text.lowercase "BUYER") :=
    exists_ok_of_any (by decide +kernel)
  exact ⟨g, hg, hgroups, ⟨hmem, hunentitled⟩,
    ((reciprocities_partition g).1 _ hmem).2.1 hunentitled⟩

end Graph

end ContractAnalysis
