import ContractAnalysis.Detection
import Mathlib.Data.List.Nodup

/-!
# Findings by kind of defect

Each of the six structural checks reports one kind of defect, and no two report the same
(`checks`). So the findings of a kind are those of its check (`mem_findingsOf_iff`,
`ofKind_findingsOf`).
-/

namespace ContractAnalysis

/-- The kinds of defect that the structural checks report, and what each check reports. -/
def checks (g : Graph) : List (KnownDefect × List Finding) :=
  [(.circularDependency, circularDependencies g),
   (.contradictoryObligations, contradictoryObligations g),
   (.orphanedObligation, orphanedObligations g),
   (.danglingCondition, danglingConditions g),
   (.missingReciprocity, missingReciprocities g),
   (.unmatchedReference, unmatchedReferences g)]

theorem findingsOf_eq (g : Graph) : findingsOf g = (checks g).flatMap Prod.snd := by
  simp [findingsOf, checks]

theorem nodup_kinds (g : Graph) : ((checks g).map Prod.fst).Nodup := by
  change [KnownDefect.circularDependency, .contradictoryObligations, .orphanedObligation,
    .danglingCondition, .missingReciprocity, .unmatchedReference].Nodup
  decide

theorem eq_symbolic_of_mem_checks {g : Graph} {check : KnownDefect × List Finding}
    (hcheck : check ∈ checks g) {finding : Finding} (h : finding ∈ check.2) :
    ∃ severity description involved lines,
      finding = .symbolic (.known check.1) severity description involved lines := by
  simp only [checks, List.mem_cons, List.not_mem_nil, or_false] at hcheck
  rcases hcheck with rfl | rfl | rfl | rfl | rfl | rfl
  · obtain ⟨cycle, -, rfl⟩ := List.mem_map.mp h
    exact ⟨_, _, _, _, rfl⟩
  · obtain ⟨stances, -, rfl⟩ := List.mem_map.mp h
    exact ⟨_, _, _, _, rfl⟩
  · obtain ⟨o, -, rfl⟩ := List.mem_map.mp h
    exact ⟨_, _, _, _, rfl⟩
  · obtain ⟨c, -, rfl⟩ := List.mem_map.mp h
    exact ⟨_, _, _, _, rfl⟩
  · obtain ⟨group, -, rfl⟩ := List.mem_map.mp h
    exact ⟨_, _, _, _, rfl⟩
  · obtain ⟨c, -, hc⟩ := List.mem_flatMap.mp h
    obtain ⟨reference, -, rfl⟩ := List.mem_map.mp hc
    exact ⟨_, _, _, _, rfl⟩

theorem defect_of_mem_checks {g : Graph} {check : KnownDefect × List Finding}
    (hcheck : check ∈ checks g) {finding : Finding} (h : finding ∈ check.2) :
    finding.defect = .known check.1 := by
  obtain ⟨_, _, _, _, rfl⟩ := eq_symbolic_of_mem_checks hcheck h
  rfl

theorem recommendation_of_mem_findingsOf {g : Graph} {finding : Finding}
    (h : finding ∈ findingsOf g) : finding.recommendation = none := by
  rw [findingsOf_eq, List.mem_flatMap] at h
  obtain ⟨check, hcheck, hmem⟩ := h
  obtain ⟨_, _, _, _, rfl⟩ := eq_symbolic_of_mem_checks hcheck hmem
  rfl

theorem mem_findingsOf_iff {g : Graph} {kind : KnownDefect} {findings : List Finding}
    (hcheck : (kind, findings) ∈ checks g) {finding : Finding}
    (hkind : finding.defect = .known kind) : finding ∈ findingsOf g ↔ finding ∈ findings := by
  rw [findingsOf_eq, List.mem_flatMap]
  constructor
  · rintro ⟨check, hmem, h⟩
    have hsame : check.1 = kind :=
      Defect.known.inj ((defect_of_mem_checks hmem h).symm.trans hkind)
    obtain rfl := List.inj_on_of_nodup_map (nodup_kinds g) hmem hcheck hsame
    exact h
  · exact fun h => ⟨_, hcheck, h⟩

/-- The findings of a kind among some, in their order. -/
def ofKind (kind : KnownDefect) (findings : List Finding) : List Finding :=
  findings.filter fun finding => finding.defect = .known kind

theorem ofKind_append (kind : KnownDefect) (findings more : List Finding) :
    ofKind kind (findings ++ more) = ofKind kind findings ++ ofKind kind more :=
  List.filter_append ..

theorem ofKind_of_defect {findings : List Finding} {kind : KnownDefect}
    (h : ∀ finding ∈ findings, finding.defect = .known kind) (kind' : KnownDefect) :
    ofKind kind' findings = if kind = kind' then findings else [] := by
  split_ifs with hkind
  · exact List.filter_eq_self.mpr fun finding hmem => by simp [h finding hmem, hkind]
  · exact List.filter_eq_nil_iff.mpr fun finding hmem => by simp [h finding hmem, hkind]

theorem ofKind_of_mem_checks {g : Graph} {check : KnownDefect × List Finding}
    (hcheck : check ∈ checks g) (kind : KnownDefect) :
    ofKind kind check.2 = if check.1 = kind then check.2 else [] :=
  ofKind_of_defect (fun _ => defect_of_mem_checks hcheck) kind

/-- The findings of a kind are those of its check, in its order. -/
theorem ofKind_findingsOf {g : Graph} {kind : KnownDefect} {findings : List Finding}
    (hcheck : (kind, findings) ∈ checks g) : ofKind kind (findingsOf g) = findings := by
  have hfilter : ofKind kind (findingsOf g) =
      (checks g).flatMap fun check => if check.1 = kind then check.2 else [] := by
    rw [findingsOf_eq, ofKind, List.filter_flatMap]
    exact List.flatMap_congr fun check hmem => ofKind_of_mem_checks hmem kind
  obtain ⟨before, after, hsplit⟩ := List.append_of_mem hcheck
  have hother : ∀ check ∈ before ++ after, check.1 ≠ kind := by
    have hnodup := nodup_kinds g
    rw [hsplit, List.map_append, List.map_cons, List.nodup_middle, List.nodup_cons] at hnodup
    rintro check hmem rfl
    refine hnodup.1 ?_
    rw [← List.map_append]
    exact List.mem_map.mpr ⟨check, hmem, rfl⟩
  have hnil : ∀ part : List (KnownDefect × List Finding), (∀ check ∈ part, check.1 ≠ kind) →
      (part.flatMap fun check => if check.1 = kind then check.2 else []) = [] := fun part hpart =>
    List.flatMap_eq_nil_iff.mpr fun check hmem => if_neg (hpart check hmem)
  rw [hfilter, hsplit, List.flatMap_append, List.flatMap_cons, if_pos rfl,
    hnil before fun check hmem => hother check (List.mem_append_left _ hmem),
    hnil after fun check hmem => hother check (List.mem_append_right _ hmem), List.nil_append,
    List.append_nil]

theorem ofKind_findingsOf_each (g : Graph) :
    ofKind .circularDependency (findingsOf g) = circularDependencies g ∧
    ofKind .contradictoryObligations (findingsOf g) = contradictoryObligations g ∧
    ofKind .orphanedObligation (findingsOf g) = orphanedObligations g ∧
    ofKind .danglingCondition (findingsOf g) = danglingConditions g ∧
    ofKind .missingReciprocity (findingsOf g) = missingReciprocities g ∧
    ofKind .unmatchedReference (findingsOf g) = unmatchedReferences g := by
  have hall : ∀ check ∈ checks g, ofKind check.1 (findingsOf g) = check.2 :=
    fun _ hcheck => ofKind_findingsOf hcheck
  simpa only [checks, List.forall_mem_cons, List.not_mem_nil, false_implies, implies_true,
    and_true] using hall

end ContractAnalysis
