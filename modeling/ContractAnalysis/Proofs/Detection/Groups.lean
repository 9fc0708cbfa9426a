import ContractAnalysis.Detection
import Mathlib.Data.List.Induction
import Mathlib.Data.List.Nodup

/-!
# The groups of parties

Obligations are put into groups one by one, each into the group of its party or into a new one. What
comes out is one group for each party, in the order in which the parties first appear, and a group
holds what its party has in the order of all obligations (`groupByParty_eq`).
-/

namespace ContractAnalysis

/-! ## Distinct elements -/

theorem nodup_eraseDups {α : Type} [BEq α] [LawfulBEq α] : ∀ xs : List α, xs.eraseDups.Nodup
  | [] => List.nodup_nil
  | x :: xs => by
    rw [List.eraseDups_cons, List.nodup_cons]
    refine ⟨fun hmem => ?_, nodup_eraseDups _⟩
    have hx := List.of_mem_filter (List.mem_eraseDups.mp hmem)
    simp at hx
termination_by xs => xs.length
decreasing_by exact Nat.lt_succ_of_le (List.length_filter_le _ _)

theorem eraseDups_reordered {α : Type} [BEq α] [LawfulBEq α] {xs ys : List α} (h : xs.Perm ys) :
    xs.eraseDups.Perm ys.eraseDups := by
  refine (List.perm_ext_iff_of_nodup (nodup_eraseDups xs) (nodup_eraseDups ys)).mpr fun x => ?_
  rw [List.mem_eraseDups, List.mem_eraseDups, h.mem_iff]

theorem eraseDups_concat {α : Type} [BEq α] [LawfulBEq α] (xs : List α) (x : α) :
    (xs ++ [x]).eraseDups = if x ∈ xs then xs.eraseDups else xs.eraseDups ++ [x] := by
  rw [List.eraseDups_append]
  split_ifs with hmem <;> simp [List.removeAll, hmem, List.eraseDups_cons]

/-! ## Groups -/

def Obligation.partyKey (o : Obligation) : String := Text.lowercase o.party

/-- The obligations of a party among some. -/
def groupOf (os : List Obligation) (party : String) : PartyGroup :=
  ⟨party, os.filter fun o => o.partyKey = party⟩

theorem party_groupOf (os : List Obligation) (party : String) : (groupOf os party).party = party :=
  rfl

theorem groupOf_concat_self (os : List Obligation) (o : Obligation) :
    groupOf (os ++ [o]) o.partyKey =
      ⟨o.partyKey, (groupOf os o.partyKey).obligations ++ [o]⟩ := by
  simp [groupOf]

theorem groupOf_concat_of_ne (os : List Obligation) {o : Obligation} {party : String}
    (h : party ≠ o.partyKey) : groupOf (os ++ [o]) party = groupOf os party := by
  simp [groupOf, h.symm]

theorem map_groupOf_concat (os : List Obligation) {o : Obligation} {parties : List String}
    (h : o.partyKey ∉ parties) :
    parties.map (groupOf (os ++ [o])) = parties.map (groupOf os) :=
  List.map_congr_left fun _ hparty =>
    groupOf_concat_of_ne os (ne_of_mem_of_not_mem hparty h)

theorem insertByParty_groups (os : List Obligation) (o : Obligation) {parties : List String}
    (hparties : parties.Nodup) :
    insertByParty o.partyKey o (parties.map (groupOf os)) =
      if o.partyKey ∈ parties then parties.map (groupOf (os ++ [o]))
      else parties.map (groupOf os) ++ [⟨o.partyKey, [o]⟩] := by
  induction parties with
  | nil => rfl
  | cons party parties ih =>
    obtain ⟨hparty, hrest⟩ := List.nodup_cons.mp hparties
    rw [List.map_cons, insertByParty, party_groupOf]
    by_cases hsame : party = o.partyKey
    · subst hsame
      rw [if_pos rfl, if_pos List.mem_cons_self, List.map_cons, groupOf_concat_self,
        map_groupOf_concat os hparty]
    · rw [if_neg hsame, ih hrest]
      have hmem : o.partyKey ∈ party :: parties ↔ o.partyKey ∈ parties := by
        simp [Ne.symm hsame]
      simp only [hmem]
      split_ifs with hin
      · rw [List.map_cons, groupOf_concat_of_ne os hsame]
      · rfl

/-- There is one group for each party, in the order in which the parties first appear, and it holds
what the party has. -/
theorem groupByParty_eq (os : List Obligation) :
    groupByParty os = (os.map Obligation.partyKey).eraseDups.map (groupOf os) := by
  induction os using List.reverseRecOn with
  | nil => rfl
  | append_singleton os o ih =>
    rw [groupByParty, List.foldl_concat]
    change insertByParty o.partyKey o (groupByParty os) = _
    rw [ih, insertByParty_groups os o (nodup_eraseDups _), List.map_append, List.map_singleton,
      eraseDups_concat]
    simp only [List.mem_eraseDups]
    split_ifs with hmem
    · rfl
    · have hnone : (groupOf os o.partyKey).obligations = [] := by
        refine List.filter_eq_nil_iff.mpr fun other hother hkey => hmem ?_
        exact List.mem_map.mpr ⟨other, hother, of_decide_eq_true hkey⟩
      have hnew : o.partyKey ∉ (os.map Obligation.partyKey).eraseDups := fun hin =>
        hmem (List.mem_eraseDups.mp hin)
      rw [List.map_append, List.map_singleton, groupOf_concat_self, hnone,
        map_groupOf_concat os hnew]
      rfl

end ContractAnalysis
