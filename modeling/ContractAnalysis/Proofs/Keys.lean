import Mathlib.Data.List.Nodup
import Mathlib.Data.List.Perm.Basic

/-!
# Entries by key

* `filter_key_eq`: where no two entries share a key, a key has one entry
* `perm_flatMap_filter`: the entries of each key are together all entries
* `flatMap_filter_of_skips`: entries of which nothing is made can be left out
-/

namespace ContractAnalysis

variable {α β κ : Type}

theorem filter_key_eq [BEq κ] [LawfulBEq κ] {key : α → κ} {entries : List α}
    (h : (entries.map key).Nodup) {entry : α} (hentry : entry ∈ entries) :
    (entries.filter fun other => key other == key entry) = [entry] := by
  obtain ⟨before, after, rfl⟩ := List.append_of_mem hentry
  rw [List.map_append, List.map_cons, List.nodup_middle, List.nodup_cons, ← List.map_append] at h
  have hother : ∀ other ∈ before ++ after, ¬(key other == key entry) = true := by
    intro other hmem heq
    exact h.1 (List.mem_map.mpr ⟨other, hmem, beq_iff_eq.mp heq⟩)
  rw [List.filter_append, List.filter_cons_of_pos (by simp),
    List.filter_eq_nil_iff.mpr fun other hmem => hother other (List.mem_append_left _ hmem),
    List.filter_eq_nil_iff.mpr fun other hmem => hother other (List.mem_append_right _ hmem)]
  rfl

theorem perm_flatMap_filter [DecidableEq κ] (key : α → κ) {keys : List κ} (hkeys : keys.Nodup)
    {xs : List α} (h : ∀ x ∈ xs, key x ∈ keys) :
    xs.Perm (keys.flatMap fun k => xs.filter fun x => key x == k) := by
  suffices hkeyed : (xs.filter fun x => key x ∈ keys).Perm
      (keys.flatMap fun k => xs.filter fun x => key x == k) by
    rwa [List.filter_eq_self.mpr fun x hx => decide_eq_true (h x hx)] at hkeyed
  clear h
  induction keys with
  | nil => simp
  | cons k keys ih =>
    obtain ⟨hk, hrest⟩ := List.nodup_cons.mp hkeys
    have hsplit := List.filter_append_perm (fun x => key x == k)
      (xs.filter fun x => key x ∈ k :: keys)
    have hfirst : (xs.filter fun x => key x ∈ k :: keys).filter (fun x => key x == k) =
        xs.filter fun x => key x == k := by
      rw [List.filter_filter]
      refine List.filter_congr fun x _ => ?_
      by_cases hx : key x = k <;> simp [hx]
    have hothers : (xs.filter fun x => key x ∈ k :: keys).filter (fun x => !(key x == k)) =
        xs.filter fun x => key x ∈ keys := by
      rw [List.filter_filter]
      refine List.filter_congr fun x _ => ?_
      by_cases hx : key x = k <;> simp [hx, hk]
    rw [hfirst, hothers] at hsplit
    exact hsplit.symm.trans ((ih hrest).append_left _)

theorem flatMap_filter_of_skips {p : α → Bool} {f g : α → List β} {xs : List α}
    (hkept : ∀ x ∈ xs, p x = true → f x = g x) (hskipped : ∀ x ∈ xs, p x = false → f x = []) :
    xs.flatMap f = (xs.filter p).flatMap g := by
  induction xs with
  | nil => rfl
  | cons x xs ih =>
    rw [List.forall_mem_cons] at hkept hskipped
    have hrest := ih hkept.2 hskipped.2
    cases hx : p x with
    | true => rw [List.filter_cons_of_pos hx, List.flatMap_cons, List.flatMap_cons, hrest,
        hkept.1 hx]
    | false => rw [List.filter_cons_of_neg (by simp [hx]), List.flatMap_cons, hskipped.1 hx, hrest,
        List.nil_append]

end ContractAnalysis
