import ContractAnalysis.Proofs.Graph.Cycle
import Mathlib.Data.List.TakeWhile

/-!
# The edges that close the reported cycles

A reported cycle ends with the edge that closed it. The search enters a node once and takes each
edge out of it then, so where no two edges lead from a node to the same one, no two reported cycles
end with the same edge (`pairwise_cycles`), and no cycle is reported twice (`nodup_cycles`).

* `Graph.Grows`: what the search adds while it takes some edges out of the last node of a path
-/

namespace ContractAnalysis

namespace Graph

variable {g : Graph}

/-- A cycle ends with an edge. -/
def EndsWith (cycle : List String) (id next : String) : Prop := [id, next] <:+ cycle

theorem EndsWith.unique {cycle : List String} {id next id' next' : String}
    (h : EndsWith cycle id next) (h' : EndsWith cycle id' next') : id = id' ∧ next = next' := by
  have hsuffix : [id, next] <:+ [id', next'] := List.suffix_of_suffix_length_le h h' (by simp)
  simpa using hsuffix.eq_of_length (by simp)

/-- Two cycles do not end with the same edge. -/
def ClosedApart (cycle cycle' : List String) : Prop :=
  ∀ id next, EndsWith cycle id next → ¬EndsWith cycle' id next

theorem endsWith_of_mem {path : List String} {next : String} (h : next ∈ path) :
    ∃ last ∈ path.getLast?, EndsWith (path.dropWhile (· != next) ++ [next]) last next := by
  have hne : path.dropWhile (· != next) ≠ [] := by
    intro hnil
    simpa using List.dropWhile_eq_nil_iff.mp hnil next h
  obtain ⟨first, last, hlast⟩ := (List.eq_nil_or_concat' _).resolve_left hne
  obtain ⟨before, hpath⟩ := List.dropWhile_suffix (p := (· != next)) (l := path)
  refine ⟨last, ?_, first, by simp [hlast]⟩
  rw [← hpath, hlast]
  simp

/-- What the search adds while it takes the edges from the last node of a path to some nodes: cycles
that end with different edges, each from that last node or from a node entered meanwhile. -/
structure Grows (path nexts : List String) (search search' : CycleSearch) : Prop where
  seen : search.seen ⊆ search'.seen
  cycles : ∃ added, search'.cycles = search.cycles ++ added ∧ added.Pairwise ClosedApart ∧
    ∀ cycle ∈ added, ∃ id next, EndsWith cycle id next ∧
      (id ∈ path.getLast? ∧ next ∈ nexts ∨ id ∈ search'.seen ∧ id ∉ search.seen)

namespace Grows

variable {path nexts : List String} {search search' : CycleSearch}

theorem refl (path nexts : List String) (search : CycleSearch) :
    Grows path nexts search search :=
  ⟨List.Subset.refl _, [], by simp, .nil, by simp⟩

theorem cons {next : String} {last : CycleSearch} (h : Grows path [next] search search')
    (hrest : Grows path nexts search' last) (hnew : next ∉ nexts)
    (hpath : ∀ id ∈ path.getLast?, id ∈ search.seen) :
    Grows path (next :: nexts) search last := by
  obtain ⟨hseen, added, heq, hapart, hends⟩ := h
  obtain ⟨hseen', added', heq', hapart', hends'⟩ := hrest
  refine ⟨List.Subset.trans hseen hseen', added ++ added', by rw [heq', heq, List.append_assoc],
    List.pairwise_append.mpr ⟨hapart, hapart', ?_⟩, ?_⟩
  · intro cycle hcycle cycle' hcycle' id n hid hid'
    obtain ⟨id₁, n₁, hid₁, hfrom⟩ := hends cycle hcycle
    obtain ⟨id₂, n₂, hid₂, hfrom'⟩ := hends' cycle' hcycle'
    obtain ⟨rfl, rfl⟩ := hid₁.unique hid
    obtain ⟨rfl, rfl⟩ := hid₂.unique hid'
    rcases hfrom with ⟨hlast, hn⟩ | ⟨hin, hout⟩
    · rcases hfrom' with ⟨-, hn'⟩ | ⟨-, hout'⟩
      · exact hnew (List.mem_singleton.mp hn ▸ hn')
      · exact hout' (hseen (hpath _ hlast))
    · rcases hfrom' with ⟨hlast, -⟩ | ⟨-, hout'⟩
      · exact hout (hpath _ hlast)
      · exact hout' hin
  · intro cycle hcycle
    rcases List.mem_append.mp hcycle with hcycle | hcycle
    · obtain ⟨id, n, hid, hfrom⟩ := hends cycle hcycle
      refine ⟨id, n, hid, hfrom.imp ?_ ?_⟩
      · exact fun ⟨hlast, hn⟩ => ⟨hlast, List.mem_singleton.mp hn ▸ List.mem_cons_self⟩
      · exact fun ⟨hin, hout⟩ => ⟨hseen' hin, hout⟩
    · obtain ⟨id, n, hid, hfrom⟩ := hends' cycle hcycle
      refine ⟨id, n, hid, hfrom.imp ?_ ?_⟩
      · exact fun ⟨hlast, hn⟩ => ⟨hlast, List.mem_cons_of_mem _ hn⟩
      · exact fun ⟨hin, hout⟩ => ⟨hin, fun hmem => hout (hseen hmem)⟩

theorem enter {id : String} (hnew : id ∉ search.seen)
    (h : Grows (path ++ [id]) nexts { search with seen := id :: search.seen } search')
    (others : List String) : Grows path others search search' := by
  obtain ⟨hseen, added, heq, hapart, hends⟩ := h
  refine ⟨fun _ hmem => hseen (List.mem_cons_of_mem id hmem), added, heq, hapart, ?_⟩
  intro cycle hcycle
  obtain ⟨id', n, hid', hfrom⟩ := hends cycle hcycle
  refine ⟨id', n, hid', .inr ?_⟩
  rcases hfrom with ⟨hlast, -⟩ | ⟨hin, hout⟩
  · obtain rfl : id = id' := by simpa using hlast
    exact ⟨hseen List.mem_cons_self, hnew⟩
  · exact ⟨hin, fun hmem => hout (List.mem_cons_of_mem id hmem)⟩

end Grows

theorem grows_of_visit {fuel : Nat} (path : List String) (search : CycleSearch) (next : String)
    (hvisit : next ∉ search.seen → Grows path [next] search (g.closeCycles fuel path search next)) :
    Grows path [next] search (g.follow fuel path search next) := by
  unfold follow
  split_ifs with hseen hmem
  · obtain ⟨last, hlast, hends⟩ := endsWith_of_mem hmem
    refine ⟨List.Subset.refl _, _, rfl, List.pairwise_singleton _ _, ?_⟩
    intro cycle hcycle
    obtain rfl := List.mem_singleton.mp hcycle
    exact ⟨last, next, hends, .inl ⟨hlast, List.mem_singleton_self next⟩⟩
  · exact .refl path [next] search
  · exact hvisit hseen

theorem grows_foldl {fuel : Nat} {path : List String}
    (hfollow : ∀ search next, Grows path [next] search (g.follow fuel path search next))
    {nexts : List String} (hnodup : nexts.Nodup) (search : CycleSearch)
    (hpath : ∀ id ∈ path.getLast?, id ∈ search.seen) :
    Grows path nexts search (nexts.foldl (g.follow fuel path) search) := by
  induction nexts generalizing search with
  | nil => exact .refl path [] search
  | cons next nexts ih =>
    obtain ⟨hnew, hnodup⟩ := List.nodup_cons.mp hnodup
    have hfirst := hfollow search next
    exact hfirst.cons (ih hnodup _ fun id hid => hfirst.seen (hpath id hid)) hnew hpath

/-- To go on to a node adds cycles that end with different edges. -/
theorem grows_follow (hnodup : ∀ id, (g.successors id).Nodup) (fuel : Nat) (path : List String)
    (search : CycleSearch) (next : String) :
    Grows path [next] search (g.follow fuel path search next) := by
  induction fuel generalizing path search next with
  | zero => exact grows_of_visit path search next fun _ => .refl path [next] search
  | succ fuel ih =>
    refine grows_of_visit path search next fun hnew => ?_
    rw [closeCycles_succ]
    exact (grows_foldl (ih (path ++ [next])) (hnodup next) _ (by simp)).enter hnew [next]

/-! ## Results -/

variable (hnodup : ∀ id, (g.successors id).Nodup)
include hnodup

theorem pairwise_cycles : g.cycles.Pairwise ClosedApart ∧
    ∀ cycle ∈ g.cycles, ∃ id next, EndsWith cycle id next := by
  obtain ⟨-, added, heq, hapart, hends⟩ :=
    grows_foldl (grows_follow hnodup g.nodes.length []) g.sound.distinct ⟨[], []⟩ (by simp)
  rw [cycles_eq, searched, heq, List.nil_append]
  exact ⟨hapart, fun cycle hcycle => (hends cycle hcycle).imp fun _ => .imp fun _ => And.left⟩

theorem nodup_cycles : g.cycles.Nodup := by
  obtain ⟨hapart, hends⟩ := pairwise_cycles hnodup
  refine hapart.imp_of_mem fun {cycle _} hcycle _ h heq => ?_
  obtain ⟨id, next, hedge⟩ := hends cycle hcycle
  exact h id next hedge (heq ▸ hedge)

end Graph

end ContractAnalysis
