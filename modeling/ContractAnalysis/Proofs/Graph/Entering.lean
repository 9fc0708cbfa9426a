import ContractAnalysis.Proofs.Graph.Calls
import ContractAnalysis.Proofs.Graph.Cycle
import Mathlib.Data.List.Nodup

/-!
# Where the search for cycles enters a node

The search enters every node (`exists_enters`), and each at one place only (`Enters.unique`). Nodes
are put in front of those seen as they are entered, so what the search has seen when it enters a
node is what stands behind this node in the end. And the nodes from which an edge leads to a node
and that were entered before it are all on the path when it is entered, for those that were left
have no edge to a node that is not seen.

While a node is on its path, the search closes cycles through nodes of the path and nodes entered
meanwhile, and where such a cycle meets the path, all of the path from there on belongs to it
(`FoundBehind`).

* `Graph.Enters`: where the search stands when it enters a node
* `CycleSearch.HasLeft`: the nodes that it had left by then
* `Graph.Adds`: what it adds while it stands at the end of a path
-/

namespace ContractAnalysis

/-- A node was seen, and it is not on the path any more. -/
def CycleSearch.HasLeft (search : CycleSearch) (path : List String) (id : String) : Prop :=
  id ∈ search.seen ∧ id ∉ path

namespace Graph

variable {g : Graph} {fuel : Nat} {path : List String} {search search' : CycleSearch} {id : String}

theorem round_subset (id : String) (way : List String) : id :: way ++ [id] ⊆ id :: way :=
  List.append_subset.mpr ⟨List.Subset.refl _, by simp⟩

theorem concat_subset_cons {seen : List String} (h : path ⊆ seen) (id : String) :
    path ++ [id] ⊆ id :: seen :=
  List.append_subset.mpr ⟨List.Subset.trans h (List.subset_cons_self _ _), by simp⟩

/-! ## Entering a node -/

/-- The search enters a node that is not seen yet: it may go on to some depth, it stands at the end
of a path, and it has seen and found so much. -/
inductive Enters (g : Graph) : Nat → List String → CycleSearch → String → Prop
  /-- A search starts from a node when those added before it are done. -/
  | start {before after : List String} {id : String} (hids : g.ids = before ++ id :: after)
      (hnew : id ∉ (before.foldl (g.follow g.nodes.length []) ⟨[], []⟩).seen) :
      Enters g g.nodes.length [] (before.foldl (g.follow g.nodes.length []) ⟨[], []⟩) id
  /-- A search goes on along an edge out of a node when the edges added before it are done. -/
  | step {fuel : Nat} {path before after : List String} {search : CycleSearch} {id next : String}
      (h : Enters g (fuel + 1) path search id) (hnexts : g.successors id = before ++ next :: after)
      (hnew : next ∉ (before.foldl (g.follow fuel (path ++ [id]))
        { search with seen := id :: search.seen }).seen) :
      Enters g fuel (path ++ [id]) (before.foldl (g.follow fuel (path ++ [id]))
        { search with seen := id :: search.seen }) next

theorem follow_of_notMem (hnew : id ∉ search.seen) :
    g.follow fuel path search id = g.closeCycles fuel path search id := by
  unfold follow
  exact if_neg hnew

theorem seen_follow_of_mem (hseen : id ∈ search.seen) :
    (g.follow fuel path search id).seen = search.seen := by
  unfold follow
  rw [if_pos hseen]
  split_ifs <;> rfl

theorem Enters.exists_explored (h : g.Enters fuel path search id) :
    g.nodes.length ≤ fuel + path.length ∧ g.IsPath (path ++ [id]) ∧ id ∉ search.seen ∧
      ∃ done, g.Explored path search done := by
  induction h with
  | @start before after id hids hnew =>
    have hroots : ∀ other ∈ before ++ id :: after, g.Follows [] other := by
      intro other hother
      exact follows_nil (hids ▸ hother)
    obtain ⟨done, hexplored, -⟩ := explored_foldl (visits _) (Nat.le_add_right _ _) isPath_nil
      explored_nil fun other hother => hroots other (List.mem_append_left _ hother)
    exact ⟨Nat.le_add_right _ _, isPath_nil.snoc (hroots id (by simp)) List.not_mem_nil, hnew, done,
      hexplored⟩
  | @step fuel path before after search id next _ hnexts hnew ih =>
    obtain ⟨hfuel, hpath, hid, done, hexplored⟩ := ih
    have hroom : g.nodes.length ≤ fuel + (path ++ [id]).length := by
      rw [List.length_append, List.length_singleton]
      omega
    have hfollows : ∀ other ∈ before ++ next :: after, g.Follows (path ++ [id]) other := by
      intro other hother
      exact follows_of_mem_successors (hnexts ▸ hother)
    obtain ⟨done', hexplored', -⟩ := explored_foldl (visits fuel) hroom hpath (hexplored.enter hid)
      fun other hother => hfollows other (List.mem_append_left _ hother)
    refine ⟨hroom, hpath.snoc (hfollows next (by simp)) fun hmem => ?_, hnew, done', hexplored'⟩
    exact hnew ((hexplored'.seen_iff next).mpr (.inl hmem))

theorem exists_first_of_mem_foldl {visit : CycleSearch → String → CycleSearch}
    {nexts : List String} (hnew : id ∉ search.seen)
    (hseen : id ∈ (nexts.foldl visit search).seen) :
    ∃ before next after, nexts = before ++ next :: after ∧
      id ∉ (before.foldl visit search).seen ∧
      id ∈ (visit (before.foldl visit search) next).seen := by
  induction nexts using List.reverseRecOn with
  | nil => exact absurd hseen hnew
  | append_singleton nexts last ih =>
    by_cases hbefore : id ∈ (nexts.foldl visit search).seen
    · obtain ⟨before, next, after, rfl, hfirst⟩ := ih hbefore
      exact ⟨before, next, after ++ [last], by simp, hfirst⟩
    · rw [List.foldl_concat] at hseen
      exact ⟨nexts, last, [], rfl, hbefore, hseen⟩

theorem Enters.exists_of_mem (h : g.Enters fuel path search id) {other : String}
    (hnew : other ∉ search.seen) (hseen : other ∈ (g.closeCycles fuel path search id).seen) :
    ∃ fuel' path' search', g.Enters fuel' path' search' other := by
  induction fuel generalizing path search id with
  | zero => exact absurd hseen hnew
  | succ fuel ih =>
    by_cases hother : other = id
    · exact ⟨_, path, search, hother ▸ h⟩
    rw [closeCycles_succ] at hseen
    have hnew' : other ∉ id :: search.seen := by
      rw [List.mem_cons, not_or]
      exact ⟨hother, hnew⟩
    obtain ⟨before, next, after, hnexts, hbefore, hnext⟩ := exists_first_of_mem_foldl hnew' hseen
    by_cases hmem : next ∈ (before.foldl (g.follow fuel (path ++ [id]))
        { search with seen := id :: search.seen }).seen
    · rw [seen_follow_of_mem hmem] at hnext
      exact absurd hnext hbefore
    · rw [follow_of_notMem hmem] at hnext
      exact ih (h.step hnexts hmem) hbefore hnext

/-- The search enters every node. -/
theorem exists_enters (hid : id ∈ g.ids) : ∃ fuel path search, g.Enters fuel path search id := by
  obtain ⟨done, hexplored, hall⟩ := exists_explored g
  have hseen : id ∈ g.searched.seen := (hexplored.seen_iff id).mpr (.inr (hall id hid))
  obtain ⟨before, next, after, hids, hbefore, hnext⟩ :=
    exists_first_of_mem_foldl List.not_mem_nil hseen
  by_cases hmem : next ∈ (before.foldl (g.follow g.nodes.length []) ⟨[], []⟩).seen
  · rw [seen_follow_of_mem hmem] at hnext
    exact absurd hnext hbefore
  · rw [follow_of_notMem hmem] at hnext
    exact (Enters.start hids hmem).exists_of_mem hbefore hnext

/-! ## What the search adds -/

/-- A cycle that is found behind the end of a path: its nodes are on the path or entered meanwhile,
and where it meets the path, all of the path from there on belongs to it. -/
structure FoundBehind (path : List String) (search search' : CycleSearch)
    (cycle : List String) : Prop where
  nodes : ∀ id ∈ cycle, id ∈ path ∨ id ∈ search'.seen ∧ id ∉ search.seen
  rest : ∀ before id after, path = before ++ id :: after → id ∈ cycle → after ⊆ cycle

/-- What the search adds while it stands at the end of a path. -/
structure Adds (path : List String) (search search' : CycleSearch) : Prop where
  seen : search.seen <:+ search'.seen
  kept : search.cycles ⊆ search'.cycles
  found : ∀ cycle ∈ search'.cycles, cycle ∈ search.cycles ∨ FoundBehind path search search' cycle

namespace Adds

theorem refl (path : List String) (search : CycleSearch) : Adds path search search :=
  ⟨List.suffix_rfl, List.Subset.refl _, fun _ => .inl⟩

theorem trans {s₁ s₂ s₃ : CycleSearch} (h : Adds path s₁ s₂) (h' : Adds path s₂ s₃) :
    Adds path s₁ s₃ where
  seen := h.seen.trans h'.seen
  kept := List.Subset.trans h.kept h'.kept
  found := by
    intro cycle hcycle
    rcases h'.found cycle hcycle with hcycle | ⟨hnodes, hrest⟩
    · rcases h.found cycle hcycle with hcycle | ⟨hnodes, hrest⟩
      · exact .inl hcycle
      · refine .inr ⟨fun other hother => ?_, hrest⟩
        exact (hnodes other hother).imp_right fun hmem => ⟨h'.seen.subset hmem.1, hmem.2⟩
    · refine .inr ⟨fun other hother => ?_, hrest⟩
      exact (hnodes other hother).imp_right fun hmem => ⟨hmem.1, fun hin => hmem.2 (h.seen.subset hin)⟩

theorem leave (h : Adds (path ++ [id]) { search with seen := id :: search.seen } search')
    (hnew : id ∉ search.seen) : Adds path search search' where
  seen := (List.suffix_cons id search.seen).trans h.seen
  kept := h.kept
  found := by
    intro cycle hcycle
    refine (h.found cycle hcycle).imp_right fun hfound => ⟨fun other hother => ?_, ?_⟩
    · rcases hfound.nodes other hother with hmem | ⟨hseen, hout⟩
      · rcases List.mem_append.mp hmem with hmem | hmem
        · exact .inl hmem
        · obtain rfl := List.mem_singleton.mp hmem
          exact .inr ⟨h.seen.subset List.mem_cons_self, hnew⟩
      · exact .inr ⟨hseen, fun hin => hout (List.mem_cons_of_mem id hin)⟩
    · rintro before other after rfl hother
      have hrest := hfound.rest before other (after ++ [id]) (by simp) hother
      exact List.Subset.trans (List.subset_append_left _ _) hrest

theorem inside (h : Adds path search search') (hpath : path ⊆ search.seen)
    (hcycles : ∀ cycle ∈ search.cycles, cycle ⊆ search.seen) :
    ∀ cycle ∈ search'.cycles, cycle ⊆ search'.seen := by
  intro cycle hcycle other hother
  rcases h.found cycle hcycle with hcycle | hfound
  · exact h.seen.subset (hcycles cycle hcycle hother)
  · exact (hfound.nodes other hother).elim (fun hmem => h.seen.subset (hpath hmem)) And.left

end Adds

theorem FoundBehind.last_mem {cycle : List String}
    (h : FoundBehind (path ++ [id]) search search' cycle) {other : String}
    (hother : other ∈ cycle) (hpath : other ∈ path ++ [id]) : id ∈ cycle := by
  obtain ⟨before, after, hsplit⟩ := List.append_of_mem hpath
  cases after using List.reverseRecOn with
  | nil =>
    obtain ⟨-, hlast⟩ := List.append_inj' hsplit rfl
    exact List.singleton_inj.mp hlast ▸ hother
  | append_singleton after last =>
    have hlast := hsplit
    rw [← List.cons_append, ← List.append_assoc] at hlast
    obtain ⟨-, heq⟩ := List.append_inj' hlast rfl
    exact h.rest before other _ hsplit hother (by simp [List.singleton_inj.mp heq])

theorem adds_close {next : String} (hnodup : path.Nodup) (hnext : next ∈ path) :
    Adds path search
      { search with cycles := search.cycles ++ [path.dropWhile (· != next) ++ [next]] } where
  seen := List.suffix_rfl
  kept := List.subset_append_left _ _
  found := by
    intro cycle hcycle
    refine (List.mem_append.mp hcycle).imp_right fun hmem => ?_
    obtain rfl := List.mem_singleton.mp hmem
    have hsuffix : path.dropWhile (· != next) <:+ path := List.dropWhile_suffix _
    obtain ⟨way, hway⟩ := exists_dropWhile_eq_cons hnext
    rw [hway] at hsuffix ⊢
    have hround : next :: way ++ [next] ⊆ next :: way := round_subset next way
    refine ⟨fun other hother => .inl (hsuffix.subset (hround hother)), ?_⟩
    rintro before other after rfl hother
    have hrest : other :: after <:+ before ++ other :: after := List.suffix_append _ _
    have hother' : other ∉ after := (List.nodup_cons.mp (List.nodup_append.mp hnodup).2.1).1
    have hlong : after ⊆ next :: way := by
      rcases List.suffix_or_suffix_of_suffix hsuffix hrest with hshort | hlong
      · rcases List.suffix_cons_iff.mp hshort with heq | hshort
        · exact heq ▸ List.subset_cons_self _ _
        · exact absurd (hshort.subset (hround hother)) hother'
      · exact List.Subset.trans (List.subset_cons_self _ _) hlong.subset
    exact List.Subset.trans hlong (List.subset_append_left _ _)

theorem adds_foldl
    (hfollow : ∀ search next, path ⊆ search.seen →
      Adds path search (g.follow fuel path search next))
    (nexts : List String) (hpath : path ⊆ search.seen) :
    Adds path search (nexts.foldl (g.follow fuel path) search) := by
  induction nexts generalizing search with
  | nil => exact .refl path search
  | cons next nexts ih =>
    have hfirst := hfollow search next hpath
    exact hfirst.trans (ih (List.Subset.trans hpath hfirst.seen.subset))

/-- What the search adds when it goes on from the end of a path. -/
theorem adds_follow (fuel : Nat) (hnodup : path.Nodup) (search : CycleSearch) (next : String)
    (hpath : path ⊆ search.seen) : Adds path search (g.follow fuel path search next) := by
  induction fuel generalizing path search next with
  | zero =>
    unfold follow
    split_ifs with hseen hmem
    · exact adds_close hnodup hmem
    · exact .refl path search
    · exact .refl path search
  | succ fuel ih =>
    unfold follow
    split_ifs with hseen hmem
    · exact adds_close hnodup hmem
    · exact .refl path search
    · have hnew : next ∉ path := fun hin => hseen (hpath hin)
      have hnodup' : (path ++ [next]).Nodup :=
        List.nodup_append_comm.mpr (List.nodup_cons.mpr ⟨hnew, hnodup⟩)
      rw [closeCycles_succ]
      exact (adds_foldl (ih hnodup') _ (concat_subset_cons hpath next)).leave hseen

/-! ## From entering a node to the end of the search -/

namespace Enters

theorem path_subset_seen (h : g.Enters fuel path search id) : path ⊆ search.seen := by
  obtain ⟨-, -, -, done, hexplored⟩ := h.exists_explored
  exact fun other hother => (hexplored.seen_iff other).mpr (.inl hother)

theorem subset_seen (h : g.Enters fuel path search id) :
    path ++ [id] ⊆ (CycleSearch.mk (id :: search.seen) search.cycles).seen :=
  concat_subset_cons h.path_subset_seen id

theorem adds (h : g.Enters fuel path search id) :
    Adds (path ++ [id]) { search with seen := id :: search.seen }
      (g.closeCycles fuel path search id) := by
  obtain ⟨hfuel, hpath, -, -⟩ := h.exists_explored
  cases fuel with
  | zero =>
    have hlength := hpath.length_le
    rw [List.length_append, List.length_singleton] at hlength
    omega
  | succ fuel =>
    rw [closeCycles_succ]
    exact adds_foldl (adds_follow fuel hpath.nodup) _ h.subset_seen

theorem inside (h : g.Enters fuel path search id) :
    ∀ cycle ∈ search.cycles, cycle ⊆ search.seen := by
  induction h with
  | @start before after id hids hnew =>
    have hadds := adds_foldl (adds_follow (g := g) g.nodes.length List.nodup_nil) before
      (List.nil_subset (CycleSearch.mk [] []).seen)
    exact hadds.inside (List.nil_subset _) (by simp)
  | @step fuel path before after search id next h hnexts hnew ih =>
    obtain ⟨-, hpath, -, -⟩ := h.exists_explored
    have hadds := adds_foldl (adds_follow (g := g) fuel hpath.nodup) before h.subset_seen
    refine hadds.inside h.subset_seen fun cycle hcycle => ?_
    exact fun other hother => List.mem_cons_of_mem id (ih cycle hcycle hother)

end Enters

theorem adds_after_start {before after : List String} (hids : g.ids = before ++ id :: after)
    (hnew : id ∉ (before.foldl (g.follow g.nodes.length []) ⟨[], []⟩).seen) :
    Adds [] (g.closeCycles g.nodes.length []
      (before.foldl (g.follow g.nodes.length []) ⟨[], []⟩) id) g.searched := by
  rw [searched, hids, List.foldl_append, List.foldl_cons, follow_of_notMem hnew]
  exact adds_foldl (adds_follow g.nodes.length List.nodup_nil) after (List.nil_subset _)

namespace Enters

theorem adds_after_step (h : g.Enters (fuel + 1) path search id) {before after : List String}
    {next : String} (hnexts : g.successors id = before ++ next :: after)
    (hnew : next ∉ (before.foldl (g.follow fuel (path ++ [id]))
      { search with seen := id :: search.seen }).seen) :
    Adds (path ++ [id]) (g.closeCycles fuel (path ++ [id]) (before.foldl
      (g.follow fuel (path ++ [id])) { search with seen := id :: search.seen }) next)
      (g.closeCycles (fuel + 1) path search id) := by
  obtain ⟨-, hpath, -, -⟩ := h.exists_explored
  have hnext := h.step hnexts hnew
  have hseen : path ++ [id] ⊆ (g.closeCycles fuel (path ++ [id]) (before.foldl
      (g.follow fuel (path ++ [id])) { search with seen := id :: search.seen }) next).seen := by
    intro other hother
    exact hnext.adds.seen.subset (hnext.subset_seen (List.mem_append_left _ hother))
  rw [closeCycles_succ, hnexts, List.foldl_append, List.foldl_cons, follow_of_notMem hnew]
  exact adds_foldl (adds_follow fuel hpath.nodup) after hseen

/-! ## One place for each node -/

/-- What was seen when a node was entered stands behind it among what is seen in the end. -/
theorem suffix_seen (h : g.Enters fuel path search id) :
    id :: search.seen <:+ g.searched.seen := by
  refine h.adds.seen.trans ?_
  induction h with
  | start hids hnew => exact (adds_after_start hids hnew).seen
  | step h hnexts hnew ih => exact (h.adds_after_step hnexts hnew).seen.trans ih

/-- Of two nodes that are entered, one is seen before the other is entered. -/
theorem seen_before (h : g.Enters fuel path search id) {fuel' : Nat} {path' : List String}
    {other : String} (h' : g.Enters fuel' path' search' other) :
    (id = other ∧ search.seen = search'.seen) ∨ id :: search.seen <:+ search'.seen ∨
      other :: search'.seen <:+ search.seen := by
  rcases List.suffix_or_suffix_of_suffix h.suffix_seen h'.suffix_seen with hshort | hshort
  · rcases List.suffix_cons_iff.mp hshort with heq | hbefore
    · exact .inl (List.cons.inj heq)
    · exact .inr (.inl hbefore)
  · rcases List.suffix_cons_iff.mp hshort with heq | hafter
    · exact .inl (List.cons.inj heq.symm)
    · exact .inr (.inr hafter)

theorem notMem_seen_of_mem (h : g.Enters fuel path search id) {fuel' : Nat} {path' : List String}
    {other : String} (h' : g.Enters fuel' path' search' other) (hmem : other ∈ search.seen) :
    id ∉ search'.seen := by
  obtain ⟨-, -, hnew, -⟩ := h.exists_explored
  obtain ⟨-, -, hnew', -⟩ := h'.exists_explored
  intro hmem'
  rcases h.seen_before h' with ⟨rfl, -⟩ | hbefore | hafter
  · exact hnew hmem
  · exact hnew' (hbefore.subset (List.mem_cons_of_mem id hmem))
  · exact hnew (hafter.subset (List.mem_cons_of_mem other hmem'))

theorem seen_eq (h : g.Enters fuel path search id) {fuel' : Nat} {path' : List String}
    (h' : g.Enters fuel' path' search' id) : search.seen = search'.seen := by
  obtain ⟨-, -, hnew, -⟩ := h.exists_explored
  obtain ⟨-, -, hnew', -⟩ := h'.exists_explored
  rcases h.seen_before h' with ⟨-, heq⟩ | hbefore | hafter
  · exact heq
  · exact absurd (hbefore.subset List.mem_cons_self) hnew'
  · exact absurd (hafter.subset List.mem_cons_self) hnew

/-- A node that was seen, and from which an edge leads to one that was not, is on the path. -/
theorem mem_path_of_joins (h : g.Enters fuel path search id) {other : String}
    (hjoins : g.Joins other id) (hseen : other ∈ search.seen) : other ∈ path := by
  obtain ⟨-, -, hnew, done, hexplored⟩ := h.exists_explored
  refine ((hexplored.seen_iff other).mp hseen).resolve_right fun hdone => hnew ?_
  obtain ⟨before, after, rfl⟩ := List.append_of_mem hdone
  rcases hexplored.settled before other after rfl id hjoins with hafter | ⟨cycle, hcycle, hends⟩
  · exact (hexplored.seen_iff id).mpr (.inr (by simp [hafter]))
  · exact h.inside cycle hcycle (hends.subset (by simp))

end Enters

theorem mem_seen_append (hnodup : path.Nodup) (hpath : path ⊆ search.seen)
    {before : List String} (hnew : id ∉ (before.foldl (g.follow fuel path) search).seen)
    (hentered : id ∈ (g.closeCycles fuel path
      (before.foldl (g.follow fuel path) search) id).seen) (more : List String) :
    id ∈ ((before ++ id :: more).foldl (g.follow fuel path) search).seen := by
  have hadds := adds_follow (g := g) fuel hnodup
  have hbefore := adds_foldl hadds before hpath
  have hnext := hadds _ id (List.Subset.trans hpath hbefore.seen.subset)
  rw [follow_of_notMem hnew] at hnext
  have hmore := adds_foldl hadds more
    (List.Subset.trans hpath (hbefore.seen.trans hnext.seen).subset)
  rw [List.foldl_append, List.foldl_cons, follow_of_notMem hnew]
  exact hmore.seen.subset hentered

theorem before_eq (hnodup : path.Nodup) (hpath : path ⊆ search.seen)
    {before after before' after' : List String}
    (hsplit : before ++ id :: after = before' ++ id :: after')
    (hnew : id ∉ (before.foldl (g.follow fuel path) search).seen)
    (hnew' : id ∉ (before'.foldl (g.follow fuel path) search).seen)
    (hentered : id ∈ (g.closeCycles fuel path
      (before.foldl (g.follow fuel path) search) id).seen)
    (hentered' : id ∈ (g.closeCycles fuel path
      (before'.foldl (g.follow fuel path) search) id).seen) : before' = before := by
  rcases List.append_eq_append_iff.mp hsplit with ⟨more, rfl, hmore⟩ | ⟨more, rfl, hmore⟩
  · cases more with
    | nil => exact List.append_nil before
    | cons first more =>
      obtain ⟨rfl, -⟩ := List.cons.inj hmore
      exact absurd (mem_seen_append hnodup hpath hnew hentered more) hnew'
  · cases more with
    | nil => exact (List.append_nil before').symm
    | cons first more =>
      obtain ⟨rfl, -⟩ := List.cons.inj hmore
      exact absurd (mem_seen_append hnodup hpath hnew' hentered' more) hnew

namespace Enters

theorem mem_seen (h : g.Enters fuel path search id) :
    id ∈ (g.closeCycles fuel path search id).seen :=
  h.adds.seen.subset List.mem_cons_self

/-- The search enters a node at one place only. -/
theorem unique (h : g.Enters fuel path search id) {fuel' : Nat} {path' : List String}
    (h' : g.Enters fuel' path' search' id) : fuel' = fuel ∧ path' = path ∧ search' = search := by
  induction h generalizing fuel' path' search' with
  | @start before after id hids hnew =>
    have hfirst := Enters.start hids hnew
    have hseen := hfirst.seen_eq h'
    cases h' with
    | @start before' after' _ hids' hnew' =>
      have hsecond := Enters.start hids' hnew'
      obtain rfl := before_eq List.nodup_nil (List.nil_subset _) (hids.symm.trans hids') hnew hnew'
        hfirst.mem_seen hsecond.mem_seen
      exact ⟨rfl, rfl, rfl⟩
    | @step _ _ _ _ _ parent _ hparent hnexts hnew' =>
      -- What was seen where a search starts was left, and has no edge to a new node.
      have hjoins : g.Joins parent id := mem_successors_iff.mp (by simp [hnexts])
      have hmem := (hparent.step hnexts hnew').path_subset_seen List.mem_concat_self
      exact absurd (hfirst.mem_path_of_joins hjoins (hseen ▸ hmem)) List.not_mem_nil
  | @step fuel path before after search id next hparent hnexts hnew ih =>
    have hfirst := hparent.step hnexts hnew
    have hseen := hfirst.seen_eq h'
    have hjoins : g.Joins id next := mem_successors_iff.mp (by simp [hnexts])
    have hmem := hfirst.path_subset_seen List.mem_concat_self
    cases h' with
    | @start before' after' _ hids' hnew' =>
      have hsecond := Enters.start hids' hnew'
      exact absurd (hsecond.mem_path_of_joins hjoins (hseen ▸ hmem)) List.not_mem_nil
    | @step _ way _ _ _ parent _ hparent' hnexts' hnew' =>
      have hsecond := hparent'.step hnexts' hnew'
      have hjoins' : g.Joins parent next := mem_successors_iff.mp (by simp [hnexts'])
      have hmem' := hsecond.path_subset_seen List.mem_concat_self
      have hback := hfirst.mem_path_of_joins hjoins' (hseen ▸ hmem')
      have hback' := hsecond.mem_path_of_joins hjoins (hseen ▸ hmem)
      by_cases hsame : parent = id
      · obtain rfl := hsame
        obtain ⟨hfuel, rfl, rfl⟩ := ih hparent'
        obtain rfl := Nat.succ.inj hfuel
        have hpath := hparent.exists_explored.2.1
        obtain rfl := before_eq hpath.nodup hparent.subset_seen (hnexts.symm.trans hnexts') hnew
          hnew' hfirst.mem_seen hsecond.mem_seen
        exact ⟨rfl, rfl, rfl⟩
      · -- Each of the two nodes would be entered before the other.
        have hbefore : parent ∈ path := by simpa [hsame] using hback
        have hbefore' : id ∈ way := by simpa [Ne.symm hsame] using hback'
        exact absurd (hparent'.path_subset_seen hbefore')
          (hparent.notMem_seen_of_mem hparent' (hparent.path_subset_seen hbefore))

end Enters

end Graph

end ContractAnalysis
