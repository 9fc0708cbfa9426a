import ContractAnalysis.Text.Basic
import Mathlib.Data.List.Infix
import Mathlib.Data.List.TakeWhile

/-!
# Lines of a part of a text

Line feeds cut a text into pieces, and a line is a piece without a carriage return at its end
(`getElem?_lines`). A part of a text is cut at the same line feeds as the text: the pieces of the
part are pieces of the text again, as many places further on as there are line feeds before the
part, and only the first and the last of them can have lost something (`getElem?_pieces_middle`).

* `Pads`: a text with white space around it; trimming both gives the same (`Pads.trimChars_eq`)
* `cut_induction`: from piece to piece along a list
* `pieces_append`: the cut of two texts put together
* `lines_append`: the lines of two texts of which the first ends its last line
-/

namespace ContractAnalysis.Text

/-! ## White space around a text -/

def IsBlankText (cs : List Char) : Prop := ∀ c ∈ cs, isBlank c = true

/-- A text, and the text with white space around it. -/
def Pads (cs padded : List Char) : Prop :=
  ∃ before after, padded = before ++ cs ++ after ∧ IsBlankText before ∧ IsBlankText after

theorem Pads.refl (cs : List Char) : Pads cs cs :=
  ⟨[], [], by simp, by simp [IsBlankText], by simp [IsBlankText]⟩

theorem Pads.trans {cs ds es : List Char} (h : Pads cs ds) (h' : Pads ds es) : Pads cs es := by
  obtain ⟨before, after, rfl, hbefore, hafter⟩ := h
  obtain ⟨before', after', rfl, hbefore', hafter'⟩ := h'
  exact ⟨before' ++ before, after ++ after', by simp,
    List.forall_mem_append.mpr ⟨hbefore', hbefore⟩, List.forall_mem_append.mpr ⟨hafter, hafter'⟩⟩

theorem Pads.isInfix {cs padded : List Char} (h : Pads cs padded) : cs <:+: padded := by
  obtain ⟨before, after, rfl, -, -⟩ := h
  exact List.infix_append before cs after

theorem trimStart_of_isBlankText {cs : List Char} (h : IsBlankText cs) : trimStart cs = [] :=
  List.dropWhile_eq_nil_iff.mpr h

theorem trimEnd_append_blank (cs : List Char) {after : List Char} (h : IsBlankText after) :
    trimEnd (cs ++ after) = trimEnd cs := by
  rw [trimEnd, trimEnd, List.reverse_append,
    List.dropWhile_append_of_pos fun c hc => h c (List.mem_reverse.mp hc)]

theorem trimChars_append_blank (cs : List Char) {after : List Char} (h : IsBlankText after) :
    trimChars (cs ++ after) = trimChars cs := by
  rw [trimChars, trimChars, trimStart, trimStart, List.dropWhile_append]
  split_ifs with hempty
  · rw [List.isEmpty_iff.mp hempty]
    exact congrArg trimEnd (trimStart_of_isBlankText h)
  · exact trimEnd_append_blank _ h

theorem Pads.trimChars_eq {cs padded : List Char} (h : Pads cs padded) :
    trimChars cs = trimChars padded := by
  obtain ⟨before, after, rfl, hbefore, hafter⟩ := h
  rw [trimChars_append_blank _ hafter, trimChars, trimChars, trimStart, trimStart,
    List.dropWhile_append_of_pos hbefore]

theorem pads_trimStart (cs : List Char) : Pads (trimStart cs) cs :=
  ⟨cs.takeWhile isBlank, [], by simp [trimStart], fun _ => List.mem_takeWhile_imp,
    by simp [IsBlankText]⟩

theorem exists_trimEnd_append (cs : List Char) :
    ∃ after, trimEnd cs ++ after = cs ∧ IsBlankText after := by
  refine ⟨(cs.reverse.takeWhile isBlank).reverse, ?_, fun c hc => ?_⟩
  · rw [trimEnd, ← List.reverse_append, List.takeWhile_append_dropWhile, List.reverse_reverse]
  · exact List.mem_takeWhile_imp (List.mem_reverse.mp hc)

theorem pads_trimEnd (cs : List Char) : Pads (trimEnd cs) cs := by
  obtain ⟨after, heq, hafter⟩ := exists_trimEnd_append cs
  exact ⟨[], after, heq.symm, by simp [IsBlankText], hafter⟩

theorem pads_trimChars (cs : List Char) : Pads (trimChars cs) cs :=
  (pads_trimEnd _).trans (pads_trimStart _)

theorem trimChars_trimChars (cs : List Char) : trimChars (trimChars cs) = trimChars cs :=
  (pads_trimChars cs).trimChars_eq

theorem trimChars_eq_self {cs : List Char} (hstart : ∀ c ∈ cs.head?, isBlank c = false)
    (hend : ∀ c ∈ cs.getLast?, isBlank c = false) : trimChars cs = cs := by
  have hdrop : ∀ part : List Char, (∀ c ∈ part.head?, isBlank c = false) →
      part.dropWhile isBlank = part := by
    intro part hpart
    cases part with
    | nil => rfl
    | cons c part => exact List.dropWhile_cons_of_neg (by simp [hpart c rfl])
  rw [trimChars, trimStart, hdrop cs hstart, trimEnd, hdrop cs.reverse, List.reverse_reverse]
  rwa [List.head?_reverse]

theorem trimChars_ne_nil {cs : List Char} {c : Char} (hc : c ∈ cs) (hblank : isBlank c = false) :
    trimChars cs ≠ [] := by
  intro hnil
  obtain ⟨before, after, hcs, hbefore, hafter⟩ := pads_trimChars cs
  rw [hnil, List.append_nil] at hcs
  have hall := List.forall_mem_append.mpr ⟨hbefore, hafter⟩ c (hcs ▸ hc)
  exact Bool.false_ne_true (hblank.symm.trans hall)

theorem not_isBlank_head?_trimChars (cs : List Char) :
    ∀ c ∈ (trimChars cs).head?, isBlank c = false := by
  intro c hc
  obtain ⟨after, heq, -⟩ := exists_trimEnd_append (trimStart cs)
  have hstart : (trimStart cs).head? = some c := by
    rw [← heq, List.head?_append]
    exact congrArg (·.or after.head?) hc
  have hhead := List.head?_dropWhile_not isBlank cs
  rwa [← trimStart, hstart] at hhead

theorem not_isBlank_getLast?_trimEnd (cs : List Char) :
    ∀ c ∈ (trimEnd cs).getLast?, isBlank c = false := by
  intro c hc
  rw [trimEnd, List.getLast?_reverse] at hc
  have hhead := List.head?_dropWhile_not isBlank cs.reverse
  rwa [Option.mem_def.mp hc] at hhead

theorem not_isBlank_getLast?_trimChars (cs : List Char) :
    ∀ c ∈ (trimChars cs).getLast?, isBlank c = false := not_isBlank_getLast?_trimEnd _

theorem trimChars_suffix {cs rest : List Char} (h : rest <:+ trimEnd cs) :
    trimChars rest <:+ trimEnd cs := by
  have hstart : trimStart rest <:+ trimEnd cs := (List.dropWhile_suffix _).trans h
  have hstarts : (trimStart rest).reverse <+: cs.reverse.dropWhile isBlank := by
    simpa [trimEnd] using List.reverse_prefix.mpr hstart
  have hsame : trimEnd (trimStart rest) = trimStart rest := by
    rw [trimEnd, List.dropWhile_eq_self_iff.mpr, List.reverse_reverse]
    intro hlength hblank
    rw [hstarts.getElem hlength] at hblank
    exact List.dropWhile_get_zero_not _ _ _ hblank
  rw [trimChars, hsame]
  exact hstart

theorem pads_dropReturn (line : List Char) : Pads (dropReturn line) line := by
  unfold dropReturn
  split_ifs with hreturn
  · refine ⟨[], ['\r'], ?_, by simp [IsBlankText], by simp [IsBlankText]; decide⟩
    exact (List.dropLast_append_getLast? '\r' hreturn).symm
  · exact .refl line

theorem infix_dropReturn {part line : List Char} (h : part <:+: line)
    (hreturn : part.getLast? ≠ some '\r') : part <:+: dropReturn line := by
  unfold dropReturn
  split_ifs with hlast
  · obtain ⟨before, after, rfl⟩ := h
    cases after using List.reverseRecOn with
    | nil =>
      rw [List.append_nil, List.getLast?_append, Option.or_eq_some_iff] at hlast
      obtain hend | ⟨hnone, -⟩ := hlast
      · exact absurd hend hreturn
      · rw [List.getLast?_eq_none_iff.mp hnone]
        exact List.nil_infix
    | append_singleton after c =>
      rw [← List.append_assoc, List.dropLast_concat]
      exact List.infix_append before part after
  · exact h

/-! ## Pieces -/

theorem cut_induction {α : Type} (p : α → Bool) {motive : List α → Prop}
    (last : ∀ xs, (∀ x ∈ xs, p x = false) → motive xs)
    (cut : ∀ piece x rest, (∀ y ∈ piece, p y = false) → p x = true → motive rest →
      motive (piece ++ x :: rest))
    (xs : List α) : motive xs := by
  induction hlength : xs.length using Nat.strongRecOn generalizing xs with
  | ind n ih =>
    cases hfind : xs.find? p with
    | none => exact last xs fun x hx => by simpa using List.find?_eq_none.mp hfind x hx
    | some x =>
      obtain ⟨hx, piece, rest, rfl, hpiece⟩ := List.find?_eq_some_iff_append.mp hfind
      simp only [List.length_append, List.length_cons] at hlength
      have hrest := ih rest.length (by omega) rest rfl
      exact cut piece x rest (fun y hy => by simpa using hpiece y hy) hx hrest

theorem infix_of_mem_splitOnP {α : Type} {p : α → Bool} {xs piece : List α}
    (h : piece ∈ xs.splitOnP p) : piece <:+: xs ∧ ∀ x ∈ piece, p x = false := by
  induction xs using cut_induction p with
  | last xs hxs =>
    rw [List.splitOnP_eq_singleton hxs, List.mem_singleton] at h
    subst h
    exact ⟨List.infix_refl piece, hxs⟩
  | cut first x rest hfirst hx ih =>
    rw [List.splitOnP_append_cons first rest hx, List.splitOnP_eq_singleton hfirst] at h
    rcases List.mem_cons.mp h with rfl | h
    · exact ⟨(List.prefix_append piece (x :: rest)).isInfix, hfirst⟩
    · obtain ⟨hpart, hpiece⟩ := ih h
      have hrest : rest <:+ first ++ x :: rest :=
        (List.suffix_cons x rest).trans (List.suffix_append first (x :: rest))
      exact ⟨hpart.trans hrest.isInfix, hpiece⟩

theorem length_splitOnP {α : Type} (p : α → Bool) (xs : List α) :
    (xs.splitOnP p).length = xs.countP p + 1 := by
  induction xs with
  | nil => simp
  | cons x xs ih =>
    rw [List.splitOnP_cons_eq_if_modifyHead, List.countP_cons]
    split_ifs
    · rw [List.length_cons, ih]
    · rw [List.length_modifyHead, ih]

theorem length_splitOn {α : Type} [BEq α] (sep : α) (xs : List α) :
    (xs.splitOn sep).length = xs.count sep + 1 :=
  length_splitOnP (· == sep) xs

/-- The pieces of a text between line feeds. -/
def pieces (cs : List Char) : List (List Char) := cs.splitOn '\n'

theorem pieces_ne_nil (cs : List Char) : pieces cs ≠ [] := List.splitOnP_ne_nil _ _

theorem mem_of_mem_pieces {cs piece : List Char} (h : piece ∈ pieces cs) {c : Char}
    (hc : c ∈ piece) : c ∈ cs :=
  (infix_of_mem_splitOnP h).1.subset hc

theorem feed_notMem_of_mem_pieces {cs piece : List Char} (h : piece ∈ pieces cs) :
    '\n' ∉ piece := fun hfeed => by
  simpa using (infix_of_mem_splitOnP h).2 '\n' hfeed

theorem pieces_joinLines {ls : List (List Char)} (hfeed : ∀ l ∈ ls, '\n' ∉ l) (hne : ls ≠ []) :
    pieces (joinLines ls) = ls :=
  List.splitOn_intercalate '\n' hfeed hne

theorem pieces_of_feed_notMem {cs : List Char} (h : '\n' ∉ cs) : pieces cs = [cs] :=
  List.splitOnP_eq_singleton fun c hc => by simpa using ne_of_mem_of_not_mem hc h

theorem pieces_cons (c : Char) (cs : List Char) :
    pieces (c :: cs) = if c = '\n' then [] :: pieces cs else (pieces cs).modifyHead (c :: ·) := by
  rw [pieces, List.splitOn, List.splitOnP_cons_eq_if_modifyHead]
  simp only [beq_iff_eq]
  rfl

/-- The last piece of a text goes on as the first one of the text after it. -/
theorem pieces_append (a b : List Char) :
    ∃ init last first rest, init.length = a.count '\n' ∧ pieces a = init ++ [last] ∧
      pieces b = first :: rest ∧ pieces (a ++ b) = init ++ (last ++ first) :: rest := by
  induction a with
  | nil =>
    obtain ⟨first, rest, hb⟩ := List.exists_cons_of_ne_nil (pieces_ne_nil b)
    exact ⟨[], [], first, rest, rfl, rfl, hb, hb⟩
  | cons c a ih =>
    obtain ⟨init, last, first, rest, hcount, ha, hb, hab⟩ := ih
    rw [List.cons_append, pieces_cons, pieces_cons, ha, hab, List.count_cons]
    by_cases hc : c = '\n'
    · exact ⟨[] :: init, last, first, rest, by simp [hc, hcount], by simp [hc], hb, by simp [hc]⟩
    · have hsame : (c == '\n') = false := by simpa using hc
      cases init with
      | nil => exact ⟨[], c :: last, first, rest, by simpa [hsame] using hcount, by simp [hc], hb,
          by simp [hc]⟩
      | cons piece init => exact ⟨(c :: piece) :: init, last, first, rest,
          by simpa [hsame] using hcount, by simp [hc], hb, by simp [hc]⟩

theorem exists_piece_of_trimmed {cs : List Char} (h : trimChars cs ≠ []) :
    ∃ piece c, (pieces (trimChars cs))[0]? = some piece ∧ c ∈ piece ∧ isBlank c = false := by
  obtain ⟨c, rest, heq⟩ := List.exists_cons_of_ne_nil h
  obtain ⟨first, later, hpieces⟩ := List.exists_cons_of_ne_nil (pieces_ne_nil rest)
  have hstarts : trimChars cs <+: trimStart cs := by
    have hreverse := List.dropWhile_suffix (p := isBlank) (l := (trimStart cs).reverse)
    simpa [trimChars, trimEnd] using List.reverse_prefix.mpr hreverse
  have hblank : isBlank c = false := by
    obtain ⟨lost, hlost⟩ := heq ▸ hstarts
    have hstart : cs.dropWhile isBlank = c :: (rest ++ lost) := hlost.symm
    have hhead := List.head?_dropWhile_not isBlank cs
    rwa [hstart] at hhead
  have hfeed : c ≠ '\n' := by
    rintro rfl
    exact absurd hblank (by decide)
  refine ⟨c :: first, c, ?_, List.mem_cons_self, hblank⟩
  rw [heq, pieces_cons, if_neg hfeed, hpieces]
  rfl

theorem length_pieces (cs : List Char) : (pieces cs).length = cs.count '\n' + 1 :=
  length_splitOn '\n' cs

theorem getElem?_pieces_of_lt (a b : List Char) {k : Nat} (h : k < a.count '\n') :
    (pieces (a ++ b))[k]? = (pieces a)[k]? := by
  obtain ⟨init, last, first, rest, hcount, ha, -, hab⟩ := pieces_append a b
  rw [hab, ha, List.getElem?_append_left (hcount ▸ h), List.getElem?_append_left (hcount ▸ h)]

theorem getElem?_pieces_right (a : List Char) {b piece : List Char} {k : Nat}
    (h : (pieces b)[k]? = some piece) :
    ∃ lost, (∀ c ∈ lost, c ∈ a) ∧ (pieces (a ++ b))[a.count '\n' + k]? = some (lost ++ piece) := by
  obtain ⟨init, last, first, rest, hcount, ha, hb, hab⟩ := pieces_append a b
  rw [hab, ← hcount, List.getElem?_append_right (Nat.le_add_right _ _), Nat.add_sub_cancel_left]
  rw [hb] at h
  cases k with
  | zero =>
    obtain rfl := Option.some.inj h
    exact ⟨last, fun c => mem_of_mem_pieces (ha ▸ by simp), rfl⟩
  | succ k => exact ⟨[], by simp, h⟩

theorem getElem?_pieces_left (b : List Char) {a piece : List Char} {k : Nat}
    (h : (pieces a)[k]? = some piece) :
    ∃ lost, (∀ c ∈ lost, c ∈ b) ∧ (pieces (a ++ b))[k]? = some (piece ++ lost) := by
  obtain ⟨init, last, first, rest, hcount, ha, hb, hab⟩ := pieces_append a b
  rcases Nat.lt_or_ge k (a.count '\n') with hlt | hge
  · exact ⟨[], by simp, by rw [getElem?_pieces_of_lt a b hlt, h, List.append_nil]⟩
  · have hlast : k = init.length := by
      have hlength := (List.getElem?_eq_some_iff.mp h).1
      rw [length_pieces] at hlength
      omega
    subst hlast
    rw [ha, List.getElem?_concat_length] at h
    obtain rfl := Option.some.inj h
    exact ⟨first, fun c => mem_of_mem_pieces (hb ▸ by simp), by rw [hab]; simp⟩

theorem getElem?_pieces_middle (a c : List Char) {b piece : List Char} {k : Nat}
    (h : (pieces b)[k]? = some piece) :
    ∃ lost lost', (∀ x ∈ lost, x ∈ a) ∧ (∀ x ∈ lost', x ∈ c) ∧
      (pieces (a ++ b ++ c))[a.count '\n' + k]? = some (lost ++ piece ++ lost') := by
  obtain ⟨lost, hlost, hab⟩ := getElem?_pieces_right a h
  obtain ⟨lost', hlost', habc⟩ := getElem?_pieces_left c hab
  exact ⟨lost, lost', hlost, hlost', habc⟩

/-! ## Lines -/

theorem getElem?_linesOfPieces {ps : List (List Char)} {k : Nat} {line : List Char}
    (h : (linesOfPieces ps)[k]? = some line) :
    ∃ piece, ps[k]? = some piece ∧ (line = piece ∨ line = dropReturn piece) := by
  fun_induction linesOfPieces ps generalizing k with
  | case1 => simp at h
  | case2 last hempty => simp at h
  | case3 last hempty =>
    obtain ⟨rfl, rfl⟩ : k = 0 ∧ last = line := by simpa [List.getElem?_cons] using h
    exact ⟨last, rfl, .inl rfl⟩
  | case4 piece ps hps ih =>
    cases k with
    | zero => exact ⟨piece, rfl, .inr (Option.some.inj h).symm⟩
    | succ k => exact ih h

theorem getElem?_lines {cs : List Char} {k : Nat} {line : List Char}
    (h : (lines cs)[k]? = some line) :
    ∃ piece, (pieces cs)[k]? = some piece ∧ (line = piece ∨ line = dropReturn piece) :=
  getElem?_linesOfPieces h

theorem exists_line_of_piece {ps : List (List Char)} {k : Nat} {piece : List Char}
    (h : ps[k]? = some piece) (hne : piece ≠ []) :
    ∃ line, (linesOfPieces ps)[k]? = some line ∧ (line = piece ∨ line = dropReturn piece) := by
  fun_induction linesOfPieces ps generalizing k with
  | case1 => simp at h
  | case2 last hempty =>
    obtain ⟨rfl, rfl⟩ : k = 0 ∧ last = piece := by simpa [List.getElem?_cons] using h
    exact absurd (List.isEmpty_iff.mp hempty) hne
  | case3 last hempty => exact ⟨piece, h, .inl rfl⟩
  | case4 first ps hps ih =>
    cases k with
    | zero =>
      obtain rfl := Option.some.inj h
      exact ⟨_, rfl, .inr rfl⟩
    | succ k => exact ih h

theorem feed_notMem_of_mem_lines {cs line : List Char} (h : line ∈ lines cs) : '\n' ∉ line := by
  obtain ⟨k, hk⟩ := List.mem_iff_getElem?.mp h
  obtain ⟨piece, hpiece, rfl | rfl⟩ := getElem?_lines hk
  · exact feed_notMem_of_mem_pieces (List.mem_of_getElem? hpiece)
  · exact fun hfeed => feed_notMem_of_mem_pieces (List.mem_of_getElem? hpiece)
      ((pads_dropReturn piece).isInfix.subset hfeed)

theorem length_le_of_mem_lines {cs line : List Char} (h : line ∈ lines cs) :
    line.length ≤ cs.length := by
  obtain ⟨k, hk⟩ := List.mem_iff_getElem?.mp h
  obtain ⟨piece, hpiece, hcut⟩ := getElem?_lines hk
  have hpart : piece <:+: cs := (infix_of_mem_splitOnP (List.mem_of_getElem? hpiece)).1
  rcases hcut with rfl | rfl
  · exact hpart.length_le
  · exact ((pads_dropReturn piece).isInfix.trans hpart).length_le

theorem length_linesOfPieces_le (ps : List (List Char)) :
    (linesOfPieces ps).length ≤ ps.length := by
  fun_induction linesOfPieces ps with
  | case1 => exact Nat.le_refl 0
  | case2 last hempty => exact Nat.zero_le 1
  | case3 last hempty => exact Nat.le_refl 1
  | case4 piece ps hps ih => exact Nat.succ_le_succ ih

theorem length_lines_le (cs : List Char) : (lines cs).length ≤ cs.length + 1 :=
  calc (lines cs).length
    _ ≤ (pieces cs).length := length_linesOfPieces_le (pieces cs)
    _ = cs.count '\n' + 1 := length_pieces cs
    _ ≤ cs.length + 1 := Nat.succ_le_succ List.count_le_length

theorem line_induction {motive : List Char → Prop} (last : ∀ cs, '\n' ∉ cs → motive cs)
    (feed : ∀ line rest, '\n' ∉ line → motive rest → motive (line ++ '\n' :: rest))
    (cs : List Char) : motive cs := by
  refine cut_induction (· == '\n') (fun cs hcs => last cs fun hfeed => ?_) ?_ cs
  · simpa using hcs '\n' hfeed
  · intro line x rest hline hx hrest
    obtain rfl : x = '\n' := by simpa using hx
    exact feed line rest (fun hfeed => by simpa using hline '\n' hfeed) hrest

theorem lines_append_feed {line : List Char} (h : '\n' ∉ line) (rest : List Char) :
    lines (line ++ '\n' :: rest) = dropReturn line :: lines rest := by
  have hpieces : pieces (line ++ '\n' :: rest) = line :: pieces rest := by
    rw [pieces, List.splitOn, List.splitOnP_append_cons line rest (by simp)]
    exact congrArg (· ++ pieces rest) (pieces_of_feed_notMem h)
  obtain ⟨first, others, hrest⟩ := List.exists_cons_of_ne_nil (pieces_ne_nil rest)
  rw [lines, lines, ← pieces, ← pieces, hpieces, hrest, linesOfPieces]
  simp

/-- Behind a text that is empty or ends its last line, the lines of another one follow. -/
theorem lines_append {cs : List Char} (h : cs = [] ∨ cs.getLast? = some '\n') (ds : List Char) :
    lines (cs ++ ds) = lines cs ++ lines ds := by
  induction cs using line_induction with
  | last cs hfeed =>
    obtain rfl | hlast := h
    · rfl
    · exact absurd (List.mem_of_getLast? hlast) hfeed
  | feed line rest hfeed ih =>
    have hrest : rest = [] ∨ rest.getLast? = some '\n' := by
      cases rest with
      | nil => exact .inl rfl
      | cons c rest => simpa [List.getLast?_cons_cons] using h
    rw [List.append_assoc, List.cons_append, lines_append_feed hfeed, lines_append_feed hfeed,
      ih hrest, List.cons_append]

end ContractAnalysis.Text
