import ContractAnalysis.Text.Basic
import Mathlib.Data.List.Induction

/-!
# The words of a text

The words of a text are its maximal runs of word characters. All that is said of them follows from
one equation: a character that makes up no words divides the words of a text into those before it
and those behind it (`words_append_cons`). A run of word characters is a word exactly where no word
character stands before it or behind it (`mem_words_iff`), and the words of several lines are those
of one line after the other (`words_joinLines`).
-/

namespace ContractAnalysis.Text

/-- The maximal runs of word characters. -/
def words (cs : List Char) : List (List Char) :=
  (cs.splitOnP fun c => !isWord c).filter fun piece => !piece.isEmpty

/-- If there is a character it makes up no words. -/
def IsBoundary (neighbour : Option Char) : Prop := ∀ c ∈ neighbour, isWord c = false

instance : (neighbour : Option Char) → Decidable (IsBoundary neighbour)
  | none => .isTrue (by simp [IsBoundary])
  | some c => decidable_of_iff (isWord c = false) (by simp [IsBoundary])

theorem words_append_cons {c : Char} (h : isWord c = false) (a b : List Char) :
    words (a ++ c :: b) = words a ++ words b := by
  rw [words, List.splitOnP_append_cons a b (by simpa using h), List.filter_append]
  rfl

theorem words_cons {c : Char} (h : isWord c = false) (cs : List Char) :
    words (c :: cs) = words cs := by
  have hempty : words [] = [] := by simp [words]
  simpa [hempty] using words_append_cons h [] cs

theorem words_of_isWord {cs : List Char} (hne : cs ≠ []) (h : ∀ c ∈ cs, isWord c = true) :
    words cs = [cs] := by
  rw [words, List.splitOnP_eq_singleton fun c hc => by simpa using h c hc]
  simp [hne]

theorem eq_or_exists_divide (cs : List Char) :
    (∀ c ∈ cs, isWord c = true) ∨ ∃ word c rest, cs = word ++ c :: rest ∧
      (∀ x ∈ word, isWord x = true) ∧ isWord c = false := by
  induction cs with
  | nil => exact .inl (by simp)
  | cons c cs ih =>
    cases hc : isWord c with
    | false => exact .inr ⟨[], c, cs, rfl, by simp, hc⟩
    | true =>
      refine ih.imp (fun hall => List.forall_mem_cons.mpr ⟨hc, hall⟩) ?_
      rintro ⟨word, d, rest, rfl, hword, hd⟩
      exact ⟨c :: word, d, rest, rfl, List.forall_mem_cons.mpr ⟨hc, hword⟩, hd⟩

theorem words_append_left {a : List Char} (h : IsBoundary a.getLast?) (b : List Char) :
    words (a ++ b) = words a ++ words b := by
  have hempty : words [] = [] := by simp [words]
  cases a using List.reverseRecOn with
  | nil => rw [hempty, List.nil_append, List.nil_append]
  | append_singleton a c =>
    have hc : isWord c = false := h c (by simp)
    rw [List.append_assoc, List.singleton_append, words_append_cons hc, words_append_cons hc,
      hempty, List.append_nil]

theorem words_append_right (a : List Char) {b : List Char} (h : IsBoundary b.head?) :
    words (a ++ b) = words a ++ words b := by
  cases b with
  | nil => simp [words]
  | cons c b =>
    have hc : isWord c = false := h c (by simp)
    rw [words_append_cons hc, words_cons hc]

theorem words_skip {gap : List Char} (h : ∀ c ∈ gap, isWord c = false) (cs : List Char) :
    words (gap ++ cs) = words cs := by
  induction gap with
  | nil => rfl
  | cons c gap ih =>
    obtain ⟨hc, hrest⟩ := List.forall_mem_cons.mp h
    rw [List.cons_append, words_cons hc, ih hrest]

/-- Characters between two texts that make up no words keep the words of both apart. -/
theorem words_append_gap {gap : List Char} (hne : gap ≠ []) (h : ∀ c ∈ gap, isWord c = false)
    (a b : List Char) : words (a ++ gap ++ b) = words a ++ words b := by
  obtain ⟨c, gap, rfl⟩ := List.exists_cons_of_ne_nil hne
  obtain ⟨hc, hrest⟩ := List.forall_mem_cons.mp h
  rw [List.append_assoc, List.cons_append, words_append_cons hc, words_skip hrest]

theorem words_joinLines (ls : List (List Char)) : words (joinLines ls) = ls.flatMap words := by
  have hfeed : ∀ c ∈ ['\n'], isWord c = false := List.forall_mem_singleton.mpr (by decide +kernel)
  induction ls with
  | nil => simp [joinLines, words]
  | cons l ls ih =>
    cases ls with
    | nil => simp [joinLines]
    | cons l' ls =>
      have hjoined : joinLines (l :: l' :: ls) = l ++ ['\n'] ++ joinLines (l' :: ls) :=
        List.intercalate_cons_cons
      rw [List.flatMap_cons, ← ih, hjoined, words_append_gap (List.cons_ne_nil _ _) hfeed]

theorem eq_of_mem_words {cs word : List Char} (h : ∀ c ∈ cs, isWord c = true)
    (hword : word ∈ words cs) : word = cs := by
  have hne : cs ≠ [] := by
    rintro rfl
    simp [words] at hword
  simpa [words_of_isWord hne h] using hword

theorem exists_place_of_mem_words {cs word : List Char} (h : word ∈ words cs) :
    (∀ c ∈ word, isWord c = true) ∧ ∃ before after, cs = before ++ word ++ after ∧
      IsBoundary before.getLast? ∧ IsBoundary after.head? := by
  induction hlength : cs.length using Nat.strongRecOn generalizing cs with
  | ind n ih =>
    rcases eq_or_exists_divide cs with hall | ⟨first, c, rest, rfl, hfirst, hc⟩
    · obtain rfl := eq_of_mem_words hall h
      exact ⟨hall, [], [], by simp, by simp [IsBoundary], by simp [IsBoundary]⟩
    · rw [words_append_cons hc, List.mem_append] at h
      rcases h with h | h
      · obtain rfl := eq_of_mem_words hfirst h
        exact ⟨hfirst, [], c :: rest, by simp, by simp [IsBoundary], by simp [IsBoundary, hc]⟩
      · simp only [List.length_append, List.length_cons] at hlength
        obtain ⟨hword, before, after, rfl, hbefore, hafter⟩ := ih rest.length (by omega) h rfl
        refine ⟨hword, first ++ c :: before, after, by simp, ?_, hafter⟩
        rw [List.getLast?_append, List.getLast?_cons]
        cases hlast : before.getLast? with
        | none => simp [IsBoundary, hc]
        | some d => simpa [IsBoundary] using hbefore d hlast

/-- The words of a text are its runs of word characters that cannot be made longer. -/
theorem mem_words_iff {cs word : List Char} :
    word ∈ words cs ↔ word ≠ [] ∧ (∀ c ∈ word, isWord c = true) ∧
      ∃ before after, cs = before ++ word ++ after ∧
        IsBoundary before.getLast? ∧ IsBoundary after.head? := by
  constructor
  · intro h
    exact ⟨by simpa using (List.mem_filter.mp h).2, exists_place_of_mem_words h⟩
  · rintro ⟨hne, hword, before, after, rfl, hbefore, hafter⟩
    rw [words_append_right _ hafter, words_append_left hbefore, words_of_isWord hne hword]
    simp

end ContractAnalysis.Text
