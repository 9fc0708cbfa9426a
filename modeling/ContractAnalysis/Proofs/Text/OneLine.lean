import ContractAnalysis.Proofs.Text.Lines
import ContractAnalysis.Proofs.Text.Search
import Mathlib.Data.Nat.Digits.Defs

/-!
# Texts on one line

Most ways of making a text of others add no line feed (`IsOneLine`). So texts on one line each, put
under each other, are the lines of the whole text, if the last of them is not empty
(`length_lines_joined`).
-/

namespace ContractAnalysis.Text

/-- No line feed is in a text. -/
def IsOneLine (s : String) : Prop := '\n' ∉ s.toList

instance (s : String) : Decidable (IsOneLine s) := inferInstanceAs (Decidable ('\n' ∉ s.toList))

@[simp]
theorem isOneLine_append {s t : String} : IsOneLine (s ++ t) ↔ IsOneLine s ∧ IsOneLine t := by
  simp [IsOneLine]

@[simp]
theorem isOneLine_repr (n : Nat) : IsOneLine n.repr := by
  intro hfeed
  rw [Nat.toList_repr] at hfeed
  exact absurd (Nat.isDigit_of_mem_toDigits (by decide) (by decide) hfeed) (by decide)

theorem IsOneLine.intercalate {sep : String} (hsep : IsOneLine sep) {parts : List String}
    (h : ∀ part ∈ parts, IsOneLine part) : IsOneLine (sep.intercalate parts) := by
  induction parts with
  | nil => simp [IsOneLine]
  | cons part parts ih =>
    obtain ⟨hpart, hrest⟩ := List.forall_mem_cons.mp h
    cases parts with
    | nil => simpa using hpart
    | cons next parts =>
      rw [String.intercalate_cons_cons, isOneLine_append, isOneLine_append]
      exact ⟨⟨hpart, hsep⟩, ih hrest⟩

theorem IsOneLine.trim {s : String} (h : IsOneLine s) : IsOneLine (trim s) := by
  rw [IsOneLine, Text.trim, String.toList_ofList]
  exact fun hfeed => h ((pads_trimChars _).isInfix.subset hfeed)

theorem IsOneLine.lowercase {s : String} (h : IsOneLine s) : IsOneLine (lowercase s) := by
  rw [IsOneLine, Text.lowercase, String.toList_ofList]
  exact fun hfeed => h (mem_of_mem_lowercaseChars hfeed (by decide))

/-! ## Lines put under each other -/

theorem length_linesOfPieces {ps : List (List Char)} (h : ∀ last ∈ ps.getLast?, last ≠ []) :
    (linesOfPieces ps).length = ps.length := by
  fun_induction linesOfPieces ps with
  | case1 => rfl
  | case2 last hempty => exact absurd (List.isEmpty_iff.mp hempty) (h last rfl)
  | case3 last hempty => rfl
  | case4 piece ps hps ih =>
    obtain ⟨next, rest, rfl⟩ := List.exists_cons_of_ne_nil hps
    rw [List.length_cons, List.length_cons, ih (by simpa [List.getLast?_cons_cons] using h)]

theorem length_lines_joined {parts : List String} (h : ∀ part ∈ parts, IsOneLine part)
    {last : String} (hlast : parts.getLast? = some last) (hne : last ≠ "") :
    (lines ("\n".intercalate parts).toList).length = parts.length := by
  have hnonempty : parts.map String.toList ≠ [] := by
    rintro hnil
    simp [List.map_eq_nil_iff.mp hnil] at hlast
  have hpieces : pieces ("\n".intercalate parts).toList = parts.map String.toList := by
    rw [String.toList_intercalate]
    exact pieces_joinLines (List.forall_mem_map.mpr h) hnonempty
  rw [lines, ← pieces, hpieces, length_linesOfPieces, List.length_map]
  simpa [List.getLast?_map, hlast] using hne

end ContractAnalysis.Text
