import ContractAnalysis.FactRule
import ContractAnalysis.Outline
import Mathlib.Data.List.Nodup

/-!
# Numbered ids

An id such as `clause_3` or `obl_1` is a label, an underscore and a decimal numeral. As no label has
an underscore and a number can be read off its numeral, an id says which label and which number it
is made from (`labeledId_inj`), so that no two clauses or facts share one. The clauses of a text are
numbered from 1 on, be they sections or paragraphs (`map_id_clausesOf`).
-/

namespace ContractAnalysis

/-! ## Labels and numerals -/

theorem toString_injective : Function.Injective (toString : Nat → String) := by
  intro m n h
  have hdigits : Nat.toDigits 10 m = Nat.toDigits 10 n := by
    simpa only [Nat.toString_eq_repr, Nat.toList_repr] using congrArg String.toList h
  simpa using congrArg (Nat.ofDigitChars 10 · 0) hdigits

theorem isDigit_of_mem_toString {n : Nat} {c : Char} (h : c ∈ (toString n).toList) :
    c.isDigit = true := by
  rw [Nat.toString_eq_repr, Nat.toList_repr] at h
  exact Nat.isDigit_of_mem_toDigits (by decide) (by decide) h

theorem underscore_notMem_toString (n : Nat) : '_' ∉ (toString n).toList := fun h => by
  simpa using isDigit_of_mem_toString h

theorem labeledId_inj {label label' : String} (h : '_' ∉ label.toList) (h' : '_' ∉ label'.toList)
    {m n : Nat} :
    label ++ "_" ++ toString m = label' ++ "_" ++ toString n ↔ label = label' ∧ m = n := by
  constructor
  · intro heq
    have hchars : label.toList ++ '_' :: (toString m).toList =
        label'.toList ++ '_' :: (toString n).toList := by
      simpa using congrArg String.toList heq
    obtain ⟨hlabel, -, hnumeral⟩ :=
      (List.append_cons_inj_of_notMem h (underscore_notMem_toString m)).mp hchars
    exact ⟨String.toList_injective hlabel, toString_injective (String.toList_injective hnumeral)⟩
  · rintro ⟨rfl, rfl⟩
    rfl

/-! ## The ids of facts -/

namespace FactCategory

theorem stem_injective : Function.Injective stem := by
  intro c c' h
  cases c <;> cases c' <;> first | rfl | exact absurd h (by decide)

theorem underscore_notMem_stem (category : FactCategory) : '_' ∉ category.stem.toList := by
  cases category <;> decide

theorem factId_inj {c c' : FactCategory} {m n : Nat} :
    c.factId m = c'.factId n ↔ c = c' ∧ m = n := by
  rw [factId, factId, labeledId_inj c.underscore_notMem_stem c'.underscore_notMem_stem,
    stem_injective.eq_iff]

end FactCategory

/-! ## The ids of clauses -/

theorem underscore_notMem_clause : '_' ∉ "clause".toList := by decide

theorem clauseId_eq (n : Nat) : clauseId n = "clause" ++ "_" ++ toString n := rfl

theorem clauseId_injective : Function.Injective clauseId := fun _ _ h =>
  ((labeledId_inj underscore_notMem_clause underscore_notMem_clause).mp h).2

theorem clauseId_ne_factId (m : Nat) (category : FactCategory) (n : Nat) :
    clauseId m ≠ category.factId n := by
  intro h
  rw [clauseId_eq, FactCategory.factId,
    labeledId_inj underscore_notMem_clause category.underscore_notMem_stem] at h
  have hstem : "clause" ≠ category.stem := by cases category <;> decide
  exact hstem h.1

theorem map_id_clausesOfSections (n : Nat) (open' : List Ancestor) (sections : List Section) :
    (clausesOfSections n open' sections).map Clause.id =
      (List.range' n sections.length).map clauseId := by
  induction sections generalizing n open' with
  | nil => rfl
  | cons s rest ih =>
    rw [clausesOfSections, List.map_cons, ih, List.length_cons, List.range'_succ, List.map_cons]
    rfl

theorem map_id_clausesOfParagraphs (ps : List (List NumberedLine)) :
    (ps.zipIdx.map fun (p, i) => clauseOfParagraph (i + 1) p).map Clause.id =
      (List.range' 1 ps.length).map clauseId := by
  rw [List.map_map, ← List.zipIdx_map_snd 1 ps, List.zipIdx_succ, List.map_map, List.map_map]
  rfl

theorem map_id_clausesOf (text : String) :
    (clausesOf text).map Clause.id = (List.range' 1 (clausesOf text).length).map clauseId := by
  -- A list of ids that is numbered from 1 on is as long as the list of clauses.
  suffices h : ∃ n, (clausesOf text).map Clause.id = (List.range' 1 n).map clauseId by
    obtain ⟨n, hn⟩ := h
    have hlength : (clausesOf text).length = n := by simpa using congrArg List.length hn
    rw [hn, hlength]
  unfold clausesOf
  dsimp only
  split
  · exact ⟨_, map_id_clausesOfParagraphs _⟩
  · exact ⟨_, map_id_clausesOfSections 1 [] _⟩

theorem id_of_getElem?_clausesOf {text : String} {i : Nat} {clause : Clause}
    (h : (clausesOf text)[i]? = some clause) : clause.id = clauseId (i + 1) := by
  have hlt := (List.getElem?_eq_some_iff.mp h).1
  have hids := congrArg (fun ids : List String => ids[i]?) (map_id_clausesOf text)
  simp only [List.getElem?_map, h, Option.map_some, List.getElem?_range' hlt, Nat.one_mul,
    Nat.add_comm 1] at hids
  exact Option.some.inj hids

theorem nodup_map_range' {id : Nat → String} (h : Function.Injective id) (start length : Nat) :
    ((List.range' start length).map id).Nodup := by
  have hnumbers : (List.range' start length).Nodup := List.nodup_range'
  exact hnumbers.map h

end ContractAnalysis
