import ContractAnalysis.Json.Reader
import ContractAnalysis.Json.Value
import Mathlib.Data.List.Basic

/-!
# Texts in quotation marks

What the printer writes for a text is read back as that text, whatever follows the closing quotation
mark (`readString_escaped`). A character is written as itself, as a short escape, or as an escaped
unit of 16 bits. The reader gives one piece for it either way, and joins the pieces afterwards; an
escaped unit never forms a pair with the piece after it, as only control characters are escaped so.
-/

namespace ContractAnalysis.Json

/-- The inside of a text in quotation marks. -/
def escaped (s : String) : List Char := s.toList.flatMap escapeChar

theorem toList_quote (s : String) : (quote s).toList = '"' :: (escaped s ++ ['"']) := by
  simp [quote, escaped]

/-- A piece stands for a character: as itself, or as a unit that is a control character. -/
inductive Stands : TextPiece → Char → Prop
  | char (c : Char) : Stands (.char c) c
  | unit (c : Char) (h : c.toNat < 32) : Stands (.unit c.toNat) c

/-! ## Pieces -/

theorem readPieces_plain {c : Char} (hquote : c ≠ '"') (hslash : c ≠ '\\') (hlow : 32 ≤ c.toNat)
    (done : List TextPiece) (rest : List Char) :
    readPieces done (c :: rest) = readPieces (.char c :: done) rest := by
  rw [readPieces.eq_def]
  split
  · contradiction
  · next heq => exact absurd (List.cons.inj heq).1 hquote
  · next heq => exact absurd (List.cons.inj heq).1 hslash
  · next heq => exact absurd (List.cons.inj heq).1 hslash
  · next heq =>
    obtain ⟨rfl, rfl⟩ := List.cons.inj heq
    refine if_neg ?_
    rintro (hcontrol | hsame)
    · omega
    · exact hslash hsame

theorem readPieces_short {e c : Char} (hunit : e ≠ 'u') (he : escaped? e = some c)
    (done : List TextPiece) (rest : List Char) :
    readPieces done ('\\' :: e :: rest) = readPieces (.char c :: done) rest := by
  rw [readPieces.eq_def]
  split
  · contradiction
  · next heq => simp at heq
  · next heq => exact absurd (List.cons.inj (List.cons.inj heq).2).1 hunit
  · next heq =>
    obtain ⟨rfl, rfl⟩ : e = _ ∧ rest = _ := by simpa using heq
    rw [he]
  · next hnone heq =>
    obtain ⟨rfl, rfl⟩ := List.cons.inj heq
    exact absurd rfl (hnone e rest rfl)

theorem unitValue?_hexDigit :
    ∀ n < 32, unitValue? '0' '0' (hexDigit (n / 16)) (hexDigit (n % 16)) = some n := by
  decide

theorem readPieces_unit {n : Nat} (h : n < 32) (done : List TextPiece) (rest : List Char) :
    readPieces done ('\\' :: 'u' :: '0' :: '0' :: hexDigit (n / 16) :: hexDigit (n % 16) :: rest) =
      readPieces (.unit n :: done) rest := by
  rw [readPieces, unitValue?_hexDigit n h]

theorem exists_readPieces_escapeChar (c : Char) (done : List TextPiece) (rest : List Char) :
    ∃ piece, Stands piece c ∧
      readPieces done (escapeChar c ++ rest) = readPieces (piece :: done) rest := by
  have hshort : ∀ e, e ≠ 'u' → escaped? e = some c → ∃ piece, Stands piece c ∧
      readPieces done ('\\' :: e :: rest) = readPieces (piece :: done) rest :=
    fun e hunit he => ⟨_, .char c, readPieces_short hunit he done rest⟩
  have hcode : ∀ n, c.toNat = n → some (Char.ofNat n) = some c :=
    fun n h => h ▸ congrArg some (Char.ofNat_toNat c)
  unfold escapeChar
  split_ifs with hquote hslash hback htab hfeed hform hreturn hcontrol
  · exact hshort '"' (by decide) (by rw [hquote]; rfl)
  · exact hshort '\\' (by decide) (by rw [hslash]; rfl)
  · exact hshort 'b' (by decide) (hcode 8 hback)
  · exact hshort 't' (by decide) (by rw [htab]; rfl)
  · exact hshort 'n' (by decide) (by rw [hfeed]; rfl)
  · exact hshort 'f' (by decide) (hcode 12 hform)
  · exact hshort 'r' (by decide) (by rw [hreturn]; rfl)
  · exact ⟨_, .unit c hcontrol, readPieces_unit hcontrol done rest⟩
  · exact ⟨_, .char c, readPieces_plain hquote hslash (by omega) done rest⟩

theorem exists_readPieces_escaped (cs : List Char) (done : List TextPiece) (rest : List Char) :
    ∃ pieces, List.Forall₂ Stands pieces cs ∧
      readPieces done (cs.flatMap escapeChar ++ '"' :: rest) =
        some (done.reverse ++ pieces, rest) := by
  induction cs generalizing done with
  | nil => exact ⟨[], .nil, by simp [readPieces]⟩
  | cons c cs ih =>
    obtain ⟨piece, hpiece, hread⟩ :=
      exists_readPieces_escapeChar c done (cs.flatMap escapeChar ++ '"' :: rest)
    obtain ⟨pieces, hpieces, hrest⟩ := ih (piece :: done)
    refine ⟨piece :: pieces, .cons hpiece hpieces, ?_⟩
    rw [List.flatMap_cons, List.append_assoc, hread, hrest, List.reverse_cons, List.append_assoc,
      List.singleton_append]

/-! ## Characters -/

theorem joinPieces_unit {n : Nat} (h : n < 32) (done : List Char) (rest : List TextPiece) :
    joinPieces done (.unit n :: rest) = joinPieces (Char.ofNat n :: done) rest := by
  have hhigh : isHighUnit n = false := by
    simp only [isHighUnit, Bool.and_eq_false_iff, decide_eq_false_iff_not]
    omega
  have hlow : isLowUnit n = false := by
    simp only [isLowUnit, Bool.and_eq_false_iff, decide_eq_false_iff_not]
    omega
  rcases rest with _ | ⟨_ | _, rest⟩ <;> simp [joinPieces, hhigh, hlow]

theorem joinPieces_of_stands {pieces : List TextPiece} {cs : List Char}
    (h : List.Forall₂ Stands pieces cs) (done : List Char) :
    joinPieces done pieces = some (done.reverse ++ cs) := by
  induction h generalizing done with
  | nil => simp [joinPieces]
  | @cons piece c pieces cs hpiece _ ih =>
    have hstep : joinPieces done (piece :: pieces) = joinPieces (c :: done) pieces := by
      cases hpiece with
      | char => rw [joinPieces]
      | unit _ hlow => rw [joinPieces_unit hlow, Char.ofNat_toNat]
    rw [hstep, ih, List.reverse_cons, List.append_assoc, List.singleton_append]

/-- A text that is written is read back. -/
theorem readString_escaped (s : String) (rest : List Char) :
    readString (escaped s ++ '"' :: rest) = some (some s, rest) := by
  obtain ⟨pieces, hpieces, hread⟩ := exists_readPieces_escaped s.toList [] rest
  have hjoin : joinPieces [] pieces = some s.toList := joinPieces_of_stands hpieces []
  simp only [readString, escaped, hread, List.reverse_nil, List.nil_append, Option.map_some, hjoin,
    String.ofList_toList]

end ContractAnalysis.Json
