import ContractAnalysis.Json.Reader
import ContractAnalysis.Json.Value
import ContractAnalysis.Proofs.Text.Digits
import Mathlib.Data.List.TakeWhile

/-!
# Numbers in JSON

A natural number of 64 bits that is written in decimal digits is read back as that number, unless
what follows goes on with it (`readNumber_toString`). Its digits fit into the significand, and its
size is far below the bound of a double (`isFinite_natural`). Whatever number is read, it is read as
well with more text behind it that does not go on with a number (`readNumber_append`).
-/

namespace ContractAnalysis.Json

theorem digitsValue_toDigits (n : Nat) : digitsValue (Nat.toDigits 10 n) = n :=
  Nat.ofDigitChars_ten_toDigits

/-! ## Size -/

theorem le_foldl_digits (ds : List Char) (n : Nat) :
    n ≤ ds.foldl (fun n d => 10 * n + (d.toNat - 48)) n := by
  induction ds generalizing n with
  | nil => exact le_rfl
  | cons d ds ih => exact le_trans (by omega) (ih (10 * n + (d.toNat - 48)))

theorem appendDigits_of_lt {ds : List Char} {n : Nat}
    (h : ds.foldl (fun n d => 10 * n + (d.toNat - 48)) n < Nat.pow 2 64) :
    appendDigits n ds = (ds.foldl (fun n d => 10 * n + (d.toNat - 48)) n, []) := by
  induction ds generalizing n with
  | nil => rfl
  | cons d ds ih =>
    have hmore : 10 * n + (d.toNat - 48) < Nat.pow 2 64 := (le_foldl_digits ds _).trans_lt h
    rw [appendDigits, if_pos hmore, ih h]
    rfl

theorem roundToDouble_le {n : Nat} (h : 0 < n) : roundToDouble n ≤ 2 * n := by
  have hunit : Nat.pow 2 (n.log2 - 52) ≤ n :=
    le_trans (Nat.pow_le_pow_right (by decide) (Nat.sub_le _ _)) (Nat.log2_self_le h.ne')
  have hcount : n / Nat.pow 2 (n.log2 - 52) * Nat.pow 2 (n.log2 - 52) ≤ n := Nat.div_mul_le_self n _
  unfold roundToDouble
  dsimp only
  split_ifs
  · rw [Nat.add_mul]
    omega
  · omega

theorem scaled_natural {n : Nat} (h : n < Nat.pow 2 64) :
    NumberLiteral.scaled ⟨false, Nat.toDigits 10 n, none, none⟩ = (n, 0) := by
  have hvalue := digitsValue_toDigits n
  rw [digitsValue] at hvalue
  have hdigits : appendDigits 0 (Nat.toDigits 10 n) = (n, []) := by
    rw [appendDigits_of_lt (hvalue.symm ▸ h), hvalue]
  simp [NumberLiteral.scaled, hdigits, appendDigits]

theorem isFinite_natural {n : Nat} (h : n < Nat.pow 2 64) :
    NumberLiteral.isFinite ⟨false, Nat.toDigits 10 n, none, none⟩ = true := by
  rw [NumberLiteral.isFinite, scaled_natural h]
  rcases Nat.eq_zero_or_pos n with rfl | hpos
  · rfl
  · have hbound : 2 * Nat.pow 2 64 < doubleBound := by decide +kernel
    have hround : roundToDouble n < doubleBound := by
      have hle := roundToDouble_le hpos
      omega
    split
    · rfl
    · rfl
    · next heq =>
      obtain ⟨rfl, he⟩ := Prod.mk.inj heq
      obtain rfl := Int.ofNat.inj he
      have hone : roundToDouble 1 = 1 := by decide
      simp [hone, hround]

/-! ## Reading -/

/-- A text that does not go on with a number before it. -/
def EndsNumber (rest : List Char) : Prop :=
  ∀ c ∈ rest.head?, isDigit c = false ∧ c ≠ '.' ∧ c ≠ 'e' ∧ c ≠ 'E'

theorem readDigits_run {ds rest : List Char} (hds : ∀ d ∈ ds, isDigit d = true) (hne : ds ≠ [])
    (hrest : Text.Stops isDigit rest) : readDigits (ds ++ rest) = some (ds, rest) := by
  rw [readDigits, Text.takeWhile_run hds hrest, Text.dropWhile_run hds hrest]
  simp [hne]

theorem readMinus_run {ds : List Char} (hds : ∀ d ∈ ds, isDigit d = true) (hne : ds ≠ [])
    (rest : List Char) :
    readMinus (ds ++ rest) = (false, ds ++ rest) := by
  obtain ⟨d, ds, rfl⟩ := List.exists_cons_of_ne_nil hne
  rw [readMinus.eq_def]
  split
  · next heq =>
    have hdigit : isDigit d = true := hds d List.mem_cons_self
    rw [(List.cons.inj heq).1] at hdigit
    contradiction
  · rfl

theorem readFraction_of_endsNumber {rest : List Char} (h : EndsNumber rest) :
    readFraction rest = some (none, rest) := by
  rw [readFraction.eq_def]
  split
  · exact absurd rfl (h '.' rfl).2.1
  · rfl

theorem readExponent_of_endsNumber {rest : List Char} (h : EndsNumber rest) :
    readExponent rest = some (none, rest) := by
  cases rest with
  | nil => rfl
  | cons c rest =>
    obtain ⟨-, -, hsmall, hbig⟩ := h c rfl
    rw [readExponent, if_neg (not_or.mpr ⟨hsmall, hbig⟩)]

theorem readNumber_toString {n : Nat} (h : n < Nat.pow 2 64) {rest : List Char}
    (hrest : EndsNumber rest) :
    readNumber ((toString n).toList ++ rest) = some (.number (.natural n) true, rest) := by
  have hds : ∀ d ∈ Nat.toDigits 10 n, isDigit d = true := fun _ => Text.isDigit_of_mem_toDigits
  have hminus := readMinus_run hds Nat.toDigits_ne_nil rest
  have hdigits := readDigits_run hds Nat.toDigits_ne_nil fun c hc => (hrest c hc).1
  rw [Nat.toString_eq_repr, Nat.toList_repr]
  simp [readNumber, hminus, hdigits, Text.not_leadingZero, readFraction_of_endsNumber hrest,
    readExponent_of_endsNumber hrest, NumberLiteral.isNatural, isFinite_natural h,
    digitsValue_toDigits]

/-! ## What follows a number -/

theorem EndsNumber.stops {rest : List Char} (h : EndsNumber rest) : Text.Stops isDigit rest :=
  fun c hc => (h c hc).1

theorem readDigits_append {cs ds left rest : List Char} (h : readDigits cs = some (ds, left))
    (hrest : EndsNumber rest) : readDigits (cs ++ rest) = some (ds, left ++ rest) := by
  have hne : cs.takeWhile isDigit ≠ [] := by
    intro hnil
    simp [readDigits, hnil] at h
  obtain ⟨rfl, rfl⟩ : cs.takeWhile isDigit = ds ∧ cs.dropWhile isDigit = left := by
    simpa [readDigits, hne] using h
  have hstops : Text.Stops isDigit (cs.dropWhile isDigit ++ rest) := by
    cases hleft : cs.dropWhile isDigit with
    | nil => exact hrest.stops
    | cons c left =>
      intro d hd
      have hhead := List.head?_dropWhile_not isDigit cs
      simp_all
  have hsplit : cs ++ rest = cs.takeWhile isDigit ++ (cs.dropWhile isDigit ++ rest) := by
    rw [← List.append_assoc, List.takeWhile_append_dropWhile]
  rw [hsplit]
  exact readDigits_run (fun _ => List.mem_takeWhile_imp) hne hstops

theorem readMinus_append {cs : List Char} (h : cs ≠ []) (rest : List Char) :
    readMinus (cs ++ rest) = ((readMinus cs).1, (readMinus cs).2 ++ rest) := by
  obtain ⟨c, cs, rfl⟩ := List.exists_cons_of_ne_nil h
  by_cases hminus : c = '-'
  · subst hminus
    rfl
  · simp [readMinus, hminus]

theorem readSign_append {cs : List Char} (h : cs ≠ []) (rest : List Char) :
    readSign (cs ++ rest) = ((readSign cs).1, (readSign cs).2 ++ rest) := by
  obtain ⟨c, cs, rfl⟩ := List.exists_cons_of_ne_nil h
  by_cases hminus : c = '-'
  · subst hminus
    rfl
  · by_cases hplus : c = '+'
    · subst hplus
      rfl
    · simp [readSign, hminus, hplus]

theorem readFraction_append {cs left rest : List Char} {fraction : Option (List Char)}
    (h : readFraction cs = some (fraction, left)) (hrest : EndsNumber rest) :
    readFraction (cs ++ rest) = some (fraction, left ++ rest) := by
  rcases cs with _ | ⟨c, cs⟩
  · obtain ⟨rfl, rfl⟩ : none = fraction ∧ [] = left := by simpa [readFraction] using h
    exact readFraction_of_endsNumber hrest
  · by_cases hpoint : c = '.'
    · subst hpoint
      obtain ⟨⟨ds, after⟩, hdigits, heq⟩ := Option.map_eq_some_iff.mp h
      obtain ⟨rfl, rfl⟩ := Prod.mk.inj heq
      exact Option.map_eq_some_iff.mpr ⟨_, readDigits_append hdigits hrest, rfl⟩
    · obtain ⟨rfl, rfl⟩ : none = fraction ∧ c :: cs = left := by
        simpa [readFraction, hpoint] using h
      simp [readFraction, hpoint]

theorem readExponent_append {cs left rest : List Char} {exponent : Option (Bool × List Char)}
    (h : readExponent cs = some (exponent, left)) (hrest : EndsNumber rest) :
    readExponent (cs ++ rest) = some (exponent, left ++ rest) := by
  rcases cs with _ | ⟨c, cs⟩
  · obtain ⟨rfl, rfl⟩ : none = exponent ∧ [] = left := by simpa [readExponent] using h
    exact readExponent_of_endsNumber hrest
  · by_cases hletter : c = 'e' ∨ c = 'E'
    · simp only [readExponent, hletter, if_true, List.cons_append] at h ⊢
      obtain ⟨⟨ds, after⟩, hdigits, heq⟩ := Option.map_eq_some_iff.mp h
      obtain ⟨rfl, rfl⟩ := Prod.mk.inj heq
      have hne : cs ≠ [] := by
        rintro rfl
        contradiction
      rw [readSign_append hne, readDigits_append hdigits hrest]
      rfl
    · obtain ⟨rfl, rfl⟩ : none = exponent ∧ c :: cs = left := by
        simpa [readExponent, hletter] using h
      simp [readExponent, hletter]

/-- A number is read whatever follows that does not go on with it. -/
theorem readNumber_append {cs left rest : List Char} {n : Source}
    (h : readNumber cs = some (n, left)) (hrest : EndsNumber rest) :
    readNumber (cs ++ rest) = some (n, left ++ rest) := by
  have hne : cs ≠ [] := by
    rintro rfl
    contradiction
  simp only [readNumber, Option.bind_eq_bind, Option.bind_eq_some_iff] at h
  obtain ⟨⟨whole, afterWhole⟩, hwhole, h⟩ := h
  have hzero : ¬(whole.head? = some '0' ∧ whole.length > 1) := by
    intro hzero
    simp [hzero] at h
  rw [if_neg hzero] at h
  simp only [Option.bind_eq_some_iff] at h
  obtain ⟨⟨fraction, afterFraction⟩, hfraction, ⟨exponent, afterExponent⟩, hexponent, h⟩ := h
  obtain ⟨hn, rfl⟩ := Prod.mk.inj (Option.some.inj h)
  simp only [readNumber, Option.bind_eq_bind, readMinus_append hne, readDigits_append hwhole hrest,
    Option.bind_some, hzero, if_false, readFraction_append hfraction hrest,
    readExponent_append hexponent hrest, List.length_append, Nat.add_sub_add_right,
    List.take_append_of_le_length (Nat.sub_le _ _), hn]

/-- How a number may start. -/
def StartsNumber (c : Char) : Prop := c = '-' ∨ isDigit c = true

theorem exists_startsNumber {cs left : List Char} {n : Source}
    (h : readNumber cs = some (n, left)) : ∃ c rest, cs = c :: rest ∧ StartsNumber c := by
  simp only [readNumber, Option.bind_eq_bind, Option.bind_eq_some_iff] at h
  obtain ⟨digits, hdigits, -⟩ := h
  rcases cs with _ | ⟨c, rest⟩
  · contradiction
  · refine ⟨c, rest, rfl, or_iff_not_imp_left.mpr fun hminus => ?_⟩
    by_contra hdigit
    simp [readMinus, hminus, readDigits, hdigit] at hdigits

end ContractAnalysis.Json
