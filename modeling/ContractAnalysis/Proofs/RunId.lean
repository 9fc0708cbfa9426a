import ContractAnalysis.RunId
import Mathlib.Data.Nat.Digits.Defs

/-!
# Run ids through text

The 32 digits of an id say its bits, and the hyphens between their groups are found again.
-/

namespace ContractAnalysis.RunId

/-- The values of the digits of a number. -/
def values : Nat → Nat → List Nat
  | 0, _ => []
  | count + 1, n => values count (n / 16) ++ [n % 16]

theorem length_values (count n : Nat) : (values count n).length = count := by
  induction count generalizing n with
  | zero => rfl
  | succ count ih => simp [values, ih]

theorem digits_eq_map (count n : Nat) : digits count n = (values count n).map digit := by
  induction count generalizing n with
  | zero => rfl
  | succ count ih => simp [digits, values, ih]

theorem lt_of_mem_values {count n d : Nat} (h : d ∈ values count n) : d < 16 := by
  induction count generalizing n with
  | zero => exact absurd h List.not_mem_nil
  | succ count ih =>
    rcases List.mem_append.mp h with hfront | hlast
    · exact ih hfront
    · rw [List.mem_singleton.mp hlast]
      exact Nat.mod_lt n (by decide)

theorem foldl_values (count n : Nat) :
    (values count n).foldl (fun n d => 16 * n + d) 0 = n % 16 ^ count := by
  induction count generalizing n with
  | zero => simp [values, Nat.mod_one]
  | succ count ih =>
    rw [values, List.foldl_append, ih, List.foldl_cons, List.foldl_nil, Nat.pow_succ',
      Nat.mod_mul]
    omega

theorem digitValue?_digit : ∀ d < 16, digitValue? (digit d) = some d := by decide

theorem digit_ne_hyphen : ∀ d < 16, digit d ≠ '-' := by decide

theorem mapM_digitValue? {ds : List Nat} (h : ∀ d ∈ ds, d < 16) :
    (ds.map digit).mapM digitValue? = some ds := by
  induction ds with
  | nil => rfl
  | cons d ds ih =>
    obtain ⟨hd, hds⟩ := List.forall_mem_cons.mp h
    rw [List.map_cons, List.mapM_cons, digitValue?_digit d hd, ih hds]
    rfl

theorem ofDigits?_digits (id : RunId) : ofDigits? (digits 32 id.bits.toNat) = some id := by
  have hread : ((values 32 id.bits.toNat).map digit).mapM digitValue? =
      some (values 32 id.bits.toNat) := mapM_digitValue? fun d => lt_of_mem_values
  have hbits : id.bits.toNat % 16 ^ 32 = id.bits.toNat := Nat.mod_eq_of_lt id.bits.isLt
  rw [digits_eq_map, ofDigits?, hread, Option.bind_eq_bind, Option.bind_some,
    if_pos (length_values 32 _), foldl_values, hbits, BitVec.ofNat_toNat, BitVec.setWidth_eq]

/-! ## Hyphens -/

theorem flatten_hyphenated {sizes : List Nat} {ds : List Char} (h : ds.length = sizes.sum) :
    (hyphenated sizes ds).flatten = ds := by
  induction sizes generalizing ds with
  | nil => exact (List.eq_nil_of_length_eq_zero h).symm
  | cons size sizes ih =>
    have hrest : (ds.drop size).length = sizes.sum := by
      rw [List.length_drop, h, List.sum_cons, Nat.add_sub_cancel_left]
    rw [hyphenated, List.flatten_cons, ih hrest, List.take_append_drop]

theorem map_length_hyphenated {sizes : List Nat} {ds : List Char} (h : ds.length = sizes.sum) :
    (hyphenated sizes ds).map List.length = sizes := by
  induction sizes generalizing ds with
  | nil => rfl
  | cons size sizes ih =>
    rw [List.sum_cons] at h
    have hrest : (ds.drop size).length = sizes.sum := by
      rw [List.length_drop, h, Nat.add_sub_cancel_left]
    have hsize : (ds.take size).length = size := by
      rw [List.length_take, h]
      omega
    rw [hyphenated, List.map_cons, ih hrest, hsize]

theorem mem_of_mem_hyphenated {sizes : List Nat} {ds group : List Char} {c : Char}
    (hgroup : group ∈ hyphenated sizes ds) (hc : c ∈ group) : c ∈ ds := by
  induction sizes generalizing ds with
  | nil => exact absurd hgroup List.not_mem_nil
  | cons size sizes ih =>
    rcases List.mem_cons.mp hgroup with rfl | htail
    · exact List.mem_of_mem_take hc
    · exact List.mem_of_mem_drop (ih htail)

theorem length_intercalate_hyphenated {ds : List Char} (h : ds.length = 32) :
    (['-'].intercalate (hyphenated groupSizes ds)).length = 36 := by
  simp [hyphenated, groupSizes, List.intercalate, h]

theorem ofText?_render (id : RunId) : ofText? id.render = some id := by
  have hlength : (digits 32 id.bits.toNat).length = 32 := by
    rw [digits_eq_map, List.length_map, length_values]
  have htext : (['-'].intercalate (hyphenated groupSizes (digits 32 id.bits.toNat))).length = 36 :=
    length_intercalate_hyphenated hlength
  have hhyphen : ∀ group ∈ hyphenated groupSizes (digits 32 id.bits.toNat), '-' ∉ group := by
    intro group hgroup hmem
    have hdigits := mem_of_mem_hyphenated hgroup hmem
    rw [digits_eq_map] at hdigits
    obtain ⟨d, hd, heq⟩ := List.mem_map.mp hdigits
    exact digit_ne_hyphen d (lt_of_mem_values hd) heq
  have hsplit : (['-'].intercalate (hyphenated groupSizes (digits 32 id.bits.toNat))).splitOn '-' =
      hyphenated groupSizes (digits 32 id.bits.toNat) :=
    List.splitOn_intercalate '-' hhyphen (by simp [groupSizes, hyphenated])
  rw [ofText?, render, String.toList_ofList]
  simp only [htext, Nat.reduceEqDiff, false_and, if_false]
  rw [ofHyphenated?, hsplit, if_pos (map_length_hyphenated hlength), flatten_hyphenated hlength,
    ofDigits?_digits]

end ContractAnalysis.RunId
