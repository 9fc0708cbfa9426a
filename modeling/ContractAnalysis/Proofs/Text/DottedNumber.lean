import ContractAnalysis.Proofs.Text.Citation

/-!
# Dotted numbers

A dotted number consists of digits and of single dots that stand between digits (`IsDottedNumber`).
What is read at the start of a text is the longest dotted number there: all others are the start of
it (`number?_eq_some_iff_isLongest`).
-/

namespace ContractAnalysis.Text

/-- Digits, with single dots between some of them. -/
inductive IsDottedNumber : List Char → Prop
  | digit {c : Char} (hdigit : isDigit c = true) : IsDottedNumber [c]
  | next {c : Char} {rest : List Char} (hdigit : isDigit c = true) (hrest : IsDottedNumber rest) :
      IsDottedNumber (c :: rest)
  | dot {c : Char} {rest : List Char} (hdigit : isDigit c = true) (hrest : IsDottedNumber rest) :
      IsDottedNumber (c :: '.' :: rest)

/-- The longest dotted number that a text starts with. -/
structure IsLongestNumber (number cs : List Char) : Prop where
  dotted : IsDottedNumber number
  starts : number <+: cs
  longest : ∀ other, IsDottedNumber other → other <+: cs → other <+: number

variable {cs number : List Char}

theorem IsDottedNumber.exists_digit (h : IsDottedNumber number) :
    ∃ c rest, number = c :: rest ∧ isDigit c = true := by
  cases h with
  | digit hdigit | next hdigit _ | dot hdigit _ => exact ⟨_, _, rfl, hdigit⟩

theorem IsDottedNumber.exists_digit_last (h : IsDottedNumber number) :
    ∃ c, number.getLast? = some c ∧ isDigit c = true := by
  induction h with
  | digit hdigit => exact ⟨_, rfl, hdigit⟩
  | next _ _ ih | dot _ _ ih =>
    obtain ⟨c, hlast, hdigit⟩ := ih
    exact ⟨c, by simp [List.getLast?_cons, hlast], hdigit⟩

theorem isDottedNumber_of_isDigit (hne : cs ≠ []) (h : ∀ c ∈ cs, isDigit c = true) :
    IsDottedNumber cs := by
  induction cs with
  | nil => contradiction
  | cons c cs ih =>
    obtain ⟨hdigit, hrest⟩ := List.forall_mem_cons.mp h
    cases cs with
    | nil => exact .digit hdigit
    | cons d cs => exact .next hdigit (ih (List.cons_ne_nil d cs) hrest)

theorem IsDottedNumber.append_dot (h : IsDottedNumber number) {digits : List Char}
    (hne : digits ≠ []) (hdigits : ∀ c ∈ digits, isDigit c = true) :
    IsDottedNumber (number ++ '.' :: digits) := by
  induction h with
  | digit hdigit => exact .dot hdigit (isDottedNumber_of_isDigit hne hdigits)
  | next hdigit _ ih => exact .next hdigit ih
  | dot hdigit _ ih => exact .dot hdigit ih

/-! ## What is read -/

theorem numberTail_cons_digit {c : Char} (h : isDigit c = true) (cs : List Char) :
    numberTail (c :: cs) = c :: numberTail cs := by
  rw [numberTail, if_pos]
  simp [h]

theorem numberTail_cons_dot {c : Char} (h : isDigit c = true) (cs : List Char) :
    numberTail ('.' :: c :: cs) = '.' :: c :: numberTail cs := by
  rw [numberTail, if_pos, numberTail_cons_digit h]
  simp [h]

theorem isDottedNumber_numberTail {c : Char} (hdigit : isDigit c = true) (cs : List Char) :
    IsDottedNumber (c :: numberTail cs) := by
  induction hlength : cs.length using Nat.strongRecOn generalizing c cs with
  | ind n ih =>
    subst hlength
    cases cs with
    | nil => exact .digit hdigit
    | cons d cs =>
      by_cases hd : isDigit d = true
      · rw [numberTail_cons_digit hd]
        exact .next hdigit (ih cs.length (Nat.lt_succ_self _) hd cs rfl)
      · by_cases hdot : d = '.' ∧ cs.head?.any isDigit = true
        · obtain ⟨rfl, hnext⟩ := hdot
          cases cs with
          | nil => simp at hnext
          | cons e cs =>
            have he : isDigit e = true := by simpa using hnext
            rw [numberTail_cons_dot he]
            exact .dot hdigit (ih cs.length (by simp only [List.length_cons]; omega) he cs rfl)
        · have hstop : numberTail (d :: cs) = [] :=
            numberTail_eq_nil (by simpa using hd) fun heq => by simpa [heq] using hdot
          rw [hstop]
          exact .digit hdigit

theorem IsDottedNumber.prefix_numberTail {other : List Char} (h : IsDottedNumber other)
    (hstarts : other <+: cs) :
    ∃ c rest, cs = c :: rest ∧ isDigit c = true ∧ other <+: c :: numberTail rest := by
  induction h generalizing cs with
  | digit hdigit =>
    obtain ⟨after, rfl⟩ := hstarts
    exact ⟨_, after, rfl, hdigit, List.cons_prefix_cons.mpr ⟨rfl, List.nil_prefix⟩⟩
  | @next c rest hdigit _ ih =>
    obtain ⟨after, rfl⟩ := hstarts
    obtain ⟨d, ds, heq, hd, hle⟩ := ih (List.prefix_append rest after)
    refine ⟨c, rest ++ after, rfl, hdigit, List.cons_prefix_cons.mpr ⟨rfl, ?_⟩⟩
    rwa [heq, numberTail_cons_digit hd]
  | @dot c rest hdigit _ ih =>
    obtain ⟨after, rfl⟩ := hstarts
    obtain ⟨d, ds, heq, hd, hle⟩ := ih (List.prefix_append rest after)
    refine ⟨c, '.' :: (rest ++ after), rfl, hdigit, List.cons_prefix_cons.mpr ⟨rfl, ?_⟩⟩
    rw [heq, numberTail_cons_dot hd]
    exact List.cons_prefix_cons.mpr ⟨rfl, hle⟩

theorem IsDottedNumber.prefix_number? {other : List Char} (h : IsDottedNumber other)
    (hstarts : other <+: cs) : ∃ number, number? cs = some number ∧ other <+: number := by
  obtain ⟨c, rest, rfl, hdigit, hle⟩ := h.prefix_numberTail hstarts
  exact ⟨_, if_pos hdigit, hle⟩

/-- The longest dotted number at the start of a text is read. -/
theorem number?_eq_some_iff_isLongest : number? cs = some number ↔ IsLongestNumber number cs := by
  have hsound : ∀ {number : List Char}, number? cs = some number →
      IsDottedNumber number ∧ number <+: cs := by
    intro number h
    cases cs with
    | nil => simp [number?] at h
    | cons c cs =>
      obtain ⟨hdigit, heq⟩ := Option.ite_none_right_eq_some.mp h
      obtain rfl := Option.some.inj heq
      exact ⟨isDottedNumber_numberTail hdigit cs,
        List.cons_prefix_cons.mpr ⟨rfl, numberTail_prefix cs⟩⟩
  constructor
  · intro h
    refine ⟨(hsound h).1, (hsound h).2, fun other hother hstarts => ?_⟩
    obtain ⟨number', hnumber', hle⟩ := hother.prefix_number? hstarts
    obtain rfl := Option.some.inj (h.symm.trans hnumber')
    exact hle
  · rintro ⟨hdotted, hstarts, hlongest⟩
    obtain ⟨read, hread, hle⟩ := hdotted.prefix_number? hstarts
    obtain ⟨hdotted', hstarts'⟩ := hsound hread
    rw [hread, hle.eq_of_length_le (hlongest read hdotted' hstarts').length_le]

theorem exists_isLongestNumber (h : cs.head?.any isDigit = true) :
    ∃ number, IsLongestNumber number cs := by
  cases cs with
  | nil => simp at h
  | cons c cs => exact ⟨_, number?_eq_some_iff_isLongest.mp (if_pos (by simpa using h))⟩

theorem IsDottedNumber.number?_append (h : IsDottedNumber number) {after : List Char}
    (hafter : numberTail after = []) : number? (number ++ after) = some number := by
  obtain ⟨read, hread, hle⟩ := h.prefix_number? (List.prefix_refl number)
  have hwhole := (number?_eq_some_iff_isLongest.mp hread).starts.eq_of_length_le hle.length_le
  rw [Text.number?_append hread hafter, hwhole]

end ContractAnalysis.Text
