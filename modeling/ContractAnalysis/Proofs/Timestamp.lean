import ContractAnalysis.Proofs.Text.Digits
import ContractAnalysis.Timestamp

/-!
# Points in time through text

A point in time is written as numbers in two or four digits with a mark after each, and each number
is read up to its mark (`readNumber_padded`, `readYear_renderYear`, `readFraction_render`).

* `Timestamp.ofText?_render`: a time of a calendar day is read off what is written for it
* `Timestamp.exact_of_ofText?`: every time that is read is one of those
-/

namespace ContractAnalysis.Timestamp

open Text (Stops takeWhile_run dropWhile_run stops_cons)

/-! ## Numerals -/

theorem isDigit_eq (c : Char) : isDigit c = c.isDigit := by
  simp only [isDigit, Char.isDigit, ge_iff_le]
  rfl

theorem isBlank_of_isDigit {c : Char} (h : isDigit c = true) : Text.isBlank c = false := by
  obtain ⟨hlow, hhigh⟩ : '0' ≤ c ∧ c ≤ '9' := by
    simpa [isDigit] using h
  have hfirst : 48 ≤ c.toNat := hlow
  have hlast : c.toNat ≤ 57 := hhigh
  have hnone : ∀ d < 10, Text.blankRanges.contains (48 + d) = false := by decide
  have hcode : c.toNat = 48 + (c.toNat - 48) := by omega
  rw [Text.isBlank, hcode]
  exact hnone _ (by omega)

theorem trimStart_cons {c : Char} (h : Text.isBlank c = false) (cs : List Char) :
    Text.trimStart (c :: cs) = c :: cs :=
  List.dropWhile_cons_of_neg (by simp [h])

theorem toList_padded (width n : Nat) :
    (padded width n).toList =
      List.replicate (width - (Nat.toDigits 10 n).length) '0' ++ Nat.toDigits 10 n := by
  simp [padded, toString, Nat.repr]

theorem isDigit_of_mem_padded {width n : Nat} {c : Char} (h : c ∈ (padded width n).toList) :
    isDigit c = true := by
  rw [toList_padded] at h
  rcases List.mem_append.mp h with hzero | hdigit
  · rw [List.eq_of_mem_replicate hzero]
    rfl
  · rw [isDigit_eq]
    exact Text.isDigit_of_mem_toDigits hdigit

theorem number_padded (width n : Nat) : number (padded width n).toList = n := by
  have hzeros : ∀ k, (List.replicate k '0').foldl (fun n d => 10 * n + (d.toNat - 48)) 0 = 0 := by
    intro k
    induction k with
    | zero => rfl
    | succ k ih => exact ih
  rw [toList_padded, number, List.foldl_append, hzeros]
  exact Nat.ofDigitChars_ten_toDigits

theorem length_padded {width n : Nat} (hwidth : 0 < width) (h : n < 10 ^ width) :
    (padded width n).toList.length = width := by
  have hlength : (Nat.toDigits 10 n).length ≤ width :=
    (Nat.length_toDigits_le_iff (by decide) hwidth).mpr h
  rw [toList_padded, List.length_append, List.length_replicate]
  omega

theorem padded_ne_nil (width n : Nat) : (padded width n).toList ≠ [] := by
  rw [toList_padded]
  exact List.append_ne_nil_of_right_ne_nil _ Nat.toDigits_ne_nil

/-! ## Reading one part -/

theorem readDigits_run {limit : Nat} {run rest : List Char} (hrun : ∀ c ∈ run, isDigit c = true)
    (hne : run ≠ []) (hlimit : run.length ≤ limit)
    (hrest : run.length = limit ∨ Stops isDigit rest) :
    readDigits limit (run ++ rest) = some (run, rest) := by
  have hstops : Stops isDigit (rest.take (limit - run.length)) := by
    rcases hrest with heq | hrest
    · rw [heq, Nat.sub_self, List.take_zero]
      exact Text.stops_nil isDigit
    · intro c hc
      rw [List.head?_take] at hc
      split_ifs at hc
      · contradiction
      · exact hrest c hc
  have htake : ((run ++ rest).take limit).takeWhile isDigit = run := by
    rw [List.take_append, List.take_of_length_le hlimit]
    exact takeWhile_run hrun hstops
  have hnonempty : run.isEmpty = false := List.isEmpty_eq_false_iff.mpr hne
  simp only [readDigits, htake, hnonempty, Bool.false_eq_true, if_false, List.drop_left]

theorem trimStart_padded (width n : Nat) (rest : List Char) :
    Text.trimStart ((padded width n).toList ++ rest) = (padded width n).toList ++ rest := by
  obtain ⟨d, ds, hds⟩ := List.exists_cons_of_ne_nil (padded_ne_nil width n)
  have hdigit : isDigit d = true := isDigit_of_mem_padded (hds ▸ List.mem_cons_self)
  rw [hds, List.cons_append]
  exact trimStart_cons (isBlank_of_isDigit hdigit) _

theorem readNumber_padded {n : Nat} (h : n < 100) (rest : List Char) :
    readNumber ((padded 2 n).toList ++ rest) = some (n, rest) := by
  have hlength : (padded 2 n).toList.length = 2 := length_padded (by decide) h
  rw [readNumber, trimStart_padded,
    readDigits_run (fun c => isDigit_of_mem_padded) (padded_ne_nil 2 n) hlength.le (.inl hlength)]
  simp only [Option.map_some, number_padded]

theorem readMark_cons {mark : Char} (h : Text.isBlank mark = false) (rest : List Char) :
    readMark mark (mark :: rest) = some rest := by
  rw [readMark, trimStart_cons h]
  exact if_pos rfl

theorem readYear_digit {d : Char} (h : isDigit d = true) (cs : List Char) :
    readYear (d :: cs) =
      (readDigits 4 (d :: cs)).map fun (ds, rest) => ((number ds : Int), rest) := by
  have hminus : d ≠ '-' := by
    rintro rfl
    contradiction
  have hplus : d ≠ '+' := by
    rintro rfl
    contradiction
  rw [readYear, trimStart_cons (isBlank_of_isDigit h)]
  split
  · exact absurd (List.cons.inj ‹_›).1 hminus
  · exact absurd (List.cons.inj ‹_›).1 hplus
  · rfl

theorem readDigits_year (n : Nat) (rest : List Char) :
    readDigits ((padded 4 n).toList ++ '-' :: rest).length ((padded 4 n).toList ++ '-' :: rest) =
      some ((padded 4 n).toList, '-' :: rest) := by
  refine readDigits_run (fun c => isDigit_of_mem_padded) (padded_ne_nil 4 n) ?_ (.inr ?_)
  · rw [List.length_append]
    exact Nat.le_add_right _ _
  · exact stops_cons rfl rest

theorem readYear_renderYear (year : Int) (rest : List Char) :
    readYear ((renderYear year).toList ++ '-' :: rest) = some (year, '-' :: rest) := by
  unfold renderYear
  split_ifs with hplain hnegative
  · have hlength : (padded 4 year.toNat).toList.length = 4 :=
      length_padded (by decide) (by omega)
    obtain ⟨d, ds, hds⟩ := List.exists_cons_of_ne_nil (padded_ne_nil 4 year.toNat)
    have hdigit : isDigit d = true := isDigit_of_mem_padded (hds ▸ List.mem_cons_self)
    rw [hds, List.cons_append, readYear_digit hdigit, ← List.cons_append, ← hds,
      readDigits_run (fun c => isDigit_of_mem_padded) (padded_ne_nil 4 _) hlength.le (.inl hlength)]
    simp only [Option.map_some, number_padded]
    rw [Int.toNat_of_nonneg hplain.1]
  · have hread := readDigits_year year.natAbs rest
    have hyear : -(year.natAbs : Int) = year := by omega
    have htext : ("-" ++ padded 4 year.natAbs).toList = '-' :: (padded 4 year.natAbs).toList := by
      simp
    rw [htext, List.cons_append, readYear, trimStart_cons rfl]
    simp only [hread, Option.map_some, number_padded, hyear]
  · have hread := readDigits_year year.natAbs rest
    have hyear : (year.natAbs : Int) = year := by omega
    have htext : ("+" ++ padded 4 year.natAbs).toList = '+' :: (padded 4 year.natAbs).toList := by
      simp
    rw [htext, List.cons_append, readYear, trimStart_cons rfl]
    simp only [hread, Option.map_some, number_padded, hyear]

theorem readFraction_point (width n : Nat) (hpos : 0 < width) (hwidth : width ≤ 9)
    (h : n < 10 ^ width) :
    readFraction ('.' :: ((padded width n).toList ++ ['Z'])) =
      some (n * Nat.pow 10 (9 - width), ['Z']) := by
  have hlength : (padded width n).toList.length = width := length_padded hpos h
  have hread : readDigits 9 ((padded width n).toList ++ ['Z']) =
      some ((padded width n).toList, ['Z']) :=
    readDigits_run (fun c => isDigit_of_mem_padded) (padded_ne_nil width n)
      (hlength.trans_le hwidth) (.inr (stops_cons rfl []))
  rw [readFraction, hread]
  simp only [Option.map_some, number_padded, hlength]
  rfl

theorem readFraction_render {nanosecond : Nat} (h : nanosecond < 1000000000) :
    readFraction ((renderFraction nanosecond).toList ++ ['Z']) = some (nanosecond, ['Z']) := by
  unfold renderFraction
  split_ifs with hzero hmilli hmicro
  · rw [hzero]
    rfl
  · have hread := readFraction_point 3 (nanosecond / 1000000) (by decide) (by decide) (by omega)
    have hexact : nanosecond / 1000000 * Nat.pow 10 (9 - 3) = nanosecond := by
      change nanosecond / 1000000 * 1000000 = nanosecond
      omega
    simpa [hexact] using hread
  · have hread := readFraction_point 6 (nanosecond / 1000) (by decide) (by decide) (by omega)
    have hexact : nanosecond / 1000 * Nat.pow 10 (9 - 6) = nanosecond := by
      change nanosecond / 1000 * 1000 = nanosecond
      omega
    simpa [hexact] using hread
  · have hread := readFraction_point 9 nanosecond (by decide) (by decide) h
    simpa using hread

/-! ## Reading the whole text -/

/-- A time of day of a calendar day. -/
structure Exact (t : Timestamp) : Prop where
  valid : t.isValid = true
  nanosecond : t.nanosecond < 1000000000

theorem toList_render (t : Timestamp) :
    t.render.toList = (renderYear t.year).toList ++ '-' :: ((padded 2 t.month).toList ++
      '-' :: ((padded 2 t.day).toList ++ 'T' :: ((padded 2 t.hour).toList ++
        ':' :: ((padded 2 t.minute).toList ++ ':' :: ((padded 2 t.second).toList ++
          ((renderFraction t.nanosecond).toList ++ ['Z'])))))) := by
  simp [render]

theorem ofLocal_zero {t : Timestamp} (hhour : t.hour < 24) (hminute : t.minute < 60) :
    t.ofLocal 0 = t := by
  have hearly : ¬(60 * (t.hour : Int) + t.minute - 0 < 0) := by omega
  have hlate : ¬(1440 ≤ 60 * (t.hour : Int) + t.minute - 0) := by omega
  have hofDay : ((60 * (t.hour : Int) + t.minute - 0) % 1440).toNat = 60 * t.hour + t.minute := by
    omega
  simp only [ofLocal, hearly, hlate, hofDay, if_false]
  have hdiv : (60 * t.hour + t.minute) / 60 = t.hour := by omega
  have hmod : (60 * t.hour + t.minute) % 60 = t.minute := by omega
  rw [hdiv, hmod]

theorem ofText?_render {t : Timestamp} (h : t.Exact) : ofText? t.render = some t := by
  obtain ⟨hvalid, hnano⟩ := h
  have hparts := hvalid
  simp only [isValid, Bool.and_eq_true, decide_eq_true_eq] at hparts
  obtain ⟨⟨⟨⟨⟨⟨⟨⟨-, -⟩, -⟩, hmonth⟩, -⟩, hday⟩, hhour⟩, hminute⟩, hsecond⟩ := hparts
  have hmonthLength : daysInMonth t.year t.month ≤ 31 := by
    unfold daysInMonth
    split <;> (try split) <;> omega
  rw [ofText?, toList_render]
  -- Every part is read up to the mark behind it.
  refine Option.bind_eq_some_iff.mpr ⟨_, readYear_renderYear _ _, ?_⟩
  refine Option.bind_eq_some_iff.mpr ⟨_, readMark_cons rfl _, ?_⟩
  refine Option.bind_eq_some_iff.mpr ⟨_, readNumber_padded (by omega) _, ?_⟩
  refine Option.bind_eq_some_iff.mpr ⟨_, readMark_cons rfl _, ?_⟩
  refine Option.bind_eq_some_iff.mpr ⟨_, readNumber_padded (by omega) _, ?_⟩
  refine Option.bind_eq_some_iff.mpr ⟨_, rfl, ?_⟩
  refine Option.bind_eq_some_iff.mpr ⟨_, readNumber_padded (by omega) _, ?_⟩
  refine Option.bind_eq_some_iff.mpr ⟨_, readMark_cons rfl _, ?_⟩
  refine Option.bind_eq_some_iff.mpr ⟨_, readNumber_padded (by omega) _, ?_⟩
  refine Option.bind_eq_some_iff.mpr ⟨_, readMark_cons rfl _, ?_⟩
  refine Option.bind_eq_some_iff.mpr ⟨_, readNumber_padded (by omega) _, ?_⟩
  refine Option.bind_eq_some_iff.mpr ⟨_, readFraction_render hnano, ?_⟩
  refine Option.bind_eq_some_iff.mpr ⟨(0, []), rfl, ?_⟩
  have hread : (Text.trimStart []).isEmpty = true ∧ t.isValid = true ∧ (0 : Int).natAbs < 1440 :=
    ⟨rfl, hvalid, by decide⟩
  refine (if_pos hread).trans ?_
  change (if (t.ofLocal 0).isValid then some (t.ofLocal 0) else none) = some t
  rw [ofLocal_zero hhour hminute, if_pos hvalid]

/-! ## What is read -/

theorem number_lt {ds : List Char} (h : ∀ d ∈ ds, isDigit d = true) :
    number ds < 10 ^ ds.length := by
  have hfold : ∀ n, ds.foldl (fun n d => 10 * n + (d.toNat - 48)) n < (n + 1) * 10 ^ ds.length := by
    induction ds with
    | nil => simp
    | cons d ds ih =>
      obtain ⟨hd, hds⟩ := List.forall_mem_cons.mp h
      have hhigh : d.toNat ≤ 57 := by
        have hlast : d ≤ '9' := by
          simp only [isDigit, Bool.and_eq_true, decide_eq_true_eq] at hd
          exact hd.2
        exact hlast
      intro n
      calc ds.foldl (fun n d => 10 * n + (d.toNat - 48)) (10 * n + (d.toNat - 48))
          < (10 * n + (d.toNat - 48) + 1) * 10 ^ ds.length := ih hds _
        _ ≤ ((n + 1) * 10) * 10 ^ ds.length := Nat.mul_le_mul_right _ (by omega)
        _ = (n + 1) * 10 ^ (ds.length + 1) := by rw [Nat.mul_assoc, Nat.pow_succ']
  simpa [number] using hfold 0

theorem readFraction_lt {cs rest : List Char} {n : Nat} (h : readFraction cs = some (n, rest)) :
    n < 1000000000 := by
  unfold readFraction at h
  split at h
  · rename_i digits
    obtain ⟨⟨ds, after⟩, hread, heq⟩ := Option.map_eq_some_iff.mp h
    obtain ⟨-, hds⟩ := Option.ite_none_left_eq_some.mp hread
    obtain ⟨rfl, rfl⟩ := Prod.mk.inj (Option.some.inj hds)
    obtain ⟨rfl, -⟩ := Prod.mk.inj heq
    have hdigits : ∀ d ∈ (digits.take 9).takeWhile isDigit, isDigit d = true :=
      fun d hd => List.all_eq_true.mp (List.all_takeWhile) d hd
    have hlength : ((digits.take 9).takeWhile isDigit).length ≤ 9 :=
      (List.takeWhile_sublist _).length_le.trans (List.length_take_le 9 digits)
    calc number ((digits.take 9).takeWhile isDigit) *
          Nat.pow 10 (9 - ((digits.take 9).takeWhile isDigit).length)
        < 10 ^ ((digits.take 9).takeWhile isDigit).length *
          10 ^ (9 - ((digits.take 9).takeWhile isDigit).length) :=
          Nat.mul_lt_mul_of_pos_right (number_lt hdigits) (Nat.pow_pos (by decide))
      _ = 10 ^ 9 := by rw [← Nat.pow_add, Nat.add_sub_cancel' hlength]
  · obtain ⟨rfl, -⟩ := Prod.mk.inj (Option.some.inj h)
    decide

theorem nanosecond_ofLocal (t : Timestamp) (ahead : Int) :
    (t.ofLocal ahead).nanosecond = t.nanosecond := by
  have hprevious : t.previousDay.nanosecond = t.nanosecond := by
    unfold previousDay
    split_ifs <;> rfl
  have hnext : t.nextDay.nanosecond = t.nanosecond := by
    unfold nextDay
    split_ifs <;> rfl
  simp only [ofLocal]
  split_ifs
  · exact hprevious
  · exact hnext
  · rfl

theorem exact_of_ofText? {text : String} {t : Timestamp} (h : ofText? text = some t) :
    t.Exact := by
  rw [ofText?] at h
  obtain ⟨⟨year, rest⟩, -, h⟩ := Option.bind_eq_some_iff.mp h
  obtain ⟨rest, -, h⟩ := Option.bind_eq_some_iff.mp h
  obtain ⟨⟨month, rest⟩, -, h⟩ := Option.bind_eq_some_iff.mp h
  obtain ⟨rest, -, h⟩ := Option.bind_eq_some_iff.mp h
  obtain ⟨⟨day, rest⟩, -, h⟩ := Option.bind_eq_some_iff.mp h
  obtain ⟨rest, -, h⟩ := Option.bind_eq_some_iff.mp h
  obtain ⟨⟨hour, rest⟩, -, h⟩ := Option.bind_eq_some_iff.mp h
  obtain ⟨rest, -, h⟩ := Option.bind_eq_some_iff.mp h
  obtain ⟨⟨minute, rest⟩, -, h⟩ := Option.bind_eq_some_iff.mp h
  obtain ⟨rest, -, h⟩ := Option.bind_eq_some_iff.mp h
  obtain ⟨⟨second, rest⟩, -, h⟩ := Option.bind_eq_some_iff.mp h
  obtain ⟨⟨nanosecond, rest⟩, hfraction, h⟩ := Option.bind_eq_some_iff.mp h
  obtain ⟨⟨ahead, rest⟩, -, h⟩ := Option.bind_eq_some_iff.mp h
  obtain ⟨-, hutc⟩ := Option.ite_none_right_eq_some.mp h
  obtain ⟨hvalid, ht⟩ := Option.ite_none_right_eq_some.mp hutc
  obtain rfl := Option.some.inj ht
  refine ⟨hvalid, ?_⟩
  rw [nanosecond_ofLocal]
  exact readFraction_lt hfraction

end ContractAnalysis.Timestamp
