import ContractAnalysis.Text.Basic
import Mathlib.Data.List.Basic
import Mathlib.Data.List.Chain
import Mathlib.Data.List.TakeWhile

/-!
# Character classes and case folding together

A character below `a` is equal up to case to no other one (`eq_of_fold_eq`), and one that is equal
to a letter from `a` to `z` up to case is one of few (`IsLatin`, `isLatin_of_fold`). These make up
words and are neither digits nor white space; nor is any digit white space, and white space makes up
no words, while digits do (`not_isBlank_of_isDigit`, `not_isWord_of_isBlank`, `isWord_of_isDigit`).

What holds for all code points of a table is decided range by range.
-/

namespace ContractAnalysis.Text

/-! ## Ranges -/

namespace Ranges

/-- Whether no range of a set meets a range of the other. -/
def apart (rs ss : Ranges) : Bool :=
  rs.all fun r => ss.all fun s => r.2 < s.1 || s.2 < r.1

/-- Whether one range of a set holds all code points between two. -/
def covers : Ranges → Nat → Nat → Bool
  | [], _, _ => false
  | (first, last) :: rest, low, high => first ≤ low && (high ≤ last || covers rest low high)

/-- Whether every range of a set lies in one of the other, when both are gone through once. -/
def within : Ranges → Ranges → Bool
  | rs, [] => rs.isEmpty
  | rs, s :: ss => within (rs.dropWhile fun r => s.1 ≤ r.1 && r.2 ≤ s.2) ss

variable {rs ss : Ranges} {n : Nat}

theorem exists_of_contains (h : rs.contains n = true) : ∃ r ∈ rs, r.1 ≤ n ∧ n ≤ r.2 := by
  induction rs with
  | nil => simp [contains] at h
  | cons r rest ih =>
    simp only [contains, Bool.and_eq_true, Bool.or_eq_true, decide_eq_true_eq] at h
    obtain ⟨hfirst, hlast | hrest⟩ := h
    · exact ⟨r, List.mem_cons_self, hfirst, hlast⟩
    · obtain ⟨s, hs, hn⟩ := ih hrest
      exact ⟨s, List.mem_cons_of_mem r hs, hn⟩

theorem contains_of_covers {low high : Nat} (h : rs.covers low high = true) (hlow : low ≤ n)
    (hhigh : n ≤ high) : rs.contains n = true := by
  induction rs with
  | nil => simp [covers] at h
  | cons r rest ih =>
    simp only [covers, contains, Bool.and_eq_true, Bool.or_eq_true, decide_eq_true_eq] at h ⊢
    obtain ⟨hfirst, hlast | hrest⟩ := h
    · exact ⟨Nat.le_trans hfirst hlow, .inl (Nat.le_trans hhigh hlast)⟩
    · exact ⟨Nat.le_trans hfirst hlow, .inr (ih hrest)⟩

theorem exists_of_within (h : rs.within ss = true) {r : Nat × Nat} (hr : r ∈ rs) :
    ∃ s ∈ ss, s.1 ≤ r.1 ∧ r.2 ≤ s.2 := by
  induction ss generalizing rs with
  | nil =>
    rw [List.isEmpty_iff.mp h] at hr
    contradiction
  | cons s ss ih =>
    rw [← List.takeWhile_append_dropWhile (p := fun r => s.1 ≤ r.1 && r.2 ≤ s.2) (l := rs),
      List.mem_append] at hr
    rcases hr with hr | hr
    · exact ⟨s, List.mem_cons_self, by simpa using List.mem_takeWhile_imp hr⟩
    · obtain ⟨s', hs', hle⟩ := ih h hr
      exact ⟨s', List.mem_cons_of_mem s hs', hle⟩

theorem contains_of_mem (h : ss.IsChain fun r s => r.1 ≤ s.1) {s : Nat × Nat} (hs : s ∈ ss)
    (hlow : s.1 ≤ n) (hhigh : n ≤ s.2) : ss.contains n = true := by
  have hpairwise : ss.Pairwise fun r s => r.1 ≤ s.1 := by
    have : IsTrans (Nat × Nat) fun r s => r.1 ≤ s.1 := ⟨fun _ _ _ => Nat.le_trans⟩
    exact List.isChain_iff_pairwise.mp h
  clear h
  induction hpairwise with
  | nil => contradiction
  | @cons r rest hfirst _ ih =>
    simp only [contains, Bool.and_eq_true, Bool.or_eq_true, decide_eq_true_eq]
    rcases List.mem_cons.mp hs with rfl | hs
    · exact ⟨hlow, .inl hhigh⟩
    · exact ⟨Nat.le_trans (hfirst s hs) hlow, .inr (ih hs)⟩

theorem contains_of_within (hordered : ss.IsChain fun r s => r.1 ≤ s.1)
    (h : rs.within ss = true) (hn : rs.contains n = true) : ss.contains n = true := by
  obtain ⟨r, hr, hlow, hhigh⟩ := exists_of_contains hn
  obtain ⟨s, hs, hfirst, hlast⟩ := exists_of_within h hr
  exact contains_of_mem hordered hs (Nat.le_trans hfirst hlow) (Nat.le_trans hhigh hlast)

theorem not_contains_of_apart (h : rs.apart ss = true) (hn : rs.contains n = true) :
    ss.contains n = false := by
  rw [← Bool.not_eq_true]
  intro hother
  obtain ⟨r, hr, hr'⟩ := exists_of_contains hn
  obtain ⟨s, hs, hs'⟩ := exists_of_contains hother
  have hapart := List.all_eq_true.mp (List.all_eq_true.mp h r hr) s hs
  simp only [Bool.or_eq_true, decide_eq_true_eq] at hapart
  omega

end Ranges

theorem not_isBlank_of_isDigit {c : Char} (h : isDigit c = true) : isBlank c = false :=
  Ranges.not_contains_of_apart (by decide) h

theorem not_isWord_of_isBlank {c : Char} (h : isBlank c = true) : isWord c = false :=
  Ranges.not_contains_of_apart (by decide +kernel) h

theorem not_isBlank_of_isWord {c : Char} (h : isWord c = true) : isBlank c = false := by
  rw [← Bool.not_eq_true]
  intro hblank
  simp [not_isWord_of_isBlank hblank] at h

theorem isChain_wordRanges : wordRanges.IsChain fun r s => r.1 ≤ s.1 := by decide +kernel

theorem isWord_of_isDigit {c : Char} (h : isDigit c = true) : isWord c = true :=
  Ranges.contains_of_within isChain_wordRanges (by decide +kernel) h

theorem not_isDigit_of_isBlank {c : Char} (h : isBlank c = true) : isDigit c = false := by
  rw [← Bool.not_eq_true]
  intro hdigit
  simp [not_isBlank_of_isDigit hdigit] at h

/-! ## Case mappings -/

namespace CaseRun

theorem apply_eq_or (runs : List CaseRun) (n : Nat) :
    apply runs n = n ∨ ∃ run ∈ runs, run.first ≤ n ∧ n ≤ run.last ∧
      apply runs n = run.image + (n - run.first) := by
  induction runs with
  | nil => exact .inl rfl
  | cons run rest ih =>
    simp only [apply]
    split_ifs with hfirst hlast hstep
    · exact .inl rfl
    · exact .inr ⟨run, List.mem_cons_self, Nat.le_of_not_lt hfirst, hlast, rfl⟩
    · exact .inl rfl
    · refine ih.imp_right ?_
      rintro ⟨run', hrun', hn⟩
      exact ⟨run', List.mem_cons_of_mem run hrun', hn⟩

/-- No run sends a code point below `a`, nor to one that is not a character. -/
def KeepAbove (runs : List CaseRun) : Prop :=
  ∀ run ∈ runs, 0x61 ≤ run.image ∧ (run.image + (run.last - run.first) < 0xD800 ∨
    0xDFFF < run.image ∧ run.image + (run.last - run.first) < 0x110000)

instance (runs : List CaseRun) : Decidable (KeepAbove runs) :=
  inferInstanceAs (Decidable (∀ run ∈ runs, _))

variable {runs : List CaseRun}

theorem KeepAbove.toNat_ofNat_apply (h : KeepAbove runs) (c : Char) :
    (Char.ofNat (apply runs c.toNat)).toNat = apply runs c.toNat := by
  obtain hsame | ⟨run, hrun, hfirst, hlast, happly⟩ := apply_eq_or runs c.toNat
  · rw [hsame, Char.ofNat_toNat]
  · rw [happly]
    obtain ⟨-, hvalid⟩ := h run hrun
    have hchar : (run.image + (c.toNat - run.first)).isValidChar := by
      simp only [Nat.isValidChar]
      omega
    rw [Char.ofNat, dif_pos hchar]
    rfl

theorem KeepAbove.eq_of_apply_eq (h : KeepAbove runs) {c d : Char}
    (heq : Char.ofNat (apply runs c.toNat) = d) (hd : d.toNat < 0x61) : c = d := by
  have hnat := h.toNat_ofNat_apply c
  obtain hsame | ⟨run, hrun, -, -, happly⟩ := apply_eq_or runs c.toNat
  · rw [← heq, hsame, Char.ofNat_toNat]
  · obtain ⟨hlow, -⟩ := h run hrun
    rw [heq] at hnat
    omega

theorem keepAbove_foldingRuns : KeepAbove foldingRuns := by decide +kernel

theorem keepAbove_lowercaseRuns : KeepAbove lowercaseRuns := by decide +kernel

end CaseRun

/-! ## Case folding -/

theorem toNat_fold (c : Char) : (fold c).toNat = CaseRun.apply foldingRuns c.toNat :=
  CaseRun.keepAbove_foldingRuns.toNat_ofNat_apply c

theorem eq_of_fold_eq {c d : Char} (h : fold c = d) (hd : d.toNat < 0x61) : c = d :=
  CaseRun.keepAbove_foldingRuns.eq_of_apply_eq h hd

theorem isBlank_fold (c : Char) : isBlank (fold c) = isBlank c := by
  have hapart : ∀ run ∈ foldingRuns, Ranges.apart [(run.first, run.last)] blankRanges = true ∧
      Ranges.apart [(run.image, run.image + (run.last - run.first))] blankRanges = true := by
    decide +kernel
  have hwithin : ∀ {low high n : Nat}, low ≤ n → n ≤ high →
      Ranges.contains [(low, high)] n = true := by
    intro low high n hlow hhigh
    simp [Ranges.contains, hlow, hhigh]
  rw [isBlank, isBlank, toNat_fold]
  obtain hsame | ⟨run, hrun, hfirst, hlast, happly⟩ := CaseRun.apply_eq_or foldingRuns c.toNat
  · rw [hsame]
  · obtain ⟨hsource, himage⟩ := hapart run hrun
    rw [happly, Ranges.not_contains_of_apart hsource (hwithin hfirst hlast),
      Ranges.not_contains_of_apart himage (hwithin (by omega) (by omega))]

/-- The letters from `A` to `Z` and from `a` to `z`, the long `s` and the sign for kelvin. -/
def latinRanges : Ranges := [(0x41, 0x5A), (0x61, 0x7A), (0x17F, 0x17F), (0x212A, 0x212A)]

def IsLatin (c : Char) : Prop := latinRanges.contains c.toNat = true

theorem isLatin_of_fold {c : Char} (hlow : 0x61 ≤ (fold c).toNat) (hhigh : (fold c).toNat ≤ 0x7A) :
    IsLatin c := by
  have hruns : ∀ run ∈ foldingRuns, 0x7A < run.image ∨
      latinRanges.covers run.first run.last = true := by
    decide +kernel
  rw [toNat_fold] at hlow hhigh
  obtain hsame | ⟨run, hrun, hfirst, hlast, happly⟩ := CaseRun.apply_eq_or foldingRuns c.toNat
  · rw [hsame] at hlow hhigh
    have hletters : latinRanges.covers 0x61 0x7A = true := by decide
    exact Ranges.contains_of_covers hletters hlow hhigh
  · refine Ranges.contains_of_covers ((hruns run hrun).resolve_left ?_) hfirst hlast
    omega

/-- Whether a text consists of letters from `a` to `z`. -/
def isLowercaseLatin (cs : List Char) : Bool := cs.all fun c => 0x61 ≤ c.toNat ∧ c.toNat ≤ 0x7A

theorem isLatin_of_fold_mem {c : Char} {letters : List Char}
    (hletters : isLowercaseLatin letters = true) (h : fold c ∈ letters) : IsLatin c := by
  obtain ⟨hlow, hhigh⟩ := of_decide_eq_true (List.all_eq_true.mp hletters _ h)
  exact isLatin_of_fold hlow hhigh

theorem isLatin_of_map_fold {word letters : List Char} (h : word.map fold = letters)
    (hletters : isLowercaseLatin letters = true) : ∀ c ∈ word, IsLatin c := fun _ hc =>
  isLatin_of_fold_mem hletters (h ▸ List.mem_map_of_mem hc)

namespace IsLatin

variable {c : Char}

theorem isWord (h : IsLatin c) : isWord c = true :=
  Ranges.contains_of_within isChain_wordRanges (by decide +kernel) h

theorem not_isBlank (h : IsLatin c) : isBlank c = false :=
  Ranges.not_contains_of_apart (by decide) h

theorem not_isDigit (h : IsLatin c) : isDigit c = false :=
  Ranges.not_contains_of_apart (by decide) h

end IsLatin

/-! ## Lower case of the 26 letters -/

theorem toLower_eq_self {c : Char} (h : ¬IsLatin c) : c.toLower = c := by
  refine dif_neg fun hupper => h ?_
  have hletters : latinRanges.covers 0x41 0x5A = true := by decide
  exact Ranges.contains_of_covers hletters (UInt32.le_iff_toNat_le.mp hupper.1)
    (UInt32.le_iff_toNat_le.mp hupper.2)

/-- But for the long `s` and the sign for kelvin, case folding puts letters into lower case. -/
theorem toLower_eq_fold {c : Char} (h : IsLatin c) (hs : fold c ≠ 's') (hk : fold c ≠ 'k') :
    c.toLower = fold c := by
  have hlow : ∀ n < 0x80, (Char.ofNat n).toLower = fold (Char.ofNat n) := by decide +kernel
  rw [IsLatin] at h
  simp only [latinRanges, Ranges.contains, Bool.and_eq_true, Bool.or_eq_true, decide_eq_true_eq,
    Bool.false_eq_true, or_false] at h
  rw [← Char.ofNat_toNat c] at hs hk ⊢
  obtain hascii | hlong | hkelvin : c.toNat < 0x80 ∨ c.toNat = 0x17F ∨ c.toNat = 0x212A := by
    omega
  · exact hlow c.toNat hascii
  · rw [hlong] at hs
    exact absurd (by decide +kernel) hs
  · rw [hkelvin] at hk
    exact absurd (by decide +kernel) hk

/-- Words in lower case, of which none starts with another. -/
structure AreApart (words : List (List Char)) : Prop where
  folded : ∀ word ∈ words, word.map fold = word
  apart : ∀ word ∈ words, ∀ other ∈ words, word <+: other → word = other

theorem AreApart.eq_of_prefix {words : List (List Char)} (h : AreApart words)
    {word other cs : List Char} (hword : word ∈ words) (hother : other ∈ words)
    (hstarts : word <+: cs) (hstarts' : other <+: cs) : word = other := by
  rcases List.prefix_or_prefix_of_prefix hstarts hstarts' with hle | hle
  · exact h.apart word hword other hother hle
  · exact (h.apart other hother word hword hle).symm

end ContractAnalysis.Text
