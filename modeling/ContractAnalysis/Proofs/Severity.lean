import ContractAnalysis.Severity
import Mathlib.Data.Nat.Digits.Defs

/-!
# Counting grades

* `SeverityCounts.get?_set`: what one more number changes
* `SeveritySummary.count_ofSeverities`: a summary has the number of findings of each grade
* `SeveritySummary.sum_count_ofSeverities`: these numbers add up to all findings
-/

namespace ContractAnalysis

namespace SeverityCounts

theorem get?_set (counts : SeverityCounts) (severity other : Severity) (n : Nat) :
    (counts.set severity n).get? other =
      if other = severity then some n else counts.get? other := by
  cases severity <;> cases other <;> rfl

theorem getD_foldl (counts : SeverityCounts) (severities : List Severity) (severity : Severity) :
    ((severities.foldl (fun counts severity =>
        counts.set severity ((counts.get? severity).getD 0 + 1)) counts).get? severity).getD 0 =
      (counts.get? severity).getD 0 + severities.count severity := by
  induction severities generalizing counts with
  | nil => rfl
  | cons first rest ih =>
    rw [List.foldl_cons, ih, get?_set, List.count_cons]
    by_cases hsame : severity = first
    · simp only [hsame, if_true, Option.getD_some, beq_self_eq_true]
      omega
    · have hne : (first == severity) = false := by simpa using Ne.symm hsame
      simp [hsame, hne]

end SeverityCounts

theorem Severity.mem_descending (severity : Severity) : severity ∈ descending := by
  cases severity <;> decide

theorem Severity.sum_count (severities : List Severity) :
    (Severity.ascending.map severities.count).sum = severities.length := by
  induction severities with
  | nil => rfl
  | cons first rest ih =>
    simp only [Severity.ascending, List.map_cons, List.map_nil, List.sum_cons, List.sum_nil] at ih ⊢
    cases first <;> simp <;> omega

namespace SeveritySummary

theorem count_ofSeverities (severities : List Severity) (severity : Severity) :
    (ofSeverities severities).count severity = severities.count severity := by
  have hstart : (({} : SeverityCounts).get? severity).getD 0 = 0 := by cases severity <;> rfl
  rw [count, ofSeverities, SeverityCounts.ofList, SeverityCounts.getD_foldl, hstart, Nat.zero_add]

theorem sum_count_ofSeverities (severities : List Severity) :
    (Severity.ascending.map (ofSeverities severities).count).sum = severities.length := by
  have hcount : (ofSeverities severities).count = severities.count :=
    funext (count_ofSeverities severities)
  rw [hcount, Severity.sum_count]

end SeveritySummary

end ContractAnalysis
