import ContractAnalysis.Text.Basic

/-!
# Severity

* `Severity`: the four grades, ordered from low to critical
* `Severity.ofText?`: the grade that a word names, whatever its case and the white space around it
* `SeveritySummary`: how many findings there are of each grade
-/

namespace ContractAnalysis

/-- How bad a defect is. -/
inductive Severity where
  | low
  | medium
  | high
  | critical
  deriving DecidableEq

namespace Severity

def label : Severity → String
  | .low => "low"
  | .medium => "medium"
  | .high => "high"
  | .critical => "critical"

/-- The place of a grade in the order from low to critical. -/
def rank : Severity → Nat
  | .low => 0
  | .medium => 1
  | .high => 2
  | .critical => 3

instance : LE Severity := ⟨fun a b => a.rank ≤ b.rank⟩

instance (a b : Severity) : Decidable (a ≤ b) := inferInstanceAs (Decidable (a.rank ≤ b.rank))

def ascending : List Severity := [.low, .medium, .high, .critical]

/-- From critical to low, the order of reports. -/
def descending : List Severity := [.critical, .high, .medium, .low]

/-- The grade that a label names, letter by letter. -/
def ofLabel? (label : String) : Option Severity := ascending.find? (·.label == label)

/-- The grade that a word names, whatever its case and the white space around it. -/
def ofText? (text : String) : Option Severity := ofLabel? (Text.lowercase (Text.trim text))

end Severity

/-- A number for each grade that occurs. -/
structure SeverityCounts where
  low : Option Nat := none
  medium : Option Nat := none
  high : Option Nat := none
  critical : Option Nat := none
  deriving DecidableEq

namespace SeverityCounts

/-- The number for a grade, if it occurs. -/
def get? (counts : SeverityCounts) : Severity → Option Nat
  | .low => counts.low
  | .medium => counts.medium
  | .high => counts.high
  | .critical => counts.critical

def set (counts : SeverityCounts) (severity : Severity) (n : Nat) : SeverityCounts :=
  match severity with
  | .low => { counts with low := some n }
  | .medium => { counts with medium := some n }
  | .high => { counts with high := some n }
  | .critical => { counts with critical := some n }

/-- The grades that occur with their numbers, from low to critical. -/
def toList (counts : SeverityCounts) : List (Severity × Nat) :=
  Severity.ascending.filterMap fun severity => (counts.get? severity).map fun n => (severity, n)

def ofList (severities : List Severity) : SeverityCounts :=
  severities.foldl (fun counts severity => counts.set severity ((counts.get? severity).getD 0 + 1))
    {}

end SeverityCounts

/-- How many findings there are, in all and of each grade. -/
structure SeveritySummary where
  total : Nat
  bySeverity : SeverityCounts
  deriving DecidableEq

namespace SeveritySummary

def count (summary : SeveritySummary) (severity : Severity) : Nat :=
  (summary.bySeverity.get? severity).getD 0

def ofSeverities (severities : List Severity) : SeveritySummary :=
  ⟨severities.length, SeverityCounts.ofList severities⟩

end SeveritySummary

end ContractAnalysis
