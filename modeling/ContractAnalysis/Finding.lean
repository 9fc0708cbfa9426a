import ContractAnalysis.Severity

/-!
# Findings

A finding is a defect of a contract, with its grade, the nodes involved and their lines.

* `Defect`: eleven known kinds of defect, and any other label as it is written
* `Finding`: a defect found by the structural checks or by a reviewer
* `Finding.symbolic`: a finding of the structural checks
-/

namespace ContractAnalysis

/-- The known kinds of defect. The first six are those of the structural checks. -/
inductive KnownDefect where
  | circularDependency
  | contradictoryObligations
  | orphanedObligation
  | danglingCondition
  | missingReciprocity
  | unmatchedReference
  | ambiguousLanguage
  | industryStandardGap
  | asymmetricTerms
  | inconsistentDefinitions
  | hiddenImplications
  deriving DecidableEq

namespace KnownDefect

def all : List KnownDefect :=
  [.circularDependency, .contradictoryObligations, .orphanedObligation, .danglingCondition,
   .missingReciprocity, .unmatchedReference, .ambiguousLanguage, .industryStandardGap,
   .asymmetricTerms, .inconsistentDefinitions, .hiddenImplications]

def label : KnownDefect → String
  | .circularDependency => "circular_dependency"
  | .contradictoryObligations => "contradictory_obligations"
  | .orphanedObligation => "orphaned_obligation"
  | .danglingCondition => "dangling_condition"
  | .missingReciprocity => "missing_reciprocity"
  | .unmatchedReference => "unmatched_reference"
  | .ambiguousLanguage => "ambiguous_language"
  | .industryStandardGap => "industry_standard_gap"
  | .asymmetricTerms => "asymmetric_terms"
  | .inconsistentDefinitions => "inconsistent_definitions"
  | .hiddenImplications => "hidden_implications"

/-- The known kind that a text names, whatever its case and the white space around it. -/
def ofText? (text : String) : Option KnownDefect :=
  let label := Text.lowercase (Text.trim text)
  all.find? (·.label == label)

end KnownDefect

/-- A kind of defect. -/
inductive Defect where
  | known (kind : KnownDefect)
  /-- A label that names no known kind, as it is written. -/
  | other (label : String)
  deriving DecidableEq

namespace Defect

def label : Defect → String
  | .known kind => kind.label
  | .other label => label

def ofLabel (label : String) : Defect :=
  match KnownDefect.ofText? label with
  | some kind => .known kind
  | none => .other label

def isKnown : Defect → Bool
  | .known _ => true
  | .other _ => false

end Defect

/-- Where a finding comes from. -/
inductive Origin where
  /-- The structural checks. -/
  | symbolic
  /-- A reviewer. -/
  | ai
  deriving DecidableEq

def Origin.label : Origin → String
  | .symbolic => "symbolic"
  | .ai => "ai"

/-- The origin that a label names, letter by letter. -/
def Origin.ofLabel? (label : String) : Option Origin :=
  [Origin.symbolic, .ai].find? (·.label == label)

/-- A defect of a contract. -/
structure Finding where
  defect : Defect
  severity : Severity
  description : String
  /-- The ids of the nodes involved. -/
  involved : List String
  /-- The document lines of the nodes involved, ascending and without repetition. -/
  lines : List Nat
  recommendation : Option String := none
  origin : Origin
  deriving DecidableEq

def Finding.symbolic (defect : Defect) (severity : Severity) (description : String)
    (involved : List String) (lines : List Nat) : Finding :=
  { defect, severity, description, involved, lines, origin := .symbolic }

/-- A number put into an ascending list without repetition. -/
def insertAscending (n : Nat) : List Nat → List Nat
  | [] => [n]
  | m :: ms => if n < m then n :: m :: ms else if n = m then m :: ms else m :: insertAscending n ms

/-- Numbers in ascending order, each once. -/
def ascending (ns : List Nat) : List Nat := ns.foldr insertAscending []

end ContractAnalysis
