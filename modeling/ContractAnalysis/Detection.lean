import ContractAnalysis.Finding
import ContractAnalysis.Graph.Path
import ContractAnalysis.Pattern.Match

/-!
# Structural checks

Six checks look for defects in the structure of a contract. Each lists one finding for each defect.

* `circularDependencies`: the cycles that the depth-first search closes
* `contradictoryObligations`: pairs of obligations of one party of which one is negated and the
  other is not, and which speak largely of the same: more than half of the words of both together,
  without the negation, are common to both
* `orphanedObligations`: obligations of a blank party
* `danglingConditions`: conditions that are not used: no edge other than a derivation leaves them,
  and nothing depends on them
* `missingReciprocities`: parties, in any case of their letters, with obligations and no rights
* `unmatchedReferences`: numbers that a condition cites and that are part of the id of no clause
* `findingsOf`: the findings of all of them, check by check
-/

namespace ContractAnalysis

/-- The document lines of the nodes with these ids, ascending and without repetition. -/
def Graph.linesOf (g : Graph) (ids : List String) : List Nat :=
  ascending (ids.filterMap fun id => (g.node? id).bind Node.line)

/-! ## Circular dependencies -/

def circularDependency (g : Graph) (cycle : List String) : Finding :=
  .symbolic (.known .circularDependency) .critical
    ("Circular dependency detected: " ++ " -> ".intercalate cycle) cycle (g.linesOf cycle)

/-- One finding for each cycle that the depth-first search closes. -/
def circularDependencies (g : Graph) : List Finding := g.cycles.map (circularDependency g)

/-! ## Contradictory obligations -/

/-- The word `not` and the white space after it. -/
def negation : Expression where
  flags := {}
  pattern := Pattern.wordBoundary ++ (Pattern.literal "not" ++ Pattern.gap)

def isNegated (action : List Char) : Bool := Text.occursIn "not ".toList action

/-- The words of a text, each once. -/
def distinctWords (text : List Char) : List (List Char) := (Text.splitBlank text).eraseDups

/-- Whether more than half of the words of two lists together are common to both. No word is twice
in a list. -/
def shareMostWords (left right : List (List Char)) : Bool :=
  let common := (left.filter right.contains).length
  2 * common > left.length + right.length - common

/-- An obligation as it is compared with others. -/
structure Stance where
  obligation : Obligation
  /-- The party in lower case. -/
  party : String
  negated : Bool
  /-- What the action in lower case says without negations, each word once. -/
  words : Thunk (List (List Char))

def Stance.of (o : Obligation) : Stance :=
  let action := Text.lowercaseChars o.action.toList
  { obligation := o
    party := Text.lowercase o.party
    negated := isNegated action
    words := ⟨fun _ => distinctWords (negation.removeAll action)⟩ }

/-- Whether two obligations contradict each other. -/
def Stance.contradicts (first second : Stance) : Bool :=
  first.party == second.party && first.negated != second.negated &&
    shareMostWords first.words.get second.words.get

/-- The pairs of an element with each later one. -/
def pairs {α : Type} : List α → List (α × α)
  | [] => []
  | x :: xs => xs.map (fun y => (x, y)) ++ pairs xs

def contradiction (g : Graph) (first second : Obligation) : Finding :=
  let involved := [first.id, second.id]
  .symbolic (.known .contradictoryObligations) .critical
    (first.party ++ " has contradictory obligations: '" ++ first.action ++ "' vs '" ++
      second.action ++ "'")
    involved (g.linesOf involved)

/-- One finding for each pair of contradictory obligations. -/
def contradictoryObligations (g : Graph) : List Finding :=
  ((pairs (g.obligations.map Stance.of)).filter fun (first, second) =>
      first.contradicts second).map
    fun (first, second) => contradiction g first.obligation second.obligation

/-! ## Orphaned obligations -/

def orphanedObligation (o : Obligation) : Finding :=
  .symbolic (.known .orphanedObligation) .high
    ("Obligation '" ++ o.action ++ "' has no associated party") [o.id] o.line.toList

/-- One finding for each obligation of a blank party. -/
def orphanedObligations (g : Graph) : List Finding :=
  (g.obligations.filter fun o => Text.isBlankText o.party).map orphanedObligation

/-! ## Dangling conditions -/

def isUsed (g : Graph) (c : Condition) : Bool :=
  (g.outgoing c.id).any (fun edge => edge.kind != .derivedFrom) ||
    (g.incoming c.id).any (fun edge => edge.kind == .dependsOn)

/-- The finding for a condition that is not used. -/
def danglingCondition (c : Condition) : Finding :=
  .symbolic (.known .danglingCondition) .medium
    ("Condition '" ++ c.trigger ++
      "' is defined but never referenced by any obligation or right")
    [c.id] c.line.toList

/-- One finding for each condition that is not used. -/
def danglingConditions (g : Graph) : List Finding :=
  (g.conditions.filter fun c => !isUsed g c).map danglingCondition

/-! ## Missing reciprocity -/

/-- A party in lower case and its obligations. -/
structure PartyGroup where
  party : String
  obligations : List Obligation
  deriving DecidableEq

/-- An obligation of a party put into the group of the party, or into a new group at the end. -/
def insertByParty (party : String) (o : Obligation) : List PartyGroup → List PartyGroup
  | [] => [⟨party, [o]⟩]
  | group :: groups =>
    if group.party = party then { group with obligations := group.obligations ++ [o] } :: groups
    else group :: insertByParty party o groups

/-- The obligations of each party, in the order in which the parties first appear. -/
def groupByParty (obligations : List Obligation) : List PartyGroup :=
  obligations.foldl (fun groups o => insertByParty (Text.lowercase o.party) o groups) []

/-- The parties that have rights, in lower case. -/
def entitledParties (g : Graph) : List String := g.rights.map fun r => Text.lowercase r.party

def missingReciprocity (g : Graph) (group : PartyGroup) : Finding :=
  let involved := group.obligations.map (·.id)
  .symbolic (.known .missingReciprocity) .medium
    ("Party '" ++ group.party ++ "' has obligations but no corresponding rights")
    involved (g.linesOf involved)

/-- One finding for each party with obligations and no rights. -/
def missingReciprocities (g : Graph) : List Finding :=
  let entitled := entitledParties g
  ((groupByParty g.obligations).filter fun group => !entitled.contains group.party).map
    (missingReciprocity g)

/-! ## Unmatched references -/

/-- The finding for a citation that is not matched. -/
def unmatchedReference (c : Condition) (reference : String) : Finding :=
  .symbolic (.known .unmatchedReference) .high
    ("Condition '" ++ c.trigger ++ "' references clause '" ++ reference ++ "' which does not exist")
    [c.id] c.line.toList

/-- Whether a number is part of the id of some clause. -/
def isMatched (clauseIds : List String) (reference : String) : Bool :=
  clauseIds.any fun id => Text.contains id reference

/-- One finding for each citation of a condition that is not matched. -/
def unmatchedReferences (g : Graph) : List Finding :=
  let clauseIds := g.clauses.map (·.id)
  g.conditions.flatMap fun c =>
    (c.references.filter fun reference => !isMatched clauseIds reference).map
      (unmatchedReference c)

/-! ## All checks -/

/-- The findings of the six structural checks: circular dependencies, contradictory obligations,
orphaned obligations, dangling conditions, missing reciprocity and unmatched references. -/
def findingsOf (g : Graph) : List Finding :=
  circularDependencies g ++ contradictoryObligations g ++ orphanedObligations g ++
    danglingConditions g ++ missingReciprocities g ++ unmatchedReferences g

end ContractAnalysis
