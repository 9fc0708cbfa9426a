import ContractAnalysis.Citation
import ContractAnalysis.Pattern.Basic

/-!
# Roles and fact rules

The parties of a contract are known by role nouns: `Seller`, `Tenant` and the like. A role is named
by a text when the noun occurs in it as a whole word, in any case.

A fact rule looks for a kind of phrase and turns each match into a node. The two captures of its
expression are party and action of an obligation, party and entitlement of a right, or trigger and
consequence of a condition.

* `roleNouns`: the roster of roles
* `partiesIn`, `firstPartyIn`: the roles that a text names, in roster order, and the first of them
* `FactRule`: category, expression, the phrase by which the line is found, and the node to build
* `FactRule.standard`: the three rules for ordinary contract language
* `FactRule.undertaking`, `FactRule.cancellation`: two more rules for a table
-/

namespace ContractAnalysis

/-! ## Roles -/

def roleNouns : List String :=
  ["Seller", "Buyer", "Company", "Employee", "Contractor", "Client", "Landlord", "Tenant",
   "Licensor", "Licensee", "Provider", "Customer", "Vendor", "Supplier", "Lessee", "Lessor",
   "Borrower", "Lender"]

/-- A noun as a whole word, in any case. -/
def wholeWord (noun : String) : Expression where
  flags := { ignoreCase := true }
  pattern := Pattern.wordBoundary ++ (Pattern.literal noun ++ Pattern.wordBoundary)

def namesRole (text : String) (noun : String) : Bool := (wholeWord noun).isMatch text.toList

/-- The roles that a text names, in roster order. -/
def partiesIn (text : String) : List String := roleNouns.filter (namesRole text)

def firstPartyIn (text : String) : Option String := roleNouns.find? (namesRole text)

/-! ## Rules -/

/-- The categories of facts; each numbers its facts on its own. -/
inductive FactCategory where
  | obligation
  | right
  | condition
  deriving DecidableEq

namespace FactCategory

def stem : FactCategory → String
  | .obligation => "obl"
  | .right => "right"
  | .condition => "cond"

def all : List FactCategory := [.obligation, .right, .condition]

/-- The id of the `n`-th fact of a category. -/
def factId (category : FactCategory) (n : Nat) : String := category.stem ++ "_" ++ toString n

def name : FactCategory → String
  | .obligation => "Obligation"
  | .right => "Right"
  | .condition => "Condition"

end FactCategory

/-- The phrase by which the line of a fact is found. -/
inductive Anchor where
  | first
  | second
  deriving DecidableEq

def Anchor.name : Anchor → String
  | .first => "First"
  | .second => "Second"

/-- The two phrases that a rule captures. -/
structure FactMatch where
  first : String
  second : String
  deriving DecidableEq

def FactMatch.anchored (m : FactMatch) : Anchor → String
  | .first => m.first
  | .second => m.second

/-- A kind of phrase and the node that a match of it becomes. -/
structure FactRule where
  category : FactCategory
  expression : Expression
  anchor : Anchor
  /-- The node for an id, the captured phrases and the line of the anchor. -/
  build : String → FactMatch → Option Nat → Node

namespace FactRule

open Pattern

/-- A word, perhaps after `the`, that is captured as the party. -/
def party : Pattern := optional (literal "the" ++ gap) ++ capture 1 aWord

/-- Something up to a full stop before white space, or to the end of the line, that is captured as
what the fact says. -/
def upToStop : Pattern :=
  capture 2 (plus .lazy (one .any)) ++
    alt (one (.only '.') ++ one .blank) finish

/-- Anywhere in a text, in any case, line by line. -/
def perLine : Flags := { ignoreCase := true, multiLine := true }

/-- A party shall, must, agrees to or is required to do something. -/
def obligationExpression : Expression where
  flags := perLine
  pattern := party ++ (gap ++
    (oneOf [literal "shall", literal "must",
        literal "agree" ++ (optional (one (.only 's')) ++ (gap ++ literal "to")),
        phrase ["is", "required", "to"]] ++
      (gap ++ upToStop)))

/-- A party may, is entitled to or has the right to do something. -/
def rightExpression : Expression where
  flags := perLine
  pattern := party ++ (gap ++
    (oneOf [literal "may", phrase ["is", "entitled", "to"], phrase ["has", "the", "right", "to"]] ++
      (gap ++ upToStop)))

/-- If, provided that, subject to or upon something, then something else. -/
def conditionExpression : Expression where
  flags := perLine
  pattern := wordBoundary ++
    (oneOf [literal "if", phrase ["provided", "that"], phrase ["subject", "to"], literal "upon"] ++
      (gap ++ (capture 1 (plus .lazy (one .any)) ++
        (one (.only ',') ++ (star .greedy (one .blank) ++ upToStop)))))

/-- A time limit such as `within 30 days`. -/
def timeLimit : Expression where
  flags := { ignoreCase := true }
  pattern := oneOf [literal "within", literal "before", literal "after",
      phrase ["no", "later", "than"]] ++
    (gap ++ (digits ++ (gap ++ aWord)))

/-- An obligation; its time limit and the party it is for are read off the action. -/
def buildObligation (id : String) (m : FactMatch) (line : Option Nat) : Node :=
  let action := Text.trim m.second
  .obligation {
    id, action, line
    party := Text.trim m.first
    target := firstPartyIn action
    temporal := (timeLimit.find? action.toList).map fun t => String.ofList t.text }

def buildRight (id : String) (m : FactMatch) (line : Option Nat) : Node :=
  .right { id, line, party := Text.trim m.first, entitlement := Text.trim m.second }

/-- A condition with the clause numbers that its two phrases cite. -/
def buildCondition (id : String) (m : FactMatch) (line : Option Nat) : Node :=
  .condition {
    id, line
    trigger := Text.trim m.first
    consequence := Text.trim m.second
    references := citedNumbers (m.first ++ " " ++ m.second) }

def obligations : FactRule := ⟨.obligation, obligationExpression, .second, buildObligation⟩

def rights : FactRule := ⟨.right, rightExpression, .second, buildRight⟩

def conditions : FactRule := ⟨.condition, conditionExpression, .first, buildCondition⟩

def standard : List FactRule := [obligations, rights, conditions]

/-- A party undertakes to do something: an obligation with the phrases as captured. -/
def undertaking : FactRule where
  category := .obligation
  expression := {
    flags := { dotAll := true }
    pattern := capture 1 aWord ++ (gap ++ (literal "undertakes" ++ (gap ++
      capture 2 (literal "to" ++ plus .greedy (one .any))))) }
  anchor := .second
  build id m line := .obligation { id, line, party := m.first, action := m.second }

/-- A party can cancel something: a right of termination. -/
def cancellation : FactRule where
  category := .right
  expression := {
    flags := { ignoreCase := true }
    pattern := capture 1 aWord ++ (gap ++ (literal "can" ++ (gap ++ (literal "cancel" ++
      optional (gap ++ capture 2 aWord))))) }
  anchor := .first
  build id m line :=
    .right { id, line, party := m.first, entitlement := m.second, scope := some "termination" }

def anchoredAt (rule : FactRule) (anchor : Anchor) : FactRule := { rule with anchor }

/-- The rule with nodes that do not keep the id they are handed: every match becomes a right of the
same id. -/
def withFixedId (rule : FactRule) (fixed scope : String) : FactRule :=
  { rule with
    build := fun _ m line =>
      .right { id := fixed, line, party := m.first, entitlement := m.second, scope := some scope } }

def quotedChar (c : Char) : String :=
  if c = '\\' || c = '"' then "\\" ++ String.singleton c else String.singleton c

/-- A text between quotation marks, with backslashes before quotation marks and backslashes. -/
def quoted (text : String) : String :=
  "\"" ++ String.join (text.toList.map quotedChar) ++ "\""

/-- A rule in words, but for the node it builds. -/
def describe (rule : FactRule) : String :=
  "FactRule \x7b category: " ++ rule.category.name ++
    ", pattern: " ++ quoted rule.expression.render ++
    ", anchor: " ++ rule.anchor.name ++ ", .. \x7d"

end FactRule

end ContractAnalysis
