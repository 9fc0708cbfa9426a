import ContractAnalysis.Failure
import ContractAnalysis.Text.Basic

/-!
# Clauses, facts and edges

A clause is a numbered part of a contract: a heading and the text under it. Its level says how
deeply it is nested, and its parent is the clause it is nested in. Facts are what clauses say:
obligations, rights, and the conditions under which they hold. Clauses and facts are the nodes of a
contract graph; an edge says how one bears on another.

Levels and lines are natural numbers here. They are written and read as numbers of 32 bits, so that
documents are taken to have fewer lines than these can count.

* `Clause`, `Obligation`, `Right`, `Condition`: the parts of a clause or of a fact
* `Clause.leveled`: a clause whose level is at least 1
* `Clause.scanText`: the text in which phrases are looked for
* `Node`, `NodeKind`: a clause or a fact, and which of the four it is
* `Edge`, `EdgeKind`: a directed connection between two node ids
* `EdgeKind.ofLabel`: the kind that a label names
-/

namespace ContractAnalysis

/-! ## Clauses -/

/-- A numbered part of a contract. -/
structure Clause where
  id : String
  /-- The label as it stands in the document, such as `4.2` or `Article IV`. -/
  number : Option String := none
  title : String
  body : String
  level : Nat
  /-- The id of the clause that this one is nested in. -/
  parent : Option String
  /-- The document line on which the scanned text starts, from 1. -/
  line : Option Nat := none
  deriving DecidableEq

/-- A clause without number and line; a level below 1 is raised to 1. -/
def Clause.leveled (id title body : String) (level : Nat) (parent : Option String) : Clause :=
  { id, title, body, level := max level 1, parent }

/-- The trimmed body, or the trimmed title where the body is blank. -/
def Clause.scanText (clause : Clause) : String :=
  let body := Text.trim clause.body
  if body.isEmpty then Text.trim clause.title else body

/-! ## Facts -/

/-- A party has to do something. -/
structure Obligation where
  id : String
  /-- Empty when nobody could be named. -/
  party : String
  action : String
  /-- The party that the action is for. -/
  target : Option String := none
  /-- The time limit, as written. -/
  temporal : Option String := none
  line : Option Nat := none
  deriving DecidableEq

/-- A party may do something. -/
structure Right where
  id : String
  party : String
  entitlement : String
  scope : Option String := none
  line : Option Nat := none
  deriving DecidableEq

/-- When something happens, something follows. -/
structure Condition where
  id : String
  trigger : String
  consequence : String
  /-- The clause numbers that the condition cites, as written. -/
  references : List String := []
  line : Option Nat := none
  deriving DecidableEq

/-! ## Nodes and edges -/

/-- The kinds of node. -/
inductive NodeKind where
  | clause
  | obligation
  | right
  | condition
  deriving DecidableEq

def NodeKind.label : NodeKind → String
  | .clause => "clause"
  | .obligation => "obligation"
  | .right => "right"
  | .condition => "condition"

def NodeKind.all : List NodeKind := [.clause, .obligation, .right, .condition]

/-- A clause or a fact. -/
inductive Node where
  | clause (clause : Clause)
  | obligation (obligation : Obligation)
  | right (right : Right)
  | condition (condition : Condition)
  deriving DecidableEq

namespace Node

def id : Node → String
  | .clause n => n.id
  | .obligation n => n.id
  | .right n => n.id
  | .condition n => n.id

def kind : Node → NodeKind
  | .clause _ => .clause
  | .obligation _ => .obligation
  | .right _ => .right
  | .condition _ => .condition

def line : Node → Option Nat
  | .clause n => n.line
  | .obligation n => n.line
  | .right n => n.line
  | .condition n => n.line

def clause? : Node → Option Clause
  | .clause n => some n
  | _ => none

def obligation? : Node → Option Obligation
  | .obligation n => some n
  | _ => none

def right? : Node → Option Right
  | .right n => some n
  | _ => none

def condition? : Node → Option Condition
  | .condition n => some n
  | _ => none

end Node

/-- How one node bears on another. -/
inductive EdgeKind where
  | references
  | derivedFrom
  | dependsOn
  | conflictsWith
  deriving DecidableEq

namespace EdgeKind

def all : List EdgeKind := [.references, .derivedFrom, .dependsOn, .conflictsWith]

def label : EdgeKind → String
  | .references => "references"
  | .derivedFrom => "derived_from"
  | .dependsOn => "depends_on"
  | .conflictsWith => "conflicts_with"

/-- The kind of edge that a label names, letter by letter. -/
def ofLabel (label : String) : Except Failure EdgeKind :=
  match all.find? (·.label == label) with
  | some kind => .ok kind
  | none => .error (.invalidEdgeLabel label)

end EdgeKind

/-- A directed connection between two nodes. -/
structure Edge where
  source : String
  target : String
  kind : EdgeKind
  deriving DecidableEq

end ContractAnalysis
