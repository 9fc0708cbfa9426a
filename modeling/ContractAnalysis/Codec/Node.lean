import ContractAnalysis.Graph.Basic
import ContractAnalysis.Json.Decoder

/-!
# Clauses, facts and graphs in JSON

Clauses and facts are objects of their parts. A node has its kind in front, under `type`. Decoding
keeps levels and lines as they are given.

* `Clause.toJson`, `Clause.decoder`, and the same for the other types of this module
* `Projection.toJson`, `Projection.decoder`: nodes and edges
-/

namespace ContractAnalysis

open Json

def Clause.fields (c : Clause) : List (String × Value) :=
  [("id", .string c.id), ("number", .stringOrNull c.number), ("title", .string c.title),
   ("body", .string c.body), ("level", .natural c.level), ("parent_id", .stringOrNull c.parent),
   ("line", .naturalOrNull c.line)]

def Clause.toJson (c : Clause) : Value := .object c.fields

def Clause.decoder : Decoder Clause :=
  .record ["id", "number", "title", "body", "level", "parent_id", "line"] 7 fun fields => do
    let id ← fields.required "id" .string
    let number ← fields.optional "number" .string
    let title ← fields.required "title" .string
    let body ← fields.required "body" .string
    let level ← fields.required "level" .natural32
    let parent ← fields.optional "parent_id" .string
    let line ← fields.optional "line" .natural32
    return { id, number, title, body, level, parent, line }

def Obligation.fields (o : Obligation) : List (String × Value) :=
  [("id", .string o.id), ("party", .string o.party), ("action", .string o.action),
   ("target_party", .stringOrNull o.target), ("temporal", .stringOrNull o.temporal),
   ("line", .naturalOrNull o.line)]

def Obligation.toJson (o : Obligation) : Value := .object o.fields

/-- Reads an obligation; a missing party is blank. -/
def Obligation.decoder : Decoder Obligation :=
  .record ["id", "party", "action", "target_party", "temporal", "line"] 6 fun fields => do
    let id ← fields.required "id" .string
    let party ← fields.withDefault "party" .string ""
    let action ← fields.required "action" .string
    let target ← fields.optional "target_party" .string
    let temporal ← fields.optional "temporal" .string
    let line ← fields.optional "line" .natural32
    return { id, party, action, target, temporal, line }

def Right.fields (r : Right) : List (String × Value) :=
  [("id", .string r.id), ("party", .string r.party), ("entitlement", .string r.entitlement),
   ("scope", .stringOrNull r.scope), ("line", .naturalOrNull r.line)]

def Right.toJson (r : Right) : Value := .object r.fields

/-- Reads a right; a missing party is blank. -/
def Right.decoder : Decoder Right :=
  .record ["id", "party", "entitlement", "scope", "line"] 5 fun fields => do
    let id ← fields.required "id" .string
    let party ← fields.withDefault "party" .string ""
    let entitlement ← fields.required "entitlement" .string
    let scope ← fields.optional "scope" .string
    let line ← fields.optional "line" .natural32
    return { id, party, entitlement, scope, line }

def Condition.fields (c : Condition) : List (String × Value) :=
  [("id", .string c.id), ("trigger", .string c.trigger), ("consequence", .string c.consequence),
   ("referenced_clauses", .strings c.references), ("line", .naturalOrNull c.line)]

def Condition.toJson (c : Condition) : Value := .object c.fields

/-- Reads a condition; missing references are none. -/
def Condition.decoder : Decoder Condition :=
  .record ["id", "trigger", "consequence", "referenced_clauses", "line"] 5 fun fields => do
    let id ← fields.required "id" .string
    let trigger ← fields.required "trigger" .string
    let consequence ← fields.required "consequence" .string
    let references ← fields.withDefault "referenced_clauses" (.list .string) []
    let line ← fields.optional "line" .natural32
    return { id, trigger, consequence, references, line }

/-- The kind of node that a label names, letter by letter. -/
def NodeKind.ofLabel? (label : String) : Option NodeKind :=
  NodeKind.all.find? (·.label == label)

def NodeKind.decoder : Decoder NodeKind := .named NodeKind.ofLabel?

/-- The fields of a node but for its kind. -/
def Node.fields : Node → List (String × Value)
  | .clause n => n.fields
  | .obligation n => n.fields
  | .right n => n.fields
  | .condition n => n.fields

def Node.toJson (n : Node) : Value := .object (("type", .string n.kind.label) :: n.fields)

def Node.decoderOf (kind : NodeKind) : Decoder Node := fun depth source =>
  match kind with
  | .clause => (Clause.decoder depth source).map .clause
  | .obligation => (Obligation.decoder depth source).map .obligation
  | .right => (Right.decoder depth source).map .right
  | .condition => (Condition.decoder depth source).map .condition

/-- Reads a node: its kind from the field `type` or the first item, and the rest as its kind asks.
Everything in it has to be sound, also what its kind does not ask for. -/
def Node.decoder : Decoder Node
  | depth + 1, .object fields true => do
    let _ ← Decoder.value (depth + 1) (.object fields true)
    let (kinds, rest) := fields.partition fun field => field.1 == some "type"
    match kinds with
    | [(_, .string (some label))] =>
      let kind ← NodeKind.ofLabel? label
      Node.decoderOf kind (depth + 1) (.object rest true)
    | _ => none
  | depth + 1, .array (.string (some label) :: items) true => do
    let _ ← Decoder.value (depth + 1) (.array items true)
    let kind ← NodeKind.ofLabel? label
    Node.decoderOf kind (depth + 1) (.array items true)
  | _, _ => none

/-- The kind of edge that a label names, letter by letter. -/
def EdgeKind.ofLabel? (label : String) : Option EdgeKind :=
  EdgeKind.all.find? (·.label == label)

def EdgeKind.decoder : Decoder EdgeKind := .named EdgeKind.ofLabel?

def Edge.toJson (e : Edge) : Value :=
  .object [("from", .string e.source), ("to", .string e.target), ("type", .string e.kind.label)]

def Edge.decoder : Decoder Edge :=
  .record ["from", "to", "type"] 3 fun fields => do
    let source ← fields.required "from" .string
    let target ← fields.required "to" .string
    let kind ← fields.required "type" EdgeKind.decoder
    return { source, target, kind }

def Projection.toJson (p : Projection) : Value :=
  .object [("nodes", .array (p.nodes.map Node.toJson)), ("edges", .array (p.edges.map Edge.toJson))]

def Projection.decoder : Decoder Projection :=
  .record ["nodes", "edges"] 2 fun fields => do
    let nodes ← fields.required "nodes" (.list Node.decoder)
    let edges ← fields.required "edges" (.list Edge.decoder)
    return { nodes, edges }

end ContractAnalysis
