import ContractAnalysis.Json.Reader

/-!
# Decoding JSON

A decoder reads a value of some type off a source tree. It is told how many arrays and objects may
still be nested in each other; a text may nest 127.

* `Decoder.string`, `Decoder.bool`, `Decoder.natural`, `Decoder.list`, …: the usual types
* `Decoder.value`: any value; of a field given twice the last one counts
* `Decoder.record`: an object with known fields, or an array of them in order
* `Decoder.decodeText`, `Decoder.decodeValue`: decoding a text, or a value already read
-/

namespace ContractAnalysis.Json

/-- Reads a value of some type off a source tree that may nest so deep. -/
abbrev Decoder (α : Type) := Nat → Source → Option α

namespace Decoder

variable {α β : Type}

def maxDepth : Nat := 127

def string : Decoder String
  | _, .string s => s
  | _, _ => none

def bool : Decoder Bool
  | _, .bool b => some b
  | _, _ => none

def natural (bound : Nat) : Decoder Nat
  | _, .number (.natural n) true => if n < bound then some n else none
  | _, _ => none

def natural32 : Decoder Nat := natural (Nat.pow 2 32)

def natural64 : Decoder Nat := natural (Nat.pow 2 64)

/-- Null, or what a decoder reads. -/
def nullable (decoder : Decoder α) : Decoder (Option α)
  | _, .null => some none
  | depth, source => (decoder depth source).map some

def list (decoder : Decoder α) : Decoder (List α)
  | depth + 1, .array items true => items.mapM (decoder depth)
  | _, _ => none

def mapOption (decoder : Decoder α) (f : α → Option β) : Decoder β :=
  fun depth source => (decoder depth source).bind f

/-- One of several names, as a text or as the only field of an object, with null. -/
def named (ofLabel? : String → Option α) : Decoder α
  | _, .string (some s) => ofLabel? s
  | _ + 1, .object [(some s, .null)] true => ofLabel? s
  | _, _ => none

def putLast (fields : List (String × Value)) (field : String × Value) : List (String × Value) :=
  fields.filter (fun other => other.1 != field.1) ++ [field]

/-- Any value; of a field given twice the last one counts. -/
def value : Decoder Value
  | _, .null => some .null
  | _, .bool b => some (.bool b)
  | _, .number n true => some (.number n)
  | _, .string (some s) => some (.string s)
  | depth + 1, .array items true => (items.mapM (value depth)).map .array
  | depth + 1, .object fields true =>
    (fields.mapM fun (field : Option String × Source) => do
      let name ← field.1
      let value ← value depth field.2
      some (name, value)).map fun (fields : List (String × Value)) =>
        .object (fields.foldl putLast [])
  | _, _ => none

/-- The fields of a record that a text gives, with the depth left for their values. -/
structure Fields where
  depth : Nat
  given : List (String × Source)

/-- The fields of an object or array that stands for a record with these field names, of which the
first `needed` have to be there in an array. An object may have other fields, but gives no field of
the record twice. -/
def fields (names : List String) (needed : Nat) : Decoder Fields
  | depth + 1, .object fields true => do
    let fields ← fields.mapM fun (field : Option String × Source) =>
      field.1.map fun name => (name, field.2)
    let given := fields.filter fun (name, _) => names.contains name
    if (given.map (·.1)).Nodup then some ⟨depth, given⟩ else none
  | depth + 1, .array items true =>
    if needed ≤ items.length ∧ items.length ≤ names.length then some ⟨depth, names.zip items⟩
    else none
  | _, _ => none

/-- A record, read off its fields. -/
def record (names : List String) (needed : Nat) (read : Fields → Option α) : Decoder α :=
  fun depth source => (fields names needed depth source).bind read

namespace Fields

def required (fields : Fields) (name : String) (decoder : Decoder α) : Option α := do
  let source ← fields.given.lookup name
  decoder fields.depth source

/-- A field that has a value of its own when it is missing. -/
def withDefault (fields : Fields) (name : String) (decoder : Decoder α) (default : α) :
    Option α :=
  match fields.given.lookup name with
  | some source => decoder fields.depth source
  | none => some default

def optional (fields : Fields) (name : String) (decoder : Decoder α) : Option (Option α) :=
  fields.withDefault name (nullable decoder) none

end Fields

/-- What a decoder reads off a text that holds nothing but one value. -/
def decodeText (decoder : Decoder α) (text : String) : Option α :=
  let (source, ended) := read text
  if ended then decoder maxDepth source else none

def decodeValue (decoder : Decoder α) (v : Value) : Option α := decoder maxDepth v.toSource

end Decoder

end ContractAnalysis.Json
