/-!
# JSON values, and how they are written

A source tree is what a JSON text says, read up to the first place where its grammar breaks. It
keeps what a decoder may object to: fields given twice, texts that no characters can form, and
numbers beyond the range of a double.

In texts that are written, quotation marks, backslashes and control characters are escaped, and
nothing else is.

* `Number`, `Value`: numbers and values
* `Value.get?`: the value of a field
* `Source`: the tree of a text
* `Value.toSource`: a value as the tree of a text that writes it
* `Value.compact`: a value without white space
* `Value.pretty`: a line for each item and field, indented by two spaces for each level
-/

namespace ContractAnalysis.Json

/-! ## Values and trees -/

/-- A number: a natural number written with digits alone, or any other literal as it is written. -/
inductive Number where
  | natural (n : Nat)
  | other (literal : String)
  deriving DecidableEq

/-- A JSON value. The fields of an object keep their order. -/
inductive Value where
  | null
  | bool (b : Bool)
  | number (n : Number)
  | string (s : String)
  | array (items : List Value)
  | object (fields : List (String × Value))

namespace Value

def natural (n : Nat) : Value := .number (.natural n)

/-- A text, or null where there is none. -/
def stringOrNull : Option String → Value
  | some s => .string s
  | none => .null

/-- A natural number, or null where there is none. -/
def naturalOrNull : Option Nat → Value
  | some n => .natural n
  | none => .null

def strings (ss : List String) : Value := .array (ss.map .string)

def get? : Value → String → Option Value
  | .object fields, name => fields.lookup name
  | _, _ => none

end Value

/-! ## Source trees -/

/-- What a JSON text says. -/
inductive Source where
  | null
  | bool (b : Bool)
  /-- A number, and whether a double of its size is finite. -/
  | number (n : Number) (finite : Bool)
  /-- A text; nothing where its escapes form no characters. -/
  | string (s : Option String)
  /-- The items, and whether the array is closed. -/
  | array (items : List Source) (closed : Bool)
  /-- The fields with their names, and whether the object is closed. -/
  | object (fields : List (Option String × Source)) (closed : Bool)
  /-- The grammar breaks here. -/
  | fault

mutual

/-- A value as the tree of a text that writes it. -/
def Value.toSource : Value → Source
  | .null => .null
  | .bool b => .bool b
  | .number n => .number n true
  | .string s => .string (some s)
  | .array items => .array (Value.itemsToSource items) true
  | .object fields => .object (Value.fieldsToSource fields) true

def Value.itemsToSource : List Value → List Source
  | [] => []
  | item :: rest => item.toSource :: Value.itemsToSource rest

def Value.fieldsToSource : List (String × Value) → List (Option String × Source)
  | [] => []
  | (name, value) :: rest => (some name, value.toSource) :: Value.fieldsToSource rest

end

/-! ## Writing -/

def hexDigit (n : Nat) : Char := if n < 10 then Char.ofNat (48 + n) else Char.ofNat (87 + n)

def escapeChar (c : Char) : List Char :=
  if c = '"' then ['\\', '"']
  else if c = '\\' then ['\\', '\\']
  else if c.toNat = 8 then ['\\', 'b']
  else if c = '\t' then ['\\', 't']
  else if c = '\n' then ['\\', 'n']
  else if c.toNat = 12 then ['\\', 'f']
  else if c = '\r' then ['\\', 'r']
  else if c.toNat < 32 then
    ['\\', 'u', '0', '0', hexDigit (c.toNat / 16), hexDigit (c.toNat % 16)]
  else [c]

def quote (s : String) : String := "\"" ++ String.ofList (s.toList.flatMap escapeChar) ++ "\""

def Number.print : Number → String
  | .natural n => toString n
  | .other literal => literal

namespace Value

mutual

/-- A value without white space. -/
def compact : Value → String
  | .null => "null"
  | .bool b => if b then "true" else "false"
  | .number n => n.print
  | .string s => quote s
  | .array items => "[" ++ compactItems items ++ "]"
  | .object fields => "\x7b" ++ compactFields fields ++ "\x7d"

def compactItems : List Value → String
  | [] => ""
  | [item] => compact item
  | item :: rest => compact item ++ "," ++ compactItems rest

def compactFields : List (String × Value) → String
  | [] => ""
  | [(name, value)] => quote name ++ ":" ++ compact value
  | (name, value) :: rest => quote name ++ ":" ++ compact value ++ "," ++ compactFields rest

end

def newLine (level : Nat) : String := "\n" ++ String.ofList (List.replicate (2 * level) ' ')

mutual

def prettyAt : Nat → Value → String
  | _, .null => "null"
  | _, .bool b => if b then "true" else "false"
  | _, .number n => n.print
  | _, .string s => quote s
  | level, .array items =>
    if items.isEmpty then "[]" else "[" ++ prettyItems (level + 1) items ++ newLine level ++ "]"
  | level, .object fields =>
    if fields.isEmpty then "\x7b\x7d"
    else "\x7b" ++ prettyFields (level + 1) fields ++ newLine level ++ "\x7d"

/-- Items on lines of a level, with commas between them. -/
def prettyItems : Nat → List Value → String
  | _, [] => ""
  | level, [item] => newLine level ++ prettyAt level item
  | level, item :: rest => newLine level ++ prettyAt level item ++ "," ++ prettyItems level rest

/-- Fields on lines of a level, with commas between them. -/
def prettyFields : Nat → List (String × Value) → String
  | _, [] => ""
  | level, [(name, value)] => newLine level ++ quote name ++ ": " ++ prettyAt level value
  | level, (name, value) :: rest =>
    newLine level ++ quote name ++ ": " ++ prettyAt level value ++ "," ++ prettyFields level rest

end

def pretty (value : Value) : String := prettyAt 0 value

end Value

end ContractAnalysis.Json
