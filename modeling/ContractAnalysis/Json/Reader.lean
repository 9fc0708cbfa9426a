import ContractAnalysis.Json.Value

/-!
# Reading JSON

The reader turns a text into a source tree. It never fails: where the grammar breaks the tree has a
fault, the arrays and objects around it stay open, and nothing after it is read.

* `readNumber`, `readString`: the scalars with an inner grammar
* `readValue`: a value and the text after it
* `read`: a whole text and what follows its value
-/

namespace ContractAnalysis.Json

def isSpace (c : Char) : Bool := c == ' ' || c == '\n' || c == '\t' || c == '\r'

/-- A text without the white space at its start. -/
def skipSpace (cs : List Char) : List Char := cs.dropWhile isSpace

def isDigit (c : Char) : Bool := '0' ≤ c && c ≤ '9'

def digitsValue (ds : List Char) : Nat := ds.foldl (fun n d => 10 * n + (d.toNat - 48)) 0

/-! ## Numbers -/

/-- The parts of a number. -/
structure NumberLiteral where
  negative : Bool
  whole : List Char
  /-- The digits after the point. -/
  fraction : Option (List Char)
  /-- Whether the exponent is negative, and its digits. -/
  exponent : Option (Bool × List Char)

/-- Appends digits to a number as long as it fits into 64 bits; the number, and the digits from the
first one that does not fit. -/
def appendDigits (n : Nat) : List Char → Nat × List Char
  | [] => (n, [])
  | d :: ds =>
    let more := 10 * n + (d.toNat - 48)
    if more < Nat.pow 2 64 then appendDigits more ds else (n, d :: ds)

/-- The nearest number of at most 53 binary digits, of two that are equally near the even one. This
is what a double keeps of a number that is not too large for it. -/
def roundToDouble (n : Nat) : Nat :=
  let unit := Nat.pow 2 (n.log2 - 52)
  let count := n / unit
  let rest := n % unit
  (if unit < 2 * rest || (unit == 2 * rest && count % 2 == 1) then count + 1 else count) * unit

/-- The least size that rounds to no finite double: the middle between the largest double and the
power of two above it. -/
def doubleBound : Nat := Nat.pow 2 1024 - Nat.pow 2 970

namespace NumberLiteral

/-- The significand of a number and the power of ten that scales it. Digits that do not fit into
the significand are dropped; before the point they still count as places. -/
def scaled (n : NumberLiteral) : Nat × Int :=
  let fraction := n.fraction.getD []
  let (whole, dropped) := appendDigits 0 n.whole
  let (significand, unread) := appendDigits whole fraction
  let places : Int := (dropped.length : Int) - (fraction.length - unread.length : Nat)
  let exponent : Int :=
    match n.exponent with
    | none => 0
    | some (negative, ds) => if negative then -(digitsValue ds : Int) else digitsValue ds
  (significand, places + exponent)

/-- Whether a number stays within the range of a double when it is computed as a significand times
a power of ten, each of the three rounded. No power above the 308th is a double. -/
def isFinite (n : NumberLiteral) : Bool :=
  match n.scaled with
  | (0, _) => true
  | (_, .negSucc _) => true
  | (significand, .ofNat e) =>
    e ≤ 308 && roundToDouble significand * roundToDouble (Nat.pow 10 e) < doubleBound

def isNatural (n : NumberLiteral) : Bool :=
  !n.negative && n.fraction.isNone && n.exponent.isNone

end NumberLiteral

/-- At least one digit, and the text after the digits. -/
def readDigits (cs : List Char) : Option (List Char × List Char) :=
  let ds := cs.takeWhile isDigit
  if ds.isEmpty then none else some (ds, cs.dropWhile isDigit)

/-- A minus sign, if there is one. -/
def readMinus : List Char → Bool × List Char
  | '-' :: rest => (true, rest)
  | cs => (false, cs)

/-- A sign, if there is one; whether it is a minus. -/
def readSign : List Char → Bool × List Char
  | '-' :: rest => (true, rest)
  | '+' :: rest => (false, rest)
  | cs => (false, cs)

/-- A point and digits, if there is a point. -/
def readFraction : List Char → Option (Option (List Char) × List Char)
  | '.' :: rest => (readDigits rest).map fun (ds, rest) => (some ds, rest)
  | cs => some (none, cs)

/-- An exponent, if there is one. -/
def readExponent : List Char → Option (Option (Bool × List Char) × List Char)
  | c :: rest =>
    if c = 'e' ∨ c = 'E' then
      let (negative, rest) := readSign rest
      (readDigits rest).map fun (ds, rest) => (some (negative, ds), rest)
    else some (none, c :: rest)
  | [] => some (none, [])

/-- A number and the text after it. A number of several digits does not start with zero. -/
def readNumber (cs : List Char) : Option (Source × List Char) := do
  let (negative, rest) := readMinus cs
  let (whole, rest) ← readDigits rest
  if whole.head? = some '0' ∧ whole.length > 1 then none
  let (fraction, rest) ← readFraction rest
  let (exponent, rest) ← readExponent rest
  let n : NumberLiteral := ⟨negative, whole, fraction, exponent⟩
  let number :=
    if n.isNatural then .natural (digitsValue whole)
    else .other (String.ofList (cs.take (cs.length - rest.length)))
  some (.number number n.isFinite, rest)

/-! ## Texts -/

/-- A piece of a text in quotation marks. -/
inductive TextPiece where
  | char (c : Char)
  /-- An escaped unit of 16 bits. -/
  | unit (n : Nat)

def hexValue? (c : Char) : Option Nat :=
  if '0' ≤ c ∧ c ≤ '9' then some (c.toNat - 48)
  else if 'a' ≤ c ∧ c ≤ 'f' then some (c.toNat - 87)
  else if 'A' ≤ c ∧ c ≤ 'F' then some (c.toNat - 55)
  else none

def unitValue? (a b c d : Char) : Option Nat := do
  let a ← hexValue? a
  let b ← hexValue? b
  let c ← hexValue? c
  let d ← hexValue? d
  some (((a * 16 + b) * 16 + c) * 16 + d)

def escaped? (c : Char) : Option Char :=
  match c with
  | '"' => some '"'
  | '\\' => some '\\'
  | '/' => some '/'
  | 'b' => some (Char.ofNat 8)
  | 'f' => some (Char.ofNat 12)
  | 'n' => some '\n'
  | 'r' => some '\r'
  | 't' => some '\t'
  | _ => none

/-- The pieces up to the closing quotation mark, after pieces already read, and the text after it.
Control characters have to be escaped. -/
def readPieces (done : List TextPiece) : List Char → Option (List TextPiece × List Char)
  | [] => none
  | '"' :: rest => some (done.reverse, rest)
  | '\\' :: 'u' :: a :: b :: c :: d :: rest =>
    match unitValue? a b c d with
    | some n => readPieces (.unit n :: done) rest
    | none => none
  | '\\' :: e :: rest =>
    match escaped? e with
    | some c => readPieces (.char c :: done) rest
    | none => none
  | c :: rest => if c.toNat < 32 ∨ c = '\\' then none else readPieces (.char c :: done) rest

def isHighUnit (n : Nat) : Bool := 0xD800 ≤ n && n < 0xDC00

def isLowUnit (n : Nat) : Bool := 0xDC00 ≤ n && n < 0xE000

/-- The characters that pieces form, after characters already formed; pairs of units form one
character, and units of a pair alone form none. -/
def joinPieces (done : List Char) : List TextPiece → Option (List Char)
  | [] => some done.reverse
  | .char c :: rest => joinPieces (c :: done) rest
  | .unit n :: .unit m :: rest =>
    if isHighUnit n && isLowUnit m then
      joinPieces (Char.ofNat (0x10000 + (n - 0xD800) * 1024 + (m - 0xDC00)) :: done) rest
    else if isHighUnit n || isLowUnit n then none
    else joinPieces (Char.ofNat n :: done) (.unit m :: rest)
  | .unit n :: rest =>
    if isHighUnit n || isLowUnit n then none else joinPieces (Char.ofNat n :: done) rest

/-- The text up to the closing quotation mark, and the text after it. -/
def readString (cs : List Char) : Option (Option String × List Char) :=
  (readPieces [] cs).map fun (pieces, rest) => ((joinPieces [] pieces).map String.ofList, rest)

/-! ## Values -/

/-- Something read and the text after it, which is missing where the grammar breaks. -/
abbrev Reading (α : Type) := α × Option (List Char)

/-- A token that has to be there, and the text after it. -/
def expect (token cs : List Char) : Option (List Char) :=
  if token.isPrefixOf cs then some (cs.drop token.length) else none

def readWord (word : String) (value : Source) (cs : List Char) : Reading Source :=
  match expect word.toList cs with
  | some rest => (value, some rest)
  | none => (.fault, none)

mutual

/-- A value. The fuel is twice the length of the text, and a little more. -/
def readValue : Nat → List Char → Reading Source
  | 0, _ => (.fault, none)
  | fuel + 1, cs =>
    match skipSpace cs with
    | [] => (.fault, none)
    | '"' :: rest =>
      match readString rest with
      | some (s, rest) => (.string s, some rest)
      | none => (.fault, none)
    | '[' :: rest =>
      match skipSpace rest with
      | ']' :: rest => (.array [] true, some rest)
      | rest =>
        let ((items, closed), rest) := readItems fuel rest
        (.array items closed, rest)
    | '\x7b' :: rest =>
      match skipSpace rest with
      | '\x7d' :: rest => (.object [] true, some rest)
      | rest =>
        let ((fields, closed), rest) := readFields fuel rest
        (.object fields closed, rest)
    | 'n' :: rest => readWord "ull" .null rest
    | 't' :: rest => readWord "rue" (.bool true) rest
    | 'f' :: rest => readWord "alse" (.bool false) rest
    | cs =>
      match readNumber cs with
      | some (n, rest) => (n, some rest)
      | none => (.fault, none)

/-- The items of an array from one on, and whether the array is closed. -/
def readItems : Nat → List Char → Reading (List Source × Bool)
  | 0, _ => (([], false), none)
  | fuel + 1, cs =>
    let (item, rest) := readValue fuel cs
    match rest.map skipSpace with
    | some (',' :: rest) =>
      let ((items, closed), rest) := readItems fuel rest
      ((item :: items, closed), rest)
    | some (']' :: rest) => (([item], true), some rest)
    | _ => (([item], false), none)

/-- The fields of an object from one on, and whether the object is closed. -/
def readFields : Nat → List Char → Reading (List (Option String × Source) × Bool)
  | 0, _ => (([], false), none)
  | fuel + 1, cs =>
    match skipSpace cs with
    | '"' :: rest =>
      match readString rest with
      | none => (([], false), none)
      | some (name, rest) =>
        match skipSpace rest with
        | ':' :: rest =>
          let (value, rest) := readValue fuel rest
          match rest.map skipSpace with
          | some (',' :: rest) =>
            let ((fields, closed), rest) := readFields fuel rest
            (((name, value) :: fields, closed), rest)
          | some ('\x7d' :: rest) => (([(name, value)], true), some rest)
          | _ => (([(name, value)], false), none)
        | _ => (([(name, .fault)], false), none)
    | _ => (([], false), none)

end

/-- The tree of a text, and whether nothing but white space follows its value. -/
def read (text : String) : Source × Bool :=
  let cs := text.toList
  let (source, rest) := readValue (2 * cs.length + 2) cs
  (source, match rest with
    | some rest => (skipSpace rest).isEmpty
    | none => false)

end ContractAnalysis.Json
