/-!
# Run ids

* `RunId`: 128 bits that tell one run from another
* `RunId.render`: 32 hexadecimal digits in groups of 8, 4, 4, 4 and 12
* `RunId.ofText?`: reads such a text, also without hyphens, in braces, or as a URN
-/

namespace ContractAnalysis

/-- What tells one run from another. -/
structure RunId where
  bits : BitVec 128
  deriving DecidableEq

namespace RunId

def zero : RunId := ⟨0⟩

/-- The id that random bits make up. Four bits say that it is random, and two that it is laid out in
the usual way. -/
def ofRandom (bits : BitVec 128) : RunId :=
  let version : BitVec 128 := 0xF <<< 76
  let layout : BitVec 128 := 0x3 <<< 62
  ⟨(bits &&& ~~~(version ||| layout)) ||| (0x4 <<< 76) ||| (0x2 <<< 62)⟩

def digit (n : Nat) : Char := if n < 10 then Char.ofNat (48 + n) else Char.ofNat (87 + n)

/-- The digits of a number of so many digits, the most significant first. -/
def digits : Nat → Nat → List Char
  | 0, _ => []
  | count + 1, n => digits count (n / 16) ++ [digit (n % 16)]

def groupSizes : List Nat := [8, 4, 4, 4, 12]

def hyphenated : List Nat → List Char → List (List Char)
  | [], _ => []
  | size :: sizes, ds => ds.take size :: hyphenated sizes (ds.drop size)

def render (id : RunId) : String :=
  String.ofList (['-'].intercalate (hyphenated groupSizes (digits 32 id.bits.toNat)))

def digitValue? (c : Char) : Option Nat :=
  if '0' ≤ c ∧ c ≤ '9' then some (c.toNat - 48)
  else if 'a' ≤ c ∧ c ≤ 'f' then some (c.toNat - 87)
  else if 'A' ≤ c ∧ c ≤ 'F' then some (c.toNat - 55)
  else none

def ofDigits? (ds : List Char) : Option RunId := do
  let values ← ds.mapM digitValue?
  if values.length = 32 then
    some ⟨BitVec.ofNat 128 (values.foldl (fun n d => 16 * n + d) 0)⟩
  else none

/-- The id that digits in groups with hyphens between them write. -/
def ofHyphenated? (cs : List Char) : Option RunId :=
  let groups := cs.splitOn '-'
  if groups.map List.length = groupSizes then ofDigits? groups.flatten else none

/-- What a URN that names an id starts with, in letters of any case. -/
def urn : List Char := "urn:uuid:".toList

def ofText? (text : String) : Option RunId :=
  let cs := text.toList
  if cs.length = 32 then ofDigits? cs
  else if cs.length = 38 ∧ cs.head? = some '\x7b' ∧ cs.getLast? = some '\x7d' then
    ofHyphenated? (cs.drop 1).dropLast
  else if cs.length = 45 ∧ (cs.take urn.length).map Char.toLower = urn then
    ofHyphenated? (cs.drop urn.length)
  else ofHyphenated? cs

end RunId

end ContractAnalysis
