import ContractAnalysis.Node
import ContractAnalysis.Pattern.Match

/-!
# Citations

A text cites a clause by number, as in `Section 4.2`, or by title, as in `clause Payment`.

* `citedNumbers`, `citedTitles`: the numbers that a text cites, and where it may cite titles
* `Clause.sectionNumber`: the number under which a clause is cited
* `CitationName.isCitedIn`: whether a text cites a clause, by its number or by its title
* `citations`: the pairs of clauses of which the first cites the second
-/

namespace ContractAnalysis

open Pattern

/-- `clause`, `section` or `article`, white space, and a number. -/
def numberCitation : Expression where
  flags := { ignoreCase := true }
  pattern := oneOf [literal "clause", literal "section", literal "article"] ++
    (gap ++ capture 1 dottedNumber)

/-- The numbers that a text cites, in order and with repetitions. -/
def citedNumbers (text : String) : List String :=
  (numberCitation.findAll text.toList).filterMap fun m => (m.group? 1).map String.ofList

/-- `clause` or `section` and white space: what a title that is cited stands behind. -/
def titleLead : Expression where
  flags := { ignoreCase := true }
  pattern := oneOf [literal "clause", literal "section"] ++ gap

/-- The text behind each `clause` or `section` and white space. A title that is cited is the start
of one of these, for a title does not start with white space. -/
def citedTitles (text : String) : List (List Char) :=
  (titleLead.findAll text.toList).map fun m => m.stop.rest

namespace Clause

def articleWord : List Char := "article ".toList

/-- A label without the word `article` in front, in any case of its 26 letters. -/
def withoutArticle (label : List Char) : List Char :=
  if (label.take articleWord.length).map Char.toLower = articleWord then
    Text.trimChars (label.drop articleWord.length)
  else label

/-- The number under which a clause is cited: its label, without the word `article`. -/
def sectionNumber (clause : Clause) : Option String := do
  let label ← clause.number
  let number := withoutArticle (Text.trimChars label.toList)
  if number.isEmpty then none else some (String.ofList number)

end Clause

/-- What a text cites. -/
structure Cited where
  numbers : List String
  /-- The texts that start with the titles. -/
  titles : List (List Char)
  deriving DecidableEq

def Cited.ofText (text : String) : Cited := ⟨citedNumbers text, citedTitles text⟩

/-- By what a clause is cited. -/
structure CitationName where
  id : String
  number : Option String
  /-- The title without white space at either end; an empty one is never cited. -/
  title : List Char
  deriving DecidableEq

def Clause.citationName (clause : Clause) : CitationName :=
  ⟨clause.id, clause.sectionNumber, Text.trimChars clause.title.toList⟩

namespace CitationName

/-- Whether a clause is cited by its title, in any case. -/
def isTitleIn (name : CitationName) (cited : Cited) : Bool :=
  !name.title.isEmpty && cited.titles.any (Text.startsWith name.title)

def isNumberIn (name : CitationName) (cited : Cited) : Bool :=
  name.number.any cited.numbers.contains

def isCitedIn (name : CitationName) (cited : Cited) : Bool :=
  name.isTitleIn cited || name.isNumberIn cited

end CitationName

/-- The ids of the clauses that a clause cites, in document order: all but those of its own id. -/
def citedBy (names : List CitationName) (clause : Clause) : List String :=
  let cited := Cited.ofText clause.body
  (names.filter fun name => clause.id != name.id && name.isCitedIn cited).map (·.id)

/-- The pairs of ids of which the first clause cites the second; each pair once where the ids of the
clauses are distinct. -/
def citations (clauses : List Clause) : List (String × String) :=
  let names := clauses.map Clause.citationName
  clauses.flatMap fun clause => (citedBy names clause).map fun id => (clause.id, id)

end ContractAnalysis
