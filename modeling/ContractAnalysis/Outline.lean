import ContractAnalysis.Node
import ContractAnalysis.Pattern.Match

/-!
# Headings and the clauses of a text

A line is a heading when it starts with a number and a title: `2. Delivery`, `2.1 Schedule`, or
`Article IV: Scope`. The level of a heading is the number of parts of its dotted number; articles
have level 1.

A text with headings is divided at them: each heading starts a section, and what stands before the
first heading belongs to no section. A text without headings is divided into paragraphs. Clauses
are numbered in document order, and a clause is nested in the nearest one before it that has a
smaller level.

* `Heading.ofLine?`: the heading that a line is
* `divide`: the lines before the first heading, and the sections
* `paragraphs`: the runs of lines that are not blank
* `clausesOf`: the clauses of a text
-/

namespace ContractAnalysis

/-! ## Headings -/

/-- The number, title and level of a heading. -/
structure Heading where
  number : String
  title : String
  level : Nat
  deriving DecidableEq

namespace Heading

open Pattern

/-- `2. Delivery`, `4.2. Schedule`. -/
def numbered : Expression where
  flags := {}
  pattern := start ++ (capture 1 dottedNumber ++ (one (.only '.') ++
    (gap ++ (capture 2 (plus .greedy (one .any)) ++ finish))))

/-- `4.2 Schedule`. -/
def subsection : Expression where
  flags := {}
  pattern := start ++ (capture 1 (digits ++ (dotDigits ++ star .greedy dotDigits)) ++
    (gap ++ (capture 2 (plus .greedy (one .any)) ++ finish)))

def numeral : CharSet :=
  .either (.only 'I') (.either (.only 'V') (.either (.only 'X') (.either (.only 'L')
    (.either (.only 'C') (.either (.only 'D') (.either (.only 'M') .digit))))))

def separator : CharSet := .either (.only ':') (.either (.only '.') .blank)

/-- `Article IV: Scope`, `ARTICLE 3 Fees`. -/
def article : Expression where
  flags := { ignoreCase := true }
  pattern := start ++ (capture 1 (literal "Article" ++ (gap ++ plus .greedy (one numeral))) ++
    (star .greedy (one separator) ++ (capture 2 (star .greedy (one .any)) ++ finish)))

def parts? (e : Expression) (line : List Char) : Option (List Char × List Char) := do
  let m ← e.find? line
  let number ← m.group? 1
  let title ← m.group? 2
  some (number, Text.trimChars title)

/-- The level of a dotted number: one more than its dots. -/
def levelOf (number : List Char) : Nat := number.count '.' + 1

def ofLine? (line : List Char) : Option Heading :=
  let line := Text.trimEnd line
  match (parts? numbered line).or (parts? subsection line) with
  | some (number, title) =>
    some ⟨String.ofList number, String.ofList title, levelOf number⟩
  | none =>
    (parts? article line).map fun (number, title) =>
      ⟨String.ofList number, String.ofList title, 1⟩

end Heading

/-! ## Lines and sections -/

/-- A line of a document and its number, from 1, which is taken to have 32 bits. -/
structure NumberedLine where
  number : Nat
  text : List Char
  deriving DecidableEq

namespace NumberedLine

/-- Whether a line holds nothing but white space. -/
def isBlank (line : NumberedLine) : Bool := line.text.all Text.isBlank

def ofText (text : List Char) : List NumberedLine :=
  (Text.lines text).zipIdx.map fun (line, i) => ⟨i + 1, line⟩

/-- The texts of lines, joined by line feeds and trimmed. -/
def joined (ls : List NumberedLine) : List Char :=
  Text.trimChars (Text.joinLines (ls.map (·.text)))

end NumberedLine

/-- A heading and the lines up to the next one. -/
structure Section where
  heading : Heading
  /-- The line of the heading. -/
  line : Nat
  body : List NumberedLine
  deriving DecidableEq

/-- The lines before the first heading, and the sections that the headings start. -/
def divide : List NumberedLine → List NumberedLine × List Section
  | [] => ([], [])
  | line :: rest =>
    let (lead, sections) := divide rest
    match Heading.ofLine? line.text with
    | some heading => ([], ⟨heading, line.number, lead⟩ :: sections)
    | none => (line :: lead, sections)

/-- The line on which a section's text starts: the first line of the body that is not blank, or
the heading's line where there is none. -/
def Section.firstLine (s : Section) : Nat :=
  match s.body.find? fun line => !line.isBlank with
  | some line => line.number
  | none => s.line

/-- The id of the `n`-th clause. -/
def clauseId (n : Nat) : String := "clause_" ++ toString n

/-- A clause that later clauses may be nested in. -/
structure Ancestor where
  id : String
  level : Nat
  deriving DecidableEq

/-- The clauses of sections, numbered from `n` on, after clauses that the next one may be nested
in, the nearest first. -/
def clausesOfSections : Nat → List Ancestor → List Section → List Clause
  | _, _, [] => []
  | n, open', s :: rest =>
    let around := open'.dropWhile fun a => a.level ≥ s.heading.level
    let clause := Clause.leveled (clauseId n) s.heading.title
      (String.ofList (NumberedLine.joined s.body)) s.heading.level (around.head?.map (·.id))
    { clause with number := some s.heading.number, line := some s.firstLine } ::
      clausesOfSections (n + 1) (⟨clauseId n, s.heading.level⟩ :: around) rest

/-- The runs of lines that are not blank. -/
def paragraphs (ls : List NumberedLine) : List (List NumberedLine) :=
  (ls.splitOnP NumberedLine.isBlank).filter fun p => !p.isEmpty

/-- The clause of the `n`-th paragraph. -/
def clauseOfParagraph (n : Nat) (p : List NumberedLine) : Clause :=
  { Clause.leveled (clauseId n) ("Section " ++ toString n)
      (String.ofList (NumberedLine.joined p)) 1 none with
    line := p.head?.map (·.number) }

/-- The clauses of a text: its sections, or its paragraphs where it has no heading. -/
def clausesOf (text : String) : List Clause :=
  let ls := NumberedLine.ofText text.toList
  match (divide ls).2 with
  | [] => (paragraphs ls).zipIdx.map fun (p, i) => clauseOfParagraph (i + 1) p
  | sections => clausesOfSections 1 [] sections

end ContractAnalysis
