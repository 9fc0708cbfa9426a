import ContractAnalysis.Text.CaseRuns
import ContractAnalysis.Text.Ranges

/-!
# Characters and texts

Text is worked on as a list of characters; some functions are also offered on strings.

* `isWord`, `isDigit`, `isBlank`: the classes that patterns and trimming speak of
* `fold`: simple case folding; two characters are equal up to case iff their folds are equal
* `trimChars`: without white space at either end
* `lines`: the pieces that line feeds end; a carriage return before a line feed belongs to neither
* `splitBlank`: the maximal runs of characters that are not white space
* `occursIn`, `startsWith`: whether one text is part of another, or its start in any case
* `lowercaseChars`, `lowercase`: the full lower-case mapping. It works character by character but
  for two characters: U+0130 becomes `i` and a combining dot, and a capital sigma becomes a final
  sigma at the end of a word: after a cased character and not before one, case-ignorable characters
  not counted.
-/

namespace ContractAnalysis.Text

/-! ## Characters -/

/-- A character that makes up words. -/
def isWord (c : Char) : Bool := wordRanges.contains c.toNat

/-- A decimal digit of any script. -/
def isDigit (c : Char) : Bool := digitRanges.contains c.toNat

/-- White space. -/
def isBlank (c : Char) : Bool := blankRanges.contains c.toNat

/-- Simple case folding. -/
def fold (c : Char) : Char := Char.ofNat (CaseRun.apply foldingRuns c.toNat)

/-! ## Trimming, lines and search -/

def trimStart (cs : List Char) : List Char := cs.dropWhile isBlank

def trimEnd (cs : List Char) : List Char := (cs.reverse.dropWhile isBlank).reverse

def trimChars (cs : List Char) : List Char := trimEnd (trimStart cs)

def trim (s : String) : String := String.ofList (trimChars s.toList)

/-- Whether a text holds nothing but white space. -/
def isBlankText (s : String) : Bool := s.toList.all isBlank

def dropReturn (line : List Char) : List Char :=
  if line.getLast? = some '\r' then line.dropLast else line

/-- The lines among the pieces between line feeds: every piece but the last was ended by a line
feed and loses a carriage return before it, and an empty last piece is no line. -/
def linesOfPieces : List (List Char) → List (List Char)
  | [] => []
  | [last] => if last.isEmpty then [] else [last]
  | piece :: pieces => dropReturn piece :: linesOfPieces pieces

def lines (cs : List Char) : List (List Char) := linesOfPieces (cs.splitOn '\n')

/-- The maximal runs of characters that are not white space. -/
def splitBlank (cs : List Char) : List (List Char) :=
  (cs.splitOnP isBlank).filter fun piece => !piece.isEmpty

/-- Whether `needle` is part of the text. -/
def occursIn (needle : List Char) : List Char → Bool
  | [] => needle.isEmpty
  | c :: cs => needle.isPrefixOf (c :: cs) || occursIn needle cs

/-- Whether a text starts with another, in any case of the letters of both. -/
def startsWith : List Char → List Char → Bool
  | [], _ => true
  | _ :: _, [] => false
  | c :: cs, x :: xs => fold c == fold x && startsWith cs xs

/-- Whether `needle` is part of `text`. -/
def contains (text needle : String) : Bool := occursIn needle.toList text.toList

def joinLines (ls : List (List Char)) : List Char := ['\n'].intercalate ls

/-! ## Lower case -/

def isCased (c : Char) : Bool := casedRanges.contains c.toNat

def isCaseIgnorable (c : Char) : Bool := caseIgnorableRanges.contains c.toNat

/-- Whether the first character that is not case-ignorable is cased. -/
def startsCased (cs : List Char) : Bool :=
  match cs.dropWhile isCaseIgnorable with
  | [] => false
  | c :: _ => isCased c

def lowercaseChar (c : Char) : List Char :=
  if c.toNat = 0x130 then ['i', Char.ofNat 0x307]
  else [Char.ofNat (CaseRun.apply lowercaseRuns c.toNat)]

/-- Lower case of a text that follows the characters of `before`, the nearest first. -/
def lowercaseAfter (before : List Char) : List Char → List Char
  | [] => []
  | c :: cs =>
    (if c = 'Σ' then [if startsCased before && !startsCased cs then 'ς' else 'σ']
     else lowercaseChar c) ++ lowercaseAfter (c :: before) cs

def lowercaseChars (cs : List Char) : List Char := lowercaseAfter [] cs

def lowercase (s : String) : String := String.ofList (lowercaseChars s.toList)

end ContractAnalysis.Text
