import ContractAnalysis.Text.Basic

/-!
# Phrase patterns

A pattern describes the phrases to look for in a text. Which of several ways to match is taken is
part of its meaning: the left branch of a choice before the right one, and a repetition as long as
possible when it is greedy and as short as possible when it is lazy.

* `CharSet`: what a single position accepts
* `Pattern`: single characters, positions, sequences, choices, repetitions and captures
* `Flags`: case folding, line-wise anchors, and whether `.` takes a line feed
* `Expression`: a pattern with its flags
* `Expression.render`: flags and pattern in the usual notation of regular expressions, with a
  non-capturing group wherever a part would otherwise bind more weakly than its place asks
* `Pattern.digits`, `Pattern.dottedNumber`: a run of decimal digits, and runs of digits with single
  dots between them, such as `4.2.1`
-/

namespace ContractAnalysis

/-- What a single position of a pattern accepts. -/
inductive CharSet where
  /-- One character. -/
  | only (c : Char)
  | word
  | blank
  | digit
  /-- Every character; a line feed only when the flags say so. -/
  | any
  | either (left right : CharSet)
  deriving DecidableEq

/-- How long a repetition is tried to be at first. -/
inductive Appetite where
  | greedy
  | lazy
  deriving DecidableEq

/-- A description of phrases. -/
inductive Pattern where
  | nothing
  | one (set : CharSet)
  /-- Between a word character and another character or the end of the text. -/
  | wordBoundary
  | start
  | finish
  | seq (left right : Pattern)
  | alt (left right : Pattern)
  | optional (body : Pattern)
  /-- Any number of times. -/
  | star (appetite : Appetite) (body : Pattern)
  /-- At least once. -/
  | plus (appetite : Appetite) (body : Pattern)
  /-- What the body matches is recorded under a number. -/
  | capture (group : Nat) (body : Pattern)
  deriving DecidableEq

/-- How a pattern reads characters and ends of lines. -/
structure Flags where
  ignoreCase : Bool := false
  /-- `finish` also holds before a line feed and `start` after one. -/
  multiLine : Bool := false
  /-- `CharSet.any` also takes a line feed. -/
  dotAll : Bool := false
  deriving DecidableEq

/-- A pattern with its flags. -/
structure Expression where
  flags : Flags
  pattern : Pattern
  deriving DecidableEq

def CharSet.accepts (flags : Flags) : CharSet → Char → Bool
  | .only c, x => if flags.ignoreCase then Text.fold x == Text.fold c else x == c
  | .word, x => Text.isWord x
  | .blank, x => Text.isBlank x
  | .digit, x => Text.isDigit x
  | .any, x => flags.dotAll || x != '\n'
  | .either left right, x => left.accepts flags x || right.accepts flags x

namespace Pattern

instance : HAppend Pattern Pattern Pattern := ⟨seq⟩

/-- The characters of a text, one after the other. -/
def ofChars : List Char → Pattern
  | [] => nothing
  | [c] => one (.only c)
  | c :: cs => seq (one (.only c)) (ofChars cs)

/-- A text, character by character. -/
def literal (text : String) : Pattern := ofChars text.toList

/-- One of several patterns, the first that leads to a match. -/
def oneOf : List Pattern → Pattern
  | [] => nothing
  | [p] => p
  | p :: ps => alt p (oneOf ps)

/-- White space, at least one character. -/
def gap : Pattern := plus .greedy (one .blank)

/-- A word: at least one word character. -/
def aWord : Pattern := plus .greedy (one .word)

def phrase : List String → Pattern
  | [] => nothing
  | [word] => literal word
  | word :: rest => literal word ++ gap ++ phrase rest

def digits : Pattern := plus .greedy (one .digit)

def dotDigits : Pattern := one (.only '.') ++ digits

def dottedNumber : Pattern := digits ++ star .greedy dotDigits

end Pattern

/-! ## The text of a pattern -/

def metaCharacters : List Char := "\\.+*?()|[]\x7b\x7d^$#&-~".toList

def renderChar (c : Char) : String :=
  if metaCharacters.contains c then "\\" ++ String.singleton c else String.singleton c

/-- The members of a set, as between brackets. -/
def CharSet.renderMembers : CharSet → String
  | .only c => renderChar c
  | .word => "\\w"
  | .blank => "\\s"
  | .digit => "\\d"
  | .any => "."
  | .either left right => left.renderMembers ++ right.renderMembers

/-- A set, in brackets when it is a union. -/
def CharSet.render : CharSet → String
  | .either left right => "[" ++ left.renderMembers ++ right.renderMembers ++ "]"
  | set => set.renderMembers

/-- How tightly a part of a pattern's text holds together. -/
inductive Tightness where
  | choice
  | sequence
  | item
  deriving DecidableEq

def groupUnless (tight : Bool) (text : String) : String :=
  if tight then text else "(?:" ++ text ++ ")"

/-- The mark of a repetition that is tried as short as possible first. -/
def Appetite.render : Appetite → String
  | .greedy => ""
  | .lazy => "?"

def Pattern.renderParts : Pattern → String × Tightness
  | .nothing => ("", .sequence)
  | .one set => (set.render, .item)
  | .wordBoundary => ("\\b", .item)
  | .start => ("^", .item)
  | .finish => ("$", .item)
  | .seq left right =>
    let (l, lt) := left.renderParts
    let (r, rt) := right.renderParts
    (groupUnless (lt != .choice) l ++ groupUnless (rt != .choice) r, .sequence)
  | .alt left right => (left.renderParts.1 ++ "|" ++ right.renderParts.1, .choice)
  | .optional body =>
    let (text, tight) := body.renderParts
    (groupUnless (tight == .item) text ++ "?", .item)
  | .star appetite body =>
    let (text, tight) := body.renderParts
    (groupUnless (tight == .item) text ++ "*" ++ appetite.render, .item)
  | .plus appetite body =>
    let (text, tight) := body.renderParts
    (groupUnless (tight == .item) text ++ "+" ++ appetite.render, .item)
  | .capture _ body => ("(" ++ body.renderParts.1 ++ ")", .item)

/-- The flags that are set, as they stand in front of a pattern. -/
def Flags.render (flags : Flags) : String :=
  let set := (if flags.ignoreCase then "i" else "") ++ (if flags.multiLine then "m" else "") ++
    (if flags.dotAll then "s" else "")
  if set.isEmpty then "" else "(?" ++ set ++ ")"

def Expression.render (e : Expression) : String := e.flags.render ++ e.pattern.renderParts.1

end ContractAnalysis
