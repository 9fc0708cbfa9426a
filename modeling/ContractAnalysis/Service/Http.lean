/-!
# Parts of HTTP messages

The words of a message, media types and request targets. A media type is a type and a subtype with a
slash between them, perhaps followed by parameters, as in `application/problem+json; charset=utf-8`.
The target of a request says what is asked for: a path, perhaps with a query, such as
`/api/health?verbose`, or a whole address, such as `http://localhost/api/health`. A fragment behind
a number sign is not looked at.

* `isToken`: whether a text is a token, such as a method
* `isHeaderText`: whether a text may be the value of a header field
* `MediaType.ofText?`: reads a media type; types and subtypes are read in lower case
* `MediaType.isJson`: whether a media type is JSON, or a format that is written in JSON
* `Target.isAuthority`: whether a text names a host, perhaps with a user and a port
* `Target.pathOf?`: the path of a target, which an authority alone does not have
-/

namespace ContractAnalysis

/-! ## Header fields -/

def tokenMarks : List Char := "!#$%&'*+-.^_`|~".toList

def isTokenChar (c : Char) : Bool := c.isAlphanum || tokenMarks.contains c

def isToken (text : String) : Bool := !text.isEmpty && text.toList.all isTokenChar

/-- Whether a text may be the value of a header field: it holds no control characters but tabs. -/
def isHeaderText (text : String) : Bool :=
  text.toList.all fun c => c == '\t' || (32 ≤ c.toNat && c.toNat != 127)

/-! ## Media types -/

/-- A type and a subtype. -/
structure MediaType where
  type : List Char
  subtype : List Char
  deriving DecidableEq

namespace MediaType

def isVisible (c : Char) : Bool := 31 < c.toNat && c.toNat < 127

/-- The text after the quoted value of a parameter: nothing, or what a semicolon leads to. -/
def afterQuoted (cs : List Char) : Option (List Char) :=
  match cs.dropWhile (· == ' ') with
  | [] => some []
  | ';' :: rest => some rest
  | _ => none

/-- The text after a parameter's value. A value in quotation marks has a first character, which may
itself be a quotation mark; a value that a semicolon follows is not empty. -/
def afterValue (cs : List Char) : Option (List Char) :=
  match cs with
  | '"' :: first :: rest =>
    match rest.dropWhile fun c => isVisible c && c != '"' with
    | '"' :: rest => if isVisible first then afterQuoted rest else none
    | _ => none
  | cs =>
    match cs.takeWhile isTokenChar, cs.dropWhile isTokenChar with
    | _, [] => some []
    | _ :: _, ';' :: rest => some rest
    | _, _ => none

/-- The text after a parameter: a name, an equals sign and a value. -/
def afterParameter (cs : List Char) : Option (List Char) :=
  match cs.takeWhile isTokenChar, cs.dropWhile isTokenChar with
  | _ :: _, '=' :: rest => afterValue rest
  | _, _ => none

/-- Whether a text is a list of parameters, with spaces before any of them or at the end. Each has
at least two characters, so half the length of the text is fuel enough. -/
def areParameters (fuel : Nat) (cs : List Char) : Bool :=
  match fuel, cs.dropWhile (· == ' ') with
  | _, [] => true
  | 0, _ => false
  | fuel + 1, cs =>
    match afterParameter cs with
    | some rest => areParameters fuel rest
    | none => false

/-- Reads a media type; types and subtypes are read in lower case. -/
def ofText? (text : String) : Option MediaType :=
  let cs := text.toList
  match cs.takeWhile isTokenChar, cs.dropWhile isTokenChar with
  | t :: type, '/' :: rest =>
    match rest.takeWhile isTokenChar, rest.dropWhile isTokenChar with
    | subtype, [] => some ⟨(t :: type).map Char.toLower, subtype.map Char.toLower⟩
    | s :: subtype, ';' :: rest =>
      if areParameters rest.length rest then
        some ⟨(t :: type).map Char.toLower, (s :: subtype).map Char.toLower⟩
      else none
    | _, _ => none
  | _, _ => none

/-- A subtype without the format it is written in, and that format: what follows the last plus sign
after the first character. -/
def splitFormat : List Char → List Char × Option (List Char)
  | [] => ([], none)
  | first :: rest =>
    let format := (rest.reverse.takeWhile (· != '+')).reverse
    if format.length < rest.length then
      (first :: rest.take (rest.length - format.length - 1), some format)
    else (first :: rest, none)

/-- Whether a media type is JSON, or a format that is written in JSON. -/
def isJson (media : MediaType) : Bool :=
  let json := "json".toList
  let (main, format) := splitFormat media.subtype
  media.type == "application".toList && (main == json || format == some json)

end MediaType

/-! ## Request targets -/

namespace Target

def isSchemeChar (c : Char) : Bool := c.isAlphanum || "+-.~".toList.contains c

/-- A character of an authority that has no part in its structure. -/
def isAuthorityChar (c : Char) : Bool := c.isAlphanum || "!$&'()*+,-.;=_~".toList.contains c

def endsAuthority (c : Char) : Bool := c == '/' || c == '?' || c == '#'

/-- A character that is neither a space nor a control character of the first 128. -/
def isVisibleChar (c : Char) : Bool := 32 < c.toNat && c.toNat != 127

def isPathChar (c : Char) : Bool := isVisibleChar c && !"<>`".toList.contains c

def isQueryChar (c : Char) : Bool := isVisibleChar c && !"\"<>".toList.contains c

/-- What was read of an authority. A user ends at an at sign and an address of 128 bits at a
bracket; there the colons and the percent signs are counted anew. -/
structure AuthorityReading where
  colons : Nat := 0
  percent : Bool := false
  opened : Bool := false
  closed : Bool := false
  deriving DecidableEq

def AuthorityReading.add (reading : AuthorityReading) (c : Char) : Option AuthorityReading :=
  match c with
  | ':' => if reading.colons < 8 then some { reading with colons := reading.colons + 1 } else none
  | '%' => some { reading with percent := true }
  | '@' => some { reading with colons := 0, percent := false }
  | '[' => if reading.percent || reading.opened then none else some { reading with opened := true }
  | ']' =>
    if reading.opened && !reading.closed then
      some { reading with closed := true, colons := 0, percent := false }
    else none
  | c => if isAuthorityChar c then some reading else none

/-- Whether a text names a host, perhaps with a user before it and a port after it. -/
def isAuthority (cs : List Char) : Bool :=
  match cs.foldlM AuthorityReading.add {} with
  | some reading =>
    reading.opened == reading.closed && reading.colons ≤ 1 && !reading.percent &&
      cs.getLast? != some '@'
  | none => false

/-- The text after a scheme, if the text starts with one. -/
def afterScheme? (cs : List Char) : Option (List Char) :=
  match cs.dropWhile isSchemeChar with
  | ':' :: '/' :: '/' :: rest => some rest
  | _ => none

/-- The path of a text that has a path and perhaps a query. An empty path is that of the root. -/
def pathBefore? (cs : List Char) : Option (List Char) :=
  let path := cs.takeWhile fun c => c != '?' && c != '#'
  let query :=
    match cs.drop path.length with
    | '?' :: rest => rest.takeWhile (· != '#')
    | _ => []
  if path.all isPathChar && query.all isQueryChar then
    some (if path.isEmpty then ['/'] else path)
  else none

/-- The path of a text that is not empty and does not start with a slash: after a scheme of at most
64 characters and an authority. An authority alone has an empty path. -/
def absolutePath? (cs : List Char) : Option (List Char) :=
  match afterScheme? cs with
  | none => if isAuthority cs then some [] else none
  | some rest =>
    let authority := rest.takeWhile fun c => !endsAuthority c
    if (cs.takeWhile isSchemeChar).length ≤ 64 && !authority.isEmpty && isAuthority authority then
      pathBefore? (rest.drop authority.length)
    else none

def greatestSize : Nat := 65534

def pathOf? (target : String) : Option (List Char) :=
  if target.utf8ByteSize > greatestSize then none
  else
    match target.toList with
    | [] => none
    | ['*'] => some ['*']
    | '/' :: rest => pathBefore? ('/' :: rest)
    | cs => absolutePath? cs

end Target

end ContractAnalysis
