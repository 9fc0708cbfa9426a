import ContractAnalysis.Failure
import ContractAnalysis.Text.Basic

/-!
# Documents

The text of a contract, and how it is read from a file. What a file holds is told by the extension
of its path, in any case: `txt` is text, and the text of a `pdf` file is that of its pages. How the
pages are found in the bytes of the file is left open.

* `Document`: the text of a contract and where it comes from
* `Document.lineCount`: the number of its lines
* `extension?`: the extension of a path
* `Contents`: what files hold, and how the pages of a PDF file are read
* `Document.load`: the document in a file
* `Directory`, `Directory.contents`: files by path, as a file system would find them
-/

namespace ContractAnalysis

/-- The text of a contract. -/
structure Document where
  /-- The file or the name that a caller gives. -/
  source : String
  content : String
  deriving DecidableEq

def Document.lineCount (document : Document) : Nat := (Text.lines document.content.toList).length

/-! ## Files -/

/-- The parts of a path between slashes, without those that stand for the same place: empty parts
and single dots. -/
def pathParts (path : List Char) : List (List Char) :=
  (path.splitOn '/').filter fun part => !part.isEmpty && part != ['.']

/-- The name of the file that a path leads to; a path that ends in two dots leads to no file. -/
def fileName? (path : List Char) : Option (List Char) :=
  match (pathParts path).getLast? with
  | some name => if name = ['.', '.'] then none else some name
  | none => none

/-- The extension of a path: what follows the last dot of the file name, unless the name starts
with that dot. -/
def extension? (path : List Char) : Option (List Char) := do
  let name ← fileName? path
  let extension := (name.reverse.takeWhile (· != '.')).reverse
  if extension.length + 1 < name.length then some extension else none

/-- A page of a PDF file: its number, and its text or why it has none. -/
structure PdfPage where
  number : Nat
  text : Except String String

/-- Finds the pages of a PDF file, in order, or says why the bytes are none. -/
abbrev PdfReader := ByteArray → Except String (List PdfPage)

def PdfReader.none : PdfReader := fun _ => .error "the file holds no text that can be read"

/-- What files hold, and how the pages of a PDF file are read. -/
structure Contents where
  bytes : String → Except FileFault ByteArray
  pages : PdfReader := .none

/-- The text of a page without white space at its end. -/
def PdfPage.trimmed (page : PdfPage) : Except Failure String :=
  match page.text with
  | .ok text => .ok (String.ofList (Text.trimEnd text.toList))
  | .error reason => .error (.pdf ("page " ++ toString page.number ++ ": " ++ reason))

/-- The texts of the pages with an empty line between them, unless one cannot be read. -/
def pdfText (pages : List PdfPage) : Except Failure String := do
  return "\n\n".intercalate (← pages.mapM PdfPage.trimmed)

def Document.load (contents : Contents) (path : String) : Except Failure Document :=
  let extension := Text.lowercaseChars ((extension? path.toList).getD [])
  let bytes := (contents.bytes path).mapError Failure.file
  if extension = "txt".toList then do
    match String.fromUTF8? (← bytes) with
    | some content => .ok ⟨path, content⟩
    | none => .error (.file .notText)
  else if extension = "pdf".toList then do
    let pages ← (contents.pages (← bytes)).mapError Failure.pdf
    return ⟨path, ← pdfText pages⟩
  else if extension = [] then .error (.unsupportedFormat path)
  else .error (.unsupportedFormat ("." ++ String.ofList extension))

/-- Files by path. -/
structure Directory where
  files : List (String × ByteArray)

namespace Directory

def fileAt? (d : Directory) (place : List (List Char)) : Option ByteArray :=
  (d.files.find? fun (path, _) => pathParts path.toList == place).map (·.2)

/-- Whether a place is a directory: the top, or above some file. -/
def isDirectory (d : Directory) (place : List (List Char)) : Bool :=
  place.isEmpty || d.files.any fun (path, _) =>
    let parts := pathParts path.toList
    place.isPrefixOf parts && place.length < parts.length

/-- The contents found from a place by following the parts of a path. Every place on the way has to
be a directory, and no way leads above the top. -/
def follow (d : Directory) (place : List (List Char)) :
    List (List Char) → Except FileFault ByteArray
  | [] =>
    match d.fileAt? place with
    | some bytes => .ok bytes
    | none => .error (if d.isDirectory place then .isADirectory else .missing)
  | part :: rest =>
    if (d.fileAt? place).isSome then .error .notADirectory
    else if !d.isDirectory place then .error .missing
    else if part = [] ∨ part = ['.'] then d.follow place rest
    else if part = ['.', '.'] then
      if place.isEmpty then .error .missing else d.follow place.dropLast rest
    else d.follow (place ++ [part]) rest

/-- What the files of a directory hold; its PDF files are not read. -/
def contents (d : Directory) : Contents where
  bytes path :=
    if path.toList.head? = some '/' ∨ path.isEmpty then .error .missing
    else d.follow [] (path.toList.splitOn '/')

end Directory

end ContractAnalysis
