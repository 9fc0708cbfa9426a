import ContractAnalysis.Codec.Report
import ContractAnalysis.Review

/-!
# The command line

`clausegraph [OPTIONS] [FILE] [COMMAND]` analyses the contract in a file and prints the report.
The command `analyze` does the same with a file of its own. Options may stand before and after the
command, each at most once at either place.

* `Invocation.parse`: what arguments ask for
* `CommandResult`, `CommandResult.stdout`: the exit code and the output of a run
* `runCommand`: a run of the command
-/

namespace ContractAnalysis

/-- The options of the command. -/
structure Options where
  json : Bool := false
  verbose : Bool := false
  noAi : Bool := false
  deriving DecidableEq

def Options.union (a b : Options) : Options :=
  ⟨a.json || b.json, a.verbose || b.verbose, a.noAi || b.noAi⟩

/-- What arguments ask for. -/
inductive Invocation where
  /-- The report on a file, if one is given. -/
  | analyze (options : Options) (file : Option String)
  /-- A text, such as the help. -/
  | show (text : String)
  /-- Nothing that can be done. -/
  | unusable (reason : String)
  deriving DecidableEq

/-! ## Help -/

def optionsHelp : String :=
  "Options:\n" ++
  "      --json     Print the full report as JSON\n" ++
  "  -v, --verbose  Log pipeline stages and graph statistics to stderr\n" ++
  "      --no-ai    Skip AI review even when ANTHROPIC_API_KEY is set\n" ++
  "  -h, --help     Print help\n"

def programHelp : String :=
  "Compile a contract into a clause graph and report structural anomalies\n\n" ++
  "Usage: clausegraph [OPTIONS] [FILE] [COMMAND]\n\n" ++
  "Commands:\n" ++
  "  analyze  Analyze a contract text file\n" ++
  "  help     Print this message or the help of the given subcommand(s)\n\n" ++
  "Arguments:\n" ++
  "  [FILE]  Contract text file (.txt)\n\n" ++
  optionsHelp ++
  "  -V, --version  Print version\n"

/-- The help of the command `analyze`. -/
def analyzeHelp : String :=
  "Analyze a contract text file\n\n" ++
  "Usage: clausegraph analyze [OPTIONS] <FILE>\n\n" ++
  "Arguments:\n" ++
  "  <FILE>  Contract text file (.txt)\n\n" ++
  optionsHelp

/-- The help of the command `help`. -/
def helpHelp : String :=
  "Print this message or the help of the given subcommand(s)\n\n" ++
  "Usage: clausegraph help [COMMAND]...\n\n" ++
  "Arguments:\n" ++
  "  [COMMAND]...  Print help for the subcommand(s)\n"

def versionText : String := "clausegraph 0.1.0\n"

/-! ## Arguments -/

namespace Invocation

/-- Where arguments stand: before any command, or after the command `analyze`. -/
inductive Place where
  | program
  | analyze
  deriving DecidableEq

/-- The arguments at one place read so far. -/
structure Reading where
  options : Options := {}
  file : Option String := none
  deriving DecidableEq

/-- A switch of the command line. -/
inductive Switch where
  | json
  | verbose
  | noAi
  | help
  | version
  deriving DecidableEq

def Switch.ofName? (name : String) : Option Switch :=
  [("json", .json), ("verbose", .verbose), ("no-ai", .noAi), ("help", .help),
   ("version", .version)].lookup name

def Switch.ofLetter? (letter : Char) : Option Switch :=
  [('v', .verbose), ('h', .help), ('V', .version)].lookup letter

def Place.help : Place → String
  | .program => programHelp
  | .analyze => analyzeHelp

/-- A reading whose file, if there is one, has a name. Whether it has is asked at the next switch
and at the end, so a command that follows the file is read first. -/
def settle (reading : Reading) : Except Invocation Reading :=
  if reading.file = some "" then .error (.unusable "a value is required for '[FILE]'")
  else .ok reading

/-- The reading with one more switch, or what the switch asks for at once. A switch is given once
at a place, and the version is asked for before any command. -/
def flip (place : Place) (reading : Reading) (switch : Switch) : Except Invocation Reading := do
  let reading ← settle reading
  let twice : Except Invocation Reading :=
    .error (.unusable "the argument cannot be used multiple times")
  match switch with
  | .json =>
    if reading.options.json then twice
    else .ok { reading with options := { reading.options with json := true } }
  | .verbose =>
    if reading.options.verbose then twice
    else .ok { reading with options := { reading.options with verbose := true } }
  | .noAi =>
    if reading.options.noAi then twice
    else .ok { reading with options := { reading.options with noAi := true } }
  | .help => .error (.show place.help)
  | .version =>
    match place with
    | .program => .error (.show versionText)
    | .analyze => .error (.unusable "unexpected argument '--version' found")

def flipLetters (place : Place) (reading : Reading) (letters : List Char) :
    Except Invocation Reading :=
  letters.foldlM (fun reading letter =>
    match Switch.ofLetter? letter with
    | some switch => flip place reading switch
    | none => .error (.unusable ("unexpected argument '-" ++ String.singleton letter ++ "' found")))
    reading

/-- The reading with a file, which is the only one. -/
def addFile (reading : Reading) (file : String) : Except Invocation Reading :=
  if reading.file.isSome then .error (.unusable ("unexpected argument '" ++ file ++ "' found"))
  else .ok { reading with file := some file }

/-- What the command `help` is asked for. -/
def helpOn : List String → Invocation
  | [] => .show programHelp
  | ["analyze"] => .show analyzeHelp
  | ["help"] => .show helpHelp
  | _ => .unusable "unrecognized subcommand"

/-- The reading with the arguments after a double dash, which are all files. -/
def addFiles (reading : Reading) (files : List String) : Except Invocation Reading :=
  files.foldlM addFile reading

/-- What all arguments ask for when there is no command. -/
def finishProgram (reading : Reading) : Except Invocation Invocation := do
  let reading ← settle reading
  return .analyze reading.options reading.file

/-- What all arguments read before the command `analyze` and after it ask for. -/
def finishAnalyze (outer inner : Reading) : Except Invocation Invocation := do
  let inner ← settle inner
  let outer ← settle outer
  match inner.file with
  | some file => return .analyze (outer.options.union inner.options) (some file)
  | none => .error (.unusable "the following required arguments were not provided: <FILE>")

/-- What one argument that is a switch, a cluster of letters or a file adds to a reading. -/
def addArgument (place : Place) (reading : Reading) (argument : String) :
    Except Invocation Reading :=
  match argument.toList with
  | '-' :: '-' :: name =>
    match Switch.ofName? (String.ofList name) with
    | some switch => flip place reading switch
    | none => .error (.unusable ("unexpected argument '" ++ argument ++ "' found"))
  | '-' :: letter :: letters => flipLetters place reading (letter :: letters)
  | _ => addFile reading argument

/-- What the arguments after the command `analyze` ask for. -/
def parseAnalyze (outer inner : Reading) : List String → Except Invocation Invocation
  | [] => finishAnalyze outer inner
  | "--" :: files => do finishAnalyze outer (← addFiles inner files)
  | argument :: rest => do parseAnalyze outer (← addArgument .analyze inner argument) rest

/-- What the arguments before any command, and those after it, ask for. -/
def parseProgram (reading : Reading) : List String → Except Invocation Invocation
  | [] => finishProgram reading
  | "--" :: files => do finishProgram (← addFiles reading files)
  | "analyze" :: rest => parseAnalyze reading {} rest
  | "help" :: rest => .ok (helpOn rest)
  | argument :: rest => do parseProgram (← addArgument .program reading argument) rest

/-- What arguments ask for. The first argument that asks for something at once, or for nothing that
can be done, counts. -/
def parse (arguments : List String) : Invocation :=
  match parseProgram {} arguments with
  | .ok invocation => invocation
  | .error invocation => invocation

end Invocation

/-! ## Runs -/

/-- What a run prints. -/
inductive CommandOutput where
  | text (text : String)
  /-- A report, as JSON or as text. -/
  | report (json : Bool) (report : Report)

/-- The exit code and the output of a run. -/
structure CommandResult where
  exit : Nat
  output : CommandOutput := .text ""
  /-- What is said about a failure. -/
  complaint : String := ""

def CommandResult.stdout (result : CommandResult) : String :=
  match result.output with
  | .text text => text
  | .report true report => report.json ++ "\n"
  | .report false report => report.text ++ "\n"

def failed (reason : String) : CommandResult :=
  { exit := 1, complaint := "Error: " ++ reason ++ "\n" }

/-- The report on a document, or why there is none. -/
def analyzeFile (options : Options) (settings : Settings) (contents : Contents)
    (transport : Transport) (stamp : Stamp) (file : String) : Except Failure Report := do
  let analyst ← if options.noAi then pure {} else Analyst.ofSettings settings transport
  let document ← Document.load contents file
  let outcome ← analyst.run stamp document
  return outcome.report

def runCommand (arguments : List String) (settings : Settings) (contents : Contents)
    (transport : Transport) (stamp : Stamp) : CommandResult :=
  match Invocation.parse arguments with
  | .show text => { exit := 0, output := .text text }
  | .unusable reason => { exit := 2, complaint := "error: " ++ reason ++ "\n" }
  | .analyze _ none => failed "File argument is required"
  | .analyze options (some file) =>
    match analyzeFile options settings contents transport stamp file with
    | .ok report => { exit := 0, output := .report options.json report }
    | .error failure => failed failure.message

end ContractAnalysis
