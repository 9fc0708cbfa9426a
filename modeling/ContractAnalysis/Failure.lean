/-!
# Failures

Why a contract cannot be read, compiled or reviewed.

* `Failure`: the causes
* `Failure.message`: their wording
* `Failure.isRefusal`: whether the parts of a graph do not fit together
-/

namespace ContractAnalysis

/-- Why a file cannot be read. -/
inductive FileFault where
  | missing
  | notADirectory
  | isADirectory
  | notText
  /-- Another fault, in the words of the operating system. -/
  | other (text : String)
  deriving DecidableEq

def FileFault.message : FileFault → String
  | .missing => "No such file or directory (os error 2)"
  | .notADirectory => "Not a directory (os error 20)"
  | .isADirectory => "Is a directory (os error 21)"
  | .notText => "stream did not contain valid UTF-8"
  | .other text => text

/-- Why something could not be done. -/
inductive Failure where
  | duplicateNode (id : String)
  | unknownNode (id : String)
  | invalidEdgeLabel (label : String)
  | unsupportedFormat (what : String)
  | pdf (text : String)
  | invalidInput (text : String)
  | file (fault : FileFault)
  /-- The review failed. -/
  | review (text : String)
  | settings (text : String)
  deriving DecidableEq

namespace Failure

def message : Failure → String
  | .duplicateNode id => "Duplicate node id: " ++ id
  | .unknownNode id => "Unknown node: " ++ id
  | .invalidEdgeLabel label => "Invalid edge type: " ++ label
  | .unsupportedFormat what => "Unsupported file type: " ++ what
  | .pdf text => "PDF error: " ++ text
  | .invalidInput text => "Invalid input: " ++ text
  | .file fault => "I/O error: " ++ fault.message
  | .review text => "Analyzer error: " ++ text
  | .settings text => "Configuration error: " ++ text

/-- Whether the parts of a graph do not fit together. -/
def isRefusal : Failure → Bool
  | .duplicateNode _ | .unknownNode _ | .invalidEdgeLabel _ => true
  | _ => false

end Failure

end ContractAnalysis
